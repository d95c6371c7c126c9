import MktSim.MatchingEngine.Connection

set_option autoImplicit false

namespace MktSim

open Ring Runs

-- The tasks of the accept loop's thread beside the server's loop, with every segment
-- committed so far and the task it came from.
structure Engine where
  sessions : List Session
  journaler : Journaler
  commits : List (Nat × List UInt8)
  running : Bool
deriving DecidableEq

def Engine.start : Engine := ⟨[], .start, [], true⟩

def Engine.granted (engine : Engine) : Bool :=
  engine.sessions.any fun session => session.connection.phase.holdsGrant

def Engine.request (engine : Engine) (room : Option WriteGrant) : Except GrantError WriteGrant :=
  if engine.granted then .error .grantInProgress
  else match room with
    | none => .error .insufficientSize
    | some grant => .ok grant

-- What a task goes on with at an await point or at the start of an iteration.
inductive Resume where
  | begin (room : Option WriteGrant)
  | read (result : ReadResult) (wraps : Bool)
  | written (result : WriteResult)

def Engine.taskEvent (engine : Engine) : Resume → TaskEvent
  | .begin room => .begin (engine.request room)
  | .read result _ => .read result
  | .written result => .written result

def Resume.wraps : Resume → Bool
  | .read _ wraps => wraps
  | _ => false

inductive EngineEvent where
  | accept
  | task (task : Nat) (resume : Resume)
  | journal (event : JournalEvent)

def Journaler.commitSegment (journaler : Journaler) (segment : Option (List UInt8)) (wraps : Bool) : Option Journaler :=
  match segment with
  | none => some journaler
  | some segment => journaler.step (.commit segment wraps)

-- A task that panics takes the thread with it unless its executor survives that. One
-- whose `validate` does not return keeps the thread for good.
def Engine.runsOn (survives : Bool) (engine : Engine) : Phase → Bool
  | .panicked => engine.running && survives
  | .stuck => false
  | _ => engine.running

def Engine.resume (survives : Bool) (engine : Engine) (task : Nat) (resume : Resume) : Option Engine := do
  let session ← engine.sessions[task]?
  let (connection, segment) ← session.connection.step (engine.taskEvent resume)
  let journaler ← engine.journaler.commitSegment segment resume.wraps
  return ⟨engine.sessions.set task (session.record (engine.taskEvent resume) connection segment), journaler,
    engine.commits ++ segment.toList.map fun segment => (task, segment), engine.runsOn survives connection.phase⟩

def Engine.step (survives : Bool) (engine : Engine) : EngineEvent → Option Engine
  | .accept => if engine.running then some { engine with sessions := engine.sessions ++ [.opened] } else none
  | .task task resume => if engine.running then engine.resume survives task resume else none
  -- Segments reach the queue by the tasks only.
  | .journal (.commit _ _) => none
  | .journal event => do
      let journaler ← engine.journaler.step event
      return { engine with journaler := journaler }

def EngineRun (survives : Bool) : List EngineEvent → Engine → Prop :=
  Trace Engine.start fun _ before event after => before.step survives event = some after

def segmentsOf (task : Nat) (commits : List (Nat × List UInt8)) : List (List UInt8) :=
  (commits.filter fun commit => commit.1 = task).map Prod.snd

-- The bytes committed are whole segments, and those of one connection stand in its own order.
structure Interleaved (engine : Engine) : Prop where
  journal : engine.journaler.queue.unreleased = (engine.commits.map Prod.snd).flatten
  ordered : ∀ task session, engine.sessions[task]? = some session → segmentsOf task engine.commits = session.segments
  known : ∀ commit ∈ engine.commits, commit.1 < engine.sessions.length

def Undisturbed (engine : Engine) : Prop :=
  ∀ session ∈ engine.sessions, session.connection.phase = .ready →
    ∀ room, engine.request room ≠ .error .grantInProgress

theorem segments_of_append (task : Nat) (before after : List (Nat × List UInt8)) :
    segmentsOf task (before ++ after) = segmentsOf task before ++ segmentsOf task after := by
  rw [segmentsOf, List.filter_append, List.map_append]
  rfl

theorem segments_of_own (task : Nat) (segments : List (List UInt8)) :
    segmentsOf task (segments.map fun segment => (task, segment)) = segments := by
  induction segments with
  | nil => rfl
  | cons segment rest ih => simpa [segmentsOf] using ih

theorem segments_of_other {task : Nat} {commits : List (Nat × List UInt8)} (others : ∀ commit ∈ commits, commit.1 ≠ task) :
    segmentsOf task commits = [] := by
  have none_ : (commits.filter fun commit => commit.1 = task) = [] := by
    rw [List.filter_eq_nil_iff]
    intro commit member
    simpa using others commit member
  rw [segmentsOf, none_]
  rfl

theorem journal_step_unreleased {before after : Journaler} {event : JournalEvent} (fired : before.step event = some after) :
    after.queue.unreleased = before.queue.unreleased ++ committed [event] := by
  cases journal_step_cases fired with
  | commit segment wraps queue done => rw [commit_unreleased done, committed, committed, List.append_nil]
  | idle => exact (List.append_nil _).symm
  | read grant queue reads => exact (read_unreleased reads).2.trans (List.append_nil _).symm
  | written grant result writing => exact (List.append_nil _).symm

theorem commit_segment_unreleased {before after : Journaler} {segment : Option (List UInt8)} {wraps : Bool}
    (done : before.commitSegment segment wraps = some after) :
    after.queue.unreleased = before.queue.unreleased ++ segment.toList.flatten := by
  cases segment with
  | none =>
      obtain rfl := Option.some.inj done
      exact (List.append_nil _).symm
  | some segment =>
      have stepped : before.step (.commit segment wraps) = some after := done
      rw [journal_step_unreleased stepped]
      simp [committed]

inductive EngineStepped (survives : Bool) (before : Engine) : EngineEvent → Engine → Prop where
  | accept : EngineStepped survives before .accept { before with sessions := before.sessions ++ [.opened] }
  | task (task : Nat) (resume : Resume) (session : Session) (connection : Connection) (segment : Option (List UInt8))
      (journaler : Journaler) (found : before.sessions[task]? = some session)
      (stepped : session.connection.step (before.taskEvent resume) = some (connection, segment))
      (commits : before.journaler.commitSegment segment resume.wraps = some journaler) :
      EngineStepped survives before (.task task resume)
        ⟨before.sessions.set task (session.record (before.taskEvent resume) connection segment), journaler,
          before.commits ++ segment.toList.map fun segment => (task, segment), before.runsOn survives connection.phase⟩
  | journal (event : JournalEvent) (journaler : Journaler) (kept : journaler.queue.unreleased = before.journaler.queue.unreleased) :
      EngineStepped survives before (.journal event) { before with journaler := journaler }

theorem engine_step_cases {survives : Bool} {before after : Engine} {event : EngineEvent}
    (fired : before.step survives event = some after) : EngineStepped survives before event after := by
  cases event with
  | accept =>
      rw [Engine.step] at fired
      split at fired
      · obtain rfl := Option.some.inj fired
        exact .accept
      · cases fired
  | task task resume =>
      rw [Engine.step] at fired
      split at fired
      · obtain ⟨session, found, later⟩ := Option.bind_eq_some_iff.mp fired
        obtain ⟨⟨connection, segment⟩, stepped, last⟩ := Option.bind_eq_some_iff.mp later
        obtain ⟨journaler, commits, same⟩ := Option.bind_eq_some_iff.mp last
        obtain rfl := Option.some.inj same
        exact .task task resume session connection segment journaler found stepped commits
      · cases fired
  | journal event =>
      cases event with
      | commit segment wraps => cases fired
      | read =>
          obtain ⟨journaler, stepped, same⟩ := Option.bind_eq_some_iff.mp fired
          obtain rfl := Option.some.inj same
          exact .journal .read journaler ((journal_step_unreleased stepped).trans (List.append_nil _))
      | written grant result =>
          obtain ⟨journaler, stepped, same⟩ := Option.bind_eq_some_iff.mp fired
          obtain rfl := Option.some.inj same
          exact .journal _ journaler ((journal_step_unreleased stepped).trans (List.append_nil _))

theorem interleaved_step {survives : Bool} {before after : Engine} {event : EngineEvent} (holds : Interleaved before)
    (stepped : EngineStepped survives before event after) : Interleaved after := by
  cases stepped with
  | accept =>
      refine ⟨holds.journal, fun task session found => ?_, fun commit member => ?_⟩
      · rw [List.getElem?_append] at found
        split at found
        · exact holds.ordered task session found
        · rename_i beyond
          have fresh : session = .opened := by
            have member := List.mem_of_getElem? found
            exact List.mem_singleton.mp member
          rw [fresh]
          refine segments_of_other fun commit member same => beyond ?_
          rw [← same]
          exact holds.known commit member
      · have older := holds.known commit member
        change _ < (before.sessions ++ _).length
        rw [List.length_append]
        omega
  | task task resume session connection segment journaler found stepped commits =>
      obtain ⟨inside, _⟩ := List.getElem?_eq_some_iff.mp found
      refine ⟨?_, fun other otherSession otherFound => ?_, fun commit member => ?_⟩
      · rw [commit_segment_unreleased commits, holds.journal]
        simp
      · rw [segments_of_append]
        by_cases same : task = other
        · subst same
          rw [List.getElem?_set_self inside] at otherFound
          obtain rfl := Option.some.inj otherFound
          rw [holds.ordered task session found, segments_of_own]
          rfl
        · rw [List.getElem?_set_ne same] at otherFound
          rw [holds.ordered other otherSession otherFound, segments_of_other, List.append_nil]
          intro commit member
          obtain ⟨_, _, rfl⟩ := List.mem_map.mp member
          exact same
      · change _ < (before.sessions.set _ _).length
        rw [List.length_set]
        cases List.mem_append.mp member with
        | inl old => exact holds.known commit old
        | inr new =>
            obtain ⟨_, _, rfl⟩ := List.mem_map.mp new
            exact inside
  | journal event journaler kept => exact ⟨kept.trans holds.journal, holds.ordered, holds.known⟩

def Unstarted (engine : Engine) : Prop :=
  ∀ session ∈ engine.sessions, session.connection.phase = .panicked ∨
    (session.connection.phase = .ready ∧ session.connection.scratch = [])

theorem unstarted_step {survives : Bool} {before after : Engine} {event : EngineEvent} (holds : Unstarted before)
    (stepped : EngineStepped survives before event after) : Unstarted after := by
  cases stepped with
  | accept =>
      intro session member
      cases List.mem_append.mp member with
      | inl old => exact holds session old
      | inr new =>
          rw [List.mem_singleton.mp new]
          exact .inr ⟨rfl, rfl⟩
  | task task resume session connection segment journaler found stepped commits =>
      intro other member
      cases List.mem_or_eq_of_mem_set member with
      | inl old => exact holds other old
      | inr new =>
          subst new
          cases holds session (List.mem_of_getElem? found) with
          | inl panicked =>
              rw [panicked_step panicked] at stepped
              cases stepped
          | inr waiting =>
              obtain ⟨request, asked⟩ := ready_step waiting.1 stepped
              rw [asked, begin_empty waiting.1 waiting.2] at stepped
              cases stepped
              exact .inl rfl
  | journal event journaler kept => exact holds

theorem begin_fired {survives : Bool} {engine : Engine} {task : Nat} {session : Session} (room : Option WriteGrant)
    (running : engine.running = true) (found : engine.sessions[task]? = some session)
    (ready : session.connection.phase = .ready) (empty : session.connection.scratch = []) :
    engine.step survives (.task task (.begin room)) =
      some ⟨engine.sessions.set task { session with connection := session.connection.panic }, engine.journaler,
        engine.commits, survives⟩ := by
  rw [Engine.step, if_pos running, Engine.resume, found]
  change ((session.connection.step (.begin (engine.request room))).bind _ : Option Engine) = _
  rw [begin_empty ready empty]
  simp [Session.record, receivedBy, sentBy, Engine.taskEvent, Engine.runsOn, Connection.panic, Journaler.commitSegment, running]

theorem unstarted_ungranted {engine : Engine} (holds : Unstarted engine) : engine.granted = false := by
  rw [Engine.granted, List.any_eq_false]
  intro session member
  cases holds session member with
  | inl panicked => simp [panicked, Phase.holdsGrant]
  | inr waiting => simp [waiting.1, Phase.holdsGrant]

-- A task that did wait in its read would make the others' requests fail.
theorem suspended_grant_refuses {engine : Engine} {session : Session} {buf : List UInt8}
    (waiting : session ∈ engine.sessions) (reading : session.connection.phase = .reading buf) (room : Option WriteGrant) :
    engine.request room = .error .grantInProgress := by
  unfold Engine.request
  rw [if_pos]
  rw [Engine.granted, List.any_eq_true]
  exact ⟨session, waiting, by rw [reading]; rfl⟩

theorem run_interleaved {survives : Bool} {history : List EngineEvent} {engine : Engine}
    (run : EngineRun survives history engine) : Interleaved engine ∧ Unstarted engine := by
  refine trace_invariant (fun _ engine => Interleaved engine ∧ Unstarted engine) ?_ ?_ run
  · exact ⟨⟨rfl, (fun task session found => by cases found), (fun commit member => by cases member)⟩,
      fun session member => by cases member⟩
  · intro history before event after _ holds fired
    have stepped := engine_step_cases fired
    exact ⟨interleaved_step holds.1 stepped, unstarted_step holds.2 stepped⟩

/-- However the connections are served, the journal holds whole segments of theirs, each one's
in its order, and no task asks for a grant that another one has. -/
theorem connections_interleave (survives : Bool) (history : List EngineEvent) (engine : Engine)
    (run : EngineRun survives history engine) : Undisturbed engine ∧ Interleaved engine := by
  obtain ⟨interleaved, unstarted⟩ := run_interleaved run
  refine ⟨fun session _ _ room refused => ?_, interleaved⟩
  unfold Engine.request at refused
  rw [unstarted_ungranted unstarted] at refused
  cases room with
  | none => cases refused
  | some grant => cases refused

theorem engine_run {survives : Bool} (events : List EngineEvent) {last : Engine}
    (fires : events.foldlM (Engine.step survives) .start = some last) : EngineRun survives events last :=
  run_steps .start events fires

def twoClients : List EngineEvent :=
  [.accept, .accept, .task 0 (.begin (some emptyRing)), .task 1 (.begin (some emptyRing))]

def panickedSession : Session := { Session.opened with connection := Connection.opened.panic }

def twoPanicked : Engine := ⟨[panickedSession, panickedSession], .start, [], true⟩

theorem two_clients_run : EngineRun true twoClients twoPanicked := by
  have opened : EngineRun true [.accept, .accept] ⟨[.opened, .opened], .start, [], true⟩ :=
    engine_run [.accept, .accept] rfl
  have first : Engine.step true ⟨[.opened, .opened], .start, [], true⟩ (.task 0 (.begin (some emptyRing))) =
      some ⟨[panickedSession, .opened], .start, [], true⟩ := @begin_fired true _ 0 .opened _ rfl rfl rfl rfl
  have second : Engine.step true ⟨[panickedSession, .opened], .start, [], true⟩ (.task 1 (.begin (some emptyRing))) =
      some twoPanicked := @begin_fired true _ 1 .opened _ rfl rfl rfl rfl
  have both := Trace.next _ _ _ _ (Trace.next _ _ _ _ opened first) second
  exact both

theorem connections_interleave_two : Undisturbed twoPanicked ∧ Interleaved twoPanicked :=
  connections_interleave true twoClients twoPanicked two_clients_run

end MktSim
