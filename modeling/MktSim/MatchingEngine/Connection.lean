import MktSim.MatchingEngine.Journaler
import MktSim.MatchingEngine.Validate

set_option autoImplicit false

namespace MktSim

-- What `grant_max_remaining(1 << 16)` grants: some contiguous room, with the bytes the ring held there.
structure WriteGrant where
  buf : List UInt8
  granted : 0 < buf.length
  within : buf.length ≤ 1 <<< 16

inductive GrantError where
  | insufficientSize
  | grantInProgress
deriving DecidableEq, Repr

inductive ReadResult where
  | ok (bytes : List UInt8)
  | failed
deriving DecidableEq, Repr

-- Where `handle_connection` is in its loop. A write grant is held across the read,
-- and where that failed also across the write.
inductive Phase where
  | ready
  | reading (buf : List UInt8)
  | writing (held : Option (List UInt8))
  | stuck
  | panicked
deriving DecidableEq

def Phase.holdsGrant : Phase → Bool
  | .reading _ | .stuck => true
  | .writing held => held.isSome
  | _ => false

structure Connection where
  scratch : List UInt8
  writeBuf : List UInt8
  seq : UInt32
  phase : Phase
deriving DecidableEq

def Connection.opened : Connection := ⟨[], [], 0, .ready⟩

inductive TaskEvent where
  | begin (request : Except GrantError WriteGrant)
  | read (result : ReadResult)
  | written (result : WriteResult)

def Connection.panic (connection : Connection) : Connection := { connection with phase := .panicked }

-- `copy_from_slice` panics unless the grant is as long as the scratch bytes.
def Connection.copyScratch (connection : Connection) (grant : WriteGrant) : Connection :=
  if grant.buf.length = connection.scratch.length then
    { connection with scratch := [], phase := .reading connection.scratch }
  else connection.panic

-- The socket fills the grant from its first byte. With the connection comes the segment it commits.
def Connection.finishRead (connection : Connection) (buf bytes : List UInt8) : Connection × Option (List UInt8) :=
  let filled := (bytes ++ buf.drop bytes.length).take bytes.length
  match validate filled connection.writeBuf connection.seq with
  | .returned segment writeBuf seq =>
      (⟨connection.scratch ++ filled.drop segment, writeBuf, seq, .writing none⟩, some (filled.take segment))
  | .panicked => (connection.panic, none)
  | .running => ({ connection with phase := .stuck }, none)

-- `none` where the event cannot happen.
def Connection.step (connection : Connection) (event : TaskEvent) : Option (Connection × Option (List UInt8)) :=
  match connection.phase, event with
  | .ready, .begin (.error _) => some (connection.panic, none)
  | .ready, .begin (.ok grant) => some (connection.copyScratch grant, none)
  | .reading buf, .read .failed => some ({ connection with phase := .writing (some buf) }, none)
  | .reading buf, .read (.ok bytes) =>
      if bytes.length ≤ buf.length then some (connection.finishRead buf bytes) else none
  | .writing _, .written .ok => some ({ connection with phase := .ready }, none)
  | .writing _, .written (.failed _) => some (connection.panic, none)
  | _, _ => none

def receivedBy : TaskEvent → List UInt8
  | .read (.ok bytes) => bytes
  | _ => []

def sentBy (connection : Connection) : TaskEvent → List UInt8
  | .written .ok => connection.writeBuf
  | .written (.failed written) => connection.writeBuf.take written
  | _ => []

structure Session where
  connection : Connection
  received : List UInt8
  sent : List UInt8
  segments : List (List UInt8)
deriving DecidableEq

def Session.opened : Session := ⟨.opened, [], [], []⟩

def Session.record (session : Session) (event : TaskEvent) (connection : Connection) (segment : Option (List UInt8)) : Session :=
  ⟨connection, session.received ++ receivedBy event, session.sent ++ sentBy session.connection event,
    session.segments ++ segment.toList⟩

def Session.step (session : Session) (event : TaskEvent) : Option Session := do
  let (connection, segment) ← session.connection.step event
  return session.record event connection segment

structure Pass where
  request : Except GrantError WriteGrant
  result : ReadResult

def Pass.events (pass : Pass) : List TaskEvent := [.begin pass.request, .read pass.result, .written .ok]

def Pass.Possible (pass : Pass) : Prop :=
  ∃ grant, pass.request = .ok grant ∧
    ∀ bytes, pass.result = .ok bytes → bytes ≠ [] ∧ bytes.length ≤ grant.buf.length

structure Reassembled (session : Session) : Prop where
  rejoined : session.segments.flatten ++ session.connection.scratch = session.received
  boundary : session.segments.flatten = (splitFrames session.received).frames.flatten
  replied : session.connection.writeBuf = replies (splitFrames session.received).frames 0
  counted : session.connection.seq = counterAfter (splitFrames session.received).frames 0

-- The passes go through, as does the request after them, with everything received in place.
def Reassembles (passes : List Pass) (request : Except GrantError WriteGrant) : Prop :=
  ∃ session next, (passes.flatMap Pass.events).foldlM Session.step .opened = some session ∧ Reassembled session ∧
    session.received = passes.flatMap (fun pass => receivedBy (.read pass.result)) ∧
    session.step (.begin request) = some next ∧ next.connection.phase ≠ .panicked

theorem copy_scratch_empty {connection : Connection} (empty : connection.scratch = []) (grant : WriteGrant) :
    connection.copyScratch grant = connection.panic := by
  have longer := grant.granted
  rw [Connection.copyScratch, if_neg]
  rw [empty]
  exact longer.ne'

theorem begin_empty {connection : Connection} (ready : connection.phase = .ready) (empty : connection.scratch = [])
    (request : Except GrantError WriteGrant) : connection.step (.begin request) = some (connection.panic, none) := by
  unfold Connection.step
  rw [ready]
  cases request with
  | error error => rfl
  | ok grant => exact congrArg (fun next => some (next, none)) (copy_scratch_empty empty grant)

inductive ConnectionStepped (before : Connection) : TaskEvent → Connection × Option (List UInt8) → Prop where
  | refused (error : GrantError) (ready : before.phase = .ready) :
      ConnectionStepped before (.begin (.error error)) (before.panic, none)
  | granted (grant : WriteGrant) (ready : before.phase = .ready) :
      ConnectionStepped before (.begin (.ok grant)) (before.copyScratch grant, none)
  | readFailed (buf : List UInt8) (reading : before.phase = .reading buf) :
      ConnectionStepped before (.read .failed) ({ before with phase := .writing (some buf) }, none)
  | read (buf bytes : List UInt8) (reading : before.phase = .reading buf) (fits : bytes.length ≤ buf.length) :
      ConnectionStepped before (.read (.ok bytes)) (before.finishRead buf bytes)
  | written (held : Option (List UInt8)) (writing : before.phase = .writing held) :
      ConnectionStepped before (.written .ok) ({ before with phase := .ready }, none)
  | writeFailed (held : Option (List UInt8)) (count : Nat) (writing : before.phase = .writing held) :
      ConnectionStepped before (.written (.failed count)) (before.panic, none)

theorem connection_step_cases {before : Connection} {event : TaskEvent} {after : Connection × Option (List UInt8)}
    (fired : before.step event = some after) : ConnectionStepped before event after := by
  unfold Connection.step at fired
  split at fired
  · rename_i ready
    obtain rfl := Option.some.inj fired
    exact .refused _ ready
  · rename_i ready
    obtain rfl := Option.some.inj fired
    exact .granted _ ready
  · rename_i reading
    obtain rfl := Option.some.inj fired
    exact .readFailed _ reading
  · rename_i reading
    split at fired
    · rename_i fits
      obtain rfl := Option.some.inj fired
      exact .read _ _ reading fits
    · cases fired
  · rename_i writing
    obtain rfl := Option.some.inj fired
    exact .written _ writing
  · rename_i writing
    obtain rfl := Option.some.inj fired
    exact .writeFailed _ _ writing
  · cases fired

theorem ready_step {connection : Connection} (ready : connection.phase = .ready) {event : TaskEvent}
    {next : Connection × Option (List UInt8)} (fired : connection.step event = some next) :
    ∃ request, event = .begin request := by
  cases connection_step_cases fired with
  | refused error => exact ⟨_, rfl⟩
  | granted grant => exact ⟨_, rfl⟩
  | readFailed buf reading => cases ready.symm.trans reading
  | read buf bytes reading => cases ready.symm.trans reading
  | written held writing => cases ready.symm.trans writing
  | writeFailed held count writing => cases ready.symm.trans writing

theorem finish_read_frames {connection next : Connection} {buf bytes segment : List UInt8}
    (done : connection.finishRead buf bytes = (next, some segment)) :
    segment = (splitFrames bytes).frames.flatten ∧ next.scratch = connection.scratch ++ (splitFrames bytes).rest ∧
      next.writeBuf = connection.writeBuf ++ replies (splitFrames bytes).frames connection.seq ∧
      next.seq = counterAfter (splitFrames bytes).frames connection.seq ∧
      (splitFrames bytes).ending = some .incomplete := by
  have filled : (bytes ++ buf.drop bytes.length).take bytes.length = bytes := List.take_left
  have whole := split_frames_flatten bytes
  rw [Connection.finishRead, filled] at done
  cases returned : validate bytes connection.writeBuf connection.seq with
  | panicked =>
      rw [returned] at done
      cases done
  | running =>
      rw [returned] at done
      cases done
  | returned consumed writeBuf seq =>
      obtain ⟨length, sent, counted, ends⟩ := validate_consumed returned
      rw [returned] at done
      cases done
      have cut : bytes.take consumed = (splitFrames bytes).frames.flatten ∧ bytes.drop consumed = (splitFrames bytes).rest := by
        generalize splitFrames bytes = split at whole length
        rw [whole, length]
        exact ⟨List.take_left, List.drop_left⟩
      exact ⟨cut.1, congrArg (connection.scratch ++ ·) cut.2, sent, counted, ends⟩

theorem panicked_step {connection : Connection} (panicked : connection.phase = .panicked) (event : TaskEvent) :
    connection.step event = none := by
  unfold Connection.step
  rw [panicked]

theorem session_begins (request : Except GrantError WriteGrant) :
    Session.opened.step (.begin request) = some { Session.opened with connection := Connection.opened.panic } := by
  have panics : Connection.opened.step (.begin request) = some (Connection.opened.panic, none) := begin_empty rfl rfl request
  rw [Session.step]
  change (Connection.opened.step _).bind _ = _
  rw [panics]
  rfl

theorem session_over {session : Session} (panicked : session.connection.phase = .panicked) (event : TaskEvent) :
    session.step event = none := by
  rw [Session.step, panicked_step panicked]
  rfl

theorem first_pass_stops (pass : Pass) (rest : List Pass) :
    ((pass :: rest).flatMap Pass.events).foldlM Session.step .opened = none := by
  rw [List.flatMap_cons, Pass.events, List.cons_append, List.cons_append, List.foldlM_cons, session_begins]
  rw [Option.bind_eq_bind, Option.bind_some, List.foldlM_cons, session_over rfl]
  rfl

/-- The copy of the scratch bytes panics in the first pass, whatever the socket delivers. -/
theorem never_reassembles (passes : List Pass) (request : Except GrantError WriteGrant) :
    ¬ Reassembles passes request := by
  rintro ⟨session, next, runs, _, _, begins, goesOn⟩
  cases passes with
  | nil =>
      obtain rfl := Option.some.inj runs
      rw [session_begins] at begins
      obtain rfl := Option.some.inj begins
      exact goesOn rfl
  | cons pass rest =>
      rw [first_pass_stops] at runs
      cases runs

def emptyRing : WriteGrant := ⟨List.replicate (1 <<< 16) 0, by rw [List.length_replicate]; decide, by rw [List.length_replicate]⟩

def newOrderPass : Pass := ⟨.ok emptyRing, .ok [0, 7, 0, 0, 0, 0, 0, 0, 3]⟩

theorem first_pass_panics : ¬ ∀ (passes : List Pass) (grant : WriteGrant), (∀ pass ∈ passes, pass.Possible) →
    Reassembles passes (.ok grant) := by
  intro claimed
  have possible : newOrderPass.Possible := by
    refine ⟨emptyRing, rfl, fun bytes read => ?_⟩
    obtain rfl := ReadResult.ok.inj read
    exact ⟨by decide, by rw [emptyRing, List.length_replicate]; decide⟩
  obtain ⟨session, next, runs, _⟩ := claimed [newOrderPass] emptyRing (by
    intro pass member
    rwa [List.mem_singleton.mp member])
  rw [first_pass_stops] at runs
  cases runs

end MktSim
