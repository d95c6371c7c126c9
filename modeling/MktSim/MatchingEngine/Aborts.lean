import MktSim.MatchingEngine.Engine

set_option autoImplicit false

namespace MktSim

open Ring Runs

def accepts (history : List EngineEvent) : Nat := history.countP fun event => event matches .accept

def resumed (history : List EngineEvent) : List Nat :=
  history.filterMap fun
    | .task task _ => some task
    | _ => none

def abortedSession (history : List EngineEvent) (task : Nat) : Session :=
  if task ∈ resumed history then panickedSession else .opened

-- All there is after a run: every task that went on at all has panicked in its first pass.
def aborted (survives : Bool) (history : List EngineEvent) : Engine where
  sessions := (List.range (accepts history)).map (abortedSession history)
  journaler := .start
  commits := []
  running := survives || (resumed history).isEmpty

theorem opened_resumes {engine : Engine} {resume : Resume} {next : Connection × Option (List UInt8)}
    (stepped : Session.opened.connection.step (engine.taskEvent resume) = some next) :
    next = (Connection.opened.panic, none) ∧ receivedBy (engine.taskEvent resume) = [] ∧
      sentBy Session.opened.connection (engine.taskEvent resume) = [] := by
  obtain ⟨request, asked⟩ := ready_step rfl stepped
  rw [asked, begin_empty rfl rfl] at stepped
  rw [asked]
  exact ⟨(Option.some.inj stepped).symm, rfl, rfl⟩

theorem set_range {α : Type} {first second : Nat → α} {count task : Nat} (others : ∀ other, other ≠ task → first other = second other) :
    ((List.range count).map first).set task (second task) = (List.range count).map second := by
  apply List.ext_getElem?
  intro place
  rw [List.getElem?_set]
  by_cases same : task = place
  · subst same
    by_cases inside : task < count <;> simp [inside]
  · by_cases inside : place < count <;> simp [same, inside, others place (Ne.symm same)]

theorem resumed_append (history : List EngineEvent) (task : Nat) (resume : Resume) :
    resumed (history ++ [.task task resume]) = resumed history ++ [task] := by simp [resumed]

theorem accepted_step {survives : Bool} {history : List EngineEvent} (known : ∀ task ∈ resumed history, task < accepts history) :
    { aborted survives history with sessions := (aborted survives history).sessions ++ [.opened] } =
      aborted survives (history ++ [.accept]) := by
  have same : resumed (history ++ [.accept]) = resumed history := by simp [resumed]
  have more : accepts (history ++ [.accept]) = accepts history + 1 := by simp [accepts]
  have fresh : abortedSession history (accepts history) = .opened :=
    if_neg fun member => Nat.lt_irrefl _ (known _ member)
  have sessions : abortedSession (history ++ [.accept]) = abortedSession history := by
    funext task
    rw [abortedSession, same, abortedSession]
  simp only [aborted, same, more, sessions, List.range_succ, List.map_append, List.map_cons, List.map_nil, fresh]

-- A task that goes on is one that has just been opened, and the copy of its first pass panics.
theorem resumed_step {survives : Bool} {history : List EngineEvent} {task : Nat} {resume : Resume} {after : Engine}
    (running : (aborted survives history).running = true)
    (stepped : EngineStepped survives (aborted survives history) (.task task resume) after) :
    after = aborted survives (history ++ [.task task resume]) ∧ task < accepts history := by
  cases stepped with
  | task task resume session connection segment journaler found stepped commits =>
      obtain ⟨inside, own⟩ := List.getElem?_eq_some_iff.mp found
      simp only [aborted, List.length_map, List.length_range] at inside
      simp only [aborted, List.getElem_map, List.getElem_range, abortedSession] at own
      split at own
      · rw [← own, panicked_step rfl] at stepped
        cases stepped
      · subst own
        obtain ⟨next, received, sent⟩ := opened_resumes stepped
        obtain ⟨rfl, rfl⟩ := Prod.mk.inj next
        obtain rfl := Option.some.inj commits
        refine ⟨?_, inside⟩
        have recorded : Session.opened.record ((aborted survives history).taskEvent resume) Connection.opened.panic none =
            abortedSession (history ++ [.task task resume]) task := by
          rw [Session.record, received, sent, abortedSession, resumed_append, if_pos (List.mem_append_right _ (List.mem_singleton_self _))]
          rfl
        have others : ∀ other, other ≠ task → abortedSession history other = abortedSession (history ++ [.task task resume]) other := by
          intro other apart
          simp only [abortedSession, resumed_append, List.mem_append, List.mem_singleton, apart, or_false]
        have same : accepts (history ++ [.task task resume]) = accepts history := by simp [accepts]
        have runs : (aborted survives history).runsOn survives Connection.opened.panic.phase = survives := by
          change ((aborted survives history).running && survives) = survives
          rw [running, Bool.true_and]
        rw [recorded, runs]
        simp only [aborted, set_range others, same, resumed_append]
        simp

/-- What every run of the matching engine comes to: nothing is journaled, received or answered, since each task panics
in its first pass and may take the thread with it. -/
theorem engine_aborts (survives : Bool) (history : List EngineEvent) (engine : Engine)
    (run : EngineRun survives history engine) :
    engine = aborted survives history ∧ ∀ task ∈ resumed history, task < accepts history := by
  refine trace_invariant (fun history engine => engine = aborted survives history ∧
    ∀ task ∈ resumed history, task < accepts history) ⟨?_, fun task member => by cases member⟩ ?_ run
  · simp [aborted, Engine.start, accepts, resumed]
  · rintro history before event after _ ⟨rfl, known⟩ fired
    cases event with
    | accept =>
        rw [Engine.step] at fired
        split at fired
        · obtain rfl := Option.some.inj fired
          refine ⟨accepted_step known, fun task member => ?_⟩
          have older := known task (by simpa [resumed] using member)
          simp only [accepts, List.countP_append] at older ⊢
          omega
        · cases fired
    | task task resume =>
        have stepped := engine_step_cases fired
        rw [Engine.step] at fired
        split at fired
        · rename_i running
          obtain ⟨same, inside⟩ := resumed_step running stepped
          refine ⟨same, fun other member => ?_⟩
          have more : accepts (history ++ [.task task resume]) = accepts history := by simp [accepts]
          rw [more]
          rw [resumed_append] at member
          cases List.mem_append.mp member with
          | inl old => exact known other old
          | inr new => exact List.mem_singleton.mp new ▸ inside
        · cases fired
    | journal event =>
        have same : aborted survives (history ++ [.journal event]) = aborted survives history := by
          simp [aborted, accepts, resumed, abortedSession]
        have known' : ∀ task ∈ resumed (history ++ [.journal event]), task < accepts (history ++ [.journal event]) := by
          simpa [resumed, accepts] using known
        rw [same]
        refine ⟨?_, known'⟩
        cases event with
        | commit segment wraps => cases fired
        | read =>
            have idle : some (aborted survives history) = some after := fired
            exact (Option.some.inj idle).symm
        | written grant result => cases fired

theorem engine_aborts_two : twoPanicked = aborted true twoClients ∧ ∀ task ∈ resumed twoClients, task < accepts twoClients :=
  engine_aborts true twoClients twoPanicked two_clients_run

end MktSim
