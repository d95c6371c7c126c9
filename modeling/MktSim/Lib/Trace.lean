import Mathlib.Data.List.Induction

set_option autoImplicit false

namespace Runs

-- The runs of a system whose steps may depend on everything that happened
-- before. Events are recorded in order, the newest last.
inductive Trace {State Event : Type} (init : State)
    (step : List Event → State → Event → State → Prop) : List Event → State → Prop where
  | start : Trace init step [] init
  | next (history : List Event) (state : State) (event : Event) (after : State)
      (earlier : Trace init step history state) (fired : step history state event after) :
      Trace init step (history ++ [event]) after

variable {State Event : Type} {init : State} {step : List Event → State → Event → State → Prop}

theorem trace_invariant (Inv : List Event → State → Prop) (base : Inv [] init)
    (preserved : ∀ history state event after, Trace init step history state → Inv history state →
      step history state event after → Inv (history ++ [event]) after)
    {history : List Event} {state : State} (run : Trace init step history state) : Inv history state := by
  induction run with
  | start => exact base
  | next history state event after earlier fired ih =>
      exact preserved history state event after earlier ih fired

theorem trace_imp {other : List Event → State → Event → State → Prop}
    (weaker : ∀ history state event after, step history state event after → other history state event after)
    {history : List Event} {state : State} (run : Trace init step history state) : Trace init other history state := by
  induction run with
  | start => exact .start
  | next history state event after earlier fired ih =>
      exact .next history state event after ih (weaker history state event after fired)

theorem trace_last {history : List Event} {event : Event} {after : State}
    (run : Trace init step (history ++ [event]) after) :
    ∃ state, Trace init step history state ∧ step history state event after := by
  generalize whole : history ++ [event] = events at run
  cases run with
  | start => simp at whole
  | next before state last _ earlier fired =>
      obtain ⟨rfl, same⟩ := List.append_inj' whole rfl
      obtain rfl : event = last := by simpa using same
      exact ⟨state, earlier, fired⟩

-- Every event of a run was fired by a step out of a state that a prefix of the run reaches,
-- and what every step relates, in a relation that chains, relates that state to the last.
theorem trace_split_relates (Related : State → State → Prop)
    (chain : ∀ {first second third}, Related first second → Related second third → Related first third)
    (related : ∀ history state event after, step history state event after → Related state after)
    {before after : List Event} {event : Event} {final : State} (run : Trace init step (before ++ event :: after) final) :
    ∃ state next, Trace init step before state ∧ step before state event next ∧ Related state final := by
  induction after using List.reverseRecOn generalizing final with
  | nil =>
      obtain ⟨state, earlier, fired⟩ := trace_last run
      exact ⟨state, final, earlier, fired, related _ _ _ _ fired⟩
  | append_singleton after last ih =>
      have shifted : before ++ event :: (after ++ [last]) = (before ++ event :: after) ++ [last] := by simp
      rw [shifted] at run
      obtain ⟨middle, earlier, fired⟩ := trace_last run
      obtain ⟨state, next, reached, first, close⟩ := ih earlier
      exact ⟨state, next, reached, first, chain close (related _ _ _ _ fired)⟩

theorem trace_split {before after : List Event} {event : Event} {final : State}
    (run : Trace init step (before ++ event :: after) final) :
    ∃ state next, Trace init step before state ∧ step before state event next ∧
      Trace init step (before ++ [event]) next := by
  obtain ⟨state, next, reached, fired, _⟩ :=
    trace_split_relates (fun _ _ => True) (fun _ _ => trivial) (fun _ _ _ _ _ => trivial) run
  exact ⟨state, next, reached, fired, .next before state event next reached fired⟩

theorem trace_determined {Key : Type} (key : Event → Key)
    (decided : ∀ history state first next second other, step history state first next → step history state second other →
      key first = key second → first = second ∧ next = other)
    {history again : List Event} {state final : State} (run : Trace init step history state)
    (repeated : Trace init step again final) (same : history.map key = again.map key) : history = again ∧ state = final := by
  induction run generalizing again final with
  | start =>
      obtain rfl := List.map_eq_nil_iff.mp same.symm
      generalize whole : ([] : List Event) = events at repeated
      cases repeated with
      | start => exact ⟨rfl, rfl⟩
      | next => simp at whole
  | next history before event after earlier fired ih =>
      obtain ⟨start, last, rfl, sameStart, sameLast⟩ := List.map_eq_append_iff.mp (same.symm.trans List.map_append)
      obtain ⟨other, rfl, sameKey⟩ := List.map_eq_singleton_iff.mp sameLast
      obtain ⟨state, shorter, again⟩ := trace_last repeated
      obtain ⟨rfl, rfl⟩ := ih shorter sameStart.symm
      obtain ⟨rfl, rfl⟩ := decided _ _ _ _ _ _ fired again sameKey.symm
      exact ⟨rfl, rfl⟩

section Simulation

variable {Other Label : Type} {first : Other} {fires : List Label → Other → Label → Other → Prop}

-- A run is followed by one of another system: each of its steps is a step there too, or none.
theorem trace_simulates (Related : List Event → State → List Label → Other → Prop) (base : Related [] init [] first)
    (followed : ∀ history state event after labels other, Trace first fires labels other →
      Related history state labels other → step history state event after →
        Related (history ++ [event]) after labels other ∨
          ∃ label next, fires labels other label next ∧ Related (history ++ [event]) after (labels ++ [label]) next)
    {history : List Event} {state : State} (run : Trace init step history state) :
    ∃ labels other, Trace first fires labels other ∧ Related history state labels other := by
  induction run with
  | start => exact ⟨[], first, .start, base⟩
  | next history state event after _ fired ih =>
      obtain ⟨labels, other, follows, related⟩ := ih
      cases followed history state event after labels other follows related fired with
      | inl stays => exact ⟨labels, other, follows, stays⟩
      | inr moves =>
          obtain ⟨label, next, moved, related⟩ := moves
          exact ⟨labels ++ [label], next, .next labels other label next follows moved, related⟩

end Simulation

section Steps

variable {fire : State → Event → Option State}

theorem run_steps {history : List Event} {state last : State}
    (run : Trace init (fun _ before event after => fire before event = some after) history state)
    (events : List Event) (fires : events.foldlM fire state = some last) :
    Trace init (fun _ before event after => fire before event = some after) (history ++ events) last := by
  induction events generalizing history state with
  | nil =>
      obtain rfl := Option.some.inj fires
      rwa [List.append_nil]
  | cons event rest ih =>
      rw [List.foldlM_cons] at fires
      obtain ⟨next, first, later⟩ := Option.bind_eq_some_iff.mp fires
      have whole := ih (.next history state event next run first) later
      rwa [List.append_assoc] at whole

theorem run_relates {Related : State → State → Prop} (refl : ∀ state, Related state state)
    (chain : ∀ {first second third}, Related first second → Related second third → Related first third)
    (related : ∀ history state event after, Trace init (fun _ before event after => fire before event = some after) history state →
      fire state event = some after → Related state after)
    {history : List Event} {state last : State}
    (run : Trace init (fun _ before event after => fire before event = some after) history state)
    (events : List Event) (fires : events.foldlM fire state = some last) : Related state last := by
  induction events generalizing history state with
  | nil =>
      obtain rfl := Option.some.inj fires
      exact refl state
  | cons event rest ih =>
      rw [List.foldlM_cons] at fires
      obtain ⟨next, first, later⟩ := Option.bind_eq_some_iff.mp fires
      exact chain (related history state event next run first) (ih (.next history state event next run first) later)

end Steps

end Runs
