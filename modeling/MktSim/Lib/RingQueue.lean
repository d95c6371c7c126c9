import Mathlib.Data.List.Basic

set_option autoImplicit false

namespace Ring

variable {α : Type}

-- A single-producer, single-consumer queue over a ring. `front` is what can be read
-- in one piece from the read position, `wrapped` what was committed behind the end.
structure Queue (α : Type) where
  front : List α
  wrapped : List α
  released : Nat
  reading : Bool
deriving DecidableEq, Repr

inductive ReadError where
  | insufficientSize
  | grantInProgress
deriving DecidableEq, Repr

def Queue.empty : Queue α := ⟨[], [], 0, false⟩

def Queue.unreleased (queue : Queue α) : List α := queue.front ++ queue.wrapped

-- The producer can only wrap into room that was released.
def Queue.commit (segment : List α) (wraps : Bool) (queue : Queue α) : Option (Queue α) :=
  if wraps ∧ queue.released = 0 then none
  else if wraps ∨ queue.wrapped ≠ [] then some { queue with wrapped := queue.wrapped ++ segment }
  else some { queue with front := queue.front ++ segment }

def Queue.read (queue : Queue α) : Except ReadError (List α × Queue α) :=
  if queue.reading then .error .grantInProgress
  else match queue.front, queue.wrapped with
    | [], [] => .error .insufficientSize
    | [], next :: rest => .ok (next :: rest, ⟨next :: rest, [], queue.released, true⟩)
    | next :: rest, _ => .ok (next :: rest, { queue with reading := true })

def Queue.release (used : Nat) (queue : Queue α) : Queue α :=
  { queue with front := queue.front.drop used, released := queue.released + used, reading := false }

def Queue.dropGrant (queue : Queue α) : Queue α := queue.release 0

theorem commit_unreleased {queue next : Queue α} {segment : List α} {wraps : Bool}
    (done : queue.commit segment wraps = some next) :
    next.unreleased = queue.unreleased ++ segment := by
  unfold Queue.commit at done
  by_cases refused : wraps = true ∧ queue.released = 0
  · rw [if_pos refused] at done
    cases done
  · rw [if_neg refused] at done
    by_cases behind : wraps = true ∨ queue.wrapped ≠ []
    · rw [if_pos behind] at done
      obtain rfl := Option.some.inj done
      exact (List.append_assoc _ _ _).symm
    · rw [if_neg behind] at done
      obtain rfl := Option.some.inj done
      have nothing : queue.wrapped = [] := by
        by_contra some_
        exact behind (.inr some_)
      simp [Queue.unreleased, nothing]

theorem read_unreleased {queue next : Queue α} {grant : List α} (done : queue.read = .ok (grant, next)) :
    grant <+: queue.unreleased ∧ next.unreleased = queue.unreleased := by
  obtain ⟨front, wrapped, released, reading⟩ := queue
  unfold Queue.read at done
  cases reading with
  | true => cases done
  | false =>
      cases front with
      | nil =>
          cases wrapped with
          | nil => cases done
          | cons next rest =>
              cases done
              exact ⟨by simp [Queue.unreleased], by simp [Queue.unreleased]⟩
      | cons next rest =>
          cases done
          exact ⟨by simp [Queue.unreleased], rfl⟩

theorem drop_grant_unreleased (queue : Queue α) : queue.dropGrant.unreleased = queue.unreleased := rfl

end Ring
