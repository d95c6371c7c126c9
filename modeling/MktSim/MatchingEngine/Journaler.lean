import MktSim.Lib.RingQueue
import MktSim.Lib.Trace

set_option autoImplicit false

namespace MktSim

open Ring Runs

-- What became of a `write_all_at`. A write that fails may have appended the first of its bytes.
inductive WriteResult where
  | ok
  | failed (written : Nat)
deriving DecidableEq, Repr

structure Journaler where
  queue : Ring.Queue UInt8
  writing : Option (List UInt8)
  file : List UInt8
deriving DecidableEq

-- `handle_connection` commits a segment; the server's loop reads a grant, and later
-- the write of that grant ends.
inductive JournalEvent where
  | commit (segment : List UInt8) (wraps : Bool)
  | read
  | written (grant : List UInt8) (result : WriteResult)
deriving DecidableEq, Repr

def appendedBy : JournalEvent → List UInt8
  | .written grant .ok => grant
  | .written grant (.failed written) => grant.take written
  | _ => []

def Journaler.start : Journaler := ⟨.empty, none, []⟩

-- `none` where the event cannot happen or the server panics.
def Journaler.step (journaler : Journaler) : JournalEvent → Option Journaler
  | .commit segment wraps => do
      let queue ← journaler.queue.commit segment wraps
      return { journaler with queue := queue }
  | .read =>
      match journaler.writing with
      | some _ => none
      | none =>
          match journaler.queue.read with
          | .error .insufficientSize => some journaler
          | .error .grantInProgress => none
          | .ok (grant, queue) => some { journaler with queue := queue, writing := some grant }
  | .written grant result =>
      if journaler.writing = some grant then
        -- The grant is dropped at the end of the statement and never released.
        some ⟨journaler.queue.dropGrant, none, journaler.file ++ appendedBy (.written grant result)⟩
      else none

def JournalRun : List JournalEvent → Journaler → Prop :=
  Trace Journaler.start fun _ before event after => before.step event = some after

def committed : List JournalEvent → List UInt8
  | [] => []
  | .commit segment _ :: rest => segment ++ committed rest
  | _ :: rest => committed rest

theorem committed_append (before after : List JournalEvent) :
    committed (before ++ after) = committed before ++ committed after := by
  induction before with
  | nil => rfl
  | cons event rest ih =>
      cases event with
      | commit segment wraps => simp only [List.cons_append, committed, ih, List.append_assoc]
      | read => exact ih
      | written grant result => exact ih

def appends (history : List JournalEvent) : List JournalEvent := history.filter fun event => appendedBy event ≠ []

-- Nothing is ever released: every grant starts again with the first byte committed.
structure Unreleased (history : List JournalEvent) (journaler : Journaler) : Prop where
  queue : journaler.queue.unreleased = committed history
  writing : ∀ grant, journaler.writing = some grant → grant <+: committed history
  pieces : ∀ event ∈ history, appendedBy event <+: committed history
  file : journaler.file = history.flatMap appendedBy

inductive JournalStepped (before : Journaler) : JournalEvent → Journaler → Prop where
  | commit (segment : List UInt8) (wraps : Bool) (queue : Ring.Queue UInt8)
      (done : before.queue.commit segment wraps = some queue) :
      JournalStepped before (.commit segment wraps) { before with queue := queue }
  | idle : JournalStepped before .read before
  | read (grant : List UInt8) (queue : Ring.Queue UInt8) (reads : before.queue.read = .ok (grant, queue)) :
      JournalStepped before .read { before with queue := queue, writing := some grant }
  | written (grant : List UInt8) (result : WriteResult) (writing : before.writing = some grant) :
      JournalStepped before (.written grant result)
        ⟨before.queue.dropGrant, none, before.file ++ appendedBy (.written grant result)⟩

theorem journal_step_cases {before after : Journaler} {event : JournalEvent} (fired : before.step event = some after) :
    JournalStepped before event after := by
  cases event with
  | commit segment wraps =>
      obtain ⟨queue, done, same⟩ := Option.bind_eq_some_iff.mp fired
      obtain rfl := Option.some.inj same
      exact .commit segment wraps queue done
  | read =>
      rw [Journaler.step] at fired
      cases writing : before.writing with
      | some grant =>
          rw [writing] at fired
          cases fired
      | none =>
          rw [writing] at fired
          simp only at fired
          cases reads : before.queue.read with
          | error error =>
              rw [reads] at fired
              cases error with
              | insufficientSize =>
                  obtain rfl := Option.some.inj fired
                  exact .idle
              | grantInProgress => cases fired
          | ok taken =>
              rw [reads] at fired
              obtain rfl := Option.some.inj fired
              exact .read taken.1 taken.2 reads
  | written grant result =>
      rw [Journaler.step] at fired
      by_cases mine : before.writing = some grant
      · rw [if_pos mine] at fired
        obtain rfl := Option.some.inj fired
        exact .written grant result mine
      · rw [if_neg mine] at fired
        cases fired

theorem appended_first (grant : List UInt8) (result : WriteResult) : appendedBy (.written grant result) <+: grant := by
  cases result with
  | ok => exact List.prefix_rfl
  | failed written => exact List.take_prefix written grant

theorem unreleased_step {history : List JournalEvent} {before after : Journaler} {event : JournalEvent}
    (holds : Unreleased history before) (stepped : JournalStepped before event after) :
    Unreleased (history ++ [event]) after := by
  have longer : committed history <+: committed (history ++ [event]) := by
    rw [committed_append]
    exact List.prefix_append _ _
  have pieces : appendedBy event <+: committed (history ++ [event]) →
      ∀ other ∈ history ++ [event], appendedBy other <+: committed (history ++ [event]) := by
    intro last other member
    cases List.mem_append.mp member with
    | inl old => exact (holds.pieces other old).trans longer
    | inr new => rwa [List.mem_singleton.mp new]
  have file : before.file ++ appendedBy event = (history ++ [event]).flatMap appendedBy := by
    rw [List.flatMap_append, ← holds.file]
    simp
  cases stepped with
  | commit segment wraps queue done =>
      refine ⟨?_, fun grant writing => (holds.writing grant writing).trans longer, pieces List.nil_prefix,
        (List.append_nil _).symm.trans file⟩
      rw [commit_unreleased done, holds.queue, committed_append]
      simp [committed]
  | idle =>
      have still : committed (history ++ [JournalEvent.read]) = committed history := by simp [committed_append, committed]
      exact ⟨still ▸ holds.queue, still ▸ holds.writing, pieces List.nil_prefix, (List.append_nil _).symm.trans file⟩
  | read grant queue reads =>
      have still : committed (history ++ [JournalEvent.read]) = committed history := by simp [committed_append, committed]
      obtain ⟨first, same⟩ := read_unreleased reads
      rw [holds.queue] at first same
      refine ⟨same.trans still.symm, fun other granted => ?_, pieces List.nil_prefix, (List.append_nil _).symm.trans file⟩
      obtain rfl := Option.some.inj granted
      exact first.trans longer
  | written grant result writing =>
      have still : committed (history ++ [JournalEvent.written grant result]) = committed history := by
        simp [committed_append, committed]
      have piece := (appended_first grant result).trans (holds.writing grant writing)
      exact ⟨(drop_grant_unreleased before.queue).trans (holds.queue.trans still.symm),
        (fun other absent => by cases absent), pieces (piece.trans longer), file⟩

theorem run_unreleased {history : List JournalEvent} {journaler : Journaler} (run : JournalRun history journaler) :
    Unreleased history journaler := by
  refine trace_invariant Unreleased ⟨rfl, (fun grant writing => by cases writing), (fun event member => by cases member), rfl⟩
    ?_ run
  intro history before event after _ holds fired
  exact unreleased_step holds (journal_step_cases fired)

theorem flat_map_appends (history : List JournalEvent) :
    history.flatMap appendedBy = (appends history).flatMap appendedBy := by
  induction history with
  | nil => rfl
  | cons event rest ih =>
      by_cases nothing : appendedBy event = []
      · simpa [appends, nothing] using ih
      · simpa [appends, nothing] using ih

/-- The file is a prefix of what was committed as long as one write at most has put
bytes into it: the next one would start again from the first byte. -/
theorem journal_prefix (history : List JournalEvent) (journaler : Journaler) (run : JournalRun history journaler)
    (once : (appends history).length ≤ 1) : journaler.file <+: committed history := by
  have holds := run_unreleased run
  rw [holds.file, flat_map_appends]
  cases writes : appends history with
  | nil => exact List.nil_prefix
  | cons event rest =>
      cases rest with
      | nil =>
          have member : event ∈ appends history := by simp [writes]
          have piece := holds.pieces event (List.mem_filter.mp member).1
          simpa using piece
      | cons other more =>
          rw [writes] at once
          simp at once

theorem journal_run (events : List JournalEvent) {last : Journaler}
    (fires : events.foldlM Journaler.step .start = some last) : JournalRun events last :=
  run_steps .start events fires

def onceJournaled : List JournalEvent := [.commit [7, 1] false, .read, .commit [7, 2] false, .written [7, 1] .ok]

theorem journal_prefix_once : ([7, 1] : List UInt8) <+: committed onceJournaled :=
  journal_prefix onceJournaled ⟨⟨[7, 1, 7, 2], [], 0, false⟩, none, [7, 1]⟩ (journal_run onceJournaled (by decide))
    (by decide)

def twiceJournaled : List JournalEvent :=
  [.commit [7, 1] false, .read, .written [7, 1] .ok, .read, .written [7, 1] .ok]

theorem segment_journaled_twice : ¬ ∀ history journaler, JournalRun history journaler →
    journaler.file <+: committed history := by
  intro claimed
  have whole := claimed twiceJournaled ⟨⟨[7, 1], [], 0, false⟩, none, [7, 1, 7, 1]⟩
    (journal_run twiceJournaled (by decide))
  have longer := whole.length_le
  revert longer
  decide

end MktSim
