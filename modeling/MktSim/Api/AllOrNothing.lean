import MktSim.Api.Completion
import MktSim.Api.Conservation
import MktSim.Api.Views

set_option autoImplicit false

namespace MktSim

open Redis SortedSets Greedy Runs

-- An execution that raises has written nothing.
def Execution.AllOrNothing (execution : Execution) : Prop := execution.completes ∨ execution.after = execution.before

def returned (history : List Execution) : List Execution :=
  history.filter fun execution => execution.outcome.toBool

structure NothingHalfApplied (history : List Execution) (store : Store) : Prop where
  listed : ∀ assetId side, ∀ orderId ∈ bookOrders store assetId side, ∃ accountId,
    (hashAt store (.id orderId)).bind (fun fields => fields .accountId) = some (.raw accountId) ∧
      orderId ∈ accountOrders store accountId
  reduced : ∀ assetId side, ∀ orderId ∈ bookOrders store assetId side, ∃ size originalSize,
    storedNumber store orderId .size = some size ∧ storedNumber store orderId .originalSize = some originalSize ∧
      originalSize - size = sharesTraded (returned history) orderId

theorem returned_complete {history : List Execution} (complete : Complete history) : returned history = history := by
  apply List.filter_eq_self.mpr
  intro execution member
  obtain ⟨reply, ok⟩ := complete execution member
  rw [ok]
  rfl

theorem complete_nothing_half_applied {lua : Lua} {history : List Execution} {store : Store}
    (run : Run lua history store) (complete : Complete history) : NothingHalfApplied history store := by
  obtain ⟨table, rep, _, listed⟩ := complete_listed run complete
  obtain ⟨same, other, accounted⟩ := run_accounted run complete
  constructor
  case listed =>
    intro assetId side orderId member
    obtain ⟨resting, there, _⟩ := (mem_book_orders rep).mp member
    refine ⟨resting.accountId, ?_, (mem_account_orders rep listed).mpr ⟨resting, there, rfl⟩⟩
    rw [represents_hash rep there]
    rfl
  case reduced =>
    intro assetId side orderId member
    obtain ⟨resting, there, _⟩ := (mem_book_orders other).mp member
    refine ⟨resting.size, resting.originalSize, stored_number_some other there _, stored_number_some other there _, ?_⟩
    rw [returned_complete complete]
    exact accounted orderId resting there

-- An execution that raises has dropped the first order it used up from its owner's set.
theorem abandon_changes {lua : Lua} {execution : Execution} {table next : Table} {lots : List Lot}
    (executed : Executed lua execution table lots next)
    (listed : ∀ orderId resting, table orderId = some resting → resting.listed = true)
    (raised : ¬ execution.completes) : execution.after ≠ execution.before := by
  have long : lua.unpackLimit < (execution.order.fill lots).completed.length :=
    Nat.lt_of_not_le fun short => raised ((completes_short executed).mpr short)
  obtain ⟨lot, used⟩ := List.exists_mem_of_ne_nil _ (List.ne_nil_of_length_pos (Nat.zero_lt_of_lt long))
  have there := queue_present executed.queue (completed_subset used)
  have dropped : next lot.1 = some lot.2.unlist := by
    rw [raised_abandons executed raised, abandon_maker executed.queue there, if_pos used]
  intro same
  have inSet : (0, lot.1) ∈ zsetAt execution.before (.id lot.2.accountId) :=
    (executed.before.accounts lot.2.accountId _).mpr ⟨lot.2, there, rfl, listed lot.1 lot.2 there, rfl⟩
  rw [← same] at inSet
  obtain ⟨resting, left, _, stillListed, _⟩ := (executed.after.accounts lot.2.accountId _).mp inSet
  obtain rfl := Option.some.inj (dropped.symm.trans left)
  cases stillListed

theorem all_or_nothing_complete {lua : Lua} {history : List Execution} {store : Store} (run : Run lua history store)
    (whole : ∀ execution ∈ history, execution.AllOrNothing) : Complete history := by
  refine trace_invariant (fun history _ => (∀ execution ∈ history, execution.AllOrNothing) → Complete history)
    (fun _ _ member => absurd member List.not_mem_nil) ?_ run whole
  intro history store execution after earlier ih step whole
  have complete := ih fun other member => whole other (List.mem_append_left _ member)
  refine complete_append.mpr ⟨complete, ?_⟩
  obtain ⟨table, rep, sound, listed⟩ := complete_listed earlier complete
  obtain ⟨lots, next, executed, _⟩ := step_executed rep sound step
  by_contra raised
  cases whole execution (by simp) with
  | inl completes => exact raised completes
  | inr same => exact abandon_changes executed listed raised same

theorem unpacks_all_complete {lua : Lua} {history : List Execution} {store : Store} (run : Run lua history store) :
    Complete history ↔ ∀ execution ∈ history, UnpacksAll lua execution.before execution.order := by
  refine forall_congr' fun execution => forall_congr' fun member => ?_
  obtain ⟨table, lots, next, executed⟩ := run_executed run member
  exact completes_iff executed

/-- Executions are all or nothing where none uses up more orders than can be unpacked, and
there no match is left half applied. -/
theorem all_or_nothing_iff (lua : Lua) (history : List Execution) (store : Store) (run : Run lua history store) :
    ((∀ execution ∈ history, execution.AllOrNothing) ∧ NothingHalfApplied history store) ↔
      ∀ execution ∈ history, UnpacksAll lua execution.before execution.order := by
  rw [← unpacks_all_complete run]
  constructor
  · intro whole
    exact all_or_nothing_complete run whole.1
  · intro complete
    exact ⟨fun execution member => .inl (complete execution member), complete_nothing_half_applied run complete⟩

def makersAndTaker : List Submission :=
  [⟨⟨1⟩, 1, .offers, ⟨10, .limit 3⟩, ⟨11⟩⟩, ⟨⟨1⟩, 1, .offers, ⟨5, .limit 4⟩, ⟨12⟩⟩, ⟨⟨2⟩, 1, .bids, ⟨12, .limit 4⟩, ⟨13⟩⟩]

theorem all_or_nothing_iff_makers :
    ((∀ execution ∈ executions (.exactIntegers 7999) emptyKeys makersAndTaker, execution.AllOrNothing) ∧
      NothingHalfApplied (executions (.exactIntegers 7999) emptyKeys makersAndTaker)
        (storeAfter (.exactIntegers 7999) emptyKeys makersAndTaker)) ↔
      ∀ execution ∈ executions (.exactIntegers 7999) emptyKeys makersAndTaker,
        UnpacksAll (.exactIntegers 7999) execution.before execution.order :=
  all_or_nothing_iff (.exactIntegers 7999) _ _ (executions_run _ makersAndTaker (by decide))

theorem sweep_half_applied : ¬ ∀ (lua : Lua) (history : List Execution) (store : Store), Run lua history store →
    (∀ execution ∈ history, execution.AllOrNothing) ∧ NothingHalfApplied history store := by
  intro claimed
  obtain ⟨history, store, run, _, fresh, beyond⟩ := beyond_unpack_limit (.exactIntegers 7999) (by decide)
  have sweep := run_next run (sweepingBid 8000) fresh
  have complete := all_or_nothing_complete sweep (claimed _ _ _ sweep).1
  have last := List.mem_append_right history (List.mem_singleton_self (executionOf (.exactIntegers 7999) (sweepingBid 8000) store))
  exact beyond ((unpacks_all_complete sweep).mp complete _ last)

end MktSim
