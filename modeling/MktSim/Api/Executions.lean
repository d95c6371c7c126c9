import MktSim.Api.Effects
import MktSim.Lib.Trace

set_option autoImplicit false

namespace MktSim

open Redis SortedSets Greedy Runs

structure Execution where
  order : Submission
  before : Store
  outcome : Except ScriptError Reply
  after : Store

def executionOf (lua : Lua) (order : Submission) (store : Store) : Execution :=
  ⟨order, store, (execute lua order store).1, (execute lua order store).2⟩

def Execution.completes (execution : Execution) : Prop := ∃ reply, execution.outcome = .ok reply

def FreshIn (history : List Execution) (order : Submission) : Prop :=
  order.accountId ≠ order.orderId ∧ ∀ earlier ∈ history, order.orderId ≠ earlier.order.orderId ∧
    order.orderId ≠ earlier.order.accountId ∧ order.accountId ≠ earlier.order.orderId

instance (history : List Execution) (order : Submission) : Decidable (FreshIn history order) :=
  inferInstanceAs (Decidable (_ ∧ _))

def ScriptStep (lua : Lua) (history : List Execution) (store : Store) (execution : Execution) (after : Store) :
    Prop :=
  FreshIn history execution.order ∧ execution = executionOf lua execution.order store ∧ after = execution.after

def Run (lua : Lua) : List Execution → Store → Prop := Trace emptyKeys (ScriptStep lua)

def Complete (history : List Execution) : Prop := ∀ execution ∈ history, execution.completes

theorem complete_append {history : List Execution} {execution : Execution} :
    Complete (history ++ [execution]) ↔ Complete history ∧ execution.completes := by
  simp [Complete, or_imp, forall_and]

theorem run_next {lua : Lua} {history : List Execution} {store : Store} (run : Run lua history store)
    (order : Submission) (fresh : FreshIn history order) :
    Run lua (history ++ [executionOf lua order store]) (execute lua order store).2 :=
  .next history store (executionOf lua order store) _ run ⟨fresh, rfl, rfl⟩

def executions (lua : Lua) (store : Store) : List Submission → List Execution
  | [] => []
  | order :: rest => executionOf lua order store :: executions lua (execute lua order store).2 rest

def storeAfter (lua : Lua) (store : Store) (orders : List Submission) : Store :=
  orders.foldl (fun store order => (execute lua order store).2) store

def ApartFrom (earlier later : Submission) : Prop :=
  later.orderId ≠ earlier.orderId ∧ later.orderId ≠ earlier.accountId ∧ later.accountId ≠ earlier.orderId

instance (earlier later : Submission) : Decidable (ApartFrom earlier later) :=
  inferInstanceAs (Decidable (_ ∧ _ ∧ _))

theorem apart_symm {a b : Submission} (apart : ApartFrom a b) : ApartFrom b a :=
  ⟨apart.1.symm, apart.2.2.symm, apart.2.1.symm⟩

instance : Std.Symm ApartFrom := ⟨fun _ _ => apart_symm⟩

def FreshOrders (orders : List Submission) : Prop :=
  (∀ order ∈ orders, order.accountId ≠ order.orderId) ∧ orders.Pairwise ApartFrom

instance (orders : List Submission) : Decidable (FreshOrders orders) := inferInstanceAs (Decidable (_ ∧ _))

theorem executions_run_from {lua : Lua} {history : List Execution} {store : Store} (run : Run lua history store)
    (orders : List Submission) (fresh : FreshOrders orders)
    (apart : ∀ execution ∈ history, ∀ order ∈ orders, ApartFrom execution.order order) :
    Run lua (history ++ executions lua store orders) (storeAfter lua store orders) := by
  induction orders generalizing history store with
  | nil => simpa [executions, storeAfter] using run
  | cons order rest ih =>
      obtain ⟨headApart, restApart⟩ := List.pairwise_cons.mp fresh.2
      have first := run_next run order
        ⟨fresh.1 order (by simp), fun earlier member => apart earlier member order (by simp)⟩
      have later := ih first ⟨fun other member => fresh.1 other (by simp [member]), restApart⟩ (by
        intro execution member other inRest
        rcases List.mem_append.mp member with earlier | last
        · exact apart execution earlier other (by simp [inRest])
        · rw [List.mem_singleton.mp last]
          exact headApart other inRest)
      simpa [executions, storeAfter] using later

theorem executions_run (lua : Lua) (orders : List Submission) (fresh : FreshOrders orders) :
    Run lua (executions lua emptyKeys orders) (storeAfter lua emptyKeys orders) :=
  executions_run_from .start orders fresh fun _ member => absurd member List.not_mem_nil

theorem complete_of_outcomes {history : List Execution}
    (outcomes : history.all (fun execution => execution.outcome.toBool) = true) : Complete history := by
  intro execution member
  have ok := List.all_eq_true.mp outcomes execution member
  rcases outcome : execution.outcome with error | reply
  · simp [outcome, Except.toBool] at ok
  · exact ⟨reply, outcome⟩

def SubmittedBy (order : Submission) (resting : Resting) : Prop :=
  resting.accountId = order.accountId ∧ resting.assetId = order.assetId ∧ resting.side = order.book ∧
    order.form.orderType = .limit resting.price ∧ resting.originalSize = order.size

def Sound (history : List Execution) (table : Table) : Prop :=
  ∀ orderId resting, table orderId = some resting →
    ∃ execution ∈ history, execution.order.orderId = orderId ∧ SubmittedBy execution.order resting

theorem sound_fresh {history : List Execution} {table : Table} {order : Submission} (sound : Sound history table)
    (fresh : FreshIn history order) : FreshKeys table order.accountId order.orderId := by
  have unused : ∀ orderId, (∀ earlier ∈ history, orderId ≠ earlier.order.orderId) → table orderId = none := by
    intro orderId away
    rcases found : table orderId with _ | resting
    · rfl
    · obtain ⟨execution, member, same, _⟩ := sound orderId resting found
      exact absurd same.symm (away execution member)
  refine ⟨unused _ fun earlier member => (fresh.2 earlier member).1, fun other held found => ?_,
    unused _ fun earlier member => (fresh.2 earlier member).2.2, fresh.1⟩
  obtain ⟨execution, member, _, account, _⟩ := sound other held found
  rw [account]
  exact (fresh.2 execution member).2.1.symm

structure Executed (lua : Lua) (execution : Execution) (table : Table) (lots : List Lot) (next : Table) : Prop where
  before : Represents execution.before table
  fresh : FreshKeys table execution.order.accountId execution.order.orderId
  queue : Queue table execution.order.assetId execution.order.book.opposite
    (reach execution.order.book execution.order.price) lots
  effect : Effect lua execution.order table lots execution.outcome next
  after : Represents execution.after next

theorem resting_submitted {order : Submission} {remaining : Nat} {dollars : Int} {resting : Resting}
    (made : order.resting remaining dollars = some resting) : SubmittedBy order resting := by
  have rests := resting_made made
  exact ⟨rests.account, rests.asset, rests.side, rests.form, rests.original⟩

theorem resting_left {order : Submission} {remaining : Nat} {dollars : Int} {resting : Resting}
    (made : order.resting remaining dollars = some resting) : 0 < remaining := by
  have size := (resting_made made).size
  have positive := resting.open_
  omega

theorem execution_sound {lua : Lua} {history : List Execution} {execution : Execution} {table next : Table}
    {lots : List Lot} (sound : Sound history table) (executed : Executed lua execution table lots next) :
    Sound (history ++ [execution]) next := by
  intro orderId resting found
  rcases effect_origin executed.queue executed.fresh.order executed.effect found with
    ⟨before, there, same, _⟩ | ⟨rfl, _, made⟩
  · obtain ⟨earlier, member, byOrder, account, asset, side, price, original⟩ := sound orderId before there
    refine ⟨earlier, List.mem_append_left _ member, byOrder, ?_⟩
    exact ⟨same.account.trans account, same.asset.trans asset, same.side.trans side, by rw [same.price]; exact price,
      same.original.trans original⟩
  · exact ⟨execution, by simp, rfl, resting_submitted made⟩

theorem step_executed {lua : Lua} {history : List Execution} {store after : Store} {execution : Execution}
    {table : Table} (rep : Represents store table) (sound : Sound history table)
    (step : ScriptStep lua history store execution after) :
    ∃ lots next, Executed lua execution table lots next ∧ after = execution.after := by
  obtain ⟨fresh, same, rfl⟩ := step
  have keys := sound_fresh sound fresh
  obtain ⟨lots, next, queue, effect, nextRep⟩ := execute_cases lua rep execution.order keys
  have before : execution.before = store := by rw [same]; rfl
  have outcome : execution.outcome = (execute lua execution.order store).1 := congrArg Execution.outcome same
  have stored : execution.after = (execute lua execution.order store).2 := congrArg Execution.after same
  exact ⟨lots, next, ⟨before ▸ rep, keys, queue, outcome ▸ effect, stored ▸ nextRep⟩, rfl⟩

theorem run_represents {lua : Lua} {history : List Execution} {store : Store} (run : Run lua history store) :
    ∃ table, Represents store table ∧ Sound history table := by
  refine trace_invariant (fun history store => ∃ table, Represents store table ∧ Sound history table)
    ⟨emptyTable, empty_represents, ?_⟩ ?_ run
  · intro orderId resting found
    cases found
  · rintro history store execution after _ ⟨table, rep, sound⟩ step
    obtain ⟨lots, next, executed, rfl⟩ := step_executed rep sound step
    exact ⟨next, executed.after, execution_sound sound executed⟩

theorem run_executed_sound {lua : Lua} {history : List Execution} {store : Store} (run : Run lua history store)
    {execution : Execution} (member : execution ∈ history) :
    ∃ table lots next, Executed lua execution table lots next ∧ Sound history table := by
  obtain ⟨before, after, rfl⟩ := List.append_of_mem member
  obtain ⟨state, _, earlier, step, _⟩ := trace_split run
  obtain ⟨table, rep, sound⟩ := run_represents earlier
  obtain ⟨lots, next, executed, _⟩ := step_executed rep sound step
  refine ⟨table, lots, next, executed, fun orderId resting found => ?_⟩
  obtain ⟨origin, known, rest⟩ := sound orderId resting found
  exact ⟨origin, List.mem_append_left _ known, rest⟩

theorem run_executed {lua : Lua} {history : List Execution} {store : Store} (run : Run lua history store)
    {execution : Execution} (member : execution ∈ history) :
    ∃ table lots next, Executed lua execution table lots next := by
  obtain ⟨table, lots, next, executed, _⟩ := run_executed_sound run member
  exact ⟨table, lots, next, executed⟩

-- The decrease of an order's resting size: all of it if the order is gone.
def traded (execution : Execution) (orderId : Uuid) : Nat :=
  restingSize execution.before orderId - restingSize execution.after orderId

section Traded

variable {lua : Lua} {execution : Execution} {table next : Table} {lots : List Lot}
  (executed : Executed lua execution table lots next)

include executed

theorem traded_absent {orderId : Uuid} (absent : table orderId = none) : traded execution orderId = 0 := by
  rw [traded, resting_size_none executed.before absent, Nat.zero_sub]

theorem effect_ok {reply : Reply} (ok : execution.outcome = .ok reply) :
    next = table.complete lua execution.order (execution.order.fill lots) ∧
      reply = ⟨execution.order.size - (execution.order.fill lots).remaining,
        volume lua 0 (execution.order.fill lots).completed, completedOrders (execution.order.fill lots)⟩ := by
  have effect := executed.effect
  rw [ok] at effect
  cases effect with
  | complete => exact ⟨rfl, rfl⟩

theorem effect_complete (completes : execution.completes) :
    next = table.complete lua execution.order (execution.order.fill lots) := by
  obtain ⟨reply, ok⟩ := completes
  exact (effect_ok executed ok).1

theorem effect_reply {reply : Reply} (ok : execution.outcome = .ok reply) :
    reply = ⟨execution.order.size - (execution.order.fill lots).remaining,
      volume lua 0 (execution.order.fill lots).completed, completedOrders (execution.order.fill lots)⟩ :=
  (effect_ok executed ok).2

theorem traded_taken (completes : execution.completes) {orderId : Uuid} {resting : Resting}
    (present : table orderId = some resting) :
    traded execution orderId = execution.order.taken lots (orderId, resting) := by
  have after := executed.after
  rw [effect_complete executed completes] at after
  have there := complete_maker lua executed.queue executed.fresh.order present
  rw [traded, resting_size_some executed.before present]
  by_cases done : (orderId, resting) ∈ (execution.order.fill lots).completed
  · rw [if_pos done] at there
    rw [resting_size_none after there, taken_completed done]
    rfl
  · rw [if_neg done] at there
    have less := taken_lt_size done
    rw [resting_size_some after there, reduce_size resting _ less]
    exact Nat.sub_sub_self (Nat.le_of_lt less)

end Traded

end MktSim
