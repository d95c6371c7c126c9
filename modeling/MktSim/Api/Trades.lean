import Mathlib.Algebra.BigOperators.Ring.Finset
import MktSim.Api.Executions

set_option autoImplicit false

namespace MktSim

open Redis SortedSets Greedy Runs

-- What an execution's trades are worth, when a share traded at a price is worth
-- `worth price`: to the incoming order, and to an order at rest.
def takerTrades (worth : Int → Int) (execution : Execution) : Int :=
  ((bookOrders execution.before execution.order.assetId execution.order.book.opposite).map fun maker =>
    worth (restingPrice execution.before maker) * traded execution maker).sum

def makerTrades (worth : Int → Int) (execution : Execution) (orderId : Uuid) : Int :=
  worth (restingPrice execution.before orderId) * traded execution orderId

def trades (worth : Int → Int) (execution : Execution) (orderId : Uuid) : Int :=
  (if execution.order.orderId = orderId then takerTrades worth execution else 0) +
    makerTrades worth execution orderId

def tradesOver (worth : Int → Int) (history : List Execution) (orderId : Uuid) : Int :=
  (history.map fun execution => trades worth execution orderId).sum

theorem trades_over_append (worth : Int → Int) (history : List Execution) (execution : Execution) (orderId : Uuid) :
    tradesOver worth (history ++ [execution]) orderId =
      tradesOver worth history orderId + trades worth execution orderId := by simp [tradesOver]

variable {lua : Lua} {execution : Execution} {table next : Table} {lots : List Lot}

section Step

variable (executed : Executed lua execution table lots next)

include executed

theorem traded_unqueued {orderId : Uuid} {resting : Resting} (there : table orderId = some resting)
    (outside : (orderId, resting) ∉ lots) : traded execution orderId = 0 := by
  have kept := effect_unqueued executed.queue executed.fresh.order executed.effect there outside
  rw [traded, resting_size_some executed.before there, resting_size_some executed.after kept, Nat.sub_self]

theorem trade_queued {orderId : Uuid} (trade : 0 < traded execution orderId) :
    ∃ resting, (orderId, resting) ∈ lots ∧ restingPrice execution.before orderId = resting.price.toInt := by
  cases there : table orderId with
  | none =>
      rw [traded_absent executed there] at trade
      exact absurd trade (Nat.lt_irrefl 0)
  | some resting =>
      refine ⟨resting, ?_, resting_price_some executed.before there⟩
      by_contra outside
      rw [traded_unqueued executed there outside] at trade
      exact Nat.lt_irrefl 0 trade

theorem taker_trades_lots (worth : Int → Int) : takerTrades worth execution =
    (lots.map fun lot => worth lot.2.price.toInt * traded execution lot.1).sum := by
  obtain ⟨all, whole, orders⟩ := represents_book executed.before execution.order.assetId execution.order.book.opposite
  have value : ∀ lot ∈ all, worth (restingPrice execution.before lot.1) * (traded execution lot.1 : Int) =
      worth lot.2.price.toInt * traded execution lot.1 := by
    intro lot member
    rw [resting_price_some executed.before (queue_present whole member)]
  have rest : ((all.filter fun lot => !reach execution.order.book execution.order.price lot.2.score).map
      fun lot => worth lot.2.price.toInt * (traded execution lot.1 : Int)).sum = 0 := by
    apply List.sum_eq_zero
    intro amount member
    obtain ⟨lot, inFilter, rfl⟩ := List.mem_map.mp member
    obtain ⟨present, beyond⟩ := List.mem_filter.mp inFilter
    have outside : (lot.1, lot.2) ∉ lots := by
      intro queued
      have inReach := ((executed.queue.mem lot.1 lot.2).mp queued).2.2.2
      rw [inReach] at beyond
      cases beyond
    rw [traded_unqueued executed (queue_present whole present) outside]
    simp
  rw [takerTrades, orders, List.map_map]
  change (all.map fun lot => worth (restingPrice execution.before lot.1) * (traded execution lot.1 : Int)).sum = _
  rw [List.map_congr_left value, Greedy.sum_split _ fun lot => reach execution.order.book execution.order.price lot.2.score,
    rest, ← queue_filter whole executed.queue, add_zero]

theorem trades_resting (worth : Int → Int) {orderId : Uuid} {resting : Resting}
    (there : table orderId = some resting) :
    trades worth execution orderId = worth resting.price.toInt * traded execution orderId := by
  have away : execution.order.orderId ≠ orderId := by
    intro same
    have unused := executed.fresh.order
    rw [same, there] at unused
    cases unused
  rw [trades, if_neg away, makerTrades, resting_price_some executed.before there, zero_add]

theorem trades_incoming (worth : Int → Int) :
    trades worth execution execution.order.orderId = takerTrades worth execution := by
  rw [trades, if_pos rfl, makerTrades, traded_absent executed executed.fresh.order]
  simp

theorem trades_absent (worth : Int → Int) {orderId : Uuid} (absent : table orderId = none)
    (away : execution.order.orderId ≠ orderId) : trades worth execution orderId = 0 := by
  rw [trades, if_neg away, makerTrades, traded_absent executed absent]
  simp

variable (completes : execution.completes)

include completes

theorem traded_lot {lot : Lot} (queued : lot ∈ lots) : traded execution lot.1 = execution.order.taken lots lot :=
  traded_taken executed completes (queue_present executed.queue queued)

theorem gone_completed {orderId : Uuid} {resting : Resting} (there : table orderId = some resting) :
    restingSize execution.after orderId = 0 ↔ (orderId, resting) ∈ (execution.order.fill lots).completed := by
  have whole := traded_taken executed completes there
  rw [traded, resting_size_some executed.before there] at whole
  refine ⟨?_, ?_⟩
  · intro gone
    by_contra left
    have less := taken_lt_size left
    rw [gone] at whole
    simp only at less
    omega
  · intro done
    have all := taken_completed done
    have positive := resting.open_
    simp only at all
    omega

theorem taker_trades_shares : takerTrades (fun _ => 1) execution =
    execution.order.size - (execution.order.fill lots).remaining := by
  have shares : (lots.map fun lot => (1 : Int) * traded execution lot.1) =
      lots.map fun lot => ((execution.order.taken lots lot : Nat) : Int) := by
    apply List.map_congr_left
    intro lot queued
    rw [traded_lot executed completes queued, one_mul]
  have whole : (lots.map (execution.order.taken lots)).sum + (execution.order.fill lots).remaining = execution.order.size :=
    sum_taken_fill (queue_nodup executed.queue)
  have cast : (lots.map fun lot => ((execution.order.taken lots lot : Nat) : Int)).sum =
      ((lots.map (execution.order.taken lots)).sum : Nat) := by
    rw [Nat.cast_list_sum, List.map_map]
    rfl
  rw [taker_trades_lots executed, shares, cast]
  omega

end Step

theorem run_invariant (lua : Lua) (Inv : List Execution → Table → Prop) (base : Inv [] emptyTable)
    (preserved : ∀ history execution table lots next, Run lua history execution.before → Sound history table →
      FreshIn history execution.order → Executed lua execution table lots next → Inv history table →
      Inv (history ++ [execution]) next)
    {history : List Execution} {store : Store} (run : Run lua history store) :
    ∃ table, Represents store table ∧ Sound history table ∧ Inv history table := by
  refine trace_invariant (fun history store => ∃ table, Represents store table ∧ Sound history table ∧
    Inv history table) ⟨emptyTable, empty_represents, ?_, base⟩ ?_ run
  · intro orderId resting found
    cases found
  · rintro history store execution after earlier ⟨table, rep, sound, holds⟩ step
    obtain ⟨lots, next, executed, rfl⟩ := step_executed rep sound step
    have before : execution.before = store := by rw [step.2.1]; rfl
    exact ⟨next, executed.after, execution_sound sound executed,
      preserved history execution table lots next (before ▸ earlier) sound step.1 executed holds⟩

theorem sound_absent {history : List Execution} {table : Table} (sound : Sound history table) {orderId : Uuid}
    (unused : ∀ execution ∈ history, execution.order.orderId ≠ orderId) : table orderId = none := by
  cases there : table orderId with
  | none => rfl
  | some resting =>
      obtain ⟨execution, member, same, _⟩ := sound orderId resting there
      exact absurd same (unused execution member)

theorem trades_over_unused (worth : Int → Int) {history : List Execution} {store : Store}
    (run : Run lua history store) {orderId : Uuid}
    (unused : ∀ execution ∈ history, execution.order.orderId ≠ orderId) : tradesOver worth history orderId = 0 := by
  have whole : ∃ table, Represents store table ∧ Sound history table ∧
      ((∀ execution ∈ history, execution.order.orderId ≠ orderId) → tradesOver worth history orderId = 0) := by
    refine run_invariant lua (fun history _ => (∀ execution ∈ history, execution.order.orderId ≠ orderId) →
      tradesOver worth history orderId = 0) (fun _ => rfl) ?_ run
    intro history execution table lots next _ sound _ executed ih unused
    have before : ∀ earlier ∈ history, earlier.order.orderId ≠ orderId :=
      fun earlier member => unused earlier (List.mem_append_left _ member)
    rw [trades_over_append, ih before,
      trades_absent executed worth (sound_absent sound before) (unused execution (by simp)), add_zero]
  obtain ⟨_, _, _, nothing⟩ := whole
  exact nothing unused

end MktSim
