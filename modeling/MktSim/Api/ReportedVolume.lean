import MktSim.Api.Completion

set_option autoImplicit false

namespace MktSim

open Redis SortedSets Greedy Runs

def partialValue (store : Store) (order : Submission) (done rest : List Uuid) : Int :=
  (rest.head?.map fun maker =>
    restingPrice store maker * ((order.size : Int) - total (restingSize store) done)).getD 0

-- The script counts the orders it uses up, with the sign of their score, and not the one
-- it ends inside: a bid must end there at no value, an offer must have the value of that
-- part make up for twice the negated value of the rest.
def VolumeCounted (store : Store) (order : Submission) : Prop :=
  ∀ done rest, selectedOrders store order = done ++ rest → StopsAfter (restingSize store) order.size done rest →
    match order.book with
    | .bids => partialValue store order done rest = 0
    | .offers => 2 * (done.map (restingValue store)).sum + partialValue store order done rest = 0

variable {lua : Lua} {execution : Execution} {table next : Table} {lots : List Lot}
  (executed : Executed lua execution table lots next)

include executed

theorem executed_stops : ∃ rest : List Lot,
    selectedOrders execution.before execution.order =
      (execution.order.fill lots).completed.map Prod.fst ++ rest.map Prod.fst ∧
    StopsAfter (restingSize execution.before) execution.order.size
      ((execution.order.fill lots).completed.map Prod.fst) (rest.map Prod.fst) ∧
    ((execution.order.fill lots).reduced.map fun part => part.1.2.price.toInt * (part.2 : Int)).getD 0 =
      partialValue execution.before execution.order ((execution.order.fill lots).completed.map Prod.fst)
        (rest.map Prod.fst) := by
  obtain ⟨rest, split, stops, weighted⟩ := @fill_stops Lot lotSize execution.order.size lots
    fun lot _ => lot.2.open_
  have doneWithin : ∀ lot ∈ (execution.order.fill lots).completed, lot ∈ lots := fun lot => completed_subset
  have restWithin : ∀ lot ∈ rest, lot ∈ lots := by
    intro lot member
    rw [split]
    exact List.mem_append_right _ member
  have covers : total (restingSize execution.before) ((execution.order.fill lots).completed.map Prod.fst) =
      total lotSize (execution.order.fill lots).completed := lots_size executed _ doneWithin
  have selected : selectedOrders execution.before execution.order =
      (execution.order.fill lots).completed.map Prod.fst ++ rest.map Prod.fst := by
    rw [selected_lots executed, ← List.map_append]
    exact congrArg (List.map Prod.fst) split
  have stopsAt : StopsAfter (restingSize execution.before) execution.order.size
      ((execution.order.fill lots).completed.map Prod.fst) (rest.map Prod.fst) := by
    constructor
    · rw [covers]
      exact stops.covered
    · intro maker first
      rw [List.head?_map] at first
      obtain ⟨lot, head, rfl⟩ := Option.map_eq_some_iff.mp first
      rw [covers, lot_size executed (restWithin lot (List.mem_of_head? head))]
      exact stops.stops lot head
  have value := weighted fun lot => lot.2.price.toInt
  exact ⟨rest, selected, stopsAt, by
    rw [partialValue, covers, List.head?_map]
    cases rest with
    | nil => exact value
    | cons lot rest =>
        rw [List.head?_cons, Option.map_some, Option.map_some, lot_price executed (restWithin lot (by simp))]
        exact value⟩

theorem volume_counted_iff : VolumeCounted execution.before execution.order ↔
    match execution.order.book with
    | .bids => ((execution.order.fill lots).reduced.map fun part => part.1.2.price.toInt * (part.2 : Int)).getD 0 = 0
    | .offers => 2 * ((execution.order.fill lots).completed.map lotValue).sum +
        ((execution.order.fill lots).reduced.map fun part => part.1.2.price.toInt * (part.2 : Int)).getD 0 = 0 := by
  obtain ⟨rest, selected, stops, value⟩ := executed_stops executed
  rw [← lots_value executed (execution.order.fill lots).completed fun lot => completed_subset, value]
  constructor
  · intro counted
    exact counted _ _ selected stops
  · intro counted done others split stopsThere
    obtain ⟨rfl, rfl⟩ := stops_unique (selected.symm.trans split) stops stopsThere
    exact counted

theorem taker_trades_value (completes : execution.completes) : takerTrades id execution =
    ((execution.order.fill lots).completed.map lotValue).sum +
      ((execution.order.fill lots).reduced.map fun part => part.1.2.price.toInt * (part.2 : Int)).getD 0 := by
  have quantities : (lots.map fun lot => id lot.2.price.toInt * (traded execution lot.1 : Int)) =
      lots.map fun lot => lot.2.price.toInt * (execution.order.taken lots lot : Int) := by
    apply List.map_congr_left
    intro lot queued
    rw [traded_lot executed completes queued]
    rfl
  rw [taker_trades_lots executed, quantities]
  exact sum_taken_weight lotSize execution.order.size lots (queue_nodup executed.queue) fun lot => lot.2.price.toInt

omit executed

theorem step_reported {unpackLimit : Nat} (executed : Executed (.exactIntegers unpackLimit) execution table lots next)
    {reply : Reply} (ok : execution.outcome = .ok reply) :
    reply.dollarVolumeFilled = takerTrades id execution ↔ VolumeCounted execution.before execution.order := by
  have exactly := volume_exact (.exactIntegers unpackLimit) (execution.order.fill lots).completed 0
    (rounds_nothing_exact unpackLimit 0 _)
  rw [effect_reply executed ok, taker_trades_value executed ⟨reply, ok⟩, volume_counted_iff executed, exactly,
    amounts_value executed (execution.order.fill lots).completed fun lot => completed_subset]
  cases execution.order.book with
  | bids =>
      simp only
      omega
  | offers =>
      simp only
      omega

/-- The reported volume is the value traded exactly where nothing was left out of it or
counted with the wrong sign. -/
theorem reported_volume_iff (unpackLimit : Nat) (history : List Execution) (store : Store)
    (run : Run (.exactIntegers unpackLimit) history store) (order : Submission) (fresh : FreshIn history order)
    (reply : Reply) (ok : (execute (.exactIntegers unpackLimit) order store).1 = .ok reply) :
    reply.dollarVolumeFilled = takerTrades id (executionOf (.exactIntegers unpackLimit) order store) ↔
      VolumeCounted store order := by
  obtain ⟨table, lots, next, executed⟩ := next_executed run fresh
  exact step_reported executed ok

def restingBids : List Submission := [⟨⟨1⟩, 1, .bids, ⟨10, .limit 3⟩, ⟨11⟩⟩]

def closingOffer : Submission := ⟨⟨2⟩, 1, .offers, ⟨4, .limit 3⟩, ⟨12⟩⟩

def storeWithBid : Store := storeAfter (.exactIntegers 7999) emptyKeys restingBids

theorem bid_rests_run : Run (.exactIntegers 7999) (executions (.exactIntegers 7999) emptyKeys restingBids) storeWithBid :=
  executions_run _ restingBids (by decide)

theorem bid_rests_complete : Complete (executions (.exactIntegers 7999) emptyKeys restingBids) :=
  complete_of_outcomes (by decide)

theorem reported_volume_iff_part :
    (0 : Int) = takerTrades id (executionOf (.exactIntegers 7999) closingOffer storeWithBid) ↔
      VolumeCounted storeWithBid closingOffer :=
  reported_volume_iff 7999 _ _ bid_rests_run closingOffer (by decide) ⟨4, 0, []⟩ rfl

theorem partial_fill_unreported : ¬ ∀ (unpackLimit : Nat) (history : List Execution) (store : Store),
    Run (.exactIntegers unpackLimit) history store → Complete history → ∀ order : Submission, FreshIn history order →
      ∀ reply, (execute (.exactIntegers unpackLimit) order store).1 = .ok reply →
        reply.dollarVolumeFilled = takerTrades id (executionOf (.exactIntegers unpackLimit) order store) := by
  intro claimed
  have same := claimed 7999 _ _ bid_rests_run bid_rests_complete closingOffer (by decide) ⟨4, 0, []⟩ rfl
  revert same
  decide

end MktSim
