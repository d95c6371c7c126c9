import MktSim.Api.Trades

set_option autoImplicit false

namespace MktSim

open Redis SortedSets Greedy Runs

def dollarsTraded (history : List Execution) (orderId : Uuid) : Int := tradesOver id history orderId

def DollarsCovered (history : List Execution) (store : Store) : Prop :=
  ∀ orderId, hashAt store (.id orderId) ≠ none →
    storedNumber store orderId .dollarVolumeFilled = some (dollarsTraded history orderId)

-- The orders the script selects for an order, in the order it goes through them. On
-- both sides these are the ones priced at the order's price or below.
def selectedOrders (store : Store) (order : Submission) : List Uuid :=
  (bookOrders store order.assetId order.book.opposite).filter fun maker => restingPrice store maker ≤ order.price

def restingValue (store : Store) (maker : Uuid) : Int := restingPrice store maker * restingSize store maker

def RoundsNothing (lua : Lua) (start : Int) : List Int → Prop
  | [] => True
  | amount :: rest => lua.number amount = amount ∧ lua.number (start + amount) = start + amount ∧
      RoundsNothing lua (start + amount) rest

-- A limit order comes to rest only when what it traded is counted with the right sign
-- and without rounding, and an order at rest is only reduced at price 0.
structure KeepsDollars (lua : Lua) (store : Store) (order : Submission) : Prop where
  rests : ∀ price, order.form.orderType = .limit price →
    ((selectedOrders store order).map (restingSize store)).sum < order.size →
      (order.book = .offers → ((selectedOrders store order).map (restingValue store)).sum = 0) ∧
      RoundsNothing lua 0 ((selectedOrders store order).map fun maker =>
        sideScore order.book.opposite (restingPrice store maker) * (restingSize store maker : Int))
  reduces : ∀ ahead maker behind, selectedOrders store order = ahead ++ maker :: behind →
    (ahead.map (restingSize store)).sum < order.size →
      order.size < (ahead.map (restingSize store)).sum + restingSize store maker → restingPrice store maker = 0

theorem rounds_nothing_exact (limit : Nat) (start : Int) (amounts : List Int) :
    RoundsNothing (.exactIntegers limit) start amounts := by
  induction amounts generalizing start with
  | nil => trivial
  | cons amount rest ih => exact ⟨rfl, rfl, ih (start + amount)⟩

def lotAmount (lot : Lot) : Int := lot.2.score * lot.2.size

def lotValue (lot : Lot) : Int := lot.2.price.toInt * lot.2.size

theorem volume_exact (lua : Lua) (lots : List Lot) (start : Int)
    (exactly : RoundsNothing lua start (lots.map lotAmount)) :
    volume lua start lots = start + (lots.map lotAmount).sum := by
  induction lots generalizing start with
  | nil => exact (Int.add_zero start).symm
  | cons lot rest ih =>
      obtain ⟨product, total, later⟩ := exactly
      have more := ih (start + lotAmount lot) later
      rw [List.map_cons, List.sum_cons, ← add_assoc, ← more]
      change volume lua (lua.number (start + lua.number (lotAmount lot))) rest = _
      rw [product, total]

variable {lua : Lua} {execution : Execution} {table next : Table} {lots : List Lot}

section Step

variable (executed : Executed lua execution table lots next)

include executed

theorem selected_lots : selectedOrders execution.before execution.order = lots.map Prod.fst := by
  obtain ⟨all, whole, orders⟩ := represents_book executed.before execution.order.assetId execution.order.book.opposite
  have kept : ∀ lot ∈ all, (decide (restingPrice execution.before lot.1 ≤ execution.order.price)) =
      reach execution.order.book execution.order.price lot.2.score := by
    intro lot member
    obtain ⟨there, _, side, _⟩ := (whole.mem lot.1 lot.2).mp member
    rw [resting_price_some executed.before there, Bool.eq_iff_iff, decide_eq_true_eq, reach_price side]
  rw [selectedOrders, orders, List.filter_map, queue_filter whole executed.queue]
  exact congrArg _ (List.filter_congr kept)

theorem lot_size {lot : Lot} (queued : lot ∈ lots) : restingSize execution.before lot.1 = lot.2.size :=
  resting_size_some executed.before (queue_present executed.queue queued)

theorem lot_price {lot : Lot} (queued : lot ∈ lots) : restingPrice execution.before lot.1 = lot.2.price.toInt :=
  resting_price_some executed.before (queue_present executed.queue queued)

theorem lots_size (part : List Lot) (within : ∀ lot ∈ part, lot ∈ lots) :
    ((part.map Prod.fst).map (restingSize execution.before)).sum = total lotSize part := by
  rw [List.map_map, total]
  congr 1
  apply List.map_congr_left
  intro lot member
  exact lot_size executed (within lot member)

theorem lots_value (part : List Lot) (within : ∀ lot ∈ part, lot ∈ lots) :
    (part.map Prod.fst).map (restingValue execution.before) = part.map lotValue := by
  rw [List.map_map]
  apply List.map_congr_left
  intro lot member
  change restingPrice execution.before lot.1 * (restingSize execution.before lot.1 : Int) = _
  rw [lot_price executed (within lot member), lot_size executed (within lot member)]
  rfl

-- The score of a bid is its negated price.
theorem amounts_value (part : List Lot) (within : ∀ lot ∈ part, lot ∈ lots) :
    (part.map lotAmount).sum = match execution.order.book with
      | .bids => (part.map lotValue).sum
      | .offers => -(part.map lotValue).sum := by
  have side : ∀ lot ∈ part, lot.2.side = execution.order.book.opposite :=
    fun lot member => ((executed.queue.mem lot.1 lot.2).mp (within lot member)).2.2.1
  cases book : execution.order.book with
  | bids =>
      congr 1
      apply List.map_congr_left
      intro lot member
      rw [lotAmount, Resting.score, side lot member, book]
      rfl
  | offers =>
      have negated : part.map lotAmount = (part.map lotValue).map Neg.neg := by
        rw [List.map_map]
        apply List.map_congr_left
        intro lot member
        rw [lotAmount, Resting.score, side lot member, book]
        exact Int.neg_mul _ _
      rw [negated, ← List.sum_neg]

theorem reduced_price (keeps : KeepsDollars lua execution.before execution.order) {lot : Lot} {quantity : Nat}
    (partly : (execution.order.fill lots).reduced = some (lot, quantity)) (positive : 0 < quantity) :
    lot.2.price.toInt = 0 := by
  obtain ⟨ahead, behind, split, whole, _, less⟩ := reduced_iff.mp ⟨partly, positive⟩
  have queued : lot ∈ lots := by simp [split]
  have ahead_size := lots_size executed ahead fun other member => by simp [split, member]
  rw [← lot_price executed queued]
  apply keeps.reduces (ahead.map Prod.fst) lot.1 (behind.map Prod.fst)
  · rw [selected_lots executed, split, List.map_append, List.map_cons]
  · rw [ahead_size]
    omega
  · rw [ahead_size, lot_size executed queued]
    simp only [lotSize] at less
    omega

variable (completes : execution.completes)

include completes

theorem kept_dollars (keeps : KeepsDollars lua execution.before execution.order) {orderId : Uuid}
    {resting : Resting} (there : table orderId = some resting)
    (left : (orderId, resting) ∉ (execution.order.fill lots).completed) : trades id execution orderId = 0 := by
  rw [trades_resting executed _ there, traded_taken executed completes there]
  by_cases touched : 0 < execution.order.taken lots (orderId, resting)
  · cases touched_cases touched with
    | inl done => exact absurd done left
    | inr partly =>
        obtain ⟨quantity, partly⟩ := partly
        have positive : 0 < quantity := by
          rw [Submission.taken, Fill.taken, if_neg left, partly] at touched
          simpa using touched
        rw [reduced_price executed keeps partly positive]
        simp
  · rw [Nat.eq_zero_of_not_pos touched]
    simp

theorem remainder_dollars (keeps : KeepsDollars lua execution.before execution.order) {price : Int32}
    (form : execution.order.form.orderType = .limit price) (left : 0 < (execution.order.fill lots).remaining) :
    volume lua 0 (execution.order.fill lots).completed = takerTrades id execution := by
  have all : (execution.order.fill lots).completed = lots := completed_of_remaining left
  have short : ((selectedOrders execution.before execution.order).map (restingSize execution.before)).sum <
      execution.order.size := by
    rw [selected_lots executed, lots_size executed lots fun lot member => member]
    rw [fill_remaining] at left
    omega
  obtain ⟨balanced, exactly⟩ := keeps.rests price form short
  have amounts : (selectedOrders execution.before execution.order).map (fun maker =>
      sideScore execution.order.book.opposite (restingPrice execution.before maker) *
        (restingSize execution.before maker : Int)) = lots.map lotAmount := by
    rw [selected_lots executed, List.map_map]
    apply List.map_congr_left
    intro lot queued
    have side := ((executed.queue.mem lot.1 lot.2).mp queued).2.2.1
    change sideScore execution.order.book.opposite (restingPrice execution.before lot.1) *
      (restingSize execution.before lot.1 : Int) = lot.2.score * lot.2.size
    rw [lot_price executed queued, lot_size executed queued, Resting.score, side]
  have values : ((selectedOrders execution.before execution.order).map (restingValue execution.before)) =
      lots.map lotValue := by
    rw [selected_lots executed]
    exact lots_value executed lots fun lot member => member
  have traded_ : takerTrades id execution = (lots.map lotValue).sum := by
    rw [taker_trades_lots executed]
    congr 1
    apply List.map_congr_left
    intro lot queued
    have done : lot ∈ (execution.order.fill lots).completed := by rw [all]; exact queued
    rw [traded_lot executed completes queued, taken_completed done]
    rfl
  rw [amounts] at exactly
  rw [values] at balanced
  rw [all, volume_exact lua lots 0 exactly, zero_add, traded_, amounts_value executed lots fun lot member => member]
  cases book : execution.order.book with
  | bids => rfl
  | offers =>
      rw [balanced book]
      rfl

end Step

def TableDollars (history : List Execution) (table : Table) : Prop :=
  ∀ orderId resting, table orderId = some resting → resting.dollarVolumeFilled = dollarsTraded history orderId

theorem step_dollars {history : List Execution} (run : Run lua history execution.before)
    (fresh : FreshIn history execution.order) (executed : Executed lua execution table lots next)
    (completes : execution.completes) (keeps : KeepsDollars lua execution.before execution.order)
    (covered : TableDollars history table) : TableDollars (history ++ [execution]) next := by
  intro orderId after found
  rw [effect_complete executed completes] at found
  rw [dollarsTraded, trades_over_append]
  obtain ⟨resting, there, left, rfl⟩ | ⟨rfl, _, made⟩ :=
    complete_origin executed.queue executed.fresh.order found
  · rw [kept_dollars executed completes keeps there left, reduce_volume, covered orderId resting there,
      dollarsTraded, add_zero]
  · have unused : tradesOver id history execution.order.orderId = 0 :=
      trades_over_unused _ run fun earlier member => (fresh.2 earlier member).1.symm
    have rests := resting_made made
    rw [rests.dollars, unused, zero_add, trades_incoming executed,
      remainder_dollars executed completes keeps rests.form (resting_left made)]

/-- The stored volume of every order at rest covers all its trades as long as no step
lets an order rest on a wrong or rounded volume or reduces one at a price. -/
theorem dollars_covered (lua : Lua) (history : List Execution) (store : Store) (run : Run lua history store)
    (complete : Complete history)
    (keeps : ∀ execution ∈ history, KeepsDollars lua execution.before execution.order) :
    DollarsCovered history store := by
  obtain ⟨table, rep, _, covered⟩ := run_invariant lua
    (fun history table => Complete history →
      (∀ execution ∈ history, KeepsDollars lua execution.before execution.order) → TableDollars history table)
    (fun _ _ orderId resting there => by cases there)
    (fun history execution table lots next earlier _ fresh executed ih complete keeps =>
      step_dollars earlier fresh executed (complete_append.mp complete).2 (keeps execution (by simp))
        (ih (complete_append.mp complete).1 fun event member => keeps event (List.mem_append_left _ member))) run
  intro orderId exists_
  cases there : table orderId with
  | none =>
      rw [rep.hashes, there] at exists_
      exact absurd rfl exists_
  | some resting =>
      rw [stored_number_some rep there]
      exact congrArg some (covered complete keeps orderId resting there)

theorem keeps_of_single {limit : Nat} {store : Store} {order : Submission}
    (unsold : order.book = .offers → selectedOrders store order = [])
    (single : ∀ maker ∈ selectedOrders store order, selectedOrders store order = [maker] ∧
      restingSize store maker ≤ order.size) : KeepsDollars (.exactIntegers limit) store order where
  rests price form short := by
    refine ⟨fun isOffer => ?_, ?_⟩
    · rw [unsold isOffer]
      rfl
    · exact rounds_nothing_exact limit 0 _
  reduces ahead maker behind split more less := by
    have member : maker ∈ selectedOrders store order := by rw [split]; simp
    obtain ⟨only, fits⟩ := single maker member
    rw [only] at split
    obtain rfl : ahead = [] := by
      cases ahead with
      | nil => rfl
      | cons head tail => simp at split
    simp only [List.map_nil, List.sum_nil] at less
    omega

def countedOrders : List Submission :=
  [⟨⟨1⟩, 1, .offers, ⟨2, .limit 3⟩, ⟨11⟩⟩, ⟨⟨2⟩, 1, .bids, ⟨4, .limit 5⟩, ⟨12⟩⟩]

def countedHistory : List Execution := executions (.exactIntegers 7999) emptyKeys countedOrders

theorem dollars_covered_counted :
    DollarsCovered countedHistory (storeAfter (.exactIntegers 7999) emptyKeys countedOrders) := by
  refine dollars_covered (.exactIntegers 7999) countedHistory _ (executions_run _ countedOrders (by decide))
    (complete_of_outcomes (by decide)) ?_
  intro execution member
  simp only [countedHistory, countedOrders, executions, List.mem_cons, List.not_mem_nil, or_false] at member
  cases member with
  | inl first =>
      subst first
      exact keeps_of_single (by decide) (by decide)
  | inr second =>
      subst second
      exact keeps_of_single (by decide) (by decide)

-- An offer of 10 at price 3 is reduced by a bid of 4: its stored volume stays 0.
def uncountedOrders : List Submission :=
  [⟨⟨1⟩, 1, .offers, ⟨10, .limit 3⟩, ⟨11⟩⟩, ⟨⟨2⟩, 1, .bids, ⟨4, .limit 5⟩, ⟨12⟩⟩]

theorem maker_volume_stale : ¬ ∀ (lua : Lua) (history : List Execution) (store : Store), Run lua history store →
    Complete history → DollarsCovered history store := by
  intro claimed
  have covered := claimed (.exactIntegers 7999) (executions (.exactIntegers 7999) emptyKeys uncountedOrders) _
    (executions_run _ uncountedOrders (by decide)) (complete_of_outcomes (by decide)) ⟨11⟩ (by decide)
  revert covered
  decide

end MktSim
