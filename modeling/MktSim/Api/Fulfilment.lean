import Mathlib.Algebra.BigOperators.Group.Finset.Basic
import MktSim.Api.Conservation
import MktSim.Api.Exposure

set_option autoImplicit false

namespace MktSim

open Redis SortedSets Greedy Runs

-- The shares an order has to account for: a market order only those it fills at once.
def Submission.due (order : Submission) (reply : Reply) : Int :=
  match order.form.orderType with
  | .limit _ => order.size
  | .market => reply.sharesFilled

def Submission.Rests (order : Submission) (reply : Reply) : Prop :=
  order.form.orderType ≠ .market ∧ reply.sharesFilled < order.size

instance (order : Submission) (reply : Reply) : Decidable (order.Rests reply) := inferInstanceAs (Decidable (_ ∧ _))

def reports (orderId : Uuid) (execution : Execution) : Nat :=
  match execution.outcome with
  | .ok reply => (reply.completedOrders.map Prod.fst).count orderId
  | .error _ => 0

def timesReported (history : List Execution) (orderId : Uuid) : Nat := (history.map (reports orderId)).sum

theorem times_reported_append (history : List Execution) (execution : Execution) (orderId : Uuid) :
    timesReported (history ++ [execution]) orderId = timesReported history orderId + reports orderId execution := by
  simp [timesReported]

-- An order is named once in the replies when it came to rest and is gone.
structure Fulfilled (history : List Execution) (table : Table) (order : Submission) (reply : Reply) : Prop where
  shares : sharesTraded history order.orderId + table.sizeAt order.orderId = order.due reply
  reported : timesReported history order.orderId = if table.sizeAt order.orderId = 0 ∧ order.Rests reply then 1 else 0
  resting : table.sizeAt order.orderId ≠ 0 → order.Rests reply

variable {lua : Lua} {execution : Execution} {table next : Table} {lots : List Lot} {history : List Execution}

theorem size_at_none {orderId : Uuid} (absent : table orderId = none) : table.sizeAt orderId = 0 := by
  rw [Table.sizeAt, absent, Option.map_none, Option.getD_none]

theorem size_at_some {orderId : Uuid} {resting : Resting} (there : table orderId = some resting) :
    table.sizeAt orderId = resting.size := by
  rw [Table.sizeAt, there, Option.map_some, Option.getD_some]

section Step

variable (executed : Executed lua execution table lots next) (completes : execution.completes)

include executed completes

theorem reports_completed (orderId : Uuid) :
    reports orderId execution = if orderId ∈ (execution.order.fill lots).completed.map Prod.fst then 1 else 0 := by
  obtain ⟨reply, ok⟩ := completes
  have same : reports orderId execution = (reply.completedOrders.map Prod.fst).count orderId := by
    rw [reports, ok]
  rw [same, effect_reply executed ok, completed_ids, (fill_ids_nodup executed.queue).count]

theorem reports_absent {orderId : Uuid} (absent : table orderId = none) : reports orderId execution = 0 := by
  rw [reports_completed executed completes, if_neg]
  intro member
  obtain ⟨lot, done, rfl⟩ := List.mem_map.mp member
  rw [queue_present executed.queue (completed_subset done)] at absent
  cases absent

theorem gives_up {orderId : Uuid} (apart : execution.order.orderId ≠ orderId) :
    ∃ given : Nat, trades (fun _ => 1) execution orderId = given ∧ next.sizeAt orderId + given = table.sizeAt orderId ∧
      reports orderId execution = if table.sizeAt orderId ≠ 0 ∧ next.sizeAt orderId = 0 then 1 else 0 := by
  have after := effect_complete executed completes
  cases there : table orderId with
  | none =>
      have gone : next orderId = none := by
        rw [after, complete_new executed.queue there, if_neg apart.symm]
      refine ⟨0, trades_absent executed _ there apart, ?_, ?_⟩
      · rw [size_at_none there, size_at_none gone]
      · rw [reports_absent executed completes there, size_at_none there, if_neg fun both => both.1 rfl]
  | some maker =>
      have traded := traded_taken executed completes there
      have left := complete_maker lua executed.queue executed.fresh.order there
      rw [← after] at left
      refine ⟨execution.order.taken lots (orderId, maker), ?_, ?_⟩
      · rw [trades_resting executed _ there, traded, one_mul]
      · rw [size_at_some there, reports_completed executed completes]
        by_cases done : (orderId, maker) ∈ (execution.order.fill lots).completed
        · rw [if_pos done] at left
          have positive := maker.open_
          rw [size_at_none left, taken_completed done, if_pos ((completed_iff executed.queue there).mpr done),
            if_pos ⟨Nat.ne_of_gt positive, rfl⟩]
          exact ⟨Nat.zero_add _, rfl⟩
        · rw [if_neg done] at left
          have less := taken_lt_size done
          simp only at less
          rw [size_at_some left, reduce_size maker _ less,
            if_neg fun member => done ((completed_iff executed.queue there).mp member), if_neg (by omega)]
          exact ⟨by omega, rfl⟩

theorem old_fulfilled {order : Submission} {reply : Reply} (apart : execution.order.orderId ≠ order.orderId)
    (fulfilled : Fulfilled history table order reply) : Fulfilled (history ++ [execution]) next order reply := by
  obtain ⟨shares, reported, resting⟩ := fulfilled
  obtain ⟨given, traded, left, named⟩ := gives_up executed completes apart
  refine ⟨?_, ?_, fun some_ => resting (by omega)⟩
  · rw [sharesTraded] at shares
    rw [sharesTraded, trades_over_append, traded]
    omega
  · rw [times_reported_append, reported, named]
    by_cases before : table.sizeAt order.orderId = 0
    · have after : next.sizeAt order.orderId = 0 := by omega
      simp [before, after]
    · simp [before, resting before]

theorem new_size : next.sizeAt execution.order.orderId =
    if execution.order.form.orderType = .market then 0 else (execution.order.fill lots).remaining := by
  have rest : next execution.order.orderId = execution.order.resting (execution.order.fill lots).remaining
      (volume lua 0 (execution.order.fill lots).completed) := by
    rw [effect_complete executed completes, complete_new executed.queue executed.fresh.order, if_pos rfl]
  cases made : next execution.order.orderId with
  | none =>
      rw [made] at rest
      rw [size_at_none made]
      cases form : execution.order.form.orderType with
      | market => rfl
      | limit price =>
          rw [if_neg OrderType.noConfusion]
          refine (Nat.eq_zero_of_not_pos fun left => ?_).symm
          obtain ⟨resting, some_⟩ := resting_exists form left (fill_remaining_le execution.order lots)
            (volume lua 0 (execution.order.fill lots).completed)
          rw [← rest] at some_
          cases some_
  | some resting =>
      rw [made] at rest
      have remainder := resting_made rest.symm
      rw [size_at_some made, remainder.size, remainder.form, if_neg OrderType.noConfusion]

theorem new_fulfilled (run : Run lua history execution.before) (fresh : FreshIn history execution.order)
    (unnamed : timesReported history execution.order.orderId = 0) {reply : Reply} (ok : execution.outcome = .ok reply) :
    Fulfilled (history ++ [execution]) next execution.order reply := by
  have unused : tradesOver (fun _ => 1) history execution.order.orderId = 0 :=
    trades_over_unused _ run fun earlier member => (fresh.2 earlier member).1.symm
  have filled : reply.sharesFilled = execution.order.size - (execution.order.fill lots).remaining := by
    rw [effect_reply executed ok]
  have within := fill_remaining_le execution.order lots
  have traded : sharesTraded (history ++ [execution]) execution.order.orderId = reply.sharesFilled := by
    rw [sharesTraded, trades_over_append, unused, trades_incoming executed, taker_trades_shares executed completes, filled, zero_add]
  have named : timesReported (history ++ [execution]) execution.order.orderId = 0 := by
    rw [times_reported_append, unnamed, reports_absent executed completes executed.fresh.order]
  have size := new_size executed completes
  refine ⟨?_, ?_, ?_⟩
  · rw [traded, size, Submission.due, filled]
    cases form : execution.order.form.orderType with
    | market => simp
    | limit price => simp
  · rw [named, size]
    refine (if_neg fun both => ?_).symm
    obtain ⟨none_left, limit, some_left⟩ := both
    rw [if_neg limit] at none_left
    omega
  · rw [size]
    intro left
    by_cases limit : execution.order.form.orderType = .market
    · rw [if_pos limit] at left
      exact absurd rfl left
    · rw [if_neg limit] at left
      exact ⟨limit, by omega⟩

end Step

structure AllFulfilled (history : List Execution) (table : Table) : Prop where
  known : ∀ execution ∈ history, ∀ reply, execution.outcome = .ok reply → Fulfilled history table execution.order reply
  unknown : ∀ orderId, (∀ execution ∈ history, execution.order.orderId ≠ orderId) → timesReported history orderId = 0

theorem run_fulfilled {store : Store} (run : Run lua history store) (complete : Complete history) :
    ∃ table, Represents store table ∧ AllFulfilled history table := by
  obtain ⟨table, rep, _, fulfilled⟩ := run_invariant lua (fun history table => Complete history → AllFulfilled history table)
    (fun _ => ⟨fun _ member => absurd member List.not_mem_nil, fun _ _ => rfl⟩)
    (fun history execution table lots next earlier sound fresh executed ih complete => by
      obtain ⟨before, completes⟩ := complete_append.mp complete
      obtain ⟨known, unknown⟩ := ih before
      refine ⟨?_, ?_⟩
      · intro other member reply ok
        cases List.mem_append.mp member with
        | inl old =>
            exact old_fulfilled executed completes (fresh.2 other old).1 (known other old reply ok)
        | inr new =>
            obtain rfl := List.mem_singleton.mp new
            have unnamed := unknown _ fun earlier old => (fresh.2 earlier old).1.symm
            exact new_fulfilled executed completes earlier fresh unnamed ok
      · intro orderId unused
        have unnamed := unknown orderId fun other old => unused other (List.mem_append_left _ old)
        have absent := sound_absent sound fun other old => unused other (List.mem_append_left _ old)
        rw [times_reported_append, unnamed, reports_absent executed completes absent]) run
  exact ⟨table, rep, fulfilled complete⟩

/-- No order is lost: what it does not have at rest it has traded, only a limit order that was not
filled at once is at rest, and it is named in exactly one reply once it is gone. -/
theorem orders_fulfilled (lua : Lua) (history : List Execution) (store : Store) (run : Run lua history store)
    (complete : Complete history) :
    ∀ execution ∈ history, ∀ reply, execution.outcome = .ok reply →
      sharesTraded history execution.order.orderId + restingSize store execution.order.orderId = execution.order.due reply ∧
        timesReported history execution.order.orderId =
          (if restingSize store execution.order.orderId = 0 ∧ execution.order.Rests reply then 1 else 0) ∧
        (restingSize store execution.order.orderId ≠ 0 → execution.order.Rests reply) := by
  intro execution member reply ok
  obtain ⟨table, rep, fulfilled⟩ := run_fulfilled run complete
  have own := fulfilled.known execution member reply ok
  simp only [resting_size_at rep]
  exact ⟨own.shares, own.reported, own.resting⟩

theorem orders_fulfilled_partial :
    sharesTraded (executions (.exactIntegers 7999) emptyKeys partialFills) ⟨11⟩ +
        restingSize (storeAfter (.exactIntegers 7999) emptyKeys partialFills) ⟨11⟩ =
          (⟨⟨1⟩, 1, .offers, ⟨10, .limit 3⟩, ⟨11⟩⟩ : Submission).due ⟨0, 0, []⟩ ∧
      timesReported (executions (.exactIntegers 7999) emptyKeys partialFills) ⟨11⟩ =
        (if restingSize (storeAfter (.exactIntegers 7999) emptyKeys partialFills) ⟨11⟩ = 0 ∧
          (⟨⟨1⟩, 1, .offers, ⟨10, .limit 3⟩, ⟨11⟩⟩ : Submission).Rests ⟨0, 0, []⟩ then 1 else 0) ∧
      (restingSize (storeAfter (.exactIntegers 7999) emptyKeys partialFills) ⟨11⟩ ≠ 0 →
        (⟨⟨1⟩, 1, .offers, ⟨10, .limit 3⟩, ⟨11⟩⟩ : Submission).Rests ⟨0, 0, []⟩) :=
  orders_fulfilled (.exactIntegers 7999) _ _ (executions_run _ partialFills (by decide)) (complete_of_outcomes (by decide))
    (executionOf (.exactIntegers 7999) ⟨⟨1⟩, 1, .offers, ⟨10, .limit 3⟩, ⟨11⟩⟩ emptyKeys) List.mem_cons_self ⟨0, 0, []⟩ rfl

def sideOrders (assetId : Int32) (side : Book) (history : List Execution) : List Uuid :=
  (history.filter fun execution => execution.order.assetId = assetId ∧ execution.order.book = side).map
    fun execution => execution.order.orderId

def sideTrades (worth : Int → Int) (assetId : Int32) (side : Book) (history : List Execution) : Int :=
  ((sideOrders assetId side history).map (tradesOver worth history)).sum

def takersTrades (worth : Int → Int) (assetId : Int32) (history : List Execution) : Int :=
  ((history.filter fun execution => execution.order.assetId = assetId).map (takerTrades worth)).sum

theorem side_orders_append (assetId : Int32) (side : Book) (history : List Execution) (execution : Execution) :
    sideOrders assetId side (history ++ [execution]) = sideOrders assetId side history ++
      if execution.order.assetId = assetId ∧ execution.order.book = side then [execution.order.orderId] else [] := by
  by_cases own : execution.order.assetId = assetId ∧ execution.order.book = side <;> simp [sideOrders, own]

theorem takers_trades_append (worth : Int → Int) (assetId : Int32) (history : List Execution) (execution : Execution) :
    takersTrades worth assetId (history ++ [execution]) =
      takersTrades worth assetId history + if execution.order.assetId = assetId then takerTrades worth execution else 0 := by
  by_cases own : execution.order.assetId = assetId <;> simp [takersTrades, own]

theorem mem_side_orders {assetId : Int32} {side : Book} {orderId : Uuid} : orderId ∈ sideOrders assetId side history ↔
    ∃ execution ∈ history, execution.order.orderId = orderId ∧ execution.order.assetId = assetId ∧ execution.order.book = side := by
  simp [sideOrders, and_assoc, and_comm, and_left_comm]

theorem side_orders_nodup {store : Store} (run : Run lua history store) (assetId : Int32) (side : Book) :
    (sideOrders assetId side history).Nodup := by
  have apart := List.pairwise_map.mp (run_orders_apart run)
  exact List.pairwise_map.mpr ((apart.filter _).imp fun apart => apart.1.symm)

theorem sum_supported {α : Type} [DecidableEq α] (amount : α → Int) {whole part : List α} (distinct : whole.Nodup)
    (apart : part.Nodup) (within : ∀ item ∈ part, item ∈ whole) (zero : ∀ item ∈ whole, item ∉ part → amount item = 0) :
    (whole.map amount).sum = (part.map amount).sum := by
  rw [← List.sum_toFinset amount distinct, ← List.sum_toFinset amount apart]
  refine (Finset.sum_subset ?_ ?_).symm
  · intro item member
    exact List.mem_toFinset.mpr (within item (List.mem_toFinset.mp member))
  · intro item member outside
    exact zero item (List.mem_toFinset.mp member) fun inside => outside (List.mem_toFinset.mpr inside)

section Sides

variable (fresh : FreshIn history execution.order) (executed : Executed lua execution table lots next)

include fresh executed

theorem side_outside (worth : Int → Int) {assetId : Int32} {side : Book} {orderId : Uuid}
    (member : orderId ∈ sideOrders assetId side history) (outside : orderId ∉ lots.map Prod.fst) :
    trades worth execution orderId = 0 := by
  obtain ⟨earlier, known, rfl, _⟩ := mem_side_orders.mp member
  cases there : table earlier.order.orderId with
  | none => exact trades_absent executed worth there (fresh.2 earlier known).1
  | some resting =>
      have unqueued := traded_unqueued executed there fun queued => outside (List.mem_map_of_mem queued)
      rw [trades_resting executed worth there, unqueued]
      simp

variable (run : Run lua history execution.before) (sound : Sound history table)

include run sound

theorem side_gives (worth : Int → Int) (assetId : Int32) (side : Book) :
    ((sideOrders assetId side history).map (trades worth execution)).sum =
      if execution.order.assetId = assetId ∧ execution.order.book.opposite = side then takerTrades worth execution else 0 := by
  split
  case isTrue own =>
    obtain ⟨rfl, rfl⟩ := own
    rw [sum_supported (trades worth execution) (side_orders_nodup run _ _) (queue_ids_nodup executed.queue) ?_
      fun orderId member outside => side_outside fresh executed worth member outside]
    · rw [taker_trades_lots executed, List.map_map]
      refine congrArg List.sum (List.map_congr_left fun lot queued => ?_)
      exact trades_resting executed worth (queue_present executed.queue queued)
    · intro orderId member
      obtain ⟨lot, queued, rfl⟩ := List.mem_map.mp member
      obtain ⟨there, asset, side, _⟩ := (executed.queue.mem lot.1 lot.2).mp queued
      obtain ⟨origin, known, same, submitted⟩ := sound lot.1 lot.2 there
      exact mem_side_orders.mpr ⟨origin, known, same, submitted.2.1.symm.trans asset, submitted.2.2.1.symm.trans side⟩
  case isFalse apart =>
    apply List.sum_eq_zero
    intro amount member
    obtain ⟨orderId, inSide, rfl⟩ := List.mem_map.mp member
    refine side_outside fresh executed worth inSide fun queued => apart ?_
    obtain ⟨lot, inQueue, rfl⟩ := List.mem_map.mp queued
    obtain ⟨earlier, known, same, asset, side⟩ := mem_side_orders.mp inSide
    obtain ⟨there, lotAsset, lotSide, _⟩ := (executed.queue.mem lot.1 lot.2).mp inQueue
    rw [← same] at there
    obtain ⟨_, restingAsset, restingSide, _⟩ := run_submitted run sound known there
    exact ⟨lotAsset.symm.trans (restingAsset.trans asset), lotSide.symm.trans (restingSide.trans side)⟩

theorem side_step (worth : Int → Int) (assetId : Int32) (side : Book) :
    sideTrades worth assetId side (history ++ [execution]) =
      sideTrades worth assetId side history + if execution.order.assetId = assetId then takerTrades worth execution else 0 := by
  have unused : tradesOver worth history execution.order.orderId = 0 :=
    trades_over_unused worth run fun earlier member => (fresh.2 earlier member).1.symm
  have given := side_gives fresh executed run sound worth assetId side
  have split : (sideOrders assetId side history).map (tradesOver worth (history ++ [execution])) =
      (sideOrders assetId side history).map fun orderId => tradesOver worth history orderId + trades worth execution orderId :=
    List.map_congr_left fun orderId _ => trades_over_append worth history execution orderId
  rw [sideTrades, side_orders_append, List.map_append, List.sum_append, split, List.sum_map_add, given, ← sideTrades]
  have own := trades_incoming executed worth
  cases book : execution.order.book <;> cases side <;> by_cases asset : execution.order.assetId = assetId <;>
    simp [asset, Book.opposite, trades_over_append, unused, own]

end Sides

theorem sides_trade {store : Store} (run : Run lua history store) (worth : Int → Int) (assetId : Int32) (side : Book) :
    sideTrades worth assetId side history = takersTrades worth assetId history := by
  obtain ⟨_, _, _, same⟩ := run_invariant lua
    (fun history _ => sideTrades worth assetId side history = takersTrades worth assetId history) rfl
    (fun history execution table lots next earlier sound fresh executed ih => by
      rw [side_step fresh executed earlier sound, takers_trades_append, ih]) run
  exact same

def filledShares (execution : Execution) : Int :=
  match execution.outcome with
  | .ok reply => reply.sharesFilled
  | .error _ => 0

/-- Whatever a share is worth, the bids for an asset trade as much as the offers, and of shares as many as the replies say. -/
theorem sides_balance (lua : Lua) (history : List Execution) (store : Store) (run : Run lua history store) (assetId : Int32) :
    (∀ worth, sideTrades worth assetId .bids history = sideTrades worth assetId .offers history) ∧
      (Complete history → ∀ side, sideTrades (fun _ => 1) assetId side history =
        ((history.filter fun execution => execution.order.assetId = assetId).map filledShares).sum) := by
  refine ⟨fun worth => (sides_trade run worth assetId _).trans (sides_trade run worth assetId _).symm, fun complete side => ?_⟩
  rw [sides_trade run, takersTrades]
  refine congrArg List.sum (List.map_congr_left fun execution member => ?_)
  have known := List.mem_of_mem_filter member
  obtain ⟨table, lots, next, executed⟩ := run_executed run known
  obtain ⟨reply, ok⟩ := complete execution known
  rw [taker_trades_shares executed ⟨reply, ok⟩, filledShares, ok, effect_reply executed ok]

theorem sides_balance_partial :
    (∀ worth, sideTrades worth 1 .bids (executions (.exactIntegers 7999) emptyKeys partialFills) =
        sideTrades worth 1 .offers (executions (.exactIntegers 7999) emptyKeys partialFills)) ∧
      (Complete (executions (.exactIntegers 7999) emptyKeys partialFills) →
        ∀ side, sideTrades (fun _ => 1) 1 side (executions (.exactIntegers 7999) emptyKeys partialFills) =
          (((executions (.exactIntegers 7999) emptyKeys partialFills).filter fun execution => execution.order.assetId = 1).map
            filledShares).sum) :=
  sides_balance (.exactIntegers 7999) _ _ (executions_run _ partialFills (by decide)) 1

end MktSim
