import MktSim.Api.Completion
import MktSim.Api.PricePriority

set_option autoImplicit false

namespace MktSim

open Redis SortedSets Greedy Runs

def bookSize (store : Store) (assetId : Int32) (side : Book) : Nat :=
  ((bookOrders store assetId side).map (restingSize store)).sum

-- What a market order should do: it fills with whatever the other book has, at the
-- best prices first, and nothing of it comes to rest.
structure TakesLiquidity (execution : Execution) : Prop where
  filled : ∃ reply, execution.outcome = .ok reply ∧ reply.sharesFilled =
    min execution.order.size (bookSize execution.before execution.order.assetId execution.order.book.opposite)
  shares : takerTrades (fun _ => 1) execution =
    min execution.order.size (bookSize execution.before execution.order.assetId execution.order.book.opposite)
  best : ∀ orderId, 0 < traded execution orderId →
    ∀ other ∈ bookOrders execution.before execution.order.assetId execution.order.book.opposite,
      Better execution.order.book (restingPrice execution.before other) (restingPrice execution.before orderId) →
        restingSize execution.after other = 0
  unrested : hashAt execution.after (.id execution.order.orderId) = none ∧
    ∀ assetId side, execution.order.orderId ∉ bookOrders execution.after assetId side

-- A market order has no price argument, so it is matched like a limit order at price 0:
-- a bid with the offers at 0 and below, an offer with the bids at 0 and below.
def ReachesLiquidity (store : Store) (order : Submission) : Prop :=
  (∀ maker ∈ bookOrders store order.assetId order.book.opposite, restingPrice store maker ≤ 0) ∨
    match order.book with
    | .bids => order.size ≤ ((selectedOrders store order).map (restingSize store)).sum
    | .offers => order.size = 0

theorem lots_positive {lots : List Lot} (some_ : lots ≠ []) : 0 < total lotSize lots := by
  obtain ⟨lot, rest, rfl⟩ := List.exists_cons_of_ne_nil some_
  have positive := lot.2.open_
  rw [total_cons, lotSize]
  omega

theorem market_price {order : Submission} (form : order.form.orderType = .market) : order.price = 0 := by
  rw [Submission.price, form]

variable {lua : Lua} {execution : Execution} {table next : Table} {lots : List Lot}

section Book

variable (executed : Executed lua execution table lots next)

include executed

theorem selected_total :
    ((selectedOrders execution.before execution.order).map (restingSize execution.before)).sum = total lotSize lots := by
  rw [selected_lots executed]
  exact lots_size executed lots fun lot member => member

theorem queued_iff {orderId : Uuid} {resting : Resting} : (orderId, resting) ∈ lots ↔ table orderId = some resting ∧
    resting.assetId = execution.order.assetId ∧ resting.side = execution.order.book.opposite ∧
      resting.price.toInt ≤ execution.order.price := by
  rw [executed.queue.mem]
  exact and_congr_right fun _ => and_congr_right fun _ => and_congr_right fun side => reach_price side _

theorem book_size_selected : ∃ above : List Lot,
    bookSize execution.before execution.order.assetId execution.order.book.opposite =
      total lotSize lots + total lotSize above ∧
    (above = [] ↔ ∀ maker ∈ bookOrders execution.before execution.order.assetId execution.order.book.opposite,
      restingPrice execution.before maker ≤ execution.order.price) := by
  obtain ⟨all, whole, orders⟩ := represents_book executed.before execution.order.assetId execution.order.book.opposite
  have size : (all.map Prod.fst).map (restingSize execution.before) = all.map lotSize := by
    rw [List.map_map]
    exact List.map_congr_left fun lot member => resting_size_some executed.before (queue_present whole member)
  refine ⟨all.filter fun lot => !reach execution.order.book execution.order.price lot.2.score, ?_, ?_⟩
  · rw [bookSize, orders, size, Greedy.sum_split lotSize fun lot => reach execution.order.book execution.order.price lot.2.score,
      ← queue_filter whole executed.queue]
    rfl
  · have inReach : ∀ lot ∈ all, reach execution.order.book execution.order.price lot.2.score = true ↔
        restingPrice execution.before lot.1 ≤ execution.order.price := by
      intro lot member
      obtain ⟨there, asset, side, _⟩ := (whole.mem lot.1 lot.2).mp member
      rw [resting_price_some executed.before there]
      have both := (executed.queue.mem lot.1 lot.2).symm.trans (queued_iff executed)
      simpa only [there, asset, side, true_and] using both
    rw [orders, List.filter_eq_nil_iff]
    refine ⟨fun none maker member => ?_, fun within lot member => ?_⟩
    · obtain ⟨lot, inAll, rfl⟩ := List.mem_map.mp member
      have reached := none lot inAll
      rw [Bool.not_eq_true', Bool.not_eq_false] at reached
      exact (inReach lot inAll).mp reached
    · rw [(inReach lot member).mpr (within lot.1 (List.mem_map_of_mem member))]
      exact Bool.false_ne_true

end Book

section Market

variable (executed : Executed lua execution table lots next) (form : execution.order.form.orderType = .market)

include executed form

theorem market_unrested (completes : execution.completes) :
    hashAt execution.after (.id execution.order.orderId) = none ∧
      ∀ assetId side, execution.order.orderId ∉ bookOrders execution.after assetId side := by
  have gone : next execution.order.orderId = none := by
    rw [effect_complete executed completes, complete_new executed.queue executed.fresh.order, if_pos rfl,
      Submission.resting, form]
  refine ⟨by rw [executed.after.hashes, gone, Option.map_none], fun assetId side member => ?_⟩
  obtain ⟨resting, there, _⟩ := (mem_book_orders executed.after).mp member
  rw [gone] at there
  cases there

theorem market_filled (reaches : ReachesLiquidity execution.before execution.order) :
    execution.order.size - (execution.order.fill lots).remaining = min execution.order.size
      (bookSize execution.before execution.order.assetId execution.order.book.opposite) := by
  obtain ⟨above, size, none⟩ := book_size_selected executed
  rw [fill_remaining, size]
  cases reaches with
  | inl within =>
      rw [none.mpr (by rw [market_price form]; exact within), total_nil]
      omega
  | inr enough =>
      cases book : execution.order.book with
      | bids =>
          rw [book] at enough
          simp only [selected_total executed] at enough
          omega
      | offers =>
          rw [book] at enough
          simp only at enough
          omega

theorem better_within (completes : execution.completes) (reaches : ReachesLiquidity execution.before execution.order)
    {orderId : Uuid} (trade : 0 < traded execution orderId) {other : Uuid}
    (inBook : other ∈ bookOrders execution.before execution.order.assetId execution.order.book.opposite)
    (better : Better execution.order.book (restingPrice execution.before other) (restingPrice execution.before orderId)) :
    restingPrice execution.before other ≤ execution.order.price := by
  obtain ⟨resting, queued, touched, makerPrice⟩ := trade_taken executed completes trade
  have makerLow := ((queued_iff executed).mp queued).2.2.2
  cases reaches with
  | inl all =>
      rw [market_price form]
      exact all other inBook
  | inr enough =>
      cases book : execution.order.book with
      | bids =>
          rw [book, makerPrice] at better
          have cheaper : restingPrice execution.before other < resting.price.toInt := better
          omega
      | offers =>
          rw [book] at enough
          have most : execution.order.taken lots (orderId, resting) ≤ execution.order.size :=
            taken_le_demand lotSize execution.order.size (queue_nodup executed.queue) queued
          simp only at enough
          omega

theorem market_takes (unpacks : UnpacksAll lua execution.before execution.order)
    (reaches : ReachesLiquidity execution.before execution.order) : TakesLiquidity execution := by
  have completes := (completes_iff executed).mpr unpacks
  have shares := market_filled executed form reaches
  have within := fill_remaining_le execution.order lots
  refine ⟨?_, ?_, ?_, market_unrested executed form completes⟩
  · obtain ⟨reply, ok⟩ := completes
    refine ⟨reply, ok, ?_⟩
    rw [effect_reply executed ok]
    simp only
    omega
  · rw [taker_trades_shares executed completes]
    omega
  · intro orderId trade other inBook better
    have low := better_within executed form completes reaches trade inBook better
    obtain ⟨held, there, asset, side⟩ := (mem_book_orders executed.before).mp inBook
    rw [resting_price_some executed.before there] at low better
    exact better_gone executed completes trade ((queued_iff executed).mpr ⟨there, asset, side, low⟩) better

theorem market_reaches (takes : TakesLiquidity execution) :
    UnpacksAll lua execution.before execution.order ∧ ReachesLiquidity execution.before execution.order := by
  obtain ⟨reply, ok, filled⟩ := takes.filled
  have completes : execution.completes := ⟨reply, ok⟩
  have price := market_price form
  refine ⟨(completes_iff executed).mp completes, ?_⟩
  obtain ⟨above, size, none⟩ := book_size_selected executed
  by_cases nothing : above = []
  · left
    rw [← price]
    exact none.mp nothing
  right
  have more := lots_positive nothing
  have whole := effect_reply executed ok
  rw [whole, fill_remaining, size] at filled
  have covered : execution.order.size ≤ total lotSize lots := by
    simp only at filled
    omega
  cases book : execution.order.book with
  | bids =>
      simp only [selected_total executed]
      exact covered
  | offers =>
      by_contra wanted
      simp only at wanted
      have some_ : lots ≠ [] := by
        rintro rfl
        rw [total_nil] at covered
        exact wanted (Nat.le_zero.mp covered)
      exact nothing (none.mpr (none_above executed completes book takes.best (Nat.pos_of_ne_zero wanted) some_))

end Market

/-- A market order takes the liquidity there is only where the price 0 in place of the
missing one does no harm. -/
theorem market_takes_liquidity_iff (lua : Lua) (history : List Execution) (store : Store) (run : Run lua history store)
    (order : Submission) (fresh : FreshIn history order) (form : order.form.orderType = .market) :
    TakesLiquidity (executionOf lua order store) ↔ UnpacksAll lua store order ∧ ReachesLiquidity store order := by
  obtain ⟨table, lots, next, executed⟩ := next_executed run fresh
  constructor
  · exact market_reaches executed form
  · exact fun both => market_takes executed form both.1 both.2

def restingOffer : List Submission := [⟨⟨1⟩, 1, .offers, ⟨10, .limit 3⟩, ⟨11⟩⟩]

def marketBid : Submission := ⟨⟨2⟩, 1, .bids, ⟨4, .market⟩, ⟨12⟩⟩

def storeWithOffer : Store := storeAfter (.exactIntegers 7999) emptyKeys restingOffer

theorem offer_rests_run : Run (.exactIntegers 7999) (executions (.exactIntegers 7999) emptyKeys restingOffer) storeWithOffer :=
  executions_run _ restingOffer (by decide)

theorem offer_rests_complete : Complete (executions (.exactIntegers 7999) emptyKeys restingOffer) :=
  complete_of_outcomes (by decide)

theorem market_takes_liquidity_iff_offer : TakesLiquidity (executionOf (.exactIntegers 7999) marketBid storeWithOffer) ↔
    UnpacksAll (.exactIntegers 7999) storeWithOffer marketBid ∧ ReachesLiquidity storeWithOffer marketBid :=
  market_takes_liquidity_iff _ _ _ offer_rests_run marketBid (by decide) rfl

theorem market_bid_unfilled : ¬ ∀ (lua : Lua) (history : List Execution) (store : Store), Run lua history store →
    Complete history → ∀ order : Submission, FreshIn history order → order.form.orderType = .market →
      TakesLiquidity (executionOf lua order store) := by
  intro claimed
  have takes := claimed _ _ _ offer_rests_run offer_rests_complete marketBid (by decide) rfl
  have shares := takes.shares
  revert shares
  decide

end MktSim
