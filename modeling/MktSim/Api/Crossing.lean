import MktSim.Api.Executions

set_option autoImplicit false

namespace MktSim

open Redis SortedSets Greedy Runs

def Uncrossed (store : Store) : Prop :=
  ∀ assetId, ∀ bid ∈ bookOrders store assetId .bids, ∀ offer ∈ bookOrders store assetId .offers,
    restingPrice store bid < restingPrice store offer

def bidsWithin (store : Store) (assetId : Int32) (price : Int) : Nat :=
  (((bookOrders store assetId .bids).filter fun bid => restingPrice store bid ≤ price).map (restingSize store)).sum

-- An incoming limit offer either finds no bid above its price, or is used up by
-- the bids at its price and below, which are the ones the script selects for it.
def RestsClear (store : Store) (order : Submission) : Prop :=
  order.book = .offers → ∀ price, order.form.orderType = .limit price →
    (∀ bid ∈ bookOrders store order.assetId .bids, restingPrice store bid ≤ price.toInt) ∨
      order.size ≤ bidsWithin store order.assetId price.toInt

def UncrossedTable (table : Table) : Prop :=
  ∀ bidId bid offerId offer, table bidId = some bid → table offerId = some offer → bid.side = .bids →
    offer.side = .offers → bid.assetId = offer.assetId → bid.price.toInt < offer.price.toInt

theorem uncrossed_table {store : Store} {table : Table} (rep : Represents store table) :
    Uncrossed store ↔ UncrossedTable table := by
  refine ⟨?_, ?_⟩
  · intro uncrossed bidId bid offerId offer bidThere offerThere isBid isOffer sameAsset
    have less := uncrossed bid.assetId bidId ((mem_book_orders rep).mpr ⟨bid, bidThere, rfl, isBid⟩)
      offerId ((mem_book_orders rep).mpr ⟨offer, offerThere, sameAsset.symm, isOffer⟩)
    rwa [resting_price_some rep bidThere, resting_price_some rep offerThere] at less
  · intro uncrossed assetId bidId inBids offerId inOffers
    obtain ⟨bid, bidThere, bidAsset, isBid⟩ := (mem_book_orders rep).mp inBids
    obtain ⟨offer, offerThere, offerAsset, isOffer⟩ := (mem_book_orders rep).mp inOffers
    rw [resting_price_some rep bidThere, resting_price_some rep offerThere]
    exact uncrossed bidId bid offerId offer bidThere offerThere isBid isOffer (bidAsset.trans offerAsset.symm)

theorem uncrossed_empty : Uncrossed emptyKeys := by
  rw [uncrossed_table empty_represents]
  intro bidId bid _ _ bidThere
  cases bidThere

variable {lua : Lua} {execution : Execution} {table next : Table} {lots : List Lot}

theorem bids_within_total (executed : Executed lua execution table lots next) (isOffer : execution.order.book = .offers) :
    bidsWithin execution.before execution.order.assetId execution.order.price = total lotSize lots := by
  have queue := executed.queue
  rw [isOffer] at queue
  apply selected_size executed.before queue
  intro orderId order there isBid
  rw [resting_price_some executed.before there, Bool.eq_iff_iff, decide_eq_true_eq, reach_price isBid]

theorem remainder_out_of_reach (executed : Executed lua execution table lots next) (completes : execution.completes)
    (left : 0 < (execution.order.fill lots).remaining) {orderId : Uuid} {before after : Resting}
    (there : table orderId = some before) (stays : next orderId = some after)
    (asset : before.assetId = execution.order.assetId) (side : before.side = execution.order.book.opposite) :
    ¬ reach execution.order.book execution.order.price before.score = true := by
  intro inReach
  have queued : (orderId, before) ∈ lots := (executed.queue.mem orderId before).mpr ⟨there, asset, side, inReach⟩
  have done : (orderId, before) ∈ (execution.order.fill lots).completed := by
    rw [Submission.fill, completed_of_remaining left]
    exact queued
  rw [effect_complete executed completes, complete_maker lua executed.queue executed.fresh.order there, if_pos done] at stays
  cases stays

section NewOrder

variable (executed : Executed lua execution table lots next) (completes : execution.completes) {dollars : Int}
  {made : Resting} (rests : execution.order.resting (execution.order.fill lots).remaining dollars = some made)

include executed completes rests

theorem new_offer_above (clear : RestsClear execution.before execution.order) {bidId : Uuid} {before bid : Resting}
    (bidBefore : table bidId = some before) (bidThere : next bidId = some bid) (same : SameOrder bid before)
    (isBid : bid.side = .bids) (isOffer : made.side = .offers) (sameAsset : bid.assetId = made.assetId) :
    bid.price.toInt < made.price.toInt := by
  have new := resting_made rests
  have left := resting_left rests
  have book : execution.order.book = .offers := new.side.symm.trans isOffer
  have asset : before.assetId = execution.order.assetId := same.asset.symm.trans (sameAsset.trans new.asset)
  have side : before.side = .bids := same.side.symm.trans isBid
  have outside := remainder_out_of_reach executed completes left bidBefore bidThere asset (by rw [book]; exact side)
  rw [book, reach_price side] at outside
  have price := limit_price new.form
  exfalso
  cases clear book made.price new.form with
  | inl noneAbove =>
      have bound := noneAbove bidId ((mem_book_orders executed.before).mpr ⟨before, bidBefore, asset, side⟩)
      rw [resting_price_some executed.before bidBefore] at bound
      omega
  | inr usedUp =>
      rw [← price, bids_within_total executed book] at usedUp
      rw [fill_remaining] at left
      omega

theorem new_bid_below {offerId : Uuid} {before offer : Resting} (offerBefore : table offerId = some before)
    (offerThere : next offerId = some offer) (same : SameOrder offer before) (isBid : made.side = .bids)
    (isOffer : offer.side = .offers) (sameAsset : made.assetId = offer.assetId) :
    made.price.toInt < offer.price.toInt := by
  have new := resting_made rests
  have book : execution.order.book = .bids := new.side.symm.trans isBid
  have side : before.side = .offers := same.side.symm.trans isOffer
  have outside := remainder_out_of_reach executed completes (resting_left rests) offerBefore offerThere
    (same.asset.symm.trans (sameAsset.symm.trans new.asset)) (by rw [book]; exact side)
  rw [book, reach_price side] at outside
  have price := limit_price new.form
  rw [same.price]
  omega

end NewOrder

theorem step_uncrossed_of_clear (executed : Executed lua execution table lots next) (completes : execution.completes)
    (uncrossed : UncrossedTable table) (clear : RestsClear execution.before execution.order) : UncrossedTable next := by
  intro bidId bid offerId offer bidThere offerThere isBid isOffer sameAsset
  have origin := fun {orderId : Uuid} {after : Resting} (found : next orderId = some after) =>
    effect_origin executed.queue executed.fresh.order executed.effect found
  cases origin bidThere with
  | inl oldBid =>
      obtain ⟨bidWas, bidBefore, bidSame, _⟩ := oldBid
      cases origin offerThere with
      | inl oldOffer =>
          obtain ⟨offerWas, offerBefore, offerSame, _⟩ := oldOffer
          rw [bidSame.price, offerSame.price]
          exact uncrossed bidId bidWas offerId offerWas bidBefore offerBefore (bidSame.side.symm.trans isBid)
            (offerSame.side.symm.trans isOffer) (bidSame.asset.symm.trans (sameAsset.trans offerSame.asset))
      | inr newOffer =>
          exact new_offer_above executed completes newOffer.2.2 clear bidBefore bidThere bidSame isBid isOffer sameAsset
  | inr newBid =>
      cases origin offerThere with
      | inl oldOffer =>
          obtain ⟨offerWas, offerBefore, offerSame, _⟩ := oldOffer
          exact new_bid_below executed completes newBid.2.2 offerBefore offerThere offerSame isBid isOffer sameAsset
      | inr newOffer =>
          -- One execution leaves one order, and it has one side.
          have sides := (resting_made newBid.2.2).side.trans (resting_made newOffer.2.2).side.symm
          rw [isBid, isOffer] at sides
          cases sides

theorem step_clear_of_uncrossed (executed : Executed lua execution table lots next) (completes : execution.completes)
    (uncrossed : UncrossedTable next) : RestsClear execution.before execution.order := by
  intro book price form
  by_contra crossing
  push Not at crossing
  obtain ⟨⟨bidId, inBids, above⟩, more⟩ := crossing
  obtain ⟨bid, bidBefore, bidAsset, bidSide⟩ := (mem_book_orders executed.before).mp inBids
  rw [resting_price_some executed.before bidBefore] at above
  have priced := limit_price form
  rw [← priced, bids_within_total executed book] at more
  have left : 0 < (execution.order.fill lots).remaining := by
    rw [fill_remaining]
    omega
  obtain ⟨offer, made⟩ := resting_exists form left (fill_remaining_le execution.order lots)
    (volume lua 0 (execution.order.fill lots).completed)
  have rests := resting_made made
  have offerPrice := limit_price rests.form
  have whole := effect_complete executed completes
  have offerThere : next execution.order.orderId = some offer := by
    rw [whole, complete_new executed.queue executed.fresh.order, if_pos rfl, made]
  have notQueued : (bidId, bid) ∉ lots := by
    intro member
    have inReach := ((executed.queue.mem bidId bid).mp member).2.2.2
    rw [book, reach_price bidSide] at inReach
    omega
  have bidThere : next bidId = some bid :=
    effect_unqueued executed.queue executed.fresh.order executed.effect bidBefore notQueued
  have less := uncrossed bidId bid _ offer bidThere offerThere bidSide (rests.side.trans book)
    (bidAsset.trans rests.asset.symm)
  omega

theorem step_uncrossed_iff (executed : Executed lua execution table lots next) (completes : execution.completes)
    (uncrossed : Uncrossed execution.before) :
    Uncrossed execution.after ↔ RestsClear execution.before execution.order := by
  rw [uncrossed_table executed.after]
  refine ⟨?_, ?_⟩
  · exact step_clear_of_uncrossed executed completes
  · exact step_uncrossed_of_clear executed completes ((uncrossed_table executed.before).mp uncrossed)

/-- The book is uncrossed after every execution of a run exactly when no limit offer
came to rest below a bid it was not matched with. -/
theorem uncrossed_throughout_iff (lua : Lua) (history : List Execution) (store : Store) (run : Run lua history store)
    (complete : Complete history) :
    (∀ execution ∈ history, Uncrossed execution.after) ↔
      ∀ execution ∈ history, RestsClear execution.before execution.order := by
  have whole := trace_invariant (fun history store => Complete history →
    ((∀ execution ∈ history, Uncrossed execution.after) ↔
      ∀ execution ∈ history, RestsClear execution.before execution.order) ∧
    ((∀ execution ∈ history, Uncrossed execution.after) → Uncrossed store)) ?_ ?_ run
  · exact (whole complete).1
  · intro _
    exact ⟨by simp, fun _ => uncrossed_empty⟩
  · intro history store execution after earlier ih step complete
    obtain ⟨completeBefore, completes⟩ := complete_append.mp complete
    obtain ⟨same, last⟩ := ih completeBefore
    obtain ⟨table, rep, sound⟩ := run_represents earlier
    obtain ⟨lots, next, executed, rfl⟩ := step_executed rep sound step
    have before : execution.before = store := by rw [step.2.1]; rfl
    have split : ∀ P : Execution → Prop, (∀ event ∈ history ++ [execution], P event) ↔
        (∀ event ∈ history, P event) ∧ P execution := by
      intro P
      simp [or_imp, forall_and]
    rw [split, split]
    refine ⟨?_, fun all => all.2⟩
    refine ⟨?_, ?_⟩
    · rintro ⟨uncrossed, now⟩
      have start : Uncrossed execution.before := before ▸ last uncrossed
      exact ⟨same.mp uncrossed, (step_uncrossed_iff executed completes start).mp now⟩
    · rintro ⟨clear, now⟩
      have uncrossed := same.mpr clear
      have start : Uncrossed execution.before := before ▸ last uncrossed
      exact ⟨uncrossed, (step_uncrossed_iff executed completes start).mpr now⟩

def crossingOrders : List Submission :=
  [⟨⟨1⟩, 1, .bids, ⟨10, .limit 10⟩, ⟨11⟩⟩, ⟨⟨2⟩, 1, .offers, ⟨4, .limit 5⟩, ⟨12⟩⟩]

def crossingHistory : List Execution := executions (.exactIntegers 7999) emptyKeys crossingOrders

theorem crossing_history_run : Run (.exactIntegers 7999) crossingHistory (storeAfter (.exactIntegers 7999) emptyKeys
    crossingOrders) := executions_run _ crossingOrders (by decide)

theorem crossing_history_complete : Complete crossingHistory := complete_of_outcomes (by decide)

theorem uncrossed_throughout_iff_crossing :
    (∀ execution ∈ crossingHistory, Uncrossed execution.after) ↔
      ∀ execution ∈ crossingHistory, RestsClear execution.before execution.order :=
  uncrossed_throughout_iff (.exactIntegers 7999) crossingHistory _ crossing_history_run crossing_history_complete

theorem book_becomes_crossed : ¬ ∀ (lua : Lua) (history : List Execution) (store : Store), Run lua history store →
    Complete history → ∀ execution ∈ history, Uncrossed execution.after := by
  intro claimed
  have last : executionOf (.exactIntegers 7999) ⟨⟨2⟩, 1, .offers, ⟨4, .limit 5⟩, ⟨12⟩⟩
      (storeAfter (.exactIntegers 7999) emptyKeys (crossingOrders.take 1)) ∈ crossingHistory := by
    simp [crossingHistory, executions, crossingOrders, storeAfter]
  have uncrossed := claimed _ crossingHistory _ crossing_history_run crossing_history_complete _ last
  have less := uncrossed 1 ⟨11⟩ (by decide) ⟨12⟩ (by decide)
  revert less
  decide

end MktSim
