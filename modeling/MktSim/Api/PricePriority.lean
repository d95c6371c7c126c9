import MktSim.Api.Completion

set_option autoImplicit false

namespace MktSim

open Redis SortedSets Greedy Runs

-- Prices of the opposite book as the taker sees them.
def NoWorse (book : Book) (limit price : Int) : Prop :=
  match book with
  | .bids => price ≤ limit
  | .offers => limit ≤ price

def Better (book : Book) (price other : Int) : Prop :=
  match book with
  | .bids => price < other
  | .offers => other < price

structure PriceProtected (execution : Execution) (limit : Int) : Prop where
  within : ∀ orderId, 0 < traded execution orderId →
    NoWorse execution.order.book limit (restingPrice execution.before orderId)
  best : ∀ orderId, 0 < traded execution orderId →
    ∀ other ∈ bookOrders execution.before execution.order.assetId execution.order.book.opposite,
      Better execution.order.book (restingPrice execution.before other) (restingPrice execution.before orderId) →
        restingSize execution.after other = 0

def bidsAt (store : Store) (assetId : Int32) (price : Int) : Nat :=
  (((bookOrders store assetId .bids).filter fun bid => restingPrice store bid = price).map (restingSize store)).sum

-- An offer is selected the bids at its limit and below, the highest first. That is what
-- it should trade with when it trades nothing, or when no bid is above the limit and
-- those at the limit are enough for it or all there are.
def SelectsBest (store : Store) (order : Submission) (limit : Int) : Prop :=
  order.book = .offers →
    order.size = 0 ∨
    (∀ bid ∈ bookOrders store order.assetId .bids, limit < restingPrice store bid) ∨
    (∀ bid ∈ bookOrders store order.assetId .bids, restingPrice store bid ≤ limit) ∧
      (order.size ≤ bidsAt store order.assetId limit ∨
        ∀ bid ∈ bookOrders store order.assetId .bids, restingPrice store bid = limit)

def EndsInside (store : Store) (order : Submission) (maker : Uuid) : Prop :=
  ∃ ahead behind, selectedOrders store order = ahead ++ maker :: behind ∧
    (ahead.map (restingSize store)).sum < order.size ∧
      order.size < (ahead.map (restingSize store)).sum + restingSize store maker

-- A match that raises removes no order, so the one it ends inside may have none before it.
def EndsAtBest (store : Store) (order : Submission) (limit : Int) : Prop :=
  ∀ maker, EndsInside store order maker → NoWorse order.book limit (restingPrice store maker) ∧
    ∀ other ∈ bookOrders store order.assetId order.book.opposite,
      ¬ Better order.book (restingPrice store other) (restingPrice store maker)

theorem better_score {book : Book} {a b : Resting} (first : a.side = book.opposite) (second : b.side = book.opposite) :
    Better book a.price.toInt b.price.toInt ↔ a.score < b.score := by
  cases book with
  | bids =>
      rw [Resting.score, Resting.score, first, second]
      rfl
  | offers =>
      rw [Resting.score, Resting.score, first, second]
      simp only [Better, Book.opposite, sideScore]
      omega

variable {lua : Lua} {execution : Execution} {table next : Table} {lots : List Lot}
  (executed : Executed lua execution table lots next) (completes : execution.completes)

section Trades

include executed completes

theorem trade_taken {orderId : Uuid} (trade : 0 < traded execution orderId) :
    ∃ resting, (orderId, resting) ∈ lots ∧ 0 < execution.order.taken lots (orderId, resting) ∧
      restingPrice execution.before orderId = resting.price.toInt := by
  obtain ⟨resting, queued, price⟩ := trade_queued executed trade
  rw [traded_taken executed completes (queue_present executed.queue queued)] at trade
  exact ⟨resting, queued, trade, price⟩

theorem queued_trade {orderId : Uuid} {resting : Resting} (queued : (orderId, resting) ∈ lots)
    (touched : 0 < execution.order.taken lots (orderId, resting)) :
    0 < traded execution orderId ∧ restingPrice execution.before orderId = resting.price.toInt := by
  have there := queue_present executed.queue queued
  rw [traded_taken executed completes there]
  exact ⟨touched, resting_price_some executed.before there⟩

theorem traded_outside (selected : Lot → Bool) (short : total lotSize (lots.filter selected) < execution.order.size)
    (outside : ∃ lot ∈ lots, selected lot = false) :
    ∃ maker resting, (maker, resting) ∈ lots ∧ selected (maker, resting) = false ∧ 0 < traded execution maker ∧
      restingPrice execution.before maker = resting.price.toInt := by
  obtain ⟨⟨maker, resting⟩, queued, off, touched⟩ := touched_outside lotSize execution.order.size
    (queue_nodup executed.queue) selected (fun lot _ => lot.2.open_) short outside
  obtain ⟨trade, price⟩ := queued_trade executed completes queued touched
  exact ⟨maker, resting, queued, off, trade, price⟩

theorem some_traded (wanted : 0 < execution.order.size) (some_ : lots ≠ []) :
    ∃ maker resting, (maker, resting) ∈ lots ∧ 0 < traded execution maker ∧
      restingPrice execution.before maker = resting.price.toInt := by
  obtain ⟨lot, queued⟩ := List.exists_mem_of_ne_nil lots some_
  obtain ⟨maker, resting, makerQueued, _, trade, price⟩ :=
    traded_outside executed completes (fun _ => false) (by simpa using wanted) ⟨lot, queued, rfl⟩
  exact ⟨maker, resting, makerQueued, trade, price⟩

theorem better_gone {orderId : Uuid} (trade : 0 < traded execution orderId) {other : Uuid} {held : Resting}
    (queued : (other, held) ∈ lots)
    (better : Better execution.order.book held.price.toInt (restingPrice execution.before orderId)) :
    restingSize execution.after other = 0 := by
  obtain ⟨resting, inQueue, touched, price⟩ := trade_taken executed completes trade
  have side := ((executed.queue.mem orderId resting).mp inQueue).2.2.1
  obtain ⟨there, _, heldSide, _⟩ := (executed.queue.mem other held).mp queued
  rw [price, better_score heldSide side] at better
  rw [gone_completed executed completes there]
  by_contra left
  rcases touched_first executed.queue.ordered touched queued left with same | behind
  · obtain ⟨_, rfl⟩ := Prod.mk.inj same
    exact lt_irrefl _ better
  · rcases (before_iff _ _).mp behind with less | ⟨equal, _⟩
    · exact lt_asymm better less
    · exact absurd equal (ne_of_gt better)

theorem unqueued_left {orderId : Uuid} {resting : Resting} (there : table orderId = some resting)
    (outside : (orderId, resting) ∉ lots) : restingSize execution.after orderId ≠ 0 := by
  rw [Ne, gone_completed executed completes there]
  exact fun done => outside (completed_subset done)

end Trades

theorem protected_of_bids (executed : Executed lua execution table lots next) (completes : execution.completes)
    (book : execution.order.book = .bids) : PriceProtected execution execution.order.price where
  within orderId trade := by
    obtain ⟨resting, queued, _, price⟩ := trade_taken executed completes trade
    obtain ⟨_, _, side, inReach⟩ := (executed.queue.mem orderId resting).mp queued
    rw [price, book]
    exact (reach_price side _).mp inReach
  best orderId trade other inBook better := by
    obtain ⟨held, there, asset, heldSide⟩ := (mem_book_orders executed.before).mp inBook
    rw [resting_price_some executed.before there] at better
    refine better_gone executed completes trade ?_ better
    obtain ⟨resting, queued, _, price⟩ := trade_taken executed completes trade
    obtain ⟨_, _, side, inReach⟩ := (executed.queue.mem orderId resting).mp queued
    rw [price, better_score heldSide side] at better
    refine (executed.queue.mem other held).mpr ⟨there, asset, heldSide, ?_⟩
    rw [book, reach_bids] at inReach ⊢
    exact (le_of_lt better).trans inReach

theorem offer_selects (executed : Executed lua execution table lots next) (book : execution.order.book = .offers)
    {orderId : Uuid} {resting : Resting} :
    (orderId, resting) ∈ lots ↔ table orderId = some resting ∧ resting.assetId = execution.order.assetId ∧
      resting.side = .bids ∧ resting.price.toInt ≤ execution.order.price := by
  rw [executed.queue.mem, book]
  exact and_congr_right fun _ => and_congr_right fun _ => and_congr_right fun side => reach_price side _

def atPrice (price : Int) (lot : Lot) : Bool := lot.2.price.toInt = price

theorem bids_at_total (executed : Executed lua execution table lots next) (book : execution.order.book = .offers) :
    bidsAt execution.before execution.order.assetId execution.order.price =
      total lotSize (lots.filter (atPrice execution.order.price)) := by
  have queue : Queue table execution.order.assetId .bids (fun score => decide (score = -execution.order.price))
      (lots.filter (atPrice execution.order.price)) := by
    refine ⟨fun orderId order => ?_, executed.queue.ordered.filter _⟩
    simp only [List.mem_filter, offer_selects executed book, atPrice, decide_eq_true_eq]
    refine ⟨?_, ?_⟩
    · rintro ⟨⟨there, asset, side, _⟩, price⟩
      refine ⟨there, asset, side, ?_⟩
      rw [Resting.score, side]
      simp only [sideScore]
      omega
    · rintro ⟨there, asset, side, score⟩
      rw [Resting.score, side] at score
      simp only [sideScore] at score
      exact ⟨⟨there, asset, side, by omega⟩, by omega⟩
  apply selected_size executed.before queue
  intro orderId order there isBid
  rw [resting_price_some executed.before there, Resting.score, isBid, decide_eq_decide]
  simp only [sideScore]
  omega

theorem untraded_protected {price : Int} (still : ∀ orderId, ¬ 0 < traded execution orderId) :
    PriceProtected execution price :=
  ⟨fun orderId trade => absurd trade (still orderId), fun orderId trade => absurd trade (still orderId)⟩

theorem covered_within (executed : Executed lua execution table lots next) (completes : execution.completes)
    (book : execution.order.book = .offers)
    (covered : execution.order.size ≤ bidsAt execution.before execution.order.assetId execution.order.price)
    {orderId : Uuid} (trade : 0 < traded execution orderId) :
    execution.order.price ≤ restingPrice execution.before orderId := by
  by_contra worse
  obtain ⟨resting, queued, touched, price⟩ := trade_taken executed completes trade
  rw [not_le, price] at worse
  have off : atPrice execution.order.price (orderId, resting) = false := by
    simp only [atPrice, decide_eq_false_iff_not]
    omega
  have usedUp : ∀ lot ∈ lots, atPrice execution.order.price lot = true →
      lot ∈ (Greedy.fill lotSize execution.order.size lots).completed := by
    rintro ⟨other, held⟩ member at_
    have better : Better execution.order.book held.price.toInt (restingPrice execution.before orderId) := by
      rw [book, price]
      change resting.price.toInt < held.price.toInt
      simp only [atPrice, decide_eq_true_eq] at at_
      omega
    have gone := better_gone executed completes trade member better
    exact (gone_completed executed completes (queue_present executed.queue member)).mp gone
  have used := selected_room lotSize execution.order.size (queue_nodup executed.queue)
    (atPrice execution.order.price) usedUp queued off
  rw [bids_at_total executed book] at covered
  have touches : 0 < (Greedy.fill lotSize execution.order.size lots).taken lotSize (orderId, resting) := touched
  omega

theorem protected_of_selects (executed : Executed lua execution table lots next) (completes : execution.completes)
    (book : execution.order.book = .offers)
    (selects : SelectsBest execution.before execution.order execution.order.price) :
    PriceProtected execution execution.order.price := by
  rcases selects book with empty | noneWithin | ⟨noneAbove, enough⟩
  · apply untraded_protected
    intro orderId trade
    obtain ⟨resting, queued, touched, _⟩ := trade_taken executed completes trade
    have most : execution.order.taken lots (orderId, resting) ≤ execution.order.size :=
      taken_le_demand lotSize execution.order.size (queue_nodup executed.queue) queued
    omega
  · apply untraded_protected
    intro orderId trade
    obtain ⟨resting, queued, _, price⟩ := trade_taken executed completes trade
    obtain ⟨there, asset, side, low⟩ := (offer_selects executed book).mp queued
    have high := noneWithin orderId ((mem_book_orders executed.before).mpr ⟨resting, there, asset, side⟩)
    omega
  · refine ⟨?_, ?_⟩
    · intro orderId trade
      rw [book]
      change execution.order.price ≤ restingPrice execution.before orderId
      rcases enough with covered | allAt
      · exact covered_within executed completes book covered trade
      · obtain ⟨resting, queued, _, _⟩ := trade_taken executed completes trade
        obtain ⟨there, asset, side, _⟩ := (offer_selects executed book).mp queued
        exact le_of_eq (allAt orderId ((mem_book_orders executed.before).mpr ⟨resting, there, asset, side⟩)).symm
    · intro orderId trade other inBook better
      rw [book] at inBook
      obtain ⟨held, there, asset, side⟩ := (mem_book_orders executed.before).mp inBook
      have low := noneAbove other inBook
      rw [resting_price_some executed.before there] at low better
      exact better_gone executed completes trade ((offer_selects executed book).mpr ⟨there, asset, side, low⟩) better

section Protected

variable (executed : Executed lua execution table lots next) (completes : execution.completes)
  (book : execution.order.book = .offers)

include executed completes book

theorem none_above (best : ∀ orderId, 0 < traded execution orderId →
      ∀ other ∈ bookOrders execution.before execution.order.assetId execution.order.book.opposite,
        Better execution.order.book (restingPrice execution.before other) (restingPrice execution.before orderId) →
          restingSize execution.after other = 0)
    (wanted : 0 < execution.order.size) (some_ : lots ≠ []) :
    ∀ other ∈ bookOrders execution.before execution.order.assetId execution.order.book.opposite,
      restingPrice execution.before other ≤ execution.order.price := by
  intro other otherIn
  by_contra above
  obtain ⟨maker, resting, queued, trade, price⟩ := some_traded executed completes wanted some_
  have low := ((offer_selects executed book).mp queued).2.2.2
  obtain ⟨held, there, _, _⟩ := (mem_book_orders executed.before).mp otherIn
  rw [resting_price_some executed.before there] at above
  have outside : (other, held) ∉ lots := fun member => above ((offer_selects executed book).mp member).2.2.2
  refine unqueued_left executed completes there outside (best maker trade other otherIn ?_)
  rw [book, price, resting_price_some executed.before there]
  change resting.price.toInt < held.price.toInt
  omega

theorem enough_at_limit (guarded : PriceProtected execution execution.order.price)
    (noneAbove : ∀ other ∈ bookOrders execution.before execution.order.assetId .bids,
      restingPrice execution.before other ≤ execution.order.price) :
    execution.order.size ≤ bidsAt execution.before execution.order.assetId execution.order.price ∨
      ∀ bid ∈ bookOrders execution.before execution.order.assetId .bids,
        restingPrice execution.before bid = execution.order.price := by
  rw [bids_at_total executed book]
  by_contra neither
  push Not at neither
  obtain ⟨short, other, otherIn, different⟩ := neither
  obtain ⟨held, there, asset, side⟩ := (mem_book_orders executed.before).mp otherIn
  have low := noneAbove other otherIn
  rw [resting_price_some executed.before there] at different low
  have otherQueued := (offer_selects executed book).mpr ⟨there, asset, side, low⟩
  obtain ⟨below, belowHeld, queued, off, trade, price⟩ := traded_outside executed completes
    (atPrice execution.order.price) short ⟨(other, held), otherQueued, by simpa [atPrice] using different⟩
  have fair := guarded.within below trade
  rw [book, price] at fair
  have fairLow : execution.order.price ≤ belowHeld.price.toInt := fair
  have belowLow := ((offer_selects executed book).mp queued).2.2.2
  simp only [atPrice, decide_eq_false_iff_not] at off
  omega

end Protected

theorem selects_of_protected (executed : Executed lua execution table lots next) (completes : execution.completes)
    (guarded : PriceProtected execution execution.order.price) :
    SelectsBest execution.before execution.order execution.order.price := by
  intro book
  by_cases empty : execution.order.size = 0
  · exact .inl empty
  right
  by_cases noneWithin : ∀ bid ∈ bookOrders execution.before execution.order.assetId .bids,
      execution.order.price < restingPrice execution.before bid
  · exact .inl noneWithin
  right
  push Not at noneWithin
  obtain ⟨bid, inBook, low⟩ := noneWithin
  obtain ⟨held, there, asset, side⟩ := (mem_book_orders executed.before).mp inBook
  rw [resting_price_some executed.before there] at low
  have queued := (offer_selects executed book).mpr ⟨there, asset, side, low⟩
  have noneAbove := none_above executed completes book guarded.best (Nat.pos_of_ne_zero empty) (List.ne_nil_of_mem queued)
  rw [book] at noneAbove
  exact ⟨noneAbove, enough_at_limit executed completes book guarded noneAbove⟩

theorem ends_inside_iff (executed : Executed lua execution table lots next) {maker : Uuid} :
    EndsInside execution.before execution.order maker ↔ ∃ resting quantity,
      (execution.order.fill lots).reduced = some ((maker, resting), quantity) ∧ 0 < quantity := by
  simp only [Submission.fill, reduced_iff, EndsInside, selected_lots executed]
  constructor
  · rintro ⟨ahead, behind, split, more, less⟩
    obtain ⟨front, back, rfl, rfl, backs⟩ := List.map_eq_append_iff.mp split
    obtain ⟨⟨_, resting⟩, tail, rfl, rfl, rfl⟩ := List.map_eq_cons_iff.mp backs
    rw [lots_size executed front fun lot member => by simp [member]] at more less
    rw [@lot_size _ _ _ _ _ executed (_, resting) (by simp)] at less
    refine ⟨resting, execution.order.size - total lotSize front, front, tail, rfl, by omega, by omega, ?_⟩
    rw [lotSize]
    simp only at less ⊢
    omega
  · rintro ⟨resting, quantity, ahead, behind, rfl, sum, positive, less⟩
    refine ⟨ahead.map Prod.fst, behind.map Prod.fst, by simp, ?_, ?_⟩
    · rw [lots_size executed ahead fun lot member => by simp [member]]
      omega
    · rw [lots_size executed ahead fun lot member => by simp [member],
        @lot_size _ _ _ _ _ executed (maker, resting) (by simp)]
      rw [lotSize] at less
      omega

-- A match that raises trades with at most one order, and nothing better than it is removed.
theorem raised_protected_iff (executed : Executed lua execution table lots next) (raised : ¬ execution.completes)
    (price : Int) : PriceProtected execution price ↔ EndsAtBest execution.before execution.order price := by
  have inside : ∀ maker, 0 < traded execution maker ↔ EndsInside execution.before execution.order maker :=
    fun maker => (raised_traded executed raised).trans (ends_inside_iff executed).symm
  constructor
  · intro guarded maker ends
    have trade := (inside maker).mpr ends
    refine ⟨guarded.within maker trade, fun other inBook better => ?_⟩
    obtain ⟨held, there, _⟩ := (mem_book_orders executed.before).mp inBook
    exact raised_left executed raised there (guarded.best maker trade other inBook better)
  · intro ends
    refine ⟨fun maker trade => (ends maker ((inside maker).mp trade)).1, ?_⟩
    intro maker trade other inBook better
    exact absurd better ((ends maker ((inside maker).mp trade)).2 other inBook)

theorem completed_protected_iff (executed : Executed lua execution table lots next) (completes : execution.completes) :
    PriceProtected execution execution.order.price ↔
      SelectsBest execution.before execution.order execution.order.price := by
  constructor
  · exact selects_of_protected executed completes
  · intro selects
    cases book : execution.order.book with
    | bids => exact protected_of_bids executed completes book
    | offers => exact protected_of_selects executed completes book selects

/-- An incoming limit order is kept within its price and to the best of the other book exactly
when its match completes and selects the best, or raises and ends at the best. -/
theorem price_protected_iff (lua : Lua) (history : List Execution) (store : Store) (run : Run lua history store)
    (order : Submission) (fresh : FreshIn history order) (price : Int32) (form : order.form.orderType = .limit price) :
    PriceProtected (executionOf lua order store) price.toInt ↔
      (UnpacksAll lua store order → SelectsBest store order price.toInt) ∧
        (¬ UnpacksAll lua store order → EndsAtBest store order price.toInt) := by
  obtain ⟨table, lots, next, executed⟩ := next_executed run fresh
  have returns := completes_iff executed
  by_cases unpacks : UnpacksAll lua store order
  · simp only [unpacks, not_true, false_implies, and_true, true_implies]
    rw [← limit_price form]
    exact completed_protected_iff executed (returns.mpr unpacks)
  · simp only [unpacks, not_false_eq_true, false_implies, true_and, true_implies]
    exact raised_protected_iff executed (fun completes => unpacks (returns.mp completes)) price.toInt

-- A bid of 10 at price 3, then an offer of 4 at price 5, which is sold at 3.
def cheapBid : List Submission := [⟨⟨1⟩, 1, .bids, ⟨10, .limit 3⟩, ⟨11⟩⟩]

def undersoldOffer : Submission := ⟨⟨2⟩, 1, .offers, ⟨4, .limit 5⟩, ⟨12⟩⟩

def storeWithCheapBid : Store := storeAfter (.exactIntegers 7999) emptyKeys cheapBid

theorem cheap_bid_run : Run (.exactIntegers 7999) (executions (.exactIntegers 7999) emptyKeys cheapBid) storeWithCheapBid :=
  executions_run _ cheapBid (by decide)

theorem price_protected_iff_undersale :
    PriceProtected (executionOf (.exactIntegers 7999) undersoldOffer storeWithCheapBid) (5 : Int32).toInt ↔
      (UnpacksAll (.exactIntegers 7999) storeWithCheapBid undersoldOffer →
        SelectsBest storeWithCheapBid undersoldOffer (5 : Int32).toInt) ∧
      (¬ UnpacksAll (.exactIntegers 7999) storeWithCheapBid undersoldOffer →
        EndsAtBest storeWithCheapBid undersoldOffer (5 : Int32).toInt) :=
  price_protected_iff _ _ _ cheap_bid_run undersoldOffer (by decide) 5 rfl

theorem offer_undersold : ¬ ∀ (lua : Lua) (history : List Execution) (store : Store), Run lua history store →
    Complete history → ∀ order : Submission, FreshIn history order → ∀ price, order.form.orderType = .limit price →
      PriceProtected (executionOf lua order store) price.toInt := by
  intro claimed
  have guarded := claimed _ _ _ cheap_bid_run (complete_of_outcomes (by decide)) undersoldOffer (by decide) 5 rfl
  have fair := guarded.within ⟨11⟩ (by decide)
  change (5 : Int32).toInt ≤ restingPrice storeWithCheapBid ⟨11⟩ at fair
  revert fair
  decide

end MktSim
