import MktSim.Api.ScriptRefines

set_option autoImplicit false

namespace MktSim

open Redis SortedSets Greedy

def storedNumber (store : Store) (orderId : Uuid) (field : Field) : Option Int :=
  (hashAt store (.id orderId)).bind fun fields => tonumber (fields field)

def restingSize (store : Store) (orderId : Uuid) : Nat := ((storedNumber store orderId .size).getD 0).toNat

def restingPrice (store : Store) (orderId : Uuid) : Int := (storedNumber store orderId .price).getD 0

def bookOrders (store : Store) (assetId : Int32) (side : Book) : List Uuid :=
  (zsetAt store (.book assetId side)).entries.map Prod.snd

variable {store : Store} {table : Table}

theorem stored_number_none (rep : Represents store table) {orderId : Uuid} (absent : table orderId = none)
    (field : Field) : storedNumber store orderId field = none := by
  rw [storedNumber, rep.hashes, absent]
  rfl

theorem stored_number_some (rep : Represents store table) {orderId : Uuid} {order : Resting}
    (present : table orderId = some order) (field : Field) :
    storedNumber store orderId field = tonumber (order.hash field) := by
  rw [storedNumber, represents_hash rep present]
  rfl

theorem resting_size_none (rep : Represents store table) {orderId : Uuid} (absent : table orderId = none) :
    restingSize store orderId = 0 := by
  rw [restingSize, stored_number_none rep absent]
  rfl

theorem resting_size_some (rep : Represents store table) {orderId : Uuid} {order : Resting}
    (present : table orderId = some order) : restingSize store orderId = order.size := by
  rw [restingSize, stored_number_some rep present]
  rfl

theorem resting_price_some (rep : Represents store table) {orderId : Uuid} {order : Resting}
    (present : table orderId = some order) : restingPrice store orderId = order.price.toInt := by
  rw [restingPrice, stored_number_some rep present]
  rfl

theorem mem_book_orders (rep : Represents store table) {assetId : Int32} {side : Book} {orderId : Uuid} :
    orderId ∈ bookOrders store assetId side ↔
      ∃ order, table orderId = some order ∧ order.assetId = assetId ∧ order.side = side := by
  refine ⟨?_, ?_⟩
  · intro member
    obtain ⟨entry, inBook, rfl⟩ := List.mem_map.mp member
    obtain ⟨order, present, asset, whichSide, _⟩ := (rep.books assetId side entry).mp inBook
    exact ⟨order, present, asset, whichSide⟩
  · rintro ⟨order, present, asset, whichSide⟩
    exact List.mem_map.mpr ⟨(order.score, orderId),
      (rep.books assetId side _).mpr ⟨order, present, asset, whichSide, rfl⟩, rfl⟩

theorem represents_book (rep : Represents store table) (assetId : Int32) (side : Book) :
    ∃ all, Queue table assetId side (fun _ => true) all ∧ bookOrders store assetId side = all.map Prod.fst := by
  obtain ⟨all, queue, range⟩ := represents_queue rep assetId side .negInf .posInf
  have whole : (zsetAt store (.book assetId side)).rangeByScore .negInf .posInf =
      (zsetAt store (.book assetId side)).entries := List.filter_eq_self.mpr fun entry _ => rfl
  refine ⟨all, ⟨fun orderId order => ?_, queue.ordered⟩, ?_⟩
  · rw [queue.mem]
    simp [inRange, Bound.le]
  · rw [bookOrders, ← whole, range, List.map_map]
    rfl

theorem queue_filter {assetId : Int32} {side : Book} {within : Int → Bool} {all lots : List Lot}
    (whole : Queue table assetId side (fun _ => true) all) (queue : Queue table assetId side within lots) :
    lots = all.filter fun lot => within lot.2.score := by
  apply queue_unique queue
  refine ⟨fun orderId order => ?_, whole.ordered.filter _⟩
  rw [List.mem_filter, whole.mem]
  tauto

theorem selected_size {assetId : Int32} {side : Book} {within : Int → Bool}
    {lots : List Lot} (rep : Represents store table) (queue : Queue table assetId side within lots)
    (selected : Uuid → Bool) (same : ∀ orderId order, table orderId = some order → order.side = side →
      selected orderId = within order.score) :
    (((bookOrders store assetId side).filter selected).map (restingSize store)).sum = total lotSize lots := by
  obtain ⟨all, whole, orders⟩ := represents_book rep assetId side
  have kept : ∀ lot ∈ all, (selected ∘ Prod.fst) lot = within lot.2.score := by
    intro lot member
    obtain ⟨there, _, whichSide, _⟩ := (whole.mem lot.1 lot.2).mp member
    exact same lot.1 lot.2 there whichSide
  rw [orders, List.filter_map, List.filter_congr kept, ← queue_filter whole queue, List.map_map, total]
  congr 1
  apply List.map_congr_left
  intro lot member
  exact resting_size_some rep (queue_present queue member)

@[simp] theorem reach_bids (price score : Int) : reach .bids price score = true ↔ score ≤ price :=
  in_range_below price score

@[simp] theorem reach_offers (price score : Int) : reach .offers price score = true ↔ -price ≤ score :=
  in_range_above (-price) score

-- The orders in reach of a price are, on both sides, those priced at it or below.
theorem reach_price {book : Book} {resting : Resting} (side : resting.side = book.opposite) (price : Int) :
    reach book price resting.score = true ↔ resting.price.toInt ≤ price := by
  rw [Resting.score, side]
  cases book with
  | bids =>
      rw [reach_bids]
      rfl
  | offers =>
      rw [reach_offers]
      simp only [Book.opposite, sideScore, Int.neg_le_neg_iff]

end MktSim
