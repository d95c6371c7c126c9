import MktSim.Api.Completion

set_option autoImplicit false

namespace MktSim

open Redis SortedSets Greedy Runs

def pricedBefore (store : Store) (a b : Uuid) : Prop :=
  restingPrice store a < restingPrice store b ∨ restingPrice store a = restingPrice store b ∧ a ≤ b

instance (store : Store) : DecidableRel (pricedBefore store) := fun _ _ => inferInstanceAs (Decidable (_ ∨ _))

def offersWithin (store : Store) (assetId : Int32) (limit : Int) : List Uuid :=
  ((bookOrders store assetId .offers).filter fun offer => restingPrice store offer ≤ limit).insertionSort
    (pricedBefore store)

def referenceFills (store : Store) (bid : Submission) (price : Int32) : List (Uuid × Nat) :=
  walk (restingSize store) bid.size (offersWithin store bid.assetId price.toInt)

def referenceRemaining (store : Store) (bid : Submission) (price : Int32) : Nat :=
  bid.size - ((referenceFills store bid price).map Prod.snd).sum

def filledWhole (store : Store) (fill : Uuid × Nat) : Bool := fill.2 = restingSize store fill.1

def referenceCompleted (store : Store) (bid : Submission) (price : Int32) : List (Uuid × Hash Field Uuid) :=
  ((referenceFills store bid price).filter (filledWhole store)).map fun fill =>
    (fill.1, (hashAt store (.id fill.1)).getD fun _ => none)

def removeFrom (key : Key) (orderId : Uuid) (store : Store) : Store :=
  writeSet store key ((zsetAt store key).remove [orderId])

def addTo (key : Key) (score : Int) (orderId : Uuid) (store : Store) : Store :=
  writeSet store key ((zsetAt store key).add score orderId)

def removeOffer (assetId : Int32) (offer : Uuid) (store : Store) : Store :=
  match (hashAt store (.id offer)).bind fun fields => fields .accountId with
  | none => store
  | some owner => del [.id offer] (removeFrom (.book assetId .offers) offer (removeFrom (.name owner) offer store))

def reduceOffer (offer : Uuid) (filled : Nat) (store : Store) : Store :=
  match hashAt store (.id offer) with
  | none => store
  | some fields => writeHash store (.id offer)
      (Function.update fields .size (some (.int (restingSize store offer - filled : Int))))

def settle (assetId : Int32) (store : Store) (fill : Uuid × Nat) : Store :=
  if filledWhole store fill then removeOffer assetId fill.1 store else reduceOffer fill.1 fill.2 store

def bidHash (bid : Submission) (price : Int32) (remaining : Nat) (dollarVolumeFilled : Int) : Hash Field Uuid
  | .accountId => some (.raw bid.accountId)
  | .assetId => some (.int bid.assetId.toInt)
  | .price => some (.int price.toInt)
  | .size => some (.int remaining)
  | .originalSize => some (.int bid.size)
  | .dollarVolumeFilled => some (.int dollarVolumeFilled)

def restBid (bid : Submission) (price : Int32) (remaining : Nat) (dollarVolumeFilled : Int) (store : Store) : Store :=
  addTo (.id bid.accountId) 0 bid.orderId
    (writeHash (addTo (.book bid.assetId .bids) (-price.toInt) bid.orderId store) (.id bid.orderId)
      (bidHash bid price remaining dollarVolumeFilled))

-- The store a price-time matcher leaves. What it would put into the new bid's
-- dollar_volume_filled is left open.
def referenceStore (store : Store) (bid : Submission) (price : Int32) (dollarVolumeFilled : Int) : Store :=
  let matched := (referenceFills store bid price).foldl (settle bid.assetId) store
  if 0 < referenceRemaining store bid price then
    restBid bid price (referenceRemaining store bid price) dollarVolumeFilled matched
  else matched

def MatchesReference (lua : Lua) (bid : Submission) (price : Int32) (store : Store) : Prop :=
  ∃ reply dollarVolumeFilled,
    execute lua bid store = (.ok reply, referenceStore store bid price dollarVolumeFilled) ∧
    reply.sharesFilled = bid.size - referenceRemaining store bid price ∧
    reply.completedOrders = referenceCompleted store bid price

section Settle

variable {store : Store} {table : Table} (rep : Represents store table) {offer : Uuid} {order : Resting}
  (present : table offer = some order)

include rep present

theorem settle_whole (side : order.side = .offers) :
    Represents (settle order.assetId store (offer, order.size)) (Function.update table offer none) := by
  have whole : filledWhole store (offer, order.size) = true := by
    simp [filledWhole, resting_size_some rep present]
  have owner : (hashAt store (.id offer)).bind (fun fields => fields .accountId) = some (.raw order.accountId) := by
    rw [represents_hash rep present]
    rfl
  have unlisted := represents_unlist rep present
  have dropped : ∀ orderId ∈ [offer], ∃ held, Function.update table offer (some order.unlist) orderId = some held ∧
      held.assetId = order.assetId ∧ held.side = .offers ∧ held.listed = false := by
    intro orderId member
    rw [List.mem_singleton.mp member]
    exact ⟨order.unlist, by simp, rfl, side, rfl⟩
  have removed := represents_remove unlisted dropped
  have gone : Table.remove (Function.update table offer (some order.unlist)) [offer] =
      Function.update table offer none := by
    funext query
    by_cases same : query = offer
    · subst query
      simp [Table.remove]
    · simp [Table.remove, same]
  rw [gone] at removed
  rw [settle, if_pos whole, removeOffer, owner]
  exact removed

theorem settle_part {filled : Nat} (less : filled < order.size) :
    Represents (settle order.assetId store (offer, filled)) (table.take (some ((offer, order), filled))) := by
  have size := resting_size_some rep present
  have partly : ¬ filledWhole store (offer, filled) = true := by
    simp only [filledWhole, size, decide_eq_true_eq]
    omega
  rw [settle, if_neg partly, reduceOffer, represents_hash rep present]
  simp only [size]
  exact represents_take rep present less

end Settle

theorem settle_all {assetId : Int32} (lots : List Lot) (distinct : (lots.map Prod.fst).Nodup) :
    ∀ {store : Store} {table : Table}, Represents store table →
      (∀ lot ∈ lots, table lot.1 = some lot.2 ∧ lot.2.assetId = assetId ∧ lot.2.side = .offers) →
      Represents ((lots.map fun lot => (lot.1, lotSize lot)).foldl (settle assetId) store)
        (table.remove (lots.map Prod.fst)) := by
  induction lots with
  | nil =>
      intro store table rep _
      simpa using rep
  | cons lot rest ih =>
      intro store table rep present
      rw [List.map_cons] at distinct
      obtain ⟨fresh, distinctRest⟩ := List.nodup_cons.mp distinct
      obtain ⟨there, asset, side⟩ := present lot (by simp)
      have first := settle_whole rep there side
      rw [asset] at first
      have others : ∀ other ∈ rest, Function.update table lot.1 none other.1 = some other.2 ∧
          other.2.assetId = assetId ∧ other.2.side = .offers := by
        intro other member
        have away : other.1 ≠ lot.1 := by
          intro same
          apply fresh
          rw [← same]
          exact List.mem_map_of_mem member
        rw [Function.update_of_ne away]
        exact present other (by simp [member])
      have later := ih distinctRest first others
      have both : Table.remove (Function.update table lot.1 none) (rest.map Prod.fst) =
          table.remove ((lot :: rest).map Prod.fst) := by
        funext query
        by_cases same : query = lot.1
        · simp [Table.remove, same]
        · by_cases removed : query ∈ rest.map Prod.fst
          · rw [Table.remove, Table.remove, List.map_cons, if_pos removed, if_pos (List.mem_cons_of_mem _ removed)]
          · rw [Table.remove, Table.remove, List.map_cons, if_neg removed, if_neg (by simpa [same] using removed),
              Function.update_of_ne same]
      rw [both] at later
      exact later

theorem take_remove {table : Table} {reduced : Option (Lot × Nat)} {orderIds : List Uuid}
    (apart : ∀ lot quantity, reduced = some (lot, quantity) → lot.1 ∉ orderIds) :
    (table.remove orderIds).take reduced = (table.take reduced).remove orderIds := by
  cases reduced with
  | none => rfl
  | some part =>
      obtain ⟨⟨maker, order⟩, quantity⟩ := part
      have outside := apart _ quantity rfl
      funext query
      by_cases same : query = maker
      · subst query
        simp [Table.take, Table.remove, outside]
      · simp [Table.take, Table.remove, same]

section Reference

variable {lua : Lua} {execution : Execution} {table next : Table} {lots : List Lot}
  (executed : Executed lua execution table lots next) (bid : execution.order.book = .bids) {price : Int32}
  (form : execution.order.form.orderType = .limit price)

include executed bid form

theorem offers_within_lots :
    offersWithin execution.before execution.order.assetId price.toInt = lots.map Prod.fst := by
  have selected := selected_lots executed
  rw [selectedOrders, bid, limit_price form] at selected
  have ordered : (lots.map Prod.fst).Pairwise (pricedBefore execution.before) := by
    rw [List.pairwise_map]
    apply List.Pairwise.imp_of_mem _ executed.queue.ordered
    intro a b inA inB earlier
    have sides := ((executed.queue.mem a.1 a.2).mp inA).2.2.1
    have sideB := ((executed.queue.mem b.1 b.2).mp inB).2.2.1
    rw [bid] at sides sideB
    rw [pricedBefore, lot_price executed inA, lot_price executed inB]
    rw [before_iff, lotEntry, lotEntry, Resting.score, Resting.score, sides, sideB] at earlier
    cases earlier with
    | inl less => exact .inl less
    | inr level => exact .inr ⟨level.1, le_of_lt level.2⟩
  rw [offersWithin]
  change List.insertionSort _ ((bookOrders execution.before execution.order.assetId Book.bids.opposite).filter _) = _
  rw [selected]
  exact ordered.insertionSort_eq

theorem reference_fills_lots : referenceFills execution.before execution.order price =
    (execution.order.fill lots).completed.map (fun lot => (lot.1, lotSize lot)) ++
      (((execution.order.fill lots).reduced.filter fun part => 0 < part.2).map fun part => (part.1.1, part.2)).toList := by
  have sized : ∀ lot ∈ lots, restingSize execution.before lot.1 = lotSize lot := fun lot queued => lot_size executed queued
  have positive : ∀ offer ∈ lots.map Prod.fst, 0 < restingSize execution.before offer := by
    intro offer member
    obtain ⟨lot, queued, rfl⟩ := List.mem_map.mp member
    rw [sized lot queued]
    exact lot.2.open_
  have whole : ((execution.order.fill lots).completed.map Prod.fst).map (fun offer =>
      (offer, restingSize execution.before offer)) =
      (execution.order.fill lots).completed.map fun lot => (lot.1, lotSize lot) := by
    rw [List.map_map]
    apply List.map_congr_left
    intro lot done
    exact congrArg (Prod.mk lot.1) (sized lot (completed_subset done))
  rw [referenceFills, offers_within_lots executed bid form, walk_fill execution.order.size positive,
    fill_map Prod.fst execution.order.size lots sized]
  simp only
  rw [← Submission.fill, whole]
  congr 1
  cases (execution.order.fill lots).reduced with
  | none => rfl
  | some part =>
      by_cases some_ : 0 < part.2
      · simp [Option.filter, some_, Prod.map]
      · simp [Option.filter, some_]

theorem reference_remaining_fill :
    referenceRemaining execution.before execution.order price = (execution.order.fill lots).remaining := by
  have sum := fill_sum lotSize execution.order.size lots
  have whole : (((execution.order.fill lots).completed.map fun lot => (lot.1, lotSize lot)).map Prod.snd).sum =
      total lotSize (execution.order.fill lots).completed := by
    rw [List.map_map, total]
    rfl
  have part : ((((execution.order.fill lots).reduced.filter fun part => 0 < part.2).map
      fun part => (part.1.1, part.2)).toList.map Prod.snd).sum =
      ((execution.order.fill lots).reduced.map Prod.snd).getD 0 := by
    cases (execution.order.fill lots).reduced with
    | none => rfl
    | some part =>
        by_cases some_ : 0 < part.2
        · simp [Option.filter, some_]
        · simp [Option.filter, Nat.eq_zero_of_not_pos some_]
  rw [referenceRemaining, reference_fills_lots executed bid form, List.map_append, List.sum_append, whole, part]
  rw [Submission.fill]
  omega

theorem reference_completed_orders :
    referenceCompleted execution.before execution.order price = completedOrders (execution.order.fill lots) := by
  have kept : ((execution.order.fill lots).completed.map fun lot => (lot.1, lotSize lot)).filter
      (filledWhole execution.before) = (execution.order.fill lots).completed.map fun lot => (lot.1, lotSize lot) := by
    rw [List.filter_eq_self]
    intro fill member
    obtain ⟨lot, done, rfl⟩ := List.mem_map.mp member
    exact decide_eq_true (lot_size executed (completed_subset done)).symm
  have dropped : (((execution.order.fill lots).reduced.filter fun part => 0 < part.2).map
      fun part => (part.1.1, part.2)).toList.filter (filledWhole execution.before) = [] := by
    rw [List.filter_eq_nil_iff]
    intro fill member
    obtain ⟨part, inFilter, rfl⟩ := Option.map_eq_some_iff.mp (Option.mem_toList.mp member)
    obtain ⟨partly, _⟩ := Option.filter_eq_some_iff.mp inFilter
    obtain ⟨queued, less⟩ := reduced_mem partly
    have size := lot_size executed queued
    simp only [filledWhole, size, decide_eq_true_eq]
    exact Nat.ne_of_lt less
  rw [referenceCompleted, reference_fills_lots executed bid form, List.filter_append, kept, dropped, List.append_nil,
    List.map_map, completedOrders]
  apply List.map_congr_left
  intro lot done
  have there := queue_present executed.queue (completed_subset done)
  simp only [Function.comp_apply, represents_hash executed.before there, Option.getD_some]

theorem reference_settles :
    Represents ((referenceFills execution.before execution.order price).foldl (settle execution.order.assetId)
        execution.before)
      ((table.take (execution.order.fill lots).reduced).remove
        ((execution.order.fill lots).completed.map Prod.fst)) := by
  have offers : ∀ lot ∈ lots, table lot.1 = some lot.2 ∧ lot.2.assetId = execution.order.assetId ∧
      lot.2.side = .offers := by
    intro lot queued
    obtain ⟨there, asset, side, _⟩ := (executed.queue.mem lot.1 lot.2).mp queued
    rw [bid] at side
    exact ⟨there, asset, side⟩
  have completed := settle_all (execution.order.fill lots).completed (fill_ids_nodup executed.queue) executed.before
    fun lot done => offers lot (completed_subset done)
  have apart : ∀ lot quantity, (execution.order.fill lots).reduced = some (lot, quantity) →
      lot.1 ∉ (execution.order.fill lots).completed.map Prod.fst := by
    intro lot quantity partly member
    obtain ⟨done, inDone, same⟩ := List.mem_map.mp member
    exact fill_reduced_apart executed.queue partly inDone same.symm
  rw [reference_fills_lots executed bid form, List.foldl_append, ← take_remove apart]
  cases partly : (execution.order.fill lots).reduced with
  | none => exact completed
  | some part =>
      obtain ⟨⟨offer, held⟩, quantity⟩ := part
      obtain ⟨queued, less⟩ := reduced_mem partly
      obtain ⟨there, asset, _⟩ := offers _ queued
      have left : table.remove ((execution.order.fill lots).completed.map Prod.fst) offer = some held :=
        remove_some.mpr ⟨apart _ quantity partly, there⟩
      by_cases some_ : 0 < quantity
      · have reduced := settle_part completed left less
        rw [asset] at reduced
        simpa [Option.filter, some_] using reduced
      · have same : (table.remove ((execution.order.fill lots).completed.map Prod.fst)).take
            (some ((offer, held), quantity)) = table.remove ((execution.order.fill lots).completed.map Prod.fst) := by
          rw [Nat.eq_zero_of_not_pos some_, Table.take, reduce_zero, ← left, Function.update_eq_self]
        rw [same]
        simpa [Option.filter, some_] using completed

theorem reference_represents (dollars : Int) :
    Represents (referenceStore execution.before execution.order price dollars)
      (Function.update ((table.take (execution.order.fill lots).reduced).remove
          ((execution.order.fill lots).completed.map Prod.fst)) execution.order.orderId
        (execution.order.resting (execution.order.fill lots).remaining dollars)) := by
  have matched := reference_settles executed bid form
  have fresh : FreshKeys ((table.take (execution.order.fill lots).reduced).remove
      ((execution.order.fill lots).completed.map Prod.fst)) execution.order.accountId execution.order.orderId := by
    apply fresh_mono executed.fresh
    intro other held found
    exact take_account (fill_reduced_present executed.queue execution.order) (remove_some.mp found).2
  have remaining := reference_remaining_fill executed bid form
  by_cases left : 0 < (execution.order.fill lots).remaining
  · obtain ⟨resting, made⟩ := resting_exists form left (fill_remaining_le execution.order lots) dollars
    obtain ⟨account, asset, side, limit, sized, original, filled, listed⟩ := resting_made made
    have priced : resting.price = price := by
      rw [form] at limit
      exact (OrderType.limit.inj limit).symm
    have hash : bidHash execution.order price (execution.order.fill lots).remaining dollars = resting.hash := by
      funext field
      cases field <;> simp [bidHash, Resting.hash, account, asset, priced, sized, original, filled]
    have inserted := represents_insert matched (account ▸ fresh) listed
    rw [referenceStore, remaining, if_pos left, made, restBid, hash]
    simpa [addTo, account, asset, side, bid, Resting.score, sideScore, priced] using inserted
  · have none : execution.order.resting (execution.order.fill lots).remaining dollars = none := by
      simp [Submission.resting, form, left]
    rw [referenceStore, remaining, if_neg left, none, ← fresh.order, Function.update_eq_self]
    exact matched

end Reference

theorem matches_completes {lua : Lua} {bid : Submission} {price : Int32} {store : Store}
    (matched : MatchesReference lua bid price store) : (executionOf lua bid store).completes := by
  obtain ⟨reply, dollars, done, _⟩ := matched
  exact ⟨reply, congrArg Prod.fst done⟩

/-- The script leaves the reference matcher's store, whatever is resting, as long as it
uses up no more offers than it can unpack. Otherwise it raises. -/
theorem limit_bid_refines_iff (lua : Lua) (history : List Execution) (store : Store) (run : Run lua history store)
    (bid : Submission) (price : Int32) (fresh : FreshIn history bid) (book : bid.book = .bids)
    (form : bid.form.orderType = .limit price) :
    MatchesReference lua bid price store ↔ UnpacksAll lua store bid := by
  obtain ⟨table, lots, next, executed⟩ := next_executed run fresh
  have completes := completes_iff executed
  constructor
  · exact fun matched => completes.mp (matches_completes matched)
  · intro unpacks
    obtain ⟨reply, ok⟩ := completes.mpr unpacks
    have left := executed.after
    rw [effect_complete executed ⟨reply, ok⟩] at left
    have same := represents_unique left (reference_represents executed book form (volume lua 0 (bid.fill lots).completed))
    have whole := effect_reply executed ok
    have remaining := reference_remaining_fill executed book form
    have gone := reference_completed_orders executed book form
    refine ⟨reply, volume lua 0 (bid.fill lots).completed, Prod.ext ok same, ?_, ?_⟩
    · rw [whole, ← remaining]
      rfl
    · rw [whole, ← gone]
      rfl

def askLadder : List Submission :=
  [⟨⟨1⟩, 1, .offers, ⟨10, .limit 4⟩, ⟨11⟩⟩, ⟨⟨1⟩, 1, .offers, ⟨5, .limit 3⟩, ⟨12⟩⟩, ⟨⟨2⟩, 1, .offers, ⟨4, .limit 6⟩, ⟨13⟩⟩]

def ladderBid : Submission := ⟨⟨2⟩, 1, .bids, ⟨12, .limit 5⟩, ⟨14⟩⟩

theorem limit_bid_refines_iff_ladder : MatchesReference (.exactIntegers 7999) ladderBid 5
    (storeAfter (.exactIntegers 7999) emptyKeys askLadder) := by
  refine (limit_bid_refines_iff (.exactIntegers 7999) _ _ (executions_run _ askLadder (by decide)) ladderBid 5
    (by decide) rfl rfl).mpr ?_
  intro used first _
  exact first.length_le.trans (by decide)

-- A bid for all of 8000 offers raises in unpack when every account's set has lost its offers.
theorem sweeping_bid_raises : ¬ ∀ (lua : Lua) (history : List Execution) (store : Store), Run lua history store →
    Complete history → ∀ (bid : Submission) (price : Int32), FreshIn history bid → bid.book = .bids →
      bid.form.orderType = .limit price → MatchesReference lua bid price store := by
  intro claimed
  obtain ⟨history, store, run, complete, fresh, beyond⟩ := beyond_unpack_limit (.exactIntegers 7999) (by decide)
  have matched := claimed (.exactIntegers 7999) history store run complete (sweepingBid 8000) 1 fresh rfl rfl
  obtain ⟨table, lots, next, executed⟩ := next_executed run fresh
  exact beyond ((completes_iff executed).mp (matches_completes matched))

end MktSim
