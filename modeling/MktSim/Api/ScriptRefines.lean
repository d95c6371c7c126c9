import MktSim.Api.Represents

set_option autoImplicit false

namespace MktSim

open Redis SortedSets Greedy

variable {lua : Lua} {store : Store} {table : Table}

theorem size_fits (order : Resting) : fitsInt64 (order.size : Int) = true := by
  have positive := order.open_
  have within := order.within
  have bounded := order.bounded
  simp only [fitsInt64, Bool.and_eq_true, decide_eq_true_eq]
  omega

theorem reduced_size_fits (order : Resting) {quantity : Nat} (less : quantity < order.size) :
    fitsInt64 ((order.size : Int) + -(quantity : Int)) = true := by
  have within := order.within
  have bounded := order.bounded
  simp only [fitsInt64, Bool.and_eq_true, decide_eq_true_eq]
  omega

def reducedStore (store : Store) : Option (Lot × Nat) → Store
  | none => store
  | some ((orderId, order), quantity) => writeHash store (.id orderId)
      (Function.update order.hash .size (some (.int (order.size - quantity : Int))))

theorem match_candidate_reduces (rep : Represents store table) {orderId : Uuid} {order : Resting}
    (present : table orderId = some order) {size : Nat} (larger : size < order.size) (score : Int)
    (completed : List Uuid) (dollars : Int) :
    matchCandidate lua orderId score ⟨size, completed, dollars⟩ store =
      .ok ⟨0, completed, dollars⟩ (reducedStore store (some ((orderId, order), size))) := by
  have held := represents_hash rep present
  have larger' : (order.size : Int) > size := by exact_mod_cast larger
  unfold matchCandidate
  rw [bind_ok (query_ok (hget_of_hash .size held))]
  simp only [Resting.hash, tonumber, if_pos larger']
  rw [bind_ok (update_ok (hincrby_of_hash .size held rfl (size_fits order) (reduced_size_fits order larger)))]
  rfl

theorem match_candidate_completes (rep : Represents store table) {orderId : Uuid} {order : Resting}
    (present : table orderId = some order) {size : Nat} (enough : order.size ≤ size) (score : Int)
    (completed : List Uuid) (dollars : Int) :
    matchCandidate lua orderId score ⟨size, completed, dollars⟩ store =
      .ok ⟨(size - order.size : Nat), completed ++ [orderId],
        lua.number (dollars + lua.number (score * order.size))⟩ store := by
  have held := represents_hash rep present
  have enough' : ¬ (order.size : Int) > size := by push Not; exact_mod_cast enough
  have cast : ((size - order.size : Nat) : Int) = size - order.size := Int.ofNat_sub enough
  unfold matchCandidate
  rw [bind_ok (query_ok (hget_of_hash .size held))]
  simp only [Resting.hash, tonumber, if_neg enough', cast]
  rfl

-- The first loop takes the incoming size from the orders in reach, one after another.
theorem match_candidates_run (lua : Lua) (rep : Represents store table) (lots : List Lot)
    (present : ∀ lot ∈ lots, table lot.1 = some lot.2) (size : Nat) (completed : List Uuid) (dollars : Int) :
    matchCandidates lua (lots.map lotEntry) ⟨size, completed, dollars⟩ store =
      let outcome := Greedy.fill lotSize size lots
      .ok ⟨outcome.remaining, completed ++ outcome.completed.map Prod.fst, volume lua dollars outcome.completed⟩
        (reducedStore store outcome.reduced) := by
  induction lots generalizing size completed dollars with
  | nil => simp [matchCandidates, Greedy.fill, volume, reducedStore]; rfl
  | cons lot rest ih =>
      obtain ⟨orderId, order⟩ := lot
      have first : table orderId = some order := present (orderId, order) (by simp)
      have later := ih fun lot member => present lot (by simp [member])
      simp only [List.map_cons, lotEntry, matchCandidates]
      by_cases larger : size < order.size
      · rw [bind_ok (match_candidate_reduces rep first larger order.score completed dollars)]
        simp [Greedy.fill, lotSize, larger, volume]
        rfl
      · rw [bind_ok (match_candidate_completes rep first (Nat.le_of_not_lt larger) order.score completed dollars)]
        by_cases even : size - order.size = 0
        · simp [Greedy.fill, lotSize, larger, even, volume, reducedStore]
          rfl
        · have more : ¬ ((size - order.size : Nat) : Int) = 0 := by exact_mod_cast even
          simp only [if_neg more]
          rw [later (size - order.size)]
          simp [Greedy.fill, lotSize, larger, even, volume]

theorem collect_completed_run (lots : List Lot) (distinct : (lots.map Prod.fst).Nodup) :
    ∀ {store : Store} {table : Table}, Represents store table → (∀ lot ∈ lots, table lot.1 = some lot.2) →
    ∃ next, collectCompleted (lots.map Prod.fst) store = .ok (lots.map fun lot => (lot.1, lot.2.hash)) next ∧
      Represents next (table.unlist (lots.map Prod.fst)) := by
  induction lots with
  | nil =>
      intro store table rep _
      exact ⟨store, rfl, by simpa using rep⟩
  | cons lot rest ih =>
      intro store table rep present
      obtain ⟨orderId, order⟩ := lot
      rw [List.map_cons] at distinct
      obtain ⟨fresh, distinctRest⟩ := List.nodup_cons.mp distinct
      have first : table orderId = some order := present (orderId, order) (by simp)
      have held := represents_hash rep first
      have dropped := represents_unlist rep first
      have unlisted : Function.update table orderId (some order.unlist) orderId = some order.unlist := by simp
      have stillHeld := represents_hash dropped unlisted
      have others : ∀ lot ∈ rest, Function.update table orderId (some order.unlist) lot.1 = some lot.2 := by
        intro lot member
        have away : lot.1 ≠ orderId := by
          intro same
          apply fresh
          simpa only [same] using List.mem_map_of_mem (f := Prod.fst) member
        rw [Function.update_of_ne away]
        exact present lot (by simp [member])
      obtain ⟨next, run, after⟩ := ih distinctRest dropped others
      refine ⟨next, ?_, ?_⟩
      · simp only [List.map_cons, collectCompleted]
        rw [bind_ok (query_ok (hget_of_hash .accountId held))]
        simp only [Resting.hash]
        rw [bind_ok (update_ok (zrem_of_no_hash (represents_account_free rep first) [orderId]))]
        rw [bind_ok (query_ok (hgetall_of_hash stillHeld)), bind_ok run, unlist_hash]
        rfl
      · rw [List.map_cons, unlist_cons first fresh]
        exact after

theorem remove_completed_run (lua : Lua) (rep : Represents store table) (assetId : Int32) (side : Book)
    (orderIds : List Uuid) (short : orderIds.length ≤ lua.unpackLimit)
    (present : ∀ orderId ∈ orderIds, ∃ order, table orderId = some order ∧ order.assetId = assetId ∧
      order.side = side ∧ order.listed = false) :
    ∃ next, removeCompleted lua (.book assetId side) orderIds store = .ok () next ∧
      Represents next (table.remove orderIds) := by
  unfold removeCompleted
  by_cases none : orderIds.length > 0
  · have unpacked : ∀ store, unpack lua orderIds store = .ok () store := by
      intro store
      simp only [unpack, if_neg (Nat.not_lt.mpr short)]
      rfl
    refine ⟨_, ?_, represents_remove rep present⟩
    rw [if_pos none, bind_ok (unpacked store),
      bind_ok (update_ok (zrem_of_no_hash (represents_book_free rep assetId side) orderIds)), bind_ok (unpacked _)]
    rfl
  · obtain rfl : orderIds = [] := List.length_eq_zero_iff.mp (Nat.eq_zero_of_not_pos none)
    exact ⟨store, rfl, by simpa using rep⟩

theorem remove_completed_raises (lua : Lua) (store : Store) (bookToMatch : Key) (orderIds : List Uuid)
    (long : lua.unpackLimit < orderIds.length) :
    removeCompleted lua bookToMatch orderIds store = .error .unpack store := by
  have some : orderIds.length > 0 := Nat.zero_lt_of_lt long
  have raised : unpack lua orderIds store = .error .unpack store := by
    simp only [unpack, if_pos long]
    rfl
  unfold removeCompleted
  rw [if_pos some, bind_error raised]

theorem write_remainder_run (rep : Represents store table) {keys : ScriptKeys} {order : Resting}
    {bookToInsert : Key} {score price size originalSize dollars : Int}
    (fresh : FreshKeys table keys.accountId keys.orderId)
    (fields : order.hash = fun
      | .accountId => some (.raw keys.accountId)
      | .assetId => some (.int keys.assetId.toInt)
      | .price => some (.int price)
      | .size => some (.int size)
      | .originalSize => some (.int originalSize)
      | .dollarVolumeFilled => some (.int dollars))
    (account : order.accountId = keys.accountId) (place : bookToInsert = .book order.assetId order.side)
    (scored : score = order.score) (listed : order.listed = true) :
    ∃ next, writeRemainder keys bookToInsert score price size originalSize dollars store = .ok () next ∧
      Represents next (Function.update table keys.orderId (some order)) := by
  subst place scored
  rw [← account] at fresh
  refine ⟨_, ?_, represents_insert rep fresh listed⟩
  have absent : store (.id keys.orderId) = none := represents_fresh rep fresh
  have stillAbsent : writeSet store (.book order.assetId order.side)
      ((zsetAt store (.book order.assetId order.side)).add order.score keys.orderId)
      (.id keys.orderId) = none := by
    simpa [writeSet] using absent
  have made : ([(Field.accountId, Bulk.raw keys.accountId), (.assetId, .int keys.assetId.toInt),
      (.price, .int price), (.size, .int size), (.originalSize, .int originalSize),
      (.dollarVolumeFilled, .int dollars)].foldl
      (fun (held : Hash Field Uuid) pair => Function.update held pair.1 (some pair.2)) fun _ => none) =
      order.hash := by
    rw [fields]
    funext field
    cases field <;> rfl
  unfold writeRemainder
  rw [bind_ok (update_ok (zadd_of_no_hash (represents_book_free rep _ _) _ _))]
  have stored := hset_of_absent [(Field.accountId, Bulk.raw keys.accountId),
    (.assetId, .int keys.assetId.toInt), (.price, .int price), (.size, .int size),
    (.originalSize, .int originalSize), (.dollarVolumeFilled, .int dollars)] stillAbsent
  rw [made] at stored
  rw [bind_ok (update_ok stored)]
  have accountFree : hashAt (writeHash (writeSet store (.book order.assetId order.side)
      ((zsetAt store (.book order.assetId order.side)).add order.score keys.orderId))
      (.id keys.orderId) order.hash) (.id order.accountId) = none := by
    have free := rep.hashes order.accountId
    rw [fresh.account, Option.map_none] at free
    simp [fresh.apart, free]
  have listedNow := update_ok (zadd_of_no_hash accountFree 0 keys.orderId)
  rw [account] at listedNow
  rw [account]
  exact listedNow

theorem fresh_mono {next : Table} {accountId orderId : Uuid} (fresh : FreshKeys table accountId orderId)
    (origin : ∀ other order, next other = some order →
      ∃ original, table other = some original ∧ order.accountId = original.accountId) :
    FreshKeys next accountId orderId := by
  have stays : ∀ other, table other = none → next other = none := by
    intro other absent
    rcases found : next other with _ | order
    · rfl
    · obtain ⟨original, there, _⟩ := origin other order found
      rw [absent] at there
      cases there
  refine ⟨stays _ fresh.order, fun other order found => ?_, stays _ fresh.account, fresh.apart⟩
  obtain ⟨original, there, account⟩ := origin other order found
  rw [account]
  exact fresh.unowned other original there

theorem take_account {reduced : Option (Lot × Nat)}
    (present : ∀ lot quantity, reduced = some (lot, quantity) → table lot.1 = some lot.2) {orderId : Uuid}
    {order : Resting} (found : table.take reduced orderId = some order) :
    ∃ original, table orderId = some original ∧ order.accountId = original.accountId := by
  obtain ⟨original, there, same | ⟨quantity, _, same⟩⟩ := take_origin present found
  · exact ⟨original, there, by rw [same]⟩
  · exact ⟨original, there, by rw [same, reduce_account]⟩

theorem select_eq (order : Submission) (price : Int) (book : Book) :
    select order.keys price book = ⟨.book order.assetId book.opposite, .book order.assetId book,
      sideScore book price, lowest book price, highest book price⟩ := by
  cases book <;> rfl

-- An execution with the outcome the script reports and the store it leaves.
def execute (lua : Lua) (order : Submission) (store : Store) : Except ScriptError Reply × Store :=
  match orderLua lua order.keys order.args store with
  | .ok reply next => (.ok reply, next)
  | .error error next => (.error error, next)

structure Remainder (order : Submission) (remaining : Nat) (dollars : Int) (resting : Resting) : Prop where
  account : resting.accountId = order.accountId
  asset : resting.assetId = order.assetId
  side : resting.side = order.book
  form : order.form.orderType = .limit resting.price
  size : resting.size = remaining
  original : resting.originalSize = order.size
  dollars : resting.dollarVolumeFilled = dollars
  listed : resting.listed = true

theorem resting_made {order : Submission} {remaining : Nat} {dollars : Int} {resting : Resting}
    (made : order.resting remaining dollars = some resting) : Remainder order remaining dollars resting := by
  cases form : order.form.orderType with
  | market => simp [Submission.resting, form] at made
  | limit price =>
      by_cases left : 0 < remaining ∧ remaining ≤ order.size
      · simp only [Submission.resting, form, dif_pos left] at made
        obtain rfl := Option.some.inj made
        exact ⟨rfl, rfl, rfl, form, rfl, rfl, rfl, rfl⟩
      · simp only [Submission.resting, form, dif_neg left] at made
        cases made

theorem resting_exists {order : Submission} {price : Int32} (form : order.form.orderType = .limit price)
    {remaining : Nat} (left : 0 < remaining) (within : remaining ≤ order.size) (dollars : Int) :
    ∃ resting, order.resting remaining dollars = some resting := by
  simp [Submission.resting, form, left, within]

theorem insert_remainder_run (rep : Represents store table) (order : Submission) (remaining : Nat) (dollars : Int)
    (fresh : FreshKeys table order.accountId order.orderId) (within : remaining ≤ order.size) :
    ∃ next, insertRemainder order.keys order.args.orderType (.book order.assetId order.book)
        (sideScore order.book order.price) order.price remaining order.size dollars store = .ok () next ∧
      Represents next (Function.update table order.orderId (order.resting remaining dollars)) := by
  unfold insertRemainder
  by_cases rests : order.args.orderType = .limit ∧ (remaining : Int) > 0
  · obtain ⟨isLimit, positive⟩ := rests
    have left : 0 < remaining ∧ remaining ≤ order.size := ⟨by exact_mod_cast positive, within⟩
    obtain ⟨price, form⟩ : ∃ price, order.form.orderType = .limit price := by
      rcases form : order.form.orderType with _ | price
      · simp [Submission.args, CreateOrderForm.writeRedisArgs, form] at isLimit
      · exact ⟨price, rfl⟩
    obtain ⟨rest, made⟩ := resting_exists form left.1 within dollars
    obtain ⟨account, asset, side, limit, sized, original, filled, listed⟩ := resting_made made
    have priced := limit_price limit
    rw [if_pos ⟨isLimit, positive⟩, made]
    refine write_remainder_run rep fresh ?_ account ?_ ?_ listed
    · funext field
      cases field <;> simp [Resting.hash, account, asset, ← priced, sized, original, filled, Submission.keys]
    · rw [asset, side]
    · rw [Resting.score, side, priced]
  · have noRest : order.resting remaining dollars = none := by
      rcases form : order.form.orderType with _ | price
      · simp [Submission.resting, form]
      · have isLimit : order.args.orderType = .limit := by
          simp [Submission.args, CreateOrderForm.writeRedisArgs, form]
        have zero : remaining = 0 := by
          by_contra positive
          exact rests ⟨isLimit, by omega⟩
        simp [Submission.resting, form, zero]
    rw [if_neg rests, noRest]
    have same : Function.update table order.orderId none = table :=
      Function.update_eq_self_iff.mpr fresh.order.symm
    exact ⟨store, rfl, by rw [same]; exact rep⟩

-- Up to the first `unpack` the script takes the shares and unlists the orders it has used up.
theorem matching_run (lua : Lua) (rep : Represents store table) (order : Submission) {lots : List Lot}
    (queue : Queue table order.assetId order.book.opposite (reach order.book order.price) lots)
    (range : (zsetAt store (.book order.assetId order.book.opposite)).rangeByScore
      (lowest order.book order.price) (highest order.book order.price) = lots.map lotEntry) :
    ∃ collected, Represents collected (table.abandon (order.fill lots)) ∧
      orderLua lua order.keys order.args store = (do
        removeCompleted lua (.book order.assetId order.book.opposite) ((order.fill lots).completed.map Prod.fst)
        insertRemainder order.keys order.args.orderType (.book order.assetId order.book)
          (sideScore order.book order.price) order.price (order.fill lots).remaining order.size
          (volume lua 0 (order.fill lots).completed)
        return ⟨order.size - (order.fill lots).remaining, volume lua 0 (order.fill lots).completed,
          completedOrders (order.fill lots)⟩ : Script Reply) collected := by
  obtain ⟨sideEq, sizeEq, priceEq⟩ := order.args_eq
  have candidates := query_ok ((zrange_of_no_hash (represents_book_free rep order.assetId order.book.opposite)
    (lowest order.book order.price) (highest order.book order.price)).trans (congrArg Except.ok range))
  have loop := match_candidates_run lua rep lots (fun lot => queue_present queue) order.size [] 0
  have reducedRep : Represents (reducedStore store (order.fill lots).reduced)
      (table.take (order.fill lots).reduced) := by
    rcases partly : (order.fill lots).reduced with _ | ⟨⟨orderId, maker⟩, quantity⟩
    · exact rep
    · exact represents_take rep (fill_reduced_present queue order _ quantity partly) (reduced_mem partly).2
  obtain ⟨collected, collect, collectedRep⟩ := collect_completed_run (order.fill lots).completed
    (fill_ids_nodup queue) reducedRep fun lot completed => fill_completed_kept queue completed
  refine ⟨collected, collectedRep, ?_⟩
  unfold orderLua
  simp only [sideEq, sizeEq, priceEq, select_eq]
  rw [bind_ok candidates, bind_ok loop]
  simp only [List.nil_append]
  exact bind_ok collect

theorem execute_refines (lua : Lua) (rep : Represents store table) (order : Submission)
    (fresh : FreshKeys table order.accountId order.orderId) {lots : List Lot}
    (queue : Queue table order.assetId order.book.opposite (reach order.book order.price) lots)
    (range : (zsetAt store (.book order.assetId order.book.opposite)).rangeByScore
      (lowest order.book order.price) (highest order.book order.price) = lots.map lotEntry) :
    ∃ next, Effect lua order table lots (execute lua order store).1 next ∧
      Represents (execute lua order store).2 next := by
  obtain ⟨collected, collectedRep, started⟩ := matching_run lua rep order queue range
  by_cases short : (order.fill lots).completed.length ≤ lua.unpackLimit
  · obtain ⟨removed, remove, removedRep⟩ := remove_completed_run lua collectedRep order.assetId order.book.opposite
      ((order.fill lots).completed.map Prod.fst) (by simpa using short)
      fun orderId completed => fill_completed_unlisted queue completed
    rw [Table.abandon, unlist_remove] at removedRep
    have stillFresh : FreshKeys ((table.take (order.fill lots).reduced).remove ((order.fill lots).completed.map Prod.fst))
        order.accountId order.orderId := by
      apply fresh_mono fresh
      intro other held found
      exact take_account (fill_reduced_present queue order) (remove_some.mp found).2
    obtain ⟨next, insert, nextRep⟩ := insert_remainder_run removedRep order (order.fill lots).remaining
      (volume lua 0 (order.fill lots).completed) stillFresh (fill_remaining_le order lots)
    rw [bind_ok remove, bind_ok insert] at started
    have finished : execute lua order store = (.ok ⟨order.size - (order.fill lots).remaining,
        volume lua 0 (order.fill lots).completed, completedOrders (order.fill lots)⟩, next) := by
      unfold execute
      rw [started]
      rfl
    rw [finished]
    exact ⟨_, .complete short, nextRep⟩
  · have long : lua.unpackLimit < (order.fill lots).completed.length := Nat.lt_of_not_le short
    have raised := remove_completed_raises lua collected (.book order.assetId order.book.opposite)
      ((order.fill lots).completed.map Prod.fst) (by simpa using long)
    rw [bind_error raised] at started
    have finished : execute lua order store = (.error .unpack, collected) := by
      unfold execute
      rw [started]
    rw [finished]
    exact ⟨_, .abandon long, collectedRep⟩

theorem execute_cases (lua : Lua) (rep : Represents store table) (order : Submission)
    (fresh : FreshKeys table order.accountId order.orderId) :
    ∃ lots next, Queue table order.assetId order.book.opposite (reach order.book order.price) lots ∧
      Effect lua order table lots (execute lua order store).1 next ∧
      Represents (execute lua order store).2 next := by
  obtain ⟨lots, queue, range⟩ := represents_queue rep order.assetId order.book.opposite
    (lowest order.book order.price) (highest order.book order.price)
  obtain ⟨next, effect, nextRep⟩ := execute_refines lua rep order fresh queue range
  exact ⟨lots, next, queue, effect, nextRep⟩

end MktSim
