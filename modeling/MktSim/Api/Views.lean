import MktSim.Api.Listings

set_option autoImplicit false

namespace MktSim

open Redis SortedSets Greedy Runs

def accountOrders (store : Store) (accountId : Uuid) : List Uuid :=
  (zsetAt store (.id accountId)).entries.map Prod.snd

def shownEntry (store : Store) (orderId : Uuid) : Option OrderBookEntry :=
  (hashAt store (.id orderId)).bind OrderBookEntry.fromRedisValue

structure PlacesAgree (store : Store) : Prop where
  book : ∀ orderId, hashAt store (.id orderId) ≠ none ↔
    ∃! place : Int32 × Book, orderId ∈ bookOrders store place.1 place.2
  account : ∀ orderId, hashAt store (.id orderId) ≠ none ↔ ∃! accountId, orderId ∈ accountOrders store accountId
  stale : ∀ orderId, hashAt store (.id orderId) = none →
    (∀ assetId side, orderId ∉ bookOrders store assetId side) ∧ ∀ accountId, orderId ∉ accountOrders store accountId
  distinct : (∀ assetId side, (bookOrders store assetId side).Nodup) ∧ ∀ accountId, (accountOrders store accountId).Nodup

structure FieldsAgree (history : List Execution) (store : Store) (orderId : Uuid) (fields : Hash Field Uuid) : Prop where
  account : ∃ accountId, fields .accountId = some (.raw accountId) ∧ orderId ∈ accountOrders store accountId
  book : ∃ (assetId : Int32) (side : Book) (price : Int32),
    fields .assetId = some (.int assetId.toInt) ∧ fields .price = some (.int price.toInt) ∧
    (sideScore side price.toInt, orderId) ∈ zsetAt store (.book assetId side) ∧
    ∃ execution ∈ history, execution.order.orderId = orderId ∧ execution.order.form.orderType = .limit price
  size : ∃ size : Int, fields .size = some (.int size) ∧ 1 ≤ size ∧ size ≤ 2 ^ 32 - 1

structure ListingsAgree (store : Store) : Prop where
  accountDecodes : ∀ scan accountId cursor, hashAt store (.id accountId) = none →
    ∃ reply, listOrdersForAccount scan accountId cursor store = .ok reply
  bookDecodes : ∀ scan assetId book cursor, ∃ reply, getOrderBook scan assetId book cursor store = .ok reply
  accountLists : ∀ scan accountId entries,
    Listing (fun cursor => listOrdersForAccount scan accountId cursor store) none entries →
    hashAt store (.id accountId) = none →
    ∀ entry, entry ∈ entries ↔ ∃ orderId side, shownEntry store orderId = some entry ∧ entry.accountId = accountId ∧
      orderId ∈ bookOrders store entry.assetId side
  bookLists : ∀ scan assetId book entries,
    Listing (fun cursor => getOrderBook scan assetId book cursor store) none entries →
    ∀ price size, ⟨price, size⟩ ∈ entries ↔ ∃ orderId accountId,
      shownEntry store orderId = some ⟨accountId, assetId, price, size⟩ ∧ orderId ∈ bookOrders store assetId book ∧
      orderId ∈ accountOrders store accountId

def entryOf (resting : Resting) : OrderBookEntry :=
  ⟨resting.accountId, resting.assetId, resting.price, UInt32.ofNat resting.size⟩

theorem decode_int32 (value : Int32) : int32FromRedisValue (some (.int value.toInt)) = some value := by
  rw [int32FromRedisValue, if_pos ⟨value.le_toInt, value.toInt_lt⟩, Int32.ofInt_toInt]

theorem decode_size (resting : Resting) :
    uint32FromRedisValue (some (.int resting.size)) = some (UInt32.ofNat resting.size) := by
  have within := resting.within
  have bounded := resting.bounded
  rw [uint32FromRedisValue, if_pos (by omega), Int.toNat_natCast]

theorem decode_entry (resting : Resting) : OrderBookEntry.fromRedisValue resting.hash = some (entryOf resting) := by
  simp only [OrderBookEntry.fromRedisValue, Resting.hash, uuidFromRedisValue, decode_int32, decode_size]
  rfl

theorem decode_anonymized (resting : Resting) :
    AnonymizedOrderBookEntry.fromRedisValue (resting.hash .price, resting.hash .size) =
      some ⟨resting.price, UInt32.ofNat resting.size⟩ := by
  simp only [AnonymizedOrderBookEntry.fromRedisValue, Resting.hash, decode_int32, decode_size]
  rfl

def held (table : Table) (orderId : Uuid) : Hash Field Uuid :=
  ((table orderId).map Resting.hash).getD fun _ => none

def heldEntry (table : Table) (orderId : Uuid) : OrderBookEntry :=
  ((table orderId).map entryOf).getD ⟨orderId, 0, 0, 0⟩

theorem decode_member {table : Table} {orderId : Uuid} {resting : Resting} (there : table orderId = some resting) :
    OrderBookEntry.fromRedisValue (held table orderId) = some (heldEntry table orderId) ∧
      AnonymizedOrderBookEntry.fromRedisValue (held table orderId .price, held table orderId .size) =
        some ⟨(heldEntry table orderId).price, (heldEntry table orderId).size⟩ := by
  rw [held, heldEntry, there]
  exact ⟨decode_entry resting, decode_anonymized resting⟩

section Tables

variable {store : Store} {table : Table} (rep : Represents store table)

include rep

theorem shown_some {orderId : Uuid} {resting : Resting} (there : table orderId = some resting) :
    shownEntry store orderId = some (entryOf resting) := by
  rw [shownEntry, represents_hash rep there]
  exact decode_entry resting

theorem hash_iff (orderId : Uuid) : hashAt store (.id orderId) ≠ none ↔ ∃ resting, table orderId = some resting := by
  rw [rep.hashes, Option.ne_none_iff_exists']
  refine ⟨?_, ?_⟩
  · intro present
    obtain ⟨fields, held⟩ := present
    obtain ⟨resting, there, _⟩ := Option.map_eq_some_iff.mp held
    exact ⟨resting, there⟩
  · intro present
    obtain ⟨resting, there⟩ := present
    exact ⟨resting.hash, by rw [there, Option.map_some]⟩

theorem mem_account_orders (listed : ∀ orderId resting, table orderId = some resting → resting.listed = true)
    {orderId accountId : Uuid} : orderId ∈ accountOrders store accountId ↔
      ∃ resting, table orderId = some resting ∧ resting.accountId = accountId := by
  refine ⟨?_, ?_⟩
  · intro member
    obtain ⟨entry, inSet, rfl⟩ := List.mem_map.mp member
    obtain ⟨resting, there, account, _⟩ := (rep.accounts accountId entry).mp inSet
    exact ⟨resting, there, account⟩
  · intro present
    obtain ⟨resting, there, account⟩ := present
    exact List.mem_map.mpr ⟨(0, orderId),
      (rep.accounts accountId _).mpr ⟨resting, there, account, listed orderId resting there, rfl⟩, rfl⟩

theorem places_agree (listed : ∀ orderId resting, table orderId = some resting → resting.listed = true) :
    PlacesAgree store where
  book orderId := by
    rw [hash_iff rep]
    refine ⟨?_, ?_⟩
    · intro present
      obtain ⟨resting, there⟩ := present
      refine ⟨(resting.assetId, resting.side), (mem_book_orders rep).mpr ⟨resting, there, rfl, rfl⟩, ?_⟩
      intro place member
      obtain ⟨held, found, asset, side⟩ := (mem_book_orders rep).mp member
      obtain rfl := Option.some.inj (there.symm.trans found)
      exact Prod.ext asset.symm side.symm
    · intro present
      obtain ⟨place, member, _⟩ := present
      obtain ⟨resting, there, _⟩ := (mem_book_orders rep).mp member
      exact ⟨resting, there⟩
  account orderId := by
    rw [hash_iff rep]
    refine ⟨?_, ?_⟩
    · intro present
      obtain ⟨resting, there⟩ := present
      refine ⟨resting.accountId, (mem_account_orders rep listed).mpr ⟨resting, there, rfl⟩, ?_⟩
      intro accountId member
      obtain ⟨held, found, account⟩ := (mem_account_orders rep listed).mp member
      obtain rfl := Option.some.inj (there.symm.trans found)
      exact account.symm
    · intro present
      obtain ⟨accountId, member, _⟩ := present
      obtain ⟨resting, there, _⟩ := (mem_account_orders rep listed).mp member
      exact ⟨resting, there⟩
  stale orderId gone := by
    have absent : ¬ ∃ resting, table orderId = some resting := by
      rw [← hash_iff rep, not_ne_iff]
      exact gone
    refine ⟨?_, ?_⟩
    · intro assetId side member
      obtain ⟨resting, there, _⟩ := (mem_book_orders rep).mp member
      exact absent ⟨resting, there⟩
    · intro accountId member
      obtain ⟨resting, there, _⟩ := (mem_account_orders rep listed).mp member
      exact absent ⟨resting, there⟩
  distinct := ⟨fun assetId side => (zsetAt store (.book assetId side)).single,
    fun accountId => (zsetAt store (.id accountId)).single⟩

theorem fields_agree {history : List Execution} (sound : Sound history table)
    (listed : ∀ orderId resting, table orderId = some resting → resting.listed = true) {orderId : Uuid}
    {fields : Hash Field Uuid} (held : hashAt store (.id orderId) = some fields) :
    FieldsAgree history store orderId fields := by
  obtain ⟨resting, there⟩ := (hash_iff rep orderId).mp (by rw [held]; exact Option.some_ne_none fields)
  obtain rfl := Option.some.inj (held.symm.trans (represents_hash rep there))
  have positive := resting.open_
  have within := resting.within
  have bounded := resting.bounded
  refine ⟨?_, ?_, ?_⟩
  · exact ⟨resting.accountId, rfl, (mem_account_orders rep listed).mpr ⟨resting, there, rfl⟩⟩
  · obtain ⟨execution, member, same, _, _, _, form, _⟩ := sound orderId resting there
    exact ⟨resting.assetId, resting.side, resting.price, rfl, rfl,
      (rep.books resting.assetId resting.side _).mpr ⟨resting, there, rfl, rfl, rfl⟩, execution, member, same, form⟩
  · exact ⟨resting.size, rfl, by omega, by omega⟩

theorem read_member {orderId : Uuid} {resting : Resting} (there : table orderId = some resting) :
    hgetall (.id orderId) store = .ok (held table orderId) ∧
      hmgetPriceSize store orderId = .ok (held table orderId .price, held table orderId .size) := by
  have hash := represents_hash rep there
  refine ⟨?_, ?_⟩
  · rw [hgetall_of_hash hash, held, there]
    rfl
  · rw [hmgetPriceSize, hget_of_hash _ hash, hget_of_hash _ hash, held, there]
    rfl

theorem account_member {accountId orderId : Uuid} (member : orderId ∈ (zsetAt store (.id accountId)).entries.map Prod.snd) :
    ∃ resting, table orderId = some resting ∧ resting.accountId = accountId := by
  obtain ⟨entry, inSet, rfl⟩ := List.mem_map.mp member
  obtain ⟨resting, there, account, _⟩ := (rep.accounts accountId entry).mp inSet
  exact ⟨resting, there, account⟩

theorem account_reads {accountId : Uuid} : ∀ orderId ∈ (zsetAt store (.id accountId)).entries.map Prod.snd,
    hgetall (.id orderId) store = .ok (held table orderId) := by
  intro orderId member
  obtain ⟨resting, there, _⟩ := account_member rep member
  exact (read_member rep there).1

theorem account_decodes {accountId : Uuid} : ∀ orderId ∈ (zsetAt store (.id accountId)).entries.map Prod.snd,
    OrderBookEntry.fromRedisValue (held table orderId) = some (heldEntry table orderId) := by
  intro orderId member
  obtain ⟨resting, there, _⟩ := account_member rep member
  exact (decode_member there).1

theorem book_reads {assetId : Int32} {side : Book} : ∀ orderId ∈ (zsetAt store (.book assetId side)).entries.map Prod.snd,
    hmgetPriceSize store orderId = .ok (held table orderId .price, held table orderId .size) := by
  intro orderId member
  obtain ⟨resting, there, _⟩ := (mem_book_orders rep).mp member
  exact (read_member rep there).2

theorem book_decodes {assetId : Int32} {side : Book} : ∀ orderId ∈ (zsetAt store (.book assetId side)).entries.map Prod.snd,
    AnonymizedOrderBookEntry.fromRedisValue (held table orderId .price, held table orderId .size) =
      some ⟨(heldEntry table orderId).price, (heldEntry table orderId).size⟩ := by
  intro orderId member
  obtain ⟨resting, there, _⟩ := (mem_book_orders rep).mp member
  exact (decode_member there).2

theorem listings_agree (listed : ∀ orderId resting, table orderId = some resting → resting.listed = true) :
    ListingsAgree store where
  accountDecodes scan accountId cursor free := ⟨_, scan_orders_page scan free (account_reads rep) (account_decodes rep) cursor⟩
  bookDecodes scan assetId book cursor :=
    ⟨_, scan_orders_page scan (represents_book_free rep assetId book) (book_reads rep) (book_decodes rep) cursor⟩
  accountLists scan accountId entries listing free entry := by
    rw [listing_complete scan free (account_reads rep) (account_decodes rep) listing]
    refine ⟨?_, ?_⟩
    · intro present
      obtain ⟨orderId, member, rfl⟩ := present
      obtain ⟨resting, there, account⟩ := account_member rep member
      refine ⟨orderId, resting.side, ?_, ?_, ?_⟩
      · rw [shown_some rep there, heldEntry, there]
        rfl
      · rw [heldEntry, there]
        exact account
      · rw [heldEntry, there]
        exact (mem_book_orders rep).mpr ⟨resting, there, rfl, rfl⟩
    · intro present
      obtain ⟨orderId, side, shown, account, inBook⟩ := present
      obtain ⟨resting, there, _⟩ := (mem_book_orders rep).mp inBook
      obtain rfl := Option.some.inj ((shown_some rep there).symm.trans shown)
      refine ⟨orderId, (mem_account_orders rep listed).mpr ⟨resting, there, account⟩, ?_⟩
      rw [heldEntry, there]
      rfl
  bookLists scan assetId book entries listing price size := by
    rw [listing_complete scan (represents_book_free rep assetId book) (book_reads rep) (book_decodes rep) listing]
    refine ⟨?_, ?_⟩
    · intro present
      obtain ⟨orderId, member, same⟩ := present
      obtain ⟨resting, there, asset, side⟩ := (mem_book_orders rep).mp member
      rw [heldEntry, there] at same
      obtain ⟨rfl, rfl⟩ := AnonymizedOrderBookEntry.mk.inj same
      refine ⟨orderId, resting.accountId, ?_, member, (mem_account_orders rep listed).mpr ⟨resting, there, rfl⟩⟩
      rw [shown_some rep there, ← asset]
      rfl
    · intro present
      obtain ⟨orderId, accountId, shown, inBook, _⟩ := present
      obtain ⟨resting, there, _⟩ := (mem_book_orders rep).mp inBook
      refine ⟨orderId, inBook, ?_⟩
      have same := Option.some.inj ((shown_some rep there).symm.trans shown)
      rw [heldEntry, there]
      change (⟨(entryOf resting).price, (entryOf resting).size⟩ : AnonymizedOrderBookEntry) = ⟨price, size⟩
      rw [same]

end Tables

theorem effect_listed {lua : Lua} {execution : Execution} {table next : Table} {lots : List Lot}
    (executed : Executed lua execution table lots next) (completes : execution.completes)
    (listed : ∀ orderId resting, table orderId = some resting → resting.listed = true) :
    ∀ orderId resting, next orderId = some resting → resting.listed = true := by
  intro orderId after found
  rw [effect_complete executed completes] at found
  obtain ⟨resting, there, _, rfl⟩ | ⟨_, _, made⟩ :=
    complete_origin executed.queue executed.fresh.order found
  · rw [reduce_listed]
    exact listed orderId resting there
  · exact (resting_made made).listed

theorem complete_listed {lua : Lua} {history : List Execution} {store : Store} (run : Run lua history store)
    (complete : Complete history) : ∃ table, Represents store table ∧ Sound history table ∧
      ∀ orderId resting, table orderId = some resting → resting.listed = true := by
  obtain ⟨table, rep, sound, listed⟩ := run_invariant lua
    (fun history table => Complete history → ∀ orderId resting, table orderId = some resting → resting.listed = true)
    (fun _ orderId resting there => by cases there)
    (fun history execution table lots next _ _ _ executed ih complete =>
      effect_listed executed (complete_append.mp complete).2 (ih (complete_append.mp complete).1)) run
  exact ⟨table, rep, sound, listed complete⟩

/-- After any complete run the books, the hashes and the accounts' sets tell of the same
orders, every later execution finds what it reads, and both listings decode. -/
theorem views_agree (lua : Lua) (history : List Execution) (store : Store) (run : Run lua history store)
    (complete : Complete history) :
    PlacesAgree store ∧
      (∀ orderId fields, hashAt store (.id orderId) = some fields → FieldsAgree history store orderId fields) ∧
      (∀ order, FreshIn history order → ∀ error, (execute lua order store).1 = .error error → error = .unpack) ∧
      ListingsAgree store := by
  obtain ⟨table, rep, sound, listed⟩ := complete_listed run complete
  refine ⟨places_agree rep listed, fun orderId fields held => fields_agree rep sound listed held, ?_,
    listings_agree rep listed⟩
  intro order fresh error failed
  obtain ⟨lots, next, _, effect, _⟩ := execute_cases lua rep order (sound_fresh sound fresh)
  rw [failed] at effect
  cases effect with
  | abandon => rfl

def restingOrders : List Submission :=
  [⟨⟨1⟩, 1, .offers, ⟨10, .limit 3⟩, ⟨11⟩⟩, ⟨⟨2⟩, 1, .bids, ⟨4, .limit 2⟩, ⟨12⟩⟩, ⟨⟨1⟩, 2, .bids, ⟨2, .limit (-4)⟩, ⟨13⟩⟩,
    ⟨⟨2⟩, 1, .bids, ⟨3, .limit 3⟩, ⟨14⟩⟩]

theorem views_agree_resting :
    PlacesAgree (storeAfter (.exactIntegers 7999) emptyKeys restingOrders) ∧
      (∀ orderId fields, hashAt (storeAfter (.exactIntegers 7999) emptyKeys restingOrders) (.id orderId) = some fields →
        FieldsAgree (executions (.exactIntegers 7999) emptyKeys restingOrders)
          (storeAfter (.exactIntegers 7999) emptyKeys restingOrders) orderId fields) ∧
      (∀ order, FreshIn (executions (.exactIntegers 7999) emptyKeys restingOrders) order → ∀ error,
        (execute (.exactIntegers 7999) order (storeAfter (.exactIntegers 7999) emptyKeys restingOrders)).1 =
          .error error → error = .unpack) ∧
      ListingsAgree (storeAfter (.exactIntegers 7999) emptyKeys restingOrders) :=
  views_agree (.exactIntegers 7999) _ _ (executions_run _ restingOrders (by decide)) (complete_of_outcomes (by decide))

end MktSim
