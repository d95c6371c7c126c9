import MktSim.Api.OrderTable

set_option autoImplicit false

namespace MktSim

open Redis SortedSets Greedy

-- The store holds exactly the orders of a table: a hash for each, an entry in the
-- book of its asset and side, and an entry in its account's set while listed.
structure Represents (store : Store) (table : Table) : Prop where
  hashes : ∀ orderId, hashAt store (.id orderId) = (table orderId).map Resting.hash
  noHash : ∀ key, (∀ uuid, key ≠ .id uuid) → hashAt store key = none
  books : ∀ assetId side entry, entry ∈ zsetAt store (.book assetId side) ↔
    ∃ order, table entry.2 = some order ∧ order.assetId = assetId ∧ order.side = side ∧ entry.1 = order.score
  accounts : ∀ accountId entry, entry ∈ zsetAt store (.id accountId) ↔
    ∃ order, table entry.2 = some order ∧ order.accountId = accountId ∧ order.listed = true ∧ entry.1 = 0
  noSet : ∀ number, zsetAt store (.name (.int number)) = .empty
  owners : ∀ orderId order, table orderId = some order → table order.accountId = none

def emptyTable : Table := fun _ => none

theorem empty_represents : Represents emptyKeys emptyTable where
  hashes _ := rfl
  noHash _ _ := rfl
  books _ _ entry := by simp [emptyTable]
  accounts _ entry := by simp [emptyTable]
  noSet _ := rfl
  owners _ _ present := by cases present

variable {store : Store} {table : Table}

theorem represents_hash (rep : Represents store table) {orderId : Uuid} {order : Resting}
    (present : table orderId = some order) : hashAt store (.id orderId) = some order.hash := by
  rw [rep.hashes, present, Option.map_some]

theorem represents_account_free (rep : Represents store table) {orderId : Uuid} {order : Resting}
    (present : table orderId = some order) : hashAt store (.id order.accountId) = none := by
  rw [rep.hashes, rep.owners orderId order present, Option.map_none]

theorem represents_book_free (rep : Represents store table) (assetId : Int32) (side : Book) :
    hashAt store (.book assetId side) = none := rep.noHash _ fun uuid => by simp

theorem represents_unique {other : Store} (rep : Represents store table) (same : Represents other table) :
    store = other := by
  apply keys_ext
  · intro key
    rcases key with ⟨assetId, side⟩ | number | orderId
    · rw [represents_book_free rep, represents_book_free same]
    · rw [rep.noHash _ fun uuid => by simp, same.noHash _ fun uuid => by simp]
    · exact (rep.hashes orderId).trans (same.hashes orderId).symm
  · intro key
    rcases key with ⟨assetId, side⟩ | number | accountId
    · exact SortedSet.ext_mem fun entry => (rep.books assetId side entry).trans (same.books assetId side entry).symm
    · rw [rep.noSet, same.noSet]
    · exact SortedSet.ext_mem fun entry => (rep.accounts accountId entry).trans (same.accounts accountId entry).symm

theorem represents_queue (rep : Represents store table) (assetId : Int32) (side : Book) (lower upper : Bound) :
    ∃ lots, Queue table assetId side (inRange lower upper) lots ∧
      (zsetAt store (.book assetId side)).rangeByScore lower upper = lots.map lotEntry := by
  let entries := (zsetAt store (.book assetId side)).rangeByScore lower upper
  let lots : List Lot := entries.filterMap fun entry => (table entry.2).map fun order => (entry.2, order)
  have found : ∀ entry ∈ entries, ∃ order, table entry.2 = some order ∧ order.assetId = assetId ∧
      order.side = side ∧ entry = lotEntry (entry.2, order) := by
    intro entry member
    have inBook := ((mem_range_by_score lower upper _ entry).mp member).1
    obtain ⟨order, present, asset, whichSide, score⟩ := (rep.books assetId side entry).mp inBook
    exact ⟨order, present, asset, whichSide, Prod.ext score rfl⟩
  have entriesEq : entries = lots.map lotEntry := by
    have same : entries.filterMap (fun entry => (table entry.2).map fun order => lotEntry (entry.2, order)) =
        entries.filterMap some := by
      apply List.filterMap_congr
      intro entry member
      obtain ⟨order, present, _, _, eq⟩ := found entry member
      rw [present, Option.map_some, ← eq]
    simpa [lots, List.map_filterMap, Function.comp_def] using same.symm
  refine ⟨lots, ⟨fun orderId order => ?_, ?_⟩, entriesEq⟩
  · refine ⟨?_, ?_⟩
    · intro member
      obtain ⟨entry, inEntries, made⟩ := List.mem_filterMap.mp member
      obtain ⟨held, present, asset, whichSide, eq⟩ := found entry inEntries
      have same : (entry.2, held) = (orderId, order) := by simpa [present] using made
      obtain ⟨rfl, rfl⟩ := Prod.mk.inj same
      have ranged := ((mem_range_by_score lower upper _ entry).mp inEntries).2
      rw [eq] at ranged
      exact ⟨present, asset, whichSide, ranged⟩
    · rintro ⟨present, asset, whichSide, ranged⟩
      have inBook : (order.score, orderId) ∈ zsetAt store (.book assetId side) :=
        (rep.books assetId side _).mpr ⟨order, present, asset, whichSide, rfl⟩
      exact List.mem_filterMap.mpr
        ⟨(order.score, orderId), (mem_range_by_score lower upper _ _).mpr ⟨inBook, ranged⟩, by simp [present]⟩
  · have ordered := range_by_score_ordered lower upper (zsetAt store (.book assetId side))
    change entries.Pairwise Before at ordered
    rw [entriesEq] at ordered
    exact List.pairwise_map.mp ordered

theorem owners_replaced (rep : Represents store table) {orderId : Uuid} {order next : Resting}
    (present : table orderId = some order) (account : next.accountId = order.accountId) (query : Uuid) (held : Resting)
    (found : Function.update table orderId (some next) query = some held) :
    Function.update table orderId (some next) held.accountId = none := by
  have owner : ∃ original, table query = some original ∧ held.accountId = original.accountId := by
    by_cases same : query = orderId
    · subst query
      obtain rfl : next = held := by simpa using found
      exact ⟨order, present, account⟩
    · exact ⟨held, by simpa [same] using found, rfl⟩
  obtain ⟨original, there, owned⟩ := owner
  have free := rep.owners query original there
  have away : held.accountId ≠ orderId := by
    intro same
    rw [← owned, same, present] at free
    cases free
  rw [Function.update_of_ne away, owned, free]

theorem represents_replace (rep : Represents store table) {orderId : Uuid} {order next : Resting}
    (present : table orderId = some order) (account : next.accountId = order.accountId)
    (asset : next.assetId = order.assetId) (side : next.side = order.side) (score : next.score = order.score)
    (listed : next.listed = order.listed) :
    Represents (writeHash store (.id orderId) next.hash) (Function.update table orderId (some next)) where
  hashes query := by
    by_cases same : query = orderId
    · subst query
      simp
    · simp [same, rep.hashes query]
  noHash key notId := by simp [notId orderId, rep.noHash key notId]
  books assetId whichSide entry := by
    simp only [zset_at_write_hash, reduceCtorEq, if_false, rep.books]
    by_cases same : entry.2 = orderId
    · simp [same, present, asset, side, score]
    · simp [same]
  accounts accountId entry := by
    have noSet : zsetAt store (.id orderId) = .empty := zset_at_of_hash (represents_hash rep present)
    have kept : zsetAt (writeHash store (.id orderId) next.hash) (.id accountId) = zsetAt store (.id accountId) := by
      by_cases same : accountId = orderId
      · subst accountId
        simp [noSet]
      · simp [same]
    rw [kept, rep.accounts]
    by_cases same : entry.2 = orderId
    · simp [same, present, account, listed]
    · simp [same]
  noSet number := by simp [rep.noSet number]
  owners := owners_replaced rep present account

theorem represents_take (rep : Represents store table) {orderId : Uuid} {order : Resting} {quantity : Nat}
    (present : table orderId = some order) (less : quantity < order.size) :
    Represents (writeHash store (.id orderId)
        (Function.update order.hash .size (some (.int (order.size - quantity : Int)))))
      (table.take (some ((orderId, order), quantity))) := by
  rw [← reduce_hash order quantity less]
  exact represents_replace rep present (by simp) (by simp) (by simp) (by simp) (by simp)

theorem represents_unlist (rep : Represents store table) {orderId : Uuid} {order : Resting}
    (present : table orderId = some order) :
    Represents (writeSet store (.id order.accountId) ((zsetAt store (.id order.accountId)).remove [orderId]))
      (Function.update table orderId (some order.unlist)) where
  hashes query := by
    have kept : hashAt (writeSet store (.id order.accountId) ((zsetAt store (.id order.accountId)).remove [orderId]))
        (.id query) = hashAt store (.id query) := by
      by_cases same : query = order.accountId
      · subst query
        simp [represents_account_free rep present]
      · simp [same]
    rw [kept, rep.hashes]
    by_cases same : query = orderId
    · subst query
      simp [present]
    · simp [same]
  noHash key notId := by simp [notId order.accountId, rep.noHash key notId]
  books assetId side entry := by
    simp only [zset_at_write_set, reduceCtorEq, if_false, rep.books]
    by_cases same : entry.2 = orderId
    · simp [same, present, Resting.unlist, Resting.score]
    · simp [same]
  accounts accountId entry := by
    by_cases atOwner : accountId = order.accountId
    · subst accountId
      rw [zset_at_write_set, if_pos rfl, SortedSet.mem_remove, rep.accounts]
      by_cases same : entry.2 = orderId
      · simp [same, Resting.unlist]
      · simp [same]
    · rw [zset_at_write_set, if_neg (by simpa using atOwner), rep.accounts]
      by_cases same : entry.2 = orderId
      · simp [same, present, Resting.unlist, Ne.symm atOwner]
      · simp [same]
  noSet number := by simp [rep.noSet number]
  owners := owners_replaced rep present rfl

theorem owners_removed (rep : Represents store table) (orderIds : List Uuid) (query : Uuid) (held : Resting)
    (found : table.remove orderIds query = some held) : table.remove orderIds held.accountId = none := by
  by_cases removed : query ∈ orderIds
  · rw [Table.remove, if_pos removed] at found
    cases found
  · rw [Table.remove, if_neg removed] at found
    have free := rep.owners query held found
    rw [Table.remove, free, ite_self]

theorem represents_remove (rep : Represents store table) {assetId : Int32} {side : Book} {orderIds : List Uuid}
    (present : ∀ orderId ∈ orderIds, ∃ order, table orderId = some order ∧ order.assetId = assetId ∧
      order.side = side ∧ order.listed = false) :
    Represents (del (orderIds.map Key.id)
        (writeSet store (.book assetId side) ((zsetAt store (.book assetId side)).remove orderIds)))
      (table.remove orderIds) where
  hashes query := by
    by_cases removed : query ∈ orderIds
    · simp [Table.remove, removed]
    · simp [Table.remove, removed, rep.hashes query]
  noHash key notId := by
    by_cases atBook : key = .book assetId side
    · simp [atBook]
    · simp [atBook, rep.noHash key notId]
  books otherAsset otherSide entry := by
    have kept : zsetAt (del (orderIds.map Key.id) (writeSet store (.book assetId side)
        ((zsetAt store (.book assetId side)).remove orderIds))) (.book otherAsset otherSide) =
        if otherAsset = assetId ∧ otherSide = side then (zsetAt store (.book assetId side)).remove orderIds
        else zsetAt store (.book otherAsset otherSide) := by
      simp
    rw [kept]
    by_cases removed : entry.2 ∈ orderIds
    · obtain ⟨order, there, asset, whichSide, _⟩ := present entry.2 removed
      have gone : entry ∉ (if otherAsset = assetId ∧ otherSide = side
          then (zsetAt store (.book assetId side)).remove orderIds
          else zsetAt store (.book otherAsset otherSide)) := by
        by_cases atBook : otherAsset = assetId ∧ otherSide = side
        · simp [atBook, removed]
        · rw [if_neg atBook, rep.books]
          rintro ⟨held, found, heldAsset, heldSide, _⟩
          obtain rfl := Option.some.inj (there.symm.trans found)
          exact atBook ⟨heldAsset.symm.trans asset, heldSide.symm.trans whichSide⟩
      simp [gone, Table.remove, removed]
    · by_cases atBook : otherAsset = assetId ∧ otherSide = side
      · obtain ⟨rfl, rfl⟩ := atBook
        simp [Table.remove, removed, rep.books]
      · simp [Table.remove, removed, rep.books, atBook]
  accounts accountId entry := by
    by_cases removed : entry.2 ∈ orderIds
    · obtain ⟨order, there, _, _, unlisted⟩ := present entry.2 removed
      have gone : entry ∉ zsetAt store (.id accountId) := by
        rw [rep.accounts]
        rintro ⟨held, found, _, listed, _⟩
        obtain rfl := Option.some.inj (there.symm.trans found)
        simp [unlisted] at listed
      by_cases deleted : accountId ∈ orderIds <;> simp [Table.remove, removed, deleted, gone]
    · by_cases deleted : accountId ∈ orderIds
      · obtain ⟨order, there, _⟩ := present accountId deleted
        have noSet : zsetAt store (.id accountId) = .empty := zset_at_of_hash (represents_hash rep there)
        have unowned := rep.accounts accountId entry
        rw [noSet] at unowned
        simpa [Table.remove, removed, deleted] using unowned
      · simp [Table.remove, removed, deleted, rep.accounts]
  noSet number := by simp [rep.noSet number]
  owners := owners_removed rep orderIds

structure FreshKeys (table : Table) (accountId orderId : Uuid) : Prop where
  order : table orderId = none
  unowned : ∀ other held, table other = some held → held.accountId ≠ orderId
  account : table accountId = none
  apart : accountId ≠ orderId

theorem represents_fresh (rep : Represents store table) {accountId orderId : Uuid}
    (fresh : FreshKeys table accountId orderId) : store (.id orderId) = none := by
  have noHash : hashAt store (.id orderId) = none := by rw [rep.hashes, fresh.order, Option.map_none]
  have noSet : zsetAt store (.id orderId) = .empty := by
    apply SortedSet.ext_mem
    intro entry
    rw [rep.accounts]
    refine ⟨?_, ?_⟩
    · rintro ⟨held, found, owner, _⟩
      exact absurd owner (fresh.unowned entry.2 held found)
    · intro member
      exact absurd member (SortedSet.not_mem_empty entry)
  rw [← restore_value store, noHash, noSet]
  rfl

theorem owners_inserted (rep : Represents store table) {orderId : Uuid} {order : Resting}
    (fresh : FreshKeys table order.accountId orderId) (query : Uuid) (held : Resting)
    (found : Function.update table orderId (some order) query = some held) :
    Function.update table orderId (some order) held.accountId = none := by
  by_cases same : query = orderId
  · rw [same, Function.update_self] at found
    obtain rfl := Option.some.inj found
    rw [Function.update_of_ne fresh.apart, fresh.account]
  · rw [Function.update_of_ne same] at found
    rw [Function.update_of_ne (fresh.unowned query held found), rep.owners query held found]

theorem represents_insert (rep : Represents store table) {orderId : Uuid} {order : Resting}
    (fresh : FreshKeys table order.accountId orderId) (listed : order.listed = true) :
    let booked := writeSet store (.book order.assetId order.side)
      ((zsetAt store (.book order.assetId order.side)).add order.score orderId)
    let stored := writeHash booked (.id orderId) order.hash
    Represents (writeSet stored (.id order.accountId) ((zsetAt stored (.id order.accountId)).add 0 orderId))
      (Function.update table orderId (some order)) := by
  intro booked stored
  have accountSet : zsetAt stored (.id order.accountId) = zsetAt store (.id order.accountId) := by
    simp [stored, booked, fresh.apart]
  rw [accountSet]
  constructor
  case hashes =>
    intro query
    by_cases atAccount : query = order.accountId
    · subst query
      simp [fresh.account, fresh.apart]
    · by_cases same : query = orderId
      · subst query
        simp [atAccount, stored]
      · simp [same, atAccount, stored, booked, rep.hashes query]
  case noHash =>
    intro key notId
    by_cases atBook : key = .book order.assetId order.side
    · simp [atBook, stored, booked]
    · simp [notId, atBook, stored, booked, rep.noHash key notId]
  case books =>
    intro assetId side entry
    by_cases atBook : assetId = order.assetId ∧ side = order.side
    · obtain ⟨rfl, rfl⟩ := atBook
      by_cases same : entry.2 = orderId
      · simp [stored, booked, same, Prod.ext_iff]
      · simp [stored, booked, same, Prod.ext_iff, rep.books]
    · by_cases same : entry.2 = orderId
      · have elsewhere : order.assetId = assetId → order.side = side → ¬ entry.1 = order.score :=
          fun asset whichSide => absurd ⟨asset.symm, whichSide.symm⟩ atBook
        simpa [stored, booked, atBook, same, rep.books, fresh.order] using elsewhere
      · simp [stored, booked, atBook, same, rep.books]
  case accounts =>
    intro accountId entry
    by_cases atOwner : accountId = order.accountId
    · subst accountId
      by_cases same : entry.2 = orderId
      · simp [same, listed, Prod.ext_iff]
      · simp [same, rep.accounts, Prod.ext_iff]
    · by_cases atOrder : accountId = orderId
      · subst accountId
        by_cases same : entry.2 = orderId
        · simp [same, atOwner, stored, Ne.symm atOwner]
        · have unowned : ∀ held, table entry.2 = some held → held.accountId = orderId → held.listed = true → ¬ entry.1 = 0 :=
            fun held found owner => absurd owner (fresh.unowned entry.2 held found)
          simpa [same, atOwner, stored] using unowned
      · by_cases same : entry.2 = orderId
        · simp [same, atOwner, atOrder, stored, booked, rep.accounts, fresh.order, Ne.symm atOwner]
        · simp [same, atOwner, atOrder, stored, booked, rep.accounts]
  case noSet =>
    intro number
    simp [stored, booked, rep.noSet number]
  case owners => exact owners_inserted rep fresh

end MktSim
