import MktSim.Lib.Scan
import MktSim.Api.Trades

set_option autoImplicit false

namespace MktSim

open Redis SortedSets

structure OrderBookEntry where
  accountId : Uuid
  assetId : Int32
  price : Int32
  size : UInt32
deriving DecidableEq

structure AnonymizedOrderBookEntry where
  price : Int32
  size : UInt32
deriving DecidableEq

structure CursorList (T : Type) where
  count : Nat
  items : List T
  cursor : Option Nat

inductive ListError where
  | command (error : CommandError)
  | decode
deriving DecidableEq

def int32FromRedisValue : Option (Bulk Uuid) → Option Int32
  | some (.int value) => if -2 ^ 31 ≤ value ∧ value < 2 ^ 31 then some (Int32.ofInt value) else none
  | _ => none

def uint32FromRedisValue : Option (Bulk Uuid) → Option UInt32
  | some (.int value) => if 0 ≤ value ∧ value < 2 ^ 32 then some (UInt32.ofNat value.toNat) else none
  | _ => none

def uuidFromRedisValue : Option (Bulk Uuid) → Option Uuid
  | some (.raw bytes) => some bytes
  | _ => none

def OrderBookEntry.fromRedisValue (fields : Hash Field Uuid) : Option OrderBookEntry := do
  let accountId ← uuidFromRedisValue (fields .accountId)
  let assetId ← int32FromRedisValue (fields .assetId)
  let price ← int32FromRedisValue (fields .price)
  let size ← uint32FromRedisValue (fields .size)
  return ⟨accountId, assetId, price, size⟩

def AnonymizedOrderBookEntry.fromRedisValue (fields : Option (Bulk Uuid) × Option (Bulk Uuid)) :
    Option AnonymizedOrderBookEntry := do
  let price ← int32FromRedisValue fields.1
  let size ← uint32FromRedisValue fields.2
  return ⟨price, size⟩

-- One bad entry makes the whole list an error.
def CursorList.fromRedisValue {V T : Type} (decode : V → Option T) (cursor : Nat) (values : List V) :
    Except ListError (CursorList T) :=
  match values.mapM decode with
  | none => .error .decode
  | some items => .ok ⟨items.length, items, if cursor > 0 then some cursor else none⟩

def readOrders {V : Type} (read : Uuid → Except CommandError V) : List Uuid → Except CommandError (List V)
  | [] => .ok []
  | orderId :: rest =>
      match read orderId with
      | .error error => .error error
      | .ok value =>
          match readOrders read rest with
          | .error error => .error error
          | .ok values => .ok (value :: values)

def scanOrders {V T : Type} (scan : Scan Uuid) (key : Key) (read : Uuid → Except CommandError V)
    (decode : V → Option T) (cursor : Option Nat) (store : Store) : Except ListError (CursorList T) :=
  match zscan scan key (cursor.getD 0) store with
  | .error error => .error (.command error)
  | .ok (next, orderIds) =>
      match readOrders read orderIds with
      | .error error => .error (.command error)
      | .ok values => CursorList.fromRedisValue decode next values

def hmgetPriceSize (store : Store) (orderId : Uuid) :
    Except CommandError (Option (Bulk Uuid) × Option (Bulk Uuid)) :=
  match hget (.id orderId) .price store, hget (.id orderId) .size store with
  | .ok price, .ok size => .ok (price, size)
  | .error error, _ => .error error
  | _, .error error => .error error

def listOrdersForAccount (scan : Scan Uuid) (accountId : Uuid) (cursor : Option Nat) (store : Store) :
    Except ListError (CursorList OrderBookEntry) :=
  scanOrders scan (.id accountId) (fun orderId => hgetall (.id orderId) store) OrderBookEntry.fromRedisValue cursor store

def getOrderBook (scan : Scan Uuid) (assetId : Int32) (book : Book) (cursor : Option Nat) (store : Store) :
    Except ListError (CursorList AnonymizedOrderBookEntry) :=
  scanOrders scan (.book assetId book) (hmgetPriceSize store) AnonymizedOrderBookEntry.fromRedisValue cursor store

inductive Listing {T : Type} (request : Option Nat → Except ListError (CursorList T)) :
    Option Nat → List T → Prop where
  | last (cursor : Option Nat) (reply : CursorList T) (answered : request cursor = .ok reply)
      (ended : reply.cursor = none) : Listing request cursor reply.items
  | more (cursor : Option Nat) (reply : CursorList T) (next : Nat) (rest : List T)
      (answered : request cursor = .ok reply) (open_ : reply.cursor = some next)
      (later : Listing request (some next) rest) : Listing request cursor (reply.items ++ rest)

theorem read_orders_map {V : Type} {read : Uuid → Except CommandError V} {value : Uuid → V} {orderIds : List Uuid}
    (reads : ∀ orderId ∈ orderIds, read orderId = .ok (value orderId)) :
    readOrders read orderIds = .ok (orderIds.map value) := by
  induction orderIds with
  | nil => rfl
  | cons orderId rest ih =>
      have first := reads orderId (by simp)
      have later := ih fun other member => reads other (by simp [member])
      simp only [readOrders, first, later, List.map_cons]

theorem map_m_of_some {V T : Type} {decode : V → Option T} {orderIds : List Uuid} {value : Uuid → V}
    {entry : Uuid → T} (decodes : ∀ orderId ∈ orderIds, decode (value orderId) = some (entry orderId)) :
    (orderIds.map value).mapM decode = some (orderIds.map entry) := by
  induction orderIds with
  | nil => rfl
  | cons orderId rest ih =>
      have first := decodes orderId (by simp)
      have later := ih fun other member => decodes other (by simp [member])
      simp only [List.map_cons, List.mapM_cons, first, later, Option.bind_eq_bind, Option.bind_some, Option.pure_def]

section Scanned

variable {V T : Type} (scan : Scan Uuid) {key : Key} {read : Uuid → Except CommandError V} {decode : V → Option T}
  {store : Store} (free : hashAt store key = none) {value : Uuid → V} {entry : Uuid → T}
  (reads : ∀ orderId ∈ (zsetAt store key).entries.map Prod.snd, read orderId = .ok (value orderId))
  (decodes : ∀ orderId ∈ (zsetAt store key).entries.map Prod.snd, decode (value orderId) = some (entry orderId))

include free reads decodes

theorem scan_orders_page (cursor : Option Nat) :
    scanOrders scan key read decode cursor store =
      .ok ⟨(scan.call (zsetAt store key) (cursor.getD 0)).2.length,
        (scan.call (zsetAt store key) (cursor.getD 0)).2.map entry,
        if (scan.call (zsetAt store key) (cursor.getD 0)).1 > 0 then
          some (scan.call (zsetAt store key) (cursor.getD 0)).1 else none⟩ := by
  have members := scan.members (zsetAt store key) (cursor.getD 0)
  have values := read_orders_map fun orderId inPage => reads orderId (members orderId inPage)
  have items := map_m_of_some fun orderId inPage => decodes orderId (members orderId inPage)
  rw [scanOrders, zscan_of_no_hash scan free]
  simp only [values, CursorList.fromRedisValue, items, List.length_map]

theorem listing_pages {cursor : Option Nat} {entries : List T}
    (listing : Listing (fun cursor => scanOrders scan key read decode cursor store) cursor entries) :
    ∃ pages, Pages (scan.call (zsetAt store key)) (cursor.getD 0) pages ∧ entries = pages.flatten.map entry := by
  induction listing with
  | last cursor reply answered ended =>
      rw [scan_orders_page scan free reads decodes] at answered
      obtain rfl := Except.ok.inj answered
      refine ⟨[(scan.call (zsetAt store key) (cursor.getD 0)).2], .last _ _ ?_, by simp⟩
      have zero : (scan.call (zsetAt store key) (cursor.getD 0)).1 = 0 := by
        by_contra positive
        simp [Nat.pos_of_ne_zero positive] at ended
      exact Prod.ext zero rfl
  | more cursor reply next rest answered open_ _ ih =>
      rw [scan_orders_page scan free reads decodes] at answered
      obtain rfl := Except.ok.inj answered
      obtain ⟨pages, later, rfl⟩ := ih
      have positive : (scan.call (zsetAt store key) (cursor.getD 0)).1 > 0 := by
        by_contra zero
        simp [zero] at open_
      have same : (scan.call (zsetAt store key) (cursor.getD 0)).1 = next := by simpa [positive] using open_
      refine ⟨(scan.call (zsetAt store key) (cursor.getD 0)).2 :: pages,
        .more _ next _ _ (same ▸ positive) (Prod.ext same rfl) later, by simp⟩

theorem listing_complete {entries : List T}
    (listing : Listing (fun cursor => scanOrders scan key read decode cursor store) none entries) (shown : T) :
    shown ∈ entries ↔ ∃ orderId ∈ (zsetAt store key).entries.map Prod.snd, entry orderId = shown := by
  obtain ⟨pages, read, rfl⟩ := listing_pages scan free reads decodes listing
  rw [List.mem_map]
  refine ⟨?_, ?_⟩
  · intro present
    obtain ⟨orderId, inPages, same⟩ := present
    exact ⟨orderId, pages_members scan read orderId inPages, same⟩
  · intro present
    obtain ⟨orderId, member, same⟩ := present
    exact ⟨orderId, scan.covers _ pages read orderId member, same⟩

end Scanned

end MktSim
