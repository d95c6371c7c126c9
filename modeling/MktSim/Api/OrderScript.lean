import MktSim.Api.Types

set_option autoImplicit false

namespace MktSim

open Redis SortedSets

-- What the script relies on of its interpreter. Numbers are doubles: `number n` is the
-- number kept for an integer result n. `unpack` raises on a list longer than the limit.
structure Lua where
  number : Int → Int
  exact : ∀ n : Int, n.natAbs ≤ 2 ^ 53 → number n = n
  unpackLimit : Nat

def Lua.exactIntegers (unpackLimit : Nat) : Lua := ⟨id, fun _ _ => rfl, unpackLimit⟩

inductive ScriptError where
  | command (error : CommandError)
  | compareNil
  | badArgument
  | unpack
deriving DecidableEq, Repr

-- The store is not restored when a script raises: the state is kept beside an error.
abbrev Script (α : Type) := EStateM ScriptError Store α

def query {α : Type} (command : Store → Except CommandError α) : Script α := fun store =>
  match command store with
  | .ok result => .ok result store
  | .error error => .error (.command error) store

def update (command : Store → Except CommandError Store) : Script Unit := fun store =>
  match command store with
  | .ok next => .ok () next
  | .error error => .error (.command error) store

def tonumber : Option (Bulk Uuid) → Option Int
  | some (.int value) => some value
  | _ => none

structure Matching where
  size : Int
  completedOrderIds : List Uuid
  dollarVolumeFilled : Int

def matchCandidate (lua : Lua) (matchingOrderId : Uuid) (matchingOrderPrice : Int) (locals : Matching) :
    Script Matching := do
  let stored ← query (hget (.id matchingOrderId) .size)
  match tonumber stored with
  | none => throw .compareNil
  | some matchingSize =>
      if matchingSize > locals.size then
        update (hincrby (.id matchingOrderId) .size (-locals.size))
        return { locals with size := 0 }
      else
        return {
          size := locals.size - matchingSize
          completedOrderIds := locals.completedOrderIds ++ [matchingOrderId]
          dollarVolumeFilled :=
            lua.number (locals.dollarVolumeFilled + lua.number (matchingOrderPrice * matchingSize)) }

def matchCandidates (lua : Lua) : List (Int × Uuid) → Matching → Script Matching
  | [], locals => return locals
  | (matchingOrderPrice, matchingOrderId) :: rest, locals => do
      let locals ← matchCandidate lua matchingOrderId matchingOrderPrice locals
      if locals.size = 0 then return locals else matchCandidates lua rest locals

def collectCompleted : List Uuid → Script (List (Uuid × Hash Field Uuid))
  | [] => return []
  | orderId :: rest => do
      match ← query (hget (.id orderId) .accountId) with
      | none => throw .badArgument
      | some accountId =>
          update (zrem (.name accountId) [orderId])
          let order ← query (hgetall (.id orderId))
          let orders ← collectCompleted rest
          return (orderId, order) :: orders

def unpack (lua : Lua) (orderIds : List Uuid) : Script Unit :=
  if orderIds.length > lua.unpackLimit then throw .unpack else return

def removeCompleted (lua : Lua) (bookToMatch : Key) (completedOrderIds : List Uuid) : Script Unit := do
  if completedOrderIds.length > 0 then
    unpack lua completedOrderIds
    update (zrem bookToMatch completedOrderIds)
    unpack lua completedOrderIds
    update fun store => .ok (del (completedOrderIds.map Key.id) store)

def writeRemainder (keys : ScriptKeys) (bookToInsert : Key)
    (score price size originalSize dollarVolumeFilled : Int) : Script Unit := do
  update (zadd bookToInsert score keys.orderId)
  update (hset (.id keys.orderId) [
    (.accountId, .raw keys.accountId),
    (.assetId, .int keys.assetId.toInt),
    (.price, .int price),
    (.size, .int size),
    (.originalSize, .int originalSize),
    (.dollarVolumeFilled, .int dollarVolumeFilled)])
  update (zadd (.id keys.accountId) 0 keys.orderId)

def insertRemainder (keys : ScriptKeys) (orderType : OrderTag) (bookToInsert : Key)
    (score price size originalSize dollarVolumeFilled : Int) : Script Unit :=
  if orderType = .limit ∧ size > 0 then
    writeRemainder keys bookToInsert score price size originalSize dollarVolumeFilled
  else return

structure Selection where
  bookToMatch : Key
  bookToInsert : Key
  score : Int
  lower : Bound
  upper : Bound

def select (keys : ScriptKeys) (price : Int) : Book → Selection
  | .bids => ⟨keys.bookOffer, keys.bookBid, -price, .negInf, .score price⟩
  | .offers => ⟨keys.bookBid, keys.bookOffer, price, .score (-price), .posInf⟩

structure Reply where
  sharesFilled : Int
  dollarVolumeFilled : Int
  completedOrders : List (Uuid × Hash Field Uuid)

def orderLua (lua : Lua) (keys : ScriptKeys) (args : ScriptArgs) : Script Reply := do
  let originalSize := args.size
  let price := args.price.getD 0
  let chosen := select keys price args.side
  let candidates ← query (zrangeByScore chosen.bookToMatch chosen.lower chosen.upper)
  let locals ← matchCandidates lua candidates ⟨args.size, [], 0⟩
  let completedOrders ← collectCompleted locals.completedOrderIds
  removeCompleted lua chosen.bookToMatch locals.completedOrderIds
  insertRemainder keys args.orderType chosen.bookToInsert chosen.score price locals.size originalSize
    locals.dollarVolumeFilled
  return ⟨originalSize - locals.size, locals.dollarVolumeFilled, completedOrders⟩

theorem query_ok {α : Type} {command : Store → Except CommandError α} {store : Store} {result : α}
    (done : command store = .ok result) : query command store = .ok result store := by
  simp only [query, done]

theorem update_ok {command : Store → Except CommandError Store} {store next : Store}
    (done : command store = .ok next) : update command store = .ok () next := by
  simp only [update, done]

theorem bind_ok {α β : Type} {first : Script α} {rest : α → Script β} {store next : Store} {result : α}
    (done : first store = .ok result next) : (first >>= rest) store = rest result next := by
  change EStateM.bind first rest store = _
  simp only [EStateM.bind, done]

theorem bind_error {α β : Type} {first : Script α} {rest : α → Script β} {store next : Store}
    {error : ScriptError} (failed : first store = .error error next) :
    (first >>= rest) store = .error error next := by
  change EStateM.bind first rest store = _
  simp only [EStateM.bind, failed]

end MktSim
