import MktSim.Api.OrderScript
import MktSim.Lib.GreedyFill

set_option autoImplicit false

namespace MktSim

open Redis SortedSets Greedy

-- An order at rest. `listed` says that its account's set still names it, which
-- an execution that raised can have undone.
structure Resting where
  accountId : Uuid
  assetId : Int32
  side : Book
  price : Int32
  size : Nat
  originalSize : Nat
  dollarVolumeFilled : Int
  listed : Bool
  open_ : 0 < size
  within : size ≤ originalSize
  bounded : originalSize < 2 ^ 32
deriving DecidableEq

def sideScore (side : Book) (price : Int) : Int :=
  match side with
  | .bids => -price
  | .offers => price

def Resting.score (order : Resting) : Int := sideScore order.side order.price.toInt

def Resting.hash (order : Resting) : Hash Field Uuid
  | .accountId => some (.raw order.accountId)
  | .assetId => some (.int order.assetId.toInt)
  | .price => some (.int order.price.toInt)
  | .size => some (.int order.size)
  | .originalSize => some (.int order.originalSize)
  | .dollarVolumeFilled => some (.int order.dollarVolumeFilled)

def Resting.reduce (quantity : Nat) (order : Resting) : Resting :=
  if less : quantity < order.size then
    { order with
      size := order.size - quantity
      open_ := Nat.sub_pos_of_lt less
      within := (Nat.sub_le _ _).trans order.within }
  else order

def Resting.unlist (order : Resting) : Resting := { order with listed := false }

section Fields

variable (order : Resting) (quantity : Nat)

theorem reduce_field {α : Type} (field : Resting → α)
    (kept : ∀ size open_ within, field { order with size := size, open_ := open_, within := within } = field order) :
    field (order.reduce quantity) = field order := by
  by_cases less : quantity < order.size
  · rw [Resting.reduce, dif_pos less, kept]
  · rw [Resting.reduce, dif_neg less]

@[simp] theorem reduce_account : (order.reduce quantity).accountId = order.accountId :=
  reduce_field order quantity Resting.accountId fun _ _ _ => rfl

@[simp] theorem reduce_asset : (order.reduce quantity).assetId = order.assetId :=
  reduce_field order quantity Resting.assetId fun _ _ _ => rfl

@[simp] theorem reduce_side : (order.reduce quantity).side = order.side :=
  reduce_field order quantity Resting.side fun _ _ _ => rfl

@[simp] theorem reduce_price : (order.reduce quantity).price = order.price :=
  reduce_field order quantity Resting.price fun _ _ _ => rfl

@[simp] theorem reduce_original : (order.reduce quantity).originalSize = order.originalSize :=
  reduce_field order quantity Resting.originalSize fun _ _ _ => rfl

@[simp] theorem reduce_volume : (order.reduce quantity).dollarVolumeFilled = order.dollarVolumeFilled :=
  reduce_field order quantity Resting.dollarVolumeFilled fun _ _ _ => rfl

@[simp] theorem reduce_listed : (order.reduce quantity).listed = order.listed :=
  reduce_field order quantity Resting.listed fun _ _ _ => rfl

@[simp] theorem reduce_score : (order.reduce quantity).score = order.score := by simp [Resting.score]

theorem reduce_size (less : quantity < order.size) : (order.reduce quantity).size = order.size - quantity := by
  simp [Resting.reduce, less]

theorem reduce_hash (less : quantity < order.size) : (order.reduce quantity).hash =
    Function.update order.hash .size (some (.int (order.size - quantity : Int))) := by
  have cast : ((order.size - quantity : Nat) : Int) = order.size - quantity := Int.ofNat_sub (Nat.le_of_lt less)
  funext field
  cases field <;> simp [Resting.hash, reduce_size order quantity less, cast]

@[simp] theorem unlist_hash : order.unlist.hash = order.hash := by
  funext field
  cases field <;> rfl

@[simp] theorem unlist_score : order.unlist.score = order.score := rfl

end Fields

abbrev Table := Uuid → Option Resting

abbrev Lot := Uuid × Resting

def lotSize (lot : Lot) : Nat := lot.2.size

def lotEntry (lot : Lot) : Int × Uuid := (lot.2.score, lot.1)

-- The orders of one side of an asset's book whose score is in reach, in the
-- order of the book.
structure Queue (table : Table) (assetId : Int32) (side : Book) (reach : Int → Bool) (lots : List Lot) :
    Prop where
  mem : ∀ orderId order, (orderId, order) ∈ lots ↔
    table orderId = some order ∧ order.assetId = assetId ∧ order.side = side ∧ reach order.score = true
  ordered : lots.Pairwise fun a b => Before (lotEntry a) (lotEntry b)

theorem queue_nodup {table : Table} {assetId : Int32} {side : Book} {reach : Int → Bool} {lots : List Lot}
    (queue : Queue table assetId side reach lots) : lots.Nodup := by
  refine queue.ordered.imp ?_
  rintro a _ earlier rfl
  exact before_irrefl (lotEntry a) earlier

theorem queue_ids_nodup {table : Table} {assetId : Int32} {side : Book} {reach : Int → Bool} {lots : List Lot}
    (queue : Queue table assetId side reach lots) : (lots.map Prod.fst).Nodup := by
  apply List.Nodup.map_on _ (queue_nodup queue)
  rintro ⟨a, first⟩ inFirst ⟨b, second⟩ inSecond same
  obtain rfl : a = b := same
  have atFirst := ((queue.mem a first).mp inFirst).1
  have atSecond := ((queue.mem a second).mp inSecond).1
  rw [Option.some.inj (atFirst.symm.trans atSecond)]

theorem queue_unique {table : Table} {assetId : Int32} {side : Book} {reach : Int → Bool} {a b : List Lot}
    (first : Queue table assetId side reach a) (second : Queue table assetId side reach b) : a = b := by
  have irrefl : Std.Irrefl fun x y : Lot => Before (lotEntry x) (lotEntry y) := ⟨fun x => before_irrefl _⟩
  have antisymm : Std.Antisymm fun x y : Lot => Before (lotEntry x) (lotEntry y) :=
    ⟨fun x y before after => absurd (before_trans before after) (before_irrefl _)⟩
  exact first.ordered.eq_of_mem_iff second.ordered
    fun {lot} => (first.mem lot.1 lot.2).trans (second.mem lot.1 lot.2).symm

def lowest (book : Book) (price : Int) : Bound :=
  match book with
  | .bids => .negInf
  | .offers => .score (-price)

def highest (book : Book) (price : Int) : Bound :=
  match book with
  | .bids => .score price
  | .offers => .posInf

def reach (book : Book) (price : Int) (score : Int) : Bool := inRange (lowest book price) (highest book price) score

-- The sum the script accumulates, as its interpreter's numbers have it.
def volume (lua : Lua) (start : Int) (lots : List Lot) : Int :=
  lots.foldl (fun sum lot => lua.number (sum + lua.number (lot.2.score * lot.2.size))) start

def Table.take (table : Table) : Option (Lot × Nat) → Table
  | none => table
  | some ((orderId, order), quantity) => Function.update table orderId (some (order.reduce quantity))

def Table.unlist (table : Table) (orderIds : List Uuid) : Table := fun orderId =>
  if orderId ∈ orderIds then (table orderId).map Resting.unlist else table orderId

def Table.remove (table : Table) (orderIds : List Uuid) : Table := fun orderId =>
  if orderId ∈ orderIds then none else table orderId

@[simp] theorem unlist_nil (table : Table) : table.unlist [] = table := by
  funext orderId
  simp [Table.unlist]

@[simp] theorem remove_nil (table : Table) : table.remove [] = table := by
  funext orderId
  simp [Table.remove]

theorem unlist_cons {table : Table} {orderId : Uuid} {order : Resting} {rest : List Uuid}
    (present : table orderId = some order) (fresh : orderId ∉ rest) :
    table.unlist (orderId :: rest) = Table.unlist (Function.update table orderId (some order.unlist)) rest := by
  funext query
  by_cases same : query = orderId
  · subst query
    simp [Table.unlist, present, fresh]
  · simp [Table.unlist, same]

def Submission.resting (order : Submission) (remaining : Nat) (dollarVolumeFilled : Int) : Option Resting :=
  match order.form.orderType with
  | .market => none
  | .limit price =>
      if left : 0 < remaining ∧ remaining ≤ order.size then
        some {
          accountId := order.accountId
          assetId := order.assetId
          side := order.book
          price := price
          size := remaining
          originalSize := order.size
          dollarVolumeFilled := dollarVolumeFilled
          listed := true
          open_ := left.1
          within := left.2
          bounded := order.size_lt }
      else none

def Table.complete (lua : Lua) (order : Submission) (outcome : Fill Lot) (table : Table) : Table :=
  Function.update ((table.take outcome.reduced).remove (outcome.completed.map Prod.fst)) order.orderId
    (order.resting outcome.remaining (volume lua 0 outcome.completed))

-- An execution that raises has reduced a maker and dropped the completed orders from
-- their accounts' sets, and nothing else.
def Table.abandon (outcome : Fill Lot) (table : Table) : Table :=
  (table.take outcome.reduced).unlist (outcome.completed.map Prod.fst)

def completedOrders (outcome : Fill Lot) : List (Uuid × Hash Field Uuid) :=
  outcome.completed.map fun lot => (lot.1, lot.2.hash)

def Submission.fill (order : Submission) (lots : List Lot) : Fill Lot := Greedy.fill lotSize order.size lots

theorem fill_remaining (order : Submission) (lots : List Lot) :
    (order.fill lots).remaining = order.size - total lotSize lots := Greedy.remaining_eq lotSize order.size lots

theorem fill_remaining_le (order : Submission) (lots : List Lot) : (order.fill lots).remaining ≤ order.size := by
  rw [fill_remaining]
  exact Nat.sub_le _ _

inductive Effect (lua : Lua) (order : Submission) (table : Table) (lots : List Lot) :
    Except ScriptError Reply → Table → Prop where
  | complete (short : (order.fill lots).completed.length ≤ lua.unpackLimit) :
      Effect lua order table lots
        (.ok ⟨order.size - (order.fill lots).remaining, volume lua 0 (order.fill lots).completed,
          completedOrders (order.fill lots)⟩)
        (table.complete lua order (order.fill lots))
  | abandon (long : lua.unpackLimit < (order.fill lots).completed.length) :
      Effect lua order table lots (.error .unpack) (table.abandon (order.fill lots))

theorem take_origin {table : Table} {reduced : Option (Lot × Nat)}
    (present : ∀ lot quantity, reduced = some (lot, quantity) → table lot.1 = some lot.2) {orderId : Uuid}
    {order : Resting} (found : table.take reduced orderId = some order) :
    ∃ original, table orderId = some original ∧
      (order = original ∨ ∃ quantity, reduced = some ((orderId, original), quantity) ∧
        order = original.reduce quantity) := by
  rcases reduced with _ | ⟨⟨maker, original⟩, quantity⟩
  · exact ⟨order, found, .inl rfl⟩
  · by_cases same : orderId = maker
    · subst orderId
      have reducedOrder : original.reduce quantity = order := by simpa [Table.take] using found
      exact ⟨original, present _ quantity rfl, .inr ⟨quantity, rfl, reducedOrder.symm⟩⟩
    · have kept : table orderId = some order := by simpa [Table.take, same] using found
      exact ⟨order, kept, .inl rfl⟩

theorem take_none {table : Table} {reduced : Option (Lot × Nat)}
    (present : ∀ lot quantity, reduced = some (lot, quantity) → table lot.1 = some lot.2) {orderId : Uuid}
    (absent : table orderId = none) : table.take reduced orderId = none := by
  rcases found : table.take reduced orderId with _ | order
  · rfl
  · obtain ⟨original, there, _⟩ := take_origin present found
    rw [absent] at there
    cases there

theorem take_other {table : Table} {reduced : Option (Lot × Nat)} {orderId : Uuid}
    (untouched : ∀ lot quantity, reduced = some (lot, quantity) → lot.1 ≠ orderId) :
    table.take reduced orderId = table orderId := by
  rcases reduced with _ | ⟨⟨maker, original⟩, quantity⟩
  · rfl
  · exact Function.update_of_ne (untouched _ quantity rfl).symm _ _

theorem unlist_remove (table : Table) (orderIds : List Uuid) :
    (table.unlist orderIds).remove orderIds = table.remove orderIds := by
  funext orderId
  by_cases removed : orderId ∈ orderIds <;> simp [Table.remove, Table.unlist, removed]

theorem remove_some {table : Table} {orderIds : List Uuid} {orderId : Uuid} {order : Resting} :
    table.remove orderIds orderId = some order ↔ orderId ∉ orderIds ∧ table orderId = some order := by
  by_cases removed : orderId ∈ orderIds <;> simp [Table.remove, removed]

section Filled

variable {order : Submission} {table : Table} {assetId : Int32} {side : Book} {within : Int → Bool}
  {lots : List Lot} (queue : Queue table assetId side within lots)

include queue

theorem queue_present {lot : Lot} (member : lot ∈ lots) : table lot.1 = some lot.2 :=
  ((queue.mem lot.1 lot.2).mp member).1

theorem fill_reduced_present (order : Submission) (lot : Lot) (quantity : Nat)
    (partly : (order.fill lots).reduced = some (lot, quantity)) :
    table lot.1 = some lot.2 := queue_present queue (reduced_mem partly).1

theorem fill_reduced_apart {lot done : Lot} {quantity : Nat}
    (partly : (order.fill lots).reduced = some (lot, quantity)) (completed : done ∈ (order.fill lots).completed) :
    lot.1 ≠ done.1 := by
  obtain ⟨rest, split, next⟩ := completed_prefix lotSize order.size lots
  obtain ⟨tail, rfl, _⟩ := next lot quantity partly
  have distinct := queue_ids_nodup queue
  rw [split, List.map_append] at distinct
  have apart := (List.nodup_append'.mp distinct).2.2
  intro same
  exact apart (List.mem_map_of_mem completed) (by simp [same])

theorem fill_completed_kept {lot : Lot} (completed : lot ∈ (order.fill lots).completed) :
    table.take (order.fill lots).reduced lot.1 = some lot.2 := by
  rw [take_other fun maker quantity partly => fill_reduced_apart queue partly completed]
  exact queue_present queue (completed_subset completed)

theorem fill_completed_unlisted {orderId : Uuid}
    (completed : orderId ∈ (order.fill lots).completed.map Prod.fst) :
    ∃ held, (table.take (order.fill lots).reduced).unlist ((order.fill lots).completed.map Prod.fst) orderId = some held ∧
      held.assetId = assetId ∧ held.side = side ∧ held.listed = false := by
  obtain ⟨lot, member, rfl⟩ := List.mem_map.mp completed
  obtain ⟨_, asset, whichSide, _⟩ := (queue.mem lot.1 lot.2).mp (completed_subset member)
  refine ⟨lot.2.unlist, ?_, asset, whichSide, rfl⟩
  rw [Table.unlist, if_pos completed, fill_completed_kept queue member, Option.map_some]

theorem fill_ids_nodup : ((order.fill lots).completed.map Prod.fst).Nodup := by
  obtain ⟨rest, split, _⟩ := completed_prefix lotSize order.size lots
  have distinct := queue_ids_nodup queue
  rw [split, List.map_append] at distinct
  exact (List.nodup_append'.mp distinct).1

end Filled

end MktSim
