import MktSim.Api.Handlers
import MktSim.Lib.Rows

set_option autoImplicit false

namespace MktSim

open Sql

structure Equity where
  id : Int32
  ticker : String
  description : Option String
deriving DecidableEq

inductive ContractType where
  | call
  | put
deriving DecidableEq, Repr

-- The expiration date as a number of days, the strike price in mills.
structure EquityOption where
  id : Int32
  underlying : Int32
  expirationDate : Int
  contractType : ContractType
  strikePrice : Int32
deriving DecidableEq

structure CreateEquityForm where
  ticker : String
  description : Option String
deriving DecidableEq

structure CreateEquityOptionItem where
  underlying : Int32
  expirationDate : Int
  contractType : ContractType
  strikePrice : Int32
deriving DecidableEq

def CreateEquityForm.row (id : Int32) (form : CreateEquityForm) : Equity := ⟨id, form.ticker, form.description⟩

def CreateEquityOptionItem.row (id : Int32) (item : CreateEquityOptionItem) : EquityOption :=
  ⟨id, item.underlying, item.expirationDate, item.contractType, item.strikePrice⟩

def equities : Schema Equity Int32 String := ⟨Equity.id, Equity.ticker⟩

def equityOptions : Schema EquityOption Int32 (Int32 × Int × ContractType × Int32) where
  id := EquityOption.id
  key option := (option.underlying, option.expirationDate, option.contractType, option.strikePrice)

-- Both tables of assets draw their identifiers from one sequence.
structure Assets where
  equity : Rows equities
  option : Rows equityOptions
  assetId : Nat

def Assets.start : Assets := ⟨.empty, .empty, 1⟩

def Assets.Lists (assets : Assets) (assetId : Int32) : Prop :=
  (∃ row ∈ assets.equity.rows, row.id = assetId) ∨ ∃ row ∈ assets.option.rows, row.id = assetId

instance (assets : Assets) (assetId : Int32) : Decidable (assets.Lists assetId) :=
  inferInstanceAs (Decidable (_ ∨ _))

-- `nextval('asset_id')` in an INTEGER column.
def assetIdInteger (assetId : Nat) : Option Int32 := if assetId < 2 ^ 31 then some (.ofNat assetId) else none

section Insert

variable {Row Key Form : Type} [DecidableEq Key] {schema : Schema Row Int32 Key}

-- The rows of one statement, as long as none fails. What was drawn from the sequence stays drawn.
def insertEach (row : Int32 → Form → Row) : List Form → Nat → Rows schema →
    Except InsertError (List Row × Rows schema) × Nat
  | [], assetId, table => (.ok ([], table), assetId)
  | form :: rest, assetId, table =>
      match assetIdInteger assetId with
      | none => (.error .outOfRange, assetId + 1)
      | some id =>
          match table.insert (row id form) with
          | .error violation => (.error violation, assetId + 1)
          | .ok inserted =>
              match insertEach row rest (assetId + 1) inserted with
              | (.ok (made, after), next) => (.ok (row id form :: made, after), next)
              | (.error violation, next) => (.error violation, next)

-- References are checked at the end of the statement.
def insertRows (row : Int32 → Form → Row) (refers : Row → Bool) (forms : List Form) (assetId : Nat) (table : Rows schema) :
    Except InsertError (List Row × Rows schema) × Nat :=
  match insertEach row forms assetId table with
  | (.error violation, next) => (.error violation, next)
  | (.ok (made, after), next) =>
      if made.all refers then (.ok (made, after), next) else (.error .foreignKeyViolation, next)

end Insert

def answerOf {α : Type} (call : Call) (statusOf : InsertError → Status) (result : Except InsertError α) : Except Status α :=
  match call, result with
  | .answered, .ok made => .ok made
  | .answered, .error violation => .error (statusOf violation)
  | _, _ => .error .internalServerError

def equityStatus : InsertError → Status
  | .uniqueViolation => .conflict
  | _ => .internalServerError

def equityOptionStatus : InsertError → Status
  | .uniqueViolation => .conflict
  | .foreignKeyViolation => .unprocessableEntity
  | .outOfRange => .internalServerError

def createEquities (call : Call) (items : List CreateEquityForm) (assets : Assets) : Except Status (List Equity) × Assets :=
  if call = .lost then (.error .internalServerError, assets)
  else match insertRows CreateEquityForm.row (fun _ => true) items assets.assetId assets.equity with
    | (.ok (made, table), next) => (answerOf call equityStatus (.ok made), { assets with equity := table, assetId := next })
    | (.error violation, next) => (answerOf call equityStatus (.error violation), { assets with assetId := next })

def Assets.refers (assets : Assets) (option : EquityOption) : Bool :=
  assets.equity.rows.any fun row => row.id = option.underlying

def createEquityOptions (call : Call) (items : List CreateEquityOptionItem) (assets : Assets) :
    Except Status (List EquityOption) × Assets :=
  if call = .lost then (.error .internalServerError, assets)
  else match insertRows CreateEquityOptionItem.row assets.refers items assets.assetId assets.option with
    | (.ok (made, table), next) => (answerOf call equityOptionStatus (.ok made), { assets with option := table, assetId := next })
    | (.error violation, next) => (answerOf call equityOptionStatus (.error violation), { assets with assetId := next })

theorem asset_id_positive {assetId : Nat} {id : Int32} (positive : 0 < assetId) (drawn : assetIdInteger assetId = some id) :
    0 < id.toInt := by
  rw [assetIdInteger] at drawn
  split at drawn
  · rename_i within
    obtain rfl := Option.some.inj drawn
    rw [Int32.toInt_ofNat_of_lt within]
    omega
  · cases drawn

section Inserted

variable {Row Key Form : Type} [DecidableEq Key] {schema : Schema Row Int32 Key} {row : Int32 → Form → Row}

theorem insert_each_next (forms : List Form) (assetId : Nat) (table : Rows schema) :
    assetId ≤ (insertEach row forms assetId table).2 := by
  induction forms generalizing assetId table with
  | nil => exact Nat.le_refl _
  | cons form rest ih =>
      rw [insertEach]
      cases drawn : assetIdInteger assetId with
      | none => exact Nat.le_succ _
      | some id =>
          simp only
          cases inserted : table.insert (row id form) with
          | error violation => exact Nat.le_succ _
          | ok next =>
              have later := ih (assetId + 1) next
              simp only
              cases others : insertEach row rest (assetId + 1) next with
              | mk result last =>
                  rw [others] at later
                  cases result with
                  | error violation => exact (Nat.le_succ _).trans later
                  | ok made => exact (Nat.le_succ _).trans later

theorem insert_each_made (own : ∀ id form, schema.id (row id form) = id) {forms : List Form} {assetId last : Nat}
    {table after : Rows schema} {made : List Row} (positive : 0 < assetId)
    (done : insertEach row forms assetId table = (.ok (made, after), last)) :
    after.rows = table.rows ++ made ∧ ∀ item ∈ made, 0 < (schema.id item).toInt := by
  induction forms generalizing assetId table made with
  | nil =>
      cases done
      exact ⟨(List.append_nil _).symm, fun item member => by cases member⟩
  | cons form rest ih =>
      rw [insertEach] at done
      cases drawn : assetIdInteger assetId with
      | none =>
          rw [drawn] at done
          cases done
      | some id =>
          rw [drawn] at done
          simp only at done
          cases inserted : table.insert (row id form) with
          | error violation =>
              rw [inserted] at done
              cases done
          | ok next =>
              rw [inserted] at done
              simp only at done
              cases others : insertEach row rest (assetId + 1) next with
              | mk result last =>
                  rw [others] at done
                  cases result with
                  | error violation => cases done
                  | ok pair =>
                      cases done
                      obtain ⟨rows, ids⟩ := ih (Nat.succ_pos _) others
                      rw [rows, insert_rows inserted, List.append_assoc]
                      refine ⟨rfl, fun item member => ?_⟩
                      cases List.mem_cons.mp member with
                      | inl first =>
                          rw [first, own]
                          exact asset_id_positive positive drawn
                      | inr later => exact ids item later

theorem insert_rows_next (refers : Row → Bool) (forms : List Form) (assetId : Nat) (table : Rows schema) :
    assetId ≤ (insertRows row refers forms assetId table).2 := by
  have within := @insert_each_next _ _ _ _ schema row forms assetId table
  rw [insertRows]
  cases each : insertEach row forms assetId table with
  | mk result next =>
      rw [each] at within
      cases result with
      | error violation => exact within
      | ok made =>
          simp only
          split
          · exact within
          · exact within

theorem insert_rows_made (own : ∀ id form, schema.id (row id form) = id) {refers : Row → Bool} {forms : List Form}
    {assetId last : Nat} {table after : Rows schema} {made : List Row} (positive : 0 < assetId)
    (done : insertRows row refers forms assetId table = (.ok (made, after), last)) :
    table.rows ⊆ after.rows ∧
      ∀ item ∈ after.rows, item ∈ table.rows ∨ (0 < (schema.id item).toInt ∧ refers item = true) := by
  rw [insertRows] at done
  cases each : insertEach row forms assetId table with
  | mk result next =>
      rw [each] at done
      cases result with
      | error violation => cases done
      | ok pair =>
          simp only at done
          split at done
          · rename_i all
            cases done
            obtain ⟨rows, ids⟩ := insert_each_made own positive each
            rw [rows]
            refine ⟨List.subset_append_left _ _, fun item member => ?_⟩
            cases List.mem_append.mp member with
            | inl old => exact .inl old
            | inr new => exact .inr ⟨ids item new, List.all_eq_true.mp all item new⟩
          · cases done

end Inserted

structure WellListed (assets : Assets) : Prop where
  next : 0 < assets.assetId
  ids : ∀ assetId, assets.Lists assetId → 0 < assetId.toInt
  underlying : ∀ option ∈ assets.option.rows, ∃ row ∈ assets.equity.rows, row.id = option.underlying

def Grows (before after : Assets) : Prop :=
  before.equity.rows ⊆ after.equity.rows ∧ before.option.rows ⊆ after.option.rows

theorem grows_lists {before after : Assets} (grows : Grows before after) {assetId : Int32} (listed : before.Lists assetId) :
    after.Lists assetId := by
  obtain ⟨row, member, same⟩ | ⟨row, member, same⟩ := listed
  · exact .inl ⟨row, grows.1 member, same⟩
  · exact .inr ⟨row, grows.2 member, same⟩

theorem start_well_listed : WellListed .start where
  next := Nat.one_pos
  ids assetId listed := by
    obtain ⟨row, member, _⟩ | ⟨row, member, _⟩ := listed <;> cases member
  underlying option member := by cases member

section Kept

variable {assets : Assets} (holds : WellListed assets)

include holds

theorem drawn_well_listed {next : Nat} (later : assets.assetId ≤ next) : WellListed { assets with assetId := next } :=
  ⟨holds.next.trans_le later, holds.ids, holds.underlying⟩

theorem create_equities_kept (call : Call) (items : List CreateEquityForm) :
    WellListed (createEquities call items assets).2 ∧ Grows assets (createEquities call items assets).2 := by
  have still : Grows assets assets := ⟨fun _ member => member, fun _ member => member⟩
  rw [createEquities]
  split
  · exact ⟨holds, still⟩
  · have later := @insert_rows_next _ _ _ _ equities CreateEquityForm.row (fun _ => true) items assets.assetId assets.equity
    cases inserted : insertRows CreateEquityForm.row (fun _ => true) items assets.assetId assets.equity with
    | mk result next =>
        rw [inserted] at later
        cases result with
        | error violation => exact ⟨drawn_well_listed holds later, still⟩
        | ok pair =>
            obtain ⟨more, made⟩ := insert_rows_made (fun _ _ => rfl) holds.next inserted
            refine ⟨⟨holds.next.trans_le later, fun assetId listed => ?_, fun option member => ?_⟩, more, fun _ member => member⟩
            · obtain ⟨row, member, same⟩ | derived := listed
              · cases made row member with
                | inl old => exact holds.ids assetId (.inl ⟨row, old, same⟩)
                | inr new =>
                    rw [← same]
                    exact new.1
              · exact holds.ids assetId (.inr derived)
            · obtain ⟨row, known, same⟩ := holds.underlying option member
              exact ⟨row, more known, same⟩

theorem create_equity_options_kept (call : Call) (items : List CreateEquityOptionItem) :
    WellListed (createEquityOptions call items assets).2 ∧ Grows assets (createEquityOptions call items assets).2 := by
  have still : Grows assets assets := ⟨fun _ member => member, fun _ member => member⟩
  rw [createEquityOptions]
  split
  · exact ⟨holds, still⟩
  · have later := @insert_rows_next _ _ _ _ equityOptions CreateEquityOptionItem.row assets.refers items assets.assetId assets.option
    cases inserted : insertRows CreateEquityOptionItem.row assets.refers items assets.assetId assets.option with
    | mk result next =>
        rw [inserted] at later
        cases result with
        | error violation => exact ⟨drawn_well_listed holds later, still⟩
        | ok pair =>
            obtain ⟨more, made⟩ := insert_rows_made (fun _ _ => rfl) holds.next inserted
            refine ⟨⟨holds.next.trans_le later, fun assetId listed => ?_, fun option member => ?_⟩, fun _ member => member, more⟩
            · obtain equity | ⟨row, member, same⟩ := listed
              · exact holds.ids assetId (.inl equity)
              · cases made row member with
                | inl old => exact holds.ids assetId (.inr ⟨row, old, same⟩)
                | inr new =>
                    rw [← same]
                    exact new.1
            · cases made option member with
              | inl old => exact holds.underlying option old
              | inr new =>
                  obtain ⟨row, known, same⟩ := List.any_eq_true.mp new.2
                  exact ⟨row, known, of_decide_eq_true same⟩

end Kept

end MktSim
