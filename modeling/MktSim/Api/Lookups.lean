import MktSim.Api.Assets
import MktSim.Api.Users

set_option autoImplicit false

namespace MktSim

open Sql

inductive LookupStatus where
  | notFound
  | internalServerError
deriving DecidableEq, Repr

-- `List<T>`, which sends the number of its items along.
structure ItemList (T : Type) where
  count : Nat
  items : List T
deriving DecidableEq

def ItemList.ofVec {T : Type} (items : List T) : ItemList T := ⟨items.length, items⟩

def firstRow {Row : Type} (call : Call) (found : Option Row) : Except LookupStatus Row :=
  match call, found with
  | .answered, some row => .ok row
  | .answered, none => .error .notFound
  | _, _ => .error .internalServerError

def allRows {Row : Type} (call : Call) (rows : List Row) : Except LookupStatus (ItemList Row) :=
  match call with
  | .answered => .ok (.ofVec rows)
  | _ => .error .internalServerError

theorem first_row_ok {Row : Type} {call : Call} {found : Option Row} {row : Row} :
    firstRow call found = .ok row ↔ call = .answered ∧ found = some row := by
  cases call <;> cases found <;> simp [firstRow]

-- A row as it is read: flags that are no role are dropped.
def User.fromSql (user : User) : User := { user with roleFlags := .fromBitsTruncate user.roleFlags.bits }

structure AccountBody where
  id : Uuid
  email : String
  roles : Roles
deriving DecidableEq

def User.serialize (user : User) : AccountBody := ⟨user.id, user.email, user.roleFlags⟩

def getAccountById (call : Call) (accountId : Uuid) (table : Users) : Except LookupStatus AccountBody :=
  (firstRow call (table.find accountId)).map fun user => user.fromSql.serialize

def listAccounts (call : Call) (table : Users) : Except LookupStatus (ItemList AccountBody) :=
  allRows call (table.rows.map fun user => user.fromSql.serialize)

def listEquities (call : Call) (assets : Assets) : Except LookupStatus (ItemList Equity) := allRows call assets.equity.rows

def getEquityById (call : Call) (assetId : Int32) (assets : Assets) : Except LookupStatus Equity :=
  firstRow call (assets.equity.find assetId)

def getEquityByTicker (call : Call) (ticker : String) (assets : Assets) : Except LookupStatus Equity :=
  firstRow call (assets.equity.findKey ticker)

def listEquityOptionsByUnderlyingId (call : Call) (assetId : Int32) (assets : Assets) :
    Except LookupStatus (ItemList EquityOption) :=
  allRows call (assets.option.rows.filter fun option => option.underlying = assetId)

-- An option comes once for every equity it joins with.
def listEquityOptionsByUnderlyingTicker (call : Call) (ticker : String) (assets : Assets) :
    Except LookupStatus (ItemList EquityOption) :=
  allRows call (assets.option.rows.flatMap fun option =>
    (assets.equity.rows.filter fun row => row.id = option.underlying ∧ row.ticker = ticker).map fun _ => option)

def decimal (digits : List Char) : Option Nat :=
  if digits = [] then none
  else digits.foldlM (fun value digit => if digit.isDigit then some (10 * value + (digit.toNat - '0'.toNat)) else none) 0

-- `i32::from_str`.
def parseI32 (text : String) : Option Int32 :=
  match text.toList with
  | '-' :: digits => (decimal digits).bind fun value => if value ≤ 2 ^ 31 then some (.ofInt (-value)) else none
  | '+' :: digits => (decimal digits).bind fun value => if value < 2 ^ 31 then some (.ofNat value) else none
  | digits => (decimal digits).bind fun value => if value < 2 ^ 31 then some (.ofNat value) else none

-- One path serves identifiers and tickers: the route of the identifiers has the lower rank and is tried first.
def getEquity (call : Call) (segment : String) (assets : Assets) : Except LookupStatus Equity :=
  match parseI32 segment with
  | some assetId => getEquityById call assetId assets
  | none => getEquityByTicker call segment assets

def listEquityOptions (call : Call) (segment : String) (assets : Assets) : Except LookupStatus (ItemList EquityOption) :=
  match parseI32 segment with
  | some assetId => listEquityOptionsByUnderlyingId call assetId assets
  | none => listEquityOptionsByUnderlyingTicker call segment assets

example : [parseI32 "12", parseI32 "-2147483648", parseI32 "2147483648", parseI32 "ACME", parseI32 "-"] =
    [some 12, some (-2147483648), none, none, none] := by decide +kernel

theorem get_account_iff {call : Call} {accountId : Uuid} {table : Users} {body : AccountBody} :
    getAccountById call accountId table = .ok body ↔
      call = .answered ∧ ∃ user ∈ table.rows, user.id = accountId ∧ user.fromSql.serialize = body := by
  rw [getAccountById]
  constructor
  · intro answered
    cases first : firstRow call (table.find accountId) with
    | error status =>
        rw [first] at answered
        cases answered
    | ok user =>
        rw [first] at answered
        obtain ⟨asked, found⟩ := first_row_ok.mp first
        obtain ⟨member, own⟩ := (find_iff accountId).mp found
        exact ⟨asked, user, member, own, Except.ok.inj answered⟩
  · intro known
    rcases known with ⟨asked, user, member, own, rfl⟩
    rw [first_row_ok.mpr ⟨asked, (find_iff accountId).mpr ⟨member, own⟩⟩]
    rfl

theorem get_equity_iff {call : Call} {assetId : Int32} {assets : Assets} {row : Equity} :
    getEquityById call assetId assets = .ok row ↔ call = .answered ∧ row ∈ assets.equity.rows ∧ row.id = assetId := by
  rw [getEquityById, first_row_ok, find_iff]
  rfl

theorem get_ticker_iff {call : Call} {ticker : String} {assets : Assets} {row : Equity} :
    getEquityByTicker call ticker assets = .ok row ↔ call = .answered ∧ row ∈ assets.equity.rows ∧ row.ticker = ticker := by
  rw [getEquityByTicker, first_row_ok, find_key_iff]
  rfl

end MktSim
