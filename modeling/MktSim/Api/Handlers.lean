import MktSim.Lib.DoubleEntry
import MktSim.Api.Listings

set_option autoImplicit false

namespace MktSim

open Redis DoubleEntry

inductive Status where
  | badRequest
  | unauthorized
  | forbidden
  | conflict
  | unprocessableEntity
  | internalServerError
deriving DecidableEq, Repr

-- How a call to a backing service ends. A call can be carried out and its answer still
-- not reach the handler, or not be understood by it.
inductive Call where
  | answered
  | lost
  | unanswered
deriving DecidableEq, Repr

-- What the handlers rely on outside this program: the interpreter of the script, and
-- the name-based identifier of an asset account.
structure Services where
  lua : Lua
  newV5 : Uuid → Int32 → Uuid

abbrev Accounts := Ledger Uuid

def tigerBeetle : Rules Uuid where
  reserved id := id.asU128.val = 0 || id.asU128.val = 2 ^ 128 - 1
  limit := 2 ^ 128

def fundsLedger : UInt32 := 0xffffffff

-- `price as u128`: a negative price is sign-extended.
def priceAsU128 (price : Int32) : Nat := (price.toInt % 2 ^ 128).toNat

def fundsAccount (accountId : Uuid) : AccountForm Uuid where
  id := accountId
  ledger := fundsLedger
  code := 1
  userData128 := accountId
  userData32 := 0
  creditsMustNotExceedDebits := true

def Services.assetAccount (services : Services) (accountId : Uuid) (assetId : Int32) : AccountForm Uuid where
  id := services.newV5 accountId assetId
  ledger := assetId.toUInt32
  code := 1
  userData128 := accountId
  userData32 := assetId.toUInt32
  creditsMustNotExceedDebits := true

-- The transfer that reserves what an order can cost. Market bids reserve nothing.
def Services.reservation (services : Services) (order : Submission) : Option (Transfer Uuid) :=
  match order.book with
  | .bids =>
      match order.form.orderType with
      | .market => none
      | .limit price => some {
          id := order.orderId
          debitAccountId := ADMIN_ACCOUNT_ID
          creditAccountId := order.accountId
          amount := order.size * priceAsU128 price % 2 ^ 128
          ledger := fundsLedger
          code := 1
          pending := true }
  | .offers => some {
      id := order.orderId
      debitAccountId := services.newV5 ADMIN_ACCOUNT_ID order.assetId
      creditAccountId := services.newV5 order.accountId order.assetId
      amount := order.size
      ledger := order.assetId.toUInt32
      code := 1
      pending := true }

theorem offer_reservation (services : Services) {order : Submission} (offer : order.book = .offers) :
    services.reservation order = some {
      id := order.orderId
      debitAccountId := services.newV5 ADMIN_ACCOUNT_ID order.assetId
      creditAccountId := services.newV5 order.accountId order.assetId
      amount := order.size
      ledger := order.assetId.toUInt32
      code := 1
      pending := true } := by
  rw [Services.reservation, offer]

-- A call as its caller sees it: `none` is an error that is not the service's own.
def perform {E S : Type} (call : Call) (operation : S → Except E S) (state : S) : Except (Option E) Unit × S :=
  match call, operation state with
  | .lost, _ => (.error none, state)
  | .answered, .ok next => (.ok (), next)
  | .answered, .error error => (.error (some error), state)
  | .unanswered, .ok next => (.error none, next)
  | .unanswered, .error _ => (.error none, state)

theorem perform_cases {E S : Type} (call : Call) (operation : S → Except E S) (state : S) :
    ((perform call operation state).2 = state ∧ ∃ error, (perform call operation state).1 = .error error) ∨
      operation state = .ok (perform call operation state).2 := by
  cases done : operation state with
  | ok next => cases call <;> simp [perform, done]
  | error error => cases call <;> simp [perform, done]

-- Creating an account that is there already is not an error.
def openAccount (call : Call) (form : AccountForm Uuid) (accounts : Accounts) : Except Status Unit × Accounts :=
  match perform call (createAccount tigerBeetle form) accounts with
  | (.ok (), next) => (.ok (), next)
  | (.error (some .exists_), next) => (.ok (), next)
  | (.error _, next) => (.error .internalServerError, next)

def bookTransfer (call : Call) (status : Status) (transfer : Transfer Uuid) (accounts : Accounts) :
    Except Status Unit × Accounts :=
  match perform call (createTransfer tigerBeetle transfer) accounts with
  | (.ok (), next) => (.ok (), next)
  | (.error _, next) => (.error status, next)

theorem open_account_ledger (call : Call) (form : AccountForm Uuid) (accounts : Accounts) :
    (openAccount call form accounts).2 = (perform call (createAccount tigerBeetle form) accounts).2 := by
  rw [openAccount]
  split <;> simp_all only

theorem book_transfer_ledger (call : Call) (status : Status) (transfer : Transfer Uuid) (accounts : Accounts) :
    (bookTransfer call status transfer accounts).2 = (perform call (createTransfer tigerBeetle transfer) accounts).2 := by
  rw [bookTransfer]
  split <;> simp_all only

theorem book_transfer_error {call : Call} {status : Status} {transfer : Transfer Uuid} {accounts : Accounts}
    {error : Option CreateTransferError}
    (failed : (perform call (createTransfer tigerBeetle transfer) accounts).1 = .error error) :
    (bookTransfer call status transfer accounts).1 = .error status := by
  rw [bookTransfer]
  split <;> simp_all

structure ReserveCalls where
  createAccounts : Call
  createTransfers : Call
deriving DecidableEq, Repr

def Services.openAssetAccount (services : Services) (call : Call) (order : Submission) (accounts : Accounts) :
    Except Status Unit × Accounts :=
  match order.book with
  | .bids => (.ok (), accounts)
  | .offers => openAccount call (services.assetAccount order.accountId order.assetId) accounts

def Services.reserve (services : Services) (calls : ReserveCalls) (order : Submission) (accounts : Accounts) :
    Except Status Unit × Accounts :=
  match services.openAssetAccount calls.createAccounts order accounts with
  | (.error status, opened) => (.error status, opened)
  | (.ok (), opened) =>
      match services.reservation order with
      | none => (.ok (), opened)
      | some transfer => bookTransfer calls.createTransfers .internalServerError transfer opened

theorem reserve_cases (services : Services) (calls : ReserveCalls) (order : Submission) (accounts : Accounts) :
    ((services.reserve calls order accounts).2 = (services.openAssetAccount calls.createAccounts order accounts).2 ∧
      ((services.reserve calls order accounts).1 = .ok () → services.reservation order = none)) ∨
    ∃ transfer, services.reservation order = some transfer ∧ services.reserve calls order accounts =
      bookTransfer calls.createTransfers .internalServerError transfer
        (services.openAssetAccount calls.createAccounts order accounts).2 := by
  rw [Services.reserve]
  cases services.openAssetAccount calls.createAccounts order accounts with
  | mk result opened =>
      cases result with
      | error status => exact .inl ⟨rfl, fun done => by cases done⟩
      | ok _ =>
          cases services.reservation order with
          | none => exact .inl ⟨rfl, fun _ => rfl⟩
          | some transfer => exact .inr ⟨transfer, rfl, rfl⟩

section Keeps

variable {Kept : Accounts → Prop} {accounts : Accounts} (holds : Kept accounts)

include holds

theorem open_account_keeps (call : Call) {form : AccountForm Uuid}
    (created : ∀ next, createAccount tigerBeetle form accounts = .ok next → Kept next) :
    Kept (openAccount call form accounts).2 := by
  rw [open_account_ledger]
  cases perform_cases call (createAccount tigerBeetle form) accounts with
  | inl kept =>
      rw [kept.1]
      exact holds
  | inr done => exact created _ done

theorem open_asset_account_keeps (services : Services) (call : Call) (order : Submission)
    (created : ∀ next, createAccount tigerBeetle (services.assetAccount order.accountId order.assetId) accounts = .ok next →
      Kept next) : Kept (services.openAssetAccount call order accounts).2 := by
  cases book : order.book with
  | bids => simpa only [Services.openAssetAccount, book] using holds
  | offers =>
      simp only [Services.openAssetAccount, book]
      exact open_account_keeps holds call created

theorem book_transfer_keeps (call : Call) (status : Status) {transfer : Transfer Uuid}
    (booked : ∀ next, createTransfer tigerBeetle transfer accounts = .ok next → Kept next) :
    Kept (bookTransfer call status transfer accounts).2 := by
  rw [book_transfer_ledger]
  cases perform_cases call (createTransfer tigerBeetle transfer) accounts with
  | inl kept =>
      rw [kept.1]
      exact holds
  | inr done => exact booked _ done

theorem reserve_keeps (services : Services) (calls : ReserveCalls) (order : Submission)
    (created : ∀ next, createAccount tigerBeetle (services.assetAccount order.accountId order.assetId) accounts = .ok next →
      Kept next)
    (booked : ∀ transfer, services.reservation order = some transfer → ∀ accounts next, Kept accounts →
      createTransfer tigerBeetle transfer accounts = .ok next → Kept next) :
    Kept (services.reserve calls order accounts).2 := by
  have opening := open_asset_account_keeps holds services calls.createAccounts order created
  cases reserve_cases services calls order accounts with
  | inl opened =>
      rw [opened.1]
      exact opening
  | inr asked =>
      obtain ⟨transfer, reserved, same⟩ := asked
      rw [same]
      exact book_transfer_keeps opening calls.createTransfers .internalServerError fun next =>
        booked transfer reserved _ next opening

end Keeps

-- The script's reply as the handler decodes it. Integers are truncated to `i32`.
def decodeReply (reply : Reply) : Option (Int32 × Int32 × List (Uuid × OrderBookEntry)) := do
  let orders ← reply.completedOrders.mapM fun entry =>
    (OrderBookEntry.fromRedisValue entry.2).map fun order => (entry.1, order)
  return (Int32.ofInt reply.sharesFilled, Int32.ofInt reply.dollarVolumeFilled, orders)

def Services.runScript (services : Services) (call : Call) (order : Submission) (store : Store) :
    Except Status (Int32 × Int32) × Store :=
  match call with
  | .lost => (.error .internalServerError, store)
  | .unanswered => (.error .internalServerError, (execute services.lua order store).2)
  | .answered =>
      match execute services.lua order store with
      | (.error _, next) => (.error .internalServerError, next)
      | (.ok reply, next) =>
          match decodeReply reply with
          | none => (.error .internalServerError, next)
          | some (sharesFilled, dollarVolume, _) => (.ok (sharesFilled, dollarVolume), next)

theorem run_script_store (services : Services) (script : Call) (order : Submission) (store : Store)
    (asked : script ≠ .lost) : (services.runScript script order store).2 = (execute services.lua order store).2 := by
  cases script with
  | lost => exact absurd rfl asked
  | unanswered => rfl
  | answered =>
      cases ran : execute services.lua order store with
      | mk outcome next =>
          cases outcome with
          | error error => simp only [Services.runScript, ran]
          | ok reply =>
              simp only [Services.runScript, ran]
              cases decodeReply reply with
              | none => rfl
              | some decoded => rfl

structure Submitted where
  result : Except Status (Int32 × Int32)
  accounts : Accounts
  store : Store

def Services.submitOrdersForAccount (services : Services) (calls : ReserveCalls) (script : Call)
    (order : Submission) (accounts : Accounts) (store : Store) : Submitted :=
  match services.reserve calls order accounts with
  | (.error status, reserved) => ⟨.error status, reserved, store⟩
  | (.ok (), reserved) =>
      let answer := services.runScript script order store
      ⟨answer.1, reserved, answer.2⟩

-- The part of `register` that creates the funds account of a new user.
def register (call : Call) (accountId : Uuid) (accounts : Accounts) : Except Status Unit × Accounts :=
  openAccount call (fundsAccount accountId) accounts

inductive TxType where
  | deposit
  | withdraw
deriving DecidableEq, Repr

structure BalanceForm where
  amount : Fin (2 ^ 128)
  type : TxType
deriving DecidableEq, Repr

def balanceTransfer (transferId accountId : Uuid) (form : BalanceForm) : Transfer Uuid :=
  let sides := match form.type with
    | .deposit => (accountId, ADMIN_ACCOUNT_ID)
    | .withdraw => (ADMIN_ACCOUNT_ID, accountId)
  { id := transferId
    debitAccountId := sides.1
    creditAccountId := sides.2
    amount := form.amount.val
    ledger := fundsLedger
    code := 1
    pending := false }

def depositOrWithdraw (call : Call) (transferId accountId : Uuid) (form : BalanceForm) (accounts : Accounts) :
    Except Status Unit × Accounts :=
  bookTransfer call .badRequest (balanceTransfer transferId accountId form) accounts

def localServices : Services where
  lua := .exactIntegers 7999
  newV5 accountId assetId :=
    if accountId = ADMIN_ACCOUNT_ID ∧ assetId = 1 then ⟨⟨0x9072c2843ccd5220a5c4c80bb4d2c6e8, by decide⟩⟩
    else if accountId = ⟨1⟩ ∧ assetId = 1 then ⟨⟨0x4a213f6dd21f51b6bfb7b42c31a986f2, by decide⟩⟩
    else if accountId = ⟨2⟩ ∧ assetId = 1 then ⟨⟨0xa7157d8bb1355655bb8b102913a40137, by decide⟩⟩
    else accountId

def noAccounts : Accounts := ⟨fun _ => none, []⟩

-- User 1 has deposited 100, and user 2 holds 50 shares of asset 1.
def seededAccounts : Accounts where
  accounts id := List.find? (fun account => account.form.id = id) [
    ⟨{ fundsAccount ADMIN_ACCOUNT_ID with creditsMustNotExceedDebits := false }, ⟨0, 0, 0, 100⟩⟩,
    ⟨fundsAccount ⟨1⟩, ⟨0, 100, 0, 0⟩⟩,
    ⟨{ localServices.assetAccount ADMIN_ACCOUNT_ID 1 with creditsMustNotExceedDebits := false }, ⟨0, 0, 0, 50⟩⟩,
    ⟨localServices.assetAccount ⟨2⟩ 1, ⟨0, 50, 0, 0⟩⟩]
  transfers := []

end MktSim
