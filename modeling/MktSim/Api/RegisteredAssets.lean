import MktSim.Api.Assets
import MktSim.Api.BookView
import MktSim.Api.Exchange

set_option autoImplicit false

namespace MktSim

open Redis Runs DoubleEntry Sql

-- The registry of assets beside the exchange. No request reads both.
structure Market where
  assets : Assets
  exchange : Exchange

inductive MarketEvent where
  | createEquities (call : Call) (items : List CreateEquityForm)
  | createEquityOptions (call : Call) (items : List CreateEquityOptionItem)
  | exchange (event : ExchangeEvent)
deriving DecidableEq

def Market.start (clock : Nat) (accounts : Accounts) : Market := ⟨.start, .start clock accounts⟩

def Market.step (services : Services) (market : Market) : MarketEvent → Option Market
  | .createEquities call items => some { market with assets := (createEquities call items market.assets).2 }
  | .createEquityOptions call items => some { market with assets := (createEquityOptions call items market.assets).2 }
  | .exchange event => do
      let exchange ← market.exchange.step services event
      return { market with exchange := exchange }

def MarketRun (services : Services) (clock : Nat) (accounts : Accounts) : List MarketEvent → Market → Prop :=
  Trace (Market.start clock accounts) fun _ before event after => before.step services event = some after

def NamesRegistered (market : Market) : MarketEvent → Prop
  | .exchange (.receive order) => market.assets.Lists order.assetId
  | _ => True

instance (market : Market) (event : MarketEvent) : Decidable (NamesRegistered market event) := by
  unfold NamesRegistered
  split <;> infer_instance

def RegisteredRun (services : Services) (clock : Nat) (accounts : Accounts) : List MarketEvent → Market → Prop :=
  Trace (Market.start clock accounts) fun _ before event after =>
    NamesRegistered before event ∧ before.step services event = some after

def Services.IsAssetForm (services : Services) (form : AccountForm Uuid) : Prop :=
  ∃ accountId assetId, form = services.assetAccount accountId assetId

def Services.OnListed (services : Services) (assets : Assets) (form : AccountForm Uuid) : Prop :=
  services.IsAssetForm form → ∃ assetId, assets.Lists assetId ∧ form.ledger = assetId.toUInt32

structure RecordsRegistered (services : Services) (market : Market) : Prop where
  orders : ∀ orderId, hashAt market.exchange.store (.id orderId) ≠ none →
    ∃ assetId, market.assets.Lists assetId ∧ storedNumber market.exchange.store orderId .assetId = some assetId.toInt
  accounts : FormsWithin (services.OnListed market.assets) market.exchange.accounts
  apart : FormsWithin (fun form => services.IsAssetForm form → form.ledger ≠ fundsLedger) market.exchange.accounts

section Forms

variable {services : Services}

theorem funds_no_asset (accountId : Uuid) : ¬ services.IsAssetForm (fundsAccount accountId) := by
  rintro ⟨owner, assetId, same⟩
  have ledger := congrArg AccountForm.ledger same
  have userData := congrArg AccountForm.userData32 same
  change fundsLedger = assetId.toUInt32 at ledger
  change (0 : UInt32) = assetId.toUInt32 at userData
  rw [← ledger] at userData
  cases userData

theorem cash_ledger_negative {assetId : Int32} (cash : assetId.toUInt32 = fundsLedger) : assetId.toInt < 0 := by
  have whole := congrArg UInt32.toInt32 cash
  rw [Int32.toInt32_toUInt32] at whole
  rw [whole]
  decide

theorem on_listed_grows {before after : Assets} (grows : Grows before after) {form : AccountForm Uuid}
    (listed : services.OnListed before form) : services.OnListed after form := by
  intro asset
  obtain ⟨assetId, known, ledger⟩ := listed asset
  exact ⟨assetId, grows_lists grows known, ledger⟩

section Kind

variable {kind : AccountForm Uuid → Prop} {accounts : Accounts} (within : FormsWithin kind accounts)

include within

theorem open_account_forms (call : Call) {form : AccountForm Uuid} (own : kind form) :
    FormsWithin kind (openAccount call form accounts).2 :=
  open_account_keeps within call fun _ created => forms_account within own created

theorem book_transfer_forms (call : Call) (status : Status) (transfer : Transfer Uuid) :
    FormsWithin kind (bookTransfer call status transfer accounts).2 :=
  book_transfer_keeps within call status fun _ booked => forms_transfer within booked

theorem reserve_forms (services : Services) (calls : ReserveCalls) (order : Submission)
    (own : kind (services.assetAccount order.accountId order.assetId)) :
    FormsWithin kind (services.reserve calls order accounts).2 :=
  reserve_keeps within services calls order (fun _ created => forms_account within own created)
    fun _ _ _ _ kept booked => forms_transfer kept booked

end Kind

end Forms

structure AllListed (services : Services) (market : Market) : Prop where
  assets : WellListed market.assets
  requests : ∀ order ∈ market.exchange.requests.map Request.order, market.assets.Lists order.assetId
  accounts : FormsWithin (services.OnListed market.assets) market.exchange.accounts
  consistent : Consistent services market.exchange

theorem registry_listed {services : Services} {market : Market} {assets : Assets} (holds : AllListed services market)
    (kept : WellListed assets ∧ Grows market.assets assets) : AllListed services { market with assets := assets } :=
  ⟨kept.1, fun order known => grows_lists kept.2 (holds.requests order known),
    fun id account found => on_listed_grows kept.2 (holds.accounts id account found), holds.consistent⟩

theorem exchange_listed {services : Services} {market : Market} {event : ExchangeEvent} {after : Exchange}
    (holds : AllListed services market) (names : NamesRegistered market (.exchange event))
    (stepped : Stepped services market.exchange event after) : AllListed services { market with exchange := after } := by
  refine ⟨holds.assets, fun order known => ?_, ?_, consistent_step holds.consistent stepped⟩
  · change order ∈ after.requests.map Request.order at known
    rw [orders_step stepped] at known
    cases List.mem_append.mp known with
    | inl old => exact holds.requests order old
    | inr new =>
        cases event with
        | receive received =>
            rw [List.mem_singleton.mp new]
            exact names
        | _ => cases new
  · cases stepped with
    | reserve order calls waiting =>
        have listed := holds.requests order (List.mem_map.mpr ⟨_, waiting, rfl⟩)
        exact reserve_forms holds.accounts services calls order fun _ => ⟨order.assetId, listed, rfl⟩
    | register call accountId =>
        exact open_account_forms holds.accounts call fun asset => absurd asset (funds_no_asset accountId)
    | depositOrWithdraw call transferId accountId form => exact book_transfer_forms holds.accounts call .badRequest _
    | _ => exact holds.accounts

theorem run_listed {services : Services} {clock : Nat} {accounts : Accounts} {history : List MarketEvent} {market : Market}
    (run : RegisteredRun services clock accounts history market)
    (plain : FormsWithin (fun form => ¬ services.IsAssetForm form) accounts) : AllListed services market := by
  refine trace_invariant (fun _ market => AllListed services market) ?_ ?_ run
  · exact ⟨start_well_listed, (fun order known => by cases known),
      (fun id account found asset => absurd asset (plain id account found)),
      run_consistent (.start : ExchangeRun services clock accounts [] _)⟩
  · intro history before event after _ holds fired
    obtain ⟨names, fired⟩ := fired
    cases event with
    | createEquities call items =>
        obtain rfl := Option.some.inj fired
        exact registry_listed holds (create_equities_kept holds.assets call items)
    | createEquityOptions call items =>
        obtain rfl := Option.some.inj fired
        exact registry_listed holds (create_equity_options_kept holds.assets call items)
    | exchange event =>
        obtain ⟨exchange, stepped, same⟩ := Option.bind_eq_some_iff.mp fired
        obtain rfl := Option.some.inj same
        exact exchange_listed holds names (step_cases stepped)

theorem listed_recorded {services : Services} {market : Market} (holds : AllListed services market) :
    RecordsRegistered services market := by
  obtain ⟨table, rep, sound⟩ := run_represents holds.consistent.run
  refine ⟨fun orderId present => ?_, holds.accounts, fun id account found asset cash => ?_⟩
  · cases found : table orderId with
    | none =>
        rw [rep.hashes, found] at present
        exact absurd rfl present
    | some resting =>
        obtain ⟨execution, member, _, submitted⟩ := sound orderId resting found
        have listed := holds.requests execution.order (executed_requested holds.consistent member)
        rw [← submitted.2.1] at listed
        exact ⟨resting.assetId, listed, stored_number_some rep found .assetId⟩
  · obtain ⟨assetId, listed, ledger⟩ := holds.accounts id account found asset
    have positive := holds.assets.ids assetId listed
    have negative := cash_ledger_negative (ledger.symm.trans cash)
    omega

/-- The registry is never asked. As long as every request names a registered asset, so does every record. -/
theorem records_registered (services : Services) (clock : Nat) (accounts : Accounts) (history : List MarketEvent)
    (market : Market) (run : RegisteredRun services clock accounts history market)
    (plain : FormsWithin (fun form => ¬ services.IsAssetForm form) accounts) : RecordsRegistered services market :=
  listed_recorded (run_listed run plain)

theorem no_accounts_plain (kind : AccountForm Uuid → Prop) : FormsWithin kind noAccounts := by
  intro id account found
  cases found

def offerServices : Services where
  lua := localServices.lua
  newV5 accountId assetId :=
    if accountId = ⟨1⟩ ∧ assetId = -1 then ⟨⟨0x6566cdf53d7f56cebf40a49f3f28b092, by decide⟩⟩
    else if accountId = ADMIN_ACCOUNT_ID ∧ assetId = -1 then ⟨⟨0x0253dfe0834b56029f345abdecf93724, by decide⟩⟩
    else localServices.newV5 accountId assetId

def offerOf (assetId : Int32) : Submission := ⟨⟨1⟩, assetId, .offers, ⟨5, .limit 3⟩, .nowV7 1 0⟩

def offered (assetId : Int32) : List MarketEvent :=
  [.exchange (.receive (offerOf assetId)), .exchange (.reserve (offerOf assetId) ⟨.answered, .answered⟩)]

def marketAfter (events : List MarketEvent) : Option Market :=
  events.foldlM (Market.step offerServices) (.start 1 noAccounts)

def Market.checkedStep (services : Services) (market : Market) (event : MarketEvent) : Option Market :=
  if NamesRegistered market event then market.step services event else none

theorem checked_run {services : Services} {clock : Nat} {accounts : Accounts} {events : List MarketEvent} {market : Market}
    (fires : events.foldlM (Market.checkedStep services) (.start clock accounts) = some market) :
    RegisteredRun services clock accounts events market := by
  refine trace_imp (fun _ before event after fired => ?_) (run_steps .start events fires)
  rw [Market.checkedStep] at fired
  split at fired
  · rename_i names
    exact ⟨names, fired⟩
  · cases fired

-- The cash accounts of the administrator and of user 1, who has deposited 100.
def cashAccounts : Accounts where
  accounts id := List.find? (fun account => account.form.id = id) [
    ⟨{ fundsAccount ADMIN_ACCOUNT_ID with creditsMustNotExceedDebits := false }, ⟨0, 0, 0, 100⟩⟩,
    ⟨fundsAccount ⟨1⟩, ⟨0, 100, 0, 0⟩⟩]
  transfers := []

theorem cash_accounts_plain (services : Services) : FormsWithin (fun form => ¬ services.IsAssetForm form) cashAccounts := by
  intro id account found
  have member := List.mem_of_find?_eq_some found
  simp only [List.mem_cons, List.not_mem_nil, or_false] at member
  rcases member with rfl | rfl
  · rintro ⟨owner, assetId, same⟩
    exact Bool.false_ne_true (congrArg AccountForm.creditsMustNotExceedDebits same)
  · exact funds_no_asset ⟨1⟩

def listedBid : Submission := ⟨⟨1⟩, 1, .bids, ⟨10, .limit 3⟩, .nowV7 1 1⟩

def listedThenOffered : List MarketEvent :=
  .createEquities .answered [⟨"ACME", none⟩] :: (upToScript listedBid).map .exchange ++ offered 1

def checkedMarket : Option Market :=
  listedThenOffered.foldlM (Market.checkedStep offerServices) (.start 1 cashAccounts)

theorem checked_market_fires : checkedMarket.isSome = true := by decide +kernel

theorem records_registered_offered :
    bookOrders (checkedMarket.get checked_market_fires).exchange.store 1 .bids = [.nowV7 1 1] ∧
      (checkedMarket.get checked_market_fires).exchange.accounts.accounts (offerServices.newV5 ⟨1⟩ 1) ≠ none ∧
      RecordsRegistered offerServices (checkedMarket.get checked_market_fires) :=
  ⟨by decide +kernel, by decide +kernel, records_registered offerServices 1 cashAccounts listedThenOffered _
    (checked_run (Option.some_get _).symm) (cash_accounts_plain _)⟩

def cashOffered : Market := (marketAfter (offered (-1))).get (by decide +kernel)

theorem asset_account_on_cash_ledger : ¬ ∀ services clock accounts history market,
    MarketRun services clock accounts history market →
      FormsWithin (fun form => ¬ services.IsAssetForm form) accounts → RecordsRegistered services market := by
  intro claimed
  have registered := claimed offerServices 1 noAccounts (offered (-1)) cashOffered
    (run_steps .start _ (Option.some_get _).symm) (no_accounts_plain _)
  have found : cashOffered.exchange.accounts.accounts (offerServices.newV5 ⟨1⟩ (-1)) =
      some ⟨offerServices.assetAccount ⟨1⟩ (-1), .zero⟩ := by decide +kernel
  exact registered.apart _ _ found ⟨⟨1⟩, -1, rfl⟩ rfl

end MktSim
