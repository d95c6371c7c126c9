import MktSim.Api.Handlers

set_option autoImplicit false

namespace MktSim

open Redis DoubleEntry

structure Holdings where
  assetId : Int32
  amount : Int
deriving DecidableEq

-- `as i128`, and what an `i128` keeps of a difference.
def asI128 (value : Int) : Int := value.bmod (2 ^ 128)

def holdingsOf (asset : Account Uuid) : Holdings where
  assetId := asset.form.ledger.toInt32
  amount := asI128 (asI128 asset.balances.creditsPosted - asI128 asset.balances.debitsPosted)

def Services.lookupAccounts (services : Services) (accountId : Uuid) (assetIds : List Int32) (accounts : Accounts) :
    List (Account Uuid) :=
  assetIds.filterMap fun assetId => accounts.accounts (services.newV5 accountId assetId)

def Services.getEquitiesForAccount (services : Services) (fetch lookup : Call) (accountId : Uuid)
    (assetIds : List Int32) (accounts : Accounts) : Except Status (List Holdings) :=
  match fetch, lookup with
  | .answered, .answered => .ok ((services.lookupAccounts accountId assetIds accounts).map holdingsOf)
  | _, _ => .error .internalServerError

def Services.PassesBalanceCheck (services : Services) (order : Submission) (account : Account Uuid) : Prop :=
  ∀ transfer, services.reservation order = some transfer → ∀ (ledger : Accounts) (debit : Account Uuid),
    refusal tigerBeetle transfer ledger debit account ≠ some .exceedsDebits

-- The amount is what offers can still be made for, before what is reserved already.
structure Sellable (services : Services) (accountId : Uuid) (assetId : Int32) (account : Account Uuid) (amount : Int) :
    Prop where
  nonnegative : 0 ≤ amount
  offers : ∀ order : Submission, order.accountId = accountId → order.assetId = assetId → order.book = .offers →
    1 ≤ order.size →
      (services.PassesBalanceCheck order account ↔ (order.size : Int) ≤ amount - account.balances.creditsPending)

theorem as_i128_of_lt {value : Int} (low : -2 ^ 127 ≤ value) (high : value < 2 ^ 127) : asI128 value = value := by
  have lower : -((2 ^ 128 : Nat) : Int) ≤ value * 2 := by
    push_cast
    omega
  have upper : value * 2 < ((2 ^ 128 : Nat) : Int) := by
    push_cast
    omega
  exact Int.bmod_eq_of_le_mul_two lower upper

theorem holdings_amount {asset : Account Uuid} (credits : asset.balances.creditsPosted < 2 ^ 127)
    (debits : asset.balances.debitsPosted < 2 ^ 127) :
    (holdingsOf asset).amount = (asset.balances.creditsPosted : Int) - asset.balances.debitsPosted := by
  have credited : asI128 (asset.balances.creditsPosted : Int) = asset.balances.creditsPosted :=
    as_i128_of_lt (by omega) (by omega)
  have debited : asI128 (asset.balances.debitsPosted : Int) = asset.balances.debitsPosted :=
    as_i128_of_lt (by omega) (by omega)
  rw [holdingsOf, credited, debited]
  exact as_i128_of_lt (by omega) (by omega)

theorem holdings_asset {services : Services} {accountId : Uuid} {assetId : Int32} {asset : Account Uuid}
    (form : asset.form = services.assetAccount accountId assetId) : (holdingsOf asset).assetId = assetId := by
  rw [holdingsOf, form]
  exact Int32.toInt32_toUInt32 assetId

section Account

variable {services : Services} {accountId : Uuid} {assetId : Int32} {account : Account Uuid}
  (form : account.form = services.assetAccount accountId assetId)
  (admitted : account.balances.creditsPending + account.balances.creditsPosted ≤ account.balances.debitsPosted)
  (below : account.balances.debitsPosted < 2 ^ 127)

include form admitted below

theorem passes_balance_iff {order : Submission} (asset : order.assetId = assetId) (offer : order.book = .offers) :
    services.PassesBalanceCheck order account ↔
      account.balances.creditsPending + account.balances.creditsPosted + order.size ≤ account.balances.debitsPosted := by
  have flag : account.form.creditsMustNotExceedDebits = true := by rw [form]; rfl
  have ledgerSame : order.assetId.toUInt32 = account.form.ledger := by rw [form, asset]; rfl
  have small := order.size_lt
  have reserved := offer_reservation services offer
  constructor
  · intro passes
    by_contra exceeds
    -- Against an account without balances nothing else stands in the way.
    apply passes _ reserved noAccounts ⟨account.form, .zero⟩
    have debitFits : ¬ 2 ^ 128 ≤ order.size + 0 + 0 := by omega
    have creditFits : ¬ 2 ^ 128 ≤ order.size + account.balances.creditsPending + account.balances.creditsPosted := by omega
    have fits : overflows tigerBeetle.limit order.size Balances.zero account.balances = false :=
      Bool.or_eq_false_iff.mpr ⟨decide_eq_false debitFits, decide_eq_false creditFits⟩
    unfold refusal
    rw [if_neg (not_not.mpr rfl), if_neg (not_not.mpr ledgerSame), if_neg (by simp [noAccounts]), fits,
      if_neg Bool.false_ne_true, if_pos ⟨flag, Nat.lt_of_not_le exceeds⟩]
  · intro covered transfer same ledger debit refused
    obtain rfl := Option.some.inj (reserved.symm.trans same)
    exact absurd covered (Nat.not_le.mpr (exceeds_of_refusal refused))

theorem sellable_iff : Sellable services accountId assetId account (holdingsOf account).amount ↔
    account.balances.creditsPosted = account.balances.debitsPosted := by
  rw [holdings_amount (by omega) below]
  constructor
  · intro sellable
    have nonnegative := sellable.nonnegative
    omega
  · intro even
    refine ⟨by omega, ?_⟩
    intro order _ asset offer _
    rw [passes_balance_iff form admitted below asset offer]
    omega

end Account

/-- What is reported is the negative of what the user holds. -/
theorem holdings_sellable_iff (services : Services) (accountId : Uuid) (assetIds : List Int32) (accounts : Accounts)
    (own : ∀ listed ∈ assetIds, ∀ account, accounts.accounts (services.newV5 accountId listed) = some account →
      account.form = services.assetAccount accountId listed)
    (assetId : Int32) (known : assetId ∈ assetIds) (account : Account Uuid)
    (held : accounts.accounts (services.newV5 accountId assetId) = some account)
    (admitted : account.balances.creditsPending + account.balances.creditsPosted ≤ account.balances.debitsPosted)
    (below : account.balances.debitsPosted < 2 ^ 127) :
    (∃ reported, services.getEquitiesForAccount .answered .answered accountId assetIds accounts = .ok reported ∧
      ∀ holding ∈ reported, holding.assetId = assetId → Sellable services accountId assetId account holding.amount) ↔
      account.balances.creditsPosted = account.balances.debitsPosted := by
  have form := own assetId known account held
  rw [← sellable_iff form admitted below]
  constructor
  · intro answered
    obtain ⟨reported, ok, sellable⟩ := answered
    obtain rfl := Except.ok.inj ok
    apply sellable _ _ (holdings_asset form)
    exact List.mem_map_of_mem (List.mem_filterMap.mpr ⟨assetId, known, held⟩)
  · intro sellable
    refine ⟨_, rfl, ?_⟩
    intro holding member same
    obtain ⟨other, found, rfl⟩ := List.mem_map.mp member
    obtain ⟨listed, inList, there⟩ := List.mem_filterMap.mp found
    have asset := holdings_asset (own listed inList other there)
    obtain rfl := same.symm.trans asset
    obtain rfl := Option.some.inj (held.symm.trans there)
    exact sellable

def fiftyShares : Account Uuid := ⟨localServices.assetAccount ⟨2⟩ 1, ⟨0, 50, 0, 0⟩⟩

theorem fifty_shares_held : seededAccounts.accounts (localServices.newV5 ⟨2⟩ 1) = some fiftyShares := rfl

theorem fifty_shares_own : ∀ listed ∈ [(1 : Int32)], ∀ account,
    seededAccounts.accounts (localServices.newV5 ⟨2⟩ listed) = some account →
      account.form = localServices.assetAccount ⟨2⟩ listed := by
  intro listed member account found
  obtain rfl := List.mem_singleton.mp member
  obtain rfl := Option.some.inj (fifty_shares_held.symm.trans found)
  rfl

theorem holdings_sellable_iff_fifty :
    (∃ reported, localServices.getEquitiesForAccount .answered .answered ⟨2⟩ [1] seededAccounts = .ok reported ∧
      ∀ holding ∈ reported, holding.assetId = 1 → Sellable localServices ⟨2⟩ 1 fiftyShares holding.amount) ↔
      fiftyShares.balances.creditsPosted = fiftyShares.balances.debitsPosted :=
  holdings_sellable_iff localServices ⟨2⟩ [1] seededAccounts fifty_shares_own 1 (List.mem_singleton_self 1) fiftyShares
    fifty_shares_held (Nat.zero_le _) (by decide)

theorem holdings_negative : ¬ ∀ (services : Services) (accountId : Uuid) (assetIds : List Int32) (accounts : Accounts),
    (∀ listed ∈ assetIds, ∀ account, accounts.accounts (services.newV5 accountId listed) = some account →
      account.form = services.assetAccount accountId listed) →
    ∀ assetId ∈ assetIds, ∀ account, accounts.accounts (services.newV5 accountId assetId) = some account →
      account.balances.creditsPending + account.balances.creditsPosted ≤ account.balances.debitsPosted →
      account.balances.debitsPosted < 2 ^ 127 →
      ∃ reported, services.getEquitiesForAccount .answered .answered accountId assetIds accounts = .ok reported ∧
        ∀ holding ∈ reported, holding.assetId = assetId → Sellable services accountId assetId account holding.amount := by
  intro claimed
  obtain ⟨reported, ok, sellable⟩ := claimed localServices ⟨2⟩ [1] seededAccounts fifty_shares_own 1 (List.mem_singleton_self 1)
    fiftyShares fifty_shares_held (Nat.zero_le _) (by decide)
  obtain rfl := Except.ok.inj ok
  have negative := (sellable ⟨1, -50⟩ (List.mem_singleton_self _) rfl).nonnegative
  exact absurd negative (by decide)

end MktSim
