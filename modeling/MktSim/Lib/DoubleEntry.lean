import Mathlib.Algebra.BigOperators.Group.List.Basic
import Mathlib.Algebra.Order.BigOperators.Group.List
import Mathlib.Algebra.Order.Ring.Nat

set_option autoImplicit false

namespace DoubleEntry

variable {Id : Type}

structure AccountForm (Id : Type) where
  id : Id
  ledger : UInt32
  code : UInt16
  userData128 : Id
  userData32 : UInt32
  creditsMustNotExceedDebits : Bool
deriving DecidableEq

structure Balances where
  debitsPending : Nat
  debitsPosted : Nat
  creditsPending : Nat
  creditsPosted : Nat
deriving DecidableEq, Repr

structure Account (Id : Type) where
  form : AccountForm Id
  balances : Balances
deriving DecidableEq

structure Transfer (Id : Type) where
  id : Id
  debitAccountId : Id
  creditAccountId : Id
  amount : Nat
  ledger : UInt32
  code : UInt16
  pending : Bool
deriving DecidableEq

structure Ledger (Id : Type) where
  accounts : Id → Option (Account Id)
  transfers : List (Transfer Id)

-- The identifiers that name nothing and the bound of every sum.
structure Rules (Id : Type) where
  reserved : Id → Bool
  limit : Nat

inductive CreateAccountError where
  | idReserved
  | ledgerMustNotBeZero
  | codeMustNotBeZero
  | existsWithDifferentFields
  | exists_
deriving DecidableEq, Repr

inductive CreateTransferError where
  | idReserved
  | accountsMustBeDifferent
  | amountMustNotBeZero
  | ledgerMustNotBeZero
  | codeMustNotBeZero
  | debitAccountNotFound
  | creditAccountNotFound
  | accountsMustHaveTheSameLedger
  | transferMustHaveTheSameLedgerAsAccounts
  | exists_
  | overflows
  | exceedsDebits
deriving DecidableEq, Repr

def Balances.zero : Balances := ⟨0, 0, 0, 0⟩

variable [DecidableEq Id]

def createAccount (rules : Rules Id) (form : AccountForm Id) (ledger : Ledger Id) :
    Except CreateAccountError (Ledger Id) :=
  if rules.reserved form.id then .error .idReserved
  else if form.ledger = 0 then .error .ledgerMustNotBeZero
  else if form.code = 0 then .error .codeMustNotBeZero
  else
    match ledger.accounts form.id with
    | some held => if held.form = form then .error .exists_ else .error .existsWithDifferentFields
    | none => .ok { ledger with accounts := Function.update ledger.accounts form.id (some ⟨form, .zero⟩) }

def Balances.debit (transfer : Transfer Id) (balances : Balances) : Balances :=
  if transfer.pending then { balances with debitsPending := balances.debitsPending + transfer.amount }
  else { balances with debitsPosted := balances.debitsPosted + transfer.amount }

def Balances.credit (transfer : Transfer Id) (balances : Balances) : Balances :=
  if transfer.pending then { balances with creditsPending := balances.creditsPending + transfer.amount }
  else { balances with creditsPosted := balances.creditsPosted + transfer.amount }

-- The pending and the posted sum of a side may not overflow together either.
def overflows (limit : Nat) (amount : Nat) (debit credit : Balances) : Bool :=
  limit ≤ amount + debit.debitsPending + debit.debitsPosted ||
    limit ≤ amount + credit.creditsPending + credit.creditsPosted

def refusal (rules : Rules Id) (transfer : Transfer Id) (ledger : Ledger Id) (debit credit : Account Id) :
    Option CreateTransferError :=
  if debit.form.ledger ≠ credit.form.ledger then some .accountsMustHaveTheSameLedger
  else if transfer.ledger ≠ debit.form.ledger then some .transferMustHaveTheSameLedgerAsAccounts
  else if ledger.transfers.any (fun held => held.id = transfer.id) then some .exists_
  else if overflows rules.limit transfer.amount debit.balances credit.balances then some .overflows
  else if credit.form.creditsMustNotExceedDebits ∧ credit.balances.debitsPosted <
      credit.balances.creditsPending + credit.balances.creditsPosted + transfer.amount then some .exceedsDebits
  else none

def book (transfer : Transfer Id) (debit credit : Account Id) (ledger : Ledger Id) : Ledger Id where
  accounts := Function.update
    (Function.update ledger.accounts transfer.debitAccountId (some ⟨debit.form, debit.balances.debit transfer⟩))
    transfer.creditAccountId (some ⟨credit.form, credit.balances.credit transfer⟩)
  transfers := transfer :: ledger.transfers

def malformed (rules : Rules Id) (transfer : Transfer Id) : Option CreateTransferError :=
  if rules.reserved transfer.id || rules.reserved transfer.debitAccountId || rules.reserved transfer.creditAccountId then
    some .idReserved
  else if transfer.creditAccountId = transfer.debitAccountId then some .accountsMustBeDifferent
  else if transfer.amount = 0 then some .amountMustNotBeZero
  else if transfer.ledger = 0 then some .ledgerMustNotBeZero
  else if transfer.code = 0 then some .codeMustNotBeZero
  else none

def createTransfer (rules : Rules Id) (transfer : Transfer Id) (ledger : Ledger Id) :
    Except CreateTransferError (Ledger Id) :=
  match malformed rules transfer with
  | some error => .error error
  | none =>
      match ledger.accounts transfer.debitAccountId, ledger.accounts transfer.creditAccountId with
      | none, _ => .error .debitAccountNotFound
      | some _, none => .error .creditAccountNotFound
      | some debit, some credit =>
          match refusal rules transfer ledger debit credit with
          | some error => .error error
          | none => .ok (book transfer debit credit ledger)

def balancesAt (ledger : Ledger Id) (id : Id) : Balances :=
  ((ledger.accounts id).map Account.balances).getD .zero

variable {rules : Rules Id} {ledger next : Ledger Id}

theorem create_account_cases {form : AccountForm Id} (done : createAccount rules form ledger = .ok next) :
    ledger.accounts form.id = none ∧
      next = { ledger with accounts := Function.update ledger.accounts form.id (some ⟨form, .zero⟩) } := by
  unfold createAccount at done
  by_cases reserved : rules.reserved form.id = true
  · rw [if_pos reserved] at done
    cases done
  · rw [if_neg reserved] at done
    by_cases noLedger : form.ledger = 0
    · rw [if_pos noLedger] at done
      cases done
    · rw [if_neg noLedger] at done
      by_cases noCode : form.code = 0
      · rw [if_pos noCode] at done
        cases done
      · rw [if_neg noCode] at done
        cases held : ledger.accounts form.id with
        | none =>
            rw [held] at done
            exact ⟨rfl, (Except.ok.inj done).symm⟩
        | some account =>
            rw [held] at done
            simp only at done
            split at done <;> cases done

theorem create_account_balances {form : AccountForm Id} (done : createAccount rules form ledger = .ok next) (id : Id) :
    balancesAt next id = balancesAt ledger id := by
  obtain ⟨absent, rfl⟩ := create_account_cases done
  by_cases same : id = form.id
  · subst same
    simp [balancesAt, absent]
  · simp [balancesAt, same]

theorem well_formed {transfer : Transfer Id} (accepted : malformed rules transfer = none) :
    transfer.creditAccountId ≠ transfer.debitAccountId ∧ transfer.amount ≠ 0 := by
  unfold malformed at accepted
  by_cases reserved : (rules.reserved transfer.id || rules.reserved transfer.debitAccountId ||
      rules.reserved transfer.creditAccountId) = true
  · rw [if_pos reserved] at accepted
    cases accepted
  · rw [if_neg reserved] at accepted
    by_cases same : transfer.creditAccountId = transfer.debitAccountId
    · rw [if_pos same] at accepted
      cases accepted
    · rw [if_neg same] at accepted
      by_cases nothing : transfer.amount = 0
      · rw [if_pos nothing] at accepted
        cases accepted
      · exact ⟨same, nothing⟩

theorem create_transfer_cases {transfer : Transfer Id} (done : createTransfer rules transfer ledger = .ok next) :
    ∃ debit credit, malformed rules transfer = none ∧ ledger.accounts transfer.debitAccountId = some debit ∧
      ledger.accounts transfer.creditAccountId = some credit ∧
      refusal rules transfer ledger debit credit = none ∧ next = book transfer debit credit ledger := by
  unfold createTransfer at done
  cases wrong : malformed rules transfer with
  | some error =>
      rw [wrong] at done
      cases done
  | none =>
      cases debitFound : ledger.accounts transfer.debitAccountId with
      | none =>
          rw [wrong, debitFound] at done
          cases done
      | some debit =>
          cases creditFound : ledger.accounts transfer.creditAccountId with
          | none =>
              rw [wrong, debitFound, creditFound] at done
              cases done
          | some credit =>
              rw [wrong, debitFound, creditFound] at done
              simp only at done
              cases refused : refusal rules transfer ledger debit credit with
              | some error =>
                  rw [refused] at done
                  cases done
              | none =>
                  rw [refused] at done
                  exact ⟨debit, credit, rfl, rfl, rfl, refused, (Except.ok.inj done).symm⟩

theorem exceeds_of_refusal {transfer : Transfer Id} {debit credit : Account Id}
    (refused : refusal rules transfer ledger debit credit = some .exceedsDebits) :
    credit.balances.debitsPosted < credit.balances.creditsPending + credit.balances.creditsPosted + transfer.amount := by
  unfold refusal at refused
  split_ifs at refused with ledgers own known large exceeds
  · cases refused
  · cases refused
  · cases refused
  · cases refused
  · exact exceeds.2

theorem credit_account_balances {transfer : Transfer Id} (done : createTransfer rules transfer ledger = .ok next) :
    balancesAt next transfer.creditAccountId = (balancesAt ledger transfer.creditAccountId).credit transfer := by
  obtain ⟨debit, credit, _, _, found, _, rfl⟩ := create_transfer_cases done
  simp [balancesAt, book, found]

theorem create_transfer_changes {transfer : Transfer Id} (done : createTransfer rules transfer ledger = .ok next) :
    balancesAt next transfer.creditAccountId ≠ balancesAt ledger transfer.creditAccountId := by
  obtain ⟨_, _, formed, _⟩ := create_transfer_cases done
  have some_ := (well_formed formed).2
  rw [credit_account_balances done]
  intro same
  cases pending : transfer.pending with
  | true =>
      have pendingSame := congrArg Balances.creditsPending same
      simp only [Balances.credit, pending, if_true] at pendingSame
      omega
  | false =>
      have postedSame := congrArg Balances.creditsPosted same
      simp only [Balances.credit, pending, Bool.false_eq_true, if_false] at postedSame
      omega

def creditedTo (id : Id) (transfer : Transfer Id) : Nat :=
  if transfer.pending ∧ transfer.creditAccountId = id then transfer.amount else 0

theorem credits_pending_after {transfer : Transfer Id} (done : createTransfer rules transfer ledger = .ok next)
    (id : Id) : (balancesAt next id).creditsPending = (balancesAt ledger id).creditsPending + creditedTo id transfer := by
  by_cases credited : id = transfer.creditAccountId
  · subst credited
    rw [credit_account_balances done]
    cases pending : transfer.pending <;> simp [Balances.credit, creditedTo, pending]
  · have uncredited : creditedTo id transfer = 0 := if_neg fun both => credited both.2.symm
    obtain ⟨debit, credit, _, found, _, _, rfl⟩ := create_transfer_cases done
    rw [uncredited, Nat.add_zero]
    by_cases debited : id = transfer.debitAccountId
    · subst debited
      cases pending : transfer.pending <;> simp [balancesAt, book, credited, found, Balances.debit, pending]
    · simp [balancesAt, book, credited, debited]

def FormsWithin (kind : AccountForm Id → Prop) (ledger : Ledger Id) : Prop :=
  ∀ id account, ledger.accounts id = some account → kind account.form

theorem forms_account {kind : AccountForm Id → Prop} {form : AccountForm Id} (within : FormsWithin kind ledger)
    (own : kind form) (done : createAccount rules form ledger = .ok next) : FormsWithin kind next := by
  obtain ⟨_, rfl⟩ := create_account_cases done
  intro id account found
  by_cases same : id = form.id
  · subst same
    simp only [Function.update_self] at found
    obtain rfl := Option.some.inj found
    exact own
  · simp only [Function.update_of_ne same] at found
    exact within id account found

theorem forms_transfer {kind : AccountForm Id → Prop} {transfer : Transfer Id} (within : FormsWithin kind ledger)
    (done : createTransfer rules transfer ledger = .ok next) : FormsWithin kind next := by
  obtain ⟨debit, credit, _, debitFound, creditFound, _, rfl⟩ := create_transfer_cases done
  intro id account found
  simp only [book] at found
  by_cases credited : id = transfer.creditAccountId
  · subst credited
    rw [Function.update_self] at found
    obtain rfl := Option.some.inj found
    exact within _ credit creditFound
  · rw [Function.update_of_ne credited] at found
    by_cases debited : id = transfer.debitAccountId
    · subst debited
      rw [Function.update_self] at found
      obtain rfl := Option.some.inj found
      exact within _ debit debitFound
    · rw [Function.update_of_ne debited] at found
      exact within id account found

-- Nothing that was booked has been given back: an account's pending credits hold
-- every pending transfer to it.
def Backed (booked : List (Transfer Id)) (ledger : Ledger Id) : Prop :=
  ∀ id, (booked.map (creditedTo id)).sum ≤ (balancesAt ledger id).creditsPending

theorem backed_nil (ledger : Ledger Id) : Backed [] ledger := fun _ => Nat.zero_le _

theorem backed_transfer {booked : List (Transfer Id)} {transfer : Transfer Id} (backed : Backed booked ledger)
    (done : createTransfer rules transfer ledger = .ok next) : Backed (transfer :: booked) next := by
  intro id
  have before := backed id
  rw [credits_pending_after done, List.map_cons, List.sum_cons]
  omega

theorem backed_account {booked : List (Transfer Id)} {form : AccountForm Id} (backed : Backed booked ledger)
    (done : createAccount rules form ledger = .ok next) : Backed booked next := by
  intro id
  rw [create_account_balances done]
  exact backed id

theorem held_sum {booked : List (Transfer Id)} (backed : Backed booked ledger) (id : Id) (held : List (Transfer Id))
    (distinct : held.Nodup) (present : held ⊆ booked) :
    (held.map (creditedTo id)).sum ≤ (balancesAt ledger id).creditsPending := by
  obtain ⟨kept, perm, sub⟩ := List.subperm_of_subset distinct present
  have same : (held.map (creditedTo id)).sum = (kept.map (creditedTo id)).sum := (perm.map _).symm.sum_eq
  have less : (kept.map (creditedTo id)).sum ≤ (booked.map (creditedTo id)).sum :=
    (sub.map _).sum_le_sum fun _ _ => Nat.zero_le _
  exact same ▸ less.trans (backed id)

end DoubleEntry
