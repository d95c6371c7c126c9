import Mathlib.Algebra.BigOperators.Group.Finset.Piecewise
import MktSim.Lib.DoubleEntry

set_option autoImplicit false

namespace DoubleEntry

variable {Id : Type}

inductive Side where
  | debit
  | credit
deriving DecidableEq, Repr

def Transfer.party (transfer : Transfer Id) : Side → Id
  | .debit => transfer.debitAccountId
  | .credit => transfer.creditAccountId

def Balances.on (balances : Balances) : Side → Bool → Nat
  | .debit, true => balances.debitsPending
  | .debit, false => balances.debitsPosted
  | .credit, true => balances.creditsPending
  | .credit, false => balances.creditsPosted

@[simp] theorem zero_on (side : Side) (pending : Bool) : Balances.zero.on side pending = 0 := by
  cases side <;> cases pending <;> rfl

theorem debit_on (transfer : Transfer Id) (balances : Balances) (side : Side) (pending : Bool) :
    (balances.debit transfer).on side pending =
      balances.on side pending + if side = .debit ∧ transfer.pending = pending then transfer.amount else 0 := by
  cases side <;> cases pending <;> cases booked : transfer.pending <;> simp [Balances.debit, Balances.on, booked]

theorem credit_on (transfer : Transfer Id) (balances : Balances) (side : Side) (pending : Bool) :
    (balances.credit transfer).on side pending =
      balances.on side pending + if side = .credit ∧ transfer.pending = pending then transfer.amount else 0 := by
  cases side <;> cases pending <;> cases booked : transfer.pending <;> simp [Balances.credit, Balances.on, booked]

theorem balances_of {ledger : Ledger Id} {id : Id} {account : Account Id} (found : ledger.accounts id = some account) :
    balancesAt ledger id = account.balances := by simp [balancesAt, found]

variable [DecidableEq Id]

def entry (side : Side) (pending : Bool) (id : Id) (transfer : Transfer Id) : Nat :=
  if transfer.pending = pending ∧ transfer.party side = id then transfer.amount else 0

def entered (side : Side) (pending : Bool) (id : Id) (transfers : List (Transfer Id)) : Nat :=
  (transfers.map (entry side pending id)).sum

def turnover (pending : Bool) (number : UInt32) (transfers : List (Transfer Id)) : Nat :=
  (transfers.map fun transfer => if transfer.pending = pending ∧ transfer.ledger = number then transfer.amount else 0).sum

def onLedger (ledger : Ledger Id) (number : UInt32) (id : Id) : Bool :=
  (ledger.accounts id).any fun account => account.form.ledger = number

@[simp] theorem entered_cons (side : Side) (pending : Bool) (id : Id) (transfer : Transfer Id) (rest : List (Transfer Id)) :
    entered side pending id (transfer :: rest) = entry side pending id transfer + entered side pending id rest := by
  rw [entered, List.map_cons, List.sum_cons, entered]

variable {rules : Rules Id} {ledger next : Ledger Id}

-- A transfer moves its amount on its own two accounts and nowhere else.
theorem create_transfer_on {transfer : Transfer Id} (done : createTransfer rules transfer ledger = .ok next)
    (id : Id) (side : Side) (pending : Bool) :
    (balancesAt next id).on side pending = (balancesAt ledger id).on side pending + entry side pending id transfer := by
  have credited := credit_account_balances done
  obtain ⟨debit, credit, formed, debitFound, creditFound, _, rfl⟩ := create_transfer_cases done
  have apart := (well_formed formed).1
  by_cases atCredit : id = transfer.creditAccountId
  · subst atCredit
    rw [credited, credit_on, entry]
    cases side <;> simp [Transfer.party, apart.symm]
  · by_cases atDebit : id = transfer.debitAccountId
    · subst atDebit
      have own : balancesAt (book transfer debit credit ledger) transfer.debitAccountId =
          (balancesAt ledger transfer.debitAccountId).debit transfer := by
        simp [balancesAt, book, atCredit, debitFound]
      rw [own, debit_on, entry]
      cases side <;> simp [Transfer.party, apart]
    · have kept : balancesAt (book transfer debit credit ledger) id = balancesAt ledger id := by
        simp [balancesAt, book, atCredit, atDebit]
      rw [kept, entry, if_neg, Nat.add_zero]
      rintro ⟨_, party⟩
      cases side with
      | debit => exact atDebit party.symm
      | credit => exact atCredit party.symm

-- The books of a ledger: the balances are what its transfers entered, each transfer has
-- its two accounts and stands there once, and no guarded account is overdrawn.
structure Audited (rules : Rules Id) (ledger : Ledger Id) : Prop where
  named : ∀ id account, ledger.accounts id = some account → account.form.id = id
  replayed : ∀ id side pending, (balancesAt ledger id).on side pending = entered side pending id ledger.transfers
  sided : ∀ transfer ∈ ledger.transfers, ∀ side, ∃ account, ledger.accounts (transfer.party side) = some account ∧
    account.form.ledger = transfer.ledger
  apart : ∀ transfer ∈ ledger.transfers, transfer.creditAccountId ≠ transfer.debitAccountId
  once : (ledger.transfers.map Transfer.id).Nodup
  bounded : ∀ id side, (balancesAt ledger id).on side true + (balancesAt ledger id).on side false < rules.limit
  covered : ∀ id account, ledger.accounts id = some account → account.form.creditsMustNotExceedDebits = true →
    account.balances.creditsPending + account.balances.creditsPosted ≤ account.balances.debitsPosted

theorem audited_empty (positive : 0 < rules.limit) : Audited rules ⟨fun _ => none, []⟩ where
  named id account found := by cases found
  replayed id side pending := by simp [balancesAt, entered]
  sided transfer member := by cases member
  apart transfer member := by cases member
  once := List.nodup_nil
  bounded id side := by simpa [balancesAt] using positive
  covered id account found := by cases found

theorem audited_account {form : AccountForm Id} (audited : Audited rules ledger)
    (done : createAccount rules form ledger = .ok next) : Audited rules next := by
  have balances := create_account_balances done
  obtain ⟨absent, rfl⟩ := create_account_cases done
  have opened : ∀ id account,
      Function.update ledger.accounts form.id (some ⟨form, .zero⟩) id = some account →
        (id = form.id ∧ account = ⟨form, .zero⟩) ∨ ledger.accounts id = some account := by
    intro id account found
    by_cases same : id = form.id
    · subst same
      rw [Function.update_self] at found
      exact .inl ⟨rfl, (Option.some.inj found).symm⟩
    · rw [Function.update_of_ne same] at found
      exact .inr found
  refine ⟨?_, ?_, ?_, audited.apart, audited.once, ?_, ?_⟩
  · intro id account found
    cases opened id account found with
    | inl new => rw [new.2, new.1]
    | inr old => exact audited.named id account old
  · intro id side pending
    rw [balances]
    exact audited.replayed id side pending
  · intro transfer member side
    obtain ⟨account, found, ledgers⟩ := audited.sided transfer member side
    have other : transfer.party side ≠ form.id := by
      intro same
      rw [same, absent] at found
      cases found
    exact ⟨account, (Function.update_of_ne other _ _).trans found, ledgers⟩
  · intro id side
    rw [balances]
    exact audited.bounded id side
  · intro id account found guarded
    cases opened id account found with
    | inl new =>
        rw [new.2]
        exact Nat.zero_le _
    | inr old => exact audited.covered id account old guarded

section Transfer

variable {transfer : Transfer Id}

structure Accepted (rules : Rules Id) (ledger : Ledger Id) (transfer : Transfer Id) : Prop where
  ledgers : ∀ side, ∃ account, ledger.accounts (transfer.party side) = some account ∧ account.form.ledger = transfer.ledger
  apart : transfer.creditAccountId ≠ transfer.debitAccountId
  amount : 0 < transfer.amount
  fresh : transfer.id ∉ ledger.transfers.map Transfer.id
  bounded : ∀ side, transfer.amount + (balancesAt ledger (transfer.party side)).on side true +
    (balancesAt ledger (transfer.party side)).on side false < rules.limit
  covered : ∀ account, ledger.accounts transfer.creditAccountId = some account →
    account.form.creditsMustNotExceedDebits = true →
      account.balances.creditsPending + account.balances.creditsPosted + transfer.amount ≤ account.balances.debitsPosted

theorem transfer_accepted (done : createTransfer rules transfer ledger = .ok next) : Accepted rules ledger transfer := by
  obtain ⟨debit, credit, formed, debitFound, creditFound, accepted, _⟩ := create_transfer_cases done
  obtain ⟨apart, something⟩ := well_formed formed
  have debitBalances : balancesAt ledger transfer.debitAccountId = debit.balances := by simp [balancesAt, debitFound]
  have creditBalances : balancesAt ledger transfer.creditAccountId = credit.balances := by simp [balancesAt, creditFound]
  unfold refusal at accepted
  split_ifs at accepted with ledgers own known large exceeds
  rw [not_not] at ledgers own
  rw [overflows, Bool.or_eq_true, decide_eq_true_iff, decide_eq_true_iff, not_or] at large
  refine ⟨?_, apart, Nat.pos_of_ne_zero something, ?_, ?_, ?_⟩
  · intro side
    cases side with
    | debit => exact ⟨debit, debitFound, own.symm⟩
    | credit => exact ⟨credit, creditFound, (own.trans ledgers).symm⟩
  · intro member
    obtain ⟨held, there, same⟩ := List.mem_map.mp member
    exact known (List.any_eq_true.mpr ⟨held, there, decide_eq_true same⟩)
  · intro side
    cases side with
    | debit =>
        rw [Transfer.party, debitBalances]
        exact Nat.lt_of_not_le large.1
    | credit =>
        rw [Transfer.party, creditBalances]
        exact Nat.lt_of_not_le large.2
  · intro account found guarded
    obtain rfl := Option.some.inj (creditFound.symm.trans found)
    exact Nat.le_of_not_lt fun overdrawn => exceeds ⟨guarded, overdrawn⟩

theorem accepted_transfer (formed : malformed rules transfer = none) (accepted : Accepted rules ledger transfer) :
    ∃ next, createTransfer rules transfer ledger = .ok next := by
  obtain ⟨debit, debitFound, debitLedger⟩ := accepted.ledgers .debit
  obtain ⟨credit, creditFound, creditLedger⟩ := accepted.ledgers .credit
  have debitRoom := accepted.bounded .debit
  have creditRoom := accepted.bounded .credit
  rw [balances_of debitFound] at debitRoom
  rw [balances_of creditFound] at creditRoom
  simp only [Transfer.party] at debitFound creditFound
  have unknown : ¬ ledger.transfers.any (fun held => held.id = transfer.id) = true := by
    intro known
    obtain ⟨held, there, same⟩ := List.any_eq_true.mp known
    exact accepted.fresh (List.mem_map.mpr ⟨held, there, of_decide_eq_true same⟩)
  have small : ¬ overflows rules.limit transfer.amount debit.balances credit.balances = true := by
    rw [overflows, Bool.or_eq_true, decide_eq_true_iff, decide_eq_true_iff, not_or]
    exact ⟨Nat.not_le_of_lt debitRoom, Nat.not_le_of_lt creditRoom⟩
  have covered : ¬ (credit.form.creditsMustNotExceedDebits ∧ credit.balances.debitsPosted <
      credit.balances.creditsPending + credit.balances.creditsPosted + transfer.amount) := by
    rintro ⟨guarded, overdrawn⟩
    exact absurd (accepted.covered credit creditFound guarded) (Nat.not_le_of_lt overdrawn)
  have passed : refusal rules transfer ledger debit credit = none := by
    rw [refusal, if_neg (not_not.mpr (debitLedger.trans creditLedger.symm)), if_neg (not_not.mpr debitLedger.symm),
      if_neg unknown, if_neg small, if_neg covered]
  refine ⟨book transfer debit credit ledger, ?_⟩
  simp only [createTransfer, formed, debitFound, creditFound, passed]

theorem booked_account (done : createTransfer rules transfer ledger = .ok next) {id : Id} {account : Account Id}
    (found : next.accounts id = some account) :
    ∃ before, ledger.accounts id = some before ∧ account.form = before.form := by
  obtain ⟨debit, credit, _, debitFound, creditFound, _, rfl⟩ := create_transfer_cases done
  simp only [book] at found
  by_cases atCredit : id = transfer.creditAccountId
  · subst atCredit
    rw [Function.update_self] at found
    obtain rfl := Option.some.inj found
    exact ⟨credit, creditFound, rfl⟩
  · rw [Function.update_of_ne atCredit] at found
    by_cases atDebit : id = transfer.debitAccountId
    · subst atDebit
      rw [Function.update_self] at found
      obtain rfl := Option.some.inj found
      exact ⟨debit, debitFound, rfl⟩
    · rw [Function.update_of_ne atDebit] at found
      exact ⟨account, found, rfl⟩

theorem booked_kept (done : createTransfer rules transfer ledger = .ok next) {id : Id} {account : Account Id}
    (found : ledger.accounts id = some account) :
    ∃ after, next.accounts id = some after ∧ after.form = account.form := by
  obtain ⟨debit, credit, _, debitFound, creditFound, _, rfl⟩ := create_transfer_cases done
  simp only [book]
  by_cases atCredit : id = transfer.creditAccountId
  · subst atCredit
    obtain rfl := Option.some.inj (creditFound.symm.trans found)
    exact ⟨_, Function.update_self _ _ _, rfl⟩
  · rw [Function.update_of_ne atCredit]
    by_cases atDebit : id = transfer.debitAccountId
    · subst atDebit
      obtain rfl := Option.some.inj (debitFound.symm.trans found)
      exact ⟨_, Function.update_self _ _ _, rfl⟩
    · rw [Function.update_of_ne atDebit]
      exact ⟨account, found, rfl⟩

theorem booked_transfers (done : createTransfer rules transfer ledger = .ok next) :
    next.transfers = transfer :: ledger.transfers := by
  obtain ⟨_, _, _, _, _, _, rfl⟩ := create_transfer_cases done
  rfl

-- A ledger with pending transfers of so much in all booked on top of another.
structure Extended (start ledger : Ledger Id) (booked : Nat) : Prop where
  there : ∀ id account, start.accounts id = some account → ∃ now, ledger.accounts id = some now ∧ now.form = account.form
  pending : ∀ id side, (balancesAt ledger id).on side true ≤ (balancesAt start id).on side true + booked
  posted : ∀ id side, (balancesAt ledger id).on side false = (balancesAt start id).on side false

omit [DecidableEq Id] in
theorem extended_refl (ledger : Ledger Id) : Extended ledger ledger 0 :=
  ⟨fun _ account found => ⟨account, found, rfl⟩, fun _ _ => Nat.le_refl _, fun _ _ => rfl⟩

section Extended

variable {start : Ledger Id} {booked : Nat} (extended : Extended start ledger booked)

include extended

theorem extended_transfer (reserves : transfer.pending = true) (done : createTransfer rules transfer ledger = .ok next) :
    Extended start next (booked + transfer.amount) := by
  have most : ∀ id side, entry side true id transfer ≤ transfer.amount := by
    intro id side
    unfold entry
    split
    · exact Nat.le_refl _
    · exact Nat.zero_le _
  refine ⟨fun id account found => ?_, fun id side => ?_, fun id side => ?_⟩
  · obtain ⟨before, present, form⟩ := extended.there id account found
    obtain ⟨after, kept, same⟩ := booked_kept done present
    exact ⟨after, kept, same.trans form⟩
  · have before := extended.pending id side
    have more := most id side
    rw [create_transfer_on done]
    omega
  · have none : entry side false id transfer = 0 := by simp [entry, reserves]
    rw [create_transfer_on done, extended.posted, none, Nat.add_zero]

theorem extended_accepts (formed : malformed rules transfer = none)
    (sides : ∀ side, ∃ account, start.accounts (transfer.party side) = some account ∧
      account.form.ledger = transfer.ledger ∧
      transfer.amount + (account.balances.on side true + booked) + account.balances.on side false < rules.limit)
    (fresh : transfer.id ∉ ledger.transfers.map Transfer.id)
    (covered : ∀ account, start.accounts transfer.creditAccountId = some account →
      account.form.creditsMustNotExceedDebits = true →
        account.balances.creditsPending + booked + account.balances.creditsPosted + transfer.amount ≤ account.balances.debitsPosted) :
    ∃ next, createTransfer rules transfer ledger = .ok next := by
  obtain ⟨apart, something⟩ := well_formed formed
  refine accepted_transfer formed ⟨fun side => ?_, apart, Nat.pos_of_ne_zero something, fresh, fun side => ?_,
    fun now present guarded => ?_⟩
  · obtain ⟨account, found, onLedger, _⟩ := sides side
    obtain ⟨now, present, form⟩ := extended.there _ account found
    exact ⟨now, present, form ▸ onLedger⟩
  · obtain ⟨account, found, _, room⟩ := sides side
    have pending := extended.pending (transfer.party side) side
    rw [balances_of found] at pending
    rw [extended.posted, balances_of found]
    omega
  · obtain ⟨account, found, _⟩ := sides .credit
    simp only [Transfer.party] at found
    obtain ⟨same, there, form⟩ := extended.there _ account found
    obtain rfl := Option.some.inj (present.symm.trans there)
    have enough := covered account found (form ▸ guarded)
    have pending := extended.pending transfer.creditAccountId .credit
    have posted := extended.posted transfer.creditAccountId .credit
    have debits := extended.posted transfer.creditAccountId .debit
    rw [balances_of found, balances_of present] at pending posted debits
    simp only [Balances.on] at pending posted debits
    omega

end Extended

end Transfer

theorem entry_party (side : Side) (id : Id) (transfer : Transfer Id) :
    entry side true id transfer + entry side false id transfer =
      if transfer.party side = id then transfer.amount else 0 := by
  rw [entry, entry]
  cases transfer.pending <;> by_cases party : transfer.party side = id <;> simp [party]

theorem bounded_transfer {transfer : Transfer Id} (audited : Audited rules ledger)
    (done : createTransfer rules transfer ledger = .ok next) (id : Id) (side : Side) :
    (balancesAt next id).on side true + (balancesAt next id).on side false < rules.limit := by
  have before := audited.bounded id side
  have parts := entry_party side id transfer
  rw [create_transfer_on done, create_transfer_on done]
  by_cases party : transfer.party side = id
  · have room := (transfer_accepted done).bounded side
    rw [party] at room
    rw [if_pos party] at parts
    omega
  · rw [if_neg party] at parts
    omega

-- A transfer that would overdraw a guarded account is refused, and debits only help.
theorem covered_transfer {transfer : Transfer Id} (audited : Audited rules ledger)
    (done : createTransfer rules transfer ledger = .ok next) {id : Id} {account : Account Id}
    (found : next.accounts id = some account) (guarded : account.form.creditsMustNotExceedDebits = true) :
    account.balances.creditsPending + account.balances.creditsPosted ≤ account.balances.debitsPosted := by
  have balances := create_transfer_on done id
  obtain ⟨before, there, form⟩ := booked_account done found
  rw [form] at guarded
  have was := audited.covered id before there guarded
  have pending := balances .credit true
  have posted := balances .credit false
  have debited := balances .debit false
  have parts := entry_party .credit id transfer
  rw [balances_of found, balances_of there] at pending posted debited
  simp only [Balances.on] at pending posted debited
  by_cases party : transfer.party .credit = id
  · rw [if_pos party] at parts
    have own : transfer.creditAccountId = id := party
    have room := (transfer_accepted done).covered before (own ▸ there) guarded
    omega
  · rw [if_neg party] at parts
    omega

theorem audited_transfer {transfer : Transfer Id} (audited : Audited rules ledger)
    (done : createTransfer rules transfer ledger = .ok next) : Audited rules next := by
  have accepted := transfer_accepted done
  refine ⟨?_, ?_, ?_, ?_, ?_, bounded_transfer audited done, fun id account found guarded =>
    covered_transfer audited done found guarded⟩
  · intro id account found
    obtain ⟨before, there, form⟩ := booked_account done found
    rw [form]
    exact audited.named id before there
  · intro id side pending
    rw [create_transfer_on done, audited.replayed, booked_transfers done, entered_cons, Nat.add_comm]
  · intro other member side
    rw [booked_transfers done] at member
    have held : ∃ account, ledger.accounts (other.party side) = some account ∧ account.form.ledger = other.ledger := by
      cases List.mem_cons.mp member with
      | inl new =>
          rw [new]
          exact accepted.ledgers side
      | inr old => exact audited.sided other old side
    obtain ⟨account, found, ledgers⟩ := held
    obtain ⟨after, kept, form⟩ := booked_kept done found
    exact ⟨after, kept, form ▸ ledgers⟩
  · intro other member
    rw [booked_transfers done] at member
    cases List.mem_cons.mp member with
    | inl new =>
        rw [new]
        exact accepted.apart
    | inr old => exact audited.apart other old
  · rw [booked_transfers done, List.map_cons, List.nodup_cons]
    exact ⟨accepted.fresh, audited.once⟩

theorem sum_entered (side : Side) (pending : Bool) (ids : Finset Id) (transfers : List (Transfer Id)) :
    ∑ id ∈ ids, entered side pending id transfers =
      (transfers.map fun transfer =>
        if transfer.pending = pending ∧ transfer.party side ∈ ids then transfer.amount else 0).sum := by
  induction transfers with
  | nil => simp [entered]
  | cons transfer rest ih =>
      have own : ∑ id ∈ ids, entry side pending id transfer =
          if transfer.pending = pending ∧ transfer.party side ∈ ids then transfer.amount else 0 := by
        by_cases booked : transfer.pending = pending
        · simp [entry, booked]
        · simp [entry, booked]
      simp only [entered_cons, Finset.sum_add_distrib, own, ih, List.map_cons, List.sum_cons]

-- On every ledger the debits and the credits come to the same.
theorem trial_balance [Fintype Id] (audited : Audited rules ledger) (side : Side) (pending : Bool) (number : UInt32) :
    ∑ id with onLedger ledger number id = true, (balancesAt ledger id).on side pending =
      turnover pending number ledger.transfers := by
  have parts : ∀ transfer ∈ ledger.transfers,
      (transfer.party side ∈ Finset.univ.filter fun id => onLedger ledger number id = true) ↔ transfer.ledger = number := by
    intro transfer member
    obtain ⟨account, found, same⟩ := audited.sided transfer member side
    rw [Finset.mem_filter, onLedger, found]
    simp [same]
  rw [Finset.sum_congr rfl fun id _ => audited.replayed id side pending, sum_entered, turnover]
  refine congrArg List.sum (List.map_congr_left fun transfer member => ?_)
  simp only [parts transfer member]

end DoubleEntry
