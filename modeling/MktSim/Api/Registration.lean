import MktSim.Api.Users
import MktSim.Lib.Trace

set_option autoImplicit false

namespace MktSim

open Sql Runs DoubleEntry

inductive RegisterStage where
  | idle
  | hashed (user : User)
  | inserted (user : User)
  | returned (user : User)
  | refused (status : Status)
deriving DecidableEq

def RegisterStage.inFlight : RegisterStage → Bool
  | .hashed _ | .inserted _ => true
  | _ => false

def stageHashed (user : String → User) : Option String → RegisterStage
  | some hash => .hashed (user hash)
  | none => .refused .internalServerError

def stageInserted (user : User) : Except Status Unit → RegisterStage
  | .ok () => .inserted user
  | .error status => .refused status

-- The user stays in the table when its account could not be created.
def stageCreated (user : User) : Except Status Unit → RegisterStage
  | .ok () => .returned user
  | .error status => .refused status

structure Registry where
  users : Users
  accounts : Accounts
  requests : Uuid → RegisterStage

def Registry.start (initial : Users) (accounts : Accounts) : Registry := ⟨initial, accounts, fun _ => .idle⟩

def Registry.setStage (registry : Registry) (accountId : Uuid) (stage : RegisterStage) : Registry :=
  { registry with requests := Function.update registry.requests accountId stage }

@[simp] theorem set_stage_users (registry : Registry) (accountId : Uuid) (stage : RegisterStage) :
    (registry.setStage accountId stage).users = registry.users := rfl

@[simp] theorem set_stage_accounts (registry : Registry) (accountId : Uuid) (stage : RegisterStage) :
    (registry.setStage accountId stage).accounts = registry.accounts := rfl

-- `Uuid::new_v4` gives an identifier that names nothing yet.
def Unused (registry : Registry) (accountId : Uuid) : Prop :=
  registry.requests accountId = .idle ∧ accountId ≠ ADMIN_ACCOUNT_ID ∧ accountId ∉ registry.users.rows.map User.id ∧
    (registry.accounts.accounts accountId).isNone = true ∧ tigerBeetle.reserved accountId = false

instance (registry : Registry) (accountId : Uuid) : Decidable (Unused registry accountId) :=
  inferInstanceAs (Decidable (_ ∧ _ ∧ _ ∧ _ ∧ _))

-- The awaits of `register`. Hashing a password draws a salt.
inductive RegistryEvent where
  | begin (accountId : Uuid) (form : NewAccountForm) (salt : String)
  | insert (accountId : Uuid) (call : Call)
  | createAccount (accountId : Uuid) (call : Call)
deriving DecidableEq

section Step

variable (bcrypt : String → String → Option String)

def Registry.step (registry : Registry) : RegistryEvent → Option Registry
  | .begin accountId form salt =>
      if Unused registry accountId then
        let user hash : User := ⟨accountId, form.email, hash, .empty⟩
        some (registry.setStage accountId (stageHashed user (bcrypt salt form.password)))
      else none
  | .insert accountId call =>
      match registry.requests accountId with
      | .hashed user =>
          let inserted := insertUser call user registry.users
          some ({ registry with users := inserted.2 }.setStage accountId (stageInserted user inserted.1))
      | _ => none
  | .createAccount accountId call =>
      match registry.requests accountId with
      | .inserted user =>
          let created := register call accountId registry.accounts
          some ({ registry with accounts := created.2 }.setStage accountId (stageCreated user created.1))
      | _ => none

def RegistryRun (initial : Users) (accounts : Accounts) : List RegistryEvent → Registry → Prop :=
  Trace (Registry.start initial accounts) fun _ before event after => before.step bcrypt event = some after

end Step

def RegisterStage.row : RegisterStage → Option User
  | .inserted user | .returned user => some user
  | .idle | .hashed _ | .refused _ => none

def Settled (registry : Registry) : Prop := ∀ accountId, (registry.requests accountId).inFlight = false

-- What a register request leaves behind is a user with a funds account or nothing at all.
-- An email is taken by a row from before or by a request that did not return an error.
structure Atomic (initial : Users) (registry : Registry) : Prop where
  funded : Settled registry → ∀ row ∈ registry.users.rows, registry.requests row.id ≠ .idle →
    ∃ account, registry.accounts.accounts row.id = some account ∧ account.form.ledger = fundsLedger
  undone : ∀ accountId status, registry.requests accountId = .refused status →
    ∀ row ∈ registry.users.rows, row.id ≠ accountId
  taken : ∀ row ∈ registry.users.rows, row ∈ initial.rows ∨
    registry.requests row.id = .inserted row ∨ registry.requests row.id = .returned row
  kept : ∀ row ∈ initial.rows, row ∈ registry.users.rows
  stays : ∀ accountId user, (registry.requests accountId).row = some user → user ∈ registry.users.rows ∧ user.id = accountId

-- TigerBeetle carries the call out and its answer arrives. No answer of the database gets lost on its way back.
def Answered : RegistryEvent → Prop
  | .begin _ _ _ => True
  | .insert _ call => call ≠ .unanswered
  | .createAccount _ call => call = .answered

theorem insert_user_table (call : Call) (user : User) (table : Users) :
    (insertUser call user table).2 = (perform call (Rows.insert user) table).2 := by
  rw [insertUser]
  split <;> simp_all only

theorem insert_user_cases (call : Call) (user : User) (table : Users) :
    (insertUser call user table).2 = table ∨ table.insert user = .ok (insertUser call user table).2 := by
  rw [insert_user_table]
  cases perform_cases call (Rows.insert user) table with
  | inl kept => exact .inl kept.1
  | inr done => exact .inr done

theorem insert_user_answered {call : Call} {user : User} {table : Users} (asked : call ≠ .unanswered) :
    ((insertUser call user table).1 = .ok () ∧ table.insert user = .ok (insertUser call user table).2) ∨
      ((∃ status, (insertUser call user table).1 = .error status) ∧ (insertUser call user table).2 = table) := by
  cases call with
  | unanswered => exact absurd rfl asked
  | lost => exact .inr ⟨⟨_, rfl⟩, rfl⟩
  | answered =>
      cases inserted : table.insert user with
      | ok users => simp [insertUser, perform, inserted]
      | error violation => cases violation <;> simp [insertUser, perform, inserted]

theorem register_unused {accountId : Uuid} {accounts : Accounts} (free : accounts.accounts accountId = none)
    (named : tigerBeetle.reserved accountId = false) :
    register .answered accountId accounts =
      (.ok (), { accounts with accounts := Function.update accounts.accounts accountId (some ⟨fundsAccount accountId, .zero⟩) }) := by
  simp [register, openAccount, perform, createAccount, fundsAccount, fundsLedger, named, free]

inductive Registered (bcrypt : String → String → Option String) (before : Registry) : RegistryEvent → Registry → Prop where
  | begin (accountId : Uuid) (form : NewAccountForm) (salt : String) (unused : Unused before accountId) :
      Registered bcrypt before (.begin accountId form salt)
        (before.setStage accountId (stageHashed (⟨accountId, form.email, ·, .empty⟩) (bcrypt salt form.password)))
  | insert (accountId : Uuid) (call : Call) (user : User) (stage : before.requests accountId = .hashed user) :
      Registered bcrypt before (.insert accountId call)
        ({ before with users := (insertUser call user before.users).2 }.setStage accountId
          (stageInserted user (insertUser call user before.users).1))
  | createAccount (accountId : Uuid) (call : Call) (user : User) (stage : before.requests accountId = .inserted user) :
      Registered bcrypt before (.createAccount accountId call)
        ({ before with accounts := (register call accountId before.accounts).2 }.setStage accountId
          (stageCreated user (register call accountId before.accounts).1))

section Stepped

variable {bcrypt : String → String → Option String} {before after : Registry} {event : RegistryEvent}

theorem registry_step_cases (fired : before.step bcrypt event = some after) : Registered bcrypt before event after := by
  cases event with
  | begin accountId form salt =>
      by_cases unused : Unused before accountId
      · rw [Registry.step, if_pos unused] at fired
        obtain rfl := Option.some.inj fired
        exact .begin accountId form salt unused
      · rw [Registry.step, if_neg unused] at fired
        cases fired
  | insert accountId call =>
      rw [Registry.step] at fired
      cases stage : before.requests accountId with
      | hashed user =>
          rw [stage] at fired
          obtain rfl := Option.some.inj fired
          exact .insert accountId call user stage
      | _ =>
          rw [stage] at fired
          cases fired
  | createAccount accountId call =>
      rw [Registry.step] at fired
      cases stage : before.requests accountId with
      | inserted user =>
          rw [stage] at fired
          obtain rfl := Option.some.inj fired
          exact .createAccount accountId call user stage
      | _ =>
          rw [stage] at fired
          cases fired

end Stepped

def StageHolds (accounts : Accounts) (accountId : Uuid) : RegisterStage → Prop
  | .hashed user | .inserted user =>
      user.id = accountId ∧ accounts.accounts accountId = none ∧ tigerBeetle.reserved accountId = false
  | .returned _ => ∃ account, accounts.accounts accountId = some account ∧ account.form.ledger = fundsLedger
  | _ => True

structure Enrolled (initial : Users) (registry : Registry) : Prop where
  rows : ∀ row ∈ registry.users.rows, (row ∈ initial.rows ∧ registry.requests row.id = .idle) ∨
    registry.requests row.id = .inserted row ∨ registry.requests row.id = .returned row
  stages : ∀ accountId, StageHolds registry.accounts accountId (registry.requests accountId)
  kept : ∀ row ∈ initial.rows, row ∈ registry.users.rows
  stays : ∀ accountId user, (registry.requests accountId).row = some user → user ∈ registry.users.rows ∧ user.id = accountId

theorem stage_of_own (registry : Registry) (accountId : Uuid) (stage : RegisterStage) :
    (registry.setStage accountId stage).requests accountId = stage := by
  simp [Registry.setStage]

theorem stage_of_other (registry : Registry) {accountId other : Uuid} (different : other ≠ accountId) (stage : RegisterStage) :
    (registry.setStage accountId stage).requests other = registry.requests other := by
  simp [Registry.setStage, different]

theorem stages_set {registry : Registry} {accountId : Uuid} {stage : RegisterStage}
    (own : StageHolds registry.accounts accountId stage)
    (others : ∀ other, other ≠ accountId → StageHolds registry.accounts other (registry.requests other)) (other : Uuid) :
    StageHolds (registry.setStage accountId stage).accounts other ((registry.setStage accountId stage).requests other) := by
  by_cases same : other = accountId
  · rw [same, stage_of_own]
    exact own
  · rw [stage_of_other registry same]
    exact others other same

theorem stays_set {registry : Registry} {accountId : Uuid} {stage : RegisterStage}
    (own : ∀ user, stage.row = some user → user ∈ registry.users.rows ∧ user.id = accountId)
    (others : ∀ other user, (registry.requests other).row = some user → user ∈ registry.users.rows ∧ user.id = other)
    (other : Uuid) (user : User) (inserted : ((registry.setStage accountId stage).requests other).row = some user) :
    user ∈ registry.users.rows ∧ user.id = other := by
  by_cases same : other = accountId
  · rw [same, stage_of_own] at inserted
    rw [same]
    exact own user inserted
  · rw [stage_of_other registry same] at inserted
    exact others other user inserted

section Preserved

variable {initial : Users} {before : Registry} (holds : Enrolled initial before)

include holds

theorem begin_enrolled {accountId : Uuid} (unused : Unused before accountId) {user : String → User}
    (own : ∀ hash, (user hash).id = accountId) (hash : Option String) :
    Enrolled initial (before.setStage accountId (stageHashed user hash)) := by
  obtain ⟨_, _, absent, none_, named⟩ := unused
  refine ⟨?_, ?_, holds.kept, stays_set ?_ holds.stays⟩
  · intro row member
    have different : row.id ≠ accountId := fun same => absent (List.mem_map.mpr ⟨row, member, same⟩)
    rw [stage_of_other before different]
    exact holds.rows row member
  · apply stages_set
    · cases hash with
      | none => trivial
      | some text => exact ⟨own text, Option.isNone_iff_eq_none.mp none_, named⟩
    · exact fun other _ => holds.stages other
  · intro user inserted
    cases hash <;> cases inserted

-- A row belongs to no request, or to one that has inserted it.
theorem row_stage {row : User} (member : row ∈ before.users.rows) {accountId : Uuid} (own : row.id = accountId) :
    before.requests accountId = .idle ∨ before.requests accountId = .inserted row ∨ before.requests accountId = .returned row := by
  rw [← own]
  exact (holds.rows row member).imp_left And.right

theorem hashed_absent {accountId : Uuid} {user : User} (stage : before.requests accountId = .hashed user)
    {row : User} (member : row ∈ before.users.rows) : row.id ≠ accountId := by
  intro own
  have stages := row_stage holds member own
  rw [stage] at stages
  simp at stages

theorem refused_absent {accountId : Uuid} {status : Status} (stage : before.requests accountId = .refused status)
    {row : User} (member : row ∈ before.users.rows) : row.id ≠ accountId := by
  intro own
  have stages := row_stage holds member own
  rw [stage] at stages
  simp at stages

theorem inserted_row {accountId : Uuid} {user : User} (stage : before.requests accountId = .inserted user)
    {row : User} (member : row ∈ before.users.rows) (own : row.id = accountId) : row = user := by
  have stages := row_stage holds member own
  rw [stage] at stages
  have same : user = row := by simpa using stages
  exact same.symm

theorem insert_enrolled {accountId : Uuid} {call : Call} {user : User} (stage : before.requests accountId = .hashed user)
    (asked : call ≠ .unanswered) :
    Enrolled initial ({ before with users := (insertUser call user before.users).2 }.setStage accountId
      (stageInserted user (insertUser call user before.users).1)) := by
  have own := holds.stages accountId
  rw [stage] at own
  have older : ∀ (users : Users) (next : RegisterStage), ∀ row ∈ before.users.rows,
      (Registry.setStage { before with users := users } accountId next).requests row.id = before.requests row.id :=
    fun users next row member => stage_of_other { before with users := users } (hashed_absent holds stage member) next
  cases insert_user_answered asked with
  | inl inserted =>
      obtain ⟨outcome, done⟩ := inserted
      have more : ∀ row ∈ before.users.rows, row ∈ (insertUser call user before.users).2.rows :=
        fun row member => (mem_insert done row).mpr (.inl member)
      rw [outcome]
      refine ⟨?_, ?_, fun row member => more row (holds.kept row member), stays_set ?_ ?_⟩
      · intro row member
        cases (mem_insert done row).mp member with
        | inl old =>
            rw [older _ _ row old]
            exact holds.rows row old
        | inr new =>
            rw [new, own.1, stage_of_own]
            exact .inr (.inl rfl)
      · exact stages_set own fun other _ => holds.stages other
      · intro _ same
        obtain rfl := Option.some.inj same
        exact ⟨(mem_insert done user).mpr (.inr rfl), own.1⟩
      · intro other held known
        obtain ⟨member, named⟩ := holds.stays other held known
        exact ⟨more held member, named⟩
  | inr failed =>
      obtain ⟨⟨status, outcome⟩, kept⟩ := failed
      rw [outcome, kept]
      refine ⟨?_, ?_, holds.kept, stays_set (fun _ none_ => by cases none_) holds.stays⟩
      · intro row member
        rw [older _ _ row member]
        exact holds.rows row member
      · exact stages_set trivial fun other _ => holds.stages other

theorem create_enrolled {accountId : Uuid} {user : User} (stage : before.requests accountId = .inserted user) :
    Enrolled initial ({ before with accounts := (register .answered accountId before.accounts).2 }.setStage accountId
      (stageCreated user (register .answered accountId before.accounts).1)) := by
  have own := holds.stages accountId
  rw [stage] at own
  rw [register_unused own.2.1 own.2.2]
  refine ⟨?_, ?_, holds.kept, stays_set ?_ holds.stays⟩
  · intro row member
    by_cases same : row.id = accountId
    · rw [same, stage_of_own, inserted_row holds stage member same]
      exact .inr (.inr rfl)
    · rw [stage_of_other _ same]
      exact holds.rows row member
  · apply stages_set
    · exact ⟨_, Function.update_self _ _ _, rfl⟩
    · intro other different
      have kept : Function.update before.accounts.accounts accountId (some ⟨fundsAccount accountId, .zero⟩) other =
          before.accounts.accounts other := Function.update_of_ne different _ _
      have older := holds.stages other
      cases asked : before.requests other with
      | hashed held | inserted held =>
          rw [asked] at older
          exact ⟨older.1, kept.trans older.2.1, older.2.2⟩
      | returned held =>
          rw [asked] at older
          obtain ⟨account, found, cash⟩ := older
          exact ⟨account, kept.trans found, cash⟩
      | idle => trivial
      | refused status => trivial
  · intro other same
    obtain rfl := Option.some.inj same
    exact holds.stays accountId user (by rw [stage]; rfl)

theorem enrolled_atomic : Atomic initial before := by
  refine ⟨?_, ?_, ?_, holds.kept, holds.stays⟩
  · intro settled row member begun
    obtain ⟨_, idle⟩ | inserted | returned := holds.rows row member
    · exact absurd idle begun
    · have waiting := settled row.id
      rw [inserted] at waiting
      cases waiting
    · have funded := holds.stages row.id
      rw [returned] at funded
      exact funded
  · intro accountId status refused row member
    exact refused_absent holds refused member
  · intro row member
    exact (holds.rows row member).imp_left And.left

end Preserved

theorem run_enrolled {bcrypt : String → String → Option String} {initial : Users} {accounts : Accounts}
    {history : List RegistryEvent} {registry : Registry} (run : RegistryRun bcrypt initial accounts history registry)
    (answered : ∀ event ∈ history, Answered event) : Enrolled initial registry := by
  have whole : (∀ event ∈ history, Answered event) → Enrolled initial registry := by
    refine trace_invariant (fun history registry => (∀ event ∈ history, Answered event) → Enrolled initial registry) ?_ ?_ run
    · exact fun _ => ⟨fun row member => .inl ⟨member, rfl⟩, fun _ => trivial, fun _ => id, fun _ _ none_ => by cases none_⟩
    · intro history before event after _ earlier fired all
      have holds := earlier fun other member => all other (List.mem_append_left _ member)
      have last := all event (List.mem_append_right _ (List.mem_singleton_self event))
      cases registry_step_cases fired with
      | begin accountId form salt unused => exact begin_enrolled holds unused (fun _ => rfl) _
      | insert accountId call user stage => exact insert_enrolled holds stage last
      | createAccount accountId call user stage =>
          obtain rfl : call = .answered := last
          exact create_enrolled holds stage
  exact whole answered

/-- As long as every call of a register request ends with its answer, requests that overlap in any order are atomic. -/
theorem registration_atomic (bcrypt : String → String → Option String) (initial : Users) (accounts : Accounts)
    (history : List RegistryEvent) (registry : Registry) (run : RegistryRun bcrypt initial accounts history registry)
    (answered : ∀ event ∈ history, Answered event) : Atomic initial registry :=
  enrolled_atomic (run_enrolled run answered)

def registryAfter (events : List RegistryEvent) : Option Registry :=
  events.foldlM (Registry.step localBcrypt) (.start .empty noAccounts)

theorem registry_run_after {events : List RegistryEvent} (fires : (registryAfter events).isSome) :
    RegistryRun localBcrypt .empty noAccounts events ((registryAfter events).get fires) :=
  run_steps .start events (Option.some_get fires).symm

def aliceId : Uuid := ⟨⟨0x3f1c9a527b0e4d63a8154c2e90d7b6f1, by decide⟩⟩

def registers (accountId : Uuid) (email : String) (create : Call) : List RegistryEvent :=
  [.begin accountId ⟨email, "abc123xyz"⟩ "R9h/cIPz0gi.URNNX3kh2O", .insert accountId .answered, .createAccount accountId create]

theorem registration_atomic_answered :
    Atomic .empty ((registryAfter (registers aliceId "alice@example.com" .answered)).get (by decide +kernel)) :=
  registration_atomic localBcrypt .empty noAccounts _ _ (registry_run_after (by decide +kernel)) (by
    intro event member
    simp only [registers, List.mem_cons, List.not_mem_nil, or_false] at member
    rcases member with rfl | rfl | rfl
    · trivial
    · exact Call.noConfusion
    · rfl)

def unfundedAlice : Registry :=
  (registryAfter (registers aliceId "alice@example.com" .lost)).get (by decide +kernel)

theorem lost_account_blocks_email : ¬ ∀ bcrypt initial accounts history registry,
    RegistryRun bcrypt initial accounts history registry →
      (∀ accountId call, .insert accountId call ∈ history → call = .answered) → Atomic initial registry := by
  intro claimed
  have atomic := claimed localBcrypt .empty noAccounts _ unfundedAlice (registry_run_after _) (by
    intro accountId call member
    simp only [registers, List.mem_cons, List.not_mem_nil, or_false] at member
    rcases member with member | member | member
    · cases member
    · cases member
      rfl
    · cases member)
  have refused : unfundedAlice.requests aliceId = .refused .internalServerError := by decide +kernel
  have remains : ∃ row ∈ unfundedAlice.users.rows, row.id = aliceId := by decide +kernel
  obtain ⟨row, member, same⟩ := remains
  exact atomic.undone aliceId _ refused row member same

end MktSim
