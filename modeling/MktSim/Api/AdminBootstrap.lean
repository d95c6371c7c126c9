import MktSim.Api.Registration

set_option autoImplicit false

namespace MktSim

open Sql Runs DoubleEntry

structure StartUp where
  form : Option NewAccountForm
  salt : String
  connected : Bool
  account : Call
  upsert : Call
deriving DecidableEq

def adminFundsAccount : AccountForm Uuid := { fundsAccount ADMIN_ACCOUNT_ID with creditsMustNotExceedDebits := false }

-- `set(password.eq(excluded(password)))`
def setPassword (excluded : User) : Update users where
  set held := { held with password := excluded.password }
  keepsId _ := rfl
  keepsKey _ := rfl

structure Bootstrapped where
  result : Except Unit Unit
  registry : Registry

section Bootstrap

variable (bcrypt : String → String → Option String)

def Registry.upsertAdmin (registry : Registry) (call : Call) (user : User) : Bootstrapped :=
  match perform call (Rows.upsert user (setPassword user)) registry.users with
  | (.ok (), users) => ⟨.ok (), { registry with users := users }⟩
  | (.error _, users) => ⟨.error (), { registry with users := users }⟩

def Registry.createAdminUser (registry : Registry) (startUp : StartUp) : Bootstrapped :=
  match startUp.form with
  | none => ⟨.error (), registry⟩
  | some form =>
      match bcrypt startUp.salt form.password with
      | none => ⟨.error (), registry⟩
      | some hash =>
          if startUp.connected then
            match openAccount startUp.account adminFundsAccount registry.accounts with
            | (.error _, accounts) => ⟨.error (), { registry with accounts := accounts }⟩
            | (.ok (), accounts) => { registry with accounts := accounts }.upsertAdmin startUp.upsert
                ⟨ADMIN_ACCOUNT_ID, form.email, hash, .ADMIN⟩
          else ⟨.error (), registry⟩

inductive BootstrapEvent where
  | register (event : RegistryEvent)
  | startUp (startUp : StartUp)
deriving DecidableEq

def Registry.next (registry : Registry) : BootstrapEvent → Option Registry
  | .register event => registry.step bcrypt event
  | .startUp startUp => some (registry.createAdminUser bcrypt startUp).registry

def BootstrapRun (accounts : Accounts) : List BootstrapEvent → Registry → Prop :=
  Trace (Registry.start .empty accounts) fun _ before event after => before.next bcrypt event = some after

structure BootstrapsAdmin (form : NewAccountForm) (before after : Users) : Prop where
  admin : ∃ row ∈ after.rows, row.id = ADMIN_ACCOUNT_ID ∧ row.roleFlags.contains .ADMIN = true ∧
    row.email = form.email ∧ ∃ salt, bcrypt salt form.password = some row.password
  others : ∀ row, row.id ≠ ADMIN_ACCOUNT_ID → (row ∈ after.rows ↔ row ∈ before.rows)

end Bootstrap

structure AdminKept (registry : Registry) : Prop where
  role : ∀ row ∈ registry.users.rows, row.id = ADMIN_ACCOUNT_ID → row.roleFlags = .ADMIN
  own : ∀ accountId user, registry.requests accountId = .hashed user → user.id = accountId
  idle : registry.requests ADMIN_ACCOUNT_ID = .idle

theorem contains_admin : Roles.ADMIN.contains .ADMIN = true := by decide

theorem inserted_not_hashed (user held : User) (outcome : Except Status Unit) : stageInserted user outcome ≠ .hashed held := by
  intro same
  cases outcome with
  | ok done => cases same
  | error status => cases same

theorem created_not_hashed (user held : User) (outcome : Except Status Unit) : stageCreated user outcome ≠ .hashed held := by
  intro same
  cases outcome with
  | ok done => cases same
  | error status => cases same

section Registered

variable {bcrypt : String → String → Option String} {before after : Registry} {event : RegistryEvent}
  (holds : AdminKept before) (registered : Registered bcrypt before event after)

include holds registered

theorem registered_idle : after.requests ADMIN_ACCOUNT_ID = .idle := by
  have begun : ∀ accountId, before.requests accountId ≠ .idle → ADMIN_ACCOUNT_ID ≠ accountId := by
    rintro accountId underWay rfl
    exact underWay holds.idle
  cases registered with
  | begin accountId form salt unused => exact (stage_of_other before unused.2.1.symm _).trans holds.idle
  | insert accountId call user stage =>
      have apart := begun accountId (by rw [stage]; exact RegisterStage.noConfusion)
      exact (stage_of_other _ apart _).trans holds.idle
  | createAccount accountId call user stage =>
      have apart := begun accountId (by rw [stage]; exact RegisterStage.noConfusion)
      exact (stage_of_other _ apart _).trans holds.idle

theorem registered_own (other : Uuid) (held : User) (hashed : after.requests other = .hashed held) : held.id = other := by
  cases registered with
  | begin accountId form salt unused =>
      by_cases same : other = accountId
      · rw [same, stage_of_own] at hashed
        cases hash : bcrypt salt form.password with
        | none =>
            rw [hash] at hashed
            cases hashed
        | some text =>
            rw [hash] at hashed
            cases hashed
            exact same.symm
      · rw [stage_of_other before same] at hashed
        exact holds.own other held hashed
  | insert accountId call user stage =>
      by_cases same : other = accountId
      · rw [same, stage_of_own] at hashed
        exact absurd hashed (inserted_not_hashed user held _)
      · rw [stage_of_other _ same] at hashed
        exact holds.own other held hashed
  | createAccount accountId call user stage =>
      by_cases same : other = accountId
      · rw [same, stage_of_own] at hashed
        exact absurd hashed (created_not_hashed user held _)
      · rw [stage_of_other _ same] at hashed
        exact holds.own other held hashed

theorem registered_role (row : User) (member : row ∈ after.users.rows) (admin : row.id = ADMIN_ACCOUNT_ID) :
    row.roleFlags = .ADMIN := by
  cases registered with
  | begin accountId form salt unused => exact holds.role row member admin
  | createAccount accountId call user stage => exact holds.role row member admin
  | insert accountId call user stage =>
      rw [set_stage_users] at member
      cases insert_user_cases call user before.users with
      | inl kept =>
          simp only [kept] at member
          exact holds.role row member admin
      | inr inserted =>
          cases (mem_insert inserted row).mp member with
          | inl old => exact holds.role row old admin
          | inr new =>
              have own := holds.own accountId user stage
              rw [← own, ← new, admin, holds.idle] at stage
              cases stage

theorem registered_kept : AdminKept after :=
  ⟨registered_role holds registered, registered_own holds registered, registered_idle holds registered⟩

end Registered

theorem upserted_role {table next : Users} {user : User} (isAdmin : user.roleFlags = .ADMIN)
    (kept : ∀ row ∈ table.rows, row.id = ADMIN_ACCOUNT_ID → row.roleFlags = .ADMIN)
    (done : table.upsert user (setPassword user) = .ok next) :
    ∀ row ∈ next.rows, row.id = ADMIN_ACCOUNT_ID → row.roleFlags = .ADMIN := by
  intro row member admin
  obtain ⟨_, _, _, rfl⟩ | ⟨_, inserted⟩ := upsert_cases done
  · obtain ⟨held, old, _, rfl⟩ | ⟨old, _⟩ := (mem_update _ _ row).mp member
    · exact kept held old admin
    · exact kept row old admin
  · cases (mem_insert inserted row).mp member with
    | inl old => exact kept row old admin
    | inr new => rw [new, isAdmin]

theorem upsert_admin_cases (registry : Registry) (call : Call) (user : User) :
    (registry.upsertAdmin call user).registry.requests = registry.requests ∧
      (((registry.upsertAdmin call user).result = .error () ∧ (registry.upsertAdmin call user).registry.users = registry.users) ∨
        registry.users.upsert user (setPassword user) = .ok (registry.upsertAdmin call user).registry.users) := by
  unfold Registry.upsertAdmin
  have ends := perform_cases call (Rows.upsert user (setPassword user)) registry.users
  cases answer : perform call (Rows.upsert user (setPassword user)) registry.users with
  | mk outcome users =>
      rw [answer] at ends
      cases outcome with
      | ok done =>
          obtain ⟨_, _, failed⟩ | upserted := ends
          · cases failed
          · exact ⟨rfl, .inr upserted⟩
      | error failure =>
          obtain ⟨kept, _⟩ | upserted := ends
          · exact ⟨rfl, .inl ⟨rfl, kept⟩⟩
          · exact ⟨rfl, .inr upserted⟩

theorem create_admin_cases (bcrypt : String → String → Option String) (before : Registry) (startUp : StartUp) :
    (before.createAdminUser bcrypt startUp).registry.requests = before.requests ∧
      (((before.createAdminUser bcrypt startUp).result = .error () ∧
          (before.createAdminUser bcrypt startUp).registry.users = before.users) ∨
        ∃ form hash, startUp.form = some form ∧ bcrypt startUp.salt form.password = some hash ∧
          before.users.upsert ⟨ADMIN_ACCOUNT_ID, form.email, hash, .ADMIN⟩
            (setPassword ⟨ADMIN_ACCOUNT_ID, form.email, hash, .ADMIN⟩) =
              .ok (before.createAdminUser bcrypt startUp).registry.users) := by
  unfold Registry.createAdminUser
  cases configured : startUp.form with
  | none => exact ⟨rfl, .inl ⟨rfl, rfl⟩⟩
  | some form =>
      simp only
      cases hashes : bcrypt startUp.salt form.password with
      | none => exact ⟨rfl, .inl ⟨rfl, rfl⟩⟩
      | some hash =>
          simp only
          split
          · cases opened : openAccount startUp.account adminFundsAccount before.accounts with
            | mk outcome accounts =>
                cases outcome with
                | error status => exact ⟨rfl, .inl ⟨rfl, rfl⟩⟩
                | ok done =>
                    obtain ⟨requests, upserted⟩ := upsert_admin_cases { before with accounts := accounts } startUp.upsert
                      ⟨ADMIN_ACCOUNT_ID, form.email, hash, .ADMIN⟩
                    exact ⟨requests, upserted.imp_right fun done => ⟨form, hash, rfl, hashes, done⟩⟩
          · exact ⟨rfl, .inl ⟨rfl, rfl⟩⟩

theorem started_kept {bcrypt : String → String → Option String} {before : Registry} (holds : AdminKept before)
    (startUp : StartUp) : AdminKept (before.createAdminUser bcrypt startUp).registry := by
  obtain ⟨requests, table⟩ := create_admin_cases bcrypt before startUp
  constructor
  · obtain ⟨_, kept⟩ | ⟨form, hash, _, _, upserted⟩ := table
    · rw [kept]
      exact holds.role
    · exact upserted_role rfl holds.role upserted
  · rw [requests]
    exact holds.own
  · rw [requests]
    exact holds.idle

theorem run_admin_kept {bcrypt : String → String → Option String} {accounts : Accounts} {history : List BootstrapEvent}
    {registry : Registry} (run : BootstrapRun bcrypt accounts history registry) : AdminKept registry := by
  refine trace_invariant (fun _ registry => AdminKept registry) ?_ ?_ run
  · exact ⟨(fun row member => by cases member), (fun accountId user hashed => by cases hashed), rfl⟩
  · intro history before event after _ holds fired
    cases event with
    | register event => exact registered_kept holds (registry_step_cases fired)
    | startUp startUp =>
        obtain rfl := Option.some.inj fired
        exact started_kept holds startUp

/-- The configured email finds its row whoever owns it, so the start-up does what it should exactly when no one else does. -/
theorem bootstrap_iff (bcrypt : String → String → Option String) (accounts : Accounts) (history : List BootstrapEvent)
    (registry : Registry) (run : BootstrapRun bcrypt accounts history registry) (startUp : StartUp) (form : NewAccountForm)
    (configured : startUp.form = some form) (booted : (registry.createAdminUser bcrypt startUp).result = .ok ()) :
    BootstrapsAdmin bcrypt form registry.users (registry.createAdminUser bcrypt startUp).registry.users ↔
      ∀ row ∈ registry.users.rows, row.email = form.email → row.id = ADMIN_ACCOUNT_ID := by
  have kept := run_admin_kept run
  obtain ⟨_, ⟨failed, _⟩ | ⟨other, hash, same, hashes, upserted⟩⟩ := create_admin_cases bcrypt registry startUp
  · rw [booted] at failed
    cases failed
  · rw [configured] at same
    obtain rfl := Option.some.inj same
    generalize (registry.createAdminUser bcrypt startUp).registry.users = after at upserted ⊢
    obtain ⟨held, found, email, rfl⟩ | ⟨free, inserted⟩ := upsert_cases upserted
    · constructor
      · rintro ⟨⟨row, member, admin, _, own, _⟩, _⟩ customer isRow taken
        obtain ⟨before, old, hit, rfl⟩ | ⟨_, miss⟩ := (mem_update _ _ row).mp member
        · have one : customer = before := row_of_key isRow old (taken.trans hit.symm)
          rw [one]
          exact admin
        · exact absurd own miss
      · intro alone
        have admin := alone held found email
        constructor
        · refine ⟨_, (mem_update _ _ _).mpr (.inl ⟨held, found, email, rfl⟩), admin, ?_, email, startUp.salt, hashes⟩
          change held.roleFlags.contains .ADMIN = true
          rw [kept.role held found admin]
          exact contains_admin
        · intro row customer
          rw [mem_update]
          constructor
          · rintro (⟨before, old, hit, rfl⟩ | ⟨old, _⟩)
            · exact absurd (alone before old hit) customer
            · exact old
          · intro old
            exact .inr ⟨old, fun hit => customer (alone row old hit)⟩
    · refine iff_of_true ?_ fun row member taken => absurd taken (free row member)
      constructor
      · exact ⟨_, (mem_insert inserted _).mpr (.inr rfl), rfl, contains_admin, rfl, startUp.salt, hashes⟩
      · intro row customer
        rw [mem_insert inserted]
        exact or_iff_left fun new => customer (by rw [new])

def bootedAfter (events : List BootstrapEvent) : Option Registry :=
  events.foldlM (Registry.next localBcrypt) (.start .empty noAccounts)

theorem booted_run_after {events : List BootstrapEvent} (fires : (bootedAfter events).isSome) :
    BootstrapRun localBcrypt noAccounts events ((bootedAfter events).get fires) :=
  run_steps .start events (Option.some_get fires).symm

def aliceRegistered : List BootstrapEvent := (registers aliceId "alice@example.com" .answered).map .register

def boots (email : String) : StartUp :=
  ⟨some ⟨email, "abc123xyz"⟩, "R9h/cIPz0gi.URNNX3kh2O", true, .answered, .answered⟩

def besideAlice : Registry := (bootedAfter aliceRegistered).get (by decide +kernel)

theorem bootstrap_beside_alice :
    BootstrapsAdmin localBcrypt ⟨"admin@example.com", "abc123xyz"⟩ besideAlice.users
        (besideAlice.createAdminUser localBcrypt (boots "admin@example.com")).registry.users ↔
      ∀ row ∈ besideAlice.users.rows, row.email = "admin@example.com" → row.id = ADMIN_ACCOUNT_ID :=
  bootstrap_iff localBcrypt noAccounts aliceRegistered besideAlice (booted_run_after _) (boots "admin@example.com")
    ⟨"admin@example.com", "abc123xyz"⟩ rfl (by decide +kernel)

theorem bootstrap_takes_customer : ¬ ∀ bcrypt accounts history registry, BootstrapRun bcrypt accounts history registry →
    ∀ (startUp : StartUp) (form : NewAccountForm), startUp.form = some form →
      (registry.createAdminUser bcrypt startUp).result = .ok () →
        BootstrapsAdmin bcrypt form registry.users (registry.createAdminUser bcrypt startUp).registry.users := by
  intro claimed
  have bootstraps := claimed localBcrypt noAccounts aliceRegistered besideAlice (booted_run_after _)
    (boots "alice@example.com") ⟨"alice@example.com", "abc123xyz"⟩ rfl (by decide +kernel)
  have alone : ∀ row ∈ (besideAlice.createAdminUser localBcrypt (boots "alice@example.com")).registry.users.rows,
      row.id ≠ ADMIN_ACCOUNT_ID := by decide +kernel
  obtain ⟨row, member, admin, _⟩ := bootstraps.admin
  exact alone row member admin

end MktSim
