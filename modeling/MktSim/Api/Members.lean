import MktSim.Api.Deployment

set_option autoImplicit false

namespace MktSim

open Runs DoubleEntry Sql

variable {server : Server} {clock : Nat} {history : List DeploymentEvent} {before after deployment : Deployment}
  {event : DeploymentEvent}

def PasswordSet (history : List DeploymentEvent) (email password : String) : Prop :=
  (∃ accountId salt, .register (.begin accountId ⟨email, password⟩ salt) ∈ history) ∨
    ∃ startUp, .startUp startUp ∈ history ∧ startUp.form = some ⟨email, password⟩

def Unclaimed (history : List DeploymentEvent) (email : String) : Prop :=
  ∀ startUp, .startUp startUp ∈ history → ∀ form, startUp.form = some form → form.email ≠ email

structure Member (server : Server) (history : List DeploymentEvent) (row : User) : Prop where
  role : row.roleFlags = if row.id = ADMIN_ACCOUNT_ID then .ADMIN else .empty
  password : ∃ salt password, server.authn.bcrypt.hash salt password = some row.password ∧
    PasswordSet history row.email password

-- The row of a request that has inserted it. A start-up can only have set another password.
structure Enlisted (history : List DeploymentEvent) (table : Users) (accountId : Uuid) (user row : User) : Prop where
  known : row ∈ table.rows
  id : row.id = accountId
  email : row.email = user.email
  password : Unclaimed history user.email → row.password = user.password

def StageKnown (server : Server) (history : List DeploymentEvent) (table : Users) (accountId : Uuid) :
    RegisterStage → Prop
  | .hashed user => user.id = accountId ∧ Member server history user
  | .inserted user | .returned user => ∃ row, Enlisted history table accountId user row
  | .idle | .refused _ => True

def BegunWith (server : Server) (form : NewAccountForm) (salt : String) : RegisterStage → Prop
  | .hashed user | .inserted user | .returned user =>
      user.email = form.email ∧ server.authn.bcrypt.hash salt form.password = some user.password
  | .refused _ => True
  | .idle => False

structure Membership (server : Server) (history : List DeploymentEvent) (deployment : Deployment) : Prop where
  rows : ∀ row ∈ deployment.users.rows, Member server history row
  stages : ∀ accountId, StageKnown server history deployment.users accountId (deployment.registering accountId)
  begun : ∀ accountId form salt, .register (.begin accountId form salt) ∈ history →
    BegunWith server form salt (deployment.registering accountId)
  idle : deployment.registering ADMIN_ACCOUNT_ID = .idle

theorem password_set_append {email password : String} (set : PasswordSet history email password)
    (event : DeploymentEvent) : PasswordSet (history ++ [event]) email password := by
  obtain ⟨accountId, salt, begun⟩ | ⟨startUp, started, form⟩ := set
  · exact .inl ⟨accountId, salt, List.mem_append_left _ begun⟩
  · exact .inr ⟨startUp, List.mem_append_left _ started, form⟩

theorem unclaimed_before {email : String} (unclaimed : Unclaimed (history ++ [event]) email) : Unclaimed history email :=
  fun startUp started => unclaimed startUp (List.mem_append_left _ started)

theorem member_append {row : User} (member : Member server history row) (event : DeploymentEvent) :
    Member server (history ++ [event]) row := by
  obtain ⟨salt, password, hashed, set⟩ := member.password
  exact ⟨member.role, salt, password, hashed, password_set_append set event⟩

theorem stage_known_kept {table next : Users} {accountId : Uuid} {stage : RegisterStage}
    (known : StageKnown server history table accountId stage)
    (rows : ∀ user row, Enlisted history table accountId user row → ∃ later, Enlisted (history ++ [event]) next accountId user later) :
    StageKnown server (history ++ [event]) next accountId stage := by
  cases stage with
  | hashed user => exact ⟨known.1, member_append known.2 event⟩
  | inserted user | returned user =>
      obtain ⟨row, enlisted⟩ := known
      exact rows user row enlisted
  | idle => trivial
  | refused status => trivial

theorem enlisted_kept {table next : Users} {accountId : Uuid} {user row : User} (more : table.rows ⊆ next.rows)
    (enlisted : Enlisted history table accountId user row) : Enlisted (history ++ [event]) next accountId user row :=
  ⟨more enlisted.known, enlisted.id, enlisted.email, fun unclaimed => enlisted.password (unclaimed_before unclaimed)⟩

theorem insert_user_ok {call : Call} {user : User} {table : Users} (ok : (insertUser call user table).1 = .ok ()) :
    table.insert user = .ok (insertUser call user table).2 := by
  cases call with
  | lost => cases ok
  | unanswered =>
      cases inserted : table.insert user with
      | ok next => simp [insertUser, perform, inserted] at ok
      | error violation => simp [insertUser, perform, inserted] at ok
  | answered =>
      cases @insert_user_answered .answered user table Call.noConfusion with
      | inl done => exact done.2
      | inr failed =>
          obtain ⟨⟨status, error⟩, _⟩ := failed
          rw [error] at ok
          cases ok

section Step

variable (holds : Membership server history before)

include holds

theorem membership_kept (users : after.users = before.users) (stages : after.registering = before.registering)
    (noBegin : ∀ accountId form salt, event ≠ .register (.begin accountId form salt)) :
    Membership server (history ++ [event]) after := by
  constructor
  · intro row member
    rw [users] at member
    exact member_append (holds.rows row member) event
  · intro accountId
    rw [users, stages]
    exact stage_known_kept (holds.stages accountId) fun user row enlisted => ⟨row, enlisted_kept (fun _ same => same) enlisted⟩
  · intro accountId form salt begun
    rw [stages]
    cases List.mem_append.mp begun with
    | inl old => exact holds.begun accountId form salt old
    | inr new => exact absurd (List.mem_singleton.mp new).symm (noBegin accountId form salt)
  · rw [stages]
    exact holds.idle

theorem registered_idle_admin {registry : Registry} {event : RegistryEvent}
    (registered : Registered server.authn.bcrypt.hash before.registry event registry) :
    registry.requests ADMIN_ACCOUNT_ID = .idle := by
  have begun : ∀ accountId, before.registering accountId ≠ .idle → ADMIN_ACCOUNT_ID ≠ accountId := by
    rintro accountId underWay rfl
    exact underWay holds.idle
  cases registered with
  | begin accountId form salt unused => exact (stage_of_other before.registry unused.2.1.symm _).trans holds.idle
  | insert accountId call user stage =>
      have hashed : before.registering accountId = .hashed user := stage
      exact (stage_of_other _ (begun accountId (by rw [hashed]; exact RegisterStage.noConfusion)) _).trans holds.idle
  | createAccount accountId call user stage =>
      have inserted : before.registering accountId = .inserted user := stage
      exact (stage_of_other _ (begun accountId (by rw [inserted]; exact RegisterStage.noConfusion)) _).trans holds.idle

theorem membership_staged {registry : Registry} {accountId : Uuid} {stage : RegisterStage}
    (rows : ∀ row ∈ registry.users.rows, row ∈ before.users.rows ∨ Member server (history ++ [event]) row)
    (more : before.users.rows ⊆ registry.users.rows)
    (requests : registry.requests = Function.update before.registering accountId stage)
    (own : StageKnown server (history ++ [event]) registry.users accountId stage)
    (goesOn : ∀ form salt, .register (.begin accountId form salt) ∈ history ++ [event] → BegunWith server form salt stage)
    (others : ∀ other form salt, event = .register (.begin other form salt) → other = accountId)
    (idle : registry.requests ADMIN_ACCOUNT_ID = .idle) :
    Membership server (history ++ [event]) (before.withRegistry registry) := by
  constructor
  · intro row member
    cases rows row member with
    | inl old => exact member_append (holds.rows row old) event
    | inr new => exact new
  · intro other
    change StageKnown _ _ registry.users other (registry.requests other)
    rw [requests]
    by_cases same : other = accountId
    · rw [same, Function.update_self]
      exact own
    · rw [Function.update_of_ne same]
      exact stage_known_kept (holds.stages other) fun user row enlisted => ⟨row, enlisted_kept more enlisted⟩
  · intro other form salt begun
    change BegunWith server form salt (registry.requests other)
    rw [requests]
    by_cases same : other = accountId
    · rw [same] at begun
      rw [same, Function.update_self]
      exact goesOn form salt begun
    · rw [Function.update_of_ne same]
      cases List.mem_append.mp begun with
      | inl old => exact holds.begun other form salt old
      | inr new => exact absurd (others other form salt (List.mem_singleton.mp new).symm) same
  · exact idle

theorem begin_member {accountId : Uuid} {form : NewAccountForm} {salt : String} (unused : Unused before.registry accountId)
    (idle : (before.registry.setStage accountId
      (stageHashed (⟨accountId, form.email, ·, .empty⟩) (server.authn.bcrypt.hash salt form.password))).requests
        ADMIN_ACCOUNT_ID = .idle) :
    Membership server (history ++ [.register (.begin accountId form salt)])
      (before.withRegistry (before.registry.setStage accountId
        (stageHashed (⟨accountId, form.email, ·, .empty⟩) (server.authn.bcrypt.hash salt form.password)))) := by
  have free : before.registering accountId = .idle := unused.1
  have first : ∀ other otherSalt, .register (.begin accountId other otherSalt) ∉ history := by
    intro other otherSalt begun
    have stage := holds.begun accountId other otherSalt begun
    rw [free] at stage
    exact stage
  refine membership_staged holds (fun row member => .inl member) (fun _ member => member) rfl ?_ ?_ ?_ idle
  · cases hashed : server.authn.bcrypt.hash salt form.password with
    | none => trivial
    | some text =>
        refine ⟨rfl, (if_neg unused.2.1).symm, salt, form.password, hashed, .inl ⟨accountId, salt, ?_⟩⟩
        exact List.mem_append_right _ (List.mem_singleton_self _)
  · intro other otherSalt begun
    cases List.mem_append.mp begun with
    | inl old => exact absurd old (first other otherSalt)
    | inr new =>
        cases List.mem_singleton.mp new
        cases hashed : server.authn.bcrypt.hash salt form.password with
        | none => trivial
        | some text => exact ⟨rfl, hashed⟩
  · intro other otherForm otherSalt same
    cases same
    rfl

theorem insert_member {accountId : Uuid} {call : Call} {user : User} (stage : before.registering accountId = .hashed user)
    (idle : ({ before.registry with users := (insertUser call user before.users).2 }.setStage accountId
      (stageInserted user (insertUser call user before.users).1)).requests ADMIN_ACCOUNT_ID = .idle) :
    Membership server (history ++ [.register (.insert accountId call)])
      (before.withRegistry ({ before.registry with users := (insertUser call user before.users).2 }.setStage accountId
        (stageInserted user (insertUser call user before.users).1))) := by
  have known := holds.stages accountId
  rw [stage] at known
  have grown := insert_user_cases call user before.users
  refine membership_staged holds ?_ ?_ rfl ?_ ?_ ?_ idle
  · intro row member
    obtain kept | inserted := grown
    · exact .inl (kept ▸ member)
    · cases (mem_insert inserted row).mp member with
      | inl old => exact .inl old
      | inr new =>
          rw [new]
          exact .inr (member_append known.2 _)
  · intro row member
    obtain kept | inserted := grown
    · exact kept.symm ▸ member
    · exact (mem_insert inserted row).mpr (.inl member)
  · cases outcome : (insertUser call user before.users).1 with
    | error status => trivial
    | ok done =>
        have inserted := insert_user_ok outcome
        exact ⟨user, (mem_insert inserted user).mpr (.inr rfl), known.1, rfl, fun _ => rfl⟩
  · intro form salt begun
    cases List.mem_append.mp begun with
    | inr new => cases List.mem_singleton.mp new
    | inl old =>
        have goesOn := holds.begun accountId form salt old
        rw [stage] at goesOn
        cases (insertUser call user before.users).1 with
        | error status => trivial
        | ok done => exact goesOn
  · intro other form salt same
    cases same

theorem create_member {accountId : Uuid} {call : Call} {user : User} (stage : before.registering accountId = .inserted user)
    (idle : ({ before.registry with accounts := (register call accountId before.exchange.accounts).2 }.setStage accountId
      (stageCreated user (register call accountId before.exchange.accounts).1)).requests ADMIN_ACCOUNT_ID = .idle) :
    Membership server (history ++ [.register (.createAccount accountId call)])
      (before.withRegistry ({ before.registry with accounts := (register call accountId before.exchange.accounts).2 }.setStage
        accountId (stageCreated user (register call accountId before.exchange.accounts).1))) := by
  have known := holds.stages accountId
  rw [stage] at known
  obtain ⟨row, enlisted⟩ := known
  refine membership_staged holds (fun other member => .inl member) (fun _ member => member) rfl ?_ ?_ ?_ idle
  · cases (register call accountId before.exchange.accounts).1 with
    | error status => trivial
    | ok done => exact ⟨row, enlisted_kept (fun _ member => member) enlisted⟩
  · intro form salt begun
    cases List.mem_append.mp begun with
    | inr new => cases List.mem_singleton.mp new
    | inl old =>
        have goesOn := holds.begun accountId form salt old
        rw [stage] at goesOn
        cases (register call accountId before.exchange.accounts).1 with
        | error status => trivial
        | ok done => exact goesOn
  · intro other form salt same
    cases same

theorem started_member (startUp : StartUp) :
    Membership server (history ++ [.startUp startUp])
      (before.withRegistry (before.registry.createAdminUser server.authn.bcrypt.hash startUp).registry) := by
  obtain ⟨requests, table⟩ := create_admin_cases server.authn.bcrypt.hash before.registry startUp
  have noBegin : ∀ accountId form salt, DeploymentEvent.startUp startUp ≠ .register (.begin accountId form salt) :=
    fun _ _ _ => DeploymentEvent.noConfusion
  obtain ⟨_, kept⟩ | ⟨form, hash, configured, hashed, upserted⟩ := table
  · exact membership_kept holds kept requests noBegin
  · have last : DeploymentEvent.startUp startUp ∈ history ++ [.startUp startUp] :=
      List.mem_append_right _ (List.mem_singleton_self _)
    have set : PasswordSet (history ++ [.startUp startUp]) form.email form.password := .inr ⟨startUp, last, configured⟩
    generalize (before.registry.createAdminUser server.authn.bcrypt.hash startUp).registry = registry at requests upserted ⊢
    constructor
    · intro row member
      obtain ⟨held, known, email, same⟩ | ⟨_, inserted⟩ := upsert_cases upserted
      · change row ∈ registry.users.rows at member
        rw [same] at member
        obtain ⟨other, old, hit, rfl⟩ | ⟨old, _⟩ := (mem_update _ _ row).mp member
        · have email' : other.email = form.email := hit
          exact ⟨(holds.rows other old).role, startUp.salt, form.password, hashed, by rw [← email'] at set; exact set⟩
        · exact member_append (holds.rows row old) _
      · cases (mem_insert inserted row).mp member with
        | inl old => exact member_append (holds.rows row old) _
        | inr new =>
            rw [new]
            exact ⟨(if_pos rfl).symm, startUp.salt, form.password, hashed, set⟩
    · intro accountId
      change StageKnown _ _ registry.users accountId (registry.requests accountId)
      rw [requests]
      refine stage_known_kept (holds.stages accountId) fun user row enlisted => ?_
      obtain ⟨held, known, email, same⟩ | ⟨_, inserted⟩ := upsert_cases upserted
      · rw [same]
        by_cases claimed : row.email = form.email
        · refine ⟨_, (mem_update _ _ _).mpr (.inl ⟨row, enlisted.known, claimed, rfl⟩), enlisted.id, enlisted.email, ?_⟩
          intro unclaimed
          exact absurd (claimed.symm.trans enlisted.email) (unclaimed startUp last form configured)
        · exact ⟨row, (mem_update _ _ _).mpr (.inr ⟨enlisted.known, claimed⟩), enlisted.id, enlisted.email,
            fun unclaimed => enlisted.password (unclaimed_before unclaimed)⟩
      · exact ⟨row, enlisted_kept (fun other old => (mem_insert inserted other).mpr (.inl old)) enlisted⟩
    · intro accountId other salt begun
      change BegunWith server other salt (registry.requests accountId)
      rw [requests]
      cases List.mem_append.mp begun with
      | inl old => exact holds.begun accountId other salt old
      | inr new => exact absurd (List.mem_singleton.mp new).symm (noBegin accountId other salt)
    · change registry.requests ADMIN_ACCOUNT_ID = .idle
      rw [requests]
      exact holds.idle

theorem membership_step (deployed : Deployed server before event after) : Membership server (history ++ [event]) after := by
  cases deployed with
  | startUp startUp => exact started_member holds startUp
  | register event registry registered =>
      have idle := registered_idle_admin holds registered
      cases registered with
      | begin accountId form salt unused => exact begin_member holds unused idle
      | insert accountId call user stage => exact insert_member holds stage idle
      | createAccount accountId call user stage => exact create_member holds stage idle
  | _ => exact membership_kept holds rfl rfl fun _ _ _ => DeploymentEvent.noConfusion

end Step

-- Rows are never deleted, and of a row only the password changes.
theorem row_kept (deployed : Deployed server before event after) {row : User} (known : row ∈ before.users.rows) :
    ∃ later ∈ after.users.rows, later.id = row.id ∧ later.email = row.email ∧ later.roleFlags = row.roleFlags := by
  cases deployed with
  | startUp startUp =>
      obtain ⟨_, ⟨_, kept⟩ | ⟨form, hash, _, _, upserted⟩⟩ :=
        create_admin_cases server.authn.bcrypt.hash before.registry startUp
      · refine ⟨row, ?_, rfl, rfl, rfl⟩
        change row ∈ (before.registry.createAdminUser server.authn.bcrypt.hash startUp).registry.users.rows
        rw [kept]
        exact known
      · change ∃ later ∈ (before.registry.createAdminUser server.authn.bcrypt.hash startUp).registry.users.rows, _
        obtain ⟨_, _, _, same⟩ | ⟨_, inserted⟩ := upsert_cases upserted
        · rw [same]
          by_cases claimed : row.email = form.email
          · exact ⟨_, (mem_update _ _ _).mpr (.inl ⟨row, known, claimed, rfl⟩), rfl, rfl, rfl⟩
          · exact ⟨row, (mem_update _ _ _).mpr (.inr ⟨known, claimed⟩), rfl, rfl, rfl⟩
        · exact ⟨row, (mem_insert inserted row).mpr (.inl known), rfl, rfl, rfl⟩
  | register event registry registered =>
      cases registered with
      | begin accountId form salt unused => exact ⟨row, known, rfl, rfl, rfl⟩
      | insert accountId call user stage =>
          change ∃ later ∈ (insertUser call user before.users).2.rows, _
          cases insert_user_cases call user before.users with
          | inl kept => exact ⟨row, kept.symm ▸ known, rfl, rfl, rfl⟩
          | inr inserted => exact ⟨row, (mem_insert inserted row).mpr (.inl known), rfl, rfl, rfl⟩
      | createAccount accountId call user stage => exact ⟨row, known, rfl, rfl, rfl⟩
  | _ => exact ⟨row, known, rfl, rfl, rfl⟩

theorem deployment_membership (run : DeploymentRun server clock history deployment) :
    Membership server history deployment := by
  refine trace_invariant (fun history deployment => Membership server history deployment) ?_ ?_ run
  · exact ⟨fun row member => (by cases member), fun _ => trivial, fun accountId form salt begun => (by cases begun), rfl⟩
  · intro _ before event after _ holds fired
    exact membership_step holds (deployment_step_cases fired)

end MktSim
