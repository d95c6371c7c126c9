import MktSim.Api.Audit
import MktSim.Api.Members

set_option autoImplicit false

namespace MktSim

open Runs DoubleEntry Sql

section Guards

variable {parsers : Parsers} {request : GuardRequest} {claim : AuthnClaim}

theorem presents_of_claim (success : parsers.authnClaim request = .success claim) : parsers.Presents request claim := by
  by_cases presented : ∃ other, parsers.Presents request other
  · obtain ⟨other, presents⟩ := presented
    rw [authn_claim_presents presents] at success
    cases success
    exact presents
  · cases configured : request.secret with
    | none =>
        simp only [Parsers.authnClaim, jwtSecretKey, configured, Outcome.andThen] at success
        cases success
    | some secret =>
        rw [authn_claim_unauthorized configured fun other presents => presented ⟨other, presents⟩] at success
        cases success

theorem admin_admits (success : parsers.adminCheck request = .success claim) :
    parsers.Presents request claim ∧ claim.roles.contains .ADMIN = true := by
  cases decoded : parsers.authnClaim request with
  | error status =>
      rw [Parsers.adminCheck, Parsers.roleCheck, decoded] at success
      cases success
  | panicked =>
      rw [Parsers.adminCheck, Parsers.roleCheck, decoded] at success
      cases success
  | success other =>
      have presents := presents_of_claim decoded
      rw [admin_check_presents presents] at success
      split at success
      · rename_i admin
        cases success
        exact ⟨presents, admin⟩
      · cases success

theorem user_admits (success : parsers.userIdCheck request = .success claim) :
    parsers.Presents request claim ∧ (parsers.uuid request.accountId = some claim.sub ∨ claim.roles.contains .ADMIN = true) := by
  cases decoded : parsers.authnClaim request with
  | error status =>
      rw [Parsers.userIdCheck, user_check_claim, decoded] at success
      cases success
  | panicked =>
      rw [Parsers.userIdCheck, user_check_claim, decoded] at success
      cases success
  | success other =>
      have presents := presents_of_claim decoded
      rw [user_id_check_presents presents] at success
      cases parsed : parsers.uuid request.accountId with
      | none =>
          rw [parsed] at success
          cases success
      | some accountId =>
          rw [parsed] at success
          simp only at success
          split_ifs at success with owner admin
          · cases success
            exact ⟨presents, .inl (congrArg some owner.symm)⟩
          · cases success
            exact ⟨presents, .inr admin⟩

end Guards

variable {server : Server} {clock : Nat} {history : List DeploymentEvent} {before after deployment : Deployment}
  {event : DeploymentEvent} {login : Login}

structure Genuine (server : Server) (history : List DeploymentEvent) (deployment : Deployment) (login : Login) : Prop where
  earlier : login.second ≤ deployment.second
  token : ∃ secret, server.authn.secret = some secret ∧
    server.authn.jwt.encode secret login.response.claim = some login.response.token
  row : ∃ row ∈ deployment.users.rows, row.email = login.form.email ∧ login.response.claim = row.claim login.second
  password : ∃ password, PasswordSet history login.form.email password ∧
    server.authn.bcrypt.reads login.form.password = server.authn.bcrypt.reads password

theorem member_from_sql {row : User} (member : Member server history row) : row.fromSql = row := by
  have roles : Roles.fromBitsTruncate row.roleFlags.bits = row.roleFlags := by
    rw [member.role]
    split
    · decide
    · decide
  rw [User.fromSql, roles]

theorem member_admin {row : User} (member : Member server history row) :
    row.roleFlags.contains .ADMIN = true ↔ row.id = ADMIN_ACCOUNT_ID := by
  rw [member.role]
  split
  · rename_i admin
    exact iff_of_true contains_admin admin
  · rename_i customer
    exact iff_of_false (by decide) customer

theorem genuine_step (genuine : Genuine server history before login) (deployed : Deployed server before event after) :
    Genuine server (history ++ [event]) after login := by
  obtain ⟨row, known, email, claim⟩ := genuine.row
  obtain ⟨later, there, id, sameEmail, roles⟩ := row_kept deployed known
  obtain ⟨password, set, same⟩ := genuine.password
  refine ⟨genuine.earlier.trans (Nat.div_le_div_right (deployed_clock deployed)), genuine.token,
    ⟨later, there, sameEmail.trans email, ?_⟩, password, password_set_append set event, same⟩
  rw [claim, User.claim, User.claim, id, roles]

theorem logged_in_genuine {form : LoginForm} {user : User} {response : AuthResponse}
    (holds : Membership server history deployment)
    (done : LoggedIn server.authn deployment.second form deployment.users user response) :
    Genuine server history deployment ⟨form, deployment.second, response⟩ := by
  have member := holds.rows user done.known
  obtain ⟨salt, password, hashed, set⟩ := member.password
  have verified := server.authn.bcrypt.verify_hash salt password user.password form.password hashed
  rw [done.password] at verified
  refine ⟨Nat.le_refl _, done.token, ⟨user, done.known, done.email, ?_⟩, password, done.email ▸ set,
    of_decide_eq_true (Option.some.inj verified).symm⟩
  have claim := done.claim
  rwa [member_from_sql member] at claim

theorem deployed_logins (deployed : Deployed server before event after) :
    after.logins = before.logins ∨ ∃ call form response,
      server.authn.login call before.second form before.users = .ok response ∧
        after.logins = before.logins ++ [⟨form, before.second, response⟩] := by
  cases deployed with
  | login call form response done => exact .inr ⟨call, form, response, done, rfl⟩
  | _ => exact .inl rfl

theorem deployment_genuine (run : DeploymentRun server clock history deployment) :
    ∀ login ∈ deployment.logins, Genuine server history deployment login := by
  refine trace_invariant (fun history deployment => ∀ login ∈ deployment.logins, Genuine server history deployment login) ?_ ?_ run
  · intro login member
    cases member
  · intro earlier before event after earlierRun genuine fired login member
    have deployed := deployment_step_cases fired
    obtain same | ⟨call, form, response, done, same⟩ := deployed_logins deployed
    · rw [same] at member
      exact genuine_step (genuine login member) deployed
    · rw [same] at member
      cases List.mem_append.mp member with
      | inl old => exact genuine_step (genuine login old) deployed
      | inr new =>
          rw [List.mem_singleton.mp new]
          obtain ⟨user, through⟩ := login_ok done
          exact genuine_step (logged_in_genuine (deployment_membership earlierRun) through) deployed

-- Nobody makes a token that decodes without having it from a login.
def Unforged (server : Server) (deployment : Deployment) (authorization : Option String) : Prop :=
  ∀ secret token, server.authn.secret = some secret → authorization = some (bearer ++ token) →
    (server.authn.jwt.decode deployment.second secret token).isSome = true →
      ∃ login ∈ deployment.logins, login.response.token = token

theorem token_unforged {token : String} (known : ∃ login ∈ deployment.logins, login.response.token = token) :
    Unforged server deployment (some (bearer ++ token)) := by
  intro secret other _ header _
  have stripped := (strip_prefix_iff (bearer ++ token) bearer token).mpr rfl
  rw [(strip_prefix_iff (bearer ++ token) bearer other).mpr (Option.some.inj header)] at stripped
  rw [Option.some.inj stripped]
  exact known

def DeploymentEvent.authorization : DeploymentEvent → Option (Option String)
  | .submit authorization _ _ | .depositOrWithdraw authorization _ _ _ _ | .createEquities authorization _ _
  | .createEquityOptions authorization _ _ => some authorization
  | _ => none

def DeploymentEvent.isFor : DeploymentEvent → Uuid → Prop
  | .submit _ _ order, accountId => accountId = order.accountId ∨ accountId = ADMIN_ACCOUNT_ID
  | _, accountId => accountId = ADMIN_ACCOUNT_ID

-- The header carries the token of a login of the last week and a minute, for which somebody gave the
-- email and a password of the account.
structure Vouched (server : Server) (history : List DeploymentEvent) (deployment : Deployment)
    (authorization : Option String) (login : Login) (accountId : Uuid) : Prop where
  known : login ∈ deployment.logins
  token : authorization = some (bearer ++ login.response.token)
  earlier : login.second ≤ deployment.second
  recent : deployment.second ≤ login.second + week + 60
  row : ∃ row ∈ deployment.users.rows, row.email = login.form.email ∧ row.id = accountId
  password : ∃ password, PasswordSet history login.form.email password ∧
    server.authn.bcrypt.reads login.form.password = server.authn.bcrypt.reads password

theorem login_claim_exp {row : User} (within : deployment.second + week < 2 ^ 64) (earlier : login.second ≤ deployment.second)
    (claim : login.response.claim = row.claim login.second) : login.response.claim.exp.toNat = login.second + week := by
  rw [claim]
  exact expiry_nat (by omega)

theorem presents_login (run : DeploymentRun server clock history deployment) {authorization : Option String}
    {segment : String} {claim : AuthnClaim} (within : deployment.second + week < 2 ^ 64)
    (unforged : Unforged server deployment authorization)
    (presents : (server.authn.parsers deployment.second).Presents (server.authn.request authorization segment) claim) :
    ∃ login row, Vouched server history deployment authorization login row.id ∧ row ∈ deployment.users.rows ∧
      claim = login.response.claim ∧ claim = row.claim login.second := by
  obtain ⟨secret, token, configured, header, decoded⟩ := presents
  have valid : server.authn.jwt.decode deployment.second secret token = some claim := decoded
  obtain ⟨login, known, same⟩ := unforged secret token configured header (by rw [valid]; rfl)
  have genuine := deployment_genuine run login known
  obtain ⟨other, configured', encoded⟩ := genuine.token
  obtain rfl := Option.some.inj ((show server.authn.secret = some secret from configured).symm.trans configured')
  have carried : authorization = some (bearer ++ login.response.token) := same ▸ header
  rw [same] at encoded
  have back := server.authn.jwt.decode_encode deployment.second secret token login.response.claim encoded
  rw [valid] at back
  obtain ⟨row, there, email, issued⟩ := genuine.row
  split at back
  · rename_i live
    rw [login_claim_exp within genuine.earlier issued] at live
    have answered : claim = login.response.claim := Option.some.inj back
    exact ⟨login, row, ⟨known, carried, genuine.earlier, live, ⟨row, there, email, rfl⟩, genuine.password⟩, there, answered,
      answered.trans issued⟩
  · cases back

section Checks

variable {authorization : Option String} {segment : String} {claim : AuthnClaim}
  (run : DeploymentRun server clock history deployment) (within : deployment.second + week < 2 ^ 64)
  (unforged : Unforged server deployment authorization)

include run within unforged

theorem user_check_vouched (admitted : server.userIdCheck deployment authorization segment = .success claim) :
    ∃ login accountId, Vouched server history deployment authorization login accountId ∧ claim = login.response.claim ∧
      (server.authn.uuid segment = some accountId ∨ accountId = ADMIN_ACCOUNT_ID) := by
  obtain ⟨presents, allowed⟩ := user_admits admitted
  obtain ⟨login, row, vouched, there, answered, rfl⟩ := presents_login run within unforged presents
  refine ⟨login, row.id, vouched, answered, ?_⟩
  cases allowed with
  | inl owner => exact .inl owner
  | inr admin => exact .inr ((member_admin ((deployment_membership run).rows row there)).mp admin)

theorem admin_check_vouched (admitted : server.adminCheck deployment authorization segment = .success claim) :
    ∃ login, Vouched server history deployment authorization login ADMIN_ACCOUNT_ID ∧ claim = login.response.claim := by
  obtain ⟨presents, admin⟩ := admin_admits admitted
  obtain ⟨login, row, vouched, there, answered, rfl⟩ := presents_login run within unforged presents
  have own := (member_admin ((deployment_membership run).rows row there)).mp admin
  exact ⟨login, own ▸ vouched, answered⟩

theorem deployed_vouched (deployed : Deployed server deployment event after)
    (guarded : event.authorization = some authorization) :
    ∃ login accountId, Vouched server history deployment authorization login accountId ∧ event.isFor accountId := by
  cases deployed with
  | submit header segment order claim exchange admitted path stepped =>
      obtain rfl := Option.some.inj guarded
      obtain ⟨login, accountId, vouched, _, allowed⟩ := user_check_vouched run within unforged admitted
      refine ⟨login, accountId, vouched, ?_⟩
      cases allowed with
      | inl owner => exact .inl (Option.some.inj (owner.symm.trans path))
      | inr admin => exact .inr admin
  | depositOrWithdraw header segment call transferId accountId form claim exchange admitted path stepped =>
      obtain rfl := Option.some.inj guarded
      obtain ⟨login, vouched, _⟩ := admin_check_vouched run within unforged admitted
      exact ⟨login, _, vouched, rfl⟩
  | createEquities header call items claim admitted =>
      obtain rfl := Option.some.inj guarded
      obtain ⟨login, vouched, _⟩ := admin_check_vouched run within unforged admitted
      exact ⟨login, _, vouched, rfl⟩
  | createEquityOptions header call items claim admitted =>
      obtain rfl := Option.some.inj guarded
      obtain ⟨login, vouched, _⟩ := admin_check_vouched run within unforged admitted
      exact ⟨login, _, vouched, rfl⟩
  | _ => cases guarded

end Checks

/-- Whatever the guards let through carries the token of a login, at most a week and a minute old,
of the account in the path or of the administrator. -/
theorem requests_vouched (server : Server) (clock : Nat) (history : List DeploymentEvent) (deployment : Deployment)
    (run : DeploymentRun server clock history deployment) (authorization : Option String)
    (unforged : Unforged server deployment authorization) (within : deployment.second + week < 2 ^ 64) :
    (∀ segment claim, server.userIdCheck deployment authorization segment = .success claim →
      ∃ login accountId, Vouched server history deployment authorization login accountId ∧ claim = login.response.claim ∧
        (server.authn.uuid segment = some accountId ∨ accountId = ADMIN_ACCOUNT_ID)) ∧
    (∀ segment claim, server.adminCheck deployment authorization segment = .success claim →
      ∃ login, Vouched server history deployment authorization login ADMIN_ACCOUNT_ID ∧ claim = login.response.claim) ∧
    ∀ event after, deployment.step server event = some after → event.authorization = some authorization →
      ∃ login accountId, Vouched server history deployment authorization login accountId ∧ event.isFor accountId := by
  refine ⟨?_, ?_, ?_⟩
  · exact fun segment claim => user_check_vouched run within unforged
  · exact fun segment claim => admin_check_vouched run within unforged
  · exact fun event after fired => deployed_vouched run within unforged (deployment_step_cases fired)

theorem welcomed_second : welcomed.second = 1717200000 := by decide +kernel

theorem alice_unforged : Unforged localServer welcomed (some (bearer ++ aliceToken)) :=
  token_unforged ⟨_, List.mem_append_right _ (List.mem_singleton_self _), rfl⟩

theorem requests_vouched_bid :
    (∀ segment claim, localServer.userIdCheck welcomed (some (bearer ++ aliceToken)) segment = .success claim →
      ∃ login accountId, Vouched localServer (boot ++ [payIn] ++ [aliceLogin]) welcomed (some (bearer ++ aliceToken)) login
        accountId ∧ claim = login.response.claim ∧
        (localServer.authn.uuid segment = some accountId ∨ accountId = ADMIN_ACCOUNT_ID)) ∧
    (∀ segment claim, localServer.adminCheck welcomed (some (bearer ++ aliceToken)) segment = .success claim →
      ∃ login, Vouched localServer (boot ++ [payIn] ++ [aliceLogin]) welcomed (some (bearer ++ aliceToken)) login
        ADMIN_ACCOUNT_ID ∧ claim = login.response.claim) ∧
    ∀ event after, welcomed.step localServer event = some after → event.authorization = some (some (bearer ++ aliceToken)) →
      ∃ login accountId, Vouched localServer (boot ++ [payIn] ++ [aliceLogin]) welcomed (some (bearer ++ aliceToken)) login
        accountId ∧ event.isFor accountId :=
  requests_vouched localServer 1717200000000 _ welcomed welcomed_run (some (bearer ++ aliceToken)) alice_unforged
    (by rw [welcomed_second]; decide)

def HonestRun (server : Server) (clock : Nat) : List DeploymentEvent → Deployment → Prop :=
  Trace (Deployment.installed clock) fun _ before event after =>
    (∀ authorization, event.authorization = some authorization → Unforged server before authorization) ∧
      before.step server event = some after

theorem honest_run (run : HonestRun server clock history deployment) : DeploymentRun server clock history deployment :=
  trace_imp (fun _ _ _ _ both => both.2) run

theorem event_vouched {earlier later : List DeploymentEvent}
    (run : HonestRun server clock (earlier ++ event :: later) deployment) (within : deployment.second + week < 2 ^ 64)
    {authorization : Option String} (guarded : event.authorization = some authorization) :
    ∃ before after login accountId, DeploymentRun server clock earlier before ∧ Deployed server before event after ∧
      Vouched server earlier before authorization login accountId ∧ event.isFor accountId := by
  obtain ⟨before, after, reached, fired, sooner⟩ := trace_split_relates
    (fun before after => before.second ≤ after.second) Nat.le_trans
    (fun _ _ _ _ fired => Nat.div_le_div_right (deployed_clock (deployment_step_cases fired.2))) run
  have deployed := deployment_step_cases fired.2
  have still : before.second + week < 2 ^ 64 := by omega
  obtain ⟨login, accountId, vouched, isFor⟩ :=
    deployed_vouched (honest_run reached) still (fired.1 authorization guarded) deployed guarded
  exact ⟨before, after, login, accountId, honest_run reached, deployed, vouched, isFor⟩

-- A transfer comes from a request that was admitted on the token of a login: the owner's or the
-- administrator's for an order's reservation, the administrator's for a deposit or withdrawal.
inductive Authorised (server : Server) (clock : Nat) (history : List DeploymentEvent) (transfer : Transfer Uuid) :
    Prop where
  | reservation (earlier later : List DeploymentEvent) (before : Deployment) (authorization : Option String)
      (segment : String) (order : Submission) (calls : ReserveCalls) (login : Login) (accountId : Uuid)
      (submitted : history = earlier ++ .submit authorization segment order :: later)
      (reserved : .proceed (.reserve order calls) ∈ later)
      (path : server.authn.uuid segment = some order.accountId)
      (own : server.services.reservation order = some transfer)
      (reached : DeploymentRun server clock earlier before)
      (vouched : Vouched server earlier before authorization login accountId)
      (isFor : accountId = order.accountId ∨ accountId = ADMIN_ACCOUNT_ID)
  | balance (earlier later : List DeploymentEvent) (before : Deployment) (authorization : Option String)
      (segment : String) (call : Call) (transferId accountId : Uuid) (form : BalanceForm) (login : Login)
      (asked : history = earlier ++ .depositOrWithdraw authorization segment call transferId form :: later)
      (path : server.authn.uuid segment = some accountId)
      (own : transfer = balanceTransfer transferId accountId form)
      (reached : DeploymentRun server clock earlier before)
      (vouched : Vouched server earlier before authorization login ADMIN_ACCOUNT_ID)

/-- As long as nobody forges a token, every transfer on the ledger goes back to a request whose
header carried the token of a login, at most a week and a minute old, of somebody entitled to it. -/
theorem movements_authorised (server : Server) (clock : Nat) (history : List DeploymentEvent) (deployment : Deployment)
    (run : HonestRun server clock history deployment) (within : deployment.second + week < 2 ^ 64) :
    ∀ transfer ∈ deployment.exchange.accounts.transfers, Authorised server clock history transfer := by
  intro transfer member
  cases movements_requested (honest_run run) transfer member with
  | reservation earlier later authorization segment order calls submitted reserved own =>
      subst submitted
      obtain ⟨before, after, login, accountId, reached, deployed, vouched, isFor⟩ := event_vouched run within rfl
      cases deployed with
      | submit _ _ _ claim exchange admitted path stepped =>
          exact .reservation earlier later before authorization segment order calls login accountId rfl reserved path own
            reached vouched isFor
  | balance earlier later authorization segment call transferId accountId form asked path own =>
      subst asked
      obtain ⟨before, after, login, _, reached, _, vouched, rfl⟩ := event_vouched run within rfl
      exact .balance earlier later before authorization segment call transferId accountId form login rfl path own
        reached vouched

theorem honest_steps {last : Deployment} (run : HonestRun server clock history deployment) (events : List DeploymentEvent)
    (open_ : ∀ event ∈ events, event.authorization = none)
    (fires : events.foldlM (Deployment.step server) deployment = some last) :
    HonestRun server clock (history ++ events) last := by
  induction events generalizing history deployment with
  | nil =>
      obtain rfl := Option.some.inj fires
      rwa [List.append_nil]
  | cons event rest ih =>
      rw [List.foldlM_cons] at fires
      obtain ⟨next, first, later⟩ := Option.bind_eq_some_iff.mp fires
      have honest : ∀ authorization, event.authorization = some authorization → Unforged server deployment authorization := by
        intro authorization header
        rw [open_ event List.mem_cons_self] at header
        cases header
      have whole := ih (.next history deployment event next run ⟨honest, first⟩)
        (fun other member => open_ other (List.mem_cons_of_mem _ member)) later
      rwa [List.append_assoc] at whole

theorem honest_opening_day : HonestRun localServer 1717200000000 openingDay afterOpeningDay := by
  have morning : HonestRun localServer 1717200000000 boot booted :=
    honest_steps .start boot (by decide) (Option.some_get _).symm
  have adminKnown : Unforged localServer booted (some (bearer ++ adminToken)) := token_unforged (by decide +kernel)
  have paid : HonestRun localServer 1717200000000 (boot ++ [payIn]) paidIn :=
    .next boot booted payIn paidIn morning ⟨fun _ header => Option.some.inj header ▸ adminKnown, paid_in_fires⟩
  have known : HonestRun localServer 1717200000000 (boot ++ [payIn] ++ [aliceLogin]) welcomed :=
    .next _ paidIn aliceLogin welcomed paid ⟨fun _ header => absurd header (Option.some_ne_none _).symm, welcomed_fires⟩
  have bids : HonestRun localServer 1717200000000 (boot ++ [payIn] ++ [aliceLogin] ++ [bid]) bidding :=
    .next _ welcomed bid bidding known ⟨fun _ header => Option.some.inj header ▸ alice_unforged, bidding_fires⟩
  exact honest_steps bids bidGoesOn (by decide) (Option.some_get bid_goes_on_fires).symm

theorem movements_authorised_opening :
    Authorised localServer 1717200000000 openingDay (balanceTransfer (Uuid.nowV7 1717200000000 1) aliceId ⟨100, .deposit⟩) :=
  movements_authorised localServer 1717200000000 openingDay afterOpeningDay honest_opening_day (by decide +kernel) _
    (by decide +kernel)

-- What a guard answers to a live token of a user.
def Server.opens (server : Server) (row : User) (claim : AuthnClaim) (segment : String) : Outcome AuthnClaim :=
  match server.authn.uuid segment with
  | none => .panicked
  | some accountId =>
      if row.id = accountId ∨ row.id = ADMIN_ACCOUNT_ID then .success claim else .error .forbidden

theorem opens_presents {row : User} {claim : AuthnClaim} {authorization : Option String} {segment : String}
    (member : Member server history row) (sub : claim.sub = row.id) (roles : claim.roles = row.roleFlags)
    (presents : (server.authn.parsers deployment.second).Presents (server.authn.request authorization segment) claim) :
    server.userIdCheck deployment authorization segment = server.opens row claim segment ∧
      server.adminCheck deployment authorization segment =
        if row.id = ADMIN_ACCOUNT_ID then .success claim else .error .forbidden := by
  have admin := member_admin member
  rw [← roles] at admin
  constructor
  · have answer := user_id_check_presents presents
    rw [Server.userIdCheck, answer, Server.opens]
    change (match server.authn.uuid segment with
      | none => _
      | some accountId => _) = _
    cases server.authn.uuid segment with
    | none => rfl
    | some accountId =>
        simp only [sub, admin]
        by_cases owner : row.id = accountId
        · simp [owner]
        · simp [owner]
  · rw [Server.adminCheck, admin_check_presents presents]
    simp only [admin]

/-- Until it expires, a token opens its user's routes, and the administrator's opens all. After that it opens none. -/
theorem session_opens (server : Server) (clock : Nat) (history : List DeploymentEvent) (deployment : Deployment)
    (run : DeploymentRun server clock history deployment) (login : Login) (known : login ∈ deployment.logins)
    (within : deployment.second + week < 2 ^ 64) (segment : String) :
    ∃ row ∈ deployment.users.rows, row.email = login.form.email ∧
      server.userIdCheck deployment (some (bearer ++ login.response.token)) segment =
        (if deployment.second ≤ login.second + week + 60 then server.opens row login.response.claim segment
          else .error .unauthorized) ∧
      server.adminCheck deployment (some (bearer ++ login.response.token)) segment =
        (if deployment.second ≤ login.second + week + 60 then
          if row.id = ADMIN_ACCOUNT_ID then .success login.response.claim else .error .forbidden
          else .error .unauthorized) := by
  have genuine := deployment_genuine run login known
  obtain ⟨row, there, email, claim⟩ := genuine.row
  obtain ⟨secret, configured, encoded⟩ := genuine.token
  have decoded := server.authn.jwt.decode_encode deployment.second secret login.response.token login.response.claim encoded
  have exp := login_claim_exp within genuine.earlier claim
  rw [exp] at decoded
  refine ⟨row, there, email, ?_⟩
  by_cases live : deployment.second ≤ login.second + week + 60
  · rw [if_pos live] at decoded
    rw [if_pos live, if_pos live]
    exact opens_presents ((deployment_membership run).rows row there) (by rw [claim]; rfl) (by rw [claim]; rfl)
      (request_presents configured decoded)
  · rw [if_neg live] at decoded
    rw [if_neg live, if_neg live]
    have absent : ∀ other, ¬ (server.authn.parsers deployment.second).Presents
        (server.authn.request (some (bearer ++ login.response.token)) segment) other := by
      rintro other ⟨otherSecret, token, configured', header, valid⟩
      obtain rfl := Option.some.inj ((show server.authn.secret = some otherSecret from configured').symm.trans configured)
      have stripped := (strip_prefix_iff (bearer ++ login.response.token) bearer login.response.token).mpr rfl
      rw [(strip_prefix_iff _ bearer token).mpr (Option.some.inj header)] at stripped
      have valid' : server.authn.jwt.decode deployment.second otherSecret token = some other := valid
      rw [Option.some.inj stripped, decoded] at valid'
      cases valid'
    refine ⟨user_id_check_absent configured absent, ?_⟩
    have refused := @authn_claim_unauthorized (server.authn.parsers deployment.second)
      (server.authn.request (some (bearer ++ login.response.token)) segment) secret configured absent
    rw [Server.adminCheck, Parsers.adminCheck, Parsers.roleCheck, refused]
    rfl

theorem session_opens_alice :
    ∃ row ∈ welcomed.users.rows, row.email = "alice@example.com" ∧
      localServer.userIdCheck welcomed (some (bearer ++ aliceToken)) aliceText =
        (if welcomed.second ≤ paidIn.second + week + 60 then localServer.opens row aliceClaim aliceText
          else .error .unauthorized) ∧
      localServer.adminCheck welcomed (some (bearer ++ aliceToken)) aliceText =
        (if welcomed.second ≤ paidIn.second + week + 60 then
          if row.id = ADMIN_ACCOUNT_ID then .success aliceClaim else .error .forbidden
          else .error .unauthorized) :=
  session_opens localServer 1717200000000 _ welcomed welcomed_run
    ⟨⟨"alice@example.com", "abc123xyz"⟩, paidIn.second, aliceClaim, aliceToken⟩
    (List.mem_append_right _ (List.mem_singleton_self _)) (by rw [welcomed_second]; decide) aliceText

/-- Whoever has registered can log in from then on with that password and no other, as long as no server is started
with his email as its administrator's. -/
theorem registered_logs_in (server : Server) (clock : Nat) (history : List DeploymentEvent) (deployment : Deployment)
    (run : DeploymentRun server clock history deployment) (accountId : Uuid) (form : NewAccountForm) (salt : String)
    (begun : .register (.begin accountId form salt) ∈ history) (user : User)
    (returned : deployment.registering accountId = .returned user) (unclaimed : Unclaimed history form.email)
    (secret token : String) (configured : server.authn.secret = some secret)
    (encoded : server.authn.jwt.encode secret ⟨accountId, expiry deployment.second, .empty⟩ = some token)
    (password : String) :
    server.authn.login .answered deployment.second ⟨form.email, password⟩ deployment.users =
        (if server.authn.bcrypt.reads password = server.authn.bcrypt.reads form.password then
          .ok ⟨⟨accountId, expiry deployment.second, .empty⟩, token⟩ else .error .notFound) ∧
      getAccountById .answered accountId deployment.users = .ok ⟨accountId, form.email, .empty⟩ ∧
      ∃ accounts, listAccounts .answered deployment.users = .ok accounts ∧ ⟨accountId, form.email, .empty⟩ ∈ accounts.items := by
  have holds := deployment_membership run
  have known := holds.stages accountId
  have goesOn := holds.begun accountId form salt begun
  rw [returned] at known goesOn
  obtain ⟨row, enlisted⟩ := known
  obtain ⟨sameEmail, hashed⟩ := goesOn
  have member := holds.rows row enlisted.known
  have email : row.email = form.email := enlisted.email.trans sameEmail
  have stored : row.password = user.password := enlisted.password (sameEmail ▸ unclaimed)
  have customer : row.id ≠ ADMIN_ACCOUNT_ID := by
    intro admin
    have idle := holds.idle
    rw [← admin, enlisted.id, returned] at idle
    cases idle
  have roles : row.roleFlags = .empty := member.role.trans (if_neg customer)
  have verified := server.authn.bcrypt.verify_hash salt form.password user.password password hashed
  rw [← stored] at verified
  have claim : row.fromSql.claim deployment.second = ⟨accountId, expiry deployment.second, .empty⟩ := by
    rw [member_from_sql member, User.claim, enlisted.id, roles]
  have sent : row.fromSql.serialize = ⟨accountId, form.email, .empty⟩ := by
    rw [member_from_sql member, User.serialize, enlisted.id, email, roles]
  refine ⟨?_, get_account_iff.mpr ⟨rfl, row, enlisted.known, enlisted.id, sent⟩, _, rfl,
    List.mem_map.mpr ⟨row, enlisted.known, sent⟩⟩
  · by_cases same : server.authn.bcrypt.reads password = server.authn.bcrypt.reads form.password
    · rw [decide_eq_true same] at verified
      rw [if_pos same, ← claim]
      exact login_answers configured enlisted.known email verified (claim ▸ encoded)
    · rw [decide_eq_false same] at verified
      rw [if_neg same]
      have first : firstRow .answered (deployment.users.findKey form.email) = .ok row :=
        first_row_ok.mpr ⟨rfl, (find_key_iff form.email).mpr ⟨enlisted.known, email⟩⟩
      have refused : server.authn.bcrypt.verify password row.fromSql.password = some false := verified
      unfold Authn.login
      rw [configured, first]
      simp only [refused]

theorem alice_unclaimed : Unclaimed boot "alice@example.com" := by
  intro startUp started form configured
  have only : startUp = boots "admin@example.com" := by
    simpa [boot, registers] using started
  rw [only] at configured
  obtain rfl := Option.some.inj configured
  decide

theorem registered_logs_in_alice :
    localAuthn.login .answered booted.second ⟨"alice@example.com", "abc123xyz"⟩ booted.users =
        (if localAuthn.bcrypt.reads "abc123xyz" = localAuthn.bcrypt.reads "abc123xyz" then
          .ok ⟨⟨aliceId, expiry booted.second, .empty⟩, aliceToken⟩ else .error .notFound) ∧
      getAccountById .answered aliceId booted.users = .ok ⟨aliceId, "alice@example.com", .empty⟩ ∧
      ∃ accounts, listAccounts .answered booted.users = .ok accounts ∧ ⟨aliceId, "alice@example.com", .empty⟩ ∈ accounts.items :=
  registered_logs_in localServer 1717200000000 boot booted (deployment_run_after _) aliceId
    ⟨"alice@example.com", "abc123xyz"⟩ "R9h/cIPz0gi.URNNX3kh2O" (by decide)
    ⟨aliceId, "alice@example.com", "$2b$12$R9h/cIPz0gi.URNNX3kh2OPST9/PgBkqquzi.Ss7KIUgO2t0jWMUW", .empty⟩
    (by decide +kernel) alice_unclaimed "secret" aliceToken rfl (by decide +kernel) "abc123xyz"

end MktSim
