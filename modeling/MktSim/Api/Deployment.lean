import MktSim.Api.AdminBootstrap
import MktSim.Api.Login
import MktSim.Api.RegisteredAssets

set_option autoImplicit false

namespace MktSim

open Redis Runs DoubleEntry Sql

structure Server where
  services : Services
  authn : Authn

structure Login where
  form : LoginForm
  second : Nat
  response : AuthResponse
deriving DecidableEq

-- The whole program: the database of users and assets, the exchange with TigerBeetle and
-- the order store, the registrations under way, and every token that was handed out.
structure Deployment where
  users : Users
  registering : Uuid → RegisterStage
  assets : Assets
  exchange : Exchange
  logins : List Login

def Deployment.installed (clock : Nat) : Deployment := ⟨.empty, fun _ => .idle, .start, .start clock noAccounts, []⟩

def Deployment.second (deployment : Deployment) : Nat := deployment.exchange.clock / 1000

def Deployment.registry (deployment : Deployment) : Registry :=
  ⟨deployment.users, deployment.exchange.accounts, deployment.registering⟩

def Deployment.withRegistry (deployment : Deployment) (registry : Registry) : Deployment :=
  { deployment with
    users := registry.users
    registering := registry.requests
    exchange := { deployment.exchange with accounts := registry.accounts } }

def Deployment.withExchange (deployment : Deployment) (exchange : Exchange) : Deployment :=
  { deployment with exchange := exchange }

def ExchangeEvent.inner : ExchangeEvent → Bool
  | .tick _ | .reserve _ _ | .script _ _ | .answer _ => true
  | _ => false

-- Requests come with their Authorization header and the identifier in their path as texts.
inductive DeploymentEvent where
  | startUp (startUp : StartUp)
  | register (event : RegistryEvent)
  | login (call : Call) (form : LoginForm)
  | submit (authorization : Option String) (segment : String) (order : Submission)
  | proceed (event : ExchangeEvent)
  | depositOrWithdraw (authorization : Option String) (segment : String) (call : Call) (transferId : Uuid)
      (form : BalanceForm)
  | createEquities (authorization : Option String) (call : Call) (items : List CreateEquityForm)
  | createEquityOptions (authorization : Option String) (call : Call) (items : List CreateEquityOptionItem)
deriving DecidableEq

def Outcome.admits {α : Type} : Outcome α → Bool
  | .success _ => true
  | _ => false

section Step

variable (server : Server) (deployment : Deployment)

def Server.userIdCheck (authorization : Option String) (segment : String) : Outcome AuthnClaim :=
  (server.authn.parsers deployment.second).userIdCheck (server.authn.request authorization segment)

def Server.adminCheck (authorization : Option String) (segment : String) : Outcome AuthnClaim :=
  (server.authn.parsers deployment.second).adminCheck (server.authn.request authorization segment)

-- A request that its guard turns away has no event: it touches nothing.
def Deployment.step : DeploymentEvent → Option Deployment
  | .startUp startUp =>
      some (deployment.withRegistry (deployment.registry.createAdminUser server.authn.bcrypt.hash startUp).registry)
  | .register event => (deployment.registry.step server.authn.bcrypt.hash event).map deployment.withRegistry
  | .login call form =>
      match server.authn.login call deployment.second form deployment.users with
      | .error _ => some deployment
      | .ok response => some { deployment with logins := deployment.logins ++ [⟨form, deployment.second, response⟩] }
  | .submit authorization segment order =>
      if (server.userIdCheck deployment authorization segment).admits ∧ server.authn.uuid segment = some order.accountId then
        (deployment.exchange.step server.services (.receive order)).map deployment.withExchange
      else none
  | .proceed event =>
      if event.inner then (deployment.exchange.step server.services event).map deployment.withExchange else none
  | .depositOrWithdraw authorization segment call transferId form =>
      match server.authn.uuid segment with
      | none => none
      | some accountId =>
          if (server.adminCheck deployment authorization segment).admits then
            (deployment.exchange.step server.services (.depositOrWithdraw call transferId accountId form)).map
              deployment.withExchange
          else none
  | .createEquities authorization call items =>
      if (server.adminCheck deployment authorization "").admits then
        some { deployment with assets := (createEquities call items deployment.assets).2 }
      else none
  | .createEquityOptions authorization call items =>
      if (server.adminCheck deployment authorization "").admits then
        some { deployment with assets := (createEquityOptions call items deployment.assets).2 }
      else none

end Step

def DeploymentRun (server : Server) (clock : Nat) : List DeploymentEvent → Deployment → Prop :=
  Trace (Deployment.installed clock) fun _ before event after => before.step server event = some after

inductive Deployed (server : Server) (before : Deployment) : DeploymentEvent → Deployment → Prop where
  | startUp (startUp : StartUp) : Deployed server before (.startUp startUp)
      (before.withRegistry (before.registry.createAdminUser server.authn.bcrypt.hash startUp).registry)
  | register (event : RegistryEvent) (registry : Registry)
      (registered : Registered server.authn.bcrypt.hash before.registry event registry) :
      Deployed server before (.register event) (before.withRegistry registry)
  | refused (call : Call) (form : LoginForm) (status : LookupStatus)
      (failed : server.authn.login call before.second form before.users = .error status) :
      Deployed server before (.login call form) before
  | login (call : Call) (form : LoginForm) (response : AuthResponse)
      (done : server.authn.login call before.second form before.users = .ok response) :
      Deployed server before (.login call form)
        { before with logins := before.logins ++ [⟨form, before.second, response⟩] }
  | submit (authorization : Option String) (segment : String) (order : Submission) (claim : AuthnClaim)
      (exchange : Exchange) (admitted : server.userIdCheck before authorization segment = .success claim)
      (path : server.authn.uuid segment = some order.accountId)
      (stepped : Stepped server.services before.exchange (.receive order) exchange) :
      Deployed server before (.submit authorization segment order) (before.withExchange exchange)
  | proceed (event : ExchangeEvent) (exchange : Exchange) (inner : event.inner = true)
      (stepped : Stepped server.services before.exchange event exchange) :
      Deployed server before (.proceed event) (before.withExchange exchange)
  | depositOrWithdraw (authorization : Option String) (segment : String) (call : Call) (transferId accountId : Uuid)
      (form : BalanceForm) (claim : AuthnClaim) (exchange : Exchange)
      (admitted : server.adminCheck before authorization segment = .success claim)
      (path : server.authn.uuid segment = some accountId)
      (stepped : Stepped server.services before.exchange (.depositOrWithdraw call transferId accountId form) exchange) :
      Deployed server before (.depositOrWithdraw authorization segment call transferId form) (before.withExchange exchange)
  | createEquities (authorization : Option String) (call : Call) (items : List CreateEquityForm) (claim : AuthnClaim)
      (admitted : server.adminCheck before authorization "" = .success claim) :
      Deployed server before (.createEquities authorization call items)
        { before with assets := (createEquities call items before.assets).2 }
  | createEquityOptions (authorization : Option String) (call : Call) (items : List CreateEquityOptionItem)
      (claim : AuthnClaim) (admitted : server.adminCheck before authorization "" = .success claim) :
      Deployed server before (.createEquityOptions authorization call items)
        { before with assets := (createEquityOptions call items before.assets).2 }

theorem admits_success {α : Type} {outcome : Outcome α} (admits : outcome.admits = true) :
    ∃ value, outcome = .success value := by
  cases outcome with
  | success value => exact ⟨value, rfl⟩
  | error status => cases admits
  | panicked => cases admits

section Cases

variable {server : Server} {before after : Deployment} {event : DeploymentEvent}

theorem deployment_step_cases (fired : before.step server event = some after) : Deployed server before event after := by
  cases event with
  | startUp startUp =>
      obtain rfl := Option.some.inj fired
      exact .startUp startUp
  | register event =>
      obtain ⟨registry, stepped, rfl⟩ := Option.map_eq_some_iff.mp fired
      exact .register event registry (registry_step_cases stepped)
  | login call form =>
      rw [Deployment.step] at fired
      cases answer : server.authn.login call before.second form before.users with
      | error status =>
          rw [answer] at fired
          obtain rfl := Option.some.inj fired
          exact .refused call form status answer
      | ok response =>
          rw [answer] at fired
          obtain rfl := Option.some.inj fired
          exact .login call form response answer
  | submit authorization segment order =>
      rw [Deployment.step] at fired
      split at fired
      · rename_i guarded
        obtain ⟨claim, admitted⟩ := admits_success guarded.1
        obtain ⟨exchange, stepped, rfl⟩ := Option.map_eq_some_iff.mp fired
        exact .submit authorization segment order claim exchange admitted guarded.2 (step_cases stepped)
      · cases fired
  | proceed event =>
      rw [Deployment.step] at fired
      split at fired
      · rename_i inner
        obtain ⟨exchange, stepped, rfl⟩ := Option.map_eq_some_iff.mp fired
        exact .proceed event exchange inner (step_cases stepped)
      · cases fired
  | depositOrWithdraw authorization segment call transferId form =>
      rw [Deployment.step] at fired
      cases path : server.authn.uuid segment with
      | none =>
          rw [path] at fired
          cases fired
      | some accountId =>
          rw [path] at fired
          simp only at fired
          split at fired
          · rename_i guarded
            obtain ⟨claim, admitted⟩ := admits_success guarded
            obtain ⟨exchange, stepped, rfl⟩ := Option.map_eq_some_iff.mp fired
            exact .depositOrWithdraw authorization segment call transferId accountId form claim exchange admitted path
              (step_cases stepped)
          · cases fired
  | createEquities authorization call items =>
      rw [Deployment.step] at fired
      split at fired
      · rename_i guarded
        obtain ⟨claim, admitted⟩ := admits_success guarded
        obtain rfl := Option.some.inj fired
        exact .createEquities authorization call items claim admitted
      · cases fired
  | createEquityOptions authorization call items =>
      rw [Deployment.step] at fired
      split at fired
      · rename_i guarded
        obtain ⟨claim, admitted⟩ := admits_success guarded
        obtain rfl := Option.some.inj fired
        exact .createEquityOptions authorization call items claim admitted
      · cases fired

def Services.Opens (services : Services) (form : AccountForm Uuid) : Prop :=
  (∃ accountId, form = fundsAccount accountId) ∨ form = adminFundsAccount ∨ services.IsAssetForm form

def Server.Books (server : Server) (before : Deployment) : DeploymentEvent → Transfer Uuid → Prop
  | .proceed (.reserve order _), transfer =>
      ⟨order, .received⟩ ∈ before.exchange.requests ∧ server.services.reservation order = some transfer
  | .depositOrWithdraw _ segment _ transferId form, transfer =>
      ∃ accountId, server.authn.uuid segment = some accountId ∧ transfer = balanceTransfer transferId accountId form
  | _, _ => False

theorem created_admin_keeps {Kept : Accounts → Prop} {registry : Registry} (holds : Kept registry.accounts)
    (bcrypt : String → String → Option String) (startUp : StartUp)
    (opened : ∀ next, createAccount tigerBeetle adminFundsAccount registry.accounts = .ok next → Kept next) :
    Kept (registry.createAdminUser bcrypt startUp).registry.accounts := by
  have account := open_account_keeps holds startUp.account opened
  have upserted : ∀ (other : Registry) (user : User), (other.upsertAdmin startUp.upsert user).registry.accounts = other.accounts := by
    intro other user
    rw [Registry.upsertAdmin]
    split <;> rfl
  rw [Registry.createAdminUser]
  cases startUp.form with
  | none => exact holds
  | some form =>
      simp only
      cases bcrypt startUp.salt form.password with
      | none => exact holds
      | some hash =>
          simp only
          split
          · cases answer : openAccount startUp.account adminFundsAccount registry.accounts with
            | mk outcome accounts =>
                rw [answer] at account
                cases outcome with
                | error status => exact account
                | ok done =>
                    simp only
                    rw [upserted]
                    exact account
          · exact holds

theorem deployed_keeps {Kept : Accounts → Prop} (holds : Kept before.exchange.accounts)
    (opens : ∀ form, server.services.Opens form → ∀ accounts next, Kept accounts →
      createAccount tigerBeetle form accounts = .ok next → Kept next)
    (books : ∀ transfer, server.Books before event transfer → ∀ accounts next, Kept accounts →
      createTransfer tigerBeetle transfer accounts = .ok next → Kept next)
    (deployed : Deployed server before event after) : Kept after.exchange.accounts := by
  cases deployed with
  | startUp startUp =>
      exact @created_admin_keeps Kept before.registry holds _ startUp fun next created =>
        opens _ (.inr (.inl rfl)) _ next holds created
  | register event registry registered =>
      cases registered with
      | begin accountId form salt unused => exact holds
      | insert accountId call user stage => exact holds
      | createAccount accountId call user stage =>
          exact open_account_keeps holds call fun next created => opens _ (.inl ⟨accountId, rfl⟩) _ next holds created
  | refused call form status failed => exact holds
  | login call form response done => exact holds
  | submit authorization segment order claim exchange admitted path stepped =>
      cases stepped with
      | receive order receivable => exact holds
  | proceed event exchange inner stepped =>
      cases stepped with
      | reserve order calls waiting =>
          refine reserve_keeps holds server.services calls order (fun next created => ?_) fun transfer reserved accounts next kept booked => ?_
          · exact opens _ (.inr (.inr ⟨order.accountId, order.assetId, rfl⟩)) _ next holds created
          · exact books transfer ⟨waiting, reserved⟩ accounts next kept booked
      | register call accountId => cases inner
      | depositOrWithdraw call transferId accountId form => cases inner
      | tick millis later => exact holds
      | receive order receivable => exact holds
      | lost order reserved => exact holds
      | script order call reserved asked => exact holds
      | answer order ready => exact holds
  | depositOrWithdraw authorization segment call transferId accountId form claim exchange admitted path stepped =>
      cases stepped with
      | depositOrWithdraw call transferId accountId form =>
          exact book_transfer_keeps holds call .badRequest fun next booked => books _ ⟨accountId, path, rfl⟩ _ next holds booked
  | createEquities authorization call items claim admitted => exact holds
  | createEquityOptions authorization call items claim admitted => exact holds

def submitted : DeploymentEvent → List Submission
  | .submit _ _ order => [order]
  | _ => []

theorem inner_receives_none {event : ExchangeEvent} (inner : event.inner = true) : received event = [] := by
  cases event with
  | receive order => cases inner
  | _ => rfl

theorem deployed_orders (deployed : Deployed server before event after) :
    after.exchange.requests.map Request.order = before.exchange.requests.map Request.order ++ submitted event := by
  cases deployed with
  | submit authorization segment order claim exchange admitted path stepped => exact orders_step stepped
  | proceed event exchange inner stepped =>
      have orders := orders_step stepped
      rw [inner_receives_none inner] at orders
      exact orders
  | depositOrWithdraw authorization segment call transferId accountId form claim exchange admitted path stepped =>
      exact orders_step stepped
  | _ => exact (List.append_nil _).symm

theorem deployed_clock (deployed : Deployed server before event after) : before.exchange.clock ≤ after.exchange.clock := by
  cases deployed with
  | submit authorization segment order claim exchange admitted path stepped => exact clock_step stepped
  | proceed event exchange inner stepped => exact clock_step stepped
  | depositOrWithdraw authorization segment call transferId accountId form claim exchange admitted path stepped =>
      exact clock_step stepped
  | _ => exact Nat.le_refl _

theorem deployed_consistent (consistent : Consistent server.services before.exchange)
    (deployed : Deployed server before event after) : Consistent server.services after.exchange := by
  have accounts : ∀ registry, Consistent server.services (before.withRegistry registry).exchange :=
    fun registry => ⟨consistent.run, consistent.own, consistent.apart, consistent.done⟩
  cases deployed with
  | startUp startUp => exact accounts _
  | register event registry registered => exact accounts _
  | submit authorization segment order claim exchange admitted path stepped => exact consistent_step consistent stepped
  | proceed event exchange inner stepped => exact consistent_step consistent stepped
  | depositOrWithdraw authorization segment call transferId accountId form claim exchange admitted path stepped =>
      exact consistent_step consistent stepped
  | _ => exact consistent

end Cases

theorem deployment_consistent {server : Server} {clock : Nat} {history : List DeploymentEvent} {deployment : Deployment}
    (run : DeploymentRun server clock history deployment) : Consistent server.services deployment.exchange := by
  refine trace_invariant (fun _ deployment => Consistent server.services deployment.exchange) ?_ ?_ run
  · exact ⟨.start, fun _ member => absurd member List.not_mem_nil, List.Pairwise.nil,
      fun _ member => absurd member List.not_mem_nil⟩
  · intro _ before event after _ consistent fired
    exact deployed_consistent consistent (deployment_step_cases fired)

def localServer : Server := ⟨localServices, localAuthn⟩

def aliceBid : Submission := ⟨aliceId, 1, .bids, ⟨10, .limit 5⟩, Uuid.nowV7 1717200000000 0⟩

def aliceText : String := "3f1c9a52-7b0e-4d63-a815-4c2e90d7b6f1"

def deployedAfter (events : List DeploymentEvent) : Option Deployment :=
  events.foldlM (Deployment.step localServer) (.installed 1717200000000)

theorem deployment_run_after {events : List DeploymentEvent} (fires : (deployedAfter events).isSome) :
    DeploymentRun localServer 1717200000000 events ((deployedAfter events).get fires) :=
  run_steps .start events (Option.some_get fires).symm

-- The administrator logs in and pays 100 in for a new user, who bids.
def boot : List DeploymentEvent :=
  .startUp (boots "admin@example.com") :: (registers aliceId "alice@example.com" .answered).map .register ++
    [.login .answered ⟨"admin@example.com", "abc123xyz"⟩]

def payIn : DeploymentEvent :=
  .depositOrWithdraw (some (bearer ++ adminToken)) aliceText .answered (Uuid.nowV7 1717200000000 1) ⟨100, .deposit⟩

def aliceLogin : DeploymentEvent := .login .answered ⟨"alice@example.com", "abc123xyz"⟩

def bid : DeploymentEvent := .submit (some (bearer ++ aliceToken)) aliceText aliceBid

def bidGoesOn : List DeploymentEvent :=
  [.proceed (.reserve aliceBid ⟨.answered, .answered⟩), .proceed (.script aliceBid .answered), .proceed (.answer aliceBid)]

def openingDay : List DeploymentEvent := boot ++ [payIn, aliceLogin, bid] ++ bidGoesOn

def booted : Deployment := (deployedAfter boot).get (by decide +kernel)

def paidIn : Deployment := booted.withExchange { booted.exchange with
  accounts := (depositOrWithdraw .answered (Uuid.nowV7 1717200000000 1) aliceId ⟨100, .deposit⟩ booted.exchange.accounts).2 }

def welcomed : Deployment := { paidIn with
  logins := paidIn.logins ++ [⟨⟨"alice@example.com", "abc123xyz"⟩, paidIn.second, aliceClaim, aliceToken⟩] }

def bidding : Deployment := welcomed.withExchange { welcomed.exchange with
  requests := welcomed.exchange.requests ++ [⟨aliceBid, .received⟩] }

theorem bid_goes_on_fires : (bidGoesOn.foldlM (Deployment.step localServer) bidding).isSome = true := by decide +kernel

def afterOpeningDay : Deployment := (bidGoesOn.foldlM (Deployment.step localServer) bidding).get bid_goes_on_fires

theorem local_presents {now : Nat} {token segment : String} {claim : AuthnClaim} (known : localClaim "secret" token = some claim)
    (live : now ≤ claim.exp.toNat + 60) :
    (localAuthn.parsers now).Presents (localAuthn.request (some (bearer ++ token)) segment) claim :=
  request_presents rfl (local_decode known live)

theorem paid_in_fires : booted.step localServer payIn = some paidIn := by
  have second : booted.second = 1717200000 := by decide +kernel
  have admitted : localServer.adminCheck booted (some (bearer ++ adminToken)) aliceText = .success adminClaim := by
    have presents : (localAuthn.parsers booted.second).Presents (localAuthn.request (some (bearer ++ adminToken)) aliceText)
        adminClaim := local_presents local_tokens.1 (by rw [second]; decide)
    exact (admin_check_presents presents).trans (if_pos contains_admin)
  have path : localServer.authn.uuid aliceText = some aliceId := rfl
  rw [payIn, Deployment.step, path]
  simp only [admitted]
  rfl

theorem welcomed_fires : paidIn.step localServer aliceLogin = some welcomed := by
  have answered : localAuthn.login .answered paidIn.second ⟨"alice@example.com", "abc123xyz"⟩ paidIn.users =
      .ok ⟨aliceClaim, aliceToken⟩ := by decide +kernel
  have answered' : localServer.authn.login .answered paidIn.second ⟨"alice@example.com", "abc123xyz"⟩ paidIn.users =
      .ok ⟨aliceClaim, aliceToken⟩ := answered
  rw [aliceLogin, Deployment.step, answered']
  rfl

theorem bidding_fires : welcomed.step localServer bid = some bidding := by
  have second : welcomed.second = 1717200000 := by decide +kernel
  have path : localServer.authn.uuid aliceText = some aliceId := rfl
  have admitted : localServer.userIdCheck welcomed (some (bearer ++ aliceToken)) aliceText = .success aliceClaim := by
    have presents : (localAuthn.parsers welcomed.second).Presents (localAuthn.request (some (bearer ++ aliceToken)) aliceText)
        aliceClaim := local_presents local_tokens.2 (by rw [second]; decide)
    have answer := user_id_check_presents presents
    have parsed : (localAuthn.parsers welcomed.second).uuid (localAuthn.request (some (bearer ++ aliceToken)) aliceText).accountId =
        some aliceId := rfl
    rw [parsed] at answer
    exact answer.trans (if_pos rfl)
  have received : welcomed.exchange.step localServer.services (.receive aliceBid) =
      some { welcomed.exchange with requests := welcomed.exchange.requests ++ [⟨aliceBid, .received⟩] } := by
    have receivable : Receivable welcomed.exchange aliceBid := by decide +kernel
    rw [Exchange.step, if_pos receivable]
  rw [bid, Deployment.step, if_pos ⟨by rw [admitted]; rfl, path⟩, received]
  rfl

theorem welcomed_run : DeploymentRun localServer 1717200000000 (boot ++ [payIn] ++ [aliceLogin]) welcomed := by
  have morning : DeploymentRun localServer 1717200000000 boot booted := deployment_run_after _
  exact .next _ _ _ _ (.next _ _ _ _ morning paid_in_fires) welcomed_fires

theorem opening_day_run : DeploymentRun localServer 1717200000000 openingDay afterOpeningDay := by
  have bids := Trace.next _ _ _ _ welcomed_run bidding_fires
  exact run_steps bids bidGoesOn (Option.some_get bid_goes_on_fires).symm

end MktSim
