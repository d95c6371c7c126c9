import MktSim.Api.Deployment
import MktSim.Lib.Bookkeeping

set_option autoImplicit false

namespace MktSim

open Runs DoubleEntry

def uuidEquiv : Uuid ≃ Fin (2 ^ 128) := ⟨Uuid.asU128, Uuid.mk, fun _ => rfl, fun _ => rfl⟩

instance : Fintype Uuid := Fintype.ofEquiv _ uuidEquiv.symm

variable {server : Server} {clock : Nat} {history : List DeploymentEvent} {deployment : Deployment}

theorem deployment_audited (run : DeploymentRun server clock history deployment) :
    Audited tigerBeetle deployment.exchange.accounts := by
  refine trace_invariant (fun _ deployment => Audited tigerBeetle deployment.exchange.accounts) ?_ ?_ run
  · exact audited_empty (Nat.two_pow_pos 128)
  · intro _ before event after _ audited fired
    exact deployed_keeps audited (fun _ _ _ _ holds created => audited_account holds created)
      (fun _ _ _ _ holds booked => audited_transfer holds booked) (deployment_step_cases fired)

theorem customers_guarded (run : DeploymentRun server clock history deployment) :
    FormsWithin (fun form => form.id ≠ ADMIN_ACCOUNT_ID → form.creditsMustNotExceedDebits = true)
      deployment.exchange.accounts := by
  refine trace_invariant (fun _ deployment => FormsWithin
    (fun form => form.id ≠ ADMIN_ACCOUNT_ID → form.creditsMustNotExceedDebits = true) deployment.exchange.accounts) ?_ ?_ run
  · intro id account found
    cases found
  · intro _ before event after _ guarded fired
    refine deployed_keeps guarded (fun form opens _ _ holds created => ?_)
      (fun _ _ _ _ holds booked => forms_transfer holds booked) (deployment_step_cases fired)
    refine forms_account holds ?_ created
    obtain ⟨accountId, rfl⟩ | rfl | ⟨accountId, assetId, rfl⟩ := opens
    · exact fun _ => rfl
    · exact fun customer => absurd rfl customer
    · exact fun _ => rfl

/-- Whatever the requests and however they fail, TigerBeetle's books can be recomputed from its
transfers, and on every ledger debits and credits are equal. -/
theorem books_balance (server : Server) (clock : Nat) (history : List DeploymentEvent) (deployment : Deployment)
    (run : DeploymentRun server clock history deployment) :
    Audited tigerBeetle deployment.exchange.accounts ∧
      ∀ pending number,
        ∑ id with onLedger deployment.exchange.accounts number id = true,
            (balancesAt deployment.exchange.accounts id).on .debit pending =
          ∑ id with onLedger deployment.exchange.accounts number id = true,
            (balancesAt deployment.exchange.accounts id).on .credit pending := by
  have audited := deployment_audited run
  refine ⟨audited, fun pending number => ?_⟩
  rw [trial_balance audited, trial_balance audited]

theorem books_balance_opening :
    Audited tigerBeetle afterOpeningDay.exchange.accounts ∧
      ∀ pending number,
        ∑ id with onLedger afterOpeningDay.exchange.accounts number id = true,
            (balancesAt afterOpeningDay.exchange.accounts id).on .debit pending =
          ∑ id with onLedger afterOpeningDay.exchange.accounts number id = true,
            (balancesAt afterOpeningDay.exchange.accounts id).on .credit pending :=
  books_balance localServer 1717200000000 openingDay afterOpeningDay opening_day_run

theorem customer_balances (run : DeploymentRun server clock history deployment) {accountId : Uuid}
    (customer : accountId ≠ ADMIN_ACCOUNT_ID) :
    (balancesAt deployment.exchange.accounts accountId).creditsPending +
        (balancesAt deployment.exchange.accounts accountId).creditsPosted ≤
      (balancesAt deployment.exchange.accounts accountId).debitsPosted := by
  have audited := deployment_audited run
  cases found : deployment.exchange.accounts.accounts accountId with
  | none =>
      have absent : balancesAt deployment.exchange.accounts accountId = .zero := by simp [balancesAt, found]
      rw [absent]
      exact Nat.le_refl 0
  | some account =>
      have named := audited.named accountId account found
      have guarded := customers_guarded run accountId account found (named ▸ customer)
      rw [balances_of found]
      exact audited.covered accountId account found guarded

/-- What an account other than the administrator's has paid out and reserved was paid in before. -/
theorem customer_covered (server : Server) (clock : Nat) (history : List DeploymentEvent) (deployment : Deployment)
    (run : DeploymentRun server clock history deployment) (accountId : Uuid) (customer : accountId ≠ ADMIN_ACCOUNT_ID) :
    entered .credit false accountId deployment.exchange.accounts.transfers +
        entered .credit true accountId deployment.exchange.accounts.transfers ≤
      entered .debit false accountId deployment.exchange.accounts.transfers := by
  have audited := deployment_audited run
  rw [← audited.replayed, ← audited.replayed, ← audited.replayed, Nat.add_comm]
  exact customer_balances run customer

theorem customer_covered_alice :
    entered .credit false aliceId afterOpeningDay.exchange.accounts.transfers +
        entered .credit true aliceId afterOpeningDay.exchange.accounts.transfers ≤
      entered .debit false aliceId afterOpeningDay.exchange.accounts.transfers :=
  customer_covered localServer 1717200000000 openingDay afterOpeningDay opening_day_run aliceId
    (by decide)

-- A transfer that an admitted request asked for: an order that was submitted and then went on
-- to its reservation, or a deposit or withdrawal.
inductive Requested (server : Server) (history : List DeploymentEvent) (transfer : Transfer Uuid) : Prop where
  | reservation (earlier later : List DeploymentEvent) (authorization : Option String) (segment : String)
      (order : Submission) (calls : ReserveCalls) (submitted : history = earlier ++ .submit authorization segment order :: later)
      (reserved : .proceed (.reserve order calls) ∈ later) (own : server.services.reservation order = some transfer)
  | balance (earlier later : List DeploymentEvent) (authorization : Option String) (segment : String) (call : Call)
      (transferId accountId : Uuid) (form : BalanceForm)
      (asked : history = earlier ++ .depositOrWithdraw authorization segment call transferId form :: later)
      (path : server.authn.uuid segment = some accountId) (own : transfer = balanceTransfer transferId accountId form)

theorem requested_append {transfer : Transfer Uuid} (requested : Requested server history transfer)
    (event : DeploymentEvent) : Requested server (history ++ [event]) transfer := by
  cases requested with
  | reservation earlier later authorization segment order calls submitted reserved own =>
      exact .reservation earlier (later ++ [event]) authorization segment order calls (by simp [submitted])
        (List.mem_append_left _ reserved) own
  | balance earlier later authorization segment call transferId accountId form asked path own =>
      exact .balance earlier (later ++ [event]) authorization segment call transferId accountId form (by simp [asked]) path own

theorem order_submitted (run : DeploymentRun server clock history deployment) :
    ∀ order ∈ deployment.exchange.requests.map Request.order,
      ∃ authorization segment, .submit authorization segment order ∈ history := by
  refine trace_invariant (fun history deployment => ∀ order ∈ deployment.exchange.requests.map Request.order,
    ∃ authorization segment, .submit authorization segment order ∈ history) ?_ ?_ run
  · intro order member
    cases member
  · intro earlier before event after _ known fired order member
    rw [deployed_orders (deployment_step_cases fired)] at member
    cases List.mem_append.mp member with
    | inl old =>
        obtain ⟨authorization, segment, there⟩ := known order old
        exact ⟨authorization, segment, List.mem_append_left _ there⟩
    | inr new =>
        cases event with
        | submit authorization segment other =>
            rw [List.mem_singleton.mp new]
            exact ⟨authorization, segment, List.mem_append_right _ (List.mem_singleton_self _)⟩
        | _ => cases new

theorem booked_requested {before : Deployment} {event : DeploymentEvent} {transfer : Transfer Uuid}
    (run : DeploymentRun server clock history before) (books : server.Books before event transfer) :
    Requested server (history ++ [event]) transfer := by
  cases event with
  | proceed event =>
      cases event with
      | reserve order calls =>
          obtain ⟨waiting, own⟩ := books
          obtain ⟨authorization, segment, submitted⟩ := order_submitted run order (List.mem_map.mpr ⟨_, waiting, rfl⟩)
          obtain ⟨earlier, later, rfl⟩ := List.append_of_mem submitted
          exact .reservation earlier (later ++ [.proceed (.reserve order calls)]) authorization segment order calls
            (by simp) (List.mem_append_right _ (List.mem_singleton_self _)) own
      | _ => cases books
  | depositOrWithdraw authorization segment call transferId form =>
      obtain ⟨accountId, path, own⟩ := books
      exact .balance history [] authorization segment call transferId accountId form rfl path own
  | _ => cases books

theorem movements_requested (run : DeploymentRun server clock history deployment) :
    ∀ transfer ∈ deployment.exchange.accounts.transfers, Requested server history transfer := by
  refine trace_invariant (fun history deployment => ∀ transfer ∈ deployment.exchange.accounts.transfers,
    Requested server history transfer) ?_ ?_ run
  · intro transfer member
    cases member
  · intro earlier before event after earlierRun requested fired
    have still : ∀ transfer ∈ before.exchange.accounts.transfers, Requested server (earlier ++ [event]) transfer :=
      fun transfer member => requested_append (requested transfer member) event
    refine @deployed_keeps _ _ _ _ (fun accounts => ∀ transfer ∈ accounts.transfers,
      Requested server (earlier ++ [event]) transfer) still ?_ ?_ (deployment_step_cases fired)
    · intro form _ accounts next holds created
      obtain ⟨_, rfl⟩ := create_account_cases created
      exact holds
    · intro transfer books accounts next holds booked other member
      rw [booked_transfers booked] at member
      cases List.mem_cons.mp member with
      | inl new =>
          rw [new]
          exact booked_requested earlierRun books
      | inr old => exact holds other old

end MktSim
