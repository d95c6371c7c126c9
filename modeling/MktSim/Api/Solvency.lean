import MktSim.Api.Audit
import MktSim.Api.Reservations

set_option autoImplicit false

namespace MktSim

open Redis Runs DoubleEntry

-- What a user's bids have cost so far, with what is at rest of them at their limits.
def spent (exchange : Exchange) (accountId : Uuid) : Int := ((bidsOf exchange accountId).map (bidCost exchange)).sum

section Secure

variable {server : Server} {before after : Deployment} {event : DeploymentEvent} {booked : List (Transfer Uuid)}

-- Registration and start-up open accounts only, so no reservation is given up for them.
theorem secured_accounts {services : Services} {exchange : Exchange} {accounts : Accounts}
    (secured : Secured services exchange booked) (backed : Backed booked accounts) :
    Secured services { exchange with accounts := accounts } booked :=
  ⟨backed, secured.reserved, secured.executed⟩

theorem deployed_secured (secured : Secured server.services before.exchange booked)
    (deployed : Deployed server before event after) : ∃ next, Secured server.services after.exchange next := by
  cases deployed with
  | startUp startUp =>
      have opened : Backed booked (before.registry.createAdminUser server.authn.bcrypt.hash startUp).registry.accounts :=
        @created_admin_keeps (Backed booked) before.registry secured.backed _ startUp fun _ created =>
          backed_account secured.backed created
      exact ⟨booked, secured_accounts secured opened⟩
  | register event registry registered =>
      have opened : Backed booked registry.accounts := by
        cases registered with
        | begin accountId form salt unused => exact secured.backed
        | insert accountId call user stage => exact secured.backed
        | createAccount accountId call user stage => exact open_account_backed secured.backed call _
      exact ⟨booked, secured_accounts secured opened⟩
  | submit authorization segment order claim exchange admitted path stepped => exact secured_step secured stepped
  | proceed event exchange inner stepped => exact secured_step secured stepped
  | depositOrWithdraw authorization segment call transferId accountId form claim exchange admitted path stepped =>
      exact secured_step secured stepped
  | _ => exact ⟨booked, secured⟩

end Secure

variable {server : Server} {clock : Nat} {history : List DeploymentEvent} {deployment : Deployment}

theorem deployment_secured (run : DeploymentRun server clock history deployment) :
    ∃ booked, Secured server.services deployment.exchange booked := by
  refine trace_invariant (fun _ deployment => ∃ booked, Secured server.services deployment.exchange booked) ?_ ?_ run
  · exact ⟨[], backed_nil _, fun _ member => absurd member List.not_mem_nil, fun _ member => absurd member List.not_mem_nil⟩
  · intro _ before event after _ secured fired
    obtain ⟨booked, secured⟩ := secured
    exact deployed_secured secured (deployment_step_cases fired)

theorem spent_held {services : Services} {exchange : Exchange} {booked : List (Transfer Uuid)}
    (consistent : Consistent services exchange) (secured : Secured services exchange booked) (accountId : Uuid) :
    spent exchange accountId ≤ ((balancesAt exchange.accounts accountId).creditsPending : Int) := by
  apply exposed_held consistent secured
  intro execution member selected
  obtain ⟨rfl, book⟩ := of_decide_eq_true selected
  refine (run_exposure consistent.run id .bids (fun order table lots isBid queue lot queued => ?_) execution member book).trans
    (bid_reserved book)
  obtain ⟨_, _, side, inReach⟩ := (queue.mem lot.1 lot.2).mp queued
  rw [isBid] at side inReach
  exact (reach_price side _).mp inReach

/-- Whatever a customer bids, the bids and the withdrawals together never cost more than was deposited. -/
theorem customer_solvent (server : Server) (clock : Nat) (history : List DeploymentEvent) (deployment : Deployment)
    (run : DeploymentRun server clock history deployment) (accountId : Uuid) (customer : accountId ≠ ADMIN_ACCOUNT_ID) :
    spent deployment.exchange accountId + entered .credit false accountId deployment.exchange.accounts.transfers ≤
      entered .debit false accountId deployment.exchange.accounts.transfers := by
  have audited := deployment_audited run
  obtain ⟨booked, secured⟩ := deployment_secured run
  have held := spent_held (deployment_consistent run) secured accountId
  have covered := customer_balances run customer
  rw [← audited.replayed, ← audited.replayed]
  simp only [Balances.on]
  omega

theorem customer_solvent_alice :
    spent afterOpeningDay.exchange aliceId + entered .credit false aliceId afterOpeningDay.exchange.accounts.transfers ≤
      entered .debit false aliceId afterOpeningDay.exchange.accounts.transfers :=
  customer_solvent localServer 1717200000000 openingDay afterOpeningDay opening_day_run aliceId (by decide)

end MktSim
