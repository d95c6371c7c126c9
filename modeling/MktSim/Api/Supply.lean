import MktSim.Api.Audit
import MktSim.Api.Holdings

set_option autoImplicit false

namespace MktSim

open Redis SortedSets Greedy Runs DoubleEntry

-- Nothing was ever posted on an account outside the cash ledger, and none of them may be overdrawn.
def Unissued (accounts : Accounts) : Prop :=
  ∀ id account, accounts.accounts id = some account → account.form.ledger ≠ fundsLedger →
    account.balances.debitsPosted = 0 ∧ account.balances.creditsPosted = 0 ∧
      account.form.creditsMustNotExceedDebits = true

section Ledger

variable {accounts next : Accounts} (unissued : Unissued accounts)

include unissued

theorem account_unissued {form : AccountForm Uuid}
    (own : form.ledger ≠ fundsLedger → form.creditsMustNotExceedDebits = true)
    (created : createAccount tigerBeetle form accounts = .ok next) : Unissued next := by
  obtain ⟨_, rfl⟩ := create_account_cases created
  intro id account found outside
  by_cases same : id = form.id
  · subst same
    simp only [Function.update_self] at found
    obtain rfl := Option.some.inj found
    exact ⟨rfl, rfl, own outside⟩
  · simp only [Function.update_of_ne same] at found
    exact unissued id account found outside

theorem transfer_unissued {transfer : Transfer Uuid} (cash : transfer.pending = false → transfer.ledger = fundsLedger)
    (booked : createTransfer tigerBeetle transfer accounts = .ok next) : Unissued next := by
  have accepted := transfer_accepted booked
  intro id account found outside
  obtain ⟨before, there, form⟩ := booked_account booked found
  rw [form] at outside ⊢
  -- A posted transfer stays on the cash ledger, so it enters nothing here.
  have entered : ∀ side, entry side false id transfer = 0 := by
    intro side
    refine if_neg ?_
    rintro ⟨posted, party⟩
    obtain ⟨owner, held, ledger⟩ := accepted.ledgers side
    rw [party, there] at held
    obtain rfl := Option.some.inj held
    exact outside (ledger.trans (cash posted))
  obtain ⟨debits, credits, guarded⟩ := unissued id before there outside
  have debited := create_transfer_on booked id .debit false
  have credited := create_transfer_on booked id .credit false
  rw [entered, balances_of found, balances_of there] at debited credited
  exact ⟨debited.trans debits, credited.trans credits, guarded⟩

theorem transfer_uncovered {transfer : Transfer Uuid} (outside : transfer.ledger ≠ fundsLedger) :
    createTransfer tigerBeetle transfer accounts ≠ .ok next := by
  intro booked
  have accepted := transfer_accepted booked
  obtain ⟨account, found, ledger⟩ := accepted.ledgers .credit
  obtain ⟨debits, _, guarded⟩ := unissued _ account found (by rwa [ledger])
  have room := accepted.covered account found guarded
  have some_ := accepted.amount
  omega

end Ledger

theorem asset_form_guarded {services : Services} {form : AccountForm Uuid} (opens : services.Opens form)
    (outside : form.ledger ≠ fundsLedger) : form.creditsMustNotExceedDebits = true := by
  obtain ⟨accountId, rfl⟩ | rfl | ⟨accountId, assetId, rfl⟩ := opens
  · rfl
  · exact absurd rfl outside
  · rfl

theorem reservation_pending {services : Services} {order : Submission} {transfer : Transfer Uuid}
    (own : services.reservation order = some transfer) : transfer.pending = true := by
  unfold Services.reservation at own
  cases book : order.book with
  | bids =>
      cases form : order.form.orderType with
      | market =>
          rw [book, form] at own
          cases own
      | limit price =>
          rw [book, form] at own
          obtain rfl := Option.some.inj own
          rfl
  | offers =>
      rw [book] at own
      obtain rfl := Option.some.inj own
      rfl

theorem posted_on_cash {server : Server} {before : Deployment} {event : DeploymentEvent} {transfer : Transfer Uuid}
    (books : server.Books before event transfer) (posted : transfer.pending = false) : transfer.ledger = fundsLedger := by
  cases event with
  | proceed event =>
      cases event with
      | reserve order calls =>
          rw [reservation_pending books.2] at posted
          cases posted
      | _ => cases books
  | depositOrWithdraw authorization segment call transferId form =>
      obtain ⟨accountId, _, rfl⟩ := books
      rfl
  | _ => cases books

theorem book_transfer_done {call : Call} {status : Status} {transfer : Transfer Uuid} {accounts : Accounts}
    (ok : (bookTransfer call status transfer accounts).1 = .ok ()) :
    ∃ next, createTransfer tigerBeetle transfer accounts = .ok next := by
  cases perform_cases call (createTransfer tigerBeetle transfer) accounts with
  | inl kept =>
      obtain ⟨_, error, failed⟩ := kept
      rw [book_transfer_error failed] at ok
      cases ok
  | inr done => exact ⟨_, done⟩

theorem cash_asset {assetId : Int32} : assetId.toUInt32 = fundsLedger ↔ assetId = -1 := by
  constructor
  · intro cash
    have whole := congrArg UInt32.toInt32 cash
    rw [Int32.toInt32_toUInt32] at whole
    rw [whole]
    rfl
  · rintro rfl
    rfl

theorem offer_refused {services : Services} {calls : ReserveCalls} {order : Submission} {accounts : Accounts}
    (unissued : Unissued accounts) (offer : order.book = .offers) (asset : order.assetId ≠ -1) :
    (services.reserve calls order accounts).1 ≠ .ok () := by
  have opening : Unissued (services.openAssetAccount calls.createAccounts order accounts).2 :=
    open_asset_account_keeps unissued services calls.createAccounts order fun _ created =>
      account_unissued unissued (fun _ => rfl) created
  intro ok
  cases reserve_cases services calls order accounts with
  | inl opened =>
      have nothing := opened.2 ok
      rw [offer_reservation services offer] at nothing
      cases nothing
  | inr asked =>
      obtain ⟨transfer, own, same⟩ := asked
      rw [same] at ok
      obtain ⟨next, done⟩ := book_transfer_done ok
      rw [offer_reservation services offer] at own
      obtain rfl := Option.some.inj own
      exact transfer_uncovered opening (fun cash => asset (cash_asset.mp cash)) done

structure Unsold (deployment : Deployment) : Prop where
  unissued : Unissued deployment.exchange.accounts
  requests : ∀ request ∈ deployment.exchange.requests, request.order.book = .offers → request.order.assetId ≠ -1 →
    request.stage ≠ .reserved
  executed : ∀ execution ∈ deployment.exchange.executed, execution.order.assetId ≠ -1 → execution.order.book = .bids

section Step

variable {server : Server} {before after : Deployment} {event : DeploymentEvent}

theorem unissued_step (unissued : Unissued before.exchange.accounts) (deployed : Deployed server before event after) :
    Unissued after.exchange.accounts :=
  deployed_keeps unissued
    (fun _ opens _ _ holds created => account_unissued holds (asset_form_guarded opens) created)
    (fun _ books _ _ holds booked => transfer_unissued holds (posted_on_cash books) booked) deployed

theorem staged_unreserved {order : Submission} {stage : Stage} {requests : List Request}
    (unreserved : ∀ request ∈ requests, request.order.book = .offers → request.order.assetId ≠ -1 →
      request.stage ≠ .reserved)
    (own : order.book = .offers → order.assetId ≠ -1 → stage ≠ .reserved) :
    ∀ request ∈ setStage order stage requests, request.order.book = .offers → request.order.assetId ≠ -1 →
      request.stage ≠ .reserved := by
  intro request member offer asset
  cases mem_set_stage member with
  | inl named =>
      rw [named.2]
      exact own (named.1 ▸ offer) (named.1 ▸ asset)
  | inr old => exact unreserved request old.2 offer asset

theorem stepped_unsold {services : Services} {exchange : Exchange} {event : ExchangeEvent}
    (unsold : Unsold before) (stepped : Stepped services before.exchange event exchange) :
    (∀ request ∈ exchange.requests, request.order.book = .offers → request.order.assetId ≠ -1 →
        request.stage ≠ .reserved) ∧
      ∀ execution ∈ exchange.executed, execution.order.assetId ≠ -1 → execution.order.book = .bids := by
  cases stepped with
  | receive order receivable =>
      refine ⟨fun request member offer asset => ?_, unsold.executed⟩
      cases List.mem_append.mp member with
      | inl old => exact unsold.requests request old offer asset
      | inr new =>
          rw [List.mem_singleton.mp new]
          exact Stage.noConfusion
  | reserve order calls waiting =>
      refine ⟨staged_unreserved unsold.requests fun offer asset => ?_, unsold.executed⟩
      have refused := @offer_refused services calls order before.exchange.accounts unsold.unissued offer asset
      cases outcome : (services.reserve calls order before.exchange.accounts).1 with
      | ok done => exact absurd outcome refused
      | error status => exact Stage.noConfusion
  | lost order reserved => exact ⟨staged_unreserved unsold.requests fun _ _ => Stage.noConfusion, unsold.executed⟩
  | script order call reserved asked =>
      refine ⟨staged_unreserved unsold.requests fun _ _ => Stage.noConfusion, fun execution member asset => ?_⟩
      cases List.mem_append.mp member with
      | inl old => exact unsold.executed execution old asset
      | inr new =>
          rw [List.mem_singleton.mp new] at asset ⊢
          cases book : order.book with
          | bids => exact book
          | offers => exact absurd rfl (unsold.requests _ reserved book asset)
  | answer order ready => exact ⟨staged_unreserved unsold.requests fun _ _ => Stage.noConfusion, unsold.executed⟩
  | _ => exact ⟨unsold.requests, unsold.executed⟩

theorem unsold_step (unsold : Unsold before) (deployed : Deployed server before event after) : Unsold after := by
  have unissued := unissued_step unsold.unissued deployed
  cases deployed with
  | submit authorization segment order claim exchange admitted path stepped =>
      exact ⟨unissued, (stepped_unsold unsold stepped).1, (stepped_unsold unsold stepped).2⟩
  | proceed event exchange inner stepped =>
      exact ⟨unissued, (stepped_unsold unsold stepped).1, (stepped_unsold unsold stepped).2⟩
  | depositOrWithdraw authorization segment call transferId accountId form claim exchange admitted path stepped =>
      exact ⟨unissued, (stepped_unsold unsold stepped).1, (stepped_unsold unsold stepped).2⟩
  | _ => exact ⟨unissued, unsold.requests, unsold.executed⟩

end Step

theorem deployment_unsold {server : Server} {clock : Nat} {history : List DeploymentEvent} {deployment : Deployment}
    (run : DeploymentRun server clock history deployment) : Unsold deployment := by
  refine trace_invariant (fun _ deployment => Unsold deployment) ?_ ?_ run
  · exact ⟨fun id account found => (by cases found), fun request member => (by cases member),
      fun execution member => (by cases member)⟩
  · intro _ before event after _ unsold fired
    exact unsold_step unsold (deployment_step_cases fired)

-- What customers see of an exchange where no share is ever for sale. Asset -1 alone shares its ledger with cash.
structure NothingSold (services : Services) (exchange : Exchange) : Prop where
  reserved : ∀ request ∈ exchange.requests, request.order.book = .offers → request.order.assetId ≠ -1 →
    request.stage ≠ .reserved
  executed : ∀ execution ∈ exchange.executed, execution.order.assetId ≠ -1 → execution.order.book = .bids
  books : ∀ assetId, assetId ≠ -1 → bookOrders exchange.store assetId .offers = []
  trades : ∀ execution ∈ exchange.executed, execution.order.assetId ≠ -1 → ∀ orderId, traded execution orderId = 0
  replies : ∀ execution ∈ exchange.executed, execution.order.assetId ≠ -1 → ∀ reply, execution.outcome = .ok reply →
    reply.sharesFilled = 0 ∧ reply.dollarVolumeFilled = 0 ∧ reply.completedOrders = []
  holdings : ∀ fetch lookup accountId assetIds holdings,
    services.getEquitiesForAccount fetch lookup accountId assetIds exchange.accounts = .ok holdings →
      ∀ holding ∈ holdings, holding.assetId ≠ -1 → holding.amount = 0

section Sold

variable {services : Services} {exchange : Exchange}

theorem offers_absent (bids : ∀ execution ∈ exchange.executed, execution.order.assetId ≠ -1 → execution.order.book = .bids)
    {table : Table} (sound : Sound exchange.executed table) {orderId : Uuid} {resting : Resting}
    (there : table orderId = some resting) (asset : resting.assetId ≠ -1) : resting.side = .bids := by
  obtain ⟨execution, member, _, submitted⟩ := sound orderId resting there
  obtain ⟨_, sameAsset, side, _⟩ := submitted
  rw [side]
  exact bids execution member (sameAsset ▸ asset)

theorem holding_zero (unissued : Unissued exchange.accounts) {account : Account Uuid} {id : Uuid}
    (found : exchange.accounts.accounts id = some account) (asset : (holdingsOf account).assetId ≠ -1) :
    (holdingsOf account).amount = 0 := by
  have outside : account.form.ledger ≠ fundsLedger := by
    intro cash
    refine asset ?_
    rw [holdingsOf, cash]
    rfl
  obtain ⟨debits, credits, _⟩ := unissued id account found outside
  rw [holdings_amount (credits ▸ Nat.two_pow_pos 127) (debits ▸ Nat.two_pow_pos 127), debits, credits]
  rfl

theorem offers_unmet (consistent : Consistent services exchange)
    (bids : ∀ execution ∈ exchange.executed, execution.order.assetId ≠ -1 → execution.order.book = .bids) {execution : Execution}
    (member : execution ∈ exchange.executed) (asset : execution.order.assetId ≠ -1) :
    ∃ table next, Executed services.lua execution table [] next := by
  obtain ⟨table, lots, next, executed, sound⟩ := run_executed_sound consistent.run member
  have none_ : lots = [] := by
    refine List.eq_nil_iff_forall_not_mem.mpr fun lot queued => ?_
    obtain ⟨there, sameAsset, side, _⟩ := (executed.queue.mem lot.1 lot.2).mp queued
    have isBid := offers_absent bids sound there (sameAsset.symm ▸ asset)
    rw [bids execution member asset] at side
    rw [isBid] at side
    cases side
  subst none_
  exact ⟨table, next, executed⟩

theorem unsold_nothing {deployment : Deployment} (consistent : Consistent services deployment.exchange)
    (unsold : Unsold deployment) : NothingSold services deployment.exchange := by
  have bids := unsold.executed
  refine ⟨unsold.requests, bids, fun assetId asset => ?_, fun execution member asset orderId => ?_, fun execution member asset reply ok => ?_,
    fun fetch lookup accountId assetIds holdings answer holding member asset => ?_⟩
  · obtain ⟨table, rep, sound⟩ := run_represents consistent.run
    refine List.eq_nil_iff_forall_not_mem.mpr fun orderId member => ?_
    obtain ⟨resting, there, sameAsset, side⟩ := (mem_book_orders rep).mp member
    have isBid := offers_absent bids sound there (sameAsset.symm ▸ asset)
    rw [isBid] at side
    cases side
  · obtain ⟨table, next, executed⟩ := offers_unmet consistent bids member asset
    cases there : table orderId with
    | none => exact traded_absent executed there
    | some resting => exact traded_unqueued executed there List.not_mem_nil
  · obtain ⟨table, next, executed⟩ := offers_unmet consistent bids member asset
    have whole := fill_remaining execution.order []
    rw [effect_reply executed ok, whole]
    refine ⟨?_, rfl, rfl⟩
    simp [total]
  · unfold Services.getEquitiesForAccount at answer
    split at answer
    · obtain rfl := Except.ok.inj answer
      obtain ⟨account, held, rfl⟩ := List.mem_map.mp member
      obtain ⟨queried, _, found⟩ := List.mem_filterMap.mp held
      exact holding_zero unsold.unissued found asset
    · cases answer

end Sold

/-- From an empty ledger on no order for an asset other than -1 ever trades a share: nothing brings shares in,
so every offer fails at its reservation. -/
theorem nothing_sold (server : Server) (clock : Nat) (history : List DeploymentEvent) (deployment : Deployment)
    (run : DeploymentRun server clock history deployment) : NothingSold server.services deployment.exchange :=
  unsold_nothing (deployment_consistent run) (deployment_unsold run)

theorem nothing_sold_opening : NothingSold localServices afterOpeningDay.exchange :=
  nothing_sold localServer 1717200000000 openingDay afterOpeningDay opening_day_run

end MktSim
