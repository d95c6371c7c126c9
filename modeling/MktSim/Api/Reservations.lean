import MktSim.Api.Exchange
import MktSim.Api.Exposure

set_option autoImplicit false

namespace MktSim

open Redis SortedSets Greedy Runs DoubleEntry

def Reserved (services : Services) (booked : List (Transfer Uuid)) (order : Submission) : Prop :=
  ∀ transfer, services.reservation order = some transfer → transfer ∈ booked

theorem reserved_append {services : Services} {more booked : List (Transfer Uuid)} {order : Submission}
    (reserved : Reserved services booked order) : Reserved services (more ++ booked) order :=
  fun transfer needed => List.mem_append_right _ (reserved transfer needed)

section Ledger

variable {booked : List (Transfer Uuid)} {accounts : Accounts} (backed : Backed booked accounts)

include backed

theorem open_account_backed (call : Call) (form : AccountForm Uuid) :
    Backed booked (openAccount call form accounts).2 :=
  open_account_keeps backed call fun _ created => backed_account backed created

theorem open_asset_account_backed (services : Services) (call : Call) (order : Submission) :
    Backed booked (services.openAssetAccount call order accounts).2 :=
  open_asset_account_keeps backed services call order fun _ created => backed_account backed created

theorem book_transfer_backed (call : Call) (status : Status) (transfer : Transfer Uuid) :
    ∃ more, Backed (more ++ booked) (bookTransfer call status transfer accounts).2 ∧
      ((bookTransfer call status transfer accounts).1 = .ok () → transfer ∈ more) := by
  rw [book_transfer_ledger]
  cases perform_cases call (createTransfer tigerBeetle transfer) accounts with
  | inl kept =>
      obtain ⟨same, error, failed⟩ := kept
      refine ⟨[], ?_, ?_⟩
      · rw [same]
        exact backed
      · rw [book_transfer_error failed]
        exact fun done => by cases done
  | inr created => exact ⟨[transfer], backed_transfer backed created, fun _ => List.mem_singleton_self _⟩

theorem reserve_backed (services : Services) (calls : ReserveCalls) (order : Submission) :
    ∃ more, Backed (more ++ booked) (services.reserve calls order accounts).2 ∧
      ((services.reserve calls order accounts).1 = .ok () → Reserved services more order) := by
  have opening := open_asset_account_backed backed services calls.createAccounts order
  cases reserve_cases services calls order accounts with
  | inl opened =>
      obtain ⟨same, unneeded⟩ := opened
      rw [← same] at opening
      refine ⟨[], opening, fun ok transfer needed => ?_⟩
      rw [unneeded ok] at needed
      cases needed
  | inr asked =>
      obtain ⟨transfer, needed, same⟩ := asked
      obtain ⟨more, holds, done⟩ := book_transfer_backed opening calls.createTransfers .internalServerError transfer
      rw [← same] at holds done
      refine ⟨more, holds, fun ok other also => ?_⟩
      obtain rfl := Option.some.inj (needed.symm.trans also)
      exact done ok

end Ledger

-- The reservations of the orders the script has executed, and of those it may be asked to
-- execute next, are still held.
structure Secured (services : Services) (exchange : Exchange) (booked : List (Transfer Uuid)) : Prop where
  backed : Backed booked exchange.accounts
  reserved : ∀ request ∈ exchange.requests, request.stage = .reserved → Reserved services booked request.order
  executed : ∀ execution ∈ exchange.executed, Reserved services booked execution.order

theorem secured_step {services : Services} {before after : Exchange} {event : ExchangeEvent}
    {booked : List (Transfer Uuid)} (secured : Secured services before booked)
    (stepped : Stepped services before event after) : ∃ next, Secured services after next := by
  obtain ⟨backed, reserved, executed⟩ := secured
  -- A request that leaves the reserved stage asks for nothing further.
  have staged : ∀ (order : Submission) (stage : Stage), stage ≠ .reserved →
      ∀ request ∈ setStage order stage before.requests, request.stage = .reserved →
        Reserved services booked request.order := by
    intro order stage left request member isReserved
    cases mem_set_stage member with
    | inl changed => exact absurd (changed.2.symm.trans isReserved) left
    | inr other => exact reserved request other.2 isReserved
  cases stepped with
  | tick millis later => exact ⟨booked, backed, reserved, executed⟩
  | receive order receivable =>
      refine ⟨booked, backed, fun request member isReserved => ?_, executed⟩
      cases List.mem_append.mp member with
      | inl old => exact reserved request old isReserved
      | inr new =>
          rw [List.mem_singleton.mp new] at isReserved
          cases isReserved
  | reserve order calls waiting =>
      obtain ⟨more, holds, done⟩ := reserve_backed backed services calls order
      refine ⟨more ++ booked, holds, fun request member isReserved => ?_, fun execution member =>
        reserved_append (executed execution member)⟩
      cases mem_set_stage member with
      | inl changed =>
          have ok : (services.reserve calls order before.accounts).1 = .ok () := by
            have stage := changed.2.symm.trans isReserved
            cases result : (services.reserve calls order before.accounts).1 with
            | ok _ => rfl
            | error status =>
                rw [result] at stage
                cases stage
          rw [changed.1]
          exact fun transfer needed => List.mem_append_left _ (done ok transfer needed)
      | inr other => exact reserved_append (reserved request other.2 isReserved)
  | lost order _ => exact ⟨booked, backed, staged order .failed Stage.noConfusion, executed⟩
  | script order call waiting asked =>
      refine ⟨booked, backed, staged order .executed Stage.noConfusion, fun execution member => ?_⟩
      cases List.mem_append.mp member with
      | inl old => exact executed execution old
      | inr new =>
          rw [List.mem_singleton.mp new]
          exact reserved ⟨order, .reserved⟩ waiting rfl
  | answer order ready => exact ⟨booked, backed, staged order .answered Stage.noConfusion, executed⟩
  | register call accountId => exact ⟨booked, open_account_backed backed call _, reserved, executed⟩
  | depositOrWithdraw call transferId accountId form =>
      obtain ⟨more, holds, _⟩ := book_transfer_backed backed call .badRequest (balanceTransfer transferId accountId form)
      exact ⟨more ++ booked, holds, fun request member isReserved => reserved_append (reserved request member isReserved),
        fun execution member => reserved_append (executed execution member)⟩

theorem run_secured {services : Services} {clock : Nat} {accounts : Accounts} {events : List ExchangeEvent}
    {exchange : Exchange} (run : ExchangeRun services clock accounts events exchange) :
    ∃ booked, Secured services exchange booked := by
  refine trace_invariant (fun _ exchange => ∃ booked, Secured services exchange booked) ?_ ?_ run
  · exact ⟨[], backed_nil _, fun _ member => absurd member List.not_mem_nil, fun _ member => absurd member List.not_mem_nil⟩
  · intro _ before event after _ secured fired
    obtain ⟨booked, secured⟩ := secured
    exact secured_step secured (step_cases fired)

section Amounts

variable {services : Services}

theorem reservation_id {order : Submission} {transfer : Transfer Uuid}
    (needed : services.reservation order = some transfer) : transfer.id = order.orderId := by
  cases book : order.book with
  | bids =>
      cases form : order.form.orderType with
      | market => simp [Services.reservation, book, form] at needed
      | limit price =>
          simp only [Services.reservation, book, form, Option.some.injEq] at needed
          rw [← needed]
  | offers =>
      simp only [Services.reservation, book, Option.some.injEq] at needed
      rw [← needed]

theorem reservations_distinct {orders : List Submission} (apart : orders.Pairwise ApartFrom) :
    (orders.filterMap services.reservation).Nodup := by
  refine List.pairwise_filterMap.mpr (apart.imp ?_)
  intro a b differ first isFirst second isSecond same
  have ids : first.id = second.id := congrArg Transfer.id same
  rw [reservation_id isFirst, reservation_id isSecond] at ids
  exact differ.1 ids.symm

def reservedFor (services : Services) (id : Uuid) (order : Submission) : Nat :=
  ((services.reservation order).map (creditedTo id)).getD 0

theorem sum_reserved (id : Uuid) (orders : List Submission) :
    (orders.map (reservedFor services id)).sum = ((orders.filterMap services.reservation).map (creditedTo id)).sum := by
  induction orders with
  | nil => rfl
  | cons order rest ih =>
      cases needed : services.reservation order with
      | none => rw [List.filterMap_cons_none needed, List.map_cons, List.sum_cons, ih, reservedFor, needed, Option.map_none,
          Option.getD_none, Nat.zero_add]
      | some transfer => rw [List.filterMap_cons_some needed, List.map_cons, List.map_cons, List.sum_cons, List.sum_cons, ih,
          reservedFor, needed, Option.map_some, Option.getD_some]

theorem price_as_u128 {price : Int32} (positive : 0 ≤ price.toInt) : (priceAsU128 price : Int) = price.toInt := by
  have small := price.toInt_lt
  rw [priceAsU128, Int.emod_eq_of_lt positive (by omega), Int.toNat_of_nonneg positive]

-- A bid is reserved for at its limit. Nothing it can cost is left out when the price is
-- negative or there is none.
theorem bid_reserved {order : Submission} (book : order.book = .bids) :
    exposureLimit id order ≤ reservedFor services order.accountId order := by
  cases form : order.form.orderType with
  | market =>
      have free : exposureLimit id order = 0 := by simp [exposureLimit, Submission.price, form]
      rw [free]
      exact Int.natCast_nonneg _
  | limit price =>
      rw [exposureLimit, id_eq, limit_price form]
      by_cases negative : price.toInt < 0
      · have free : price.toInt * (order.size : Int) ≤ 0 :=
          Int.mul_nonpos_of_nonpos_of_nonneg (Int.le_of_lt negative) (Int.natCast_nonneg _)
        rw [max_eq_left free]
        exact Int.natCast_nonneg _
      · have positive : 0 ≤ price.toInt := Int.not_lt.mp negative
        have amount := price_as_u128 positive
        have small := price.toInt_lt
        have size := order.size_lt
        have room : order.size * priceAsU128 price < 2 ^ 128 := by
          have less : priceAsU128 price < 2 ^ 31 := by omega
          calc order.size * priceAsU128 price ≤ 2 ^ 32 * 2 ^ 31 :=
                Nat.mul_le_mul (Nat.le_of_lt size) (Nat.le_of_lt less)
            _ < 2 ^ 128 := by decide
        have reserved : reservedFor services order.accountId order = order.size * priceAsU128 price := by
          simp only [reservedFor, Services.reservation, book, form, creditedTo, Option.map_some, Option.getD_some, and_self,
            if_true]
          exact Nat.mod_eq_of_lt room
        rw [max_eq_right (Int.mul_nonneg positive (Int.natCast_nonneg _)), reserved, Nat.cast_mul, amount, Int.mul_comm]

theorem offer_reserved {order : Submission} (book : order.book = .offers) :
    exposureLimit (fun _ => 1) order ≤ reservedFor services (services.newV5 order.accountId order.assetId) order := by
  have reserved : reservedFor services (services.newV5 order.accountId order.assetId) order = order.size := by
    simp [reservedFor, Services.reservation, book, creditedTo]
  rw [exposureLimit, one_mul, reserved, max_eq_right (Int.natCast_nonneg _)]

end Amounts

theorem exposed_held {services : Services} {exchange : Exchange} {booked : List (Transfer Uuid)}
    (consistent : Consistent services exchange) (secured : Secured services exchange booked) (id : Uuid)
    (selected : Submission → Bool) (amount : Submission → Int)
    (covered : ∀ execution ∈ exchange.executed, selected execution.order = true →
      amount execution.order ≤ reservedFor services id execution.order) :
    (((exchange.executed.map Execution.order).filter selected).map amount).sum ≤
      ((balancesAt exchange.accounts id).creditsPending : Int) := by
  have each : (((exchange.executed.map Execution.order).filter selected).map amount).sum ≤
      (((exchange.executed.map Execution.order).filter selected).map fun order => (reservedFor services id order : Int)).sum := by
    apply List.sum_le_sum
    intro order member
    obtain ⟨known, isSelected⟩ := List.mem_filter.mp member
    obtain ⟨execution, inExecuted, rfl⟩ := List.mem_map.mp known
    exact covered execution inExecuted isSelected
  have cast : (((exchange.executed.map Execution.order).filter selected).map fun order =>
      (reservedFor services id order : Int)).sum =
      ((((exchange.executed.map Execution.order).filter selected).map (reservedFor services id)).sum : Nat) := by
    rw [Nat.cast_list_sum, List.map_map]
    rfl
  have present : ((exchange.executed.map Execution.order).filter selected).filterMap services.reservation ⊆ booked := by
    intro transfer member
    obtain ⟨order, inOrders, needed⟩ := List.mem_filterMap.mp member
    obtain ⟨execution, inExecuted, rfl⟩ := List.mem_map.mp (List.mem_filter.mp inOrders).1
    exact secured.executed execution inExecuted transfer needed
  have distinct : (((exchange.executed.map Execution.order).filter selected).filterMap services.reservation).Nodup :=
    reservations_distinct ((run_orders_apart consistent.run).filter selected)
  have held := held_sum secured.backed id _ distinct present
  rw [← sum_reserved] at held
  rw [cast] at each
  exact each.trans (by exact_mod_cast held)

-- The cost of a bid: its trades so far, each at the price of the order that was at rest, and
-- what is at rest of it at its limit.
def bidCost (exchange : Exchange) (order : Submission) : Int := exposure id exchange.executed exchange.store order

def offerShares (exchange : Exchange) (order : Submission) : Int :=
  exposure (fun _ => 1) exchange.executed exchange.store order

def bidsOf (exchange : Exchange) (accountId : Uuid) : List Submission :=
  (exchange.executed.map Execution.order).filter fun order => order.accountId = accountId ∧ order.book = .bids

def offersOf (exchange : Exchange) (accountId : Uuid) (assetId : Int32) : List Submission :=
  (exchange.executed.map Execution.order).filter fun order =>
    (order.accountId = accountId ∧ order.assetId = assetId) ∧ order.book = .offers

/-- However the steps of the requests interleave and whichever of them fail, every order
the script has executed is covered by its reservation. -/
theorem orders_backed (services : Services) (clock : Nat) (accounts : Accounts) (events : List ExchangeEvent)
    (exchange : Exchange) (run : ExchangeRun services clock accounts events exchange) (accountId : Uuid) :
    ((bidsOf exchange accountId).map (bidCost exchange)).sum ≤
        ((balancesAt exchange.accounts accountId).creditsPending : Int) ∧
      ∀ assetId, ((offersOf exchange accountId assetId).map (offerShares exchange)).sum ≤
        ((balancesAt exchange.accounts (services.newV5 accountId assetId)).creditsPending : Int) := by
  have consistent := run_consistent run
  obtain ⟨booked, secured⟩ := run_secured run
  refine ⟨?_, fun assetId => ?_⟩
  · apply exposed_held consistent secured
    intro execution member selected
    obtain ⟨rfl, book⟩ := of_decide_eq_true selected
    have bounded := run_exposure consistent.run id .bids (fun order table lots isBid queue lot queued => ?_) execution member book
    · exact bounded.trans (bid_reserved book)
    · -- A bid is matched with offers of at most its limit only.
      obtain ⟨_, _, side, inReach⟩ := (queue.mem lot.1 lot.2).mp queued
      rw [isBid] at side inReach
      exact (reach_price side _).mp inReach
  · apply exposed_held consistent secured
    intro execution member selected
    obtain ⟨⟨rfl, rfl⟩, book⟩ := of_decide_eq_true selected
    exact (run_exposure consistent.run (fun _ => 1) .offers (fun _ _ _ _ _ _ _ => Int.le_refl _) execution member book).trans
      (offer_reserved book)

def partlySold : List ExchangeEvent :=
  upToScript ⟨⟨1⟩, 1, .bids, ⟨10, .limit 3⟩, .nowV7 1 0⟩ ++ upToScript ⟨⟨2⟩, 1, .offers, ⟨4, .limit 3⟩, .nowV7 2 0⟩

theorem partly_sold_fires : (exchangeAfter localServices partlySold).isSome := by decide +kernel

def soldPartly : Exchange := (exchangeAfter localServices partlySold).get partly_sold_fires

theorem orders_backed_partly_sold :
    ((bidsOf soldPartly ⟨1⟩).map (bidCost soldPartly)).sum ≤ ((balancesAt soldPartly.accounts ⟨1⟩).creditsPending : Int) ∧
      ∀ assetId, ((offersOf soldPartly ⟨1⟩ assetId).map (offerShares soldPartly)).sum ≤
        ((balancesAt soldPartly.accounts (localServices.newV5 ⟨1⟩ assetId)).creditsPending : Int) :=
  orders_backed localServices 1 seededAccounts partlySold soldPartly (exchange_run_after partly_sold_fires) ⟨1⟩

end MktSim
