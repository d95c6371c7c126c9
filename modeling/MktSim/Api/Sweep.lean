import MktSim.Api.Completion
import MktSim.Api.Exchange
import MktSim.Lib.Bookkeeping

set_option autoImplicit false

namespace MktSim

open Redis SortedSets Greedy Runs DoubleEntry

section Through

variable {services : Services} {clock : Nat} {accounts next : Accounts} {events : List ExchangeEvent} {exchange : Exchange}

theorem goes_through (run : ExchangeRun services clock accounts events exchange) {order : Submission}
    (later : exchange.clock ≤ order.orderId.unixMillis) (own : order.accountId ≠ order.orderId)
    (apart : ∀ request ∈ exchange.requests, ApartFrom request.order order)
    (reserved : services.reserve ⟨.answered, .answered⟩ order exchange.accounts = (.ok (), next)) :
    ∃ requests, requests.map Request.order = exchange.requests.map Request.order ++ [order] ∧
      ExchangeRun services clock accounts (events ++ (upToScript order ++ [.answer order]))
        ⟨order.orderId.unixMillis, next, (execute services.lua order exchange.store).2, requests,
          exchange.executed ++ [executionOf services.lua order exchange.store]⟩ := by
  have waits : (⟨order, .received⟩ : Request) ∈ exchange.requests ++ [⟨order, .received⟩] := by simp
  have goesOn : (⟨order, .reserved⟩ : Request) ∈ setStage order .reserved (exchange.requests ++ [⟨order, .received⟩]) :=
    (set_stage_mem waits).1 rfl
  have done : (⟨order, .executed⟩ : Request) ∈
      setStage order .executed (setStage order .reserved (exchange.requests ++ [⟨order, .received⟩])) :=
    (set_stage_mem goesOn).1 rfl
  have receivable : Receivable { exchange with clock := order.orderId.unixMillis } order := ⟨rfl, own, apart⟩
  have stored := run_script_store services .answered order exchange.store Call.noConfusion
  refine ⟨setStage order .answered (setStage order .executed (setStage order .reserved
    (exchange.requests ++ [⟨order, .received⟩]))), by simp, run_steps run _ ?_⟩
  simp [upToScript, Exchange.step, later, receivable, waits, goesOn, done, reserved, stageReserved, stored]

end Through

-- User 1 has the shares and user 2 the money for all that follows.
def stockedAccounts : Accounts where
  accounts id := List.find? (fun account => account.form.id = id) [
    ⟨{ fundsAccount ADMIN_ACCOUNT_ID with creditsMustNotExceedDebits := false }, .zero⟩,
    ⟨fundsAccount ⟨2⟩, ⟨0, 2 ^ 64, 0, 0⟩⟩,
    ⟨{ localServices.assetAccount ADMIN_ACCOUNT_ID 1 with creditsMustNotExceedDebits := false }, .zero⟩,
    ⟨localServices.assetAccount ⟨1⟩ 1, ⟨0, 2 ^ 64, 0, 0⟩⟩]
  transfers := []

def stockedServices (lua : Lua) : Services := ⟨lua, localServices.newV5⟩

theorem reserve_through {services : Services} {order : Submission} {transfer : Transfer Uuid} {accounts next : Accounts}
    (opened : services.openAssetAccount .answered order accounts = (.ok (), accounts))
    (needed : services.reservation order = some transfer) (booked : createTransfer tigerBeetle transfer accounts = .ok next) :
    services.reserve ⟨.answered, .answered⟩ order accounts = (.ok (), next) := by
  simp [Services.reserve, opened, needed, bookTransfer, perform, booked]

section Stocked

variable {lua : Lua} {accounts : Accounts} {booked : Nat} (extended : Extended stockedAccounts accounts booked)

include extended

theorem stocked_transfer {transfer : Transfer Uuid} (named : tigerBeetle.reserved transfer.id = false)
    (some_ : transfer.amount ≠ 0) (coded : transfer.code = 1) (reserves : transfer.pending = true)
    (fresh : transfer.id ∉ accounts.transfers.map Transfer.id) (room : booked + transfer.amount ≤ 2 ^ 64)
    (parties : (transfer.debitAccountId = ADMIN_ACCOUNT_ID ∧ transfer.creditAccountId = ⟨2⟩ ∧ transfer.ledger = fundsLedger) ∨
      (transfer.debitAccountId = localServices.newV5 ADMIN_ACCOUNT_ID 1 ∧
        transfer.creditAccountId = localServices.newV5 ⟨1⟩ 1 ∧ transfer.ledger = 1)) :
    ∃ next, createTransfer tigerBeetle transfer accounts = .ok next ∧
      Extended stockedAccounts next (booked + transfer.amount) ∧
      next.transfers.map Transfer.id = transfer.id :: accounts.transfers.map Transfer.id := by
  have held : ∃ debit credit, stockedAccounts.accounts transfer.debitAccountId = some ⟨debit, .zero⟩ ∧
      stockedAccounts.accounts transfer.creditAccountId = some ⟨credit, ⟨0, 2 ^ 64, 0, 0⟩⟩ ∧
      debit.ledger = transfer.ledger ∧ credit.ledger = transfer.ledger := by
    rcases parties with ⟨debit, credit, ledger⟩ | ⟨debit, credit, ledger⟩ <;>
    · rw [debit, credit, ledger]
      exact ⟨_, _, rfl, rfl, rfl, rfl⟩
  have formed : malformed tigerBeetle transfer = none := by
    have open_ : tigerBeetle.reserved transfer.debitAccountId = false ∧ tigerBeetle.reserved transfer.creditAccountId = false ∧
        transfer.creditAccountId ≠ transfer.debitAccountId ∧ transfer.ledger ≠ 0 := by
      rcases parties with ⟨debit, credit, ledger⟩ | ⟨debit, credit, ledger⟩ <;>
      · rw [debit, credit, ledger]
        decide +kernel
    simp [malformed, named, open_, some_, coded]
  obtain ⟨debit, credit, debitFound, creditFound, debitLedger, creditLedger⟩ := held
  have accepted : ∃ next, createTransfer tigerBeetle transfer accounts = .ok next := by
    refine extended_accepts extended formed (fun side => ?_) fresh fun account found _ => ?_
    · cases side with
      | debit =>
          refine ⟨_, debitFound, debitLedger, ?_⟩
          simp only [zero_on, tigerBeetle]
          omega
      | credit =>
          refine ⟨_, creditFound, creditLedger, ?_⟩
          simp only [Balances.on, tigerBeetle]
          omega
    · obtain rfl := Option.some.inj (creditFound.symm.trans found)
      simp only
      omega
  obtain ⟨next, done⟩ := accepted
  refine ⟨next, done, extended_transfer extended reserves done, ?_⟩
  rw [booked_transfers done, List.map_cons]

theorem stocked_offer {order : Submission} (own : order.accountId = ⟨1⟩ ∧ order.assetId = 1 ∧ order.book = .offers)
    (some_ : order.size ≠ 0) (named : tigerBeetle.reserved order.orderId = false)
    (fresh : order.orderId ∉ accounts.transfers.map Transfer.id) (room : booked + order.size ≤ 2 ^ 64) :
    ∃ next, (stockedServices lua).reserve ⟨.answered, .answered⟩ order accounts = (.ok (), next) ∧
      Extended stockedAccounts next (booked + order.size) ∧
      next.transfers.map Transfer.id = order.orderId :: accounts.transfers.map Transfer.id := by
  obtain ⟨account, asset, book⟩ := own
  obtain ⟨seller, found, form⟩ := extended.there (localServices.newV5 ⟨1⟩ 1) _ rfl
  have opened : (stockedServices lua).openAssetAccount .answered order accounts = (.ok (), accounts) := by
    have there : accounts.accounts (localServices.assetAccount ⟨1⟩ 1).id = some seller := found
    have known : createAccount tigerBeetle (localServices.assetAccount ⟨1⟩ 1) accounts = .error .exists_ := by
      have unreserved : ¬ tigerBeetle.reserved (localServices.assetAccount ⟨1⟩ 1).id = true := by decide +kernel
      rw [createAccount, if_neg unreserved, if_neg (by decide), if_neg (by decide), there]
      exact if_pos form
    rw [Services.openAssetAccount, book, account, asset]
    change openAccount .answered (localServices.assetAccount ⟨1⟩ 1) accounts = _
    simp only [openAccount, perform, known]
  have needed := offer_reservation (stockedServices lua) book
  rw [account, asset] at needed
  let transfer : Transfer Uuid :=
    ⟨order.orderId, localServices.newV5 ADMIN_ACCOUNT_ID 1, localServices.newV5 ⟨1⟩ 1, order.size, 1, 1, true⟩
  obtain ⟨next, done, more, ids⟩ :=
    @stocked_transfer accounts booked extended transfer named some_ rfl rfl fresh room (.inr ⟨rfl, rfl, rfl⟩)
  exact ⟨next, reserve_through opened needed done, more, ids⟩

theorem stocked_bid {order : Submission} (own : order.accountId = ⟨2⟩ ∧ order.book = .bids ∧ order.form.orderType = .limit 1)
    (some_ : order.size ≠ 0) (named : tigerBeetle.reserved order.orderId = false)
    (fresh : order.orderId ∉ accounts.transfers.map Transfer.id) (room : booked + order.size ≤ 2 ^ 64) :
    ∃ next, (stockedServices lua).reserve ⟨.answered, .answered⟩ order accounts = (.ok (), next) := by
  obtain ⟨account, book, form⟩ := own
  have opened : (stockedServices lua).openAssetAccount .answered order accounts = (.ok (), accounts) := by
    rw [Services.openAssetAccount, book]
  have small := order.size_lt
  have amount : order.size * priceAsU128 1 % 2 ^ 128 = order.size := by
    have one : priceAsU128 1 = 1 := by decide
    rw [one, Nat.mul_one, Nat.mod_eq_of_lt (by omega)]
  let transfer : Transfer Uuid := ⟨order.orderId, ADMIN_ACCOUNT_ID, ⟨2⟩, order.size, fundsLedger, 1, true⟩
  have needed : (stockedServices lua).reservation order = some transfer := by
    simp only [Services.reservation, book, form, account, amount, transfer]
  obtain ⟨next, done, _⟩ :=
    @stocked_transfer accounts booked extended transfer named some_ rfl rfl fresh room (.inl ⟨rfl, rfl, rfl⟩)
  exact ⟨next, reserve_through opened needed done⟩

end Stocked

structure Placed (lua : Lua) (count : Nat) (events : List ExchangeEvent) (exchange : Exchange) : Prop where
  clock : exchange.clock = 0
  orders : ∀ order ∈ exchange.requests.map Request.order, ∃ index < count, order = smallOffer index
  answered : ∀ index < count, .answer (smallOffer index) ∈ events
  offers : ∃ table, Represents exchange.store table ∧ SmallOffers lua count exchange.executed table
  ledger : Extended stockedAccounts exchange.accounts count
  ids : ∀ id ∈ exchange.accounts.transfers.map Transfer.id, ∃ index < count, id = offerId index

theorem offer_id_free {index : Nat} (fits : index < 2 ^ 32) :
    (offerId index).unixMillis = 0 ∧ tigerBeetle.reserved (offerId index) = false := by
  have value := offer_id_value fits
  refine ⟨?_, ?_⟩
  · rw [Uuid.unixMillis, value]
    exact Nat.div_eq_of_lt (by omega)
  · simp only [tigerBeetle, value, Bool.or_eq_false_iff, decide_eq_false_iff_not]
    omega

theorem offer_id_ne {index other : Nat} (less : index < other) (fits : other < 2 ^ 32) : offerId index ≠ offerId other :=
  (small_offers_apart less fits).1.symm

theorem small_offer_placed {lua : Lua} {count : Nat} {events : List ExchangeEvent} {exchange : Exchange}
    (run : ExchangeRun (stockedServices lua) 0 stockedAccounts events exchange) (placed : Placed lua count events exchange)
    (fits : count < 2 ^ 32) :
    ∃ events exchange, ExchangeRun (stockedServices lua) 0 stockedAccounts events exchange ∧
      Placed lua (count + 1) events exchange := by
  obtain ⟨table, rep, offers⟩ := placed.offers
  obtain ⟨millis, named⟩ := offer_id_free fits
  have unknown : offerId count ∉ exchange.accounts.transfers.map Transfer.id := by
    intro member
    obtain ⟨index, less, same⟩ := placed.ids _ member
    exact offer_id_ne less fits same.symm
  have apart : ∀ request ∈ exchange.requests, ApartFrom request.order (smallOffer count) := by
    intro request member
    obtain ⟨index, less, same⟩ := placed.orders request.order (List.mem_map_of_mem member)
    rw [same]
    exact small_offers_apart less fits
  obtain ⟨next, reserved, ledger, ids⟩ := @stocked_offer lua _ _ placed.ledger (smallOffer count) ⟨rfl, rfl, rfl⟩
    Nat.one_ne_zero named unknown (by change count + 1 ≤ 2 ^ 64; omega)
  have inTime : exchange.clock ≤ (smallOffer count).orderId.unixMillis := by rw [placed.clock]; exact Nat.zero_le _
  obtain ⟨requests, orders, through⟩ := goes_through run inTime (offer_id_apart fits).1 apart reserved
  obtain ⟨lots, after, executed, _⟩ := step_executed rep offers.sound
    (⟨small_offer_fresh fits offers, rfl, rfl⟩ : ScriptStep lua exchange.executed exchange.store
      (executionOf lua (smallOffer count) exchange.store) _)
  refine ⟨_, _, through, millis, ?_, ?_, ⟨after, executed.after, small_offer_rests offers executed⟩, ledger, ?_⟩
  · intro order member
    rw [orders] at member
    cases List.mem_append.mp member with
    | inl old =>
        obtain ⟨index, less, same⟩ := placed.orders order old
        exact ⟨index, Nat.lt_succ_of_lt less, same⟩
    | inr new => exact ⟨count, Nat.lt_succ_self count, List.mem_singleton.mp new⟩
  · intro index less
    cases Nat.lt_succ_iff_lt_or_eq.mp less with
    | inl before => exact List.mem_append_left _ (placed.answered index before)
    | inr same =>
        rw [same]
        exact List.mem_append_right _ (List.mem_append_right _ (List.mem_singleton_self _))
  · intro id member
    rw [ids] at member
    cases List.mem_cons.mp member with
    | inl new => exact ⟨count, Nat.lt_succ_self count, new⟩
    | inr old =>
        obtain ⟨index, less, same⟩ := placed.ids id old
        exact ⟨index, Nat.lt_succ_of_lt less, same⟩

theorem small_offers_placed (lua : Lua) (count : Nat) (fits : count < 2 ^ 32) :
    ∃ events exchange, ExchangeRun (stockedServices lua) 0 stockedAccounts events exchange ∧
      Placed lua count events exchange := by
  induction count with
  | zero =>
      refine ⟨[], _, .start, rfl, fun _ member => absurd member List.not_mem_nil, fun _ less => absurd less (Nat.not_lt_zero _),
        ⟨emptyTable, empty_represents, ?_⟩, extended_refl _, fun _ member => absurd member List.not_mem_nil⟩
      exact no_small_offers lua
  | succ count ih =>
      obtain ⟨events, exchange, run, placed⟩ := ih (by omega)
      exact small_offer_placed run placed (by omega)

-- A later offer at the price of the small ones, and the bid that takes one share of it after
-- all of them.
def lateOffer : Submission := ⟨⟨1⟩, 1, .offers, ⟨4294967295, .limit 1⟩, .nowV7 1 0⟩

def lateSweep (count : Nat) : Submission := ⟨⟨2⟩, 1, .bids, ⟨.ofNat (count + 1), .limit 1⟩, .nowV7 2 0⟩

theorem late_sweep_size {count : Nat} (fits : count + 1 < 2 ^ 32) : (lateSweep count).size = count + 1 :=
  UInt32.toNat_ofNat_of_lt' fits

theorem offer_id_lt {index : Nat} (fits : index < 2 ^ 32) {later : Uuid} (millis : 0 < later.unixMillis) :
    offerId index < later := by
  apply uuid_lt_of_millis
  rw [(offer_id_free fits).1]
  exact millis

theorem offer_id_lt_late {index : Nat} (fits : index < 2 ^ 32) : offerId index < lateOffer.orderId :=
  offer_id_lt fits (by decide +kernel)

theorem offer_id_lt_sweep {index : Nat} (fits : index < 2 ^ 32) (count : Nat) : offerId index < (lateSweep count).orderId :=
  offer_id_lt fits (by decide +kernel : 0 < (Uuid.nowV7 2 0).unixMillis)

-- Of two orders at one price the queue holds the one with the smaller identifier first.
theorem level_completed {lua : Lua} {execution : Execution} {table next : Table} {lots : List Lot}
    (executed : Executed lua execution table lots next) {first second : Uuid} {a b : Resting} (there : table first = some a)
    (queued : (second, b) ∈ lots) (asset : a.assetId = b.assetId) (side : a.side = b.side) (price : a.price = b.price)
    (earlier : first < second) (touched : 0 < execution.order.taken lots (second, b)) :
    (first, a) ∈ (execution.order.fill lots).completed := by
  have score : a.score = b.score := by rw [Resting.score, Resting.score, side, price]
  obtain ⟨_, bAsset, bSide, inReach⟩ := (executed.queue.mem second b).mp queued
  have ahead : (first, a) ∈ lots := by
    refine (executed.queue.mem first a).mpr ⟨there, asset.trans bAsset, side.trans bSide, ?_⟩
    rw [score]
    exact inReach
  by_contra left
  cases touched_first executed.queue.ordered touched ahead left with
  | inl same => exact absurd (congrArg Prod.fst same) (ne_of_lt earlier)
  | inr behind =>
      cases (before_iff _ _).mp behind with
      | inl less => exact absurd score (ne_of_gt less)
      | inr tie => exact absurd tie.2 (not_lt_of_gt earlier)

section Late

variable {lua : Lua} {count : Nat} {history : List Execution} {small next : Table} {late : Resting} {store : Store}
  {lots : List Lot} (offers : SmallOffers lua count history small) (made : lateOffer.resting lateOffer.size 0 = some late)
  (fits : count + 1 < lateOffer.size)
  (executed : Executed lua (executionOf lua (lateSweep count) store) (Function.update small lateOffer.orderId (some late))
    lots next)

include offers made executed

theorem level_queued {orderId : Uuid} {resting : Resting}
    (there : Function.update small lateOffer.orderId (some late) orderId = some resting) :
    (orderId, resting) ∈ lots ∧ resting.assetId = 1 ∧ resting.side = .offers ∧ resting.price = 1 := by
  have level : resting.assetId = 1 ∧ resting.side = .offers ∧ resting.price = 1 := by
    by_cases same : orderId = lateOffer.orderId
    · rw [same, Function.update_self] at there
      obtain rfl := Option.some.inj there
      have rests := resting_made made
      exact ⟨rests.asset, rests.side, (OrderType.limit.inj rests.form).symm⟩
    · rw [Function.update_of_ne same] at there
      obtain ⟨asset, side, price, _⟩ := offers.only orderId resting there
      exact ⟨asset, side, price⟩
  obtain ⟨asset, side, price⟩ := level
  refine ⟨(executed.queue.mem orderId resting).mpr ⟨there, asset, side, ?_⟩, asset, side, price⟩
  rw [Resting.score, side, price]
  change reach .bids 1 (sideScore .offers 1) = true
  decide

omit made in
theorem small_total : total lotSize (lots.filter fun lot => lot.1 ≠ lateOffer.orderId) ≤ count := by
  have known : ∀ lot ∈ lots.filter fun lot => lot.1 ≠ lateOffer.orderId,
      lotSize lot = 1 ∧ lot.1 ∈ (List.range count).map offerId := by
    intro lot member
    obtain ⟨queued, away⟩ := List.mem_filter.mp member
    have there := queue_present executed.queue queued
    rw [Function.update_of_ne (of_decide_eq_true away)] at there
    obtain ⟨origin, done, same, _⟩ := offers.sound lot.1 lot.2 there
    obtain ⟨index, less, order⟩ := offers.orders origin done
    refine ⟨(offers.only lot.1 lot.2 there).2.2.2, List.mem_map.mpr ⟨index, List.mem_range.mpr less, ?_⟩⟩
    rw [← same, order]
    rfl
  have distinct : ((lots.filter fun lot => lot.1 ≠ lateOffer.orderId).map Prod.fst).Nodup :=
    (queue_ids_nodup executed.queue).sublist (List.filter_sublist.map Prod.fst)
  have within := List.subperm_of_subset distinct (fun orderId member => by
    obtain ⟨lot, inFilter, rfl⟩ := List.mem_map.mp member
    exact (known lot inFilter).2)
  have short := within.length_le
  have sizes : (lots.filter fun lot => lot.1 ≠ lateOffer.orderId).map lotSize =
      (lots.filter fun lot => lot.1 ≠ lateOffer.orderId).map fun _ => 1 :=
    List.map_congr_left fun lot member => (known lot member).1
  rw [total, sizes]
  simpa using short

include fits

theorem late_touched : (lateOffer.orderId, late) ∈ lots ∧ 0 < (lateSweep count).taken lots (lateOffer.orderId, late) := by
  have queued := (level_queued offers made executed (Function.update_self lateOffer.orderId (some late) small)).1
  have size := late_sweep_size (fits.trans lateOffer.size_lt)
  have total := small_total offers executed
  obtain ⟨lot, member, away, touched⟩ := touched_outside lotSize (lateSweep count).size (queue_nodup executed.queue)
    (fun lot => lot.1 ≠ lateOffer.orderId) (fun lot _ => lot.2.open_) (by omega) ⟨_, queued, by simp⟩
  have named : lot.1 = lateOffer.orderId := by simpa using away
  have there := queue_present executed.queue member
  rw [named, Function.update_self] at there
  have same : lot = (lateOffer.orderId, late) := Prod.ext named (Option.some.inj there).symm
  exact ⟨queued, same ▸ touched⟩

theorem small_used_up (many : count ≤ 2 ^ 32) :
    ∀ index < count, offerId index ∈ ((lateSweep count).fill lots).completed.map Prod.fst := by
  intro index less
  obtain ⟨queued, touched⟩ := late_touched offers made fits executed
  have smaller := offer_id_lt_late (Nat.lt_of_lt_of_le less many)
  obtain ⟨resting, there⟩ := offers.present index less
  have stays : Function.update small lateOffer.orderId (some late) (offerId index) = some resting := by
    rw [Function.update_of_ne (ne_of_lt smaller)]
    exact there
  obtain ⟨_, asset, side, price⟩ := level_queued offers made executed stays
  obtain ⟨_, lateAsset, lateSide, latePrice⟩ :=
    level_queued offers made executed (Function.update_self lateOffer.orderId (some late) small)
  have done := level_completed executed stays queued (asset.trans lateAsset.symm) (side.trans lateSide.symm)
    (price.trans latePrice.symm) smaller touched
  exact List.mem_map.mpr ⟨_, done, rfl⟩

theorem late_left : (lateOffer.orderId, late) ∉ ((lateSweep count).fill lots).completed := by
  intro done
  obtain ⟨queued, _⟩ := late_touched offers made fits executed
  have whole : (lateSweep count).taken lots (lateOffer.orderId, late) = late.size := taken_completed done
  have within : (lateSweep count).taken lots (lateOffer.orderId, late) ≤ (lateSweep count).size :=
    taken_le_demand lotSize (lateSweep count).size (queue_nodup executed.queue) queued
  have size : late.size = lateOffer.size := (resting_made made).size
  have demand := late_sweep_size (fits.trans lateOffer.size_lt)
  omega

-- The bid uses up every small offer, which is more than can be unpacked, and by then it has
-- taken from the late one.
theorem late_reached (long : lua.unpackLimit < count) (many : count ≤ 2 ^ 32) :
    ¬ (executionOf lua (lateSweep count) store).completes ∧
      0 < traded (executionOf lua (lateSweep count) store) lateOffer.orderId := by
  have longer := offers_counted many (small_used_up offers made fits executed many)
  rw [List.length_map] at longer
  have raised : ¬ (executionOf lua (lateSweep count) store).completes := by
    rw [completes_short executed]
    exact Nat.not_le.mpr (Nat.lt_of_lt_of_le long longer)
  refine ⟨raised, (raised_traded executed raised).mpr ?_⟩
  obtain ⟨_, touched⟩ := late_touched offers made fits executed
  have left := late_left offers made fits executed
  obtain ⟨quantity, partly⟩ := (touched_cases touched).resolve_left left
  refine ⟨late, quantity, partly, ?_⟩
  simpa [Submission.taken, Fill.taken, left, partly] using touched

end Late

structure LatePlaced (lua : Lua) (count : Nat) (exchange : Exchange) (placing : Execution) (small : Table) (late : Resting) :
    Prop where
  clock : exchange.clock = 1
  orders : ∀ order ∈ exchange.requests.map Request.order, order = lateOffer ∨ ∃ index < count, order = smallOffer index
  offers : ∃ history, exchange.executed = history ++ [placing] ∧ SmallOffers lua count history small
  made : lateOffer.resting lateOffer.size 0 = some late
  placed : Represents placing.after (Function.update small lateOffer.orderId (some late))
  store : exchange.store = placing.after
  sound : Sound exchange.executed (Function.update small lateOffer.orderId (some late))
  ledger : Extended stockedAccounts exchange.accounts (count + lateOffer.size)
  ids : ∀ id ∈ exchange.accounts.transfers.map Transfer.id, id = lateOffer.orderId ∨ ∃ index < count, id = offerId index

theorem late_offer_apart {index : Nat} (fits : index < 2 ^ 32) : ApartFrom (smallOffer index) lateOffer :=
  ⟨(ne_of_lt (offer_id_lt_late fits)).symm, (by decide : Uuid.nowV7 1 0 ≠ ⟨1⟩), (offer_id_apart fits).1⟩

theorem late_sweep_apart {count : Nat} : (∀ index < 2 ^ 32, ApartFrom (smallOffer index) (lateSweep count)) ∧
    ApartFrom lateOffer (lateSweep count) := by
  refine ⟨fun index fits => ⟨(ne_of_lt (offer_id_lt_sweep fits count)).symm, ?_, (offer_id_apart fits).2.1⟩, ?_, ?_, ?_⟩
  · exact (by decide : Uuid.nowV7 2 0 ≠ ⟨1⟩)
  · exact (by decide : Uuid.nowV7 2 0 ≠ .nowV7 1 0)
  · exact (by decide : Uuid.nowV7 2 0 ≠ ⟨1⟩)
  · exact (by decide : (⟨2⟩ : Uuid) ≠ .nowV7 1 0)

theorem late_offer_placed (lua : Lua) (count : Nat) (fits : count < 2 ^ 32) :
    ∃ events exchange placing small late,
      ExchangeRun (stockedServices lua) 0 stockedAccounts (events ++ (upToScript lateOffer ++ [.answer lateOffer])) exchange ∧
        (∀ index < count, .answer (smallOffer index) ∈ events) ∧ LatePlaced lua count exchange placing small late := by
  obtain ⟨events, exchange, run, placed⟩ := small_offers_placed lua count fits
  obtain ⟨small, rep, offers⟩ := placed.offers
  have unknown : lateOffer.orderId ∉ exchange.accounts.transfers.map Transfer.id := by
    intro member
    obtain ⟨index, less, same⟩ := placed.ids _ member
    exact absurd same (ne_of_lt (offer_id_lt_late (less.trans fits))).symm
  have apart : ∀ order ∈ exchange.requests.map Request.order, ApartFrom order lateOffer := by
    intro order member
    obtain ⟨index, less, same⟩ := placed.orders order member
    rw [same]
    exact late_offer_apart (less.trans fits)
  have fresh : FreshIn exchange.executed lateOffer := by
    refine ⟨by decide, fun earlier member => ?_⟩
    obtain ⟨index, less, same⟩ := offers.orders earlier member
    rw [same]
    exact late_offer_apart (less.trans fits)
  obtain ⟨next, reserved, ledger, ids⟩ := @stocked_offer lua _ _ placed.ledger lateOffer ⟨rfl, rfl, rfl⟩ (by decide)
    (by decide +kernel) unknown (by change count + 4294967295 ≤ 2 ^ 64; omega)
  have inTime : exchange.clock ≤ lateOffer.orderId.unixMillis := by rw [placed.clock]; exact Nat.zero_le _
  obtain ⟨requests, orders, through⟩ := goes_through run inTime (by decide)
    (fun request member => apart request.order (List.mem_map_of_mem member)) reserved
  obtain ⟨lots, after, executed, _⟩ := step_executed rep offers.sound
    (⟨fresh, rfl, rfl⟩ : ScriptStep lua exchange.executed exchange.store (executionOf lua lateOffer exchange.store) _)
  obtain ⟨_, added⟩ := offer_added (fun orderId resting there => (offers.only orderId resting there).2.1) rfl executed
  obtain ⟨late, made⟩ := @resting_exists lateOffer 1 rfl lateOffer.size (by decide) (Nat.le_refl _) 0
  rw [made] at added
  refine ⟨events, _, executionOf lua lateOffer exchange.store, small, late, through, placed.answered, ?_⟩
  refine ⟨(by decide +kernel : lateOffer.orderId.unixMillis = 1), fun order member => ?_, ⟨_, rfl, offers⟩, made,
    added ▸ executed.after, rfl, added ▸ execution_sound offers.sound executed, ledger, fun orderId member => ?_⟩
  · rw [orders] at member
    exact (List.mem_append.mp member).symm.imp List.mem_singleton.mp (placed.orders order)
  · rw [ids] at member
    exact (List.mem_cons.mp member).imp id (placed.ids orderId)

theorem late_sweep_executed {lua : Lua} {count : Nat} {events : List ExchangeEvent} {exchange : Exchange}
    {placing : Execution} {small : Table} {late : Resting}
    (run : ExchangeRun (stockedServices lua) 0 stockedAccounts events exchange)
    (placed : LatePlaced lua count exchange placing small late) (fits : count + 1 < 2 ^ 32) :
    ∃ later swept lots after, ExchangeRun (stockedServices lua) 0 stockedAccounts (events ++ later) swept ∧
      swept.executed = exchange.executed ++ [executionOf lua (lateSweep count) exchange.store] ∧
        Executed lua (executionOf lua (lateSweep count) exchange.store)
          (Function.update small lateOffer.orderId (some late)) lots after := by
  have apart : ∀ order ∈ exchange.requests.map Request.order, ApartFrom order (lateSweep count) := by
    intro order member
    cases placed.orders order member with
    | inl late =>
        rw [late]
        exact late_sweep_apart.2
    | inr small =>
        obtain ⟨index, less, same⟩ := small
        rw [same]
        exact late_sweep_apart.1 index (by omega)
  have fresh : FreshIn exchange.executed (lateSweep count) :=
    ⟨(by decide : (⟨2⟩ : Uuid) ≠ .nowV7 2 0), fun earlier member => apart _ (executed_requested (run_consistent run) member)⟩
  have unknown : (lateSweep count).orderId ∉ exchange.accounts.transfers.map Transfer.id := by
    intro member
    cases placed.ids _ member with
    | inl late => exact late_sweep_apart.2.1 late
    | inr small =>
        obtain ⟨index, less, same⟩ := small
        exact (late_sweep_apart.1 index (by omega)).1 same
  have size := late_sweep_size fits
  obtain ⟨next, reserved⟩ := @stocked_bid lua _ _ placed.ledger (lateSweep count) ⟨rfl, rfl, rfl⟩ (by omega)
    (by decide +kernel : tigerBeetle.reserved (.nowV7 2 0) = false) unknown (by
      rw [size]
      change count + 4294967295 + _ ≤ _
      omega)
  have inTime : exchange.clock ≤ (lateSweep count).orderId.unixMillis := by
    rw [placed.clock]
    exact (by decide +kernel : 1 ≤ (Uuid.nowV7 2 0).unixMillis)
  obtain ⟨requests, _, through⟩ := goes_through run inTime (by decide : (⟨2⟩ : Uuid) ≠ .nowV7 2 0)
    (fun request member => apart request.order (List.mem_map_of_mem member)) reserved
  obtain ⟨lots, after, executed, _⟩ := step_executed (placed.store ▸ placed.placed) placed.sound
    (⟨fresh, rfl, rfl⟩ : ScriptStep lua exchange.executed exchange.store (executionOf lua (lateSweep count) exchange.store) _)
  exact ⟨_, _, lots, after, through, rfl, executed⟩

-- A later offer is traded with while an earlier one at its price, of an earlier millisecond,
-- is at rest, whatever number of values can be unpacked.
theorem late_offer_swept (lua : Lua) (fits : lua.unpackLimit + 3 < 2 ^ 32) :
    ∃ events later exchange, ExchangeRun (stockedServices lua) 0 stockedAccounts
        (events ++ (upToScript lateOffer ++ [.answer lateOffer]) ++ later) exchange ∧
      .answer (smallOffer 0) ∈ events ∧
      (∃ execution ∈ exchange.executed, 0 < restingSize execution.after (offerId 0) ∧
        0 < restingSize execution.after lateOffer.orderId) ∧
      ∃ execution ∈ exchange.executed, 0 < traded execution lateOffer.orderId ∧
        restingSize execution.after (offerId 0) ≠ 0 := by
  obtain ⟨events, exchange, placing, small, late, run, answered, placed⟩ :=
    late_offer_placed lua (lua.unpackLimit + 1) (by omega)
  obtain ⟨later, swept, lots, after, through, all, executed⟩ := late_sweep_executed run placed (by omega)
  obtain ⟨history, earlier, offers⟩ := placed.offers
  obtain ⟨first, there⟩ := offers.present 0 (Nat.succ_pos _)
  have stays : Function.update small lateOffer.orderId (some late) (offerId 0) = some first := by
    rw [Function.update_of_ne (ne_of_lt (offer_id_lt_late (by decide)))]
    exact there
  obtain ⟨raised, trade⟩ := late_reached offers placed.made (by change lua.unpackLimit + 2 < 4294967295; omega) executed
    (Nat.lt_succ_self _) (by omega)
  refine ⟨events, later, swept, through, answered 0 (Nat.succ_pos _), ⟨placing, ?_, ?_, ?_⟩, _, ?_, trade,
    raised_left executed raised stays⟩
  · rw [all, earlier]
    simp
  · rw [resting_size_some placed.placed stays]
    exact first.open_
  · rw [resting_size_some placed.placed (Function.update_self lateOffer.orderId (some late) small)]
    exact late.open_
  · rw [all]
    exact List.mem_append_right _ (List.mem_singleton_self _)

end MktSim
