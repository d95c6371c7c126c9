import MktSim.Api.Sweep

set_option autoImplicit false

namespace MktSim

open Redis SortedSets Greedy Runs DoubleEntry

def AnsweredBefore (events : List ExchangeEvent) (a b : Submission) : Prop :=
  ∃ earlier between later, events = earlier ++ .answer a :: between ++ .receive b :: later

def SameLevel (a b : Submission) (price : Int32) : Prop :=
  a.assetId = b.assetId ∧ a.book = b.book ∧ a.form.orderType = .limit price ∧ b.form.orderType = .limit price

theorem level_in_turn {lua : Lua} {execution : Execution} {table next : Table} {lots : List Lot}
    (executed : Executed lua execution table lots next) (completes : execution.completes) {first second : Uuid}
    {a b : Resting} (there : table first = some a) (queued : (second, b) ∈ lots) (asset : a.assetId = b.assetId)
    (side : a.side = b.side) (price : a.price = b.price) (earlier : first < second)
    (trade : 0 < traded execution second) : restingSize execution.after first = 0 := by
  have touched : 0 < execution.order.taken lots (second, b) := by
    rwa [← traded_lot executed completes queued]
  rw [gone_completed executed completes there]
  exact level_completed executed there queued asset side price earlier touched

structure Recorded (events : List ExchangeEvent) (exchange : Exchange) : Prop where
  millis : ∀ order ∈ exchange.requests.map Request.order, order.orderId.unixMillis ≤ exchange.clock
  received : ∀ order, .receive order ∈ events → order ∈ exchange.requests.map Request.order
  answered : ∀ order, .answer order ∈ events → order ∈ exchange.requests.map Request.order

theorem recorded_step {services : Services} {events : List ExchangeEvent} {before after : Exchange}
    {event : ExchangeEvent} (recorded : Recorded events before) (stepped : Stepped services before event after) :
    Recorded (events ++ [event]) after := by
  have orders := orders_step stepped
  refine ⟨fun order member => ?_, fun order member => ?_, fun order member => ?_⟩
  · rw [orders] at member
    cases List.mem_append.mp member with
    | inl old => exact (recorded.millis order old).trans (clock_step stepped)
    | inr new => exact (le_of_eq (received_receivable stepped order new).1).trans (clock_step stepped)
  · rw [orders]
    cases List.mem_append.mp member with
    | inl old => exact List.mem_append_left _ (recorded.received order old)
    | inr new =>
        rw [← List.mem_singleton.mp new]
        exact List.mem_append_right _ (List.mem_singleton_self _)
  · rw [orders]
    apply List.mem_append_left
    cases List.mem_append.mp member with
    | inl old => exact recorded.answered order old
    | inr new =>
        rw [← List.mem_singleton.mp new] at stepped
        exact answered_known stepped

theorem run_recorded {services : Services} {clock : Nat} {accounts : Accounts} {events : List ExchangeEvent}
    {exchange : Exchange} (run : ExchangeRun services clock accounts events exchange) : Recorded events exchange := by
  refine trace_invariant Recorded ?_ ?_ run
  · exact ⟨fun _ member => absurd member List.not_mem_nil, fun _ member => absurd member List.not_mem_nil,
      fun _ member => absurd member List.not_mem_nil⟩
  · intro events before event after _ recorded fired
    exact recorded_step recorded (step_cases fired)

theorem answered_millis {services : Services} {clock : Nat} {accounts : Accounts} {events : List ExchangeEvent}
    {exchange : Exchange} (run : ExchangeRun services clock accounts events exchange) {a b : Submission}
    (order : AnsweredBefore events a b) : a.orderId.unixMillis ≤ b.orderId.unixMillis := by
  obtain ⟨earlier, between, later, rfl⟩ := order
  obtain ⟨state, next, before, fired, _⟩ := trace_split run
  have recorded := run_recorded before
  have known : a ∈ state.requests.map Request.order := recorded.answered a (by simp)
  have bound := recorded.millis a known
  cases step_cases fired with
  | receive _ receivable =>
      rw [receivable.1]
      exact bound

theorem executed_order {services : Services} {exchange : Exchange} (consistent : Consistent services exchange)
    {order : Submission} (known : order ∈ exchange.requests.map Request.order) {execution : Execution}
    (member : execution ∈ exchange.executed) (same : execution.order.orderId = order.orderId) : execution.order = order :=
  order_of_id consistent (executed_requested consistent member) known same

theorem submitted_known {services : Services} {exchange : Exchange} {table : Table} (consistent : Consistent services exchange)
    (sound : Sound exchange.executed table) {order : Submission} (known : order ∈ exchange.requests.map Request.order)
    {resting : Resting} (there : table order.orderId = some resting) : SubmittedBy order resting := by
  obtain ⟨origin, done, same, by_⟩ := sound order.orderId resting there
  rwa [executed_order consistent known done same] at by_

theorem rests_now {lua : Lua} {execution : Execution} {table next : Table} {lots : List Lot}
    (executed : Executed lua execution table lots next) {orderId : Uuid} (absent : table orderId = none)
    (rests : restingSize execution.after orderId ≠ 0) : execution.order.orderId = orderId := by
  cases after : next orderId with
  | none => exact absurd (resting_size_none executed.after after) rests
  | some held =>
      cases effect_origin executed.queue executed.fresh.order executed.effect after with
      | inl before =>
          obtain ⟨_, present, _⟩ := before
          rw [absent] at present
          cases present
      | inr new => exact new.1.symm

/-- Time priority, where identifiers chosen in one millisecond happen to be in the order of
their requests. -/
theorem level_time_priority (services : Services) (clock : Nat) (accounts : Accounts) (events : List ExchangeEvent)
    (exchange : Exchange) (run : ExchangeRun services clock accounts events exchange) (a b : Submission) (price : Int32)
    (answered : AnsweredBefore events a b) (level : SameLevel a b price)
    (inOrder : a.orderId.unixMillis = b.orderId.unixMillis → a.orderId < b.orderId) :
    ∀ execution ∈ exchange.executed, execution.completes → 0 < traded execution b.orderId →
      restingSize execution.after a.orderId = 0 := by
  intro execution member completes trade
  have consistent := run_consistent run
  have recorded := run_recorded run
  have earlier : a.orderId < b.orderId := by
    cases lt_or_eq_of_le (answered_millis run answered) with
    | inl before => exact uuid_lt_of_millis before
    | inr same => exact inOrder same
  obtain ⟨inA, inB⟩ : a ∈ exchange.requests.map Request.order ∧ b ∈ exchange.requests.map Request.order := by
    obtain ⟨before, between, later, rfl⟩ := answered
    exact ⟨recorded.answered a (by simp), recorded.received b (by simp)⟩
  obtain ⟨table, lots, next, executed, sound⟩ := run_executed_sound consistent.run member
  obtain ⟨rb, queued, _⟩ := trade_queued executed trade
  obtain ⟨_, bAsset, bSide, bForm, _⟩ := submitted_known consistent sound inB (queue_present executed.queue queued)
  cases there : table a.orderId with
  | some ra =>
      obtain ⟨_, aAsset, aSide, aForm, _⟩ := submitted_known consistent sound inA there
      obtain ⟨asset, book, aLimit, bLimit⟩ := level
      refine level_in_turn executed completes there queued (aAsset.trans (asset.trans bAsset.symm))
        (aSide.trans (book.trans bSide.symm)) ?_ earlier trade
      rw [aLimit] at aForm
      rw [bLimit] at bForm
      exact (OrderType.limit.inj aForm).symm.trans (OrderType.limit.inj bForm)
  | none =>
      -- An order that only comes to rest now is on the other side of the trade.
      by_contra rests
      have incoming : execution.order = a := executed_order consistent inA member (rests_now executed there rests)
      have opposite := ((executed.queue.mem b.orderId rb).mp queued).2.2.1
      rw [incoming, bSide, level.2.1] at opposite
      cases side : b.book <;> rw [side] at opposite <;> cases opposite

def levelBid (orderId : Uuid) : Submission := ⟨⟨1⟩, 1, .bids, ⟨10, .limit 3⟩, orderId⟩

def levelOffer (size : UInt32) (orderId : Uuid) : Submission := ⟨⟨2⟩, 1, .offers, ⟨size, .limit 3⟩, orderId⟩

def oneByOne (a b c : Submission) : List ExchangeEvent :=
  upToScript a ++ .answer a :: (upToScript b ++ .answer b :: upToScript c)

theorem one_by_one_answered (a b c : Submission) : AnsweredBefore (oneByOne a b c) a b :=
  ⟨upToScript a, [.tick b.orderId.unixMillis], [.reserve b ⟨.answered, .answered⟩, .script b .answered, .answer b] ++
    upToScript c, by simp [oneByOne, upToScript]⟩

def inMillisOrder : List ExchangeEvent :=
  oneByOne (levelBid (.nowV7 1 2)) (levelBid (.nowV7 2 1)) (levelOffer 15 (.nowV7 3 0))

theorem in_millis_order_fires : (exchangeAfter localServices inMillisOrder).isSome := by decide +kernel

def soldInTurn : Exchange := (exchangeAfter localServices inMillisOrder).get in_millis_order_fires

theorem level_time_priority_apart :
    (soldInTurn.executed.any fun execution => execution.outcome.toBool ∧ 0 < traded execution (.nowV7 2 1)) ∧
      ∀ execution ∈ soldInTurn.executed, execution.completes → 0 < traded execution (.nowV7 2 1) →
        restingSize execution.after (.nowV7 1 2) = 0 :=
  ⟨by decide +kernel, level_time_priority localServices 1 seededAccounts inMillisOrder soldInTurn (exchange_run_after _)
    (levelBid (.nowV7 1 2)) (levelBid (.nowV7 2 1)) 3 (one_by_one_answered _ _ _) ⟨rfl, rfl, rfl, rfl⟩
    fun same => absurd same (by decide)⟩

def CameToRest (exchange : Exchange) (order : Submission) : Prop :=
  ∃ execution ∈ exchange.executed, 0 < restingSize execution.after order.orderId

def TradesInTurn (exchange : Exchange) (a b : Submission) : Prop :=
  ∀ execution ∈ exchange.executed, 0 < traded execution b.orderId → restingSize execution.after a.orderId = 0

instance (exchange : Exchange) (order : Submission) : Decidable (CameToRest exchange order) :=
  inferInstanceAs (Decidable (∃ execution ∈ exchange.executed, _))

instance (exchange : Exchange) (a b : Submission) : Decidable (TradesInTurn exchange a b) :=
  inferInstanceAs (Decidable (∀ execution ∈ exchange.executed, _))

def inOneMilli : List ExchangeEvent :=
  oneByOne (levelBid (.nowV7 1 2)) (levelBid (.nowV7 1 1)) (levelOffer 10 (.nowV7 1 3))

theorem in_one_milli_fires : (exchangeAfter localServices inOneMilli).isSome := by decide +kernel

-- In one millisecond the later order can have the smaller identifier. In different ones a
-- script that raises has taken from the later order and left the earlier one, whatever number
-- of values can be unpacked.
theorem later_order_first :
    (¬ ∀ (services : Services) (clock : Nat) (accounts : Accounts) (events : List ExchangeEvent) (exchange : Exchange),
      ExchangeRun services clock accounts events exchange → ∀ (a b : Submission) (price : Int32),
        AnsweredBefore events a b → SameLevel a b price → CameToRest exchange a → CameToRest exchange b →
          TradesInTurn exchange a b) ∧
    ∀ lua : Lua, lua.unpackLimit + 3 < 2 ^ 32 →
      ¬ ∀ (services : Services) (clock : Nat) (accounts : Accounts) (events : List ExchangeEvent) (exchange : Exchange),
        services.lua = lua → ExchangeRun services clock accounts events exchange → ∀ (a b : Submission) (price : Int32),
          AnsweredBefore events a b → SameLevel a b price → CameToRest exchange a → CameToRest exchange b →
            a.orderId.unixMillis ≠ b.orderId.unixMillis → TradesInTurn exchange a b := by
  refine ⟨fun claimed => ?_, fun lua fits claimed => ?_⟩
  · have inTurn := claimed localServices 1 seededAccounts inOneMilli _ (exchange_run_after in_one_milli_fires)
      (levelBid (.nowV7 1 2)) (levelBid (.nowV7 1 1)) 3 (one_by_one_answered _ _ _) ⟨rfl, rfl, rfl, rfl⟩
      (by decide +kernel) (by decide +kernel)
    revert inTurn
    decide +kernel
  · obtain ⟨events, later, exchange, run, answered, rest, execution, member, trade, left⟩ := late_offer_swept lua fits
    obtain ⟨both, restMember, first, second⟩ := rest
    obtain ⟨before, between, rfl⟩ := List.append_of_mem answered
    have order : AnsweredBefore (before ++ .answer (smallOffer 0) :: between ++ (upToScript lateOffer ++ [.answer lateOffer]) ++
        later) (smallOffer 0) lateOffer :=
      ⟨before, between ++ [.tick lateOffer.orderId.unixMillis], [.reserve lateOffer ⟨.answered, .answered⟩,
        .script lateOffer .answered, .answer lateOffer] ++ later, by simp [upToScript]⟩
    have inTurn := claimed (stockedServices lua) 0 stockedAccounts _ exchange rfl run (smallOffer 0) lateOffer 1 order
      ⟨rfl, rfl, rfl, rfl⟩ ⟨both, restMember, first⟩ ⟨both, restMember, second⟩ (by decide +kernel)
    exact left (inTurn execution member trade)

end MktSim
