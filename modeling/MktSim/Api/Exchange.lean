import MktSim.Api.Handlers

set_option autoImplicit false

namespace MktSim

open Redis Runs DoubleEntry

inductive Stage where
  | received
  | reserved
  | executed
  | failed
  | answered
deriving DecidableEq, Repr

structure Request where
  order : Submission
  stage : Stage
deriving DecidableEq

-- Both stores and the requests under way, with the millisecond the clock shows and
-- every execution of the script so far.
structure Exchange where
  clock : Nat
  accounts : Accounts
  store : Store
  requests : List Request
  executed : List Execution

-- The milliseconds in the leading 48 bits of a version 7 identifier.
def Uuid.unixMillis (uuid : Uuid) : Nat := uuid.asU128.val / 2 ^ 80

theorem uuid_lt_of_millis {a b : Uuid} (earlier : a.unixMillis < b.unixMillis) : a < b := by
  change a.asU128 < b.asU128
  rw [Fin.lt_def]
  by_contra later
  exact absurd (Nat.div_le_div_right (Nat.le_of_not_lt later)) (Nat.not_le.mpr earlier)

inductive ExchangeEvent where
  | tick (millis : Nat)
  | receive (order : Submission)
  | reserve (order : Submission) (calls : ReserveCalls)
  | script (order : Submission) (call : Call)
  | answer (order : Submission)
  | register (call : Call) (accountId : Uuid)
  | depositOrWithdraw (call : Call) (transferId accountId : Uuid) (form : BalanceForm)
deriving DecidableEq

def setStage (order : Submission) (stage : Stage) (requests : List Request) : List Request :=
  requests.map fun request => if request.order = order then { request with stage := stage } else request

def stageReserved : Except Status Unit → Stage
  | .ok _ => .reserved
  | .error _ => .failed

def Receivable (exchange : Exchange) (order : Submission) : Prop :=
  order.orderId.unixMillis = exchange.clock ∧ order.accountId ≠ order.orderId ∧
    ∀ request ∈ exchange.requests, ApartFrom request.order order

instance (exchange : Exchange) (order : Submission) : Decidable (Receivable exchange order) :=
  inferInstanceAs (Decidable (_ ∧ _ ∧ _))

def Exchange.step (services : Services) (exchange : Exchange) : ExchangeEvent → Option Exchange
  | .tick millis => if exchange.clock ≤ millis then some { exchange with clock := millis } else none
  | .receive order =>
      if Receivable exchange order then some { exchange with requests := exchange.requests ++ [⟨order, .received⟩] }
      else none
  | .reserve order calls =>
      if ⟨order, .received⟩ ∈ exchange.requests then
        let reserved := services.reserve calls order exchange.accounts
        some { exchange with
          accounts := reserved.2
          requests := setStage order (stageReserved reserved.1) exchange.requests }
      else none
  | .script order call =>
      if ⟨order, .reserved⟩ ∈ exchange.requests then
        let answer := services.runScript call order exchange.store
        if call = .lost then
          some { exchange with store := answer.2, requests := setStage order .failed exchange.requests }
        else
          some { exchange with
            store := answer.2
            requests := setStage order .executed exchange.requests
            executed := exchange.executed ++ [executionOf services.lua order exchange.store] }
      else none
  | .answer order =>
      if ⟨order, .executed⟩ ∈ exchange.requests ∨ ⟨order, .failed⟩ ∈ exchange.requests then
        some { exchange with requests := setStage order .answered exchange.requests }
      else none
  | .register call accountId => some { exchange with accounts := (register call accountId exchange.accounts).2 }
  | .depositOrWithdraw call transferId accountId form =>
      some { exchange with accounts := (depositOrWithdraw call transferId accountId form exchange.accounts).2 }

inductive Stepped (services : Services) (before : Exchange) : ExchangeEvent → Exchange → Prop where
  | tick (millis : Nat) (later : before.clock ≤ millis) :
      Stepped services before (.tick millis) { before with clock := millis }
  | receive (order : Submission) (receivable : Receivable before order) :
      Stepped services before (.receive order)
        { before with requests := before.requests ++ [⟨order, .received⟩] }
  | reserve (order : Submission) (calls : ReserveCalls) (waiting : ⟨order, .received⟩ ∈ before.requests) :
      Stepped services before (.reserve order calls)
        { before with
          accounts := (services.reserve calls order before.accounts).2
          requests := setStage order (stageReserved (services.reserve calls order before.accounts).1) before.requests }
  | lost (order : Submission) (reserved : ⟨order, .reserved⟩ ∈ before.requests) :
      Stepped services before (.script order .lost)
        { before with requests := setStage order .failed before.requests }
  | script (order : Submission) (call : Call) (reserved : ⟨order, .reserved⟩ ∈ before.requests) (asked : call ≠ .lost) :
      Stepped services before (.script order call)
        { before with
          store := (execute services.lua order before.store).2
          requests := setStage order .executed before.requests
          executed := before.executed ++ [executionOf services.lua order before.store] }
  | answer (order : Submission)
      (ready : ⟨order, .executed⟩ ∈ before.requests ∨ ⟨order, .failed⟩ ∈ before.requests) :
      Stepped services before (.answer order)
        { before with requests := setStage order .answered before.requests }
  | register (call : Call) (accountId : Uuid) :
      Stepped services before (.register call accountId)
        { before with accounts := (register call accountId before.accounts).2 }
  | depositOrWithdraw (call : Call) (transferId accountId : Uuid) (form : BalanceForm) :
      Stepped services before (.depositOrWithdraw call transferId accountId form)
        { before with accounts := (depositOrWithdraw call transferId accountId form before.accounts).2 }

theorem step_cases {services : Services} {before after : Exchange} {event : ExchangeEvent}
    (fired : before.step services event = some after) : Stepped services before event after := by
  cases event with
  | tick millis =>
      by_cases later : before.clock ≤ millis
      · rw [Exchange.step, if_pos later] at fired
        obtain rfl := Option.some.inj fired
        exact .tick millis later
      · rw [Exchange.step, if_neg later] at fired
        cases fired
  | receive order =>
      by_cases receivable : Receivable before order
      · rw [Exchange.step, if_pos receivable] at fired
        obtain rfl := Option.some.inj fired
        exact .receive order receivable
      · rw [Exchange.step, if_neg receivable] at fired
        cases fired
  | reserve order calls =>
      by_cases waiting : ⟨order, .received⟩ ∈ before.requests
      · rw [Exchange.step, if_pos waiting] at fired
        obtain rfl := Option.some.inj fired
        exact .reserve order calls waiting
      · rw [Exchange.step, if_neg waiting] at fired
        cases fired
  | script order call =>
      by_cases reserved : ⟨order, .reserved⟩ ∈ before.requests
      · rw [Exchange.step, if_pos reserved] at fired
        by_cases lost : call = .lost
        · rw [if_pos lost] at fired
          obtain rfl := Option.some.inj fired
          subst lost
          exact .lost order reserved
        · rw [if_neg lost, run_script_store services call order before.store lost] at fired
          obtain rfl := Option.some.inj fired
          exact .script order call reserved lost
      · rw [Exchange.step, if_neg reserved] at fired
        cases fired
  | answer order =>
      by_cases ready : ⟨order, .executed⟩ ∈ before.requests ∨ ⟨order, .failed⟩ ∈ before.requests
      · rw [Exchange.step, if_pos ready] at fired
        obtain rfl := Option.some.inj fired
        exact .answer order ready
      · rw [Exchange.step, if_neg ready] at fired
        cases fired
  | register call accountId =>
      obtain rfl := Option.some.inj fired
      exact .register call accountId
  | depositOrWithdraw call transferId accountId form =>
      obtain rfl := Option.some.inj fired
      exact .depositOrWithdraw call transferId accountId form

-- TigerBeetle may hold anything when the order store is still empty.
def Exchange.start (clock : Nat) (accounts : Accounts) : Exchange := ⟨clock, accounts, emptyKeys, [], []⟩

def ExchangeRun (services : Services) (clock : Nat) (accounts : Accounts) : List ExchangeEvent → Exchange → Prop :=
  Trace (Exchange.start clock accounts) fun _ before event after => before.step services event = some after

@[simp] theorem set_stage_orders (order : Submission) (stage : Stage) (requests : List Request) :
    (setStage order stage requests).map Request.order = requests.map Request.order := by
  rw [setStage, List.map_map]
  apply List.map_congr_left
  intro request _
  by_cases same : request.order = order <;> simp [same]

def received : ExchangeEvent → List Submission
  | .receive order => [order]
  | _ => []

section Stepped

variable {services : Services} {before after : Exchange}

theorem orders_step {event : ExchangeEvent} (stepped : Stepped services before event after) :
    after.requests.map Request.order = before.requests.map Request.order ++ received event := by
  cases stepped <;> simp [received]

theorem clock_step {event : ExchangeEvent} (stepped : Stepped services before event after) :
    before.clock ≤ after.clock := by
  cases stepped with
  | tick millis later => exact later
  | _ => exact Nat.le_refl _

theorem received_receivable {event : ExchangeEvent} (stepped : Stepped services before event after) :
    ∀ order ∈ received event, Receivable before order := by
  cases stepped with
  | receive order receivable =>
      intro other same
      rw [List.mem_singleton.mp same]
      exact receivable
  | _ => exact fun _ none => absurd none List.not_mem_nil

theorem answered_known {order : Submission} (stepped : Stepped services before (.answer order) after) :
    order ∈ before.requests.map Request.order := by
  cases stepped with
  | answer _ ready =>
      cases ready with
      | inl executed => exact List.mem_map.mpr ⟨_, executed, rfl⟩
      | inr failed => exact List.mem_map.mpr ⟨_, failed, rfl⟩

end Stepped

theorem mem_set_stage {order : Submission} {stage : Stage} {requests : List Request} {request : Request}
    (member : request ∈ setStage order stage requests) :
    (request.order = order ∧ request.stage = stage) ∨ (request.order ≠ order ∧ request ∈ requests) := by
  obtain ⟨before, old, same⟩ := List.mem_map.mp member
  by_cases named : before.order = order
  · rw [if_pos named] at same
    subst same
    exact .inl ⟨named, rfl⟩
  · rw [if_neg named] at same
    subst same
    exact .inr ⟨named, old⟩

theorem set_stage_mem {order : Submission} {stage : Stage} {requests : List Request} {request : Request}
    (member : request ∈ requests) :
    (request.order = order → ⟨order, stage⟩ ∈ setStage order stage requests) ∧
      (request.order ≠ order → request ∈ setStage order stage requests) := by
  refine ⟨?_, ?_⟩
  · intro named
    refine List.mem_map.mpr ⟨request, member, ?_⟩
    rw [if_pos named, ← named]
  · intro other
    refine List.mem_map.mpr ⟨request, member, ?_⟩
    rw [if_neg other]

structure Consistent (services : Services) (exchange : Exchange) : Prop where
  run : Run services.lua exchange.executed exchange.store
  own : ∀ request ∈ exchange.requests, request.order.accountId ≠ request.order.orderId
  apart : (exchange.requests.map Request.order).Pairwise ApartFrom
  done : ∀ execution ∈ exchange.executed, ∃ request ∈ exchange.requests, request.order = execution.order ∧
    (request.stage = .executed ∨ request.stage = .answered)

section Requests

variable {services : Services} {exchange : Exchange} (consistent : Consistent services exchange)

include consistent

theorem requests_apart {a b : Submission} (inA : a ∈ exchange.requests.map Request.order)
    (inB : b ∈ exchange.requests.map Request.order) (different : a ≠ b) : ApartFrom a b :=
  consistent.apart.forall inA inB different

theorem order_of_id {a b : Submission} (inA : a ∈ exchange.requests.map Request.order)
    (inB : b ∈ exchange.requests.map Request.order) (same : a.orderId = b.orderId) : a = b := by
  by_contra different
  exact (requests_apart consistent inA inB different).1 same.symm

theorem request_unique {a b : Request} (inA : a ∈ exchange.requests) (inB : b ∈ exchange.requests)
    (same : a.order = b.order) : a = b := by
  have distinct : (exchange.requests.map Request.order).Nodup := by
    refine consistent.apart.imp ?_
    rintro order _ apart rfl
    exact apart.1 rfl
  exact List.inj_on_of_nodup_map distinct inA inB same

theorem executed_requested {execution : Execution} (member : execution ∈ exchange.executed) :
    execution.order ∈ exchange.requests.map Request.order := by
  obtain ⟨request, known, same, _⟩ := consistent.done execution member
  exact List.mem_map.mpr ⟨request, known, same⟩

theorem unexecuted {request : Request} (known : request ∈ exchange.requests)
    (pending : request.stage ≠ .executed ∧ request.stage ≠ .answered) :
    ∀ execution ∈ exchange.executed, execution.order ≠ request.order := by
  intro execution member same
  obtain ⟨done, inRequests, order, stage⟩ := consistent.done execution member
  have unique := request_unique consistent known inRequests (same.symm.trans order.symm)
  subst unique
  cases stage with
  | inl executed => exact pending.1 executed
  | inr answered => exact pending.2 answered

theorem reserved_fresh {order : Submission} (reserved : ⟨order, .reserved⟩ ∈ exchange.requests) :
    FreshIn exchange.executed order := by
  refine ⟨consistent.own _ reserved, fun execution member => ?_⟩
  have different := unexecuted consistent reserved ⟨Stage.noConfusion, Stage.noConfusion⟩ execution member
  have inOrders : order ∈ exchange.requests.map Request.order := List.mem_map.mpr ⟨_, reserved, rfl⟩
  have apart := requests_apart consistent (executed_requested consistent member) inOrders different
  exact ⟨apart.1, apart.2.1, apart.2.2⟩

end Requests

section Preserved

variable {services : Services} {before after : Exchange} {event : ExchangeEvent}
  (consistent : Consistent services before) (stepped : Stepped services before event after)

include consistent stepped

theorem own_step : ∀ request ∈ after.requests, request.order.accountId ≠ request.order.orderId := by
  intro request member
  have inOrders : request.order ∈ after.requests.map Request.order := List.mem_map_of_mem member
  rw [orders_step stepped] at inOrders
  cases List.mem_append.mp inOrders with
  | inl old =>
      obtain ⟨earlier, known, same⟩ := List.mem_map.mp old
      rw [← same]
      exact consistent.own earlier known
  | inr new => exact (received_receivable stepped _ new).2.1

theorem apart_step : (after.requests.map Request.order).Pairwise ApartFrom := by
  have single : (received event).Pairwise ApartFrom := by cases event <;> simp [received]
  rw [orders_step stepped, List.pairwise_append]
  refine ⟨consistent.apart, single, fun earlier inOrders new isNew => ?_⟩
  obtain ⟨request, member, rfl⟩ := List.mem_map.mp inOrders
  exact (received_receivable stepped new isNew).2.2 request member

theorem done_step : ∀ execution ∈ after.executed, ∃ request ∈ after.requests, request.order = execution.order ∧
    (request.stage = .executed ∨ request.stage = .answered) := by
  -- Changing the stage of a request that was not executed yet keeps what is known of the executed ones.
  have staged : ∀ (order : Submission) (stage : Stage), (∀ execution ∈ before.executed, execution.order = order →
      stage = .executed ∨ stage = .answered) → ∀ execution ∈ before.executed,
      ∃ request ∈ setStage order stage before.requests, request.order = execution.order ∧
        (request.stage = .executed ∨ request.stage = .answered) := by
    intro order stage kept execution member
    obtain ⟨request, known, same, old⟩ := consistent.done execution member
    by_cases named : request.order = order
    · exact ⟨⟨order, stage⟩, (set_stage_mem known).1 named, named.symm.trans same,
        kept execution member (same.symm.trans named)⟩
    · exact ⟨request, (set_stage_mem known).2 named, same, old⟩
  have pending : ∀ {request : Request} (stage : Stage), request ∈ before.requests →
      request.stage ≠ .executed ∧ request.stage ≠ .answered → ∀ execution ∈ before.executed,
        execution.order = request.order → stage = .executed ∨ stage = .answered :=
    fun _ known open_ execution member same => absurd same (unexecuted consistent known open_ execution member)
  cases stepped with
  | receive order receivable =>
      intro execution member
      obtain ⟨request, known, rest⟩ := consistent.done execution member
      exact ⟨request, List.mem_append_left _ known, rest⟩
  | reserve order calls waiting =>
      exact staged _ _ (pending _ waiting ⟨Stage.noConfusion, Stage.noConfusion⟩)
  | lost order reserved => exact staged _ _ (pending _ reserved ⟨Stage.noConfusion, Stage.noConfusion⟩)
  | script order call reserved asked =>
      intro execution member
      cases List.mem_append.mp member with
      | inl old => exact staged order .executed (fun _ _ _ => .inl rfl) execution old
      | inr new =>
          rw [List.mem_singleton.mp new]
          exact ⟨⟨order, .executed⟩, (set_stage_mem reserved).1 rfl, rfl, .inl rfl⟩
  | answer order ready => exact staged _ _ fun _ _ _ => .inr rfl
  | _ => exact consistent.done

theorem consistent_step : Consistent services after := by
  refine ⟨?_, own_step consistent stepped, apart_step consistent stepped, done_step consistent stepped⟩
  cases stepped with
  | script order call reserved asked => exact run_next consistent.run order (reserved_fresh consistent reserved)
  | _ => exact consistent.run

end Preserved

theorem run_consistent {services : Services} {clock : Nat} {accounts : Accounts} {events : List ExchangeEvent}
    {exchange : Exchange} (run : ExchangeRun services clock accounts events exchange) : Consistent services exchange := by
  refine trace_invariant (fun _ exchange => Consistent services exchange) ?_ ?_ run
  · exact ⟨.start, fun _ member => absurd member List.not_mem_nil, List.Pairwise.nil,
      fun _ member => absurd member List.not_mem_nil⟩
  · intro _ before event after _ consistent fired
    exact consistent_step consistent (step_cases fired)

-- A version 7 identifier of variant 1, with the last of its random bytes.
def Uuid.nowV7 (millis random : Nat) : Uuid := ⟨Fin.ofNat _ (millis * 2 ^ 80 + 7 * 2 ^ 76 + 2 ^ 63 + random)⟩

def upToScript (order : Submission) : List ExchangeEvent :=
  [.tick order.orderId.unixMillis, .receive order, .reserve order ⟨.answered, .answered⟩, .script order .answered]

def exchangeAfter (services : Services) (events : List ExchangeEvent) : Option Exchange :=
  events.foldlM (Exchange.step services) (.start 1 seededAccounts)

theorem exchange_run_after {services : Services} {events : List ExchangeEvent}
    (fires : (exchangeAfter services events).isSome) :
    ExchangeRun services 1 seededAccounts events ((exchangeAfter services events).get fires) :=
  run_steps .start events (Option.some_get fires).symm

end MktSim
