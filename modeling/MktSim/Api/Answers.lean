import MktSim.Api.Reservations
import MktSim.Lib.Bookkeeping

set_option autoImplicit false

namespace MktSim

open Redis Runs DoubleEntry

abbrev OrderAnswer := Except Status String

def answerText (numbers : Int32 × Int32) : String := toString numbers.1.toInt ++ ", " ++ toString numbers.2.toInt

-- A request's answer is settled by the last call it makes.
def Exchange.answers (services : Services) (exchange : Exchange) : ExchangeEvent → List (Submission × OrderAnswer)
  | .reserve order calls =>
      match (services.reserve calls order exchange.accounts).1 with
      | .error status => [(order, .error status)]
      | .ok () => []
  | .script order call => [(order, (services.runScript call order exchange.store).1.map answerText)]
  | .tick _ | .receive _ | .answer _ | .register _ _ | .depositOrWithdraw _ _ _ _ => []

def answersAlong (services : Services) : Exchange → List ExchangeEvent → List (Submission × OrderAnswer)
  | _, [] => []
  | exchange, event :: rest =>
      match exchange.step services event with
      | none => []
      | some next => exchange.answers services event ++ answersAlong services next rest

def answered (answers : List (Submission × OrderAnswer)) : List Submission := answers.map Prod.fst

@[simp] theorem answered_append (answers more : List (Submission × OrderAnswer)) :
    answered (answers ++ more) = answered answers ++ answered more := List.map_append

theorem answers_along_append {services : Services} {clock : Nat} {accounts : Accounts} {history : List ExchangeEvent}
    {exchange : Exchange} (run : ExchangeRun services clock accounts history exchange) (more : List ExchangeEvent) :
    answersAlong services (.start clock accounts) (history ++ more) =
      answersAlong services (.start clock accounts) history ++ answersAlong services exchange more := by
  induction run generalizing more with
  | start => rfl
  | next history before event after _ fired ih =>
      have last := ih [event]
      have whole := ih (event :: more)
      simp only [answersAlong, fired] at last whole
      rw [last, List.append_assoc, List.singleton_append, whole]
      simp

-- A request that no other comes between is the handler from its first line to its last.
theorem answers_alone (services : Services) {exchange : Exchange} {order : Submission}
    (waiting : ⟨order, .received⟩ ∈ exchange.requests) (calls : ReserveCalls) (script : Call) :
    answersAlong services exchange [.reserve order calls, .script order script] =
      [(order, (services.submitOrdersForAccount calls script order exchange.accounts exchange.store).result.map answerText)] := by
  simp only [answersAlong, Exchange.answers, Exchange.step, if_pos waiting, Services.submitOrdersForAccount]
  cases reserved : services.reserve calls order exchange.accounts with
  | mk outcome accounts =>
      cases outcome with
      | error status =>
          have failed : (⟨order, .reserved⟩ : Request) ∉ setStage order .failed exchange.requests := by
            intro member
            cases mem_set_stage member with
            | inl named => exact Stage.noConfusion named.2
            | inr other => exact other.1 rfl
          simp [stageReserved, failed]
          rfl
      | ok done =>
          have going : (⟨order, .reserved⟩ : Request) ∈ setStage order .reserved exchange.requests :=
            (set_stage_mem waiting).1 rfl
          by_cases lost : script = .lost
          · simp [stageReserved, going, lost]
          · simp [stageReserved, going, lost]

def Held (services : Services) (accounts : Accounts) (order : Submission) : Prop :=
  ∀ transfer, services.reservation order = some transfer →
    accounts.transfers.filter (fun other => other.id = order.orderId) = [transfer]

section Ledger

variable {services : Services} {order other : Submission} {accounts next : Accounts}

theorem held_account {form : AccountForm Uuid} (held : Held services accounts order)
    (created : createAccount tigerBeetle form accounts = .ok next) : Held services next order := by
  obtain ⟨_, rfl⟩ := create_account_cases created
  exact held

theorem held_transfer {transfer : Transfer Uuid} (held : Held services accounts order)
    (booked : createTransfer tigerBeetle transfer accounts = .ok next) : Held services next order := by
  intro reservation needed
  have kept := held reservation needed
  have member : reservation ∈ accounts.transfers.filter fun other => other.id = order.orderId := by simp [kept]
  obtain ⟨there, named⟩ := List.mem_filter.mp member
  have different : transfer.id ≠ order.orderId := by
    intro same
    refine (transfer_accepted booked).fresh (List.mem_map.mpr ⟨reservation, there, ?_⟩)
    rw [same]
    exact of_decide_eq_true named
  rw [booked_transfers booked, List.filter_cons_of_neg (by simpa using different), kept]

theorem reserve_held (calls : ReserveCalls) (held : Held services accounts other) :
    Held services (services.reserve calls order accounts).2 other :=
  reserve_keeps held services calls order (fun _ created => held_account held created)
    fun _ _ _ _ kept booked => held_transfer kept booked

theorem booked_held {transfer : Transfer Uuid} (needed : services.reservation order = some transfer)
    (booked : createTransfer tigerBeetle transfer accounts = .ok next) : Held services next order := by
  intro reservation also
  obtain rfl := Option.some.inj (needed.symm.trans also)
  have named := reservation_id needed
  have none_ : accounts.transfers.filter (fun other => other.id = order.orderId) = [] := by
    refine List.filter_eq_nil_iff.mpr fun earlier member same => ?_
    refine (transfer_accepted booked).fresh (List.mem_map.mpr ⟨earlier, member, ?_⟩)
    rw [named]
    exact of_decide_eq_true same
  rw [booked_transfers booked, List.filter_cons_of_pos (by simpa using named), none_]

theorem reserved_held {calls : ReserveCalls} (done : (services.reserve calls order accounts).1 = .ok ()) :
    Held services (services.reserve calls order accounts).2 order := by
  cases reserve_cases services calls order accounts with
  | inl opened =>
      intro transfer needed
      rw [opened.2 done] at needed
      cases needed
  | inr asked =>
      obtain ⟨transfer, needed, same⟩ := asked
      rw [same] at done ⊢
      rw [book_transfer_ledger]
      cases perform_cases calls.createTransfers (createTransfer tigerBeetle transfer)
          (services.openAssetAccount calls.createAccounts order accounts).2 with
      | inl kept =>
          obtain ⟨_, error, failed⟩ := kept
          rw [book_transfer_error failed] at done
          cases done
      | inr booked => exact booked_held needed booked

theorem open_account_status {call : Call} {form : AccountForm Uuid} {status : Status}
    (failed : (openAccount call form accounts).1 = .error status) : status = .internalServerError := by
  rw [openAccount] at failed
  split at failed
  · cases failed
  · cases failed
  · exact (Except.error.inj failed).symm

theorem book_transfer_status {call : Call} {expected status : Status} {transfer : Transfer Uuid}
    (failed : (bookTransfer call expected transfer accounts).1 = .error status) : status = expected := by
  rw [bookTransfer] at failed
  split at failed
  · cases failed
  · exact (Except.error.inj failed).symm

theorem reserve_status {calls : ReserveCalls} {status : Status}
    (failed : (services.reserve calls order accounts).1 = .error status) : status = .internalServerError := by
  cases opened : services.openAssetAccount calls.createAccounts order accounts with
  | mk outcome ledger =>
      simp only [Services.reserve, opened] at failed
      cases outcome with
      | error first =>
          obtain rfl := Except.error.inj failed
          cases book : order.book with
          | bids =>
              simp only [Services.openAssetAccount, book] at opened
              cases opened
          | offers =>
              simp only [Services.openAssetAccount, book] at opened
              exact open_account_status (congrArg Prod.fst opened)
      | ok done =>
          cases needed : services.reservation order with
          | none =>
              simp only [needed] at failed
              cases failed
          | some transfer =>
              simp only [needed] at failed
              exact book_transfer_status failed

theorem run_script_answer {call : Call} {store : Store} :
    (∀ numbers, (services.runScript call order store).1 = .ok numbers → call ≠ .lost ∧ ∃ reply,
      (execute services.lua order store).1 = .ok reply ∧
        numbers = (.ofInt reply.sharesFilled, .ofInt reply.dollarVolumeFilled)) ∧
    ∀ status, (services.runScript call order store).1 = .error status → status = .internalServerError := by
  cases call with
  | lost => simp [Services.runScript]
  | unanswered => simp [Services.runScript]
  | answered =>
      cases ran : execute services.lua order store with
      | mk outcome next =>
          cases outcome with
          | error error => simp [Services.runScript, ran]
          | ok reply =>
              simp only [Services.runScript, ran, decodeReply]
              cases reply.completedOrders.mapM fun entry =>
                (OrderBookEntry.fromRedisValue entry.2).map fun order => (entry.1, order) with
              | none => simp
              | some orders => simp

end Ledger

def TrueAnswer (exchange : Exchange) (order : Submission) : OrderAnswer → Prop
  | .ok text => ∃ execution ∈ exchange.executed, execution.order = order ∧ ∃ reply, execution.outcome = .ok reply ∧
      text = answerText (.ofInt reply.sharesFilled, .ofInt reply.dollarVolumeFilled)
  | .error status => status = .internalServerError

structure Truthful (services : Services) (exchange : Exchange) (answers : List (Submission × OrderAnswer)) : Prop where
  once : (answered answers).Nodup
  finished : ∀ request ∈ exchange.requests, request.stage = .answered → request.order ∈ answered answers
  given : ∀ entry ∈ answers, TrueAnswer exchange entry.1 entry.2
  executedOnce : (exchange.executed.map Execution.order).Nodup
  executed : ∀ execution ∈ exchange.executed, execution.order ∈ answered answers ∧
    Held services exchange.accounts execution.order

def Stage.settled : Stage → Bool
  | .received | .reserved => false
  | .executed | .failed | .answered => true

def AnswersSettled (requests : List Request) (answers : List (Submission × OrderAnswer)) : Prop :=
  ∀ request ∈ requests, request.order ∈ answered answers ↔ request.stage.settled = true

structure Told (services : Services) (exchange : Exchange) (answers : List (Submission × OrderAnswer)) : Prop where
  once : (answered answers).Nodup
  requested : ∀ order ∈ answered answers, order ∈ exchange.requests.map Request.order
  settled : AnswersSettled exchange.requests answers
  given : ∀ entry ∈ answers, TrueAnswer exchange entry.1 entry.2
  reserved : ∀ request ∈ exchange.requests, request.stage = .reserved → Held services exchange.accounts request.order
  executed : ∀ execution ∈ exchange.executed, Held services exchange.accounts execution.order

theorem settled_set {order : Submission} {stage : Stage} {requests : List Request} {answers more : List (Submission × OrderAnswer)}
    (settled : AnswersSettled requests answers) (own : order ∈ answered more ↔ stage.settled = true)
    (others : ∀ other, other ≠ order → (other ∈ answered more ↔ other ∈ answered answers)) :
    AnswersSettled (setStage order stage requests) more := by
  intro request member
  cases mem_set_stage member with
  | inl named =>
      rw [named.1, named.2]
      exact own
  | inr old =>
      rw [others request.order old.1]
      exact settled request old.2

theorem held_set {services : Services} {accounts : Accounts} {order : Submission} {stage : Stage} {requests : List Request}
    (reserved : ∀ request ∈ requests, request.stage = .reserved → Held services accounts request.order)
    (own : stage = .reserved → Held services accounts order) :
    ∀ request ∈ setStage order stage requests, request.stage = .reserved → Held services accounts request.order := by
  intro request member isReserved
  cases mem_set_stage member with
  | inl named =>
      rw [named.1]
      exact own (named.2.symm.trans isReserved)
  | inr old => exact reserved request old.2 isReserved

section Step

variable {services : Services} {before after : Exchange} {event : ExchangeEvent} {answers : List (Submission × OrderAnswer)}

theorem answered_later {order : Submission} {answer : OrderAnswer} (known : TrueAnswer before order answer)
    (more : before.executed ⊆ after.executed) : TrueAnswer after order answer := by
  cases answer with
  | error status => exact known
  | ok text =>
      obtain ⟨execution, member, rest⟩ := known
      exact ⟨execution, more member, rest⟩

theorem told_settled (told : Told services before answers) {order : Submission} {stage next : Stage} {answer : OrderAnswer}
    (waiting : ⟨order, stage⟩ ∈ before.requests) (open_ : stage.settled = false) (closed : next.settled = true)
    (requests : after.requests = setStage order next before.requests) (more : before.executed ⊆ after.executed)
    (answer_ : TrueAnswer after order answer)
    (held : ∀ request ∈ before.requests, request.stage = .reserved → Held services after.accounts request.order)
    (executed : ∀ execution ∈ after.executed, Held services after.accounts execution.order) :
    Told services after (answers ++ [(order, answer)]) := by
  have unanswered : order ∉ answered answers := by
    rw [told.settled _ waiting, open_]
    exact Bool.false_ne_true
  refine ⟨?_, ?_, ?_, ?_, ?_, executed⟩
  · rw [answered_append]
    exact List.nodup_append'.mpr ⟨told.once, List.nodup_singleton order, by simpa [answered] using unanswered⟩
  · rw [requests, set_stage_orders]
    intro other member
    rw [answered_append] at member
    cases List.mem_append.mp member with
    | inl old => exact told.requested other old
    | inr new =>
        rw [List.mem_singleton.mp new]
        exact List.mem_map.mpr ⟨_, waiting, rfl⟩
  · rw [requests]
    refine settled_set told.settled ?_ fun other different => ?_
    · simp [answered, closed]
    · simp [answered, different]
  · intro entry member
    cases List.mem_append.mp member with
    | inl old => exact answered_later (told.given entry old) more
    | inr new =>
        rw [List.mem_singleton.mp new]
        exact answer_
  · rw [requests]
    refine held_set held fun reserved => ?_
    rw [reserved] at closed
    cases closed

theorem told_accounts (told : Told services before answers) {next : Accounts}
    (kept : ∀ order, Held services before.accounts order → Held services next order) :
    Told services { before with accounts := next } answers :=
  ⟨told.once, told.requested, told.settled, told.given,
    fun request member isReserved => kept request.order (told.reserved request member isReserved),
    fun execution member => kept execution.order (told.executed execution member)⟩

theorem told_received (told : Told services before answers) {order : Submission} (receivable : Receivable before order) :
    Told services { before with requests := before.requests ++ [⟨order, .received⟩] } answers := by
  refine ⟨told.once, fun other member => ?_, fun request member => ?_, told.given, fun request member isReserved => ?_,
    told.executed⟩
  · rw [List.map_append]
    exact List.mem_append_left _ (told.requested other member)
  · cases List.mem_append.mp member with
    | inl old => exact told.settled request old
    | inr new =>
        rw [List.mem_singleton.mp new]
        refine iff_of_false (fun already => ?_) Bool.false_ne_true
        obtain ⟨request, known, same⟩ := List.mem_map.mp (told.requested order already)
        exact (receivable.2.2 request known).1 (congrArg Submission.orderId same.symm)
  · cases List.mem_append.mp member with
    | inl old => exact told.reserved request old isReserved
    | inr new =>
        rw [List.mem_singleton.mp new] at isReserved
        cases isReserved

theorem told_staged (told : Told services before answers) {order : Submission} {next : Stage}
    (own : order ∈ answered answers ↔ next.settled = true) (held : next = .reserved → Held services before.accounts order) :
    Told services { before with requests := setStage order next before.requests } answers := by
  refine ⟨told.once, ?_, settled_set told.settled own fun _ _ => Iff.rfl, told.given, held_set told.reserved held,
    told.executed⟩
  rw [set_stage_orders]
  exact told.requested

theorem told_step (told : Told services before answers)
    (stepped : Stepped services before event after) : Told services after (answers ++ before.answers services event) := by
  cases stepped with
  | tick millis later =>
      rw [Exchange.answers, List.append_nil]
      exact ⟨told.once, told.requested, told.settled, told.given, told.reserved, told.executed⟩
  | receive order receivable =>
      rw [Exchange.answers, List.append_nil]
      exact told_received told receivable
  | reserve order calls waiting =>
      have kept : Told services { before with accounts := (services.reserve calls order before.accounts).2 } answers :=
        told_accounts told fun _ held => reserve_held calls held
      cases outcome : (services.reserve calls order before.accounts).1 with
      | error status =>
          simp only [Exchange.answers, outcome]
          exact told_settled kept waiting rfl rfl rfl (List.Subset.refl _) (reserve_status outcome) kept.reserved kept.executed
      | ok done =>
          simp only [Exchange.answers, outcome, List.append_nil, stageReserved]
          have unanswered : order ∉ answered answers := by
            rw [told.settled _ waiting]
            exact Bool.false_ne_true
          exact told_staged kept (iff_of_false unanswered Bool.false_ne_true) fun _ => reserved_held outcome
  | lost order waiting =>
      exact told_settled told waiting rfl rfl rfl (List.Subset.refl _) rfl told.reserved told.executed
  | script order call waiting asked =>
      refine told_settled told waiting rfl rfl rfl (List.subset_append_left _ _) ?_ told.reserved fun execution member => ?_
      · cases outcome : (services.runScript call order before.store).1 with
        | error status => exact run_script_answer.2 status outcome
        | ok numbers =>
            obtain ⟨_, reply, ran, rfl⟩ := run_script_answer.1 numbers outcome
            exact ⟨executionOf services.lua order before.store, List.mem_append_right _ (List.mem_singleton_self _), rfl,
              reply, ran, rfl⟩
      · cases List.mem_append.mp member with
        | inl old => exact told.executed execution old
        | inr new =>
            rw [List.mem_singleton.mp new]
            exact told.reserved _ waiting rfl
  | answer order ready =>
      rw [Exchange.answers, List.append_nil]
      have known : order ∈ answered answers := by
        cases ready with
        | inl done => exact (told.settled _ done).mpr rfl
        | inr failed => exact (told.settled _ failed).mpr rfl
      exact told_staged told (iff_of_true known rfl) Stage.noConfusion
  | register call accountId =>
      rw [Exchange.answers, List.append_nil]
      exact told_accounts told fun order held => open_account_keeps held call fun _ created => held_account held created
  | depositOrWithdraw call transferId accountId form =>
      rw [Exchange.answers, List.append_nil]
      exact told_accounts told fun order held =>
        book_transfer_keeps held call .badRequest fun _ booked => held_transfer held booked

end Step

/-- However order requests overlap, lose calls and fail, each is answered at most once, with the
numbers of the one execution of its order or with a 500, and whatever was executed is answered
for and has the reservation it needs on the ledger, once. -/
theorem answers_truthful (services : Services) (clock : Nat) (accounts : Accounts) (history : List ExchangeEvent)
    (exchange : Exchange) (run : ExchangeRun services clock accounts history exchange) :
    Truthful services exchange (answersAlong services (.start clock accounts) history) := by
  have told : Told services exchange (answersAlong services (.start clock accounts) history) := by
    refine trace_invariant (fun history exchange => Told services exchange
      (answersAlong services (.start clock accounts) history)) ?_ ?_ run
    · exact ⟨List.nodup_nil, fun _ member => absurd member List.not_mem_nil, fun _ member => absurd member List.not_mem_nil,
        fun _ member => absurd member List.not_mem_nil, fun _ member => absurd member List.not_mem_nil,
        fun _ member => absurd member List.not_mem_nil⟩
    · intro earlier before event after earlierRun told fired
      have more := answers_along_append earlierRun [event]
      simp only [answersAlong, fired, List.append_nil] at more
      rw [more]
      exact told_step told (step_cases fired)
  have consistent := run_consistent run
  refine ⟨told.once, fun request member stage => ?_, told.given, ?_, fun execution member => ?_⟩
  · rw [told.settled request member, stage]
    rfl
  · refine (run_orders_apart consistent.run).imp ?_
    rintro order _ apart rfl
    exact apart.1 rfl
  · obtain ⟨request, known, same, stage⟩ := consistent.done execution member
    refine ⟨?_, told.executed execution member⟩
    rw [← same, told.settled request known]
    cases stage with
    | inl executed => rw [executed]; rfl
    | inr answered => rw [answered]; rfl

def firstBid : Submission := ⟨⟨1⟩, 1, .bids, ⟨10, .limit 3⟩, .nowV7 1 0⟩
def secondBid : Submission := ⟨⟨1⟩, 1, .bids, ⟨4, .limit 3⟩, .nowV7 1 1⟩

-- Two requests that overlap: the script of the later one runs first.
def overlapping : List ExchangeEvent :=
  [.tick 1, .receive firstBid, .receive secondBid, .reserve firstBid ⟨.answered, .answered⟩, .reserve secondBid ⟨.answered, .answered⟩,
    .script secondBid .answered, .script firstBid .unanswered, .answer firstBid]

theorem overlapping_fires : (exchangeAfter localServices overlapping).isSome := by decide +kernel

def overlapped : Exchange := (exchangeAfter localServices overlapping).get overlapping_fires

theorem answers_truthful_overlapping :
    Truthful localServices overlapped (answersAlong localServices (.start 1 seededAccounts) overlapping) :=
  answers_truthful localServices 1 seededAccounts overlapping overlapped (exchange_run_after overlapping_fires)

end MktSim
