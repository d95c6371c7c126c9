import MktSim.Api.Handlers
import MktSim.Api.Views

set_option autoImplicit false

namespace MktSim

open Redis SortedSets Greedy Runs DoubleEntry

def candidates (store : Store) (order : Submission) : List (Int × Uuid) :=
  (zsetAt store (.book order.assetId order.book.opposite)).rangeByScore
    (lowest order.book order.price) (highest order.book order.price)

def NothingMatches (store : Store) (order : Submission) : Prop :=
  candidates store order = [] ∨ order.size = 0 ∧ ∀ entry ∈ candidates store order, 0 < restingSize store entry.2

def Booked (services : Services) (calls : ReserveCalls) (order : Submission) (accounts : Accounts)
    (transfer : Transfer Uuid) : Prop :=
  (services.openAssetAccount calls.createAccounts order accounts).1 = .ok () ∧ calls.createTransfers ≠ .lost ∧
    ∃ next, createTransfer tigerBeetle transfer (services.openAssetAccount calls.createAccounts order accounts).2 = .ok next

-- An order with a reservation is not to have it booked. A market bid has none, and is
-- to change nothing in the book.
def LeavesNoTrace (services : Services) (calls : ReserveCalls) (script : Call) (order : Submission)
    (accounts : Accounts) (store : Store) : Prop :=
  match services.reservation order with
  | some transfer => ¬ Booked services calls order accounts transfer
  | none => script = .lost ∨ NothingMatches store order

def Untouched (accounts : Accounts) (store : Store) (submitted : Submitted) : Prop :=
  (∀ id, balancesAt submitted.accounts id = balancesAt accounts id) ∧ submitted.store = store

section Ledger

variable {call : Call} {accounts : Accounts}

theorem open_asset_account_balances (services : Services) (call : Call) (order : Submission) (accounts : Accounts)
    (id : Uuid) :
    balancesAt (services.openAssetAccount call order accounts).2 id = balancesAt accounts id := by
  have same : balancesAt accounts id = balancesAt accounts id := rfl
  exact open_asset_account_keeps same services call order fun _ created => create_account_balances created id

theorem book_transfer_refused {status : Status} {transfer : Transfer Uuid}
    (refused : ¬ (call ≠ .lost ∧ ∃ next, createTransfer tigerBeetle transfer accounts = .ok next)) :
    bookTransfer call status transfer accounts = (.error status, accounts) := by
  cases created : createTransfer tigerBeetle transfer accounts with
  | ok next =>
      have lost : call = .lost := by
        by_contra asked
        exact refused ⟨asked, next, created⟩
      simp [bookTransfer, perform, lost]
  | error error => cases call <;> simp [bookTransfer, perform, created]

theorem book_transfer_booked {status : Status} {transfer : Transfer Uuid} {next : Accounts} (asked : call ≠ .lost)
    (created : createTransfer tigerBeetle transfer accounts = .ok next) :
    (bookTransfer call status transfer accounts).2 = next := by
  cases call with
  | answered => simp [bookTransfer, perform, created]
  | lost => exact absurd rfl asked
  | unanswered => simp [bookTransfer, perform, created]

end Ledger

section Reserve

variable {services : Services} {calls : ReserveCalls} {order : Submission} {accounts : Accounts}

theorem reserve_without (none : services.reservation order = none) :
    services.reserve calls order accounts = (.ok (), accounts) := by
  cases book : order.book with
  | bids => simp only [Services.reserve, Services.openAssetAccount, book, none]
  | offers => simp [Services.reservation, book] at none

theorem reserve_unbooked {transfer : Transfer Uuid} (some_ : services.reservation order = some transfer)
    (unbooked : ¬ Booked services calls order accounts transfer) :
    (∃ status, (services.reserve calls order accounts).1 = .error status) ∧
      ∀ id, balancesAt (services.reserve calls order accounts).2 id = balancesAt accounts id := by
  have balances := open_asset_account_balances services calls.createAccounts order accounts
  cases opening : services.openAssetAccount calls.createAccounts order accounts with
  | mk result opened =>
      rw [opening] at balances
      cases result with
      | error status =>
          simp only [Services.reserve, opening]
          exact ⟨⟨status, rfl⟩, balances⟩
      | ok _ =>
          have refused : ¬ (calls.createTransfers ≠ .lost ∧
              ∃ next, createTransfer tigerBeetle transfer opened = .ok next) := by
            intro accepted
            refine unbooked ⟨?_, accepted.1, ?_⟩
            · rw [opening]
            · rw [opening]
              exact accepted.2
          simp only [Services.reserve, opening, some_, book_transfer_refused refused]
          exact ⟨⟨_, rfl⟩, balances⟩

theorem reserve_booked {transfer : Transfer Uuid} (some_ : services.reservation order = some transfer)
    (booked : Booked services calls order accounts transfer) :
    balancesAt (services.reserve calls order accounts).2 transfer.creditAccountId ≠
      balancesAt accounts transfer.creditAccountId := by
  obtain ⟨opens, asked, next, created⟩ := booked
  have balances := open_asset_account_balances services calls.createAccounts order accounts
    transfer.creditAccountId
  cases opening : services.openAssetAccount calls.createAccounts order accounts with
  | mk result opened =>
      rw [opening] at opens balances created
      simp only at opens
      subst opens
      simp only [Services.reserve, opening, some_, book_transfer_booked asked created]
      rw [← balances]
      exact create_transfer_changes created

end Reserve

section Script

variable (lua : Lua) {order : Submission} {store : Store}

theorem hincrby_zero {key : Key} {value : Int} {fields : Hash Field Uuid} (held : hashAt store key = some fields)
    (stored : fields .size = some (.int value)) :
    hincrby key .size 0 store = .ok store ∨ ∃ error, hincrby key .size 0 store = .error error := by
  have same : writeHash store key (Function.update fields .size (some (.int (value + 0)))) = store := by
    have kept : Function.update fields .size (some (.int (value + 0))) = fields := by
      rw [add_zero, ← stored, Function.update_eq_self]
    rw [kept, writeHash, ← key_of_hash held, Function.update_eq_self]
  by_cases fits : (fitsInt64 value && fitsInt64 (value + 0)) = true
  · left
    simp only [hincrby, key_of_hash held, held, Option.getD_some, stored, if_pos fits, same]
  · right
    exact ⟨.overflow, by simp only [hincrby, key_of_hash held, held, Option.getD_some, stored, if_neg fits]⟩

theorem match_candidate_zero {orderId : Uuid} (positive : 0 < restingSize store orderId) (score : Int) :
    matchCandidate lua orderId score ⟨0, [], 0⟩ store = .ok ⟨0, [], 0⟩ store ∨
      ∃ error, matchCandidate lua orderId score ⟨0, [], 0⟩ store = .error error store := by
  cases held : hashAt store (.id orderId) with
  | none =>
      rw [restingSize, storedNumber, held] at positive
      exact absurd positive (Nat.lt_irrefl 0)
  | some fields =>
      have read : query (hget (.id orderId) .size) store = .ok (fields .size) store := query_ok (hget_of_hash .size held)
      rw [restingSize, storedNumber, held] at positive
      unfold matchCandidate
      rw [bind_ok read]
      cases stored : fields .size with
      | none =>
          right
          exact ⟨.compareNil, rfl⟩
      | some bulk =>
          cases bulk with
          | raw bytes =>
              right
              exact ⟨.compareNil, rfl⟩
          | int value =>
              have larger : value > 0 := by
                simp only [Option.bind_some, stored, tonumber, Option.getD_some] at positive
                omega
              simp only [tonumber, if_pos larger, neg_zero]
              cases hincrby_zero held stored with
              | inl done =>
                  left
                  rw [bind_ok (update_ok done)]
                  rfl
              | inr failed =>
                  obtain ⟨error, failed⟩ := failed
                  right
                  refine ⟨.command error, bind_error ?_⟩
                  simp only [update, failed]

theorem match_unmatched (nothing : NothingMatches store order) :
    (∃ size, matchCandidates lua (candidates store order) ⟨order.size, [], 0⟩ store = .ok ⟨size, [], 0⟩ store) ∨
      ∃ error, matchCandidates lua (candidates store order) ⟨order.size, [], 0⟩ store = .error error store := by
  cases found : candidates store order with
  | nil => exact .inl ⟨order.size, rfl⟩
  | cons entry rest =>
      cases nothing with
      | inl none =>
          rw [found] at none
          cases none
      | inr zero =>
          obtain ⟨empty, positive⟩ := zero
          rw [empty, Nat.cast_zero]
          cases match_candidate_zero lua (positive entry (by rw [found]; simp)) entry.1 with
          | inl done =>
              left
              refine ⟨0, ?_⟩
              rw [matchCandidates, bind_ok done]
              rfl
          | inr failed =>
              obtain ⟨error, failed⟩ := failed
              exact .inr ⟨error, by rw [matchCandidates, bind_error failed]⟩

theorem zrange_candidates (order : Submission) (store : Store) : (∃ error, query (zrangeByScore (.book order.assetId order.book.opposite)
      (lowest order.book order.price) (highest order.book order.price)) store = .error error store) ∨
    query (zrangeByScore (.book order.assetId order.book.opposite) (lowest order.book order.price)
      (highest order.book order.price)) store = .ok (candidates store order) store := by
  cases held : hashAt store (.book order.assetId order.book.opposite) with
  | none => exact .inr (query_ok (zrange_of_no_hash held _ _))
  | some fields =>
      left
      refine ⟨.command .wrongType, ?_⟩
      simp only [query, zrangeByScore, key_of_hash held]

theorem market_unmatched (market : order.form.orderType = .market) (nothing : NothingMatches store order) :
    (execute lua order store).2 = store := by
  obtain ⟨side, size, price⟩ := order.args_eq
  have type : order.args.orderType = .market := by
    simp [Submission.args, CreateOrderForm.writeRedisArgs, market]
  have run : (∃ reply, orderLua lua order.keys order.args store = .ok reply store) ∨
      ∃ error, orderLua lua order.keys order.args store = .error error store := by
    unfold orderLua
    simp only [side, size, price, select_eq]
    cases zrange_candidates order store with
    | inl failed =>
        obtain ⟨error, failed⟩ := failed
        exact .inr ⟨error, bind_error failed⟩
    | inr found =>
        rw [bind_ok found]
        cases match_unmatched lua nothing with
        | inl ended =>
            obtain ⟨left, ended⟩ := ended
            rw [bind_ok ended]
            simp only [collectCompleted, removeCompleted, insertRemainder, type]
            exact .inl ⟨_, rfl⟩
        | inr failed =>
            obtain ⟨error, failed⟩ := failed
            exact .inr ⟨error, bind_error failed⟩
  unfold execute
  cases run with
  | inl done =>
      obtain ⟨reply, done⟩ := done
      rw [done]
  | inr failed =>
      obtain ⟨error, failed⟩ := failed
      rw [failed]

section Unchanged

variable {lua : Lua} {table : Table} {lots : List Lot} (rep : Represents store table)
  (queue : Queue table order.assetId order.book.opposite (reach order.book order.price) lots)

include rep queue

theorem unchanged_takes_nothing (unused : table order.orderId = none)
    (same : Represents store (table.complete lua order (order.fill lots))) {lot : Lot} (queued : lot ∈ lots) :
    order.taken lots lot = 0 := by
  obtain ⟨makerId, maker⟩ := lot
  have there := queue_present queue queued
  have after := complete_maker lua queue unused there
  have before : restingSize store makerId = maker.size := resting_size_some rep there
  by_cases done : (makerId, maker) ∈ (order.fill lots).completed
  · rw [if_pos done] at after
    rw [resting_size_none same after] at before
    exact absurd before.symm (Nat.ne_of_gt maker.open_)
  · rw [if_neg done] at after
    have less := taken_lt_size done
    simp only at less
    rw [resting_size_some same after, reduce_size _ _ less] at before
    omega

theorem unchanged_completes_nothing (listed : ∀ orderId resting, table orderId = some resting → resting.listed = true)
    (same : Represents store (table.abandon (order.fill lots))) : (order.fill lots).completed = [] := by
  by_contra some_
  obtain ⟨done, completed⟩ := List.exists_mem_of_ne_nil _ some_
  have held := queue_present queue (completed_subset completed)
  have inSet : (0, done.1) ∈ zsetAt store (.id done.2.accountId) :=
    (rep.accounts _ _).mpr ⟨done.2, held, rfl, listed done.1 done.2 held, rfl⟩
  obtain ⟨kept, found, _, stillListed, _⟩ := (same.accounts _ _).mp inSet
  rw [abandon_maker queue held, if_pos completed] at found
  obtain rfl := Option.some.inj found
  cases stillListed

end Unchanged

theorem matched_changes {history : List Execution} (run : Run lua history store) (complete : Complete history)
    (fresh : FreshIn history order) (same : (execute lua order store).2 = store) : NothingMatches store order := by
  obtain ⟨table, rep, sound, listed⟩ := complete_listed run complete
  have keys := sound_fresh sound fresh
  obtain ⟨lots, queue, range⟩ := represents_queue rep order.assetId order.book.opposite
    (lowest order.book order.price) (highest order.book order.price)
  obtain ⟨next, effect, nextRep⟩ := execute_refines lua rep order keys queue range
  rw [same] at nextRep
  have found : candidates store order = lots.map lotEntry := range
  by_cases empty : order.size = 0
  · refine .inr ⟨empty, fun entry member => ?_⟩
    rw [found] at member
    obtain ⟨lot, queued, rfl⟩ := List.mem_map.mp member
    simp only [lotEntry, resting_size_some rep (queue_present queue queued)]
    exact lot.2.open_
  cases first : lots with
  | nil => exact .inl (by rw [found, first]; rfl)
  | cons lot rest =>
      exfalso
      generalize (execute lua order store).1 = outcome at effect
      cases effect with
      | complete =>
          have wanted : total lotSize (lots.filter fun _ => false) < order.size := by
            simpa using Nat.pos_of_ne_zero empty
          obtain ⟨maker, queued, _, touched⟩ := touched_outside lotSize order.size (queue_nodup queue) (fun _ => false)
            (fun lot _ => lot.2.open_) wanted ⟨lot, by simp [first], rfl⟩
          exact Nat.ne_of_gt touched (unchanged_takes_nothing rep queue keys.order nextRep queued)
      | abandon long =>
          rw [unchanged_completes_nothing rep queue listed nextRep] at long
          exact Nat.not_lt_zero _ long

end Script

section Submitted

variable {services : Services} {calls : ReserveCalls} {script : Call} {order : Submission} {accounts : Accounts}
  {store : Store}

theorem unbooked_untouched {transfer : Transfer Uuid} (needed : services.reservation order = some transfer)
    (unbooked : ¬ Booked services calls order accounts transfer) :
    Untouched accounts store (services.submitOrdersForAccount calls script order accounts store) := by
  obtain ⟨⟨status, refused⟩, balances⟩ := reserve_unbooked needed unbooked
  cases reserved : services.reserve calls order accounts with
  | mk result after =>
      rw [reserved] at refused balances
      simp only at refused
      subst refused
      simp only [Services.submitOrdersForAccount, reserved]
      exact ⟨balances, rfl⟩

theorem booked_touched {transfer : Transfer Uuid} (needed : services.reservation order = some transfer)
    (booked : Booked services calls order accounts transfer) :
    ¬ Untouched accounts store (services.submitOrdersForAccount calls script order accounts store) := by
  intro untouched
  apply reserve_booked needed booked
  have same := untouched.1 transfer.creditAccountId
  cases reserved : services.reserve calls order accounts with
  | mk result after => cases result <;> simpa only [Services.submitOrdersForAccount, reserved] using same

theorem market_of_unreserved (unneeded : services.reservation order = none) : order.form.orderType = .market := by
  cases book : order.book with
  | offers => simp [Services.reservation, book] at unneeded
  | bids =>
      cases form : order.form.orderType with
      | market => rfl
      | limit price => simp [Services.reservation, book, form] at unneeded

theorem unreserved_untouched (unneeded : services.reservation order = none) :
    Untouched accounts store (services.submitOrdersForAccount calls script order accounts store) ↔
      (services.runScript script order store).2 = store := by
  have after : (services.submitOrdersForAccount calls script order accounts store) =
      ⟨(services.runScript script order store).1, accounts, (services.runScript script order store).2⟩ := by
    simp only [Services.submitOrdersForAccount, reserve_without unneeded]
  rw [after]
  exact ⟨fun untouched => untouched.2, fun same => ⟨fun _ => rfl, same⟩⟩

end Submitted

/-- When a failed submission has left no trace. The condition is enough on any ledger and
any store, and needed on every store that complete executions of the script have left. -/
theorem failed_submission_untouched (services : Services) (calls : ReserveCalls) (script : Call) (order : Submission)
    (accounts : Accounts) (store : Store) (status : Status)
    (failed : (services.submitOrdersForAccount calls script order accounts store).result = .error status) :
    (LeavesNoTrace services calls script order accounts store →
      Untouched accounts store (services.submitOrdersForAccount calls script order accounts store)) ∧
    ∀ history, Run services.lua history store → Complete history → FreshIn history order →
      Untouched accounts store (services.submitOrdersForAccount calls script order accounts store) →
        LeavesNoTrace services calls script order accounts store := by
  rw [LeavesNoTrace]
  cases needed : services.reservation order with
  | some transfer =>
      exact ⟨unbooked_untouched needed, fun _ _ _ _ untouched booked => booked_touched needed booked untouched⟩
  | none =>
      rw [unreserved_untouched needed]
      by_cases lost : script = .lost
      · subst lost
        exact ⟨fun _ => rfl, fun _ _ _ _ _ => .inl rfl⟩
      · rw [run_script_store services script order store lost]
        refine ⟨fun quiet => ?_, fun history run complete fresh same => ?_⟩
        · exact market_unmatched services.lua (market_of_unreserved needed) (quiet.resolve_left lost)
        · exact .inr (matched_changes services.lua run complete fresh same)

def fundedBid : Submission := ⟨⟨1⟩, 1, .bids, ⟨10, .limit 3⟩, ⟨11⟩⟩

theorem failed_submission_untouched_refused :
    (LeavesNoTrace localServices ⟨.answered, .lost⟩ .answered fundedBid seededAccounts emptyKeys →
      Untouched seededAccounts emptyKeys
        (localServices.submitOrdersForAccount ⟨.answered, .lost⟩ .answered fundedBid seededAccounts emptyKeys)) ∧
    ∀ history, Run localServices.lua history emptyKeys → Complete history → FreshIn history fundedBid →
      Untouched seededAccounts emptyKeys
        (localServices.submitOrdersForAccount ⟨.answered, .lost⟩ .answered fundedBid seededAccounts emptyKeys) →
        LeavesNoTrace localServices ⟨.answered, .lost⟩ .answered fundedBid seededAccounts emptyKeys :=
  failed_submission_untouched localServices ⟨.answered, .lost⟩ .answered fundedBid seededAccounts emptyKeys
    .internalServerError rfl

-- The reservation is booked and the script call is lost: 30 stay pending.
theorem reservation_left_behind : ¬ ∀ (services : Services) (calls : ReserveCalls) (script : Call) (order : Submission)
    (accounts : Accounts) (store : Store) (status : Status),
    (services.submitOrdersForAccount calls script order accounts store).result = .error status →
      Untouched accounts store (services.submitOrdersForAccount calls script order accounts store) := by
  intro claimed
  have untouched := claimed localServices ⟨.answered, .answered⟩ .lost fundedBid seededAccounts emptyKeys
    .internalServerError (by decide)
  have same := untouched.1 ⟨1⟩
  revert same
  decide

end MktSim
