import MktSim.Api.Handlers
import MktSim.Api.ReportedVolume
import MktSim.Api.Views

set_option autoImplicit false

namespace MktSim

open Redis SortedSets Greedy Runs

def FitsInt32 (value : Int) : Prop := -2 ^ 31 ≤ value ∧ value < 2 ^ 31

-- The script's sum over orders it uses up, which has the sign of their score.
def scoredValue (store : Store) (book : Book) (done : List Uuid) : Int :=
  match book with
  | .bids => (done.map (restingValue store)).sum
  | .offers => -(done.map (restingValue store)).sum

def ReplyFits (store : Store) (order : Submission) : Prop :=
  min order.size (total (restingSize store) (selectedOrders store order)) < 2 ^ 31 ∧
  ∀ done rest, selectedOrders store order = done ++ rest → StopsAfter (restingSize store) order.size done rest →
    FitsInt32 (scoredValue store order.book done)

def Unwrapped (result : Except Status (Int32 × Int32)) (sharesFilled dollarVolume : Int) : Prop :=
  ∃ reply, result = .ok reply ∧ reply.1.toInt = sharesFilled ∧ reply.2.toInt = dollarVolume

theorem fits_int32_iff (value : Int) : (Int32.ofInt value).toInt = value ↔ FitsInt32 value := by
  constructor
  · intro same
    rw [← same]
    exact ⟨Int32.le_toInt _, Int32.toInt_lt _⟩
  · intro fits
    exact Int32.toInt_ofInt_of_le fits.1 fits.2

theorem decode_completed_orders (outcome : Fill Lot) :
    (completedOrders outcome).mapM (fun entry => (OrderBookEntry.fromRedisValue entry.2).map fun order => (entry.1, order)) =
      some (outcome.completed.map fun lot => (lot.1, entryOf lot.2)) := by
  rw [completedOrders]
  induction outcome.completed with
  | nil => rfl
  | cons lot rest ih =>
      rw [List.map_cons, List.mapM_cons, decode_entry, ih]
      rfl

theorem decode_reply (sharesFilled dollarVolume : Int) (outcome : Fill Lot) :
    decodeReply ⟨sharesFilled, dollarVolume, completedOrders outcome⟩ =
      some (.ofInt sharesFilled, .ofInt dollarVolume, outcome.completed.map fun lot => (lot.1, entryOf lot.2)) := by
  simp only [decodeReply, decode_completed_orders]
  rfl

section Step

variable {unpackLimit : Nat} {execution : Execution} {table next : Table} {lots : List Lot}
  (executed : Executed (.exactIntegers unpackLimit) execution table lots next)

include executed

theorem filled_shares : (execution.order.size : Int) - (execution.order.fill lots).remaining =
    (min execution.order.size (total (restingSize execution.before) (selectedOrders execution.before execution.order)) : Nat) := by
  have sizes : total (restingSize execution.before) (selectedOrders execution.before execution.order) = total lotSize lots := by
    rw [selected_lots executed]
    exact lots_size executed lots fun lot member => member
  rw [sizes, fill_remaining]
  omega

theorem volume_scored : volume (.exactIntegers unpackLimit) 0 (execution.order.fill lots).completed =
    scoredValue execution.before execution.order.book ((execution.order.fill lots).completed.map Prod.fst) := by
  have within : ∀ lot ∈ (execution.order.fill lots).completed, lot ∈ lots := fun lot => completed_subset
  rw [volume_exact _ _ 0 (rounds_nothing_exact unpackLimit 0 _), amounts_value executed _ within, zero_add]
  have values := lots_value executed _ within
  cases execution.order.book with
  | bids => exact congrArg List.sum values.symm
  | offers => exact congrArg (fun values : List Int => -values.sum) values.symm

theorem reply_fits_iff : ReplyFits execution.before execution.order ↔
    FitsInt32 ((execution.order.size : Int) - (execution.order.fill lots).remaining) ∧
      FitsInt32 (volume (.exactIntegers unpackLimit) 0 (execution.order.fill lots).completed) := by
  obtain ⟨rest, selected, stops, _⟩ := executed_stops executed
  rw [filled_shares executed, volume_scored executed]
  constructor
  · intro fits
    obtain ⟨shares, value⟩ := fits
    exact ⟨⟨by omega, by omega⟩, value _ _ selected stops⟩
  · intro fits
    obtain ⟨shares, value⟩ := fits
    refine ⟨by have high := shares.2; omega, ?_⟩
    intro done others split stopsThere
    obtain ⟨rfl, _⟩ := stops_unique (selected.symm.trans split) stops stopsThere
    exact value

end Step

theorem submit_result {services : Services} {calls : ReserveCalls} {script : Call} {order : Submission}
    {accounts : Accounts} {store : Store} (reserved : (services.reserve calls order accounts).1 = .ok ()) :
    (services.submitOrdersForAccount calls script order accounts store).result = (services.runScript script order store).1 := by
  cases done : services.reserve calls order accounts with
  | mk result next =>
      rw [done] at reserved
      obtain rfl : result = .ok () := reserved
      rw [Services.submitOrdersForAccount, done]

theorem run_script_reply {services : Services} {order : Submission} {store : Store} {reply : Reply}
    (ok : (execute services.lua order store).1 = .ok reply)
    {orders : List (Uuid × OrderBookEntry)}
    (decoded : decodeReply reply = some (.ofInt reply.sharesFilled, .ofInt reply.dollarVolumeFilled, orders)) :
    (services.runScript .answered order store).1 = .ok (.ofInt reply.sharesFilled, .ofInt reply.dollarVolumeFilled) := by
  cases ran : execute services.lua order store with
  | mk outcome next =>
      rw [ran] at ok
      obtain rfl : outcome = .ok reply := ok
      simp only [Services.runScript, ran, decoded]

/-- The handler decodes both numbers as `i32`: they are the script's while they fit. -/
theorem reply_unwrapped_iff (unpackLimit : Nat) (newV5 : Uuid → Int32 → Uuid) (history : List Execution) (store : Store)
    (run : Run (.exactIntegers unpackLimit) history store) (order : Submission) (fresh : FreshIn history order)
    (calls : ReserveCalls) (accounts : Accounts)
    (reserved : (Services.reserve ⟨.exactIntegers unpackLimit, newV5⟩ calls order accounts).1 = .ok ())
    (reply : Reply) (ok : (execute (.exactIntegers unpackLimit) order store).1 = .ok reply) :
    Unwrapped (Services.submitOrdersForAccount ⟨.exactIntegers unpackLimit, newV5⟩ calls .answered order accounts store).result
        (takerTrades (fun _ => 1) (executionOf (.exactIntegers unpackLimit) order store)) reply.dollarVolumeFilled ↔
      ReplyFits store order := by
  obtain ⟨table, lots, next, executed⟩ := next_executed run fresh
  have whole : reply = ⟨(order.size : Int) - (order.fill lots).remaining,
      volume (.exactIntegers unpackLimit) 0 (order.fill lots).completed, completedOrders (order.fill lots)⟩ :=
    effect_reply executed ok
  have shares : takerTrades (fun _ => 1) (executionOf (.exactIntegers unpackLimit) order store) =
      (order.size : Int) - (order.fill lots).remaining := taker_trades_shares executed ⟨reply, ok⟩
  have fits : ReplyFits store order ↔ FitsInt32 ((order.size : Int) - (order.fill lots).remaining) ∧
      FitsInt32 (volume (.exactIntegers unpackLimit) 0 (order.fill lots).completed) := reply_fits_iff executed
  have answer := @submit_result ⟨.exactIntegers unpackLimit, newV5⟩ calls .answered order accounts store reserved
  subst whole
  rw [answer, run_script_reply ok (decode_reply _ _ _), shares, fits, ← fits_int32_iff, ← fits_int32_iff, Unwrapped]
  simp only [Except.ok.injEq, exists_eq_left']

def richAccounts : Accounts where
  accounts id := List.find? (fun account => account.form.id = id) [
    ⟨{ fundsAccount ADMIN_ACCOUNT_ID with creditsMustNotExceedDebits := false }, ⟨0, 0, 0, 1099511627776⟩⟩,
    ⟨fundsAccount ⟨2⟩, ⟨0, 1099511627776, 0, 0⟩⟩]
  transfers := []

def largeOffers : List Submission := [⟨⟨1⟩, 1, .offers, ⟨2147483648, .limit 1⟩, ⟨11⟩⟩]

def largeBid : Submission := ⟨⟨2⟩, 1, .bids, ⟨2147483648, .limit 1⟩, ⟨12⟩⟩

def storeWithLarge : Store := storeAfter (.exactIntegers 7999) emptyKeys largeOffers

theorem large_offer_run : Run (.exactIntegers 7999) (executions (.exactIntegers 7999) emptyKeys largeOffers) storeWithLarge :=
  executions_run _ largeOffers (by decide)

def largeReply : Reply := ⟨2147483648, 2147483648, [(⟨11⟩, (hashAt storeWithLarge (.id ⟨11⟩)).getD fun _ => none)]⟩

theorem reply_unwrapped_iff_large :
    Unwrapped (Services.submitOrdersForAccount ⟨.exactIntegers 7999, localServices.newV5⟩ ⟨.answered, .answered⟩ .answered
        largeBid richAccounts storeWithLarge).result
        (takerTrades (fun _ => 1) (executionOf (.exactIntegers 7999) largeBid storeWithLarge)) largeReply.dollarVolumeFilled ↔
      ReplyFits storeWithLarge largeBid :=
  reply_unwrapped_iff 7999 localServices.newV5 _ _ large_offer_run largeBid (by decide) ⟨.answered, .answered⟩ richAccounts
    rfl largeReply rfl

theorem large_reply_wrapped : ¬ ∀ (unpackLimit : Nat) (newV5 : Uuid → Int32 → Uuid) (history : List Execution) (store : Store),
    Run (.exactIntegers unpackLimit) history store → Complete history → ∀ order : Submission, FreshIn history order →
      ∀ (calls : ReserveCalls) (accounts : Accounts),
        (Services.reserve ⟨.exactIntegers unpackLimit, newV5⟩ calls order accounts).1 = .ok () →
        ∀ reply, (execute (.exactIntegers unpackLimit) order store).1 = .ok reply →
          Unwrapped
            (Services.submitOrdersForAccount ⟨.exactIntegers unpackLimit, newV5⟩ calls .answered order accounts store).result
            (takerTrades (fun _ => 1) (executionOf (.exactIntegers unpackLimit) order store)) reply.dollarVolumeFilled := by
  intro claimed
  obtain ⟨answer, result, shares, _⟩ := claimed 7999 localServices.newV5 _ _ large_offer_run (complete_of_outcomes (by decide))
    largeBid (by decide) ⟨.answered, .answered⟩ richAccounts rfl largeReply rfl
  have wrapped : (Services.submitOrdersForAccount ⟨.exactIntegers 7999, localServices.newV5⟩ ⟨.answered, .answered⟩ .answered
      largeBid richAccounts storeWithLarge).result = .ok (-2147483648, -2147483648) := rfl
  obtain rfl := Except.ok.inj (result.symm.trans wrapped)
  revert shares
  decide

end MktSim
