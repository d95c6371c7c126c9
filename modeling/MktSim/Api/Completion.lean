import MktSim.Api.DollarVolume

set_option autoImplicit false

namespace MktSim

open Redis SortedSets Greedy Runs

-- No more orders are used up than the interpreter can unpack: those are the first
-- selected ones whose sizes the incoming size covers.
def UnpacksAll (lua : Lua) (store : Store) (order : Submission) : Prop :=
  ∀ used, used <+: selectedOrders store order → (used.map (restingSize store)).sum ≤ order.size →
    used.length ≤ lua.unpackLimit

theorem next_executed {lua : Lua} {history : List Execution} {store : Store} (run : Run lua history store)
    {order : Submission} (fresh : FreshIn history order) :
    ∃ table lots next, Executed lua (executionOf lua order store) table lots next := by
  obtain ⟨table, rep, sound⟩ := run_represents run
  have step : ScriptStep lua history store (executionOf lua order store) (execute lua order store).2 := ⟨fresh, rfl, rfl⟩
  obtain ⟨lots, next, executed, _⟩ := step_executed rep sound step
  exact ⟨table, lots, next, executed⟩

variable {lua : Lua} {execution : Execution} {table next : Table} {lots : List Lot}
  (executed : Executed lua execution table lots next)

include executed

theorem completes_short : execution.completes ↔ (execution.order.fill lots).completed.length ≤ lua.unpackLimit := by
  have effect := executed.effect
  generalize outcome : execution.outcome = result at effect
  cases effect with
  | complete short => exact ⟨fun _ => short, fun _ => ⟨_, outcome⟩⟩
  | abandon long =>
      refine ⟨fun completes => ?_, fun short => absurd long (Nat.not_lt.mpr short)⟩
      obtain ⟨reply, ok⟩ := completes
      rw [outcome] at ok
      cases ok

-- An execution raises exactly when it uses up more orders than can be unpacked.
theorem completes_iff : execution.completes ↔ UnpacksAll lua execution.before execution.order := by
  rw [completes_short executed]
  refine ⟨fun short used first covered => ?_, fun unpacks => ?_⟩
  · rw [selected_lots executed, List.prefix_iff_eq_take, ← List.map_take] at first
    rw [first, lots_size executed _ fun lot member => List.mem_of_mem_take member] at covered
    have longest := covered_completed (fun lot _ => lot.2.open_) (List.take_prefix used.length lots) covered
    rw [first, List.length_map]
    exact longest.trans short
  · obtain ⟨rest, split, _⟩ := completed_prefix lotSize execution.order.size lots
    have whole := fill_sum lotSize execution.order.size lots
    have used := unpacks ((execution.order.fill lots).completed.map Prod.fst) ?_ ?_
    · simpa using used
    · rw [selected_lots executed]
      exact List.IsPrefix.map Prod.fst ⟨rest, split.symm⟩
    · have within : ∀ lot ∈ (execution.order.fill lots).completed, lot ∈ lots := fun lot => completed_subset
      rw [lots_size executed _ within, Submission.fill]
      omega

section Raised

variable (raised : ¬ execution.completes)

include raised

theorem raised_abandons : next = table.abandon (execution.order.fill lots) := by
  have effect := executed.effect
  generalize outcome : execution.outcome = result at effect
  cases effect with
  | complete => exact absurd ⟨_, outcome⟩ raised
  | abandon => rfl

theorem raised_size {orderId : Uuid} {resting : Resting} (there : table orderId = some resting) :
    restingSize execution.after orderId = if (orderId, resting) ∈ (execution.order.fill lots).completed then resting.size
      else resting.size - execution.order.taken lots (orderId, resting) := by
  have left := @abandon_maker execution.order _ _ _ _ _ executed.queue _ _ there
  rw [← raised_abandons executed raised] at left
  by_cases done : (orderId, resting) ∈ (execution.order.fill lots).completed
  · rw [if_pos done] at left ⊢
    rw [resting_size_some executed.after left]
    rfl
  · rw [if_neg done] at left ⊢
    rw [resting_size_some executed.after left, reduce_size resting _ (taken_lt_size done)]

theorem raised_left {orderId : Uuid} {resting : Resting} (there : table orderId = some resting) :
    restingSize execution.after orderId ≠ 0 := by
  have positive := resting.open_
  rw [raised_size executed raised there]
  by_cases done : (orderId, resting) ∈ (execution.order.fill lots).completed
  · rw [if_pos done]
    omega
  · have less := taken_lt_size done
    rw [if_neg done]
    simp only at less
    omega

theorem raised_traded {orderId : Uuid} : 0 < traded execution orderId ↔
    ∃ resting quantity, (execution.order.fill lots).reduced = some ((orderId, resting), quantity) ∧ 0 < quantity := by
  constructor
  · intro trade
    obtain ⟨resting, queued, _⟩ := trade_queued executed trade
    have there : table orderId = some resting := queue_present executed.queue queued
    rw [traded, resting_size_some executed.before there, raised_size executed raised there] at trade
    by_cases done : (orderId, resting) ∈ (execution.order.fill lots).completed
    · rw [if_pos done, Nat.sub_self] at trade
      exact absurd trade (Nat.lt_irrefl 0)
    · rw [if_neg done] at trade
      have touched : 0 < execution.order.taken lots (orderId, resting) := by omega
      obtain ⟨quantity, partly⟩ := (touched_cases touched).resolve_left done
      refine ⟨resting, quantity, partly, ?_⟩
      simpa [Submission.taken, Fill.taken, done, partly] using touched
  · rintro ⟨resting, quantity, partly, positive⟩
    have there : table orderId = some resting := fill_reduced_present executed.queue execution.order _ quantity partly
    have done : (orderId, resting) ∉ (execution.order.fill lots).completed := fun member =>
      fill_reduced_apart executed.queue partly member rfl
    have taken : execution.order.taken lots (orderId, resting) = quantity := by
      simp [Submission.taken, Fill.taken, done, partly]
    have less : quantity < resting.size := taken ▸ taken_lt_size done
    rw [traded, resting_size_some executed.before there, raised_size executed raised there, if_neg done, taken]
    omega

end Raised

omit executed

def offerId (index : Nat) : Uuid := ⟨Fin.ofNat _ (index + 4)⟩

def smallOffer (index : Nat) : Submission := ⟨⟨1⟩, 1, .offers, ⟨1, .limit 1⟩, offerId index⟩

def sweepingBid (count : Nat) : Submission := ⟨⟨2⟩, 1, .bids, ⟨.ofNat count, .limit 1⟩, ⟨3⟩⟩

theorem offer_id_value {index : Nat} (fits : index < 2 ^ 32) : (offerId index).asU128.val = index + 4 := by
  rw [offerId]
  exact Nat.mod_eq_of_lt (by omega)

theorem offer_id_apart {index : Nat} (fits : index < 2 ^ 32) :
    (⟨1⟩ : Uuid) ≠ offerId index ∧ (⟨2⟩ : Uuid) ≠ offerId index ∧ (⟨3⟩ : Uuid) ≠ offerId index := by
  have value := offer_id_value fits
  refine ⟨?_, ?_, ?_⟩ <;>
  · intro same
    rw [← same] at value
    simp at value

theorem offers_counted {count : Nat} (fits : count ≤ 2 ^ 32) {orderIds : List Uuid}
    (present : ∀ index < count, offerId index ∈ orderIds) : count ≤ orderIds.length := by
  have distinct : ((List.range count).map offerId).Nodup := by
    apply List.Nodup.map_on _ List.nodup_range
    intro a inA b inB same
    have lessA := List.mem_range.mp inA
    have lessB := List.mem_range.mp inB
    have values := congrArg (fun uuid : Uuid => uuid.asU128.val) same
    simp only [offer_id_value (by omega : a < 2 ^ 32), offer_id_value (by omega : b < 2 ^ 32)] at values
    omega
  have within : (List.range count).map offerId ⊆ orderIds := by
    intro orderId member
    obtain ⟨index, inRange, rfl⟩ := List.mem_map.mp member
    exact present index (List.mem_range.mp inRange)
  simpa using (List.subperm_of_subset distinct within).length_le

-- A store in which that many small offers rest, and nothing else.
structure SmallOffers (lua : Lua) (count : Nat) (history : List Execution) (table : Table) : Prop where
  complete : Complete history
  orders : ∀ execution ∈ history, ∃ index < count, execution.order = smallOffer index
  sound : Sound history table
  only : ∀ orderId resting, table orderId = some resting →
    resting.assetId = 1 ∧ resting.side = .offers ∧ resting.price = 1 ∧ resting.size = 1
  present : ∀ index < count, ∃ resting, table (offerId index) = some resting

theorem small_offers_apart {index count : Nat} (less : index < count) (fits : count < 2 ^ 32) :
    ApartFrom (smallOffer index) (smallOffer count) := by
  have smaller : index < 2 ^ 32 := by omega
  refine ⟨fun equal => ?_, (offer_id_apart fits).1.symm, (offer_id_apart smaller).1⟩
  have values := congrArg (fun uuid : Uuid => uuid.asU128.val) equal
  simp only [smallOffer, offer_id_value fits, offer_id_value smaller] at values
  omega

theorem small_offer_fresh {count : Nat} (fits : count < 2 ^ 32) {history : List Execution} {table : Table}
    (offers : SmallOffers lua count history table) : FreshIn history (smallOffer count) := by
  refine ⟨(offer_id_apart fits).1, fun earlier member => ?_⟩
  obtain ⟨index, less, same⟩ := offers.orders earlier member
  rw [same]
  exact small_offers_apart less fits

theorem offer_added {order : Submission} {store : Store} {table next : Table} {lots : List Lot}
    (only : ∀ orderId resting, table orderId = some resting → resting.side = .offers) (book : order.book = .offers)
    (executed : Executed lua (executionOf lua order store) table lots next) :
    (executionOf lua order store).completes ∧
      next = Function.update table order.orderId (order.resting order.size 0) := by
  have unmatched : lots = [] := by
    rw [List.eq_nil_iff_forall_not_mem]
    intro lot queued
    obtain ⟨there, _, side, _⟩ := (executed.queue.mem lot.1 lot.2).mp queued
    have opposite : Book.opposite .offers = .offers := (book ▸ side.symm).trans (only lot.1 lot.2 there)
    cases opposite
  subst unmatched
  have completes := (completes_short executed).mpr (Nat.zero_le _)
  refine ⟨completes, ?_⟩
  rw [effect_complete executed completes]
  simp [Table.complete, executionOf, Submission.fill, Greedy.fill, Table.take, volume]

theorem small_offer_rests {count : Nat} {history : List Execution} {store : Store} {table next : Table} {lots : List Lot}
    (offers : SmallOffers lua count history table)
    (executed : Executed lua (executionOf lua (smallOffer count) store) table lots next) :
    SmallOffers lua (count + 1) (history ++ [executionOf lua (smallOffer count) store]) next := by
  have alone := offer_added (fun orderId resting there => (offers.only orderId resting there).2.1) rfl executed
  have completes := alone.1
  have added : next = Function.update table (offerId count) ((smallOffer count).resting 1 0) := alone.2
  refine ⟨complete_append.mpr ⟨offers.complete, completes⟩, ?_, execution_sound offers.sound executed, ?_, ?_⟩
  · intro execution member
    cases List.mem_append.mp member with
    | inl old =>
        obtain ⟨index, less, same⟩ := offers.orders execution old
        exact ⟨index, Nat.lt_succ_of_lt less, same⟩
    | inr new => exact ⟨count, Nat.lt_succ_self count, congrArg Execution.order (List.mem_singleton.mp new)⟩
  · intro orderId resting found
    rw [added] at found
    by_cases same : orderId = offerId count
    · rw [same, Function.update_self] at found
      obtain ⟨_, asset, side, form, size, _⟩ := resting_made found
      exact ⟨asset, side, (OrderType.limit.inj form).symm, size⟩
    · rw [Function.update_of_ne same] at found
      exact offers.only orderId resting found
  · intro index less
    rw [added]
    by_cases same : offerId index = offerId count
    · have whole : 1 ≤ (smallOffer count).size := Nat.le_refl 1
      rw [same, Function.update_self]
      exact resting_exists rfl Nat.one_pos whole 0
    · rw [Function.update_of_ne same]
      apply offers.present
      have different : index ≠ count := fun equal => same (congrArg offerId equal)
      omega

theorem small_offer_next {count : Nat} (fits : count < 2 ^ 32) {history : List Execution} {store : Store}
    {table : Table} (run : Run lua history store) (rep : Represents store table)
    (offers : SmallOffers lua count history table) :
    ∃ history store table, Run lua history store ∧ Represents store table ∧ SmallOffers lua (count + 1) history table := by
  have fresh := small_offer_fresh fits offers
  have step : ScriptStep lua history store (executionOf lua (smallOffer count) store)
      (execute lua (smallOffer count) store).2 := ⟨fresh, rfl, rfl⟩
  obtain ⟨lots, next, executed, _⟩ := step_executed rep offers.sound step
  exact ⟨_, _, next, run_next run (smallOffer count) fresh, executed.after, small_offer_rests offers executed⟩

theorem no_small_offers (lua : Lua) : SmallOffers lua 0 [] emptyTable where
  complete _ member := absurd member List.not_mem_nil
  orders _ member := absurd member List.not_mem_nil
  sound _ _ found := by cases found
  only _ _ found := by cases found
  present index less := absurd less (Nat.not_lt_zero index)

theorem small_offers_rest (lua : Lua) (count : Nat) (fits : count < 2 ^ 32) :
    ∃ history store table, Run lua history store ∧ Represents store table ∧ SmallOffers lua count history table := by
  induction count with
  | zero => exact ⟨[], emptyKeys, emptyTable, .start, empty_represents, no_small_offers lua⟩
  | succ count ih =>
      obtain ⟨history, store, table, run, rep, offers⟩ := ih (by omega)
      exact small_offer_next (by omega) run rep offers

-- Whatever the limit is, a bid can use up more offers than that.
theorem beyond_unpack_limit (lua : Lua) (fits : lua.unpackLimit + 1 < 2 ^ 32) :
    ∃ history store, Run lua history store ∧ Complete history ∧ FreshIn history (sweepingBid (lua.unpackLimit + 1)) ∧
      ¬ UnpacksAll lua store (sweepingBid (lua.unpackLimit + 1)) := by
  obtain ⟨history, store, table, run, rep, offers⟩ := small_offers_rest lua (lua.unpackLimit + 1) fits
  refine ⟨history, store, run, offers.complete, ⟨(by decide : (⟨2⟩ : Uuid) ≠ ⟨3⟩), ?_⟩, ?_⟩
  · intro earlier member
    obtain ⟨index, less, same⟩ := offers.orders earlier member
    have apart := offer_id_apart (by omega : index < 2 ^ 32)
    rw [same]
    exact ⟨apart.2.2, (by decide : (⟨3⟩ : Uuid) ≠ ⟨1⟩), apart.2.1⟩
  · intro unpacks
    have inBook : ∀ index < lua.unpackLimit + 1, offerId index ∈ selectedOrders store (sweepingBid (lua.unpackLimit + 1)) := by
      intro index less
      obtain ⟨resting, there⟩ := offers.present index less
      obtain ⟨asset, side, price, _⟩ := offers.only _ _ there
      refine List.mem_filter.mpr ⟨(mem_book_orders rep).mpr ⟨resting, there, asset, side⟩, ?_⟩
      rw [resting_price_some rep there, price]
      exact decide_eq_true (Int.le_refl 1)
    have many : lua.unpackLimit + 1 ≤ (selectedOrders store (sweepingBid (lua.unpackLimit + 1))).length :=
      offers_counted (Nat.le_of_lt fits) inBook
    have single : ∀ orderId ∈ (selectedOrders store (sweepingBid (lua.unpackLimit + 1))).take (lua.unpackLimit + 1),
        restingSize store orderId = 1 := by
      intro orderId member
      obtain ⟨resting, there, _⟩ := (mem_book_orders rep).mp (List.mem_filter.mp (List.mem_of_mem_take member)).1
      rw [resting_size_some rep there]
      exact (offers.only orderId resting there).2.2.2
    have size : (sweepingBid (lua.unpackLimit + 1)).size = lua.unpackLimit + 1 := UInt32.toNat_ofNat_of_lt' fits
    have used := unpacks _ (List.take_prefix (lua.unpackLimit + 1) _) (by
      rw [List.map_congr_left single, size]
      simp)
    rw [List.length_take, Nat.min_eq_left many] at used
    omega

end MktSim
