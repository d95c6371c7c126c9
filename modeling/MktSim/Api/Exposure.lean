import MktSim.Api.Trades

set_option autoImplicit false

namespace MktSim

open Redis SortedSets Greedy Runs

-- What an order's trades have come to and what the rest of it can still come to.
def exposure (worth : Int → Int) (history : List Execution) (store : Store) (order : Submission) : Int :=
  tradesOver worth history order.orderId + worth order.price * restingSize store order.orderId

def exposureLimit (worth : Int → Int) (order : Submission) : Int := max 0 (worth order.price * order.size)

def Table.sizeAt (table : Table) (orderId : Uuid) : Nat := ((table orderId).map Resting.size).getD 0

theorem resting_size_at {store : Store} {table : Table} (rep : Represents store table) (orderId : Uuid) :
    restingSize store orderId = table.sizeAt orderId := by
  cases there : table orderId with
  | none => rw [resting_size_none rep there, Table.sizeAt, there, Option.map_none, Option.getD_none]
  | some resting => rw [resting_size_some rep there, Table.sizeAt, there, Option.map_some, Option.getD_some]

theorem size_at_le {table : Table} {orderId : Uuid} {bound : Nat}
    (within : ∀ resting, table orderId = some resting → resting.size ≤ bound) : table.sizeAt orderId ≤ bound := by
  cases found : table orderId with
  | none =>
      rw [Table.sizeAt, found]
      exact Nat.zero_le _
  | some resting =>
      rw [Table.sizeAt, found]
      exact within resting found

section Effect

variable {lua : Lua} {order : Submission} {table next : Table} {lots : List Lot} {assetId : Int32} {side : Book}
  {within : Int → Bool} {outcome : Except ScriptError Reply} (queue : Queue table assetId side within lots)
  (effect : Effect lua order table lots outcome next) (unused : table order.orderId = none)

include queue effect unused

-- An order at rest gives up at most what the matching takes from it. An execution that
-- raises gives the completed ones their shares back.
theorem effect_keeps {orderId : Uuid} {resting : Resting} (present : table orderId = some resting) :
    resting.size ≤ next.sizeAt orderId + order.taken lots (orderId, resting) := by
  by_cases done : (orderId, resting) ∈ (order.fill lots).completed
  · rw [taken_completed done]
    exact Nat.le_add_left _ _
  · have less := taken_lt_size done
    have left : next orderId = some (resting.reduce (order.taken lots (orderId, resting))) := by
      cases effect with
      | complete => rw [complete_maker lua queue unused present, if_neg done]
      | abandon => rw [abandon_maker queue present, if_neg done]
    rw [Table.sizeAt, left, Option.map_some, Option.getD_some, reduce_size resting _ less]
    simp only at less
    omega

theorem effect_shrinks {orderId : Uuid} (other : orderId ≠ order.orderId) :
    next.sizeAt orderId ≤ table.sizeAt orderId := by
  apply size_at_le
  intro after found
  cases effect_origin queue unused effect found with
  | inl before =>
      obtain ⟨held, present, _, smaller⟩ := before
      rw [Table.sizeAt, present]
      exact smaller
  | inr new => exact absurd new.1 other

theorem effect_incoming : next.sizeAt order.orderId ≤ (order.fill lots).remaining := by
  apply size_at_le
  intro after found
  cases effect_origin queue unused effect found with
  | inl before =>
      obtain ⟨held, present, _⟩ := before
      rw [unused] at present
      cases present
  | inr new => exact le_of_eq (resting_made new.2.2).size

end Effect

section Step

variable {lua : Lua} {execution : Execution} {table next : Table} {lots : List Lot}
  (executed : Executed lua execution table lots next)

include executed

theorem traded_le_taken {lot : Lot} (queued : lot ∈ lots) : traded execution lot.1 ≤ execution.order.taken lots lot := by
  have there := queue_present executed.queue queued
  have kept : lot.2.size ≤ next.sizeAt lot.1 + execution.order.taken lots lot :=
    effect_keeps executed.queue executed.effect executed.fresh.order there
  rw [traded, resting_size_some executed.before there, resting_size_at executed.after]
  omega

theorem incoming_shares : (lots.map fun lot => traded execution lot.1).sum + next.sizeAt execution.order.orderId ≤
    execution.order.size := by
  have matched : (lots.map (execution.order.taken lots)).sum + (execution.order.fill lots).remaining = execution.order.size :=
    sum_taken_fill (queue_nodup executed.queue)
  have rest := effect_incoming executed.queue executed.effect executed.fresh.order
  have shares : (lots.map fun lot => traded execution lot.1).sum ≤ (lots.map (execution.order.taken lots)).sum :=
    List.sum_le_sum fun lot queued => traded_le_taken executed queued
  omega

variable (worth : Int → Int)

theorem taker_trades_le (cheap : ∀ lot ∈ lots, worth lot.2.price.toInt ≤ worth execution.order.price) :
    takerTrades worth execution ≤
      worth execution.order.price * ((lots.map fun lot => traded execution lot.1).sum : Nat) := by
  have bound : (lots.map fun lot => worth lot.2.price.toInt * (traded execution lot.1 : Int)).sum ≤
      (lots.map fun lot => worth execution.order.price * (traded execution lot.1 : Int)).sum :=
    List.sum_le_sum fun lot queued => Int.mul_le_mul_of_nonneg_right (cheap lot queued) (Int.natCast_nonneg _)
  rw [taker_trades_lots executed]
  refine bound.trans (le_of_eq ?_)
  rw [List.sum_map_mul_left, Nat.cast_list_sum, List.map_map]
  rfl

theorem incoming_exposed (cheap : ∀ lot ∈ lots, worth lot.2.price.toInt ≤ worth execution.order.price) :
    takerTrades worth execution + worth execution.order.price * next.sizeAt execution.order.orderId ≤
      exposureLimit worth execution.order := by
  have paid := taker_trades_le executed worth cheap
  have shares := incoming_shares executed
  have together : takerTrades worth execution + worth execution.order.price * next.sizeAt execution.order.orderId ≤
      worth execution.order.price *
        (((lots.map fun lot => traded execution lot.1).sum + next.sizeAt execution.order.orderId : Nat) : Int) := by
    rw [Nat.cast_add, Int.mul_add]
    omega
  refine together.trans ?_
  by_cases positive : 0 ≤ worth execution.order.price
  · exact (Int.mul_le_mul_of_nonneg_left (by exact_mod_cast shares) positive).trans (le_max_right _ _)
  · exact (Int.mul_nonpos_of_nonpos_of_nonneg (by omega) (Int.natCast_nonneg _)).trans (le_max_left _ _)

theorem resting_exposed {order : Submission} (other : order.orderId ≠ execution.order.orderId)
    (submitted : ∀ resting, table order.orderId = some resting → SubmittedBy order resting) :
    trades worth execution order.orderId + worth order.price * next.sizeAt order.orderId =
      worth order.price * table.sizeAt order.orderId := by
  have smaller := effect_shrinks executed.queue executed.effect executed.fresh.order other
  cases there : table order.orderId with
  | none =>
      have nothing : table.sizeAt order.orderId = 0 := by rw [Table.sizeAt, there, Option.map_none, Option.getD_none]
      have gone : next.sizeAt order.orderId = 0 := by omega
      rw [trades_absent executed worth there other.symm, nothing, gone, zero_add]
  | some resting =>
      have price := limit_price (submitted resting there).2.2.2.1
      rw [trades_resting executed worth there, ← price, ← Int.mul_add, traded, resting_size_at executed.before,
        resting_size_at executed.after]
      congr 1
      omega

end Step

theorem run_orders_apart {lua : Lua} {history : List Execution} {store : Store} (run : Run lua history store) :
    (history.map Execution.order).Pairwise ApartFrom := by
  refine trace_invariant (fun history _ => (history.map Execution.order).Pairwise ApartFrom) List.Pairwise.nil ?_ run
  intro history _ execution _ _ apart step
  rw [List.map_append, List.pairwise_append]
  refine ⟨apart, List.pairwise_singleton _ _, ?_⟩
  intro order inOrders new isNew
  obtain ⟨earlier, member, rfl⟩ := List.mem_map.mp inOrders
  rw [List.mem_singleton.mp isNew]
  exact step.1.2 earlier member

theorem run_submitted {lua : Lua} {history : List Execution} {store : Store} (run : Run lua history store)
    {table : Table} (sound : Sound history table) {execution : Execution} (member : execution ∈ history)
    {resting : Resting} (there : table execution.order.orderId = some resting) :
    SubmittedBy execution.order resting := by
  obtain ⟨origin, known, same, submitted⟩ := sound _ resting there
  by_cases one : origin.order = execution.order
  · rwa [one] at submitted
  · have apart := (run_orders_apart run).forall (List.mem_map_of_mem known) (List.mem_map_of_mem member) one
    exact absurd same.symm apart.1

theorem run_exposure {lua : Lua} {history : List Execution} {store : Store} (run : Run lua history store)
    (worth : Int → Int) (side : Book)
    (cheap : ∀ (order : Submission) (table : Table) (lots : List Lot), order.book = side →
      Queue table order.assetId order.book.opposite (reach order.book order.price) lots →
        ∀ lot ∈ lots, worth lot.2.price.toInt ≤ worth order.price) :
    ∀ execution ∈ history, execution.order.book = side →
      exposure worth history store execution.order ≤ exposureLimit worth execution.order := by
  have whole : ∃ table, Represents store table ∧ Sound history table ∧ ∀ execution ∈ history,
      execution.order.book = side → tradesOver worth history execution.order.orderId +
        worth execution.order.price * table.sizeAt execution.order.orderId ≤ exposureLimit worth execution.order := by
    refine run_invariant lua (fun history table => ∀ execution ∈ history, execution.order.book = side →
      tradesOver worth history execution.order.orderId + worth execution.order.price * table.sizeAt execution.order.orderId ≤
        exposureLimit worth execution.order) (fun _ member => absurd member List.not_mem_nil) ?_ run
    intro history execution table lots next earlier sound fresh executed ih other member book
    rw [trades_over_append]
    cases List.mem_append.mp member with
    | inl old =>
        have before := ih other old book
        have kept := resting_exposed executed worth (fresh.2 other old).1.symm fun _ => run_submitted earlier sound old
        omega
    | inr new =>
        obtain rfl := List.mem_singleton.mp new
        have unused : tradesOver worth history other.order.orderId = 0 :=
          trades_over_unused worth earlier fun old known => (fresh.2 old known).1.symm
        have covered := incoming_exposed executed worth (cheap other.order table lots book executed.queue)
        rw [unused, trades_incoming executed, zero_add]
        exact covered
  obtain ⟨table, rep, _, exposed⟩ := whole
  intro execution member book
  rw [exposure, resting_size_at rep]
  exact exposed execution member book

end MktSim
