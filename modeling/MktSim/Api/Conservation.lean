import MktSim.Api.Trades

set_option autoImplicit false

namespace MktSim

open Redis SortedSets Greedy Runs

def replySize (entry : Uuid × Hash Field Uuid) : Int := (tonumber (entry.2 .size)).getD 0

structure FillAccounted (execution : Execution) (reply : Reply) : Prop where
  filled : reply.sharesFilled =
    ((bookOrders execution.before execution.order.assetId execution.order.book.opposite).map fun maker =>
      (traded execution maker : Int)).sum
  parts : ∃ further : Option Uuid,
    (∀ maker, further = some maker →
      maker ∈ bookOrders execution.before execution.order.assetId execution.order.book.opposite ∧
      maker ∉ reply.completedOrders.map Prod.fst) ∧
    reply.sharesFilled = (reply.completedOrders.map replySize).sum +
      (further.map fun maker => (traded execution maker : Int)).getD 0
  distinct : (reply.completedOrders.map Prod.fst).Nodup
  completed : ∀ orderId fields, (orderId, fields) ∈ reply.completedOrders ↔
    orderId ∈ bookOrders execution.before execution.order.assetId execution.order.book.opposite ∧
      restingSize execution.after orderId = 0 ∧ hashAt execution.before (.id orderId) = some fields

def sharesTraded (history : List Execution) (orderId : Uuid) : Int := tradesOver (fun _ => 1) history orderId

def Accounted (history : List Execution) (store : Store) (orderId : Uuid) : Prop :=
  ∃ size originalSize, storedNumber store orderId .size = some size ∧
    storedNumber store orderId .originalSize = some originalSize ∧ 1 ≤ size ∧ size ≤ originalSize ∧
    originalSize - size = sharesTraded history orderId

theorem sum_completed_sizes (outcome : Fill Lot) :
    ((completedOrders outcome).map replySize).sum = (total lotSize outcome.completed : Int) := by
  rw [completedOrders, List.map_map, total, Nat.cast_list_sum, List.map_map]
  rfl

theorem mem_completed_orders (outcome : Fill Lot) (orderId : Uuid) (fields : Hash Field Uuid) :
    (orderId, fields) ∈ completedOrders outcome ↔
      ∃ resting, (orderId, resting) ∈ outcome.completed ∧ fields = resting.hash := by
  refine ⟨?_, ?_⟩
  · intro member
    obtain ⟨lot, done, same⟩ := List.mem_map.mp member
    obtain ⟨rfl, rfl⟩ := Prod.mk.inj same
    exact ⟨lot.2, done, rfl⟩
  · intro present
    obtain ⟨resting, done, rfl⟩ := present
    exact List.mem_map.mpr ⟨(orderId, resting), done, rfl⟩

theorem completed_ids (outcome : Fill Lot) :
    (completedOrders outcome).map Prod.fst = outcome.completed.map Prod.fst := by
  rw [completedOrders, List.map_map]
  rfl

variable {lua : Lua} {execution : Execution} {table next : Table} {lots : List Lot}

section Step

variable (executed : Executed lua execution table lots next) (completes : execution.completes)

include executed completes

theorem further_maker : ∃ further : Option Uuid,
    (∀ maker, further = some maker →
      maker ∈ bookOrders execution.before execution.order.assetId execution.order.book.opposite ∧
      maker ∉ (execution.order.fill lots).completed.map Prod.fst) ∧
    (execution.order.size : Int) - (execution.order.fill lots).remaining =
      total lotSize (execution.order.fill lots).completed + (further.map fun maker => (traded execution maker : Int)).getD 0 := by
  have whole := fill_sum lotSize execution.order.size lots
  change total lotSize (execution.order.fill lots).completed + ((execution.order.fill lots).reduced.map Prod.snd).getD 0 +
    (execution.order.fill lots).remaining = execution.order.size at whole
  cases partly : (execution.order.fill lots).reduced with
  | none =>
      refine ⟨none, (fun maker absent => by cases absent), ?_⟩
      rw [partly] at whole
      simp only [Option.map_none, Option.getD_none] at whole ⊢
      omega
  | some part =>
      obtain ⟨lot, quantity⟩ := part
      have queued := (reduced_mem partly).1
      obtain ⟨there, asset, side, _⟩ := (executed.queue.mem lot.1 lot.2).mp queued
      have apart : lot.1 ∉ (execution.order.fill lots).completed.map Prod.fst := by
        intro member
        obtain ⟨done, completed, same⟩ := List.mem_map.mp member
        exact fill_reduced_apart executed.queue partly completed same.symm
      refine ⟨some lot.1, ?_, ?_⟩
      · intro maker same
        obtain rfl := Option.some.inj same
        exact ⟨(mem_book_orders executed.before).mpr ⟨lot.2, there, asset, side⟩, apart⟩
      · have open_ : lot ∉ (execution.order.fill lots).completed :=
          fun completed => apart (List.mem_map_of_mem completed)
        have part : traded execution lot.1 = quantity := by
          rw [traded_lot executed completes queued, Submission.taken]
          simp [Fill.taken, open_, partly]
        rw [partly] at whole
        simp only [Option.map_some, Option.getD_some, part] at whole ⊢
        omega

theorem fill_accounted {reply : Reply} (ok : execution.outcome = .ok reply) : FillAccounted execution reply := by
  have shares := taker_trades_shares executed completes
  rw [effect_reply executed ok]
  refine ⟨?_, ?_, ?_, ?_⟩
  · rw [← shares, takerTrades]
    simp only [one_mul]
  · obtain ⟨further, open_, split⟩ := further_maker executed completes
    refine ⟨further, ?_, ?_⟩
    · rw [completed_ids]
      exact open_
    · rw [sum_completed_sizes]
      exact split
  · rw [completed_ids]
    exact fill_ids_nodup executed.queue
  · intro orderId fields
    rw [mem_completed_orders, mem_book_orders executed.before]
    refine ⟨?_, ?_⟩
    · intro named
      obtain ⟨resting, done, rfl⟩ := named
      obtain ⟨there, asset, side, _⟩ := (executed.queue.mem orderId resting).mp (completed_subset done)
      exact ⟨⟨resting, there, asset, side⟩, (gone_completed executed completes there).mpr done,
        represents_hash executed.before there⟩
    · intro filled
      obtain ⟨⟨resting, there, _, _⟩, gone, fields⟩ := filled
      rw [represents_hash executed.before there] at fields
      exact ⟨resting, (gone_completed executed completes there).mp gone, (Option.some.inj fields).symm⟩

end Step

def TableAccounted (history : List Execution) (table : Table) : Prop :=
  ∀ orderId resting, table orderId = some resting →
    (resting.originalSize : Int) - resting.size = sharesTraded history orderId

theorem step_accounted {history : List Execution} (run : Run lua history execution.before)
    (fresh : FreshIn history execution.order) (executed : Executed lua execution table lots next)
    (completes : execution.completes) (accounted : TableAccounted history table) :
    TableAccounted (history ++ [execution]) next := by
  intro orderId after found
  rw [effect_complete executed completes] at found
  rw [sharesTraded, trades_over_append]
  obtain ⟨resting, there, left, rfl⟩ | ⟨rfl, _, made⟩ :=
    complete_origin executed.queue executed.fresh.order found
  · -- An order at rest trades what its size drops by.
    have before := accounted orderId resting there
    have less := taken_lt_size left
    simp only at less
    rw [sharesTraded] at before
    rw [trades_resting executed _ there, traded_taken executed completes there, one_mul, ← before,
      reduce_original, reduce_size resting _ less]
    omega
  · -- A new order has traded what is missing from the size it came with.
    have unused : tradesOver (fun _ => 1) history execution.order.orderId = 0 :=
      trades_over_unused _ run fun earlier member => (fresh.2 earlier member).1.symm
    have rests := resting_made made
    rw [unused, trades_incoming executed, taker_trades_shares executed completes, rests.size,
      rests.original]
    omega

theorem run_accounted {history : List Execution} {store : Store} (run : Run lua history store)
    (complete : Complete history) : ∃ table, Represents store table ∧ TableAccounted history table := by
  obtain ⟨table, rep, _, accounted⟩ := run_invariant lua
    (fun history table => Complete history → TableAccounted history table)
    (fun _ orderId resting there => by cases there)
    (fun history execution table lots next earlier _ fresh executed ih complete =>
      step_accounted earlier fresh executed (complete_append.mp complete).2 (ih (complete_append.mp complete).1)) run
  exact ⟨table, rep, accounted complete⟩

/-- No share appears or disappears: every reply counts what the makers gave up, and
every order at rest has traded exactly what its size lacks. -/
theorem shares_conserved (lua : Lua) (history : List Execution) (store : Store) (run : Run lua history store)
    (complete : Complete history) :
    (∀ execution ∈ history, ∀ reply, execution.outcome = .ok reply → FillAccounted execution reply) ∧
      ∀ orderId, hashAt store (.id orderId) ≠ none → Accounted history store orderId := by
  refine ⟨?_, ?_⟩
  · intro execution member reply ok
    obtain ⟨table, lots, next, executed⟩ := run_executed run member
    exact fill_accounted executed (complete execution member) ok
  · intro orderId exists_
    obtain ⟨table, rep, accounted⟩ := run_accounted run complete
    cases there : table orderId with
    | none =>
        rw [rep.hashes, there] at exists_
        exact absurd rfl exists_
    | some resting =>
        have whole := accounted orderId resting there
        refine ⟨resting.size, resting.originalSize, stored_number_some rep there _, stored_number_some rep there _, ?_, ?_,
          whole⟩
        · exact_mod_cast resting.open_
        · exact_mod_cast resting.within

def partialFills : List Submission :=
  [⟨⟨1⟩, 1, .offers, ⟨10, .limit 3⟩, ⟨11⟩⟩, ⟨⟨2⟩, 1, .bids, ⟨4, .limit 5⟩, ⟨12⟩⟩, ⟨⟨1⟩, 1, .offers, ⟨2, .limit 4⟩, ⟨13⟩⟩,
    ⟨⟨2⟩, 1, .bids, ⟨9, .limit 4⟩, ⟨14⟩⟩]

theorem shares_conserved_partial :
    (∀ execution ∈ executions (.exactIntegers 7999) emptyKeys partialFills, ∀ reply, execution.outcome = .ok reply →
      FillAccounted execution reply) ∧
    ∀ orderId, hashAt (storeAfter (.exactIntegers 7999) emptyKeys partialFills) (.id orderId) ≠ none →
      Accounted (executions (.exactIntegers 7999) emptyKeys partialFills)
        (storeAfter (.exactIntegers 7999) emptyKeys partialFills) orderId :=
  shares_conserved (.exactIntegers 7999) _ _ (executions_run _ partialFills (by decide)) (complete_of_outcomes (by decide))

end MktSim
