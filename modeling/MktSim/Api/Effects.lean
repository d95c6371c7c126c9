import MktSim.Api.BookView

set_option autoImplicit false

namespace MktSim

open Redis SortedSets Greedy

def Submission.taken (order : Submission) (lots : List Lot) (lot : Lot) : Nat :=
  (order.fill lots).taken lotSize lot

@[simp] theorem reduce_zero (order : Resting) : order.reduce 0 = order := by
  simp [Resting.reduce, order.open_]

variable {lua : Lua} {order : Submission} {table next : Table} {lots : List Lot} {assetId : Int32} {side : Book}
  {within : Int → Bool} {outcome : Except ScriptError Reply}

theorem taken_lt_size {lot : Lot} (left : lot ∉ (order.fill lots).completed) :
    order.taken lots lot < lot.2.size := Greedy.taken_lt lot.2.open_ left

theorem taken_completed {lot : Lot} (done : lot ∈ (order.fill lots).completed) :
    order.taken lots lot = lot.2.size := Greedy.taken_of_completed done

theorem taken_outside {lot : Lot} (outside : lot ∉ lots) : order.taken lots lot = 0 :=
  Greedy.taken_of_not_mem outside

theorem sum_taken_fill (distinct : lots.Nodup) :
    (lots.map (order.taken lots)).sum + (order.fill lots).remaining = order.size :=
  Greedy.sum_taken lotSize order.size lots distinct

theorem completed_iff (queue : Queue table assetId side within lots) {orderId : Uuid} {resting : Resting}
    (present : table orderId = some resting) :
    orderId ∈ (order.fill lots).completed.map Prod.fst ↔ (orderId, resting) ∈ (order.fill lots).completed := by
  refine ⟨?_, ?_⟩
  · intro member
    obtain ⟨lot, completed, rfl⟩ := List.mem_map.mp member
    have there := queue_present queue (completed_subset completed)
    rw [present] at there
    obtain rfl := Option.some.inj there
    exact completed
  · exact fun completed => List.mem_map.mpr ⟨_, completed, rfl⟩

theorem take_taken (queue : Queue table assetId side within lots) {orderId : Uuid} {resting : Resting}
    (present : table orderId = some resting) (left : (orderId, resting) ∉ (order.fill lots).completed) :
    table.take (order.fill lots).reduced orderId = some (resting.reduce (order.taken lots (orderId, resting))) := by
  unfold Submission.taken Fill.taken
  rw [if_neg left]
  rcases partly : (order.fill lots).reduced with _ | ⟨⟨maker, original⟩, quantity⟩
  · simp [Table.take, present]
  · by_cases same : orderId = maker
    · subst orderId
      have there := fill_reduced_present queue order _ quantity partly
      obtain rfl := Option.some.inj (present.symm.trans there)
      simp [Table.take]
    · simp [Table.take, same, present]

theorem complete_maker (lua : Lua) (queue : Queue table assetId side within lots) (unused : table order.orderId = none)
    {orderId : Uuid} {resting : Resting} (present : table orderId = some resting) :
    table.complete lua order (order.fill lots) orderId =
      if (orderId, resting) ∈ (order.fill lots).completed then none
      else some (resting.reduce (order.taken lots (orderId, resting))) := by
  have away : orderId ≠ order.orderId := by
    rintro rfl
    rw [present] at unused
    cases unused
  rw [Table.complete, Function.update_of_ne away, Table.remove]
  by_cases completed : (orderId, resting) ∈ (order.fill lots).completed
  · rw [if_pos ((completed_iff queue present).mpr completed), if_pos completed]
  · rw [if_neg fun member => completed ((completed_iff queue present).mp member), if_neg completed,
      take_taken queue present completed]

theorem complete_new (queue : Queue table assetId side within lots) {orderId : Uuid}
    (absent : table orderId = none) :
    table.complete lua order (order.fill lots) orderId =
      if orderId = order.orderId then
        order.resting (order.fill lots).remaining (volume lua 0 (order.fill lots).completed)
      else none := by
  by_cases same : orderId = order.orderId
  · subst orderId
    simp [Table.complete]
  · have gone := take_none (fill_reduced_present queue order) absent
    rw [Table.complete, Function.update_of_ne same, if_neg same, Table.remove, gone, ite_self]

theorem complete_origin (queue : Queue table assetId side within lots) (unused : table order.orderId = none)
    {orderId : Uuid} {after : Resting} (found : table.complete lua order (order.fill lots) orderId = some after) :
    (∃ before, table orderId = some before ∧ (orderId, before) ∉ (order.fill lots).completed ∧
      after = before.reduce (order.taken lots (orderId, before))) ∨
      (orderId = order.orderId ∧ table orderId = none ∧
        order.resting (order.fill lots).remaining (volume lua 0 (order.fill lots).completed) = some after) := by
  cases there : table orderId with
  | none =>
      right
      rw [complete_new queue there] at found
      by_cases same : orderId = order.orderId
      · rw [if_pos same] at found
        exact ⟨same, rfl, found⟩
      · rw [if_neg same] at found
        cases found
  | some before =>
      left
      rw [complete_maker lua queue unused there] at found
      by_cases done : (orderId, before) ∈ (order.fill lots).completed
      · rw [if_pos done] at found
        cases found
      · rw [if_neg done] at found
        exact ⟨before, rfl, done, (Option.some.inj found).symm⟩

theorem abandon_maker (queue : Queue table assetId side within lots) {orderId : Uuid} {resting : Resting}
    (present : table orderId = some resting) :
    table.abandon (order.fill lots) orderId =
      if (orderId, resting) ∈ (order.fill lots).completed then some resting.unlist
      else some (resting.reduce (order.taken lots (orderId, resting))) := by
  rw [Table.abandon, Table.unlist]
  by_cases completed : (orderId, resting) ∈ (order.fill lots).completed
  · rw [if_pos ((completed_iff queue present).mpr completed), if_pos completed,
      fill_completed_kept queue completed, Option.map_some]
  · rw [if_neg fun member => completed ((completed_iff queue present).mp member), if_neg completed,
      take_taken queue present completed]

theorem abandon_new (queue : Queue table assetId side within lots) {orderId : Uuid}
    (absent : table orderId = none) : table.abandon (order.fill lots) orderId = none := by
  have gone := take_none (fill_reduced_present queue order) absent
  rw [Table.abandon, Table.unlist, gone, Option.map_none, ite_self]

structure SameOrder (a b : Resting) : Prop where
  account : a.accountId = b.accountId
  asset : a.assetId = b.assetId
  side : a.side = b.side
  price : a.price = b.price
  original : a.originalSize = b.originalSize
  dollars : a.dollarVolumeFilled = b.dollarVolumeFilled

theorem same_order_reduce (resting : Resting) (quantity : Nat) : SameOrder (resting.reduce quantity) resting :=
  ⟨by simp, by simp, by simp, by simp, by simp, by simp⟩

theorem same_order_unlist (resting : Resting) : SameOrder resting.unlist resting := ⟨rfl, rfl, rfl, rfl, rfl, rfl⟩

theorem effect_origin (queue : Queue table assetId side within lots) (unused : table order.orderId = none)
    (effect : Effect lua order table lots outcome next) {orderId : Uuid} {after : Resting}
    (found : next orderId = some after) :
    (∃ before, table orderId = some before ∧ SameOrder after before ∧ after.size ≤ before.size) ∨
      (orderId = order.orderId ∧ table orderId = none ∧
        order.resting (order.fill lots).remaining (volume lua 0 (order.fill lots).completed) = some after) := by
  have reduced : ∀ before, (orderId, before) ∉ (order.fill lots).completed →
      SameOrder (before.reduce (order.taken lots (orderId, before))) before ∧
        (before.reduce (order.taken lots (orderId, before))).size ≤ before.size := by
    intro before left
    rw [reduce_size before _ (taken_lt_size left)]
    exact ⟨same_order_reduce before _, Nat.sub_le _ _⟩
  cases effect with
  | complete =>
      obtain ⟨before, there, left, rfl⟩ | new := complete_origin queue unused found
      · exact .inl ⟨before, there, reduced before left⟩
      · exact .inr new
  | abandon =>
      left
      cases there : table orderId with
      | none =>
          rw [abandon_new queue there] at found
          cases found
      | some before =>
          rw [abandon_maker queue there] at found
          by_cases done : (orderId, before) ∈ (order.fill lots).completed
          · rw [if_pos done] at found
            obtain rfl := Option.some.inj found
            exact ⟨before, rfl, same_order_unlist before, Nat.le_refl _⟩
          · rw [if_neg done] at found
            obtain rfl := Option.some.inj found
            exact ⟨before, rfl, reduced before done⟩

theorem effect_unqueued (queue : Queue table assetId side within lots) (unused : table order.orderId = none)
    (effect : Effect lua order table lots outcome next) {orderId : Uuid} {resting : Resting}
    (present : table orderId = some resting) (outside : (orderId, resting) ∉ lots) :
    next orderId = some resting := by
  have left : (orderId, resting) ∉ (order.fill lots).completed := fun done => outside (completed_subset done)
  cases effect with
  | complete => rw [complete_maker lua queue unused present, if_neg left, taken_outside outside, reduce_zero]
  | abandon => rw [abandon_maker queue present, if_neg left, taken_outside outside, reduce_zero]

end MktSim
