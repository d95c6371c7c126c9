import MktSim.Api.Executions

set_option autoImplicit false

namespace MktSim

open Redis SortedSets Greedy Runs

variable {lua : Lua} {order : Submission} {table next : Table} {lots : List Lot} {assetId : Int32} {side : Book}
  {within : Int → Bool} {outcome : Except ScriptError Reply}

def Touches (order : Submission) (lots : List Lot) (orderId : Uuid) : Prop :=
  orderId ∈ lots.map Prod.fst ∨ orderId = order.orderId

theorem effect_frame (effect : Effect lua order table lots outcome next) {orderId : Uuid}
    (away : ¬ Touches order lots orderId) : next orderId = table orderId := by
  have notReduced : ∀ lot quantity, (order.fill lots).reduced = some (lot, quantity) → lot.1 ≠ orderId := by
    intro lot quantity partly same
    exact away (.inl (same ▸ List.mem_map_of_mem (reduced_mem partly).1))
  have notCompleted : orderId ∉ (order.fill lots).completed.map Prod.fst := by
    intro member
    obtain ⟨lot, done, rfl⟩ := List.mem_map.mp member
    exact away (.inl (List.mem_map_of_mem (completed_subset done)))
  have kept : table.take (order.fill lots).reduced orderId = table orderId := take_other notReduced
  cases effect with
  | complete =>
      have notNew : orderId ≠ order.orderId := fun same => away (.inr same)
      rw [Table.complete, Function.update_of_ne notNew, Table.remove, if_neg notCompleted, kept]
  | abandon => rw [Table.abandon, Table.unlist, if_neg notCompleted, kept]

theorem effect_local {other otherNext : Table} {otherOutcome : Except ScriptError Reply}
    (effect : Effect lua order table lots outcome next)
    (again : Effect lua order other lots otherOutcome otherNext) :
    outcome = otherOutcome ∧ ∀ orderId, table orderId = other orderId → next orderId = otherNext orderId := by
  have take : ∀ orderId, table orderId = other orderId →
      table.take (order.fill lots).reduced orderId = other.take (order.fill lots).reduced orderId := by
    intro orderId same
    cases (order.fill lots).reduced with
    | none => exact same
    | some part =>
        by_cases atMaker : orderId = part.1.1
        · subst atMaker
          simp [Table.take]
        · simp [Table.take, atMaker, same]
  cases effect with
  | complete short =>
      cases again with
      | complete =>
          refine ⟨rfl, fun orderId same => ?_⟩
          by_cases new : orderId = order.orderId
          · subst new
            simp [Table.complete]
          · simp [Table.complete, new, Table.remove, take orderId same]
      | abandon long => exact absurd short (Nat.not_le.mpr long)
  | abandon long =>
      cases again with
      | complete short => exact absurd short (Nat.not_le.mpr long)
      | abandon =>
          refine ⟨rfl, fun orderId same => ?_⟩
          simp [Table.abandon, Table.unlist, take orderId same]

theorem effect_fresh {later : Submission} (queue : Queue table assetId side within lots)
    (unused : table order.orderId = none) (effect : Effect lua order table lots outcome next)
    (fresh : FreshKeys table later.accountId later.orderId) (apart : ApartFrom order later) :
    FreshKeys next later.accountId later.orderId := by
  have stays : ∀ orderId, table orderId = none → orderId ≠ order.orderId → next orderId = none := by
    intro orderId absent away
    cases found : next orderId with
    | none => rfl
    | some after =>
        cases effect_origin queue unused effect found with
        | inl old =>
            obtain ⟨before, there, _⟩ := old
            rw [absent] at there
            cases there
        | inr new => exact absurd new.1 away
  refine ⟨stays _ fresh.order apart.1, ?_, stays _ fresh.account apart.2.2, fresh.apart⟩
  intro other held found
  cases effect_origin queue unused effect found with
  | inl old =>
      obtain ⟨before, there, same, _⟩ := old
      rw [same.account]
      exact fresh.unowned other before there
  | inr new =>
      rw [(resting_made new.2.2).account]
      exact apart.2.1.symm

theorem effect_queue {other : Int32} {otherSide : Book} {otherWithin : Int → Bool} {otherLots : List Lot}
    (queue : Queue table order.assetId side within lots) (unused : table order.orderId = none)
    (effect : Effect lua order table lots outcome next) (different : order.assetId ≠ other)
    (second : Queue table other otherSide otherWithin otherLots) : Queue next other otherSide otherWithin otherLots := by
  refine ⟨fun orderId resting => ?_, second.ordered⟩
  rw [second.mem]
  refine ⟨?_, ?_⟩
  · intro queued
    obtain ⟨there, asset, rest⟩ := queued
    have outside : (orderId, resting) ∉ lots := by
      intro member
      exact different (((queue.mem orderId resting).mp member).2.1.symm.trans asset)
    exact ⟨effect_unqueued queue unused effect there outside, asset, rest⟩
  · intro queued
    obtain ⟨found, asset, rest⟩ := queued
    cases effect_origin queue unused effect found with
    | inr new => exact absurd ((resting_made new.2.2).asset.symm.trans asset) different
    | inl old =>
        obtain ⟨before, there, same, _⟩ := old
        have outside : (orderId, before) ∉ lots := by
          intro member
          exact different (((queue.mem orderId before).mp member).2.1.symm.trans (same.asset.symm.trans asset))
        have kept := effect_unqueued queue unused effect there outside
        obtain rfl := Option.some.inj (kept.symm.trans found)
        exact ⟨there, asset, rest⟩

theorem touches_apart {other : Submission} {otherLots : List Lot} {otherSide : Book} {otherWithin : Int → Bool}
    (different : order.assetId ≠ other.assetId) (apart : order.orderId ≠ other.orderId)
    (queue : Queue table order.assetId side within lots)
    (second : Queue table other.assetId otherSide otherWithin otherLots)
    (unused : table order.orderId = none) (otherUnused : table other.orderId = none) {orderId : Uuid}
    (touches : Touches order lots orderId) : ¬ Touches other otherLots orderId := by
  intro both
  cases touches with
  | inl inQueue =>
      obtain ⟨lot, member, rfl⟩ := List.mem_map.mp inQueue
      obtain ⟨there, asset, _⟩ := (queue.mem lot.1 lot.2).mp member
      cases both with
      | inl inOther =>
          obtain ⟨otherLot, otherMember, same⟩ := List.mem_map.mp inOther
          obtain ⟨otherThere, otherAsset, _⟩ := (second.mem otherLot.1 otherLot.2).mp otherMember
          rw [same, there] at otherThere
          rw [← Option.some.inj otherThere] at otherAsset
          exact different (asset.symm.trans otherAsset)
      | inr own =>
          rw [own, otherUnused] at there
          cases there
  | inr own =>
      subst own
      cases both with
      | inl inOther =>
          obtain ⟨otherLot, otherMember, same⟩ := List.mem_map.mp inOther
          obtain ⟨otherThere, _⟩ := (second.mem otherLot.1 otherLot.2).mp otherMember
          rw [same, unused] at otherThere
          cases otherThere
      | inr same => exact apart same

structure OtherAssetsKept (order : Submission) (before after : Store) : Prop where
  books : ∀ assetId side, assetId ≠ order.assetId → zsetAt after (.book assetId side) = zsetAt before (.book assetId side)
  orders : ∀ orderId assetId, assetId ≠ order.assetId → storedNumber before orderId .assetId = some assetId.toInt →
    hashAt after (.id orderId) = hashAt before (.id orderId) ∧
      ∀ accountId score, (score, orderId) ∈ zsetAt after (.id accountId) ↔ (score, orderId) ∈ zsetAt before (.id accountId)

theorem effect_other_assets {before after : Store} (rep : Represents before table) (nextRep : Represents after next)
    (queue : Queue table order.assetId side within lots) (unused : table order.orderId = none)
    (effect : Effect lua order table lots outcome next) : OtherAssetsKept order before after where
  books other whichSide different := by
    obtain ⟨all, whole, _⟩ := represents_book rep other whichSide
    have still := effect_queue queue unused effect different.symm whole
    apply SortedSet.ext_mem
    intro entry
    rw [nextRep.books, rep.books]
    refine ⟨?_, ?_⟩
    · intro found
      obtain ⟨resting, there, asset, side, score⟩ := found
      have member := (still.mem entry.2 resting).mpr ⟨there, asset, side, rfl⟩
      exact ⟨resting, ((whole.mem entry.2 resting).mp member).1, asset, side, score⟩
    · intro found
      obtain ⟨resting, there, asset, side, score⟩ := found
      have member := (whole.mem entry.2 resting).mpr ⟨there, asset, side, rfl⟩
      exact ⟨resting, ((still.mem entry.2 resting).mp member).1, asset, side, score⟩
  orders orderId other different stored := by
    cases there : table orderId with
    | none =>
        rw [stored_number_none rep there] at stored
        cases stored
    | some resting =>
        rw [stored_number_some rep there] at stored
        have asset : resting.assetId = other := Int32.toInt_inj.mp (Option.some.inj stored)
        have outside : (orderId, resting) ∉ lots := by
          intro member
          exact different (asset.symm.trans ((queue.mem orderId resting).mp member).2.1)
        have kept := effect_unqueued queue unused effect there outside
        refine ⟨by rw [nextRep.hashes, rep.hashes, kept, there], fun accountId score => ?_⟩
        rw [nextRep.accounts, rep.accounts, kept, there]

/-- Two orders for different assets can be executed in either order. -/
theorem assets_independent (lua : Lua) (history : List Execution) (store : Store) (run : Run lua history store)
    (a b : Submission) (freshA : FreshIn history a) (freshB : FreshIn history b) (apart : ApartFrom a b)
    (different : a.assetId ≠ b.assetId) :
    (execute lua a store).1 = (execute lua a (execute lua b store).2).1 ∧
    (execute lua b store).1 = (execute lua b (execute lua a store).2).1 ∧
    (execute lua b (execute lua a store).2).2 = (execute lua a (execute lua b store).2).2 ∧
    OtherAssetsKept a store (execute lua a store).2 ∧
    OtherAssetsKept b (execute lua a store).2 (execute lua b (execute lua a store).2).2 ∧
    OtherAssetsKept b store (execute lua b store).2 ∧
    OtherAssetsKept a (execute lua b store).2 (execute lua a (execute lua b store).2).2 := by
  obtain ⟨table, rep, sound⟩ := run_represents run
  have keysA := sound_fresh sound freshA
  have keysB := sound_fresh sound freshB
  have back : ApartFrom b a := ⟨apart.1.symm, apart.2.2.symm, apart.2.1.symm⟩
  obtain ⟨lotsA, nextA, queueA, effectA, repA⟩ := execute_cases lua rep a keysA
  obtain ⟨lotsB, nextB, queueB, effectB, repB⟩ := execute_cases lua rep b keysB
  obtain ⟨lotsB', nextAB, queueB', effectB', repAB⟩ :=
    execute_cases lua repA b (effect_fresh queueA keysA.order effectA keysB apart)
  obtain ⟨lotsA', nextBA, queueA', effectA', repBA⟩ :=
    execute_cases lua repB a (effect_fresh queueB keysB.order effectB keysA back)
  obtain rfl := queue_unique (effect_queue queueA keysA.order effectA different queueB) queueB'
  obtain rfl := queue_unique (effect_queue queueB keysB.order effectB different.symm queueA) queueA'
  obtain ⟨sameA, localA⟩ := effect_local effectA effectA'
  obtain ⟨sameB, localB⟩ := effect_local effectB effectB'
  have same : nextAB = nextBA := by
    funext orderId
    by_cases byB : Touches b lotsB orderId
    · have notA : ¬ Touches a lotsA orderId :=
        touches_apart different.symm apart.1 queueB queueA keysB.order keysA.order byB
      rw [effect_frame effectA' notA]
      exact (localB orderId (effect_frame effectA notA).symm).symm
    · rw [effect_frame effectB' byB]
      exact localA orderId (effect_frame effectB byB).symm
  have unusedB := (effect_fresh queueA keysA.order effectA keysB apart).order
  have unusedA := (effect_fresh queueB keysB.order effectB keysA back).order
  exact ⟨sameA, sameB, represents_unique repAB (same ▸ repBA), effect_other_assets rep repA queueA keysA.order effectA,
    effect_other_assets repA repAB queueB' unusedB effectB', effect_other_assets rep repB queueB keysB.order effectB,
    effect_other_assets repB repBA queueA' unusedA effectA'⟩

def twoAssets : List Submission :=
  [⟨⟨1⟩, 1, .offers, ⟨10, .limit 3⟩, ⟨11⟩⟩, ⟨⟨1⟩, 2, .offers, ⟨4, .limit 2⟩, ⟨12⟩⟩]

def bidOne : Submission := ⟨⟨2⟩, 1, .bids, ⟨6, .limit 5⟩, ⟨13⟩⟩

def bidTwo : Submission := ⟨⟨2⟩, 2, .bids, ⟨6, .limit 5⟩, ⟨14⟩⟩

theorem assets_independent_two :
    let lua := Lua.exactIntegers 7999
    let store := storeAfter lua emptyKeys twoAssets
    (execute lua bidOne store).1 = (execute lua bidOne (execute lua bidTwo store).2).1 ∧
    (execute lua bidTwo store).1 = (execute lua bidTwo (execute lua bidOne store).2).1 ∧
    (execute lua bidTwo (execute lua bidOne store).2).2 = (execute lua bidOne (execute lua bidTwo store).2).2 ∧
    OtherAssetsKept bidOne store (execute lua bidOne store).2 ∧
    OtherAssetsKept bidTwo (execute lua bidOne store).2 (execute lua bidTwo (execute lua bidOne store).2).2 ∧
    OtherAssetsKept bidTwo store (execute lua bidTwo store).2 ∧
    OtherAssetsKept bidOne (execute lua bidTwo store).2 (execute lua bidOne (execute lua bidTwo store).2).2 :=
  assets_independent (.exactIntegers 7999) (executions (.exactIntegers 7999) emptyKeys twoAssets) _
    (executions_run _ twoAssets (by decide)) bidOne bidTwo (by decide) (by decide) (by decide) (by decide)

end MktSim
