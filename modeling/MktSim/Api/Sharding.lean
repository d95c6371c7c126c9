import MktSim.Api.Independence

set_option autoImplicit false

namespace MktSim

open Redis SortedSets Greedy Runs

def ordersFor (assetId : Int32) (history : List Execution) : List Submission :=
  (history.map Execution.order).filter fun order => order.assetId = assetId

def Execution.answer (execution : Execution) : Submission × Except ScriptError Reply := (execution.order, execution.outcome)

def answersFor (assetId : Int32) (history : List Execution) : List (Submission × Except ScriptError Reply) :=
  (history.map Execution.answer).filter fun answer => answer.1.assetId = assetId

def Table.shard (assetId : Int32) (table : Table) : Table :=
  fun orderId => (table orderId).filter fun resting => resting.assetId = assetId

section Shard

variable {table : Table} {assetId : Int32} {orderId : Uuid} {resting : Resting}

theorem shard_some : table.shard assetId orderId = some resting ↔ table orderId = some resting ∧ resting.assetId = assetId := by
  rw [Table.shard, Option.filter_eq_some_iff, decide_eq_true_iff]

theorem shard_whole (own : ∀ resting, table orderId = some resting → resting.assetId = assetId) :
    table.shard assetId orderId = table orderId :=
  Option.ext fun resting => shard_some.trans ⟨And.left, fun found => ⟨found, own resting found⟩⟩

theorem shard_cases (table : Table) (assetId : Int32) (orderId : Uuid) :
    (∀ resting, table orderId = some resting → resting.assetId = assetId) ∨
      ∃ resting, table orderId = some resting ∧ resting.assetId ≠ assetId := by
  by_cases own : ∀ resting, table orderId = some resting → resting.assetId = assetId
  · exact .inl own
  · obtain ⟨resting, other⟩ := not_forall.mp own
    exact .inr ⟨resting, Classical.not_imp.mp other⟩

theorem shard_queue {side : Book} {within : Int → Bool} {lots : List Lot} :
    Queue (table.shard assetId) assetId side within lots ↔ Queue table assetId side within lots := by
  have mem : ∀ orderId order, (table.shard assetId orderId = some order ∧ order.assetId = assetId ∧ order.side = side ∧
      within order.score = true) ↔ (table orderId = some order ∧ order.assetId = assetId ∧ order.side = side ∧
        within order.score = true) := by
    intro orderId order
    rw [shard_some]
    tauto
  constructor
  · intro queue
    exact ⟨fun orderId order => (queue.mem orderId order).trans (mem orderId order), queue.ordered⟩
  · intro queue
    exact ⟨fun orderId order => (queue.mem orderId order).trans (mem orderId order).symm, queue.ordered⟩

theorem table_shards {other : Table} (same : ∀ assetId, table.shard assetId = other.shard assetId) : table = other := by
  have within : ∀ {first second : Table}, (∀ assetId, first.shard assetId = second.shard assetId) →
      ∀ orderId resting, first orderId = some resting → second orderId = some resting := by
    intro first second same orderId resting found
    have part : first.shard resting.assetId orderId = some resting := shard_some.mpr ⟨found, rfl⟩
    rw [same] at part
    exact (shard_some.mp part).1
  funext orderId
  exact Option.ext fun resting => ⟨within same orderId resting, within (fun assetId => (same assetId).symm) orderId resting⟩

end Shard

theorem represents_injective {store : Store} {table other : Table} (rep : Represents store table)
    (again : Represents store other) : table = other := by
  have within : ∀ {first second : Table}, Represents store first → Represents store second →
      ∀ orderId resting, first orderId = some resting → second orderId = some resting := by
    intro first second rep again orderId resting found
    have inBook := (rep.books resting.assetId resting.side (resting.score, orderId)).mpr ⟨resting, found, rfl, rfl, rfl⟩
    obtain ⟨entry, there, asset, side, _⟩ := (again.books _ _ _).mp inBook
    have hash : resting.hash = entry.hash :=
      Option.some.inj ((represents_hash rep found).symm.trans (represents_hash again there))
    have account : resting.accountId = entry.accountId := by simpa [Resting.hash] using congrFun hash .accountId
    have price : resting.price = entry.price := by simpa [Resting.hash, Int32.toInt_inj] using congrFun hash .price
    have size : resting.size = entry.size := by simpa [Resting.hash] using congrFun hash .size
    have original : resting.originalSize = entry.originalSize := by simpa [Resting.hash] using congrFun hash .originalSize
    have dollars : resting.dollarVolumeFilled = entry.dollarVolumeFilled := by
      simpa [Resting.hash] using congrFun hash .dollarVolumeFilled
    have listed : resting.listed = true ↔ entry.listed = true := by
      have first := rep.accounts resting.accountId (0, orderId)
      have second := again.accounts resting.accountId (0, orderId)
      simp only [found, there, account, Option.some.injEq, exists_eq_left', true_and, and_true] at first second
      exact first.symm.trans second
    rw [there]
    obtain ⟨accountId, assetId, side', price', size', original', dollars', listed', open_, within, bounded⟩ := entry
    obtain rfl : resting = ⟨accountId, assetId, side', price', size', original', dollars', listed', open_, within, bounded⟩ := by
      cases resting
      simp only at account asset side price size original dollars listed
      have listed := Bool.eq_iff_iff.mpr listed
      subst account asset side price size original dollars listed
      rfl
    rfl
  funext orderId
  exact Option.ext fun resting => ⟨within rep again orderId resting, within again rep orderId resting⟩

section Step

variable {lua : Lua} {assetId : Int32} {execution : Execution} {table next : Table} {lots : List Lot}
  (executed : Executed lua execution table lots next)

include executed

theorem shard_kept (different : execution.order.assetId ≠ assetId) : next.shard assetId = table.shard assetId := by
  funext orderId
  refine Option.ext fun resting => ?_
  rw [shard_some, shard_some]
  constructor
  · intro after
    rcases after with ⟨found, asset⟩
    cases effect_origin executed.queue executed.fresh.order executed.effect found with
    | inr new => exact absurd ((resting_made new.2.2).asset.symm.trans asset) different
    | inl old =>
        obtain ⟨before, there, same, _⟩ := old
        have outside : (orderId, before) ∉ lots := by
          intro member
          exact different (((executed.queue.mem orderId before).mp member).2.1.symm.trans (same.asset.symm.trans asset))
        have kept := effect_unqueued executed.queue executed.fresh.order executed.effect there outside
        obtain rfl := Option.some.inj (kept.symm.trans found)
        exact ⟨there, asset⟩
  · intro before
    rcases before with ⟨there, asset⟩
    have outside : (orderId, resting) ∉ lots := by
      intro member
      exact different (((executed.queue.mem orderId resting).mp member).2.1.symm.trans asset)
    exact ⟨effect_unqueued executed.queue executed.fresh.order executed.effect there outside, asset⟩

-- An order at rest for another asset stays where it is, and so outside the shard.
theorem shard_empties (own : execution.order.assetId = assetId) {orderId : Uuid} {resting : Resting}
    (there : table orderId = some resting) (different : resting.assetId ≠ assetId) : next.shard assetId orderId = none := by
  have outside : (orderId, resting) ∉ lots := by
    intro member
    exact different (((executed.queue.mem orderId resting).mp member).2.1.trans own)
  have kept := effect_unqueued executed.queue executed.fresh.order executed.effect there outside
  refine Option.eq_none_iff_forall_ne_some.mpr fun after found => ?_
  obtain ⟨found, asset⟩ := shard_some.mp found
  obtain rfl := Option.some.inj (kept.symm.trans found)
  exact different asset

theorem shard_followed (own : execution.order.assetId = assetId) {alone : Execution} {partNext : Table} {partLots : List Lot}
    (order : alone.order = execution.order) (follows : Executed lua alone (table.shard assetId) partLots partNext) :
    alone.outcome = execution.outcome ∧ partNext = next.shard assetId := by
  have queue := follows.queue
  have effect := follows.effect
  rw [order] at queue effect
  have same : lots = partLots := by
    subst own
    exact queue_unique executed.queue (shard_queue.mp queue)
  subst same
  obtain ⟨outcome, agrees⟩ := effect_local executed.effect effect
  refine ⟨outcome.symm, ?_⟩
  funext orderId
  cases shard_cases table assetId orderId with
  | inl mine =>
      rw [← agrees orderId (shard_whole mine).symm]
      refine (shard_whole fun resting found => ?_).symm
      cases effect_origin executed.queue executed.fresh.order executed.effect found with
      | inl old =>
          obtain ⟨before, there, same, _⟩ := old
          exact same.asset.trans (mine before there)
      | inr new => exact (resting_made new.2.2).asset.trans own
  | inr theirs =>
      obtain ⟨resting, there, different⟩ := theirs
      rw [shard_empties executed own there different]
      refine Option.eq_none_iff_forall_ne_some.mpr fun after found => ?_
      cases effect_origin follows.queue follows.fresh.order follows.effect found with
      | inl old =>
          obtain ⟨before, part, _⟩ := old
          obtain ⟨found, asset⟩ := shard_some.mp part
          obtain rfl := Option.some.inj (there.symm.trans found)
          exact different asset
      | inr new =>
          have unused := executed.fresh.order
          rw [← order, ← new.1, there] at unused
          cases unused

end Step

structure ShardOf (assetId : Int32) (table : Table) (history : List Execution) (store : Store) (alone : List Execution)
    (shard : Store) : Prop where
  whole : Represents store table
  sound : Sound history table
  part : Represents shard (table.shard assetId)
  partSound : Sound alone (table.shard assetId)
  answers : alone.map Execution.answer = answersFor assetId history

theorem orders_answers (assetId : Int32) (history : List Execution) :
    (answersFor assetId history).map Prod.fst = ordersFor assetId history := by
  rw [answersFor, ordersFor, List.filter_map, List.filter_map, List.map_map]
  rfl

theorem alone_orders {assetId : Int32} {table : Table} {history alone : List Execution} {store shard : Store}
    (sharded : ShardOf assetId table history store alone shard) : alone.map Execution.order = ordersFor assetId history := by
  rw [← orders_answers, ← sharded.answers, List.map_map]
  rfl

theorem run_sharded {lua : Lua} {history : List Execution} {store : Store} (run : Run lua history store) (assetId : Int32) :
    ∃ alone shard, Run lua alone shard ∧ ∃ table, ShardOf assetId table history store alone shard := by
  refine trace_simulates (fun history store alone shard => ∃ table, ShardOf assetId table history store alone shard) ?_ ?_ run
  · refine ⟨emptyTable, empty_represents, ?_, empty_represents, ?_, rfl⟩
    · intro orderId resting found
      cases found
    · intro orderId resting found
      cases found
  · rintro history store execution after alone shard _ ⟨table, sharded⟩ step
    obtain ⟨lots, next, executed, rfl⟩ := step_executed sharded.whole sharded.sound step
    have sound := execution_sound sharded.sound executed
    by_cases own : execution.order.assetId = assetId
    · right
      have fresh : FreshIn alone execution.order := by
        refine ⟨step.1.1, fun earlier member => ?_⟩
        have known : earlier.order ∈ ordersFor assetId history := alone_orders sharded ▸ List.mem_map_of_mem member
        obtain ⟨other, there, same⟩ := List.mem_map.mp (List.mem_of_mem_filter known)
        rw [← same]
        exact step.1.2 other there
      have again : ScriptStep lua alone shard (executionOf lua execution.order shard) (executionOf lua execution.order shard).after :=
        ⟨fresh, rfl, rfl⟩
      obtain ⟨partLots, partNext, follows, _⟩ := step_executed sharded.part sharded.partSound again
      obtain ⟨outcome, same⟩ := @shard_followed lua assetId execution table next lots executed own (executionOf lua execution.order shard) _ _ rfl follows
      refine ⟨_, _, again, next, executed.after, sound, same ▸ follows.after, same ▸ execution_sound sharded.partSound follows, ?_⟩
      rw [List.map_append, sharded.answers]
      simp [answersFor, Execution.answer, own, ← outcome]
      rfl
    · left
      refine ⟨next, executed.after, sound, ?_, ?_, ?_⟩
      · rw [shard_kept executed own]
        exact sharded.part
      · rw [shard_kept executed own]
        exact sharded.partSound
      · rw [sharded.answers]
        simp [answersFor, Execution.answer, own]

theorem run_determined {lua : Lua} {history again : List Execution} {store other : Store} (run : Run lua history store)
    (repeated : Run lua again other) (same : history.map Execution.order = again.map Execution.order) :
    history = again ∧ store = other := by
  refine trace_determined Execution.order ?_ run repeated same
  rintro history store first next second last ⟨_, made, rfl⟩ ⟨_, remade, rfl⟩ order
  rw [order, ← remade] at made
  exact ⟨made, congrArg Execution.after made⟩

-- Every asset has a market of its own: run alone, its orders are answered as they were, and leave its books,
-- its orders and its part of the accounts' sets.
structure AssetAlone (assetId : Int32) (history : List Execution) (store : Store) (alone : List Execution) (shard : Store) :
    Prop where
  answers : alone.map Execution.answer = answersFor assetId history
  books : ∀ other side, zsetAt shard (.book other side) = if other = assetId then zsetAt store (.book other side) else .empty
  orders : ∀ orderId, hashAt shard (.id orderId) =
    if storedNumber store orderId .assetId = some assetId.toInt then hashAt store (.id orderId) else none
  accounts : ∀ accountId score orderId, (score, orderId) ∈ zsetAt shard (.id accountId) ↔
    (score, orderId) ∈ zsetAt store (.id accountId) ∧ storedNumber store orderId .assetId = some assetId.toInt

theorem stored_asset {store : Store} {table : Table} (rep : Represents store table) (orderId : Uuid) (assetId : Int32) :
    storedNumber store orderId .assetId = some assetId.toInt ↔ ∃ resting, table orderId = some resting ∧ resting.assetId = assetId := by
  cases there : table orderId with
  | none => simp [stored_number_none rep there]
  | some resting => simp [stored_number_some rep there, Resting.hash, tonumber, Int32.toInt_inj]

section Alone

variable {assetId : Int32} {table : Table} {history alone : List Execution} {store shard : Store}
  (sharded : ShardOf assetId table history store alone shard)

include sharded

theorem sharded_books (other : Int32) (side : Book) :
    zsetAt shard (.book other side) = if other = assetId then zsetAt store (.book other side) else .empty := by
  apply SortedSet.ext_mem
  intro entry
  rw [sharded.part.books]
  simp only [shard_some]
  split
  case isTrue own =>
    rw [sharded.whole.books]
    subst own
    constructor
    · intro inShard
      rcases inShard with ⟨resting, ⟨there, _⟩, rest⟩
      exact ⟨resting, there, rest⟩
    · intro inBook
      rcases inBook with ⟨resting, there, rest⟩
      exact ⟨resting, ⟨there, rest.1⟩, rest⟩
  case isFalse different =>
    constructor
    · intro inShard
      rcases inShard with ⟨resting, ⟨_, asset⟩, rest⟩
      exact absurd (rest.1.symm.trans asset) different
    · intro member
      exact absurd member (SortedSet.not_mem_empty entry)

theorem sharded_hashes (orderId : Uuid) : hashAt shard (.id orderId) =
    if storedNumber store orderId .assetId = some assetId.toInt then hashAt store (.id orderId) else none := by
  have stored := stored_asset sharded.whole orderId assetId
  rw [sharded.part.hashes, sharded.whole.hashes]
  cases there : table orderId with
  | none => simp [Table.shard, there]
  | some resting =>
      rw [there] at stored
      by_cases asset : resting.assetId = assetId
      · rw [if_pos (stored.mpr ⟨resting, rfl, asset⟩), shard_some.mpr ⟨there, asset⟩]
      · have apart : ¬ storedNumber store orderId .assetId = some assetId.toInt := by
          intro same
          obtain ⟨other, own, belongs⟩ := stored.mp same
          rw [Option.some.inj own] at asset
          exact asset belongs
        rw [if_neg apart]
        simp [Table.shard, there, asset]

theorem sharded_accounts (accountId : Uuid) (score : Int) (orderId : Uuid) :
    (score, orderId) ∈ zsetAt shard (.id accountId) ↔
      (score, orderId) ∈ zsetAt store (.id accountId) ∧ storedNumber store orderId .assetId = some assetId.toInt := by
  rw [sharded.part.accounts, sharded.whole.accounts, stored_asset sharded.whole]
  simp only [shard_some]
  constructor
  · intro inShard
    rcases inShard with ⟨resting, ⟨there, asset⟩, rest⟩
    exact ⟨⟨resting, there, rest⟩, resting, there, asset⟩
  · intro inSet
    rcases inSet with ⟨⟨resting, there, rest⟩, other, again, asset⟩
    obtain rfl := Option.some.inj (there.symm.trans again)
    exact ⟨resting, ⟨there, asset⟩, rest⟩

end Alone

/-- Whatever is executed for other assets in between, the orders of an asset fare as they do
without them. -/
theorem asset_alone (lua : Lua) (history : List Execution) (store : Store) (run : Run lua history store) (assetId : Int32) :
    ∃ alone shard, Run lua alone shard ∧ AssetAlone assetId history store alone shard := by
  obtain ⟨alone, shard, follows, table, sharded⟩ := run_sharded run assetId
  exact ⟨alone, shard, follows, sharded.answers, sharded_books sharded, sharded_hashes sharded, sharded_accounts sharded⟩

def oneThenTwo : List Submission := twoAssets ++ [bidOne, bidTwo]

theorem asset_alone_one :
    ∃ alone shard, Run (.exactIntegers 7999) alone shard ∧
      AssetAlone 1 (executions (.exactIntegers 7999) emptyKeys oneThenTwo) (storeAfter (.exactIntegers 7999) emptyKeys oneThenTwo)
        alone shard :=
  asset_alone (.exactIntegers 7999) _ _ (executions_run _ oneThenTwo (by decide)) 1

/-- However the orders of different assets interleave, every reply and the store are decided by the orders of each asset alone. -/
theorem interleavings_agree (lua : Lua) (history again : List Execution) (store other : Store) (run : Run lua history store)
    (repeated : Run lua again other) (same : ∀ assetId, ordersFor assetId history = ordersFor assetId again) :
    store = other ∧ ∀ assetId, answersFor assetId history = answersFor assetId again := by
  obtain ⟨table, rep, _⟩ := run_represents run
  obtain ⟨next, nextRep, _⟩ := run_represents repeated
  have shards : ∀ assetId, table.shard assetId = next.shard assetId ∧ answersFor assetId history = answersFor assetId again := by
    intro assetId
    obtain ⟨alone, shard, follows, whole, sharded⟩ := run_sharded run assetId
    obtain ⟨apart, part, goes, entire, parted⟩ := run_sharded repeated assetId
    obtain ⟨rfl, rfl⟩ := run_determined follows goes ((alone_orders sharded).trans ((same assetId).trans (alone_orders parted).symm))
    refine ⟨?_, sharded.answers.symm.trans parted.answers⟩
    rw [represents_injective rep sharded.whole, represents_injective nextRep parted.whole]
    exact represents_injective sharded.part parted.part
  have tables : table = next := table_shards fun assetId => (shards assetId).1
  exact ⟨represents_unique rep (tables ▸ nextRep), fun assetId => (shards assetId).2⟩

def twoThenOne : List Submission := [⟨⟨1⟩, 2, .offers, ⟨4, .limit 2⟩, ⟨12⟩⟩, bidTwo, ⟨⟨1⟩, 1, .offers, ⟨10, .limit 3⟩, ⟨11⟩⟩, bidOne]

theorem executed_orders (lua : Lua) (store : Store) (orders : List Submission) :
    (executions lua store orders).map Execution.order = orders := by
  induction orders generalizing store with
  | nil => rfl
  | cons order rest ih => exact congrArg (order :: ·) (ih _)

theorem same_by_asset (assetId : Int32) (lua : Lua) : ordersFor assetId (executions lua emptyKeys oneThenTwo) =
    ordersFor assetId (executions lua emptyKeys twoThenOne) := by
  rw [ordersFor, ordersFor, executed_orders, executed_orders]
  by_cases one : (1 : Int32) = assetId
  · subst one
    rfl
  · by_cases two : (2 : Int32) = assetId
    · subst two
      rfl
    · simp [oneThenTwo, twoAssets, twoThenOne, bidOne, bidTwo, one, two]

theorem interleavings_agree_two :
    let lua := Lua.exactIntegers 7999
    storeAfter lua emptyKeys oneThenTwo = storeAfter lua emptyKeys twoThenOne ∧
      ∀ assetId, answersFor assetId (executions lua emptyKeys oneThenTwo) = answersFor assetId (executions lua emptyKeys twoThenOne) :=
  interleavings_agree (.exactIntegers 7999) _ _ _ _ (executions_run _ oneThenTwo (by decide)) (executions_run _ twoThenOne (by decide))
    fun assetId => same_by_asset assetId _

end MktSim
