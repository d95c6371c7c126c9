import MktSim.Api.Sharding
import MktSim.Api.Views

set_option autoImplicit false

namespace MktSim

open Redis SortedSets Greedy Runs

structure Remains (before after : Resting) : Prop where
  same : SameOrder after before
  size : after.size ≤ before.size
  listed : after.listed = true → before.listed = true

theorem remains_refl (resting : Resting) : Remains resting resting := ⟨⟨rfl, rfl, rfl, rfl, rfl, rfl⟩, Nat.le_refl _, id⟩

theorem remains_trans {first second third : Resting} (earlier : Remains first second) (later : Remains second third) :
    Remains first third where
  same := ⟨later.same.account.trans earlier.same.account, later.same.asset.trans earlier.same.asset,
    later.same.side.trans earlier.same.side, later.same.price.trans earlier.same.price,
    later.same.original.trans earlier.same.original, later.same.dollars.trans earlier.same.dollars⟩
  size := later.size.trans earlier.size
  listed := earlier.listed ∘ later.listed

theorem effect_unlists {lua : Lua} {order : Submission} {table next : Table} {assetId : Int32} {side : Book}
    {within : Int → Bool} {lots : List Lot} {outcome : Except ScriptError Reply} (queue : Queue table assetId side within lots)
    (unused : table order.orderId = none) (effect : Effect lua order table lots outcome next) {orderId : Uuid}
    {before after : Resting} (there : table orderId = some before) (found : next orderId = some after)
    (listed : after.listed = true) : before.listed = true := by
  have reduced : (if (orderId, before) ∈ (order.fill lots).completed then none
      else some (before.reduce (order.taken lots (orderId, before)))) = some after → before.listed = true := by
    intro kept
    split at kept
    · cases kept
    · obtain rfl := Option.some.inj kept
      simpa using listed
  cases effect with
  | complete =>
      rw [complete_maker lua queue unused there] at found
      exact reduced found
  | abandon =>
      rw [abandon_maker queue there] at found
      by_cases done : (orderId, before) ∈ (order.fill lots).completed
      · rw [if_pos done] at found
        obtain rfl := Option.some.inj found
        cases listed
      · rw [if_neg done] at found
        rw [if_neg done] at reduced
        exact reduced found

theorem execution_remains {lua : Lua} {execution : Execution} {table next : Table} {lots : List Lot}
    (executed : Executed lua execution table lots next) {orderId : Uuid} {after : Resting} (found : next orderId = some after)
    (other : orderId ≠ execution.order.orderId) : ∃ before, table orderId = some before ∧ Remains before after := by
  cases effect_origin executed.queue executed.fresh.order executed.effect found with
  | inl old =>
      obtain ⟨before, there, same, size⟩ := old
      exact ⟨before, there, same, size, effect_unlists executed.queue executed.fresh.order executed.effect there found⟩
  | inr new => exact absurd new.1 other

theorem run_remains {lua : Lua} {earlier : List Execution} {store : Store} {table : Table} (run : Run lua earlier store)
    (rep : Represents store table) (more : List Execution) {last : Store} {next : Table}
    (later : Run lua (earlier ++ more) last) (lastRep : Represents last next) {execution : Execution}
    (known : execution ∈ earlier) {after : Resting} (found : next execution.order.orderId = some after) :
    ∃ before, table execution.order.orderId = some before ∧ Remains before after := by
  induction more using List.reverseRecOn generalizing last next after with
  | nil =>
      rw [List.append_nil] at later
      obtain ⟨_, rfl⟩ := run_determined run later rfl
      obtain rfl := represents_injective rep lastRep
      exact ⟨after, found, remains_refl after⟩
  | append_singleton more event ih =>
      rw [← List.append_assoc] at later
      obtain ⟨state, shorter, step⟩ := trace_last later
      obtain ⟨between, betweenRep, sound⟩ := run_represents shorter
      have apart : execution.order.orderId ≠ event.order.orderId :=
        (step.1.2 execution (List.mem_append_left _ known)).1.symm
      obtain ⟨lots, made, executed, rfl⟩ := step_executed betweenRep sound step
      obtain rfl := represents_injective executed.after lastRep
      obtain ⟨held, there, remains⟩ := execution_remains executed found apart
      obtain ⟨before, was, kept⟩ := ih shorter betweenRep there
      exact ⟨before, was, remains_trans kept remains⟩

inductive OrderList where
  | account (accountId : Uuid)
  | book (assetId : Int32) (side : Book)

def OrderList.Entry : OrderList → Type
  | .account _ => OrderBookEntry
  | .book _ _ => AnonymizedOrderBookEntry

def OrderList.item : (list : OrderList) → OrderBookEntry → list.Entry
  | .account _, entry => entry
  | .book _ _, entry => AnonymizedOrderBookEntry.mk entry.price entry.size

def OrderList.key : OrderList → Key
  | .account accountId => .id accountId
  | .book assetId side => .book assetId side

def OrderList.request : (list : OrderList) → Scan Uuid → Option Nat → Store → Except ListError (CursorList list.Entry)
  | .account accountId, scan, cursor, store => listOrdersForAccount scan accountId cursor store
  | .book assetId side, scan, cursor, store => getOrderBook scan assetId side cursor store

def OrderList.orders (list : OrderList) (store : Store) : List Uuid := (zsetAt store list.key).entries.map Prod.snd

def OrderList.Holds : OrderList → Resting → Prop
  | .account accountId, resting => resting.accountId = accountId ∧ resting.listed = true
  | .book assetId side, resting => resting.assetId = assetId ∧ resting.side = side

def OrderList.Free : OrderList → List Execution → Prop
  | .account accountId, history => ∀ execution ∈ history, execution.order.orderId ≠ accountId
  | .book _ _, _ => True

section Page

variable {list : OrderList} {store : Store} {table : Table} (rep : Represents store table)

include rep

theorem mem_order_list {orderId : Uuid} :
    orderId ∈ list.orders store ↔ ∃ resting, table orderId = some resting ∧ list.Holds resting := by
  cases list with
  | account accountId =>
      constructor
      · intro member
        obtain ⟨entry, inSet, rfl⟩ := List.mem_map.mp member
        obtain ⟨resting, there, account, listed, _⟩ := (rep.accounts accountId entry).mp inSet
        exact ⟨resting, there, account, listed⟩
      · intro present
        rcases present with ⟨resting, there, account, listed⟩
        exact List.mem_map.mpr ⟨(0, orderId), (rep.accounts accountId _).mpr ⟨resting, there, account, listed, rfl⟩, rfl⟩
  | book assetId side => exact mem_book_orders rep

theorem order_list_page {history : List Execution} (sound : Sound history table) (free : list.Free history) (scan : Scan Uuid)
    (cursor : Option Nat) {reply : CursorList list.Entry} (answered : list.request scan cursor store = .ok reply) :
    reply.items = (scan.call (zsetAt store list.key) (cursor.getD 0)).2.map fun orderId => list.item (heldEntry table orderId) := by
  cases list with
  | account accountId =>
      have unused : hashAt store (.id accountId) = none := by
        by_contra used
        obtain ⟨resting, there⟩ := (hash_iff rep accountId).mp used
        obtain ⟨execution, member, same, _⟩ := sound accountId resting there
        exact free execution member same
      have page := scan_orders_page scan unused (account_reads rep) (account_decodes rep) cursor
      exact congrArg CursorList.items (Except.ok.inj (answered.symm.trans page))
  | book assetId side =>
      have page := scan_orders_page scan (represents_book_free rep assetId side) (book_reads rep) (book_decodes rep) cursor
      exact congrArg CursorList.items (Except.ok.inj (answered.symm.trans page))

end Page

structure PageRead (list : OrderList) where
  history : List Execution
  store : Store
  scan : Scan Uuid
  cursor : Option Nat
  reply : CursorList list.Entry

def PageRead.members {list : OrderList} (read : PageRead list) : List Uuid :=
  (read.scan.call (zsetAt read.store list.key) (read.cursor.getD 0)).2

structure PageRead.Answered {list : OrderList} (lua : Lua) (read : PageRead list) : Prop where
  run : Run lua read.history read.store
  answered : list.request read.scan read.cursor read.store = .ok read.reply

-- The pages of a client that asks again with the cursor of each reply, whatever is executed in between.
inductive PagedFrom (lua : Lua) {list : OrderList} : PageRead list → List (PageRead list) → PageRead list → Prop where
  | last (read : PageRead list) (page : read.Answered lua) (ended : read.reply.cursor = none) : PagedFrom lua read [read] read
  | more (read next final : PageRead list) (reads : List (PageRead list)) (page : read.Answered lua)
      (open_ : read.reply.cursor ≠ none) (goesOn : next.cursor = read.reply.cursor) (later : read.history <+: next.history)
      (rest : PagedFrom lua next reads final) : PagedFrom lua read (read :: reads) final

theorem paged_reads {lua : Lua} {list : OrderList} {first final : PageRead list} {reads : List (PageRead list)}
    (paged : PagedFrom lua first reads final) :
    first ∈ reads ∧ final ∈ reads ∧ ∀ read ∈ reads, read.Answered lua ∧ first.history <+: read.history ∧
      read.history <+: final.history := by
  induction paged with
  | last read page ended => simp [page]
  | more read next final reads page open_ goesOn later _ ih =>
      obtain ⟨started, ended, each⟩ := ih
      have whole := later.trans (each next started).2.2
      refine ⟨List.mem_cons_self, List.mem_cons_of_mem _ ended, fun other member => ?_⟩
      cases List.mem_cons.mp member with
      | inl same =>
          rw [same]
          exact ⟨page, List.prefix_rfl, whole⟩
      | inr inRest =>
          obtain ⟨answered, after, before⟩ := each other inRest
          exact ⟨answered, later.trans after, before⟩

-- What is promised of a full iteration over a set that changes: a member that is there from its first call
-- to its last is returned.
def FullIteration (lua : Lua) {list : OrderList} (first : PageRead list) (reads : List (PageRead list)) (final : PageRead list) :
    Prop :=
  first.cursor = none → ∀ orderId,
    (∀ history store, first.history <+: history → history <+: final.history → Run lua history store →
      orderId ∈ list.orders store) →
    ∃ read ∈ reads, orderId ∈ read.members

theorem holds_remains {list : OrderList} {before after : Resting} (remains : Remains before after) (holds : list.Holds after) :
    list.Holds before := by
  cases list with
  | account accountId => exact ⟨remains.same.account.symm.trans holds.1, remains.listed holds.2⟩
  | book assetId side => exact ⟨remains.same.asset.symm.trans holds.1, remains.same.side.symm.trans holds.2⟩

theorem free_before {list : OrderList} {history more : List Execution} (free : list.Free more) (earlier : history <+: more) :
    list.Free history := by
  cases list with
  | account accountId => exact fun execution member => free execution (earlier.subset member)
  | book assetId side => trivial

theorem shown_size (resting : Resting) : (entryOf resting).size.toNat = resting.size := by
  have within := resting.within
  have bounded := resting.bounded
  have small : resting.size < UInt32.size := Nat.lt_of_le_of_lt within (by omega)
  exact UInt32.toNat_ofNat_of_lt' small

section Paged

variable {lua : Lua} {list : OrderList} {first final : PageRead list} {reads : List (PageRead list)}
  (paged : PagedFrom lua first reads final)

include paged

-- An order that is at rest when the last page is read was in the list all the time, if it was when the first was read.
theorem paged_remains {orderId : Uuid} (started : orderId ∈ list.orders first.store) (ended : orderId ∈ list.orders final.store)
    {history : List Execution} {store : Store} (run : Run lua history store) (after : first.history <+: history)
    (before : history <+: final.history) {table : Table} (rep : Represents store table) :
    ∃ resting, table orderId = some resting ∧ list.Holds resting ∧
      resting.price.toInt = restingPrice first.store orderId ∧
      restingSize final.store orderId ≤ resting.size ∧ resting.size ≤ restingSize first.store orderId := by
  have each := (paged_reads paged).2.2
  obtain ⟨_, firstRep, sound⟩ := run_represents (each first (paged_reads paged).1).1.run
  obtain ⟨_, finalRep, _⟩ := run_represents (each final (paged_reads paged).2.1).1.run
  obtain ⟨initial, wasThere, _⟩ := (mem_order_list firstRep).mp started
  obtain ⟨left, isThere, holds⟩ := (mem_order_list finalRep).mp ended
  obtain ⟨execution, known, rfl, _⟩ := sound orderId initial wasThere
  obtain ⟨more, whole⟩ := before
  obtain ⟨resting, there, remains⟩ := run_remains run rep more (whole ▸ (each final (paged_reads paged).2.1).1.run) finalRep
    (after.subset known) isThere
  obtain ⟨done, sameHistory⟩ := after
  obtain ⟨initial', there', remained⟩ := run_remains (each first (paged_reads paged).1).1.run firstRep done (sameHistory ▸ run) rep
    known there
  obtain rfl := Option.some.inj (wasThere.symm.trans there')
  refine ⟨resting, there, holds_remains remains holds, ?_, ?_, ?_⟩
  · rw [resting_price_some firstRep wasThere, remained.same.price]
  · rw [resting_size_some finalRep isThere]
    exact remains.size
  · rw [resting_size_some firstRep wasThere]
    exact remained.size

theorem paged_at_rest (free : list.Free final.history) {read : PageRead list} (member : read ∈ reads) {item : list.Entry} (shown : item ∈ read.reply.items) :
    ∃ orderId ∈ list.orders read.store, ∃ entry, shownEntry read.store orderId = some entry ∧ item = list.item entry := by
  obtain ⟨page, _, earlier⟩ := (paged_reads paged).2.2 read member
  obtain ⟨table, rep, sound⟩ := run_represents page.run
  rw [order_list_page rep sound (free_before free earlier) read.scan read.cursor page.answered] at shown
  obtain ⟨orderId, inPage, rfl⟩ := List.mem_map.mp shown
  have inList : orderId ∈ list.orders read.store := read.scan.members _ _ orderId inPage
  obtain ⟨resting, there, _⟩ := (mem_order_list rep).mp inList
  refine ⟨orderId, inList, heldEntry table orderId, ?_, rfl⟩
  rw [shown_some rep there, heldEntry, there]
  rfl

end Paged

/-- While orders are executed between the pages, every order that stays listed is returned, at its
price and with a size between what it had first and what it has last, and nothing is returned
that is not at rest then. -/
theorem pages_while_trading (lua : Lua) (list : OrderList) (first final : PageRead list) (reads : List (PageRead list))
    (paged : PagedFrom lua first reads final) (begun : first.cursor = none) (full : FullIteration lua first reads final)
    (free : list.Free final.history) :
    (∀ read ∈ reads, ∀ item ∈ read.reply.items, ∃ orderId ∈ list.orders read.store, ∃ entry,
      shownEntry read.store orderId = some entry ∧ item = list.item entry) ∧
      ∀ orderId ∈ list.orders first.store, orderId ∈ list.orders final.store →
        ∃ read ∈ reads, ∃ entry, shownEntry read.store orderId = some entry ∧ list.item entry ∈ read.reply.items ∧
          entry.price.toInt = restingPrice first.store orderId ∧
          restingSize final.store orderId ≤ entry.size.toNat ∧ entry.size.toNat ≤ restingSize first.store orderId := by
  refine ⟨fun read member item shown => paged_at_rest paged free member shown, fun orderId started ended => ?_⟩
  obtain ⟨read, member, inPage⟩ := full begun orderId fun history store after before run => by
    obtain ⟨table, rep, _⟩ := run_represents run
    obtain ⟨resting, there, holds, _⟩ := paged_remains paged started ended run after before rep
    exact (mem_order_list rep).mpr ⟨resting, there, holds⟩
  obtain ⟨page, after, before⟩ := (paged_reads paged).2.2 read member
  obtain ⟨table, rep, sound⟩ := run_represents page.run
  obtain ⟨resting, there, _, price, least, most⟩ := paged_remains paged started ended page.run after before rep
  refine ⟨read, member, entryOf resting, shown_some rep there, ?_, price, ?_, ?_⟩
  · rw [order_list_page rep sound (free_before free before) read.scan read.cursor page.answered]
    refine List.mem_map.mpr ⟨orderId, inPage, ?_⟩
    rw [heldEntry, there]
    rfl
  · rw [shown_size]
    exact least
  · rw [shown_size]
    exact most

-- A client reads two offers a page each, and the first is bid for in between.
def twoOffers : List Submission := [⟨⟨1⟩, 1, .offers, ⟨10, .limit 3⟩, ⟨11⟩⟩, ⟨⟨1⟩, 1, .offers, ⟨2, .limit 4⟩, ⟨13⟩⟩]

def thenBid : List Submission := twoOffers ++ [⟨⟨2⟩, 1, .bids, ⟨4, .limit 5⟩, ⟨12⟩⟩]

def firstPage : PageRead (.book 1 .offers) where
  history := executions (.exactIntegers 7999) emptyKeys twoOffers
  store := storeAfter (.exactIntegers 7999) emptyKeys twoOffers
  scan := .single
  cursor := none
  reply := ⟨1, [⟨3, 10⟩], some 1⟩

def secondPage : PageRead (.book 1 .offers) where
  history := executions (.exactIntegers 7999) emptyKeys thenBid
  store := storeAfter (.exactIntegers 7999) emptyKeys thenBid
  scan := .single
  cursor := some 1
  reply := ⟨1, [⟨4, 2⟩], none⟩

theorem first_page_answered : firstPage.Answered (.exactIntegers 7999) :=
  ⟨executions_run _ twoOffers (by decide), by rfl⟩

theorem two_pages : PagedFrom (.exactIntegers 7999) firstPage [firstPage, secondPage] secondPage :=
  .more _ _ _ _ first_page_answered (Option.some_ne_none 1) rfl ⟨[_], rfl⟩
    (.last _ ⟨executions_run _ thenBid (by decide), by rfl⟩ rfl)

theorem two_pages_full : FullIteration (.exactIntegers 7999) firstPage [firstPage, secondPage] secondPage := by
  intro _ orderId always
  have started : orderId ∈ [(⟨11⟩ : Uuid), ⟨13⟩] :=
    always _ _ List.prefix_rfl ⟨[_], rfl⟩ first_page_answered.run
  cases List.mem_cons.mp started with
  | inl first => exact ⟨firstPage, List.mem_cons_self, first ▸ List.mem_singleton_self _⟩
  | inr second => exact ⟨secondPage, List.mem_cons_of_mem _ (List.mem_singleton_self _), second⟩

theorem pages_while_trading_two :
    (∀ read ∈ [firstPage, secondPage], ∀ item ∈ read.reply.items, ∃ orderId ∈ (OrderList.book 1 .offers).orders read.store,
      ∃ entry, shownEntry read.store orderId = some entry ∧ item = (OrderList.book 1 .offers).item entry) ∧
      ∀ orderId ∈ (OrderList.book 1 .offers).orders firstPage.store,
        orderId ∈ (OrderList.book 1 .offers).orders secondPage.store →
          ∃ read ∈ [firstPage, secondPage], ∃ entry, shownEntry read.store orderId = some entry ∧
            (OrderList.book 1 .offers).item entry ∈ read.reply.items ∧
            entry.price.toInt = restingPrice firstPage.store orderId ∧
            restingSize secondPage.store orderId ≤ entry.size.toNat ∧ entry.size.toNat ≤ restingSize firstPage.store orderId :=
  pages_while_trading (.exactIntegers 7999) (.book 1 .offers) firstPage secondPage [firstPage, secondPage] two_pages rfl
    two_pages_full trivial

end MktSim
