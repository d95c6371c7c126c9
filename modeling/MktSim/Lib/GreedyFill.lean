import Mathlib.Algebra.BigOperators.Group.List.Basic
import Mathlib.Algebra.Order.BigOperators.Group.List
import Mathlib.Algebra.Order.Ring.Int
import Mathlib.Algebra.Order.Ring.Nat
import Mathlib.Data.List.Nodup

set_option autoImplicit false

namespace Greedy

variable {Lot : Type}

-- What is left when a demand has been taken from lots, first lot first.
-- A lot larger than what is still wanted is only reduced.
structure Fill (Lot : Type) where
  completed : List Lot
  reduced : Option (Lot × Nat)
  remaining : Nat
deriving DecidableEq, Repr

def fill (size : Lot → Nat) (demand : Nat) : List Lot → Fill Lot
  | [] => ⟨[], none, demand⟩
  | lot :: rest =>
      if demand < size lot then ⟨[], some (lot, demand), 0⟩
      else if demand - size lot = 0 then ⟨[lot], none, 0⟩
      else
        let later := fill size (demand - size lot) rest
        ⟨lot :: later.completed, later.reduced, later.remaining⟩

def total (size : Lot → Nat) (lots : List Lot) : Nat := (lots.map size).sum

@[simp] theorem total_nil (size : Lot → Nat) : total size [] = 0 := rfl

@[simp] theorem total_cons (size : Lot → Nat) (lot : Lot) (rest : List Lot) :
    total size (lot :: rest) = size lot + total size rest := by simp [total]

@[simp] theorem total_append (size : Lot → Nat) (a b : List Lot) :
    total size (a ++ b) = total size a + total size b := by simp [total]

-- The three ways a fill can end: the lots run out, they run out together with
-- the demand or it ends between two lots, or it ends inside a lot.
inductive Filled (size : Lot → Nat) (demand : Nat) : List Lot → Fill Lot → Prop where
  | exhausted (lots : List Lot) (enough : total size lots ≤ demand) :
      Filled size demand lots ⟨lots, none, demand - total size lots⟩
  | between (done rest : List Lot) (even : total size done = demand) :
      Filled size demand (done ++ rest) ⟨done, none, 0⟩
  | inside (done : List Lot) (lot : Lot) (rest : List Lot) (low : total size done ≤ demand)
      (high : demand < total size done + size lot) :
      Filled size demand (done ++ lot :: rest) ⟨done, some (lot, demand - total size done), 0⟩

theorem filled (size : Lot → Nat) (demand : Nat) (lots : List Lot) :
    Filled size demand lots (fill size demand lots) := by
  induction lots generalizing demand with
  | nil => exact .exhausted [] (Nat.zero_le _)
  | cons lot rest ih =>
      by_cases inside : demand < size lot
      · simpa only [fill, if_pos inside, total_nil, Nat.sub_zero, List.nil_append] using
          @Filled.inside Lot size demand [] lot rest (Nat.zero_le _) (by simpa using inside)
      · have enough : size lot ≤ demand := Nat.le_of_not_lt inside
        by_cases even : demand - size lot = 0
        · simp only [fill, if_neg inside, if_pos even]
          exact .between [lot] rest (by simp only [total_cons, total_nil]; omega)
        · simp only [fill, if_neg inside, if_neg even]
          generalize later : fill size (demand - size lot) rest = result
          have step := later ▸ ih (demand - size lot)
          cases step with
          | exhausted _ low =>
              have whole := @Filled.exhausted Lot size demand (lot :: rest)
                (by simp only [total_cons]; omega)
              simpa only [total_cons, Nat.sub_sub] using whole
          | between done tail same =>
              exact .between (lot :: done) tail (by simp only [total_cons]; omega)
          | inside done next tail low high =>
              have whole := @Filled.inside Lot size demand (lot :: done) next tail
                (by simp only [total_cons]; omega) (by simp only [total_cons]; omega)
              simpa only [total_cons, Nat.sub_sub, List.cons_append] using whole

theorem remaining_eq (size : Lot → Nat) (demand : Nat) (lots : List Lot) :
    (fill size demand lots).remaining = demand - total size lots := by
  have result := filled size demand lots
  generalize fill size demand lots = outcome at result
  cases result with
  | exhausted => rfl
  | between done rest even => simp only [total_append]; omega
  | inside done lot rest low high => simp only [total_append, total_cons]; omega

theorem fill_sum (size : Lot → Nat) (demand : Nat) (lots : List Lot) :
    total size (fill size demand lots).completed + ((fill size demand lots).reduced.map Prod.snd).getD 0 +
      (fill size demand lots).remaining = demand := by
  have result := filled size demand lots
  generalize fill size demand lots = outcome at result
  cases result with
  | exhausted _ enough => simp only [Option.map_none, Option.getD_none]; omega
  | between done rest even => simpa using even
  | inside done lot rest low high => simp only [Option.map_some, Option.getD_some]; omega

theorem completed_of_remaining {size : Lot → Nat} {demand : Nat} {lots : List Lot}
    (left : 0 < (fill size demand lots).remaining) : (fill size demand lots).completed = lots := by
  have result := filled size demand lots
  generalize fill size demand lots = outcome at result left
  cases result with
  | exhausted => rfl
  | between => exact absurd left (Nat.lt_irrefl 0)
  | inside => exact absurd left (Nat.lt_irrefl 0)

theorem completed_prefix (size : Lot → Nat) (demand : Nat) (lots : List Lot) :
    ∃ rest, lots = (fill size demand lots).completed ++ rest ∧
      ∀ lot taken, (fill size demand lots).reduced = some (lot, taken) →
        ∃ tail, rest = lot :: tail ∧ taken < size lot := by
  have result := filled size demand lots
  generalize fill size demand lots = outcome at result
  cases result with
  | exhausted => exact ⟨[], by simp, by simp⟩
  | between done rest even => exact ⟨rest, rfl, by simp⟩
  | inside done lot rest low high =>
      refine ⟨lot :: rest, rfl, ?_⟩
      rintro _ _ ⟨rfl, rfl⟩
      exact ⟨rest, rfl, by omega⟩

theorem completed_subset {size : Lot → Nat} {demand : Nat} {lots : List Lot} {lot : Lot}
    (done : lot ∈ (fill size demand lots).completed) : lot ∈ lots := by
  obtain ⟨rest, split, _⟩ := completed_prefix size demand lots
  rw [split]
  exact List.mem_append_left rest done

theorem reduced_mem {size : Lot → Nat} {demand : Nat} {lots : List Lot} {lot : Lot} {taken : Nat}
    (partly : (fill size demand lots).reduced = some (lot, taken)) : lot ∈ lots ∧ taken < size lot := by
  obtain ⟨rest, split, next⟩ := completed_prefix size demand lots
  obtain ⟨tail, rfl, less⟩ := next lot taken partly
  exact ⟨by rw [split]; simp, less⟩

theorem sum_split {Weight : Type} [AddCommMonoid Weight] (weight : Lot → Weight) (selected : Lot → Bool)
    (lots : List Lot) : (lots.map weight).sum =
      ((lots.filter selected).map weight).sum + ((lots.filter fun lot => !selected lot).map weight).sum := by
  induction lots with
  | nil => simp
  | cons lot rest ih =>
      cases chosen : selected lot with
      | false =>
          simp only [List.map_cons, List.sum_cons, List.filter_cons, chosen, Bool.false_eq_true, if_false,
            Bool.not_false, if_true, ih]
          exact add_left_comm _ _ _
      | true =>
          simp only [List.map_cons, List.sum_cons, List.filter_cons, chosen, if_true, Bool.not_true,
            Bool.false_eq_true, if_false, ih]
          exact (add_assoc _ _ _).symm

theorem fill_inside {size : Lot → Nat} {demand : Nat} (ahead : List Lot) (lot : Lot) (behind : List Lot)
    (low : total size ahead < demand) (high : demand < total size ahead + size lot) :
    (fill size demand (ahead ++ lot :: behind)).reduced = some (lot, demand - total size ahead) := by
  induction ahead generalizing demand with
  | nil =>
      rw [total_nil, Nat.zero_add] at high
      simp [fill, high]
  | cons first rest ih =>
      rw [total_cons] at low high ⊢
      have outside : ¬ demand < size first := by omega
      have more : demand - size first ≠ 0 := by omega
      simp only [List.cons_append, fill, if_neg outside, if_neg more]
      rw [ih (by omega) (by omega), Nat.sub_sub]

theorem reduced_iff {size : Lot → Nat} {demand : Nat} {lots : List Lot} {lot : Lot} {taken : Nat} :
    (fill size demand lots).reduced = some (lot, taken) ∧ 0 < taken ↔ ∃ ahead behind, lots = ahead ++ lot :: behind ∧
      total size ahead + taken = demand ∧ 0 < taken ∧ taken < size lot := by
  constructor
  · rintro ⟨partly, positive⟩
    induction lots generalizing demand with
    | nil => cases partly
    | cons first rest ih =>
        by_cases inside : demand < size first
        · simp only [fill, if_pos inside, Option.some.injEq, Prod.mk.injEq] at partly
          obtain ⟨rfl, rfl⟩ := partly
          exact ⟨[], rest, rfl, by simp, positive, inside⟩
        by_cases even : demand - size first = 0
        · simp [fill, if_neg inside, if_pos even] at partly
        · simp only [fill, if_neg inside, if_neg even] at partly
          obtain ⟨ahead, behind, rfl, sum, _, less⟩ := ih partly
          exact ⟨first :: ahead, behind, rfl, by rw [total_cons]; omega, positive, less⟩
  · rintro ⟨ahead, behind, rfl, sum, positive, less⟩
    rw [fill_inside ahead lot behind (by omega) (by omega), ← sum, Nat.add_sub_cancel_left]
    exact ⟨rfl, positive⟩

theorem fill_map {Other : Type} (name : Lot → Other) {size : Lot → Nat} {otherSize : Other → Nat} (demand : Nat)
    (lots : List Lot) (same : ∀ lot ∈ lots, otherSize (name lot) = size lot) :
    fill otherSize demand (lots.map name) =
      ⟨(fill size demand lots).completed.map name, (fill size demand lots).reduced.map (Prod.map name id),
        (fill size demand lots).remaining⟩ := by
  induction lots generalizing demand with
  | nil => rfl
  | cons lot rest ih =>
      have first : otherSize (name lot) = size lot := same lot (by simp)
      have later := fun demand => ih demand fun other member => same other (by simp [member])
      simp only [List.map_cons, fill, first]
      by_cases inside : demand < size lot
      · simp only [if_pos inside]
        rfl
      · by_cases even : demand - size lot = 0
        · simp only [if_neg inside, if_pos even]
          rfl
        · simp only [if_neg inside, if_neg even, later]
          rfl

theorem prefix_beyond {done rest used : List Lot} (first : used <+: done ++ rest) (longer : done.length < used.length) :
    ∃ lot tail more, rest = lot :: tail ∧ used = done ++ lot :: more := by
  have within : done <+: used :=
    List.prefix_of_prefix_length_le (List.prefix_append done rest) first (Nat.le_of_lt longer)
  obtain ⟨more, rfl⟩ := within
  have after := (List.prefix_append_right_inj done).mp first
  cases more with
  | nil => simp at longer
  | cons lot more =>
      obtain ⟨tail, rfl⟩ := after
      exact ⟨lot, more ++ tail, more, rfl, rfl⟩

structure StopsAfter (size : Lot → Nat) (demand : Nat) (done rest : List Lot) : Prop where
  covered : total size done ≤ demand
  stops : ∀ lot, rest.head? = some lot → demand < total size done + size lot

theorem fill_stops {size : Lot → Nat} {demand : Nat} {lots : List Lot} (positive : ∀ lot ∈ lots, 0 < size lot) :
    ∃ rest, lots = (fill size demand lots).completed ++ rest ∧
      StopsAfter size demand (fill size demand lots).completed rest ∧
      ∀ weight : Lot → Int, (((fill size demand lots).reduced.map fun part => weight part.1 * (part.2 : Int)).getD 0) =
        (rest.head?.map fun lot => weight lot * ((demand : Int) - total size (fill size demand lots).completed)).getD 0 := by
  have result := filled size demand lots
  generalize fill size demand lots = outcome at result
  cases result with
  | exhausted _ enough => exact ⟨[], by simp, ⟨enough, by simp⟩, by simp⟩
  | between done rest even =>
      refine ⟨rest, rfl, ⟨Nat.le_of_eq even, fun lot first => ?_⟩, fun weight => ?_⟩
      · have more := positive lot (List.mem_append_right _ (List.mem_of_head? first))
        rw [even]
        exact Nat.lt_add_of_pos_right more
      · rw [even, sub_self]
        cases rest <;> simp
  | inside done lot rest low high =>
      refine ⟨lot :: rest, rfl, ⟨low, fun other first => ?_⟩, fun weight => ?_⟩
      · cases first
        exact high
      · simp only [Option.map_some, Option.getD_some, List.head?_cons, Int.ofNat_sub low]

theorem stops_shorter {size : Lot → Nat} {demand : Nat} {done rest other more : List Lot}
    (split : done ++ rest = other ++ more) (stops : StopsAfter size demand done rest)
    (covered : total size other ≤ demand) : other.length ≤ done.length := by
  by_contra longer
  obtain ⟨lot, tail, beyond, rfl, rfl⟩ := prefix_beyond (split ▸ List.prefix_append other more) (Nat.lt_of_not_le longer)
  have less := stops.stops lot rfl
  simp only [total_append, total_cons] at covered
  omega

theorem stops_unique {size : Lot → Nat} {demand : Nat} {done rest other more : List Lot}
    (split : done ++ rest = other ++ more) (first : StopsAfter size demand done rest)
    (second : StopsAfter size demand other more) : done = other ∧ rest = more :=
  List.append_inj split
    (Nat.le_antisymm (stops_shorter split.symm second first.covered) (stops_shorter split first second.covered))

theorem covered_completed {size : Lot → Nat} {demand : Nat} {lots used : List Lot}
    (positive : ∀ lot ∈ lots, 0 < size lot) (first : used <+: lots) (covered : total size used ≤ demand) :
    used.length ≤ (fill size demand lots).completed.length := by
  obtain ⟨rest, split, stops, _⟩ := @fill_stops Lot size demand lots positive
  obtain ⟨more, whole⟩ := first
  exact stops_shorter (split.symm.trans whole.symm) stops covered

-- The same filling told lot by lot: as much of each lot as is still wanted, until nothing is.
def walk (size : Lot → Nat) (remaining : Nat) : List Lot → List (Lot × Nat)
  | [] => []
  | lot :: rest =>
      if remaining = 0 then []
      else (lot, min remaining (size lot)) :: walk size (remaining - min remaining (size lot)) rest

theorem walk_fill {size : Lot → Nat} (demand : Nat) {lots : List Lot} (positive : ∀ lot ∈ lots, 0 < size lot) :
    walk size demand lots = (fill size demand lots).completed.map (fun lot => (lot, size lot)) ++
      ((fill size demand lots).reduced.filter fun part => 0 < part.2).toList := by
  have nothing : ∀ rest : List Lot, walk size 0 rest = [] := fun rest => by cases rest <;> rfl
  induction lots generalizing demand with
  | nil => rfl
  | cons lot rest ih =>
      have larger : 0 < size lot := positive lot (by simp)
      have later := fun demand => ih demand fun other member => positive other (by simp [member])
      by_cases none : demand = 0
      · subst none
        simp [walk, fill, larger]
      by_cases inside : demand < size lot
      · have all : min demand (size lot) = demand := Nat.min_eq_left (Nat.le_of_lt inside)
        simp [walk, fill, none, inside, all, nothing, Option.filter, Nat.pos_of_ne_zero none]
      · have whole : min demand (size lot) = size lot := Nat.min_eq_right (Nat.le_of_not_lt inside)
        by_cases even : demand - size lot = 0
        · simp [walk, fill, none, inside, whole, even, nothing]
        · simp [walk, fill, none, inside, whole, even, later]

section Taken

variable [DecidableEq Lot]

def Fill.taken (size : Lot → Nat) (fill : Fill Lot) (lot : Lot) : Nat :=
  if lot ∈ fill.completed then size lot
  else match fill.reduced with
    | some (other, quantity) => if lot = other then quantity else 0
    | none => 0

theorem taken_of_completed {size : Lot → Nat} {outcome : Fill Lot} {lot : Lot}
    (done : lot ∈ outcome.completed) : outcome.taken size lot = size lot := if_pos done

theorem taken_done {size : Lot → Nat} {outcome : Fill Lot} (done : List Lot)
    (within : ∀ lot ∈ done, lot ∈ outcome.completed) :
    (done.map (outcome.taken size)).sum = total size done := by
  have same : done.map (outcome.taken size) = done.map size :=
    List.map_congr_left fun lot member => taken_of_completed (within lot member)
  rw [same, total]

theorem taken_untouched {size : Lot → Nat} {outcome : Fill Lot} (rest : List Lot)
    (kept : ∀ lot ∈ rest, lot ∉ outcome.completed ∧ ∀ other quantity,
      outcome.reduced = some (other, quantity) → lot ≠ other) :
    (rest.map (outcome.taken size)).sum = 0 := by
  have none : rest.map (outcome.taken size) = rest.map fun _ => 0 := by
    apply List.map_congr_left
    intro lot member
    obtain ⟨notDone, notReduced⟩ := kept lot member
    rcases reduced : outcome.reduced with _ | ⟨other, quantity⟩
    · simp [Fill.taken, notDone, reduced]
    · simp [Fill.taken, notDone, reduced, notReduced other quantity reduced]
  rw [none]
  simp

theorem sum_taken (size : Lot → Nat) (demand : Nat) (lots : List Lot) (distinct : lots.Nodup) :
    (lots.map ((fill size demand lots).taken size)).sum + (fill size demand lots).remaining = demand := by
  have result := filled size demand lots
  generalize fill size demand lots = outcome at result
  cases result with
  | exhausted _ enough =>
      rw [taken_done lots fun lot member => member]
      exact Nat.add_sub_cancel' enough
  | between done rest even =>
      have apart := (List.nodup_append'.mp distinct).2.2
      rw [List.map_append, List.sum_append, taken_done done fun lot member => member,
        taken_untouched rest fun lot member => ⟨fun inDone => apart inDone member, by simp⟩]
      simpa using even
  | inside done lot rest low high =>
      have apart := (List.nodup_append'.mp distinct).2.2
      have lotFirst := (List.nodup_cons.mp (List.nodup_append.mp distinct).2.1).1
      have lotOpen : lot ∉ done := fun inDone => apart inDone (by simp)
      rw [List.map_append, List.sum_append, taken_done done fun lot member => member, List.map_cons,
        List.sum_cons, taken_untouched rest fun other member =>
          ⟨fun inDone => apart inDone (by simp [member]), ?_⟩]
      · simp [Fill.taken, lotOpen]
        omega
      · rintro _ _ ⟨rfl, rfl⟩ rfl
        exact lotFirst member

theorem sum_taken_weight (size : Lot → Nat) (demand : Nat) (lots : List Lot) (distinct : lots.Nodup)
    (weight : Lot → Int) :
    (lots.map fun lot => weight lot * ((fill size demand lots).taken size lot : Int)).sum =
      ((fill size demand lots).completed.map fun lot => weight lot * (size lot : Int)).sum +
        ((fill size demand lots).reduced.map fun part => weight part.1 * (part.2 : Int)).getD 0 := by
  have result := filled size demand lots
  generalize fill size demand lots = outcome at result
  have used : ∀ part : List Lot, (∀ lot ∈ part, lot ∈ outcome.completed) →
      (part.map fun lot => weight lot * (outcome.taken size lot : Int)) =
        part.map fun lot => weight lot * (size lot : Int) := fun part within =>
    List.map_congr_left fun lot member => by rw [taken_of_completed (within lot member)]
  have kept : ∀ part : List Lot, (∀ lot ∈ part, outcome.taken size lot = 0) →
      (part.map fun lot => weight lot * (outcome.taken size lot : Int)).sum = 0 := by
    intro part untouched
    apply List.sum_eq_zero
    intro amount member
    obtain ⟨lot, inPart, rfl⟩ := List.mem_map.mp member
    rw [untouched lot inPart]
    exact Int.mul_zero _
  cases result with
  | exhausted => simp [used lots fun lot member => member]
  | between done rest even =>
      have apart := (List.nodup_append'.mp distinct).2.2
      rw [List.map_append, List.sum_append, used done fun lot member => member, kept rest fun lot member => ?_]
      · simp
      · have open_ : lot ∉ done := fun inDone => apart inDone member
        simp [Fill.taken, open_]
  | inside done lot rest low high =>
      have apart := (List.nodup_append'.mp distinct).2.2
      have lotFirst := (List.nodup_cons.mp (List.nodup_append.mp distinct).2.1).1
      have lotOpen : lot ∉ done := fun inDone => apart inDone (by simp)
      rw [List.map_append, List.sum_append, used done fun lot member => member, List.map_cons, List.sum_cons,
        kept rest fun other member => ?_]
      · simp [Fill.taken, lotOpen]
      · have open_ : other ∉ done := fun inDone => apart inDone (by simp [member])
        have away : other ≠ lot := by
          rintro rfl
          exact lotFirst member
        simp [Fill.taken, open_, away]

theorem taken_le (size : Lot → Nat) (demand : Nat) (lots : List Lot) (lot : Lot) :
    (fill size demand lots).taken size lot ≤ size lot := by
  unfold Fill.taken
  split
  · exact Nat.le_refl _
  · rcases reduced : (fill size demand lots).reduced with _ | ⟨other, quantity⟩
    · exact Nat.zero_le _
    · by_cases same : lot = other
      · subst other
        simpa [reduced] using Nat.le_of_lt (reduced_mem reduced).2
      · simp [same]

theorem touched_cases {size : Lot → Nat} {outcome : Fill Lot} {lot : Lot} (touched : 0 < outcome.taken size lot) :
    lot ∈ outcome.completed ∨ ∃ quantity, outcome.reduced = some (lot, quantity) := by
  by_cases done : lot ∈ outcome.completed
  · exact .inl done
  · rcases reduced : outcome.reduced with _ | ⟨other, quantity⟩
    · simp [Fill.taken, done, reduced] at touched
    · by_cases same : lot = other
      · exact .inr ⟨quantity, by rw [same]⟩
      · simp [Fill.taken, done, reduced, same] at touched

theorem taken_of_not_mem {size : Lot → Nat} {demand : Nat} {lots : List Lot} {lot : Lot} (outside : lot ∉ lots) :
    (fill size demand lots).taken size lot = 0 := by
  by_contra touched
  rcases touched_cases (Nat.pos_of_ne_zero touched) with done | ⟨quantity, partly⟩
  · exact outside (completed_subset done)
  · exact outside (reduced_mem partly).1

theorem taken_lt {size : Lot → Nat} {demand : Nat} {lots : List Lot} {lot : Lot} (positive : 0 < size lot)
    (left : lot ∉ (fill size demand lots).completed) : (fill size demand lots).taken size lot < size lot := by
  by_contra whole
  have touched := Nat.lt_of_lt_of_le positive (Nat.le_of_not_lt whole)
  rcases touched_cases touched with done | ⟨quantity, partly⟩
  · exact left done
  · have exactly : (fill size demand lots).taken size lot = quantity := by simp [Fill.taken, left, partly]
    have less := (reduced_mem partly).2
    omega

-- A lot that is not used up stands behind every lot that was touched.
theorem touched_first {size : Lot → Nat} {demand : Nat} {lots : List Lot} {lot other : Lot}
    {ahead : Lot → Lot → Prop} (ordered : lots.Pairwise ahead)
    (touched : 0 < (fill size demand lots).taken size lot) (present : other ∈ lots)
    (left : other ∉ (fill size demand lots).completed) : other = lot ∨ ahead lot other := by
  obtain ⟨rest, split, next⟩ := completed_prefix size demand lots
  rw [split] at ordered present
  obtain ⟨_, restOrdered, across⟩ := List.pairwise_append.mp ordered
  have inRest : other ∈ rest := (List.mem_append.mp present).resolve_left left
  rcases touched_cases touched with done | ⟨quantity, partly⟩
  · exact .inr (across lot done other inRest)
  · obtain ⟨tail, rfl, _⟩ := next lot quantity partly
    rcases List.mem_cons.mp inRest with same | later
    · exact .inl same
    · exact .inr ((List.pairwise_cons.mp restOrdered).1 other later)

section Selected

variable (size : Lot → Nat) (demand : Nat) {lots : List Lot} (distinct : lots.Nodup) (selected : Lot → Bool)

include distinct

theorem taken_le_demand {lot : Lot} (member : lot ∈ lots) : (fill size demand lots).taken size lot ≤ demand := by
  have whole := sum_taken size demand lots distinct
  have part := List.le_sum_of_mem (List.mem_map_of_mem (f := (fill size demand lots).taken size) member)
  omega

theorem touched_outside (positive : ∀ lot ∈ lots, 0 < size lot)
    (short : total size (lots.filter selected) < demand) (outside : ∃ lot ∈ lots, selected lot = false) :
    ∃ lot ∈ lots, selected lot = false ∧ 0 < (fill size demand lots).taken size lot := by
  by_contra untouched
  push Not at untouched
  have none : ((lots.filter fun lot => !selected lot).map ((fill size demand lots).taken size)).sum = 0 := by
    apply List.sum_eq_zero
    intro quantity member
    obtain ⟨lot, inFilter, rfl⟩ := List.mem_map.mp member
    obtain ⟨present, notSelected⟩ := List.mem_filter.mp inFilter
    exact Nat.le_zero.mp (untouched lot present (by simpa using notSelected))
  have some : ((lots.filter selected).map ((fill size demand lots).taken size)).sum ≤
      total size (lots.filter selected) :=
    List.sum_le_sum fun lot _ => taken_le size demand lots lot
  have whole := sum_taken size demand lots distinct
  rw [sum_split _ selected, none] at whole
  have left : 0 < (fill size demand lots).remaining := by omega
  obtain ⟨lot, present, notSelected⟩ := outside
  have done : lot ∈ (fill size demand lots).completed := by rw [completed_of_remaining left]; exact present
  have touched := untouched lot present notSelected
  rw [taken_of_completed done] at touched
  exact absurd (positive lot present) (Nat.not_lt.mpr touched)

theorem selected_room (done : ∀ lot ∈ lots, selected lot = true → lot ∈ (fill size demand lots).completed)
    {lot : Lot} (present : lot ∈ lots) (notSelected : selected lot = false) :
    total size (lots.filter selected) + (fill size demand lots).taken size lot ≤ demand := by
  have used := @taken_done Lot _ size (fill size demand lots) (lots.filter selected)
    fun other member => done other (List.mem_filter.mp member).1 (List.mem_filter.mp member).2
  have inRest : lot ∈ lots.filter fun lot => !selected lot := List.mem_filter.mpr ⟨present, by simp [notSelected]⟩
  have part := List.le_sum_of_mem (List.mem_map_of_mem (f := (fill size demand lots).taken size) inRest)
  have whole := sum_taken size demand lots distinct
  rw [sum_split _ selected, used] at whole
  omega

end Selected

end Taken

end Greedy
