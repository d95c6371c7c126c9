import Mathlib.Data.List.Sort
import Mathlib.Data.Prod.Lex

set_option autoImplicit false

namespace SortedSets

variable {M : Type} [LinearOrder M]

-- Members are ordered by score, and members of one score by their own order.
def Before (a b : Int × M) : Prop := toLex a < toLex b

instance (a b : Int × M) : Decidable (Before a b) := inferInstanceAs (Decidable (toLex a < toLex b))

theorem before_iff (a b : Int × M) : Before a b ↔ a.1 < b.1 ∨ a.1 = b.1 ∧ a.2 < b.2 :=
  Prod.Lex.toLex_lt_toLex

theorem before_trans {a b c : Int × M} (first : Before a b) (second : Before b c) : Before a c :=
  lt_trans first second

theorem before_irrefl (a : Int × M) : ¬ Before a a := lt_irrefl (toLex a)

theorem before_total {a b : Int × M} (different : a ≠ b) (notBefore : ¬ Before a b) : Before b a := by
  have apart : toLex b ≠ toLex a := fun same => different (toLex.injective same).symm
  exact lt_of_le_of_ne (le_of_not_gt notBefore) apart

instance : Std.Irrefl (@Before M _) := ⟨before_irrefl⟩

instance : Std.Antisymm (@Before M _) :=
  ⟨fun _ _ first second => absurd (before_trans first second) (before_irrefl _)⟩

@[ext] structure SortedSet (M : Type) [LinearOrder M] where
  entries : List (Int × M)
  ordered : entries.Pairwise Before
  single : (entries.map Prod.snd).Nodup

namespace SortedSet

def empty : SortedSet M := ⟨[], .nil, .nil⟩

@[simp] theorem empty_entries : (empty : SortedSet M).entries = [] := rfl

instance : Inhabited (SortedSet M) := ⟨empty⟩

instance : Membership (Int × M) (SortedSet M) := ⟨fun set entry => entry ∈ set.entries⟩

theorem mem_def (set : SortedSet M) (entry : Int × M) : entry ∈ set ↔ entry ∈ set.entries := Iff.rfl

@[simp] theorem not_mem_empty (entry : Int × M) : entry ∉ (empty : SortedSet M) := List.not_mem_nil

theorem ext_mem {s t : SortedSet M} (same : ∀ entry, entry ∈ s ↔ entry ∈ t) : s = t := by
  apply SortedSet.ext
  exact s.ordered.eq_of_mem_iff t.ordered (fun {entry} => same entry)

def remove (members : List M) (set : SortedSet M) : SortedSet M where
  entries := set.entries.filter fun entry => entry.2 ∉ members
  ordered := set.ordered.filter _
  single := set.single.sublist (List.filter_sublist.map Prod.snd)

@[simp] theorem mem_remove (members : List M) (set : SortedSet M) (entry : Int × M) :
    entry ∈ set.remove members ↔ entry ∈ set ∧ entry.2 ∉ members := by
  simp [mem_def, remove]

def place (entry : Int × M) : List (Int × M) → List (Int × M)
  | [] => [entry]
  | head :: tail => if Before entry head then entry :: head :: tail else head :: place entry tail

theorem place_perm (entry : Int × M) (entries : List (Int × M)) :
    (place entry entries).Perm (entry :: entries) := by
  induction entries with
  | nil => exact .refl _
  | cons head tail ih =>
      by_cases earlier : Before entry head
      · simp only [place, if_pos earlier]
        exact .refl _
      · simp only [place, if_neg earlier]
        exact (ih.cons head).trans (.swap entry head tail)

theorem place_ordered (entry : Int × M) (entries : List (Int × M)) (ordered : entries.Pairwise Before)
    (fresh : ∀ other ∈ entries, other ≠ entry) : (place entry entries).Pairwise Before := by
  induction entries with
  | nil => exact List.pairwise_singleton _ _
  | cons head tail ih =>
      obtain ⟨headFirst, tailOrdered⟩ := List.pairwise_cons.mp ordered
      by_cases earlier : Before entry head
      · simp only [place, if_pos earlier]
        refine List.pairwise_cons.mpr ⟨fun other member => ?_, ordered⟩
        rcases List.mem_cons.mp member with rfl | later
        · exact earlier
        · exact before_trans earlier (headFirst other later)
      · simp only [place, if_neg earlier]
        have headBefore : Before head entry :=
          before_total (fun same => fresh head (by simp) same.symm) earlier
        refine List.pairwise_cons.mpr ⟨fun other member => ?_,
          ih tailOrdered fun other member => fresh other (by simp [member])⟩
        rcases List.mem_cons.mp ((place_perm entry tail).mem_iff.mp member) with rfl | later
        · exact headBefore
        · exact headFirst other later

def add (score : Int) (member : M) (set : SortedSet M) : SortedSet M where
  entries := place (score, member) (set.remove [member]).entries
  ordered := by
    apply place_ordered _ _ (set.remove [member]).ordered
    intro other present same
    have kept := (mem_remove [member] set other).mp present
    simp [same] at kept
  single := by
    have moved := (place_perm (score, member) (set.remove [member]).entries).map Prod.snd
    apply moved.nodup_iff.mpr
    refine List.nodup_cons.mpr ⟨fun present => ?_, (set.remove [member]).single⟩
    obtain ⟨other, kept, same⟩ := List.mem_map.mp present
    have absent := ((mem_remove [member] set other).mp kept).2
    simp [same] at absent

@[simp] theorem mem_add (score : Int) (member : M) (set : SortedSet M) (entry : Int × M) :
    entry ∈ set.add score member ↔ entry = (score, member) ∨ entry ∈ set ∧ entry.2 ≠ member := by
  change entry ∈ place (score, member) (set.remove [member]).entries ↔ _
  rw [(place_perm (score, member) (set.remove [member]).entries).mem_iff, List.mem_cons,
    ← mem_def, mem_remove]
  simp

theorem eq_empty_iff (set : SortedSet M) : set = empty ↔ set.entries = [] :=
  ⟨fun same => by rw [same]; rfl, fun none => SortedSet.ext none⟩

end SortedSet

inductive Bound where
  | negInf
  | score (value : Int)
  | posInf
deriving DecidableEq, Repr

def Bound.le : Bound → Bound → Bool
  | .negInf, _ => true
  | _, .posInf => true
  | .score a, .score b => a ≤ b
  | _, _ => false

def inRange (lower upper : Bound) (score : Int) : Bool :=
  lower.le (.score score) && (Bound.score score).le upper

def SortedSet.rangeByScore (lower upper : Bound) (set : SortedSet M) : List (Int × M) :=
  set.entries.filter fun entry => inRange lower upper entry.1

theorem mem_range_by_score (lower upper : Bound) (set : SortedSet M) (entry : Int × M) :
    entry ∈ set.rangeByScore lower upper ↔ entry ∈ set ∧ inRange lower upper entry.1 = true := by
  simp [SortedSet.rangeByScore, SortedSet.mem_def]

theorem range_by_score_ordered (lower upper : Bound) (set : SortedSet M) :
    (set.rangeByScore lower upper).Pairwise Before := set.ordered.filter _

@[simp] theorem in_range_below (upper score : Int) :
    inRange .negInf (.score upper) score = true ↔ score ≤ upper := by
  simp [inRange, Bound.le]

@[simp] theorem in_range_above (lower score : Int) :
    inRange (.score lower) .posInf score = true ↔ lower ≤ score := by
  simp [inRange, Bound.le]

end SortedSets
