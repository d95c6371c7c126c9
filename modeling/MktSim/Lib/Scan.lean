import MktSim.Lib.KeySpace

set_option autoImplicit false

namespace Redis

open SortedSets

variable {M : Type} [LinearOrder M]

inductive Pages (call : Nat → Nat × List M) : Nat → List (List M) → Prop where
  | last (cursor : Nat) (page : List M) (ended : call cursor = (0, page)) : Pages call cursor [page]
  | more (cursor next : Nat) (page : List M) (rest : List (List M)) (open_ : 0 < next)
      (read : call cursor = (next, page)) (later : Pages call next rest) : Pages call cursor (page :: rest)

-- How a server walks a sorted set. It may return a member more than once, but of a set
-- that does not change a full iteration misses none.
structure Scan (M : Type) [LinearOrder M] where
  call : SortedSet M → Nat → Nat × List M
  members : ∀ set cursor, ∀ member ∈ (call set cursor).2, member ∈ set.entries.map Prod.snd
  covers : ∀ set pages, Pages (call set) 0 pages → ∀ member ∈ set.entries.map Prod.snd, member ∈ pages.flatten

theorem pages_members (scan : Scan M) {set : SortedSet M} {cursor : Nat} {pages : List (List M)}
    (read : Pages (scan.call set) cursor pages) : ∀ member ∈ pages.flatten, member ∈ set.entries.map Prod.snd := by
  induction read with
  | last cursor page ended =>
      intro member inPage
      have inCall : member ∈ (scan.call set cursor).2 := by simpa [ended] using inPage
      exact scan.members set cursor member inCall
  | more cursor next page rest _ called _ ih =>
      intro member inPages
      rw [List.flatten_cons, List.mem_append] at inPages
      cases inPages with
      | inl first =>
          have inCall : member ∈ (scan.call set cursor).2 := by rw [called]; exact first
          exact scan.members set cursor member inCall
      | inr later => exact ih member later

-- A set small enough to be returned whole, as a server does for a compact encoding.
def Scan.whole : Scan M where
  call set _ := (0, set.entries.map Prod.snd)
  members _ _ _ present := present
  covers set pages read member present := by
    cases read with
    | last _ page ended =>
        obtain rfl : set.entries.map Prod.snd = page := congrArg Prod.snd ended
        simpa using present
    | more _ next _ _ open_ read =>
        obtain rfl : 0 = next := congrArg Prod.fst read
        exact absurd open_ (Nat.lt_irrefl 0)

def oneByOne (set : SortedSet M) (cursor : Nat) : Nat × List M :=
  match (set.entries.map Prod.snd).drop cursor with
  | [] => (0, [])
  | [member] => (0, [member])
  | member :: _ :: _ => (cursor + 1, [member])

theorem one_by_one_covers {set : SortedSet M} {cursor : Nat} {pages : List (List M)} (read : Pages (oneByOne set) cursor pages) :
    ∀ member ∈ (set.entries.map Prod.snd).drop cursor, member ∈ pages.flatten := by
  induction read with
  | last cursor page ended =>
      intro member left
      rw [oneByOne] at ended
      split at ended
      case h_1 none_ =>
        rw [none_] at left
        cases left
      case h_2 single only =>
        rw [only] at left
        obtain rfl : [single] = page := congrArg Prod.snd ended
        simpa using left
      case h_3 => exact absurd (congrArg Prod.fst ended) (Nat.succ_ne_zero cursor)
  | more cursor next page rest open_ called _ ih =>
      intro member left
      rw [oneByOne] at called
      split at called
      case h_1 =>
        obtain rfl : 0 = next := congrArg Prod.fst called
        exact absurd open_ (Nat.lt_irrefl 0)
      case h_2 =>
        obtain rfl : 0 = next := congrArg Prod.fst called
        exact absurd open_ (Nat.lt_irrefl 0)
      case h_3 head second others several =>
        obtain ⟨rfl, rfl⟩ := Prod.mk.inj called
        have later : (set.entries.map Prod.snd).drop (cursor + 1) = second :: others := by
          rw [← List.drop_drop, several]
          rfl
        rw [several] at left
        rw [later] at ih
        cases List.mem_cons.mp left with
        | inl first => simp [first]
        | inr inRest => exact List.mem_append_right _ (ih member inRest)

def Scan.single : Scan M where
  call := oneByOne
  members set cursor member inPage := by
    have from_ : member ∈ (set.entries.map Prod.snd).drop cursor := by
      rw [oneByOne] at inPage
      split at inPage
      case h_1 => cases inPage
      case h_2 single only => rwa [only]
      case h_3 head second others several =>
        rw [several, List.mem_singleton.mp inPage]
        exact List.mem_cons_self
    exact List.mem_of_mem_drop from_
  covers set pages read member present := one_by_one_covers read member present

variable {K F : Type}

def zscan (scan : Scan M) (key : K) (cursor : Nat) (keys : KeySpace K F M) : Except CommandError (Nat × List M) :=
  match keys key with
  | some (.hash _) => .error .wrongType
  | _ => .ok (scan.call (zsetAt keys key) cursor)

theorem zscan_of_no_hash (scan : Scan M) {keys : KeySpace K F M} {key : K} (free : hashAt keys key = none)
    (cursor : Nat) : zscan scan key cursor keys = .ok (scan.call (zsetAt keys key) cursor) := by
  cases found : keys key with
  | none => simp [zscan, found]
  | some value =>
      cases value with
      | hash fields => simp [hashAt, found] at free
      | zset set present => simp [zscan, found]

end Redis
