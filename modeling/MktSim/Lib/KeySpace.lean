import Mathlib.Algebra.Group.Int.Defs
import Mathlib.Algebra.Group.Nat.Defs
import MktSim.Lib.SortedSet

set_option autoImplicit false

namespace Redis

open SortedSets

-- A string of the store: the decimal text of an integer, or other bytes.
inductive Bulk (M : Type) where
  | int (value : Int)
  | raw (bytes : M)
deriving DecidableEq, Repr

abbrev Hash (F M : Type) := F → Option (Bulk M)

-- A key whose last member is removed is gone, so no key holds an empty sorted set.
inductive Value (F M : Type) [LinearOrder M] where
  | hash (fields : Hash F M)
  | zset (set : SortedSet M) (present : set.entries ≠ [])

inductive CommandError where
  | wrongType
  | notInteger
  | overflow
deriving DecidableEq, Repr

abbrev KeySpace (K F M : Type) [LinearOrder M] := K → Option (Value F M)

variable {K F M : Type} [LinearOrder M]

def emptyKeys : KeySpace K F M := fun _ => none

def hashAt (keys : KeySpace K F M) (key : K) : Option (Hash F M) :=
  match keys key with
  | some (.hash fields) => some fields
  | _ => none

def zsetAt (keys : KeySpace K F M) (key : K) : SortedSet M :=
  match keys key with
  | some (.zset set _) => set
  | _ => .empty

def writeHash [DecidableEq K] (keys : KeySpace K F M) (key : K) (fields : Hash F M) : KeySpace K F M :=
  Function.update keys key (some (.hash fields))

def writeSet [DecidableEq K] (keys : KeySpace K F M) (key : K) (set : SortedSet M) : KeySpace K F M :=
  Function.update keys key (if present : set.entries ≠ [] then some (.zset set present) else none)

def hget (key : K) (field : F) (keys : KeySpace K F M) : Except CommandError (Option (Bulk M)) :=
  match keys key with
  | none => .ok none
  | some (.hash fields) => .ok (fields field)
  | some (.zset _ _) => .error .wrongType

def hgetall (key : K) (keys : KeySpace K F M) : Except CommandError (Hash F M) :=
  match keys key with
  | none => .ok fun _ => none
  | some (.hash fields) => .ok fields
  | some (.zset _ _) => .error .wrongType

def hset [DecidableEq K] [DecidableEq F] (key : K) (pairs : List (F × Bulk M)) (keys : KeySpace K F M) :
    Except CommandError (KeySpace K F M) :=
  match keys key with
  | some (.zset _ _) => .error .wrongType
  | _ =>
      let fields := (hashAt keys key).getD fun _ => none
      .ok (writeHash keys key (pairs.foldl (fun held pair => Function.update held pair.1 (some pair.2)) fields))

-- The stored integer and the sum are signed 64-bit numbers.
def fitsInt64 (value : Int) : Bool := -2 ^ 63 ≤ value && value < 2 ^ 63

def hincrby [DecidableEq K] [DecidableEq F] (key : K) (field : F) (increment : Int) (keys : KeySpace K F M) :
    Except CommandError (KeySpace K F M) :=
  match keys key with
  | some (.zset _ _) => .error .wrongType
  | _ =>
      let fields := (hashAt keys key).getD fun _ => none
      match fields field with
      | some (.raw _) => .error .notInteger
      | some (.int value) =>
          if fitsInt64 value && fitsInt64 (value + increment) then
            .ok (writeHash keys key (Function.update fields field (some (.int (value + increment)))))
          else .error .overflow
      | none => .ok (writeHash keys key (Function.update fields field (some (.int increment))))

def del [DecidableEq K] (names : List K) (keys : KeySpace K F M) : KeySpace K F M :=
  fun key => if key ∈ names then none else keys key

def zrangeByScore (key : K) (lower upper : Bound) (keys : KeySpace K F M) :
    Except CommandError (List (Int × M)) :=
  match keys key with
  | some (.hash _) => .error .wrongType
  | _ => .ok ((zsetAt keys key).rangeByScore lower upper)

def zadd [DecidableEq K] (key : K) (score : Int) (member : M) (keys : KeySpace K F M) :
    Except CommandError (KeySpace K F M) :=
  match keys key with
  | some (.hash _) => .error .wrongType
  | _ => .ok (writeSet keys key ((zsetAt keys key).add score member))

def zrem [DecidableEq K] (key : K) (members : List M) (keys : KeySpace K F M) :
    Except CommandError (KeySpace K F M) :=
  match keys key with
  | some (.hash _) => .error .wrongType
  | _ => .ok (writeSet keys key ((zsetAt keys key).remove members))

def restore (fields : Option (Hash F M)) (set : SortedSet M) : Option (Value F M) :=
  match fields with
  | some held => some (.hash held)
  | none => if present : set.entries ≠ [] then some (.zset set present) else none

theorem restore_value (keys : KeySpace K F M) (key : K) :
    restore (hashAt keys key) (zsetAt keys key) = keys key := by
  cases found : keys key with
  | none => simp [hashAt, zsetAt, found, restore]
  | some value =>
      cases value with
      | hash fields => simp only [hashAt, found, restore]
      | zset set present => simp [hashAt, zsetAt, found, restore, present]

theorem keys_ext {a b : KeySpace K F M} (hashes : ∀ key, hashAt a key = hashAt b key)
    (sets : ∀ key, zsetAt a key = zsetAt b key) : a = b := by
  funext key
  rw [← restore_value a, ← restore_value b, hashes, sets]

@[simp] theorem hash_at_empty (key : K) : hashAt (emptyKeys : KeySpace K F M) key = none := rfl

@[simp] theorem zset_at_empty (key : K) : zsetAt (emptyKeys : KeySpace K F M) key = .empty := rfl

theorem key_of_hash {keys : KeySpace K F M} {key : K} {fields : Hash F M}
    (held : hashAt keys key = some fields) : keys key = some (.hash fields) := by
  cases found : keys key with
  | none => simp [hashAt, found] at held
  | some value =>
      cases value with
      | hash stored =>
          simp only [hashAt, found] at held
          rw [Option.some.inj held]
      | zset set present => simp [hashAt, found] at held

theorem zset_at_of_hash {keys : KeySpace K F M} {key : K} {fields : Hash F M}
    (held : hashAt keys key = some fields) : zsetAt keys key = .empty := by
  simp [zsetAt, key_of_hash held]

theorem key_of_no_hash {keys : KeySpace K F M} {key : K} (free : hashAt keys key = none) :
    keys key = none ∨ ∃ set present, keys key = some (.zset set present) := by
  cases found : keys key with
  | none => exact .inl rfl
  | some value =>
      cases value with
      | hash stored => simp [hashAt, found] at free
      | zset set present => exact .inr ⟨set, present, rfl⟩

theorem hget_of_hash {keys : KeySpace K F M} {key : K} {fields : Hash F M} (field : F)
    (held : hashAt keys key = some fields) : hget key field keys = .ok (fields field) := by
  simp [hget, key_of_hash held]

theorem hgetall_of_hash {keys : KeySpace K F M} {key : K} {fields : Hash F M}
    (held : hashAt keys key = some fields) : hgetall key keys = .ok fields := by
  simp [hgetall, key_of_hash held]

theorem zrange_of_no_hash {keys : KeySpace K F M} {key : K} (free : hashAt keys key = none) (lower upper : Bound) :
    zrangeByScore key lower upper keys = .ok ((zsetAt keys key).rangeByScore lower upper) := by
  cases key_of_no_hash free with
  | inl absent => simp only [zrangeByScore, absent]
  | inr held =>
      obtain ⟨set, present, found⟩ := held
      simp only [zrangeByScore, found]

variable [DecidableEq K]

@[simp] theorem hash_at_write_hash (keys : KeySpace K F M) (key query : K) (fields : Hash F M) :
    hashAt (writeHash keys key fields) query = if query = key then some fields else hashAt keys query := by
  by_cases same : query = key
  · subst query
    simp [hashAt, writeHash]
  · simp [hashAt, writeHash, same]

@[simp] theorem zset_at_write_hash (keys : KeySpace K F M) (key query : K) (fields : Hash F M) :
    zsetAt (writeHash keys key fields) query = if query = key then .empty else zsetAt keys query := by
  by_cases same : query = key
  · subst query
    simp [zsetAt, writeHash]
  · simp [zsetAt, writeHash, same]

@[simp] theorem hash_at_write_set (keys : KeySpace K F M) (key query : K) (set : SortedSet M) :
    hashAt (writeSet keys key set) query = if query = key then none else hashAt keys query := by
  by_cases same : query = key
  · subst query
    by_cases present : set.entries = [] <;> simp [hashAt, writeSet, present]
  · simp [hashAt, writeSet, same]

@[simp] theorem zset_at_write_set (keys : KeySpace K F M) (key query : K) (set : SortedSet M) :
    zsetAt (writeSet keys key set) query = if query = key then set else zsetAt keys query := by
  by_cases same : query = key
  · subst query
    by_cases present : set.entries = []
    · simp [zsetAt, writeSet, (SortedSet.eq_empty_iff set).mpr present]
    · simp [zsetAt, writeSet, present]
  · simp [zsetAt, writeSet, same]

@[simp] theorem hash_at_del (keys : KeySpace K F M) (names : List K) (query : K) :
    hashAt (del names keys) query = if query ∈ names then none else hashAt keys query := by
  by_cases named : query ∈ names <;> simp [hashAt, del, named]

@[simp] theorem zset_at_del (keys : KeySpace K F M) (names : List K) (query : K) :
    zsetAt (del names keys) query = if query ∈ names then .empty else zsetAt keys query := by
  by_cases named : query ∈ names <;> simp [zsetAt, del, named]

theorem zadd_of_no_hash {keys : KeySpace K F M} {key : K} (free : hashAt keys key = none) (score : Int)
    (member : M) : zadd key score member keys = .ok (writeSet keys key ((zsetAt keys key).add score member)) := by
  cases key_of_no_hash free with
  | inl absent => simp only [zadd, absent]
  | inr held =>
      obtain ⟨set, present, found⟩ := held
      simp only [zadd, found]

theorem zrem_of_no_hash {keys : KeySpace K F M} {key : K} (free : hashAt keys key = none) (members : List M) :
    zrem key members keys = .ok (writeSet keys key ((zsetAt keys key).remove members)) := by
  cases key_of_no_hash free with
  | inl absent => simp only [zrem, absent]
  | inr held =>
      obtain ⟨set, present, found⟩ := held
      simp only [zrem, found]

variable [DecidableEq F]

theorem hincrby_of_hash {keys : KeySpace K F M} {key : K} {fields : Hash F M} (field : F)
    {value increment : Int} (held : hashAt keys key = some fields) (stored : fields field = some (.int value))
    (oldFits : fitsInt64 value = true) (newFits : fitsInt64 (value + increment) = true) :
    hincrby key field increment keys =
      .ok (writeHash keys key (Function.update fields field (some (.int (value + increment))))) := by
  simp [hincrby, key_of_hash held, held, stored, oldFits, newFits]

theorem hset_of_absent {keys : KeySpace K F M} {key : K} (pairs : List (F × Bulk M)) (absent : keys key = none) :
    hset key pairs keys = .ok (writeHash keys key
      (pairs.foldl (fun held pair => Function.update held pair.1 (some pair.2)) fun _ => none)) := by
  simp [hset, absent, hashAt]

end Redis
