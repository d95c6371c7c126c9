import Mathlib.Data.List.Nodup

set_option autoImplicit false

namespace Sql

structure Schema (Row Id Key : Type) where
  id : Row → Id
  key : Row → Key

variable {Row Id Key : Type}

structure Rows (schema : Schema Row Id Key) where
  rows : List Row
  ids : (rows.map schema.id).Nodup
  keys : (rows.map schema.key).Nodup

inductive InsertError where
  | uniqueViolation
  | foreignKeyViolation
  | outOfRange
deriving DecidableEq, Repr

variable {schema : Schema Row Id Key}

def Rows.empty : Rows schema := ⟨[], List.nodup_nil, List.nodup_nil⟩

theorem row_of_key {table : Rows schema} {a b : Row} (inA : a ∈ table.rows) (inB : b ∈ table.rows)
    (same : schema.key a = schema.key b) : a = b := List.inj_on_of_nodup_map table.keys inA inB same

theorem nodup_concat {α : Type} {items : List α} {last : α} (distinct : items.Nodup) (fresh : last ∉ items) :
    (items ++ [last]).Nodup := by
  rw [List.nodup_append]
  refine ⟨distinct, List.nodup_singleton last, ?_⟩
  rintro item member _ single rfl
  rw [List.mem_singleton.mp single] at member
  exact fresh member

structure Update (schema : Schema Row Id Key) where
  set : Row → Row
  keepsId : ∀ row, schema.id (set row) = schema.id row
  keepsKey : ∀ row, schema.key (set row) = schema.key row

variable [DecidableEq Key]

def Update.at (update : Update schema) (key : Key) (row : Row) : Row :=
  if schema.key row = key then update.set row else row

theorem update_at_id (update : Update schema) (key : Key) (row : Row) : schema.id (update.at key row) = schema.id row := by
  rw [Update.at]
  split
  · exact update.keepsId row
  · rfl

theorem update_at_key (update : Update schema) (key : Key) (row : Row) :
    schema.key (update.at key row) = schema.key row := by
  rw [Update.at]
  split
  · exact update.keepsKey row
  · rfl

def Rows.update (update : Update schema) (key : Key) (table : Rows schema) : Rows schema where
  rows := table.rows.map (update.at key)
  ids := by
    have same : (table.rows.map (update.at key)).map schema.id = table.rows.map schema.id := by
      rw [List.map_map]
      exact List.map_congr_left fun row _ => update_at_id update key row
    rw [same]
    exact table.ids
  keys := by
    have same : (table.rows.map (update.at key)).map schema.key = table.rows.map schema.key := by
      rw [List.map_map]
      exact List.map_congr_left fun row _ => update_at_key update key row
    rw [same]
    exact table.keys

theorem mem_update {table : Rows schema} (update : Update schema) (key : Key) (other : Row) :
    other ∈ (table.update update key).rows ↔
      (∃ held ∈ table.rows, schema.key held = key ∧ other = update.set held) ∨
        (other ∈ table.rows ∧ schema.key other ≠ key) := by
  constructor
  · intro member
    obtain ⟨held, old, rfl⟩ := List.mem_map.mp member
    by_cases hit : schema.key held = key
    · rw [Update.at, if_pos hit]
      exact .inl ⟨held, old, hit, rfl⟩
    · rw [Update.at, if_neg hit]
      exact .inr ⟨old, hit⟩
  · rintro (⟨held, old, hit, rfl⟩ | ⟨old, miss⟩)
    · exact List.mem_map.mpr ⟨held, old, if_pos hit⟩
    · exact List.mem_map.mpr ⟨other, old, if_neg miss⟩

variable [DecidableEq Id]

def Rows.insert (row : Row) (table : Rows schema) : Except InsertError (Rows schema) :=
  if fresh : schema.id row ∉ table.rows.map schema.id ∧ schema.key row ∉ table.rows.map schema.key then
    .ok {
      rows := table.rows ++ [row]
      ids := by
        rw [List.map_append]
        exact nodup_concat table.ids fresh.1
      keys := by
        rw [List.map_append]
        exact nodup_concat table.keys fresh.2 }
  else .error .uniqueViolation

-- `INSERT ... ON CONFLICT (key) DO UPDATE`: a conflict on the primary key alone is still an error.
def Rows.upsert (row : Row) (update : Update schema) (table : Rows schema) : Except InsertError (Rows schema) :=
  if schema.key row ∈ table.rows.map schema.key then .ok (table.update update (schema.key row)) else table.insert row

section Insert

variable {row : Row} {table next : Rows schema}

theorem insert_rows (done : table.insert row = .ok next) : next.rows = table.rows ++ [row] := by
  rw [Rows.insert] at done
  split at done
  · rw [← Except.ok.inj done]
  · cases done

theorem mem_insert (done : table.insert row = .ok next) (other : Row) :
    other ∈ next.rows ↔ other ∈ table.rows ∨ other = row := by
  rw [insert_rows done, List.mem_append, List.mem_singleton]

theorem upsert_cases {update : Update schema} (done : table.upsert row update = .ok next) :
    (∃ held ∈ table.rows, schema.key held = schema.key row ∧ next = table.update update (schema.key row)) ∨
      ((∀ held ∈ table.rows, schema.key held ≠ schema.key row) ∧ table.insert row = .ok next) := by
  rw [Rows.upsert] at done
  split at done
  · rename_i taken
    obtain ⟨held, member, same⟩ := List.mem_map.mp taken
    exact .inl ⟨held, member, same, (Except.ok.inj done).symm⟩
  · rename_i free
    exact .inr ⟨fun held member same => free (List.mem_map.mpr ⟨held, member, same⟩), done⟩

end Insert

section Find

-- `find(id).first()` and `filter(key.eq(value)).first()`.
def Rows.find (id : Id) (table : Rows schema) : Option Row := table.rows.find? fun row => schema.id row = id

def Rows.findKey (key : Key) (table : Rows schema) : Option Row := table.rows.find? fun row => schema.key row = key

theorem find_distinct {Value : Type} [DecidableEq Value] {column : Row → Value} {rows : List Row}
    (distinct : (rows.map column).Nodup) (value : Value) (row : Row) :
    rows.find? (fun row => column row = value) = some row ↔ row ∈ rows ∧ column row = value := by
  have hit : ∀ other, rows.find? (fun row => column row = value) = some other → column other = value := by
    intro other found
    simpa using List.find?_some found
  constructor
  · exact fun found => ⟨List.mem_of_find?_eq_some found, hit row found⟩
  · rintro ⟨member, same⟩
    cases found : rows.find? (fun row => column row = value) with
    | none => exact absurd (decide_eq_true same) (List.find?_eq_none.mp found row member)
    | some other =>
        have agree := (hit other found).trans same.symm
        rw [List.inj_on_of_nodup_map distinct (List.mem_of_find?_eq_some found) member agree]

variable {table : Rows schema} {row : Row}

omit [DecidableEq Key] in
theorem find_iff (id : Id) : table.find id = some row ↔ row ∈ table.rows ∧ schema.id row = id :=
  find_distinct table.ids id row

omit [DecidableEq Id] in
theorem find_key_iff (key : Key) : table.findKey key = some row ↔ row ∈ table.rows ∧ schema.key row = key :=
  find_distinct table.keys key row

end Find

end Sql
