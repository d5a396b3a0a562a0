/-! Tables from text to values that keep their keys in order of first writing. Writing one key
leaves the others alone (`get?_insert`), and the order of keys changes only by a new key at the end
(`keys_insert`). -/
namespace RequestLocale

structure Table (α : Type) where
  entries : List (String × α)
  distinct : (entries.map (·.1)).Nodup
  deriving DecidableEq

namespace Table

variable {α : Type}

/-- Writes in the place of the entry with the same key, else at the end. -/
def put (key : String) (value : α) : List (String × α) → List (String × α)
  | [] => [(key, value)]
  | (k, v) :: entries =>
    if k = key then (key, value) :: entries else (k, v) :: put key value entries

theorem map_fst_put (key : String) (value : α) (entries : List (String × α)) :
    (put key value entries).map (·.1) =
      if key ∈ entries.map (·.1) then entries.map (·.1) else entries.map (·.1) ++ [key] := by
  induction entries with
  | nil => rfl
  | cons entry entries ih =>
    by_cases h : entry.1 = key
    · simp [put, h]
    · by_cases hm : key ∈ entries.map (·.1)
      · rw [if_pos hm] at ih
        simp only [put, if_neg h, List.map_cons, ih, List.mem_cons, hm, or_true, if_true]
      · rw [if_neg hm] at ih
        simp only [put, if_neg h, List.map_cons, ih, List.mem_cons, hm, or_false,
          if_neg (Ne.symm h), List.cons_append]

theorem nodup_put (key : String) (value : α) {entries : List (String × α)}
    (h : (entries.map (·.1)).Nodup) : ((put key value entries).map (·.1)).Nodup := by
  rw [map_fst_put]
  split
  · exact h
  · rename_i hm
    rw [List.nodup_append]
    exact ⟨h, by simp, by rintro a ha b hb rfl; simp at hb; exact hm (hb ▸ ha)⟩

def empty : Table α := ⟨[], by simp⟩

instance : EmptyCollection (Table α) := ⟨empty⟩
instance : Inhabited (Table α) := ⟨empty⟩

def keys (t : Table α) : List String := t.entries.map (·.1)

def values (t : Table α) : List α := t.entries.map (·.2)

def isEmpty (t : Table α) : Bool := t.entries.isEmpty

def get? (t : Table α) (key : String) : Option α := (t.entries.find? (·.1 == key)).map (·.2)

def contains (t : Table α) (key : String) : Bool := (t.get? key).isSome

def insert (t : Table α) (key : String) (value : α) : Table α :=
  ⟨put key value t.entries, nodup_put key value t.distinct⟩

/-- Writes every entry of a list, the first one first. -/
def insertAll (t : Table α) (entries : List (String × α)) : Table α :=
  entries.foldl (fun t entry => t.insert entry.1 entry.2) t

def ofList (entries : List (String × α)) : Table α := insertAll {} entries

/-- Writes every entry of a second table. -/
def merge (t u : Table α) : Table α := t.insertAll u.entries

def erase (t : Table α) (key : String) : Table α :=
  ⟨t.entries.filter (·.1 != key), (List.filter_sublist.map _).nodup t.distinct⟩

theorem find?_put (key : String) (value : α) (entries : List (String × α)) (k : String) :
    (put key value entries).find? (·.1 == k) =
      if k = key then some (key, value) else entries.find? (·.1 == k) := by
  induction entries with
  | nil =>
    by_cases h : k = key
    · simp [put, h]
    · simp [put, h, Ne.symm h]
  | cons entry entries ih =>
    by_cases he : entry.1 = key
    · by_cases h : k = key
      · simp [put, he, h]
      · simp [put, he, h, Ne.symm h]
    · by_cases h : k = key
      · simp_all [put]
      · simp [put, he, List.find?_cons, ih, h]

theorem get?_insert (t : Table α) (key : String) (value : α) (k : String) :
    (t.insert key value).get? k = if k = key then some value else t.get? k := by
  simp only [get?, insert, find?_put]
  split <;> rfl

theorem keys_insert (t : Table α) (key : String) (value : α) :
    (t.insert key value).keys = if key ∈ t.keys then t.keys else t.keys ++ [key] :=
  map_fst_put key value t.entries

theorem keys_nodup (t : Table α) : t.keys.Nodup := t.distinct

@[simp] theorem get?_empty (key : String) : (empty : Table α).get? key = none := rfl

end Table

/-- The messages of one locale: the text under each key. -/
abbrev Messages := Table String

end RequestLocale
