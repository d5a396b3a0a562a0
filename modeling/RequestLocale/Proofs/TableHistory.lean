import Mathlib.Data.List.Basic
import Mathlib.Data.List.Induction
import RequestLocale.Table

/-! # A table as the history of what was written to it

The keys of a table that was filled from the empty one stand in the order of their first writing,
and under each key lies what was written to it last. So it makes no difference whether entries are
written one by one or gathered in a table of their own first (`merge_ofList`). -/
namespace RequestLocale.Table

variable {α : Type}

/-- What was written last under a key. -/
def lastUnder (entries : List (String × α)) (key : String) : Option α :=
  ((entries.filter (·.1 == key)).getLast?).map (·.2)

theorem lastUnder_append (earlier later : List (String × α)) (key : String) :
    lastUnder (earlier ++ later) key = (lastUnder later key).or (lastUnder earlier key) := by
  unfold lastUnder
  rw [List.filter_append, List.getLast?_append]
  cases ((later.filter (·.1 == key)).getLast?) <;> rfl

theorem lastUnder_eq_none {entries : List (String × α)} {key : String}
    (h : ∀ entry ∈ entries, entry.1 ≠ key) : lastUnder entries key = none := by
  have none : entries.filter (·.1 == key) = [] :=
    List.filter_eq_nil_iff.mpr fun entry hm => by simpa using h entry hm
  rw [lastUnder, none]
  rfl

/-- What has one value wherever it is written has that value last. -/
theorem lastUnder_eq_some {entries : List (String × α)} {key : String} {value : α}
    (hm : (key, value) ∈ entries) (h : ∀ entry ∈ entries, entry.1 = key → entry.2 = value) :
    lastUnder entries key = some value := by
  have hf : (key, value) ∈ entries.filter (·.1 == key) := List.mem_filter.mpr ⟨hm, by simp⟩
  have hne : entries.filter (·.1 == key) ≠ [] := List.ne_nil_of_mem hf
  obtain ⟨hl, hk⟩ := List.mem_filter.mp (List.getLast_mem hne)
  rw [lastUnder, List.getLast?_eq_some_getLast hne, Option.map_some, h _ hl (by simpa using hk)]

theorem eraseDups_concat (xs : List String) (x : String) :
    (xs ++ [x]).eraseDups = if x ∈ xs then xs.eraseDups else xs.eraseDups ++ [x] := by
  rw [List.eraseDups_append]
  by_cases h : x ∈ xs
  · simp [List.removeAll, h]
  · simp [List.removeAll, h, List.eraseDups_cons]

theorem eraseDups_of_nodup {xs : List String} (h : xs.Nodup) : xs.eraseDups = xs := by
  induction xs using List.reverseRecOn with
  | nil => rfl
  | append_singleton xs x ih =>
    obtain ⟨h, -, apart⟩ := List.nodup_append.mp h
    have fresh : x ∉ xs := fun hm => apart x hm x (by simp) rfl
    rw [eraseDups_concat, if_neg fresh, ih h]

theorem insertAll_concat (t : Table α) (entries : List (String × α)) (entry : String × α) :
    t.insertAll (entries ++ [entry]) = (t.insertAll entries).insert entry.1 entry.2 := by
  simp [insertAll]

theorem ofList_concat (entries : List (String × α)) (entry : String × α) :
    ofList (entries ++ [entry]) = (ofList entries).insert entry.1 entry.2 :=
  insertAll_concat {} entries entry

theorem keys_insertAll (t : Table α) (entries : List (String × α)) :
    (t.insertAll entries).keys = (t.keys ++ entries.map (·.1)).eraseDups := by
  induction entries using List.reverseRecOn with
  | nil =>
    rw [List.map_nil, List.append_nil, eraseDups_of_nodup t.keys_nodup]
    rfl
  | append_singleton entries entry ih =>
    rw [insertAll_concat, keys_insert, ih, List.map_append, List.map_singleton, ← List.append_assoc,
      eraseDups_concat]
    simp only [List.mem_eraseDups]

theorem keys_ofList (entries : List (String × α)) :
    (ofList entries).keys = (entries.map (·.1)).eraseDups := keys_insertAll {} entries

theorem get?_insertAll (t : Table α) (entries : List (String × α)) (key : String) :
    (t.insertAll entries).get? key = (lastUnder entries key).or (t.get? key) := by
  induction entries using List.reverseRecOn with
  | nil => rfl
  | append_singleton entries entry ih =>
    rw [insertAll_concat, get?_insert, ih, lastUnder_append]
    by_cases h : key = entry.1
    · simp [lastUnder, h]
    · have hb : (entry.1 == key) = false := by simpa using Ne.symm h
      simp [lastUnder, h, hb]

theorem get?_ofList (entries : List (String × α)) (key : String) :
    (ofList entries).get? key = lastUnder entries key := by
  rw [ofList, get?_insertAll]
  exact Option.or_none

theorem find?_of_mem {entries : List (String × α)} (distinct : (entries.map (·.1)).Nodup)
    {entry : String × α} (h : entry ∈ entries) :
    entries.find? (·.1 == entry.1) = some entry := by
  induction entries with
  | nil => cases h
  | cons first entries ih =>
    obtain ⟨fresh, distinct⟩ := List.nodup_cons.mp distinct
    rcases List.mem_cons.mp h with rfl | h
    · simp
    · have hne : first.1 ≠ entry.1 := by
        intro he
        exact fresh (List.mem_map.mpr ⟨entry, h, he.symm⟩)
      rw [List.find?_cons_of_neg (by simpa using hne)]
      exact ih distinct h

theorem contains_iff_mem_keys {t : Table α} {key : String} :
    t.contains key = true ↔ key ∈ t.keys := by
  simp [contains, get?, keys]

theorem get?_eq_lastUnder (t : Table α) (key : String) : t.get? key = lastUnder t.entries key := by
  cases h : t.get? key with
  | none =>
    obtain hf := Option.map_eq_none_iff.mp h
    refine (lastUnder_eq_none fun entry hm he => ?_).symm
    exact List.find?_eq_none.mp hf entry hm (by simpa using he)
  | some value =>
    obtain ⟨⟨name, _⟩, hf, rfl⟩ := Option.map_eq_some_iff.mp h
    obtain rfl : name = key := by simpa using List.find?_some hf
    refine (lastUnder_eq_some (List.mem_of_find?_eq_some hf) ?_).symm
    rintro ⟨_, value⟩ hm rfl
    cases (find?_of_mem t.distinct hm).symm.trans hf
    rfl

theorem get?_merge (t u : Table α) (key : String) :
    (t.merge u).get? key = (u.get? key).or (t.get? key) := by
  rw [merge, get?_insertAll, ← get?_eq_lastUnder]

/-- The values are those under the keys, in the order of the keys. -/
theorem values_eq (t : Table α) : t.values = t.keys.filterMap t.get? := by
  rw [keys, List.filterMap_map, values, ← List.filterMap_eq_map]
  refine List.filterMap_congr fun entry h => ?_
  simp [get?, find?_of_mem t.distinct h]

theorem values_ofList (entries : List (String × α)) :
    (ofList entries).values = (entries.map (·.1)).eraseDups.filterMap (lastUnder entries) := by
  rw [values_eq, keys_ofList]
  exact List.filterMap_congr fun key _ => get?_ofList entries key

/-! ## Tables from other tables -/

theorem get?_eq_none_iff {t : Table α} {key : String} : t.get? key = none ↔ key ∉ t.keys := by
  rw [← contains_iff_mem_keys, contains, Bool.not_eq_true, Option.isSome_eq_false_iff,
    Option.isNone_iff_eq_none]

/-- A table is known by its keys and what lies under them. -/
theorem eq_of_keys {t u : Table α} (hk : t.keys = u.keys) (hg : ∀ key, t.get? key = u.get? key) :
    t = u := by
  have values : t.values = u.values := by
    rw [values_eq, values_eq, hk]
    exact List.filterMap_congr fun key _ => hg key
  have entries : t.entries = u.entries :=
    calc t.entries
      _ = t.keys.zip t.values := List.zip_of_prod rfl rfl
      _ = u.keys.zip u.values := by rw [hk, values]
      _ = u.entries := (List.zip_of_prod rfl rfl).symm
  cases t
  cases u
  cases entries
  rfl

theorem merge_insert (t u : Table α) (key : String) (value : α) :
    t.merge (u.insert key value) = (t.merge u).insert key value := by
  refine eq_of_keys ?_ fun k => ?_
  · rw [merge, keys_insertAll, keys_insert, merge, keys_insertAll]
    change (t.keys ++ (u.insert key value).keys).eraseDups =
      if key ∈ (t.keys ++ u.keys).eraseDups then (t.keys ++ u.keys).eraseDups
      else (t.keys ++ u.keys).eraseDups ++ [key]
    simp only [List.mem_eraseDups]
    rw [← eraseDups_concat, keys_insert]
    split
    · rename_i h
      rw [eraseDups_concat, if_pos (List.mem_append_right _ h)]
    · rw [List.append_assoc]
  · rw [get?_merge, get?_insert, get?_insert, get?_merge]
    split <;> simp

/-- To write the entries of a table again gives the table. -/
theorem ofList_entries (t : Table α) : ofList t.entries = t := by
  refine eq_of_keys ?_ fun key => ?_
  · rw [keys_ofList]
    exact eraseDups_of_nodup t.keys_nodup
  · rw [get?_ofList, get?_eq_lastUnder]

theorem prefix_eraseDups {names keys : List String} (h : names <+: keys) (distinct : names.Nodup) :
    names <+: keys.eraseDups := by
  obtain ⟨more, rfl⟩ := h
  rw [List.eraseDups_append, eraseDups_of_nodup distinct]
  exact List.prefix_append _ _

/-- A table whose keys come first in another one adds nothing to it from below. -/
theorem merge_eq_right {t u : Table α} (h : t.keys <+: u.keys) : t.merge u = u := by
  have known {key : String} (hk : key ∈ t.keys) : key ∈ u.keys := h.subset hk
  refine eq_of_keys ?_ fun key => ?_
  · obtain ⟨more, hm⟩ := h
    have apart : List.removeAll u.keys t.keys = more := by
      have distinct := u.keys_nodup
      rw [← hm, List.nodup_append] at distinct
      rw [← hm, List.removeAll, List.filter_append, List.filter_eq_nil_iff.mpr (by simp),
        List.nil_append, List.filter_eq_self.mpr]
      intro key hk
      simpa using fun first => distinct.2.2 key first key hk rfl
    have fresh : more.Nodup := (List.nodup_append.mp (hm ▸ u.keys_nodup)).2.1
    change (t.insertAll u.entries).keys = u.keys
    rw [keys_insertAll, ← keys, List.eraseDups_append, eraseDups_of_nodup t.keys_nodup, apart,
      eraseDups_of_nodup fresh, hm]
  · rw [get?_merge]
    cases hu : u.get? key with
    | some value => rfl
    | none => exact get?_eq_none_iff.mpr fun hk => get?_eq_none_iff.mp hu (known hk)

/-- To merge what was written to an empty table is to write it. -/
theorem merge_ofList (t : Table α) (entries : List (String × α)) :
    t.merge (ofList entries) = t.insertAll entries := by
  induction entries using List.reverseRecOn with
  | nil => rfl
  | append_singleton entries entry ih => rw [ofList_concat, merge_insert, ih, insertAll_concat]

theorem map_put {rename : String → String} (inj : Function.Injective rename) (key : String)
    (value : α) (entries : List (String × α)) :
    (put key value entries).map (Prod.map rename id) =
      put (rename key) value (entries.map (Prod.map rename id)) := by
  induction entries with
  | nil => rfl
  | cons entry entries ih =>
    simp only [put, List.map_cons, Prod.map_fst, inj.eq_iff]
    split
    · rfl
    · rw [List.map_cons, ih]
      rfl

/-- New names for all keys, no two keys getting the same one, leave the entries in their places. -/
theorem entries_ofList_map {rename : String → String} (inj : Function.Injective rename)
    (entries : List (String × α)) :
    (ofList (entries.map (Prod.map rename id))).entries =
      (ofList entries).entries.map (Prod.map rename id) := by
  induction entries using List.reverseRecOn with
  | nil => rfl
  | append_singleton entries entry ih =>
    rw [List.map_append, List.map_singleton, ofList_concat, ofList_concat, insert, insert,
      map_put inj, ← ih]
    rfl

end RequestLocale.Table
