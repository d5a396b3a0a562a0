import RequestLocale.Proofs.Accepted

/-! # From the values of the fields to settings

Settings are built in two steps: each field gets a value from keywords, environment and defaults
(`given`), and each value passes its own check (`Passes`). What is said of settings as a whole is put
together from what is said of one field at a time. A keyword or a variable for one field leaves the
others as they are (`keyword?_concat`, `environmentText?_insert`). -/
namespace RequestLocale.Settings

open Text

variable {keywords : List (String × Value)} {environment : Table String}

/-- What keywords and environment give to a field, after the aliases of the environment were read. -/
def given (keywords : List (String × Value)) (environment : Table String) (aliases : Option Value) :
    Field → Option Value
  | .aliases => combine (keyword? keywords .aliases) aliases
  | field => (keyword? keywords field).or ((environmentValue environment field).toOption.getD none)

theorem build_eq (keywords : List (String × Value)) (environment : Table String) :
    build keywords environment =
      (environmentValue environment .aliases).bind fun aliases =>
        check (given keywords environment aliases) := rfl

theorem build_eq_ok_iff {s : Settings} :
    build keywords environment = .ok s ↔ ∃ aliases,
      environmentValue environment .aliases = .ok aliases ∧
        Passes (fun field => (given keywords environment aliases field).getD (fallback field)) s := by
  rw [build_eq]
  cases environmentValue environment .aliases with
  | error e => simp [Except.bind]
  | ok aliases => simp [Except.bind, check_eq_ok_iff]

/-- The life of the cookie is what its keyword gives, or else a text. -/
theorem cookieMaxAge_cases (keywords : List (String × Value)) (environment : Table String)
    (aliases : Option Value) :
    (∃ value, keyword? keywords .cookieMaxAge = some value ∧
        (given keywords environment aliases .cookieMaxAge).getD (fallback .cookieMaxAge) = value) ∨
      keyword? keywords .cookieMaxAge = none ∧ ∃ s,
        (given keywords environment aliases .cookieMaxAge).getD (fallback .cookieMaxAge) =
          .text s := by
  simp only [given, environmentValue]
  cases keyword? keywords .cookieMaxAge with
  | some value => exact .inl ⟨value, rfl, rfl⟩
  | none =>
    refine .inr ⟨rfl, ?_⟩
    cases environmentText? environment .cookieMaxAge with
    | none => exact ⟨"1y", rfl⟩
    | some s => exact ⟨s, rfl⟩

/-! ## One keyword or variable more -/

theorem keyword?_concat (keywords : List (String × Value)) (named : Field) (value : Value)
    (field : Field) :
    keyword? (keywords ++ [(named.name, value)]) field =
      if named = field then some value else keyword? keywords field := by
  simp only [keyword?, List.filter_append, List.filter_cons, List.filter_nil, Field.name_beq,
    Field.lowered_name_beq]
  by_cases h : named = field <;> simp [h]

/-- The name of the variable for a field. -/
def Field.variableName (field : Field) : String := "LOCALES_" ++ field.name

theorem Field.lowered_variableName_beq (a b : Field) :
    (lowered a.variableName == lowered b.variableName) = (a == b) := by
  have distinct : ∀ a ∈ all, ∀ b ∈ all,
      (lowered a.variableName == lowered b.variableName) = (a == b) := by decide +kernel
  exact distinct a a.mem_all b b.mem_all

theorem filter_put_of_neg {p : String × String → Bool} {key value : String}
    (h : ∀ value, p (key, value) = false) (entries : List (String × String)) :
    (Table.put key value entries).filter p = entries.filter p := by
  induction entries with
  | nil => simp [Table.put, h]
  | cons entry entries ih =>
    obtain ⟨name, text⟩ := entry
    rw [Table.put]
    split
    · rename_i same
      subst same
      simp [h]
    · rw [List.filter_cons, List.filter_cons, ih]

theorem filter_put_of_nil {p : String × String → Bool} {key value : String}
    (h : p (key, value) = true) {entries : List (String × String)} (none : entries.filter p = []) :
    (Table.put key value entries).filter p = [(key, value)] := by
  induction entries with
  | nil => simp [Table.put, h]
  | cons entry entries ih =>
    obtain ⟨first, none⟩ := List.forall_mem_cons.mp (List.filter_eq_nil_iff.mp none)
    have none := List.filter_eq_nil_iff.mpr none
    rw [Table.put]
    split
    · rw [List.filter_cons_of_pos h, none]
    · rw [List.filter_cons_of_neg first, ih none]

/-- A variable that is set gives its field the text, if no other variable did, and gives the others
nothing. -/
theorem environmentText?_insert {named : Field} {text : String} (some_text : text ≠ "")
    (unset : environmentText? environment named = none) (field : Field) :
    environmentText? (environment.insert named.variableName text) field =
      if named = field then some text else environmentText? environment field := by
  simp only [environmentText?, Table.insert]
  by_cases h : named = field
  · subst h
    have none : environment.entries.filter (fun entry =>
        lowered entry.1 == lowered ("LOCALES_" ++ named.name) && !entry.2.isEmpty) = [] := by
      simpa [environmentText?] using unset
    rw [if_pos rfl, filter_put_of_nil ?_ none]
    · rfl
    · simpa [Field.variableName] using some_text
  · rw [if_neg h, filter_put_of_neg]
    intro value
    have other := Field.lowered_variableName_beq named field
    rw [Field.variableName, Field.variableName] at other
    simp [Field.variableName, other, h]

end RequestLocale.Settings
