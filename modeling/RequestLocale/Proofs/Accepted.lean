import RequestLocale.Proofs.Results
import RequestLocale.Settings.Source

/-! # Settings that are accepted

What the checks of the fields guarantee is stated here once; nothing about requests looks at the
checks again. In the other direction the defaults pass their checks, and they do so with any
aliases at all (`isAccepted_withAliases`), since a check looks at an alias only for being text, and
with any name of the cookie that has no blanks around it (`exists_isAccepted_cookieField_iff`) and any
name of the translator (`isAccepted_withFunctionName`). -/
namespace RequestLocale.Settings

open Text

/-- Some keywords build the settings in some environment. -/
def IsAccepted (s : Settings) : Prop :=
  ∃ keywords environment, build keywords environment = .ok s

/-! ## What is guaranteed -/

/-- A name that passes its check is not blank and has no blanks around it, whichever field it is
for. -/
theorem trimmed_of_checkName {field : Field} {value : Value} {name : String}
    (h : checkName field value = .ok name) : trimmed name = name ∧ name ≠ "" := by
  simp only [checkName, bind, Except.bind] at h
  split at h
  · cases h
  · split at h
    · cases h
    · split at h
      · cases h
      · rename_i blank
        cases h
        exact ⟨trimmed_trimmed _, by simpa using blank⟩

/-- Such a name passes as it is. -/
theorem checkName_text (field : Field) {name : String} (ht : trimmed name = name) (hn : name ≠ "") :
    checkName field (.text name) = .ok name := by
  simp only [checkName, checkText, bind, Except.bind, ht]
  simp [hn]
  rfl

/-- Each value passes the check of its field. -/
structure Passes (value : Field → Value) (s : Settings) : Prop where
  defaultLocale : checkName .defaultLocale (value .defaultLocale) = .ok s.defaultLocale
  queryField : checkName .queryField (value .queryField) = .ok s.queryField
  cookieField : checkName .cookieField (value .cookieField) = .ok s.cookieField
  aliases : checkAliases (value .aliases) = .ok s.aliases
  cookieMaxAge : checkMaxAge (value .cookieMaxAge) = .ok (.ok s.life)
  functionName : checkText [Field.functionName.name] (value .functionName) = .ok s.functionName
  directories : checkDirectories (value .directories) = .ok s.directories
  deployment : checkDeployment (value .deployment) = .ok s.deployment
  debug : checkDebug (value .debug) = .ok s.debug

theorem check_eq_ok_iff {given : Field → Option Value} {s : Settings} :
    check given = .ok s ↔ Passes (fun field => (given field).getD (fallback field)) s := by
  constructor
  · intro h
    simp only [check, bind, Except.bind] at h
    split at h
    · cases h
    · rename_i life hl
      split at h
      · cases h
        constructor <;> assumption
      · cases h
  · rintro ⟨a, b, c, d, e, f, g, i, j⟩
    simp only [check, bind, Except.bind, a, b, c, d, e, f, g, i, j]
    rfl

theorem IsAccepted.names_trimmed {s : Settings} (h : s.IsAccepted) :
    (trimmed s.defaultLocale = s.defaultLocale ∧ s.defaultLocale ≠ "") ∧
      trimmed s.cookieField = s.cookieField ∧ s.cookieField ≠ "" := by
  obtain ⟨keywords, environment, h⟩ := h
  obtain ⟨aliases, -, h⟩ := ok_of_bind h
  have passes := check_eq_ok_iff.mp h
  exact ⟨trimmed_of_checkName passes.defaultLocale, trimmed_of_checkName passes.cookieField⟩

/-- The last resort of every decision is there. -/
theorem IsAccepted.defaultLocale_ne_empty {s : Settings} (h : s.IsAccepted) :
    s.defaultLocale ≠ "" := h.names_trimmed.1.2

/-- The locale cookie has a name. -/
theorem IsAccepted.cookieField_ne_empty {s : Settings} (h : s.IsAccepted) :
    s.cookieField ≠ "" := h.names_trimmed.2.2

/-! ## Defaults, aliases, the name of the cookie and that of the translator -/

/-- The defaults, with aliases. -/
def withAliases (aliases : List (String × String)) : Settings :=
  ⟨"en_US", "locale", "locale", .ofList aliases, ⟨31557600, by decide +kernel⟩, "__",
    .several ["locales"], .locally, false⟩

/-- Aliases as the value of their keyword. -/
def aliasRecord (aliases : List (String × String)) : Value :=
  .record (aliases.map fun entry => (.text entry.1, .text entry.2))

/-- Texts pass whatever they are. -/
theorem checkAliases_aliasRecord (aliases : List (String × String)) :
    checkAliases (aliasRecord aliases) = .ok (.ofList aliases) := by
  have texts : textEntries [Field.aliases.name]
      (aliases.map fun entry => (.text entry.1, .text entry.2)) = .ok aliases := by
    induction aliases with
    | nil => rfl
    | cons entry aliases ih => simp [textEntries, textEntry, checkText, ih]
  rw [aliasRecord, checkAliases, texts]
  rfl

/-- The defaults, with another name for the locale cookie. -/
def withCookieField (name : String) : Settings := { withAliases [] with cookieField := name }

/-- The defaults, with another name for the translator. -/
def withFunctionName (name : String) : Settings := { withAliases [] with functionName := name }

/-- Every default passes its check. -/
theorem passes_fallback : Passes fallback (withAliases []) where
  defaultLocale := eq_ok_of_toOption (by decide +kernel)
  queryField := eq_ok_of_toOption (by decide +kernel)
  cookieField := eq_ok_of_toOption (by decide +kernel)
  aliases := checkAliases_aliasRecord []
  cookieMaxAge := by
    have seconds : Duration.seconds (fallback .cookieMaxAge) = .ok 31557600 :=
      eq_ok_of_toOption (by decide +kernel)
    exact checkMaxAge_of_seconds ⟨31557600, Duration.isShort_of_seconds seconds⟩ seconds
  functionName := rfl
  directories := rfl
  deployment := eq_ok_of_toOption (by decide +kernel)
  debug := rfl

theorem Field.mem_all (field : Field) : field ∈ all := by cases field <;> decide

/-- The names of two fields differ in more than letter case. -/
theorem Field.lowered_name_beq (a b : Field) : (lowered a.name == lowered b.name) = (a == b) := by
  have distinct : ∀ a ∈ all, ∀ b ∈ all, (lowered a.name == lowered b.name) = (a == b) := by
    decide +kernel
  exact distinct a a.mem_all b b.mem_all

theorem Field.name_beq (a b : Field) : (a.name == b.name) = (a == b) := by
  have distinct : ∀ a ∈ all, ∀ b ∈ all, (a.name == b.name) = (a == b) := by decide +kernel
  exact distinct a a.mem_all b b.mem_all

theorem combine_none (value : Option Value) : combine value none = value := by
  cases value with
  | none => rfl
  | some value => cases value <;> rfl

theorem keyword?_single (named : Field) (value : Value) (field : Field) :
    keyword? [(named.name, value)] field = if named = field then some value else none := by
  simp only [keyword?, List.filter_cons, List.filter_nil, Field.name_beq, Field.lowered_name_beq]
  by_cases h : named = field <;> simp [h]

theorem environmentValue_empty (field : Field) : environmentValue {} field = .ok none := rfl

theorem build_single (named : Field) (value : Value) :
    build [(named.name, value)] {} = check fun field => if named = field then some value else none := by
  simp only [build, environmentValue_empty, bind, Except.bind]
  congr
  funext field
  cases field <;> simp [keyword?_single, combine_none, Except.toOption]

/-- A keyword for one field is accepted with the defaults of the others if it passes its check. -/
theorem isAccepted_single (named : Field) (value : Value) {s : Settings}
    (h : Passes (fun field => if named = field then value else fallback field) s) :
    s.IsAccepted := by
  refine ⟨[(named.name, value)], {}, ?_⟩
  have values : (fun field => (if named = field then some value else none).getD (fallback field)) =
      fun field => if named = field then value else fallback field := by
    funext field
    split <;> rfl
  rw [build_single, check_eq_ok_iff, values]
  exact h

theorem isAccepted_withAliases (aliases : List (String × String)) :
    (withAliases aliases).IsAccepted :=
  isAccepted_single .aliases (aliasRecord aliases)
    { passes_fallback with aliases := checkAliases_aliasRecord aliases }

/-- A check looks at the name of the cookie only for the blanks around it. -/
theorem isAccepted_withCookieField {name : String} (ht : trimmed name = name) (hn : name ≠ "") :
    (withCookieField name).IsAccepted :=
  isAccepted_single .cookieField (.text name)
    { passes_fallback with cookieField := checkName_text .cookieField ht hn }

/-- A check looks at the name of the translator only for being text. -/
theorem isAccepted_withFunctionName (name : String) : (withFunctionName name).IsAccepted :=
  isAccepted_single .functionName (.text name)
    { passes_fallback with functionName := rfl }

theorem exists_isAccepted_cookieField_iff {name : String} :
    (∃ s : Settings, s.IsAccepted ∧ s.cookieField = name) ↔ trimmed name = name ∧ name ≠ "" := by
  constructor
  · rintro ⟨s, accepted, rfl⟩
    exact accepted.names_trimmed.2
  · rintro ⟨ht, hn⟩
    exact ⟨withCookieField name, isAccepted_withCookieField ht hn, rfl⟩

end RequestLocale.Settings
