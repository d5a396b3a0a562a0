import RequestLocale.Proofs.DirectoryText
import RequestLocale.Proofs.DurationReport
import RequestLocale.Proofs.Representable

/-! # Settings built again from their own values

What a check gives passes the check again and stays as it is: names are trimmed already, the seconds
of a number of the floating-point format are such a number themselves, and a path that opens a list
is one text. The aliases need more than their check, for they are merged with those of the
environment once more; since these were merged first, their keys stand first in the result and the
merge changes nothing (`Table.merge_eq_right`). So settings are a fixed point of building them
(`build_again`). -/
namespace RequestLocale

namespace Directories

/-- Directories as the value of their keyword. -/
def value : Directories → Value
  | .single path => .text path
  | .several paths => .list (paths.map .text)

end Directories

namespace Settings

open Text

variable {keywords : List (String × Value)} {environment : Table String} {s : Settings}

/-- A setting as the value of its keyword. -/
def value (s : Settings) : Field → Value
  | .defaultLocale => .text s.defaultLocale
  | .queryField => .text s.queryField
  | .cookieField => .text s.cookieField
  | .aliases => aliasRecord s.aliases.entries
  | .cookieMaxAge => .int s.cookieMaxAge
  | .functionName => .text s.functionName
  | .directories => s.directories.value
  | .deployment => .text s.deployment.name
  | .debug => .bool s.debug

/-- All settings as keywords. -/
def asKeywords (s : Settings) : List (String × Value) :=
  Field.all.map fun field => (field.name, s.value field)

theorem keyword?_asKeywords (s : Settings) (field : Field) :
    keyword? s.asKeywords field = some (s.value field) := by
  have exact_name : s.asKeywords.filter (fun keyword => keyword.1 == field.name) =
      [(field.name, s.value field)] := by
    simp only [asKeywords, List.filter_map, Function.comp_def, Field.name_beq]
    cases field <;> rfl
  simp [keyword?, exact_name]

/-! ## Each field again -/

/-- A text without blanks at its ends that is not empty. -/
structure IsTrimmedName (name : String) : Prop where
  some_text : name ≠ ""
  start : ∀ c ∈ name.toList.head?, isBlank c = false
  atEnd : ∀ c ∈ name.toList.getLast?, isBlank c = false

theorem isTrimmedName_of_checkName {field : Field} {v : Value} {name : String}
    (h : checkName field v = .ok name) : IsTrimmedName name := by
  obtain ⟨ht, hn⟩ := trimmed_of_checkName h
  have same : trim name.toList = name.toList := by
    rw [← String.toList_ofList (l := trim name.toList), ← trimmed, ht]
  obtain ⟨start, atEnd⟩ := trim_eq_self_iff.mp same
  exact ⟨hn, start, atEnd⟩

theorem checkName_again {field : Field} {v : Value} {name : String}
    (h : checkName field v = .ok name) : checkName field (.text name) = .ok name :=
  checkName_text field (trimmed_of_checkName h).1 (trimmed_of_checkName h).2

theorem checkDirectories_again {v : Value} {d : Directories} (h : checkDirectories v = .ok d) :
    checkDirectories d.value = .ok d := by
  cases d with
  | several paths => exact checkDirectories_texts paths
  | single path =>
    cases v with
    | text s =>
      rw [checkDirectories_text, directoriesOf] at h
      split at h
      · cases h
        rw [Directories.value, checkDirectories_text, directoriesOf, if_pos ‹_›]
      · cases h
    | sequence kind items =>
      cases kind with
      | tuple => cases h
      | list =>
        simp only [checkDirectories, directoryList] at h
        split at h <;> cases h
    | _ => cases h

theorem checkDeployment_again (d : Deployment) : checkDeployment (.text d.name) = .ok d := by
  cases d <;> exact eq_ok_of_toOption (by decide +kernel)

end Settings

/-! ## The life of the cookie again -/

namespace Duration

/-- The seconds of a duration are a duration of so many seconds. -/
theorem seconds_again {v : Value} {n : Nat} (hs : seconds v = .ok n) :
    seconds (.int n) = .ok n := by
  obtain ⟨-, x, -, negative, units, -, -, hn⟩ := seconds_eq_ok_iff.mp hs
  have whole : Binary64.ofInt n = .finite false units.whole := by
    rw [hn]
    exact Binary64.ofInt_whole units
  have measured : HasWhole (.finite false units.whole) n := by
    refine ⟨false, _, rfl, fun sign => (by cases sign), ?_⟩
    rw [Binary64.Units.whole, Nat.mul_div_cancel _ Binary64.one_pos, hn]
  refine seconds_eq_ok_iff.mpr ⟨?_, Binary64.ofInt n, rfl, whole ▸ measured⟩
  rintro ⟨m, hm, large⟩
  cases hm
  rcases Binary64.ofInt_cases n with ⟨-, infinite⟩ | ⟨small, -⟩
  · rw [whole] at infinite
    cases infinite
  · exact absurd large (Nat.not_le_of_lt small)

end Duration

/-! ## The aliases again -/

namespace Entries

/-- Keys keep their places when an entry is written. -/
theorem keys_prefix_put (key v : Value) (es : Entries) :
    es.map (·.1) <+: (put key v es).map (·.1) := by
  induction es with
  | nil => exact List.nil_prefix
  | cons entry es ih =>
    rw [put]
    split
    · exact List.prefix_rfl
    · exact List.cons_prefix_cons.mpr ⟨rfl, ih⟩

theorem keys_prefix_ofList_append (earlier later : List (Value × Value)) :
    (ofList earlier).map (·.1) <+: (ofList (earlier ++ later)).map (·.1) := by
  induction later using List.reverseRecOn with
  | nil => simp
  | append_singleton later entry ih =>
    have last : ofList (earlier ++ (later ++ [entry])) =
        put entry.1 entry.2 (ofList (earlier ++ later)) := by
      rw [← List.append_assoc, ofList, List.foldl_append]
      rfl
    rw [last]
    exact ih.trans (keys_prefix_put entry.1 entry.2 _)

/-- A key that is written is there afterwards, or an equal one is. -/
theorem exists_key_put (key v : Value) (es : Entries) :
    ∃ e ∈ put key v es, e.1 = key ∨ e.1.sameKey key = true := by
  induction es with
  | nil => exact ⟨(key, v), List.mem_singleton.mpr rfl, .inl rfl⟩
  | cons entry es ih =>
    rw [put]
    split
    · rename_i same
      exact ⟨(entry.1, v), List.mem_cons_self, .inr same⟩
    · obtain ⟨e, hm, he⟩ := ih
      exact ⟨e, List.mem_cons_of_mem _ hm, he⟩

theorem exists_key_ofList {pairs : List (Value × Value)} {pair : Value × Value} (h : pair ∈ pairs) :
    ∃ e ∈ ofList pairs, e.1 = pair.1 ∨ e.1.sameKey pair.1 = true := by
  obtain ⟨before, behind, rfl⟩ := List.append_of_mem h
  have written : ofList (before ++ [pair]) = put pair.1 pair.2 (ofList before) := by
    rw [ofList, List.foldl_append]
    rfl
  obtain ⟨e, hm, he⟩ := exists_key_put pair.1 pair.2 (ofList before)
  rw [← written] at hm
  have kept := (keys_prefix_ofList_append (before ++ [pair]) behind).subset
    (List.mem_map_of_mem hm)
  rw [List.append_assoc, List.singleton_append] at kept
  obtain ⟨e', hm', same⟩ := List.mem_map.mp kept
  exact ⟨e', hm', same ▸ he⟩

end Entries

/-- Bytes equal no other keys. -/
theorem Value.eq_bytes_of_sameKey {key : Value} {bs : List UInt8}
    (h : key.sameKey (.bytes false bs) = true) : key = .bytes false bs := by
  have noNumber (q : Option Quantity) : (q.isSome && q == Option.none) ≠ true := by
    cases q <;> exact Bool.noConfusion
  have others : (key.quantity?.isSome && key.quantity? == Option.none) = true →
      key = .bytes false bs := fun h => absurd h (noNumber _)
  cases key with
  | bytes mutable others =>
    cases mutable with
    | false => rw [beq_iff_eq.mp h]
    | true => cases h
  | sequence kind items => cases kind <;> exact others h
  | _ => exact others h

namespace Settings

open Json (named)

variable {keywords : List (String × Value)} {environment : Table String}

/-- Keys that are texts stay what they are. -/
theorem prefix_of_textEntries {path names : List String} {es : Entries}
    {texts : List (String × String)} (h : textEntries path es = .ok texts)
    (hp : names.map .text <+: es.map (·.1)) : names <+: texts.map (·.1) := by
  induction names generalizing es texts with
  | nil => exact List.nil_prefix
  | cons name names ih =>
    cases es with
    | nil => simp at hp
    | cons entry es =>
      obtain ⟨key, v⟩ := entry
      simp only [List.map_cons, List.cons_prefix_cons] at hp
      obtain ⟨rfl, hp⟩ := hp
      rw [textEntries] at h
      split at h
      · rename_i pair rest hpair hrest
        cases h
        rw [textEntry] at hpair
        split at hpair
        · rename_i k w hk hw
          cases hpair
          cases hk
          exact List.cons_prefix_cons.mpr ⟨rfl, ih hrest hp⟩
        · cases hpair
      · cases h

theorem checkAliases_eq_ok_iff {v : Value} {aliases : Table String} :
    checkAliases v = .ok aliases ↔ ∃ es texts, v = .record es ∧
      textEntries [Field.aliases.name] es = .ok texts ∧ aliases = .ofList texts := by
  constructor
  · intro h
    cases v with
    | record es =>
      rw [checkAliases] at h
      cases texts : textEntries [Field.aliases.name] es with
      | error faults => rw [texts] at h; cases h
      | ok pairs => rw [texts] at h; exact ⟨es, pairs, rfl, texts, (Except.ok.inj h).symm⟩
    | _ => cases h
  · rintro ⟨es, texts, rfl, h, rfl⟩
    rw [checkAliases, h]
    rfl

theorem checkText_of_textEntries {path : List String} {es : Entries}
    {texts : List (String × String)} (h : textEntries path es = .ok texts) :
    ∀ e ∈ es, ∃ place s, checkText place e.1 = .ok s := by
  induction es generalizing texts with
  | nil => simp
  | cons entry es ih =>
    rw [textEntries] at h
    split at h
    · rename_i pair rest hpair hrest
      rw [textEntry] at hpair
      split at hpair
      · rename_i k w hk hw
        exact List.forall_mem_cons.mpr ⟨⟨_, k, hk⟩, ih hrest⟩
      · cases hpair
    · cases h

/-- Whatever a keyword adds to a record of the environment, its keys are still there, and so they are
checked. -/
theorem checkText_of_combine {fromKeyword : Option Value} {es : Entries} {aliases : Table String}
    (h : checkAliases ((combine fromKeyword (some (.record es))).getD (fallback .aliases)) =
      .ok aliases) :
    ∀ e ∈ es, ∃ key place s, (key = e.1 ∨ key.sameKey e.1 = true) ∧ checkText place key = .ok s := by
  intro e he
  obtain ⟨merged, given, there⟩ : ∃ merged,
      (combine fromKeyword (some (.record es))).getD (fallback .aliases) = .record merged ∧
        ∃ e' ∈ merged, e'.1 = e.1 ∨ e'.1.sameKey e.1 = true := by
    cases fromKeyword with
    | none => exact ⟨es, rfl, e, he, .inl rfl⟩
    | some v =>
      cases v with
      | record later =>
        exact ⟨_, rfl, Entries.exists_key_ofList (List.mem_append_left later he)⟩
      | _ => cases h
  obtain ⟨e', hm, same⟩ := there
  rw [given] at h
  obtain ⟨_, texts, record, ht, -⟩ := checkAliases_eq_ok_iff.mp h
  cases record
  obtain ⟨place, s, hs⟩ := checkText_of_textEntries ht e' hm
  exact ⟨e'.1, place, s, same, hs⟩

/-- The entries of a record of the environment come first, whatever the keyword adds. -/
theorem prefix_of_combine {fromKeyword : Option Value} {earlier : Table Value} {es : Entries}
    (h : combine fromKeyword (some (.record (earlier.entries.map named))) = some (.record es)) :
    earlier.keys.map .text <+: es.map (·.1) := by
  have own : (earlier.entries.map named).map (·.1) = earlier.keys.map Value.text := by
    simp [Table.keys, named, Function.comp_def]
  cases fromKeyword with
  | none =>
    cases h
    exact own ▸ List.prefix_rfl
  | some v =>
    cases v with
    | record later =>
      cases h
      have first := Entries.keys_prefix_ofList_append (earlier.entries.map named) later
      rwa [Json.ofList_named_of_nodup earlier.distinct, own] at first
    | _ => cases h

/-- The keys of the aliases of the environment come first in the merged ones. -/
theorem keys_prefix_of_combine {fromKeyword : Option Value} {earlier : Table Value}
    {aliases : Table String}
    (h : checkAliases ((combine fromKeyword (some (.record (earlier.entries.map named)))).getD
      (fallback .aliases)) = .ok aliases) : earlier.keys <+: aliases.keys := by
  obtain ⟨v, given⟩ : ∃ v,
      combine fromKeyword (some (.record (earlier.entries.map named))) = some v := by
    cases fromKeyword with
    | none => exact ⟨_, rfl⟩
    | some v => cases v <;> exact ⟨_, rfl⟩
  rw [given, Option.getD_some] at h
  obtain ⟨es, texts, rfl, ht, rfl⟩ := checkAliases_eq_ok_iff.mp h
  rw [Table.keys_ofList]
  exact Table.prefix_eraseDups (prefix_of_textEntries ht (prefix_of_combine given))
    earlier.keys_nodup

/-- Aliases as a table of values. -/
def aliasTable (aliases : Table String) : Table Value where
  entries := aliases.entries.map fun entry => (entry.1, .text entry.2)
  distinct := by simpa [Function.comp_def] using aliases.distinct

theorem keys_aliasTable (aliases : Table String) : (aliasTable aliases).keys = aliases.keys := by
  simp [Table.keys, aliasTable, Function.comp_def]

theorem aliasRecord_eq (aliases : Table String) :
    aliasRecord aliases.entries = .record ((aliasTable aliases).entries.map named) := by
  simp [aliasRecord, aliasTable, named, Function.comp_def]

/-- Aliases that have those of the environment first are merged with them into themselves. -/
theorem combine_aliasRecord {earlier : Table Value} {aliases : Table String}
    (h : earlier.keys <+: aliases.keys) :
    combine (some (aliasRecord aliases.entries)) (some (.record (earlier.entries.map named))) =
      some (aliasRecord aliases.entries) := by
  have merged : Table.ofList (earlier.entries ++ (aliasTable aliases).entries) = aliasTable aliases :=
    calc Table.ofList (earlier.entries ++ (aliasTable aliases).entries)
      _ = (Table.ofList earlier.entries).merge (aliasTable aliases) := List.foldl_append
      _ = earlier.merge (aliasTable aliases) := by rw [Table.ofList_entries]
      _ = aliasTable aliases := Table.merge_eq_right (by rwa [keys_aliasTable])
  rw [aliasRecord_eq, combine, ← List.map_append, Json.ofList_named, merged]

/-- A record that the environment gives for the aliases has names as keys. -/
theorem names_of_environmentValue {es : Entries}
    (h : environmentValue environment .aliases = .ok (some (.record es))) :
    ∃ pairs : List (Value × Value), es = Entries.ofList pairs ∧
      ∀ pair ∈ pairs, Json.IsName pair.1 := by
  unfold environmentValue at h
  split at h
  · cases h
  · dsimp only at h
    split at h
    · rename_i s _ v read
      have found : v = .record es := by
        cases v with
        | none => cases h
        | _ => exact Option.some.inj (Except.ok.inj h)
      subst found
      exact Json.isName_of_read read
    · cases h

/-- If it is accepted its keys are texts. -/
theorem table_of_environmentValue {fromKeyword : Option Value} {es : Entries}
    {aliases : Table String} (he : environmentValue environment .aliases = .ok (some (.record es)))
    (h : checkAliases ((combine fromKeyword (some (.record es))).getD (fallback .aliases)) =
      .ok aliases) : ∃ earlier : Table Value, es = earlier.entries.map named := by
  obtain ⟨pairs, rfl, names⟩ := names_of_environmentValue he
  have whole : ∀ pair ∈ pairs, ∃ s, pair.1 = .text s := by
    intro pair hm
    rcases names pair hm with text | ⟨bs, hbs, broken⟩
    · exact text
    · -- Bytes would stay among the keys and be refused.
      exfalso
      obtain ⟨e, there, same⟩ := Entries.exists_key_ofList hm
      rw [hbs] at same
      have bytes : e.1 = .bytes false bs := same.elim id Value.eq_bytes_of_sameKey
      obtain ⟨key, place, s, same, passed⟩ := checkText_of_combine h e there
      rw [bytes] at same
      rw [same.elim id Value.eq_bytes_of_sameKey] at passed
      exact checkText_of_isBroken broken place false s passed
  obtain ⟨texts, rfl⟩ : ∃ texts : List (String × Value), pairs = texts.map named := by
    clear he h names
    induction pairs with
    | nil => exact ⟨[], rfl⟩
    | cons pair pairs ih =>
      obtain ⟨⟨s, hs⟩, whole⟩ := List.forall_mem_cons.mp whole
      obtain ⟨texts, rfl⟩ := ih whole
      exact ⟨(s, pair.2) :: texts, by rw [List.map_cons, named, ← hs]⟩
  exact ⟨Table.ofList texts, Json.ofList_named texts⟩

theorem combine_again {fromKeyword fromEnvironment : Option Value} {aliases : Table String}
    (he : environmentValue environment .aliases = .ok fromEnvironment)
    (h : checkAliases ((combine fromKeyword fromEnvironment).getD (fallback .aliases)) =
      .ok aliases) :
    combine (some (aliasRecord aliases.entries)) fromEnvironment =
      some (aliasRecord aliases.entries) := by
  cases fromEnvironment with
  | none => rfl
  | some v =>
    cases v with
    | record es =>
      obtain ⟨earlier, rfl⟩ := table_of_environmentValue he h
      exact combine_aliasRecord (keys_prefix_of_combine h)
    | _ => rfl

theorem checkAliases_again (aliases : Table String) :
    checkAliases (aliasRecord aliases.entries) = .ok aliases := by
  rw [checkAliases_aliasRecord, Table.ofList_entries]

/-! ## All settings again -/

theorem seconds_of_checkMaxAge {v : Value} {life : Life} (h : checkMaxAge v = .ok (.ok life)) :
    Duration.seconds v = .ok life.seconds := by
  cases hs : Duration.seconds v with
  | ok n =>
    rw [checkMaxAge_of_seconds ⟨n, Duration.isShort_of_seconds hs⟩ hs] at h
    cases h
    rfl
  | error e =>
    rw [checkMaxAge_of_error hs] at h
    cases e <;> cases h

theorem checkMaxAge_again {v : Value} {life : Life} (h : checkMaxAge v = .ok (.ok life)) :
    checkMaxAge (.int life.seconds) = .ok (.ok life) :=
  checkMaxAge_of_seconds life (Duration.seconds_again (seconds_of_checkMaxAge h))

/-- **Settings that were built are built again from their own values in the same environment**, and
the names among them have no blanks around them. That the life of the cookie is a natural number is
its type. -/
theorem build_again {s : Settings} (h : build keywords environment = .ok s) :
    (∀ name ∈ [s.defaultLocale, s.queryField, s.cookieField], IsTrimmedName name) ∧
      build s.asKeywords environment = .ok s := by
  obtain ⟨aliases, ha, passes⟩ := build_eq_ok_iff.mp h
  have names : ∀ name ∈ [s.defaultLocale, s.queryField, s.cookieField], IsTrimmedName name := by
    simp only [List.forall_mem_cons, List.not_mem_nil, false_implies, implies_true, and_true]
    exact ⟨isTrimmedName_of_checkName passes.defaultLocale,
      isTrimmedName_of_checkName passes.queryField, isTrimmedName_of_checkName passes.cookieField⟩
  -- A keyword for each field leaves the environment a say in the aliases only.
  have given_again : ∀ field, (given s.asKeywords environment aliases field).getD
      (fallback field) = s.value field := by
    intro field
    cases field with
    | aliases =>
      rw [given, keyword?_asKeywords, value, combine_again ha passes.aliases]
      rfl
    | _ => simp [given, keyword?_asKeywords]
  refine ⟨names, build_eq_ok_iff.mpr ⟨aliases, ha, ?_⟩⟩
  simp only [given_again]
  exact {
    defaultLocale := checkName_again passes.defaultLocale
    queryField := checkName_again passes.queryField
    cookieField := checkName_again passes.cookieField
    aliases := checkAliases_again s.aliases
    cookieMaxAge := checkMaxAge_again passes.cookieMaxAge
    functionName := rfl
    directories := checkDirectories_again passes.directories
    deployment := checkDeployment_again s.deployment
    debug := rfl }

/-- Keywords with blanks, an amount that is rounded, and aliases to be merged. -/
def frenchKeywords : List (String × Value) :=
  [("DEFAULT_LOCALE", .text " fr "), ("COOKIE_MAX_AGE", .float (.ofInt (2 ^ 53 + 1))),
   ("LOCALE_ALIAS", aliasRecord [("fr", "fr_FR")]), ("DIRS", .text "app, plugins")]

def englishEnvironment : Table String :=
  .ofList [("LOCALES_QUERY_FIELD", " lang "),
    ("LOCALES_LOCALE_ALIAS", "\x7b\"en\": \"en_US\"\x7d")]

theorem french_build_again : ∃ s, build frenchKeywords englishEnvironment = .ok s ∧
    s.cookieMaxAge = 2 ^ 53 ∧ s.aliases.keys = ["en", "fr"] ∧
      build s.asKeywords englishEnvironment = .ok s := by
  have built : build frenchKeywords englishEnvironment = .ok ⟨"fr", "lang", "locale",
      .ofList [("en", "en_US"), ("fr", "fr_FR")], ⟨2 ^ 53, by decide +kernel⟩, "__",
      .several ["app", "plugins"], .locally, false⟩ :=
    eq_ok_of_toOption (by decide +kernel)
  exact ⟨_, built, rfl, rfl, (build_again built).2⟩

end Settings

end RequestLocale
