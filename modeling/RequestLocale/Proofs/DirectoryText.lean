import RequestLocale.Proofs.FieldValues
import RequestLocale.Proofs.JsonValues
import RequestLocale.Proofs.Parts

/-! # Directories as text

A text for the directories stands for the items of a JSON list or else for its parts between commas.
A variable is read as JSON before its value is checked, a keyword is not: as a keyword every text that
opens a list is one path, and as a variable a text that is JSON of any other kind gives that value. So
the two ways are exact and alike for a text exactly if it is no JSON and, where it opens a list, has
itself as its only part (`directories_read_alike_iff`). What is read as JSON has lost quotes or
brackets, and so it is never what the keyword gives (`mass_of_read`). -/
namespace RequestLocale.Settings

open Text
open Json (mass mass_append)

/-- The parts of a text between commas, without the blanks around them. Blank parts are left out. -/
def parts (s : String) : List String :=
  (((split ',' s.toList).map trim).filter (· ≠ [])).map String.ofList

/-- The paths that a text stands for. -/
def Names (s : String) (paths : List String) : Prop :=
  Json.read s.toList = .ok (.list (paths.map .text)) ∨
    (∀ items : List String, Json.read s.toList ≠ .ok (.list (items.map .text))) ∧ paths = parts s

/-- What the check makes of a text. -/
def directoriesOf (s : String) : Directories :=
  if s.toList.head? = some '[' then .single s else .several (parts s)

/-! ## Checking texts and lists of texts -/

theorem directoryItems_texts (path : List String) (place : Nat) (texts : List String) :
    directoryItems path place (texts.map .text) = .ok texts := by
  induction texts generalizing place with
  | nil => rfl
  | cons s texts ih => simp [directoryItems, checkText, ih]

theorem checkDirectories_texts (texts : List String) :
    checkDirectories (.list (texts.map .text)) = .ok (.several texts) := by
  simp only [checkDirectories, directoryList, directoryItems_texts]

theorem checkDirectories_text (s : String) :
    checkDirectories (.text s) = .ok (directoriesOf s) := by
  by_cases h : s.toList.head? = some '['
  · simp [checkDirectories, directoryList, directoriesOf, h, checkText, Except.map]
  · have texts := checkDirectories_texts (parts s)
    rw [parts, List.map_map] at texts
    rw [directoriesOf, if_neg h, parts, ← texts]
    simp [checkDirectories, directoryList, h]
    rfl

/-- Bytes that encode no text do not pass. -/
theorem checkText_of_isBroken {bs : List UInt8} (h : Json.IsBroken bs) (path : List String)
    (mutable : Bool) (s : String) : checkText path (.bytes mutable bs) ≠ .ok s := by
  obtain ⟨e, h⟩ := h
  simp [checkText, h]

theorem checkDirectories_of_isBroken {bs : List UInt8} (h : Json.IsBroken bs) (mutable : Bool)
    {d : Directories} : checkDirectories (.list [.bytes mutable bs]) ≠ .ok d := by
  obtain ⟨e, h⟩ := h
  simp [checkDirectories, directoryList, directoryItems, checkText, h]

/-- A list that passes holds nothing but texts, as long as bytes in it encode none. -/
theorem texts_of_directoryItems {path : List String} {place : Nat} {items : List Value}
    {paths : List String}
    (broken : ∀ item ∈ items, ∀ mutable bs, item = .bytes mutable bs → Json.IsBroken bs)
    (h : directoryItems path place items = .ok paths) : items = paths.map .text := by
  induction items generalizing place paths with
  | nil => cases h; rfl
  | cons item items ih =>
    obtain ⟨first, broken⟩ := List.forall_mem_cons.mp broken
    rw [directoryItems] at h
    split at h
    · rename_i s rest hs hr
      cases h
      rw [ih broken hr]
      cases item with
      | text t => cases hs; rfl
      | bytes mutable bs => exact absurd hs (checkText_of_isBroken (first mutable bs rfl) _ _ _)
      | _ => cases hs
    · cases h

/-! ## What is lost in reading -/

theorem mass_of_blank {cs : List Char} (h : ∀ c ∈ cs, isBlank c = true) : mass cs = 0 :=
  List.countP_eq_zero.mpr fun c hc => by simp [h c hc]

theorem mass_trimStart (cs : List Char) : mass (trimStart cs) = mass cs := by
  have blank : mass (cs.takeWhile isBlank) = 0 :=
    mass_of_blank fun c hc => List.mem_takeWhile_imp hc
  calc mass (trimStart cs)
    _ = mass (cs.takeWhile isBlank) + mass (trimStart cs) := by rw [blank, Nat.zero_add]
    _ = mass (cs.takeWhile isBlank ++ trimStart cs) := (mass_append _ _).symm
    _ = mass cs := by rw [trimStart, List.takeWhile_append_dropWhile]

theorem mass_reverse (cs : List Char) : mass cs.reverse = mass cs := List.countP_reverse

theorem mass_trim (cs : List Char) : mass (trim cs) = mass cs := by
  rw [trim, trimEnd, mass_reverse, ← trimStart, mass_trimStart, mass_reverse, mass_trimStart]

theorem mass_join (pieces : List (List Char)) :
    mass (join [','] pieces) = mass pieces.flatten := by
  induction pieces with
  | nil => rfl
  | cons piece pieces ih =>
    cases pieces with
    | nil => rw [join, List.flatten_singleton]
    | cons next pieces =>
      have comma : mass [','] = 0 := by decide
      rw [join_cons (List.cons_ne_nil _ _), mass_append, mass_append, comma, ih, Nat.add_zero,
        ← mass_append, ← List.flatten_cons]

theorem mass_flatten_trim (pieces : List (List Char)) :
    mass (pieces.map trim).flatten = mass pieces.flatten := by
  induction pieces with
  | nil => rfl
  | cons piece pieces ih =>
    rw [List.map_cons, List.flatten_cons, mass_append, mass_trim, ih, ← mass_append,
      ← List.flatten_cons]

/-- The check of a text loses blanks and commas only. -/
theorem mass_directoriesOf (s : String) :
    mass ((directoriesOf s).paths.flatMap String.toList) = mass s.toList := by
  unfold directoriesOf
  split
  · rw [Directories.paths, List.flatMap_singleton]
  · have pieces : (parts s).flatMap String.toList = ((split ',' s.toList).map trim).flatten := by
      rw [parts, List.flatMap_map, ← List.flatten_filter_ne_nil]
      simp [List.flatMap_def]
    calc mass ((parts s).flatMap String.toList)
      _ = mass ((split ',' s.toList).map trim).flatten := by rw [pieces]
      _ = mass (split ',' s.toList).flatten := mass_flatten_trim _
      _ = mass (join [','] (split ',' s.toList)) := (mass_join _).symm
      _ = mass s.toList := by rw [join_split]

theorem mass_of_read_list {cs : List Char} {texts : List String}
    (h : Json.read cs = .ok (.list (texts.map .text))) :
    mass (texts.flatMap String.toList) < mass cs := by
  obtain ⟨fuel, rest, h, -⟩ := Json.value_of_read h
  obtain ⟨body, hb, he⟩ := Json.items_of_value h
  rw [← Json.mass_skipSpace cs, hb, Json.mass_cons_of_counts (by decide)]
  rcases he with he | ⟨fuel, he⟩
  · rw [List.map_eq_nil_iff.mp he]
    exact Nat.succ_pos _
  · have lost := Json.mass_of_items he
    rw [Json.mass_skipSpace] at lost
    omega

theorem mass_of_read_text {cs : List Char} {s : String} (h : Json.read cs = .ok (.text s)) :
    mass s.toList < mass cs := by
  obtain ⟨fuel, rest, h, -⟩ := Json.value_of_read h
  have lost := Json.mass_of_value h
  rw [Json.mass_skipSpace] at lost
  omega

theorem mass_of_read_none {cs : List Char} (h : Json.read cs = .ok .none) : mass cs = 4 := by
  obtain ⟨fuel, rest, h, hr⟩ := Json.value_of_read h
  have nothing : mass rest = 0 := by
    rw [← Json.mass_skipSpace, hr]
    rfl
  have word : mass "null".toList = 4 := by decide
  rw [← Json.mass_skipSpace, Json.eq_null_of_value h, mass_append, nothing, word]

theorem items_of_read {cs : List Char} {items : List Value} (h : Json.read cs = .ok (.list items)) :
    ∀ item ∈ items, ∀ mutable bs, item = .bytes mutable bs → Json.IsBroken bs := by
  obtain ⟨fuel, rest, h, -⟩ := Json.value_of_read h
  obtain ⟨body, -, he⟩ := Json.items_of_value h
  rcases he with rfl | ⟨fuel, he⟩
  · simp
  · exact Json.isBroken_of_items he

/-- Whatever paths are read from JSON, they have fewer characters than what they are read from. -/
theorem mass_of_read {cs : List Char} {v : Value} {d : Directories} (h : Json.read cs = .ok v)
    (hd : checkDirectories v = .ok d) : mass (d.paths.flatMap String.toList) < mass cs := by
  cases v with
  | text s =>
    rw [checkDirectories_text] at hd
    cases hd
    rw [mass_directoriesOf]
    exact mass_of_read_text h
  | sequence kind items =>
    cases kind with
    | tuple => cases hd
    | list =>
      simp only [checkDirectories, directoryList] at hd
      split at hd
      · rename_i paths hp
        cases hd
        rw [texts_of_directoryItems (items_of_read h) hp] at h
        exact mass_of_read_list h
      · cases hd
  | _ => cases hd

/-! ## The two ways -/

/-- What a variable with the text gives to its field. -/
def decoded (s : String) : Option Value :=
  match Json.read s.toList with
  | .ok value => presentPaths value
  | .error _ => some (.text s)

/-- Values with another one for the directories. -/
def withDirectories (value : Option Value) (given : Field → Option Value) : Field → Option Value
  | .directories => value
  | field => given field

theorem decoded_of_not_json {s : String} (h : ∀ v, Json.read s.toList ≠ .ok v) :
    decoded s = some (.text s) := by
  unfold decoded
  split
  · rename_i v hv
    exact absurd hv (h v)
  · rfl

/-- The check of a value of JSON never gives what the check of the text gives. -/
theorem checkDirectories_decoded_ne {s : String} {v : Value} (h : Json.read s.toList = .ok v) :
    checkDirectories ((decoded s).getD (fallback .directories)) ≠ .ok (directoriesOf s) := by
  intro same
  by_cases none : v = .none
  · -- The field is left to its default, which is longer than the word for nothing.
    subst none
    rw [decoded, h] at same
    have paths : directoriesOf s = .several ["locales"] :=
      Except.ok.inj (same.symm.trans (checkDirectories_texts ["locales"]))
    have mass_text := mass_directoriesOf s
    rw [paths, mass_of_read_none h] at mass_text
    exact absurd mass_text (by decide)
  · have given : decoded s = some v ∨ ∃ mutable bs, v = .bytes mutable bs ∧
        decoded s = some (.list [.bytes mutable bs]) := by
      rw [decoded, h]
      cases v with
      | none => exact absurd rfl none
      | bytes mutable bs => exact .inr ⟨mutable, bs, rfl, rfl⟩
      | _ => exact .inl rfl
    rcases given with given | ⟨mutable, bs, rfl, given⟩
    · rw [given, Option.getD_some] at same
      have lost := mass_of_read h same
      rw [mass_directoriesOf] at lost
      exact absurd lost (Nat.lt_irrefl _)
    · -- Bytes stand for a text that is none, and no list with them passes.
      obtain ⟨fuel, rest, read, -⟩ := Json.value_of_read h
      rw [given, Option.getD_some] at same
      exact checkDirectories_of_isBroken (Json.isBroken_of_value read) mutable same

section

variable {keywords : List (String × Value)} {environment : Table String}

theorem build_keyword (keywords : List (String × Value)) (environment : Table String) (s : String) :
    build (keywords ++ [(Field.directories.name, .text s)]) environment =
      (environmentValue environment .aliases).bind fun aliases =>
        check (withDirectories (some (.text s)) (given keywords environment aliases)) := by
  rw [build_eq]
  congr
  funext aliases
  congr
  funext field
  cases field <;> simp [given, withDirectories, keyword?_concat]

theorem environmentValue_variable {s : String} (some_text : s ≠ "")
    (unset : environmentText? environment .directories = none) (field : Field) :
    environmentValue (environment.insert Field.directories.variableName s) field =
      if field = .directories then .ok (decoded s) else environmentValue environment field := by
  unfold environmentValue
  rw [environmentText?_insert some_text unset]
  by_cases h : field = .directories
  · subst h
    rw [if_pos rfl, if_pos rfl, decoded]
    dsimp only
    split <;> simp only [*]
  · rw [if_neg h, if_neg (Ne.symm h)]

theorem build_variable {s : String} (some_text : s ≠ "")
    (unset : environmentText? environment .directories = none)
    (unnamed : keyword? keywords .directories = none) :
    build keywords (environment.insert Field.directories.variableName s) =
      (environmentValue environment .aliases).bind fun aliases =>
        check (withDirectories (decoded s) (given keywords environment aliases)) := by
  have variable_value := environmentValue_variable some_text unset
  rw [build_eq, variable_value, if_neg (by decide)]
  congr
  funext aliases
  congr
  funext field
  cases field <;> simp [given, withDirectories, variable_value, unnamed, Except.toOption]

end

/-- With defaults for the other fields, settings have the directories that pass. -/
theorem check_withDirectories_iff {value : Option Value} {d : Directories} :
    check (withDirectories value fun _ => none) =
        .ok { withAliases [] with directories := d } ↔
      checkDirectories (value.getD (fallback .directories)) = .ok d := by
  obtain ⟨a, b, c, e, f, g, -, i, j⟩ := passes_fallback
  rw [check_eq_ok_iff]
  exact ⟨fun h => h.directories, fun h => ⟨a, b, c, e, f, g, h, i, j⟩⟩

/-! ## Texts that are read alike -/

/-- The text as a keyword and the text as a variable give the same settings or the same error, and
settings have the paths that the text stands for. -/
def IsReadAlike (s : String) : Prop :=
  ∀ keywords environment, keyword? keywords .directories = none →
    environmentText? environment .directories = none →
      build (keywords ++ [(Field.directories.name, .text s)]) environment =
          build keywords (environment.insert Field.directories.variableName s) ∧
        ∀ settings, build (keywords ++ [(Field.directories.name, .text s)]) environment =
          .ok settings → Names s settings.directories.paths

theorem isReadAlike_of_not_json {s : String} (some_text : s ≠ "")
    (no_json : ∀ v, Json.read s.toList ≠ .ok v)
    (alone : s.toList.head? = some '[' → parts s = [s]) : IsReadAlike s := by
  intro keywords environment unnamed unset
  constructor
  · rw [build_keyword, build_variable some_text unset unnamed, decoded_of_not_json no_json]
  · intro settings h
    rw [build_keyword] at h
    obtain ⟨aliases, -, h⟩ := ok_of_bind h
    have passes := (check_eq_ok_iff.mp h).directories
    simp only [withDirectories, Option.getD_some, checkDirectories_text, Except.ok.injEq] at passes
    refine .inr ⟨fun items => no_json _, ?_⟩
    rw [← passes, directoriesOf]
    split
    · rename_i opened
      exact (alone opened).symm
    · rfl

theorem given_nothing : given [] {} none = fun _ => none := by
  funext field
  cases field <;> rfl

theorem build_keyword_only (s : String) :
    build ([] ++ [(Field.directories.name, .text s)]) {} =
      .ok { withAliases [] with directories := directoriesOf s } := by
  rw [build_keyword, environmentValue_empty, Except.bind, given_nothing, check_withDirectories_iff]
  exact checkDirectories_text s

theorem IsReadAlike.not_json {s : String} (h : IsReadAlike s) (some_text : s ≠ "") (v : Value) :
    Json.read s.toList ≠ .ok v := by
  intro json
  obtain ⟨same, -⟩ := h [] {} rfl rfl
  rw [build_keyword_only, build_variable some_text rfl rfl, environmentValue_empty, Except.bind,
    given_nothing] at same
  exact checkDirectories_decoded_ne json (check_withDirectories_iff.mp same.symm)

theorem IsReadAlike.alone {s : String} (h : IsReadAlike s) (opened : s.toList.head? = some '[') :
    parts s = [s] := by
  have named := (h [] {} rfl rfl).2 _ (build_keyword_only s)
  rw [directoriesOf, if_pos opened] at named
  rcases named with json | ⟨-, paths⟩
  · have lost := mass_of_read_list json
    simp [Directories.paths] at lost
  · exact paths.symm

/-- **Which texts name the same directories as a keyword and as a variable.** They are those that
are no JSON and that, if they open a list, have themselves as their only part. -/
theorem directories_read_alike_iff {s : String} (some_text : s ≠ "") :
    IsReadAlike s ↔
      (∀ v, Json.read s.toList ≠ .ok v) ∧ (s.toList.head? = some '[' → parts s = [s]) :=
  ⟨fun h => ⟨h.not_json some_text, h.alone⟩,
    fun h => isReadAlike_of_not_json some_text h.1 h.2⟩

theorem app_and_plugins_read_alike : "app, plugins" ≠ "" ∧ IsReadAlike "app, plugins" := by
  have some_text : "app, plugins" ≠ "" := by decide
  refine ⟨some_text, (directories_read_alike_iff some_text).mpr ⟨fun v h => ?_, by decide⟩⟩
  exact absurd (exists_ok_iff.mp ⟨v, h⟩) (by decide +kernel)

/-- A JSON list is one path as a keyword, and a number is refused as a variable. -/
theorem json_not_read_alike : ¬ IsReadAlike "[\"a\", \"b\"]" ∧ ¬ IsReadAlike "2024" := by
  constructor
  · intro h
    exact absurd (h.alone (by decide)) (by decide +kernel)
  · intro h
    have number : (Json.read "2024".toList).isOk = true := by decide +kernel
    obtain ⟨v, number⟩ := exists_ok_iff.mpr number
    exact h.not_json (by decide) v number

end RequestLocale.Settings
