import RequestLocale.Proofs.LastWrite
import RequestLocale.Proofs.LowerCase
import RequestLocale.Proofs.Parts

/-! # The names of bundles

Bundles are stored under normal names, and a locale is looked up by the normal form of its spelling.
The two fit together because a normal form is its own normal form (`Locale.normalize_of_isNormal`):
otherwise a bundle could be listed under a name that does not find it. `Loader.looksUp_run` says
what is found in a loader, however it was made and whatever happened to it since. -/
namespace RequestLocale

namespace Locale

open Text

/-- A name in normal form. -/
structure IsNormal (name : String) : Prop where
  trimmed : trim name.toList = name.toList
  low : ∀ c ∈ name.toList, IsLow c
  joined : '-' ∉ name.toList

theorem isNormal_normalize (name : String) : IsNormal (normalize name) := by
  obtain ⟨first, last⟩ := trim_eq_self_iff.mp (trim_trim name.toList)
  have keepsBlanks {c : Char} (hc : isBlank c = false) :
      isBlank (if c = '-' then '_' else c) = false := by
    split
    · decide
    · exact hc
  constructor
  all_goals rw [normalize, String.toList_ofList, normalizeChars]
  · rw [trim_eq_self_iff, List.head?_map, List.getLast?_map]
    constructor
    · intro c hc
      obtain ⟨d, hd, rfl⟩ := Option.map_eq_some_iff.mp hc
      exact keepsBlanks (isBlank_head_lower first d hd)
    · intro c hc
      obtain ⟨d, hd, rfl⟩ := Option.map_eq_some_iff.mp hc
      exact keepsBlanks (isBlank_last_lowerFrom last [] d hd)
  · intro c hc
    obtain ⟨d, hd, rfl⟩ := List.mem_map.mp hc
    split
    · decide +kernel
    · exact isLow_of_mem_lower hd
  · rw [List.mem_map]
    rintro ⟨c, -, hc⟩
    split at hc
    · exact absurd hc (by decide)
    · rename_i other
      exact other hc

theorem normalize_of_isNormal {name : String} (h : IsNormal name) : normalize name = name := by
  have joined : name.toList.map (fun c => if c = '-' then '_' else c) = name.toList := by
    refine (List.map_congr_left fun c hc => if_neg ?_).trans (List.map_id _)
    rintro rfl
    exact h.joined hc
  rw [normalize, normalizeChars, h.trimmed, lower_eq_self h.low, joined, String.ofList_toList]

end Locale

namespace Resource.Loader

open RequestLocale.Locale (normalize IsNormal)

/-! ## Names under which something is written -/

theorem isNormal_of_fileWrites {directories : List Path} {call : Call} {w : Write}
    (h : w ∈ call.fileWrites directories) : IsNormal w.locale := by
  cases call with
  | add => cases h
  | load fs =>
    obtain ⟨s, hs, rfl⟩ := List.mem_map.mp h
    obtain ⟨directory, -, hs⟩ := List.mem_flatMap.mp hs
    obtain ⟨name, file⟩ := ((listing fs directory).mem_files s).mp hs
    rw [Source.write, file.locale]
    exact Locale.isNormal_normalize _

theorem isNormal_of_additions {call : Call} {w : Write} (h : w ∈ call.additions) :
    IsNormal w.locale := by
  cases call with
  | load => cases h
  | add locale entries =>
    obtain rfl := List.mem_singleton.mp h
    exact Locale.isNormal_normalize locale

theorem isNormal_of_written {directories : List Path} {calls : List Call} {w : Write}
    (h : w ∈ written directories calls) : IsNormal w.locale := by
  unfold written at h
  rcases List.mem_append.mp h with h | h
  · cases hf : calls.reverse.find? (Call.replaces directories) with
    | none =>
      rw [hf] at h
      cases h
    | some call =>
      rw [hf] at h
      exact isNormal_of_fileWrites h
  · obtain ⟨call, -, h⟩ := List.mem_flatMap.mp h
    exact isNormal_of_additions h

theorem defaultLocale_perform (l : Loader) (call : Call) :
    (l.perform call).defaultLocale = l.defaultLocale := by
  cases call with
  | add locale entries => rw [perform, bundles_addBundle]
  | load fs =>
    rw [perform, load]
    split
    · rfl
    · split <;> rfl

theorem defaultLocale_run (l : Loader) (calls : List Call) :
    (l.run calls).defaultLocale = l.defaultLocale := by
  induction calls using List.reverseRecOn with
  | nil => rfl
  | append_singleton calls call ih => rw [run_concat, defaultLocale_perform, ih]

/-- However a loader was made and whatever happened to it since, its bundles have normal names. -/
theorem isNormal_of_contains {l : Loader} {earlier : List Call} (built : l.IsBuilt earlier)
    (later : List Call) {name : String} (h : (l.run later).bundles.contains name = true) :
    IsNormal name := by
  obtain ⟨directories, default, rfl⟩ := built.eq_run
  rw [← run_append] at h
  obtain ⟨w, hw, rfl⟩ := ((records_run_new directories default (earlier ++ later)).opened _).mp h
  exact isNormal_of_written hw

/-! ## What is found -/

theorem contains_iff_mem_locales {l : Loader} {name : String} :
    l.bundles.contains name = true ↔ name ∈ l.locales := by
  rw [Table.contains_iff_mem_keys, locales, (Text.sorted_perm _).mem_iff]

theorem serving?_of_hasLocale {l : Loader} {locale : String} (h : l.hasLocale locale = true) :
    l.serving? locale = some (normalize locale) := by
  have there : l.bundles.contains (normalize locale) = true := h
  rw [serving?, List.find?_cons_of_pos there]

theorem get?_of_hasLocale {l : Loader} {locale : String} (h : l.hasLocale locale = true) :
    l.bundles.get? (normalize locale) = some (l.get locale) := by
  obtain ⟨messages, hm⟩ := Option.isSome_iff_exists.mp h
  rw [get, serving?_of_hasLocale h, Option.bind_some, hm, Option.getD_some]

theorem get_of_not_hasLocale {l : Loader} {locale : String} (h : l.hasLocale locale = false) :
    l.get locale = (l.bundles.get? (normalize l.defaultLocale)).getD {} := by
  have missing : ¬ l.bundles.contains (normalize locale) = true := by
    rwa [Bool.not_eq_true]
  rw [get, serving?, List.find?_cons_of_neg missing]
  cases hd : l.bundles.get? (normalize l.defaultLocale) with
  | none => simp [Table.contains, hd]
  | some messages => simp [Table.contains, hd]

/-- What is found in a loader with this default locale. -/
structure LooksUp (l : Loader) (default : String) : Prop where
  increasing : l.locales.Pairwise (· < ·)
  /-- What is listed is found under its name as it is listed. -/
  listed : ∀ name ∈ l.locales, normalize name = name ∧ l.hasLocale name = true ∧
    l.bundles.get? name = some (l.get name)
  has_iff : ∀ locale, l.hasLocale locale = true ↔ normalize locale ∈ l.locales
  /-- A locale with a bundle gets its own one, which may be empty. -/
  own : ∀ locale, l.hasLocale locale = true → l.serving? locale = some (normalize locale) ∧
    l.bundles.get? (normalize locale) = some (l.get locale)
  /-- Any other locale gets the bundle of the default locale, if there is one. -/
  other : ∀ locale, l.hasLocale locale = false →
    l.get locale = (l.bundles.get? (normalize default)).getD {}
  spelling : ∀ a b, normalize a = normalize b → l.serving? a = l.serving? b ∧ l.get a = l.get b

/-- **Bundles are found by any spelling of their names.** -/
theorem looksUp_run {l : Loader} {earlier : List Call} (built : l.IsBuilt earlier)
    (later : List Call) : (l.run later).LooksUp l.defaultLocale where
  increasing := Text.mergeSort_increasing (fun name => name) (l.run later).bundles.keys_nodup
  listed name h := by
    have there := contains_iff_mem_locales.mpr h
    have own := Locale.normalize_of_isNormal (isNormal_of_contains built later there)
    have found : (l.run later).hasLocale name = true := by rwa [hasLocale, own]
    have bundle := get?_of_hasLocale found
    rw [own] at bundle
    exact ⟨own, found, bundle⟩
  has_iff locale := contains_iff_mem_locales
  own locale h := ⟨serving?_of_hasLocale h, get?_of_hasLocale h⟩
  other locale h := by rw [get_of_not_hasLocale h, defaultLocale_run]
  spelling a b h := by
    have same : (l.run later).serving? a = (l.run later).serving? b := by
      rw [serving?, serving?, h]
    exact ⟨same, by rw [get, get, same]⟩

/-- Names with a final sigma, with a capital that becomes two characters, and with blanks. -/
def tongues : List (String × Entries) :=
  [(" ΟΔΟΣ ", [(.text "hi", .text "Γεια")]), ("İS-is", []), ("en_US", [(.text "hi", .text "Hi")])]

def polyglot : Loader :=
  (⟨[], "EN-us", {}⟩ : Loader).run (tongues.map fun bundle => .add bundle.1 bundle.2)

/-- A sigma that does not end a word makes another name, for which the default locale answers; a
bundle without messages answers for itself. -/
theorem looksUp_polyglot :
    polyglot.IsBuilt (tongues.map fun bundle => .add bundle.1 bundle.2) ∧
    (polyglot.run [.add "fr" []]).LooksUp "EN-us" ∧
    ["Οδος", "οδοσ", "i\u0307S-IS", "fr", "de"].map (fun locale =>
      ((polyglot.run [.add "fr" []]).serving? locale,
        ((polyglot.run [.add "fr" []]).get locale).values)) =
      [(some "οδος", ["Γεια"]), (some "en_us", ["Hi"]), (some "i\u0307s_is", []), (some "fr", []),
        (some "en_us", ["Hi"])] := by
  have built : polyglot.IsBuilt (tongues.map fun bundle => .add bundle.1 bundle.2) := by
    have made : (ofBundles tongues "EN-us").isOk = true := by decide +kernel
    cases h : ofBundles tongues "EN-us" with
    | error e =>
      rw [h] at made
      cases made
    | ok l =>
      obtain rfl : l = polyglot := run_of_foldlM h
      exact .bundles h
  exact ⟨built, looksUp_run built [.add "fr" []], by decide +kernel⟩

end Resource.Loader

end RequestLocale
