import RequestLocale.Proofs.Precedence
import RequestLocale.Proofs.RankedLanguages

/-! # Wildcards among the languages of a header

The locale that a header names is the tag it prefers among those that are not the wildcard, in
whichever places wildcards stand. A request that has nothing but its header gets this locale, or
the default if there is none, unless the header prefers two wildcards to all other tags: then only
the first of the two is passed over, and the second becomes the locale (`followsHeader_iff`). -/
namespace RequestLocale

open AcceptLanguage (Outcome ranked)

namespace AcceptLanguage

/-- The tag that a header prefers among those that are not the wildcard. -/
def named? (header : String) : Option String := (ranked header).find? (· ≠ "*")

theorem named?_ne_wildcard (header : String) : named? header ≠ some "*" := fun h => by
  simpa using List.find?_some h

end AcceptLanguage

open AcceptLanguage (named? named?_ne_wildcard ne_empty_of_mem_ranked ranked_of_pairwise)

/-! ## Requests that have nothing but their header -/

/-- A request with this header, and neither a parameter nor a cookie that counts. -/
structure Exchange.HasOnly (e : Exchange) (header : String) (s : Settings) : Prop where
  header : e.headers.first? "accept-language" = some header
  parameter : Signals.nonempty? (e.parameter? s.queryField) = none
  cookie : Signals.nonempty? (e.cookie? s.cookieField) = none

namespace Exchange.HasOnly

variable {e : Exchange} {header : String} {s : Settings}

/-- What the languages of such a request come to. -/
theorem first?_languages (h : e.HasOnly header s) :
    Signals.nonempty? ((Outcome.several e.languages).first?) =
      if ["*", "*"] <+: ranked header then some "*" else named? header := by
  have languages : e.languages = ranked header := by rw [Exchange.languages, h.header]; rfl
  rw [languages, Outcome.first?_several]
  split
  · rfl
  · rw [named?]
    cases found : (ranked header).find? (· ≠ "*") with
    | none => rfl
    | some tag =>
      have there := ne_empty_of_mem_ranked (List.mem_of_find?_eq_some found)
      simp [Signals.nonempty?, Option.filter, there]

/-- What such a request wishes for. -/
theorem wish (h : e.HasOnly header s) :
    (e.signals s).wish s.defaultLocale =
      if ["*", "*"] <+: ranked header then ("*", .header)
      else (named? header).elim (s.defaultLocale, .default) (·, .header) := by
  have languages : Signals.nonempty? ((e.signals s).languages.bind (·.first?)) = _ :=
    h.first?_languages
  have parameter : Signals.nonempty? (e.signals s).parameter = none := h.parameter
  have cookie : Signals.nonempty? (e.signals s).cookie = none := h.cookie
  rw [Signals.wish, parameter, cookie, languages]
  split_ifs
  · rfl
  · cases named? header <;> rfl

end Exchange.HasOnly

/-- Every request that has nothing but this header wishes for the locale that the header names, and
for the default only if it names none. It gets what the wish stands for, unless its cookie is
refused for its name. -/
def FollowsHeader (header : String) : Prop :=
  ∀ (s : Settings), s.IsAccepted → ∀ (e : Exchange), e.HasOnly header s →
    ∀ attached : Option Attached,
      (e.signals s).wish s.defaultLocale =
        (named? header).elim (s.defaultLocale, Origin.default) (·, Origin.header) ∧
      let wished := (named? header).getD s.defaultLocale
      let result := ((⟨.http e, ⟨none, attached⟩⟩ : Context).resolve s).result
      result = .ok ((s.aliases.get? wished).getD wished) ∨
        ∃ refusal, Http.Cookie.checkName s.cookieField = .error refusal ∧
          result = .error (.cookie refusal)

/-- A request with nothing but a header, under the default settings. -/
def asking (header : String) : Exchange := .ofRequest "" [("accept-language", header)]

theorem hasOnly_asking (header : String) :
    (asking header).HasOnly header (.withAliases []) := ⟨rfl, rfl, rfl⟩

/-- **Wildcards.** Requests follow a header exactly if it does not begin with two wildcards when
its tags are ranked. -/
theorem followsHeader_iff {header : String} :
    FollowsHeader header ↔ ¬ ["*", "*"] <+: ranked header := by
  constructor
  · intro follows wildcards
    have wished := (follows _ (Settings.isAccepted_withAliases []) _ (hasOnly_asking header) none).1
    rw [(hasOnly_asking header).wish, if_pos wildcards] at wished
    cases found : named? header with
    | some tag =>
      rw [found] at wished
      cases wished
      exact named?_ne_wildcard header found
    | none =>
      rw [found] at wished
      exact absurd (congrArg Prod.snd wished) (by decide)
  · intro apart s _ e only attached
    have wished := only.wish
    rw [if_neg apart] at wished
    refine ⟨wished, ?_⟩
    have locale : ((e.signals s).wish s.defaultLocale).1 =
        (named? header).getD s.defaultLocale := by
      rw [wished]
      cases named? header <;> rfl
    have course := ((⟨.http e, ⟨none, attached⟩⟩ : Context).resolution s).over_exchange rfl
    cases hr : ((⟨.http e, ⟨none, attached⟩⟩ : Context).resolve s).result with
    | ok answer =>
      rw [(course.1 answer hr).1, Signals.decide, ← locale]
      exact .inl rfl
    | error failure =>
      obtain ⟨-, refusal, rfl, refused⟩ := Context.refused_of_resolve rfl hr
      exact .inr ⟨refusal, refused, rfl⟩

/-- Two wildcards before a language. -/
def twoWildcards : String := "*, *;q=0.8, fr;q=0.5"

/-- The header names French, and the request that has only this header gets the wildcard. -/
theorem twoWildcards_ignored : named? twoWildcards = some "fr" ∧
    ((⟨.http (asking twoWildcards), .empty⟩ : Context).resolve (.withAliases [])).result =
      .ok "*" := by
  have tags : ranked twoWildcards = ["*", "*", "fr"] := by
    rw [ranked_of_pairwise (by decide +kernel)]
    decide +kernel
  have wished := (hasOnly_asking twoWildcards).wish
  rw [tags, if_pos (by decide)] at wished
  refine ⟨by rw [named?, tags]; decide, ?_⟩
  have course := ((⟨.http (asking twoWildcards), .empty⟩ : Context).resolution
    (.withAliases [])).over_exchange rfl
  obtain ⟨answer, hok⟩ := course.2.mpr fun _ => rfl
  rw [hok, (course.1 answer hok).1, Signals.decide, wished]
  rfl

end RequestLocale
