import RequestLocale.Proofs.CookieReturn
import RequestLocale.Proofs.Precedence

/-! # Which requests get a locale

A resolution over an exchange fails in one way: the locale cookie is due and its name is refused.
Settings are accepted with any name that is not blank and has no blanks around it, among them names
of attributes and names with characters that no cookie may have. Under these every request fails
that does not bring the locale in its cookie already, the request without any headers first of all.
So the settings under which all requests get a locale are those whose cookie has a legal name
(`Settings.answers_iff`). -/
namespace RequestLocale

open Http.Cookie (IsLegalName isNameChar reservedNames)

namespace Settings

/-- The request gets a locale. -/
def Answers (s : Settings) (query : String) (headers : Http.Headers) : Prop :=
  ∃ locale, ((Context.ofChannel (.http (.ofRequest query headers))).resolve s).result = .ok locale

/-- A request that brings its locale in the cookie needs no name to be legal; all others do. -/
theorem answers_request_iff (s : Settings) (query : String) (headers : Http.Headers) :
    s.Answers query headers ↔
      IsLegalName s.cookieField ∨
        Http.Cookie.value? headers s.cookieField =
          some (((Exchange.ofRequest query headers).signals s).decide s).locale := by
  have course := ((Context.ofChannel (.http (.ofRequest query headers))).resolution s).over_exchange
    rfl
  rw [Answers, course.2, Http.Cookie.checkName_eq_ok_iff]
  constructor
  · intro legal
    by_cases held : Http.Cookie.value? headers s.cookieField =
        some (((Exchange.ofRequest query headers).signals s).decide s).locale
    · exact .inr held
    · exact .inl (legal ⟨held, rfl⟩)
  · rintro (legal | held) due
    · exact legal
    · exact absurd held due.1

/-- A request that does not bring its locale runs into the refusal of the name. -/
theorem resolve_of_refused {s : Settings} {query : String} {headers : Http.Headers}
    {refusal : Http.Cookie.Error} (h : Http.Cookie.checkName s.cookieField = .error refusal)
    (hc : Http.Cookie.value? headers s.cookieField ≠
      some (((Exchange.ofRequest query headers).signals s).decide s).locale) :
    ((Context.ofChannel (.http (.ofRequest query headers))).resolve s).result =
      .error (.cookie refusal) := by
  have unanswered : ¬ s.Answers query headers := by
    rw [answers_request_iff, ← Http.Cookie.checkName_eq_ok_iff, h]
    rintro (legal | held)
    · cases legal
    · exact hc held
  cases hr : ((Context.ofChannel (.http (.ofRequest query headers))).resolve s).result with
  | ok locale => exact absurd ⟨locale, hr⟩ unanswered
  | error failure =>
    obtain ⟨_, same, rfl, refused⟩ := Context.refused_of_resolve rfl hr
    rw [h] at refused
    cases refused
    rfl

/-- Under a legal name nothing that happened before can make a resolution fail. -/
theorem resolve_of_isLegalName {s : Settings} (legal : IsLegalName s.cookieField) (e : Exchange)
    (state : LocaleState) :
    ∃ locale, ((⟨.http e, state⟩ : Context).resolve s).result = .ok locale := by
  cases h : ((⟨.http e, state⟩ : Context).resolve s).result with
  | ok locale => exact ⟨locale, rfl⟩
  | error failure =>
    obtain ⟨_, refusal, _, refused⟩ := Context.refused_of_resolve rfl h
    rw [Http.Cookie.checkName_eq_ok_iff.mpr legal] at refused
    cases refused

/-- **The settings under which every request gets a locale.** A failure leaves the context as it
was and names the cookie. -/
theorem answers_iff {s : Settings} (h : s.IsAccepted) :
    ((∀ query headers, s.Answers query headers) ↔
      (∀ c ∈ s.cookieField.toList, isNameChar c = true) ∧
        Text.lowered s.cookieField ∉ reservedNames) ∧
    ∀ (e : Exchange) (state : LocaleState) (failure : CallError),
      ((⟨.http e, state⟩ : Context).resolve s).result = .error failure →
        ((⟨.http e, state⟩ : Context).resolve s).state = ⟨.http e, state⟩ ∧
        (failure = .cookie (.reserved s.cookieField) ∧
            Text.lowered s.cookieField ∈ reservedNames ∨
          failure = .cookie (.illegal s.cookieField) ∧
            ∃ c ∈ s.cookieField.toList, isNameChar c = false) := by
  refine ⟨⟨fun all => ?_, fun ⟨chars, free⟩ query headers => ?_⟩, fun e state failure failed => ?_⟩
  · -- The request without headers has no cookie that could hold its locale.
    have legal : IsLegalName s.cookieField := by
      rcases (s.answers_request_iff "" []).mp (all "" []) with legal | held
      · exact legal
      · cases held
    exact ⟨legal.chars, legal.free⟩
  · exact resolve_of_isLegalName ⟨h.cookieField_ne_empty, chars, free⟩ _ _
  · obtain ⟨same, refusal, rfl, refused⟩ := Context.refused_of_resolve rfl failed
    refine ⟨same, ?_⟩
    rcases Http.Cookie.checkName_eq_error refused with ⟨rfl, taken⟩ | ⟨rfl, empty | unlike⟩
    · exact .inl ⟨rfl, taken⟩
    · exact absurd empty h.cookieField_ne_empty
    · exact .inr ⟨rfl, unlike⟩

theorem checkName_userLocale :
    Http.Cookie.checkName "user locale" = .error (.illegal "user locale") := by
  rw [Http.Cookie.checkName, if_neg (by decide +kernel), if_pos (by decide +kernel)]

/-- With an alias every request gets a locale. With a blank in the name of the cookie a request does
not, and may ask again. -/
theorem answers_samples :
    (withAliases [("zh-TW", "zh_TW")]).IsAccepted ∧
      (∀ query headers, (withAliases [("zh-TW", "zh_TW")]).Answers query headers) ∧
      (withCookieField "user locale").IsAccepted ∧
      ((Context.ofChannel (.http (.ofRequest "" []))).resolve
        (withCookieField "user locale")).state = .ofChannel (.http (.ofRequest "" [])) := by
  have accepted := isAccepted_withAliases [("zh-TW", "zh_TW")]
  have legal : IsLegalName (withAliases [("zh-TW", "zh_TW")]).cookieField :=
    Http.Cookie.checkName_eq_ok_iff.mp rfl
  have blank : (withCookieField "user locale").IsAccepted :=
    isAccepted_withCookieField (by decide +kernel) (by decide)
  have unchanged := (answers_iff blank).2 (.ofRequest "" []) .empty _
    (resolve_of_refused checkName_userLocale (by rintro ⟨⟩))
  exact ⟨accepted, (answers_iff accepted).1.mpr ⟨legal.chars, legal.free⟩, blank, unchanged.1⟩

/-- A cookie named like an attribute, or with a blank in its name, is accepted by the settings and
refused at the first request. -/
theorem path_refused :
    (withCookieField "path").IsAccepted ∧ (withCookieField "user locale").IsAccepted ∧
      ((Context.ofChannel (.http (.ofRequest "" []))).resolve (withCookieField "path")).result =
        .error (.cookie (.reserved "path")) ∧
      ((Context.ofChannel (.http (.ofRequest "" []))).resolve
        (withCookieField "user locale")).result = .error (.cookie (.illegal "user locale")) ∧
      ¬ ∀ s : Settings, s.IsAccepted → ∀ query headers, s.Answers query headers := by
  have path : (withCookieField "path").IsAccepted :=
    isAccepted_withCookieField (by decide +kernel) (by decide)
  have blank : (withCookieField "user locale").IsAccepted :=
    isAccepted_withCookieField (by decide +kernel) (by decide)
  have reserved : Http.Cookie.checkName "path" = .error (.reserved "path") := by
    rw [Http.Cookie.checkName, if_pos (by decide +kernel)]
  have refused : ((Context.ofChannel (.http (.ofRequest "" []))).resolve
      (withCookieField "path")).result = .error (.cookie (.reserved "path")) :=
    resolve_of_refused reserved (by rintro ⟨⟩)
  refine ⟨path, blank, refused, resolve_of_refused checkName_userLocale (by rintro ⟨⟩), fun law => ?_⟩
  obtain ⟨locale, answered⟩ := law _ path "" []
  rw [refused] at answered
  cases answered

end Settings

end RequestLocale
