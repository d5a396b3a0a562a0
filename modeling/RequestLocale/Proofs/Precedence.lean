import RequestLocale.Proofs.Accepted
import RequestLocale.Proofs.Resolution

/-! # From the bytes of a request to its locale and its cookie

A request that has no locale yet gets the first candidate that is not empty, by way of one alias.
The cookie of the request is a candidate, and also what the result is compared with, after the
alias: so a cookie that holds a spelling is replaced by what the spelling stands for. -/
namespace RequestLocale

open Http (Query.last? Cookie.value? Cookie.checkName)
open AcceptLanguage (Outcome ranked)

/-- The first text that is there and not empty. -/
def firstNonempty (candidates : List (Option String)) : Option String :=
  (candidates.filterMap id).find? (· ≠ "")

theorem firstNonempty_cons (candidate : Option String) (candidates : List (Option String)) :
    firstNonempty (candidate :: candidates) =
      (Signals.nonempty? candidate).or (firstNonempty candidates) := by
  cases candidate with
  | none => rfl
  | some text =>
    by_cases h : text = ""
    · simp [firstNonempty, Signals.nonempty?, Option.filter, h]
    · simp [firstNonempty, Signals.nonempty?, Option.filter, h]

/-- A wish is the first candidate that is not empty, the default being the last one. -/
theorem Signals.wish_eq (sig : Signals) {default : String} (h : default ≠ "") :
    firstNonempty [sig.parameter, sig.cookie, sig.languages.bind (·.first?), some default] =
      some (sig.wish default).1 := by
  have hd : firstNonempty [some default] = some default := by
    rw [firstNonempty_cons]
    simp [Signals.nonempty?, Option.filter, h]
  rw [firstNonempty_cons, firstNonempty_cons, firstNonempty_cons, hd, wish]
  cases nonempty? sig.parameter with
  | some parameter => rfl
  | none =>
    cases nonempty? sig.cookie with
    | some cookie => rfl
    | none => cases nonempty? (sig.languages.bind (·.first?)) <;> rfl

theorem Signals.wish_ne_empty (sig : Signals) {default : String} (h : default ≠ "") :
    (sig.wish default).1 ≠ "" := by
  have found := List.find?_some (sig.wish_eq h)
  simpa using found

namespace Exchange

/-- What may name the locale of a request, in the order in which it counts. -/
def candidates (e : Exchange) (s : Settings) : List (Option String) :=
  [Query.last? e.query s.queryField, Cookie.value? e.headers s.cookieField,
    (Outcome.several (((e.headers.first? "accept-language").map ranked).getD [])).first?,
    some s.defaultLocale]

/-- A cookie is due if that of the request does not hold the locale and it is not too late. -/
def IsDue (e : Exchange) (s : Settings) (locale : String) : Prop :=
  Cookie.value? e.headers s.cookieField ≠ some locale ∧ e.started = false

instance (e : Exchange) (s : Settings) (locale : String) : Decidable (e.IsDue s locale) :=
  inferInstanceAs (Decidable (_ ∧ _))

/-- The exchange with the locale cookie waiting. -/
def queue (e : Exchange) (s : Settings) (locale : String) : Exchange :=
  { e with
    pending := e.pending.insert s.cookieField
      (Http.Cookie.Write.text ⟨s.cookieField, locale, s.cookieMaxAge, false⟩) }

def signals (e : Exchange) (s : Settings) : Signals :=
  ⟨e.parameter? s.queryField, e.cookie? s.cookieField, some (.several e.languages), e.started⟩

theorem writes_decide_signals (e : Exchange) (s : Settings) :
    ((e.signals s).decide s).writes = true ↔ e.IsDue s ((e.signals s).decide s).locale := by
  simp only [Signals.decide, IsDue, Bool.and_eq_true, bne_iff_ne, Bool.not_eq_true']
  exact Iff.rfl

end Exchange

namespace Context

/-- Over an exchange without a memory only the courses are left in which the signals decide. -/
theorem Resolution.over_exchange {e : Exchange} {attached : Option Attached} {s : Settings}
    {locale : String} (hl : ((e.signals s).decide s).locale = locale)
    {step : Step Context CallError String}
    (course : Resolution ⟨.http e, ⟨none, attached⟩⟩ s step) :
    (∀ answer, step.result = .ok answer → answer = locale ∧
      step.state.channel = .http (if e.IsDue s locale then e.queue s locale else e)) ∧
    ((∃ answer, step.result = .ok answer) ↔
      (e.IsDue s locale → Cookie.checkName s.cookieField = .ok ())) := by
  have hdue := e.writes_decide_signals s
  rw [hl] at hdue
  cases course with
  | known h => cases h
  | outside _ h => cases h
  | refused _ hs hw hset =>
    cases hs
    refine ⟨fun answer h => (by cases h), fun ⟨_, h⟩ => (by cases h), fun legal => ?_⟩
    rw [setCookie_http, Decision.check_cookie, legal (hdue.mp hw)] at hset
    cases hset
  | written _ hs hw hset =>
    cases hs
    have hname := checkName_of_setCookie hset
    rw [setCookie_http, Decision.check_cookie, hname] at hset
    cases hset
    refine ⟨?_, fun _ _ => hname, fun _ => ⟨_, rfl⟩⟩
    rintro answer ⟨⟩
    rw [if_pos (hdue.mp hw), ← hl]
    exact ⟨rfl, rfl⟩
  | quiet _ hs hw =>
    cases hs
    have hnot : ¬ e.IsDue s locale := by
      intro due
      have hwrites := hdue.mpr due
      exact Bool.false_ne_true (hw.symm.trans hwrites)
    refine ⟨?_, fun _ due => absurd due hnot, fun _ => ⟨_, rfl⟩⟩
    rintro answer ⟨⟩
    rw [if_neg hnot]
    exact ⟨hl, rfl⟩

/-- **The locale of a request and its cookie.** -/
theorem resolve_exchange {s : Settings} (h : s.IsAccepted) (e : Exchange)
    (attached : Option Attached) :
    ∃ wished, firstNonempty (e.candidates s) = some wished ∧
      let locale := (s.aliases.get? wished).getD wished
      let step := (⟨.http e, ⟨none, attached⟩⟩ : Context).resolve s
      (∀ answer, step.result = .ok answer → answer = locale ∧
        step.state.channel = .http (if e.IsDue s locale then e.queue s locale else e)) ∧
      ((∃ answer, step.result = .ok answer) ↔
        (e.IsDue s locale → Cookie.checkName s.cookieField = .ok ())) :=
  ⟨((e.signals s).wish s.defaultLocale).1, (e.signals s).wish_eq h.defaultLocale_ne_empty,
    (resolution _ s).over_exchange rfl⟩

/-- A request whose cookie and parameter disagree, the parameter being an alias. -/
def disagreeing : Exchange := .ofRequest "locale=zh-TW" [("cookie", "locale=fr")]

/-- The parameter counts, and the cookie is replaced by what it stands for. -/
theorem resolve_disagreeing :
    (Settings.withAliases [("zh-TW", "zh_TW")]).IsAccepted ∧
    ∃ e : Exchange,
      ((⟨.http disagreeing, .empty⟩ : Context).resolve
        (.withAliases [("zh-TW", "zh_TW")])).result = .ok "zh_TW" ∧
      ((⟨.http disagreeing, .empty⟩ : Context).resolve
        (.withAliases [("zh-TW", "zh_TW")])).state.channel = .http e ∧
      e.cookieHeaders =
        [("set-cookie", "locale=zh_TW; Max-Age=31557600; Path=/; SameSite=lax")] := by
  have accepted := Settings.isAccepted_withAliases [("zh-TW", "zh_TW")]
  obtain ⟨wished, hw, hr, hret⟩ := resolve_exchange accepted disagreeing none
  have first : firstNonempty (disagreeing.candidates (.withAliases [("zh-TW", "zh_TW")])) =
      some "zh-TW" := by
    decide +kernel
  cases hw.symm.trans first
  obtain ⟨answer, hok⟩ := hret.mpr fun _ => rfl
  obtain ⟨hanswer, hchannel⟩ := hr answer hok
  subst hanswer
  exact ⟨accepted, _, hok, hchannel, by decide +kernel⟩

end Context

end RequestLocale
