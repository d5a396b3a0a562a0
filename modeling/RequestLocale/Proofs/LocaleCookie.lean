import RequestLocale.Proofs.OneLocale
import RequestLocale.Proofs.Precedence

/-! # The locale cookie of one request

The first resolution of a request decides whether its cookie is set, and what it remembers keeps
later ones from deciding again. That rests on two things: the remembered locale must not be empty,
since the empty one is not given back, and the cookie must not be refused, since then nothing is
remembered. `Settings.KeepsLocales` says both of the settings, and `Session.setsOnce_iff` that the
law `Session.SetsOnce` holds for all requests under them exactly then. -/
namespace RequestLocale

open Http.Cookie (Write)

/-- No spelling is an alias of the empty locale, and the locale cookie has a legal name. -/
structure Settings.KeepsLocales (s : Settings) : Prop where
  aliases : ∀ spelling, spelling ≠ "" → s.aliases.get? spelling ≠ some ""
  name : Http.Cookie.checkName s.cookieField = .ok ()

/-! ## One resolution -/

namespace Signals

/-- A decision is not empty as long as the default is not. -/
theorem locale_decide_ne_empty (sig : Signals) {s : Settings} (hs : s.KeepsLocales)
    (hd : s.defaultLocale ≠ "") : (sig.decide s).locale ≠ "" := by
  have hw := sig.wish_ne_empty hd
  simp only [decide]
  cases ha : s.aliases.get? (sig.wish s.defaultLocale).1 with
  | none => exact hw
  | some canonical =>
    rintro rfl
    exact hs.aliases _ hw ha

end Signals

namespace Context

/-- The first resolution returns a locale that is not empty, and the cookie it sets carries it. -/
theorem resolve_first {ctx : Context} {s : Settings} (hc : ctx.channel.isCapable = true)
    (hm : ctx.state.locale = none) (hs : s.KeepsLocales) (hd : s.defaultLocale ≠ "") :
    ∃ locale, locale ≠ "" ∧ (ctx.resolve s).result = .ok locale ∧
      ∀ w, ctx.resolverCookie? s = some w → w.value = locale := by
  have hk : ctx.state.known? = none := by rw [LocaleState.known?, hm]; rfl
  obtain ⟨sig, hsig, _⟩ := signals?_of_isCapable hc s
  have hr : ctx.state.remembered (sig.decide s).locale = (sig.decide s).locale := by
    rw [LocaleState.remembered, hm]; rfl
  refine ⟨(sig.decide s).locale, sig.locale_decide_ne_empty hs hd, ?_, ?_⟩
  · have course := ctx.resolution s
    generalize ctx.resolve s = step at course ⊢
    cases course with
    | known h => rw [hk] at h; cases h
    | outside _ h => rw [hsig] at h; cases h
    | refused _ _ _ h =>
      obtain ⟨after, ha⟩ := setCookie_of_legal hc _ hs.name
      rw [ha] at h
      cases h
    | written _ h => rw [hsig] at h; cases h; rw [hr]
    | quiet _ h => rw [hsig] at h; cases h; rw [hr]
  · intro w hw
    simp only [resolverCookie?, hk, hsig] at hw
    split at hw
    · cases hw; rfl
    · cases hw

end Context

/-! ## Runs -/

namespace Session

/-- Turns that neither put a locale into the memory nor take the start of the response back. -/
def Turn.isOrdinary : Turn → Bool
  | .act (.remember _) | .act (.setStarted false) | .flag false => false
  | _ => true

/-- The law of the locale cookie in a run. -/
structure SetsOnce (s : Session) (turns : List Turn) : Prop where
  once : (s.resolverCookies turns).length ≤ 1
  early : ∀ before after, turns = before ++ after → (s.play before).hasStarted = true →
    (s.play before).resolverCookies after = []
  value : ∀ w ∈ s.resolverCookies turns,
    w.value ≠ "" ∧ ∀ outcome ∈ s.resolutions turns, outcome = .ok w.value

/-- A locale that is remembered and not empty answers every resolution, and no cookie is set. -/
theorem run_of_memo {s : Session} {locale : String} (hm : s.memo = some locale)
    (hne : locale ≠ "") (turns : List Turn) :
    (∀ outcome ∈ s.resolutions turns, outcome = .ok locale) ∧ s.resolverCookies turns = [] := by
  induction turns generalizing s with
  | nil => exact ⟨fun _ h => (by cases h), rfl⟩
  | cons t turns ih =>
    obtain ⟨hr, hw⟩ := ih (memo_turn hm t)
    have hk : s.layer.context.state.known? = some locale := by
      have hl : s.layer.context.state.locale = some locale := hm
      simp [LocaleState.known?, hl, hne]
    constructor
    · intro outcome h
      rcases List.mem_append.mp h with h | h
      · cases hres : s.resolves t with
        | false => rw [hres] at h; cases h
        | true =>
          rw [hres] at h
          rw [List.mem_singleton.mp h, Context.resolve, hk]
      · exact hr outcome h
    · simp [resolverCookies, Context.resolverCookie?_of_known hk, hw]

/-- Without a resolution nothing comes to be remembered in an ordinary turn. -/
theorem memo_turn_of_not_resolves {s : Session} (hm : s.memo = none) {t : Turn}
    (ho : t.isOrdinary = true) (hr : s.resolves t = false) : (s.turn t).memo = none := by
  cases t with
  | act a =>
    unfold Session.memo
    rw [turn, (s.follows_perform a).layer.locale,
      Deed.locale_apply_of_not_resolves hr fun locale hd => ?_]
    · exact hm
    · have named := s.hasDeed a
      rw [hd] at named
      cases named
      cases ho
  | hear n => exact hm
  | flag started => exact hm

/-- In ordinary turns a response that has started stays so. -/
theorem hasStarted_turn {s : Session} (hs : s.hasStarted = true) {t : Turn}
    (ho : t.isOrdinary = true) : (s.turn t).hasStarted = true := by
  cases t with
  | act a =>
    unfold Session.hasStarted
    rw [turn, (s.follows_perform a).layer.channel]
    refine Deed.started_apply hs _ fun f c hd hc => ?_
    have hcs : c.started = true := by
      rw [hasStarted, hc] at hs
      exact hs
    have named := s.hasDeed a
    rw [hd] at named
    cases named with
    | scripting name value keeps => rw [keeps, hcs]
    | flagging started =>
      cases started with
      | true => rfl
      | false => cases ho
  | hear n =>
    obtain ⟨⟨ls, ⟨channel, state⟩⟩, isCurrent, outer⟩ := s
    cases channel <;> exact hs
  | flag started =>
    cases started with
    | false => cases ho
    | true =>
      obtain ⟨⟨ls, ⟨channel, state⟩⟩, isCurrent, outer⟩ := s
      cases channel <;> first | rfl | exact hs

/-- Once the response has started the resolver sets no cookie, whatever the settings are. -/
theorem resolverCookies_of_hasStarted {s : Session} (hs : s.hasStarted = true)
    {turns : List Turn} (ho : ∀ t ∈ turns, t.isOrdinary = true) :
    s.resolverCookies turns = [] := by
  induction turns generalizing s with
  | nil => rfl
  | cons t turns ih =>
    have next := ih (hasStarted_turn hs (ho t List.mem_cons_self))
      fun t' h => ho t' (List.mem_cons_of_mem _ h)
    simp [resolverCookies, Context.resolverCookie?_of_started hs, next]

/-- Either no resolution happens in a run, or the first one settles the locale of the rest. -/
theorem run_of_unresolved {s : Session} (hc : s.isCapable = true) (hm : s.memo = none)
    (hs : s.settings.KeepsLocales) (hd : s.settings.defaultLocale ≠ "") {turns : List Turn}
    (ho : ∀ t ∈ turns, t.isOrdinary = true) :
    ∃ locale, locale ≠ "" ∧ (∀ outcome ∈ s.resolutions turns, outcome = .ok locale) ∧
      (s.resolverCookies turns = [] ∨ ∃ w, s.resolverCookies turns = [w] ∧ w.value = locale) := by
  induction turns generalizing s with
  | nil => exact ⟨_, hd, fun _ h => (by cases h), .inl rfl⟩
  | cons t turns ih =>
    cases hr : s.resolves t with
    | false =>
      have hn := memo_turn_of_not_resolves hm (ho t List.mem_cons_self) hr
      have next := ih (s := s.turn t) (by rwa [isCapable_turn]) hn (by rwa [settings_turn])
        (by rwa [settings_turn]) fun t' h => ho t' (List.mem_cons_of_mem _ h)
      simpa [resolutions, resolverCookies, hr] using next
    | true =>
      obtain ⟨locale, hne, hok, hw⟩ := Context.resolve_first hc hm hs hd
      have hl : (s.turn t).memo = some locale := by
        rw [(turn_resolving hr).2]
        exact Context.locale_of_resolve hc hok
      obtain ⟨hrest, hnone⟩ := run_of_memo hl hne turns
      refine ⟨locale, hne, ?_, ?_⟩
      · intro outcome h
        simp only [resolutions, hr, if_true, List.singleton_append, List.mem_cons] at h
        rcases h with rfl | h
        · exact hok
        · exact hrest outcome h
      · simp only [resolverCookies, hr, if_true, hnone, List.append_nil]
        cases hcookie : s.layer.context.resolverCookie? s.settings with
        | none => exact .inl rfl
        | some w => exact .inr ⟨w, rfl, hw w hcookie⟩

/-- The law holds where no locale is lost. -/
theorem setsOnce_of_keepsLocales {s : Session} (hc : s.isCapable = true) (hm : s.memo = none)
    (hs : s.settings.KeepsLocales) (hd : s.settings.defaultLocale ≠ "") {turns : List Turn}
    (ho : ∀ t ∈ turns, t.isOrdinary = true) : s.SetsOnce turns := by
  obtain ⟨locale, hne, hr, hw⟩ := run_of_unresolved hc hm hs hd ho
  refine ⟨?_, ?_, ?_⟩
  · rcases hw with hw | ⟨w, hw, _⟩ <;> simp [hw]
  · rintro before after rfl hstart
    exact resolverCookies_of_hasStarted hstart fun t h => ho t (List.mem_append_right _ h)
  · intro w hmem
    rcases hw with hw | ⟨w', hw, hv⟩
    · rw [hw] at hmem
      cases hmem
    · rw [hw] at hmem
      rw [List.mem_singleton.mp hmem, hv]
      exact ⟨hne, hr⟩

/-- Where a cookie is due at once, the law makes the decision not empty, and returned. -/
theorem SetsOnce.of_writes {s : Settings} {c : Channel} {sig : Signals}
    (hs : (Context.ofChannel c).signals? s = some sig) (hw : (sig.decide s).writes = true)
    (law : (opening s c).SetsOnce [.act .getLocale]) :
    (sig.decide s).locale ≠ "" ∧
      ((Context.ofChannel c).resolve s).result = .ok (sig.decide s).locale := by
  have hcookie : (Context.ofChannel c).resolverCookie? s = some ((sig.decide s).cookie s) :=
    Context.resolverCookie?_of_writes rfl hs hw
  have hmem : (sig.decide s).cookie s ∈ (opening s c).resolverCookies [.act .getLocale] := by
    refine List.mem_append_left _ ?_
    show _ ∈ ((Context.ofChannel c).resolverCookie? s).toList
    rw [hcookie]
    exact List.mem_singleton_self _
  obtain ⟨hne, hr⟩ := law.value _ hmem
  exact ⟨hne, hr _ (List.mem_append_left _ (List.mem_singleton_self _))⟩

/-- The law fails on a parameter with an empty alias, and on a request without any cookie if the
name is refused. -/
theorem keepsLocales_of_setsOnce {s : Settings}
    (law : ∀ c : Channel, c.isCapable = true → (opening s c).SetsOnce [.act .getLocale]) :
    s.KeepsLocales := by
  constructor
  · intro spelling hne ha
    have hs : (Context.ofChannel (.scripted
        ⟨Table.empty.insert s.queryField spelling, {}, none, false, []⟩)).signals? s =
        some ⟨some spelling, none, none, false⟩ := by
      simp only [Context.signals?, Context.ofChannel, Table.get?_insert, if_true]
      rfl
    have hd : Signals.decide ⟨some spelling, none, none, false⟩ s = ⟨"", .query, true⟩ := by
      simp [Signals.decide, Signals.wish, Signals.nonempty?, Option.filter, hne, ha]
    obtain ⟨hempty, _⟩ := SetsOnce.of_writes hs (by rw [hd]) (law _ rfl)
    rw [hd] at hempty
    exact hempty rfl
  · let e : Exchange := .ofRequest "" []
    have due : e.IsDue s ((e.signals s).decide s).locale := by
      refine ⟨fun h => ?_, rfl⟩
      cases h
    obtain ⟨_, hr⟩ := SetsOnce.of_writes rfl ((e.writes_decide_signals s).mpr due)
      (law (.http e) rfl)
    have course := ((Context.ofChannel (.http e)).resolution s).over_exchange rfl
    exact course.2.mp ⟨_, hr⟩ due

/-- **The locale cookie of a request.** -/
theorem setsOnce_iff {s : Settings} (h : s.IsAccepted) :
    (∀ session : Session, session.settings = s → session.isCapable = true →
      session.memo = none → ∀ turns, (∀ t ∈ turns, t.isOrdinary = true) →
        session.SetsOnce turns) ↔ s.KeepsLocales := by
  constructor
  · intro law
    refine keepsLocales_of_setsOnce fun c hc => law (opening s c) rfl hc rfl _ fun t ht => ?_
    rw [List.mem_singleton.mp ht]
    rfl
  · rintro keeps session rfl hc hm turns ho
    exact setsOnce_of_keepsLocales hc hm keeps h.defaultLocale_ne_empty ho

/-- A request whose parameter is an alias, without a cookie. -/
def aliased : Session :=
  opening (.withAliases [("zh-TW", "zh_TW")]) (.http (.ofRequest "locale=zh-TW" []))

theorem aliased_sets_once :
    aliased.settings.IsAccepted ∧
      aliased.SetsOnce [.act .getLocale, .flag true, .act .getLocale] ∧
      (aliased.resolverCookies [.act .getLocale, .flag true, .act .getLocale]).map (·.value) =
        ["zh_TW"] := by
  have accepted := Settings.isAccepted_withAliases [("zh-TW", "zh_TW")]
  have keeps : aliased.settings.KeepsLocales := by
    refine ⟨fun spelling _ => ?_, rfl⟩
    show (Table.ofList [("zh-TW", "zh_TW")]).get? spelling ≠ some ""
    simp only [Table.ofList, Table.insertAll, List.foldl_cons, List.foldl_nil, Table.get?_insert]
    split
    · decide
    · rintro ⟨⟩
  exact ⟨accepted, (setsOnce_iff accepted).mpr keeps aliased rfl rfl rfl _ (by decide),
    by decide +kernel⟩

/-- A request whose parameter is a spelling of the empty locale, which its cookie holds already. -/
def aliasedToEmpty : Session :=
  opening (.withAliases [("en", "")])
    (.scripted ⟨.ofList [("locale", "en")], .ofList [("locale", "")], none, false, []⟩)

/-- The client asks for another locale after the first resolution. -/
def askingAgain : List Turn :=
  [.act .getLocale, .act (.setParameter "locale" (some "fr")), .act .getLocale, .act .getLocale]

/-- The empty locale is not given back from the memory: the cookie is set twice, and to a locale
that no resolution returns. -/
theorem aliasedToEmpty_sets_twice :
    aliasedToEmpty.settings.IsAccepted ∧ aliasedToEmpty.isCapable = true ∧
      aliasedToEmpty.memo = none ∧ (∀ t ∈ askingAgain, t.isOrdinary = true) ∧
      (aliasedToEmpty.resolutions askingAgain).map (·.toOption) =
        [some "", some "", some ""] ∧
      (aliasedToEmpty.resolverCookies askingAgain).map (·.value) = ["fr", "fr"] ∧
      ¬ aliasedToEmpty.SetsOnce askingAgain := by
  have accepted := Settings.isAccepted_withAliases [("en", "")]
  have twice : (aliasedToEmpty.resolverCookies askingAgain).map (·.value) = ["fr", "fr"] := by
    decide +kernel
  refine ⟨accepted, rfl, rfl, by decide, by decide +kernel, twice, fun law => ?_⟩
  have once := law.once
  rw [← List.length_map (f := (·.value)), twice] at once
  exact absurd once (by decide)

end Session

end RequestLocale
