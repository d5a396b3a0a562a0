import RequestLocale.Proofs.CookieName
import RequestLocale.Proofs.OneBundle

/-! # What code finds in the state of its request

The middleware writes two entries into the state of a request, the context under a key of its own
and then the translator under a name that the settings choose; templates are given the translator
under that name and then the locale under another. The settings take any name at all. A name that is
none of the two keys does what it should, at every point of every request (`Serving.Exposes`,
`Serving.ServesTemplates`). These are all the names that do (`Serving.exposes_iff`), since of two
entries under one key only the later one is found. -/
namespace RequestLocale

/-- A layer for a request that came with a query and headers, under some settings. -/
structure Layer.IsFor (settings : Settings) (query : String) (headers : Http.Headers)
    (l : Layer) : Prop where
  under : l.locales.settings = settings
  exchange : ∃ e, l.context.channel = .http e ∧ e.query = query ∧ e.headers = headers

/-- A deed leaves a layer with the request that it was for. -/
theorem Layer.IsFor.follow {settings : Settings} {query : String} {headers : Http.Headers}
    {l after : Layer} {d : Deed} (h : l.IsFor settings query headers) (f : l.Follows d after) :
    after.IsFor settings query headers := by
  obtain ⟨e, channel, rfl, rfl⟩ := h.exchange
  obtain ⟨next, found, query, headers⟩ := Deed.http_apply channel l.locales.settings d
  exact ⟨f.settings.trans h.under, next, f.channel.trans found, query, headers⟩

namespace Middleware

theorem get?_stateEntries (ls : Locales) (entries : Table StateEntry) (key : String) :
    (stateEntries ls entries).get? key =
      if key = ls.settings.functionName then some .translator
      else if key = contextKey then some .context
      else entries.get? key := by
  rw [stateEntries, Table.get?_insert, Table.get?_insert]

end Middleware

namespace Serving

open Middleware (contextKey handles stateEntries get?_stateEntries)

/-! ## A request at any point of its run -/

/-- The request is served by its own layer, and its entries are those that the middleware wrote
over the given ones. -/
structure IsFor (settings : Settings) (query : String) (headers : Http.Headers)
    (given : Table StateEntry) (s : Serving) : Prop where
  under : s.locales.settings = settings
  layer : ∃ l, s.layer = some l ∧ l.IsFor settings query headers
  entries : ∃ loader, s.entries = stateEntries ⟨settings, loader⟩ given

theorem isFor_start (outer : Ambient) (ls : Locales) {kind : String} (h : handles kind = true)
    (query path : String) (headers : Http.Headers) (given : Table StateEntry)
    (installed : Bool) :
    (start outer ls kind query path headers given installed false).IsFor ls.settings query
      headers given := by
  simp only [start, h]
  exact ⟨rfl, ⟨_, rfl, rfl, _, rfl, rfl, rfl⟩, ls.loader, rfl⟩

namespace IsFor

variable {settings : Settings} {query : String} {headers : Http.Headers}
  {given : Table StateEntry} {s : Serving}

theorem settings_within (h : s.IsFor settings query headers given) (a : Session.Action) :
    (s.within a).state.locales.settings = settings := by
  obtain ⟨l, hl, served⟩ := h.layer
  have follows := (s.session.follows_perform a).layer.settings
  rw [show s.session.layer = l by rw [session, hl]] at follows
  exact follows.trans served.under

theorem settings_act (h : s.IsFor settings query headers given) (a : Session.Action) :
    (s.act a).state.locales.settings = settings := by
  rw [state_act]
  cases s.reached? a with
  | none => exact h.under
  | some b => exact h.settings_within b

theorem settings_locale (h : s.IsFor settings query headers given) :
    s.locale.state.locales.settings = settings := by
  cases found : s.installed && s.keepsContext with
  | false =>
    obtain ⟨e, still⟩ := locale_of_barred found
    rw [still]
    exact h.under
  | true =>
    obtain ⟨l, _, after⟩ := locale_of_open found
    rw [after]
    exact h.under

theorem settings_perform (h : s.IsFor settings query headers given) (a : Action) :
    (s.perform a).state.locales.settings = settings := by
  cases a with
  | act a => exact h.settings_act a
  | call key args =>
    obtain ⟨l, hl, _⟩ := h.layer
    show (s.call key args).state.locales.settings = settings
    rw [call, hl]
    exact h.settings_within _
  | send f =>
    obtain ⟨l, hl, _⟩ := h.layer
    simp only [perform, send, hl]
    exact h.under
  | entryNames | hasLocales | hasContext => exact h.under
  | locale | templateEntries => exact h.settings_locale

theorem perform (h : s.IsFor settings query headers given) (a : Action) :
    (s.perform a).state.IsFor settings query headers given := by
  have follows := s.follows_perform a
  obtain ⟨l, hl, served⟩ := h.layer
  obtain ⟨next, hn, followed⟩ := follows.layer l hl
  obtain ⟨loader, written⟩ := h.entries
  exact ⟨h.settings_perform a, ⟨next, hn, served.follow followed⟩, loader,
    follows.entries.trans written⟩

theorem run (h : s.IsFor settings query headers given) (actions : List Action) :
    (s.run actions).1.IsFor settings query headers given := by
  induction actions generalizing s with
  | nil => exact h
  | cons a actions ih => exact ih (h.perform a)

end IsFor

/-- A request at some point of its run, whatever has been done behind the middleware so far. -/
inductive Reached (settings : Settings) (query : String) (headers : Http.Headers)
    (given : Table StateEntry) : Serving → Prop
  | run (outer : Ambient) (loader : Resource.Loader) {kind : String} (h : handles kind = true)
      (path : String) (installed : Bool) (actions : List Action) :
      Reached settings query headers given
        ((start outer ⟨settings, loader⟩ kind query path headers given installed false).run
          actions).1

theorem Reached.isFor {settings : Settings} {query : String} {headers : Http.Headers}
    {given : Table StateEntry} {s : Serving} (h : Reached settings query headers given s) :
    s.IsFor settings query headers given := by
  cases h with
  | run outer loader h path installed actions =>
    exact (isFor_start outer ⟨settings, loader⟩ h query path headers given installed).run actions

/-! ## What it exposes -/

/-- The entries are the context, the translator and what was given before; handlers find the context
of the layer, and the translator and the locale are those of that context. -/
structure Exposes (settings : Settings) (given : Table StateEntry) (l : Layer) (s : Serving) :
    Prop where
  context : s.entries.get? contextKey = some .context
  translator : s.entries.get? settings.functionName = some .translator
  others : ∀ key, key ≠ contextKey → key ≠ settings.functionName →
    s.entries.get? key = given.get? key
  session : s.session = ⟨l, true, s.outer⟩
  found : s.context? = .ok .context
  bound : ∀ a, s.act a = s.within a
  called : ∀ key args, s.call key args = s.within (.translate key args)
  located : s.installed = true → s.locale =
    ⟨{ s with layer := some (l.run Locales.getLocale).state },
      (l.run Locales.getLocale).events, (l.run Locales.getLocale).result.mapError .call⟩
  answered : s.installed = true → Http.Cookie.IsLegalName settings.cookieField →
    ∃ locale, s.locale.result = .ok locale

/-- Templates are given the translator and the locale that handlers get. -/
def ServesTemplates (settings : Settings) (s : Serving) : Prop :=
  ∀ locale, s.locale.result = .ok locale → ∃ entries, s.templateEntries.result = .ok entries ∧
    entries.get? settings.functionName = some .translator ∧
    entries.get? "locale" = some (.other (.text locale))

section

variable {settings : Settings} {query : String} {headers : Http.Headers}
  {given : Table StateEntry} {s : Serving}

theorem IsFor.exposes (h : s.IsFor settings query headers given)
    (hn : settings.functionName ≠ contextKey) :
    ∃ l, l.IsFor settings query headers ∧ s.Exposes settings given l := by
  obtain ⟨l, hl, served⟩ := h.layer
  obtain ⟨loader, written⟩ := h.entries
  have look (key : String) : s.entries.get? key = if key = settings.functionName then
      some .translator else if key = contextKey then some .context else given.get? key := by
    rw [written, get?_stateEntries]
  have context : s.entries.get? contextKey = some .context := by
    rw [look, if_neg (Ne.symm hn), if_pos rfl]
  have kept : s.keepsContext = true := by rw [keepsContext, hl, context]
  have located : s.installed = true → s.locale =
      ⟨{ s with layer := some (l.run Locales.getLocale).state },
        (l.run Locales.getLocale).events, (l.run Locales.getLocale).result.mapError .call⟩ := by
    intro hi
    obtain ⟨l', hl', after⟩ := locale_of_open (s := s) (by rw [hi, kept]; rfl)
    cases hl.symm.trans hl'
    exact after
  refine ⟨l, served, context, ?_, fun key hc hf => ?_, ?_, (keepsContext_iff.mp kept).2,
    fun a => ?_, fun key args => ?_, located, fun hi legal => ?_⟩
  · rw [look, if_pos rfl]
  · rw [look, if_neg hf, if_neg hc]
  · rw [Serving.session, hl]
  · simp [act, kept]
  · rw [call, hl]
  · obtain ⟨⟨ls, ⟨channel, state⟩⟩, rfl, e, rfl, _⟩ := l, served
    obtain ⟨locale, answer⟩ := Settings.resolve_of_isLegalName legal e state
    refine ⟨locale, ?_⟩
    rw [located hi]
    exact congrArg (Except.mapError Failure.call) answer

theorem templateEntries_of_locale {locale : String} (h : s.locale.result = .ok locale) :
    ∃ entries, s.templateEntries.result = .ok entries ∧
      ∀ key, entries.get? key =
        if key = "locale" then some (.other (.text locale))
        else if key = s.locales.settings.functionName then some .translator else none := by
  refine ⟨_, by simp only [templateEntries, Step.map, h]; rfl, fun key => ?_⟩
  rw [Table.get?_insert, Table.get?_insert]
  rfl

theorem IsFor.servesTemplates (h : s.IsFor settings query headers given)
    (hn : settings.functionName ≠ "locale") : s.ServesTemplates settings := by
  intro locale answer
  obtain ⟨entries, given, look⟩ := templateEntries_of_locale answer
  refine ⟨entries, given, ?_, ?_⟩
  · rw [look, if_neg hn, h.under, if_pos rfl]
  · rw [look, if_pos rfl]

/-- A handler gets the locale that is remembered. -/
theorem Exposes.locale_of_memo {l : Layer} (h : s.Exposes settings given l)
    (hi : s.installed = true) {locale : String} (memo : l.context.state.known? = some locale) :
    s.locale.result = .ok locale := by
  rw [h.located hi]
  simp only [Layer.run, Locales.getLocale, Context.resolve, memo]
  rfl

/-- Some request has a locale for its handlers. -/
theorem exists_reached_locale (hn : settings.functionName ≠ contextKey) :
    ∃ s, Reached settings "" [] {} s ∧ s.locale.result = .ok "en" := by
  have handled : handles "http" = true := by decide
  let first := start .empty ⟨settings, ⟨[], "en", {}⟩⟩ "http" "" "/" [] {} true false
  have reached : Reached settings "" [] {} (first.run [.act (.remember "en")]).1 :=
    .run .empty ⟨[], "en", {}⟩ handled "/" true _
  obtain ⟨l, _, begun⟩ :=
    (isFor_start .empty ⟨settings, ⟨[], "en", {}⟩⟩ handled "" "/" [] {} true).exposes hn
  obtain ⟨last, _, exposed⟩ := reached.isFor.exposes hn
  have done : (first.run [.act (.remember "en")]).1 = (first.within (.remember "en")).state :=
    congrArg Step.state (begun.bound (.remember "en"))
  refine ⟨_, reached, ?_⟩
  rw [done] at exposed ⊢
  have same : (first.within (.remember "en")).state.session.layer = last :=
    congrArg Session.layer exposed.session
  exact exposed.locale_of_memo rfl (by rw [← same]; rfl)

end

/-- **What every name exposes.** The names of the translator that are no key of the context are
those under which every request exposes its context and its translator; without the key of the
locale they are those under which templates find the translator as well. -/
theorem exposes_iff (settings : Settings) :
    ((∀ query headers given s, Reached settings query headers given s →
        ∃ l, l.IsFor settings query headers ∧ s.Exposes settings given l) ↔
      settings.functionName ≠ contextKey) ∧
    ((∀ query headers given s, Reached settings query headers given s →
        (∃ l, l.IsFor settings query headers ∧ s.Exposes settings given l) ∧
          s.ServesTemplates settings) ↔
      settings.functionName ≠ contextKey ∧ settings.functionName ≠ "locale") := by
  have handled : handles "http" = true := by decide
  have apart (all : ∀ query headers given s, Reached settings query headers given s →
      ∃ l, l.IsFor settings query headers ∧ s.Exposes settings given l) :
      settings.functionName ≠ contextKey := by
    intro same
    have reached : Reached settings "" [] {} _ :=
      .run .empty ⟨[], "en", {}⟩ handled "/" true []
    obtain ⟨l, _, exposed⟩ := all _ _ _ _ reached
    have shadowed := exposed.translator
    rw [same, exposed.context] at shadowed
    cases shadowed
  refine ⟨⟨apart, fun hn query headers given s reached => reached.isFor.exposes hn⟩,
    fun all => ?_, fun ⟨hn, hl⟩ query headers given s reached =>
      ⟨reached.isFor.exposes hn, reached.isFor.servesTemplates hl⟩⟩
  have hn := apart fun query headers given s reached => (all query headers given s reached).1
  refine ⟨hn, fun same => ?_⟩
  obtain ⟨s, reached, answer⟩ := exists_reached_locale hn
  obtain ⟨entries, given, translator, locale⟩ := (all _ _ _ _ reached).2 _ answer
  rw [same, locale] at translator
  cases translator

/-- A request without bundles, under another name for the translator. -/
def named (name : String) : Serving :=
  start .empty ⟨.withFunctionName name, ⟨[], "en_US", {}⟩⟩ "http" "" "/" [] {} true false

/-- The settings accept the two keys as names. Under the first a handler finds the translator in the
place of the context and gets no locale; under the second templates get no translator. -/
theorem context_and_locale_taken :
    (Settings.withFunctionName contextKey).IsAccepted ∧
      (Settings.withFunctionName "locale").IsAccepted ∧
      (named contextKey).context? = .ok .translator ∧
      (named contextKey).locale.result = .error (.call (.missing "locale_state")) ∧
      (named "locale").templateEntries.result.map (·.entries) =
        .ok [("locale", .other (.text "en_US"))] ∧
      ¬ ∀ settings : Settings, settings.IsAccepted → ∀ query headers given s,
        Reached settings query headers given s →
          (∃ l, l.IsFor settings query headers ∧ s.Exposes settings given l) ∧
            s.ServesTemplates settings := by
  have accepted := Settings.isAccepted_withFunctionName contextKey
  have shadowed : (named contextKey).context? = .ok .translator := rfl
  have answer : (named "locale").locale.result = .ok "en_US" :=
    eq_ok_of_toOption (by decide +kernel)
  have taken : (named "locale").templateEntries.result.map (·.entries) =
      .ok [("locale", .other (.text "en_US"))] := by
    simp only [templateEntries, Step.map, answer]
    rfl
  refine ⟨accepted, Settings.isAccepted_withFunctionName "locale", shadowed, rfl, taken,
    fun law => ?_⟩
  have handled : handles "http" = true := by decide
  have reached : Reached (.withFunctionName contextKey) "" [] {} (named contextKey) :=
    .run .empty ⟨[], "en_US", {}⟩ handled "/" true []
  obtain ⟨⟨l, _, exposed⟩, _⟩ := law _ accepted _ _ _ _ reached
  rw [exposed.found] at shadowed
  cases shadowed

end Serving

end RequestLocale
