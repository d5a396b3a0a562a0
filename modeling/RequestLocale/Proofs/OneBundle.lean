import RequestLocale.Proofs.Delivery

/-! # One bundle for each request

The first resolution of a request remembers its locale, and the first translation attaches its
messages. Either can come about in many ways, and in any order. Yet they cannot come apart: what is
attached are at all times the messages of the locale that is remembered (`Context.IsCoherent`), as
long as nobody brings messages of his own. So all that is asked of the translator of a request is
answered under one locale (`Serving.one_bundle`). -/
namespace RequestLocale

/-! ## Questions -/

/-- What is asked of the translator of a request. -/
inductive Question where
  | locale
  | message (key : Option String) (args : List Value)

namespace Question

/-- The answer that a question must get under a locale. -/
def answer (ls : Locales) (locale : String) : Question → Except FormatError String
  | .locale => .ok locale
  | .message none _ => .ok ""
  | .message (some key) args => Message.render (some (ls.loader.get locale)) key args

/-- Puts a question to a context. -/
def ask (ls : Locales) (ctx : Context) : Question → Step Context CallError String
  | .locale => ls.getLocale ctx
  | .message key args => ls.translate ctx key args

end Question

namespace Locales

/-- What is attached for a locale are the messages that the bundles have for it. -/
theorem messages_attachment (ls : Locales) (locale : String) :
    ls.messages (ls.attachment locale) = ls.loader.get locale := by
  unfold attachment Resource.Loader.get
  cases ls.loader.serving? locale <;> rfl

end Locales

/-! ## Contexts -/

/-- A client speaks through the channel, and the attached messages are those of the locale that is
remembered. -/
structure Context.IsCoherent (ls : Locales) (ctx : Context) : Prop where
  capable : ctx.channel.isCapable = true
  attached : ∀ a, ctx.state.attached = some a →
    ∃ locale, ctx.state.locale = some locale ∧ ls.messages a = ls.loader.get locale

namespace Context.IsCoherent

variable {ls : Locales} {ctx after : Context}

/-- Coherence stays where the channel and what is remembered stay, and nothing is attached. -/
theorem transfer (h : ctx.IsCoherent ls) (hc : after.channel.isCapable = ctx.channel.isCapable)
    (hl : ∀ memo, ctx.state.locale = some memo → after.state.locale = some memo)
    (ha : after.state.attached = ctx.state.attached) : after.IsCoherent ls := by
  refine ⟨hc.trans h.capable, fun a found => ?_⟩
  rw [ha] at found
  obtain ⟨locale, memo, same⟩ := h.attached a found
  exact ⟨locale, hl locale memo, same⟩

theorem resolve (h : ctx.IsCoherent ls) : (ctx.resolve ls.settings).state.IsCoherent ls :=
  h.transfer (ctx.isCapable_resolve _) (fun _ memo => Context.locale_resolve memo _)
    (ctx.attached_resolve _)

/-- Attaching the messages of the locale that is remembered keeps a context coherent. -/
theorem attach (h : ctx.IsCoherent ls) {locale : String} (memo : ctx.state.locale = some locale)
    (ha : ctx.attach (some (ls.attachment locale)) = .ok after) :
    after.IsCoherent ls ∧ after.state.attached = some (ls.attachment locale) := by
  unfold Context.attach at ha
  split at ha
  · cases ha
  · cases ha
    refine ⟨⟨h.capable, fun a found => ?_⟩, rfl⟩
    cases found
    exact ⟨locale, memo, ls.messages_attachment locale⟩

end Context.IsCoherent

/-- What can come of a question to a coherent context. -/
inductive Question.Asked (ls : Locales) (ctx : Context) (q : Question) :
    Step Context CallError String → Prop
  | keyless {args : List Value} : q = .message none args → Asked ls ctx q ⟨ctx, [], .ok ""⟩
  | refused {events : List Log.Event} {refusal : Http.Cookie.Error} :
      Http.Cookie.checkName ls.settings.cookieField = .error refusal →
      Asked ls ctx q ⟨ctx, events, .error (.cookie refusal)⟩
  | answered {after : Context} {events : List Log.Event} {locale : String} :
      after.IsCoherent ls → after.state.locale = some locale →
      Asked ls ctx q ⟨after, events, (q.answer ls locale).mapError .format⟩

namespace Locales

/-- Messages are attached where there are none yet, and those that are there stay. -/
theorem ensureAttached_coherent {ls : Locales} {ctx : Context} (h : ctx.IsCoherent ls)
    {locale : String} (memo : ctx.state.locale = some locale) :
    ∃ after, ls.ensureAttached ctx locale = .ok after ∧ after.IsCoherent ls ∧
      after.state.locale = some locale ∧
      after.state.attached.map ls.messages = some (ls.loader.get locale) := by
  unfold ensureAttached
  cases hs : ctx.state.attached with
  | some a =>
    refine ⟨ctx, rfl, h, memo, ?_⟩
    obtain ⟨remembered, hr, same⟩ := h.attached a hs
    cases memo.symm.trans hr
    rw [hs, Option.map_some, same]
  | none =>
    obtain ⟨after, ha⟩ := Context.attach_of_isCapable h.capable (some (ls.attachment locale))
    obtain ⟨coherent, attached⟩ := h.attach memo ha
    refine ⟨after, ha, coherent, ?_, ?_⟩
    · rw [(Context.attach_eq ha).2, memo]
    · rw [attached, Option.map_some, ls.messages_attachment]

end Locales

/-- A question to a coherent context gets its answer under the locale that is remembered from then
on, unless the cookie of the locale is refused. -/
theorem Question.asked {ls : Locales} {ctx : Context} (h : ctx.IsCoherent ls) (q : Question) :
    q.Asked ls ctx (q.ask ls ctx) := by
  have refused {e : CallError} := Context.refused_of_resolve (s := ls.settings) (e := e) h.capable
  have resolved {locale : String} (hr : (ctx.resolve ls.settings).result = .ok locale) :=
    Context.locale_of_resolve h.capable hr
  have coherent := h.resolve
  cases q with
  | locale =>
    show Asked ls ctx .locale (ctx.resolve ls.settings)
    generalize ctx.resolve ls.settings = step at refused resolved coherent ⊢
    obtain ⟨after, events, result⟩ := step
    cases result with
    | error e =>
      obtain ⟨rfl, refusal, rfl, illegal⟩ := refused rfl
      exact .refused illegal
    | ok locale => exact .answered coherent (resolved rfl)
  | message key args =>
    cases key with
    | none => exact .keyless rfl
    | some key =>
      show Asked ls ctx (.message (some key) args) (ls.translate ctx (some key) args)
      simp only [Locales.translate, Locales.getLocale, Step.bind]
      generalize ctx.resolve ls.settings = step at refused resolved coherent ⊢
      obtain ⟨after, events, result⟩ := step
      cases result with
      | error e =>
        obtain ⟨rfl, refusal, rfl, illegal⟩ := refused rfl
        exact .refused illegal
      | ok locale =>
        obtain ⟨last, attached, hc, memo, messages⟩ :=
          ls.ensureAttached_coherent coherent (resolved rfl)
        simp only [attached, messages]
        exact .answered hc memo

theorem Question.isCoherent_ask {ls : Locales} {ctx : Context} (h : ctx.IsCoherent ls)
    (q : Question) : (q.ask ls ctx).state.IsCoherent ls := by
  have asked := q.asked h
  generalize q.ask ls ctx = step at asked ⊢
  cases asked with
  | keyless => exact h
  | refused => exact h
  | answered coherent => exact coherent

theorem Locales.isCoherent_attachBundle {ls : Locales} {ctx : Context} (h : ctx.IsCoherent ls) :
    (ls.attachBundle ctx).state.IsCoherent ls := by
  have resolved {locale : String} (hr : (ctx.resolve ls.settings).result = .ok locale) :=
    Context.locale_of_resolve h.capable hr
  have coherent := h.resolve
  simp only [attachBundle, getLocale, Step.bind]
  generalize ctx.resolve ls.settings = step at resolved coherent ⊢
  obtain ⟨after, events, result⟩ := step
  cases result with
  | error e => exact coherent
  | ok locale =>
    obtain ⟨last, attached⟩ :=
      Context.attach_of_isCapable coherent.capable (some (ls.attachment locale))
    simp only [attached]
    exact (coherent.attach (resolved rfl) attached).1

/-- A layer with the `Locales` of its application and a coherent context. -/
structure Layer.IsCoherent (ls : Locales) (l : Layer) : Prop where
  locales : l.locales = ls
  context : l.context.IsCoherent ls

/-- A deed keeps a layer coherent unless it attaches messages. -/
theorem Layer.IsCoherent.follow {ls : Locales} {l after : Layer} {d : Deed}
    (h : l.IsCoherent ls) (f : l.Follows d after) (hl : after.locales = l.locales)
    (ha : after.context.state.attached = l.context.state.attached) : after.IsCoherent ls := by
  refine ⟨hl.trans h.locales, h.context.transfer ?_ (fun memo remembered => ?_) ha⟩
  · rw [f.channel, Deed.isCapable_apply]
  · rw [f.locale, Deed.locale_apply remembered]

/-! ## Actions of a session -/

namespace Session

/-- Whether an action brings messages of its own. -/
def Action.bringsMessages : Action → Bool
  | .attach _ | .addBundle .. => true
  | _ => false

/-- What an action asks of the translator. -/
def Action.question? : Action → Option Question
  | .getLocale | .currentLocale => some .locale
  | .translate key args | .currentTranslate key args => some (.message key args)
  | _ => none

theorem map_mapError (r : Except CallError String) :
    (r.mapError Failure.call).map Answer.text = (r.map Answer.text).mapError Failure.call := by
  cases r <;> rfl

/-- A question that reaches the layer of a session is put to its context, by whatever way. -/
theorem perform_question {s : Session} (hc : s.isCurrent = true) {a : Action} {q : Question}
    (hq : a.question? = some q) :
    (s.perform a).state = s.withContext (q.ask s.layer.locales s.layer.context).state ∧
      (s.perform a).result =
        ((q.ask s.layer.locales s.layer.context).result.map .text).mapError .call := by
  obtain ⟨⟨ls, ctx⟩, isCurrent, outer⟩ := s
  cases hc
  cases a with
  | getLocale => cases hq; exact ⟨rfl, rfl⟩
  | translate key args => cases hq; exact ⟨rfl, rfl⟩
  | currentLocale =>
    cases hq
    exact ⟨rfl, map_mapError _⟩
  | currentTranslate key args =>
    cases hq
    cases key with
    | none => exact ⟨rfl, rfl⟩
    | some key => exact ⟨rfl, map_mapError _⟩
  | _ => cases hq

/-- An action attaches nothing if it asks for no message and brings none. -/
theorem attached_perform (s : Session) {a : Action} (hq : a.question? = none)
    (hb : a ≠ .attachBundle) (ha : a.bringsMessages = false) :
    (s.perform a).state.layer.locales = s.layer.locales ∧
      (s.perform a).state.layer.context.state.attached = s.layer.context.state.attached := by
  obtain ⟨⟨ls, ⟨channel, state⟩⟩, isCurrent, outer⟩ := s
  cases a with
  | translate | getLocale | currentTranslate | currentLocale => cases hq
  | attach | addBundle => cases ha
  | attachBundle => exact absurd rfl hb
  | remember locale => exact ⟨rfl, LocaleState.attached_remember state locale⟩
  | setCookie w =>
    simp only [perform, change]
    cases h : (⟨channel, state⟩ : Context).setCookie w with
    | ok after => exact ⟨rfl, by simp only [withContext, Context.state_setCookie h]⟩
    | error e => exact ⟨rfl, rfl⟩
  | functionName | hasCapabilities | isBound | addLocale => exact ⟨rfl, rfl⟩
  | parameter | cookie | languages | locale | applyCookies | setParameter | setStarted =>
    cases channel <;> exact ⟨rfl, rfl⟩

theorem isCoherent_perform {ls : Locales} {s : Session} (hc : s.isCurrent = true)
    (h : s.layer.IsCoherent ls) {a : Action} (ha : a.bringsMessages = false) :
    (s.perform a).state.layer.IsCoherent ls := by
  cases hq : a.question? with
  | some q =>
    rw [(perform_question hc hq).1, h.locales]
    exact ⟨h.locales, q.isCoherent_ask h.context⟩
  | none =>
    by_cases hb : a = .attachBundle
    · subst hb
      have coherent := Locales.isCoherent_attachBundle h.context
      rw [← h.locales] at coherent
      exact ⟨h.locales, h.locales ▸ coherent⟩
    · obtain ⟨hl, attached⟩ := s.attached_perform hq hb ha
      exact h.follow (s.follows_perform a).layer hl attached

end Session

/-! ## Actions behind the middleware -/

namespace Serving

open Middleware (contextKey handles)

/-- Whether an action brings messages of its own. -/
def Action.bringsMessages : Action → Bool
  | .act a => a.bringsMessages
  | _ => false

/-- What an action asks of the translator of the request. -/
def Action.question? : Action → Option Question
  | .act a => a.question?
  | .call key args => some (.message key args)
  | .locale => some .locale
  | _ => none

def Answer.text? : Answer → Option String
  | .session (.text s) | .text s => some s
  | _ => none

/-- The request has a coherent layer with the `Locales` of its application. -/
structure IsCoherent (ls : Locales) (s : Serving) : Prop where
  locales : s.locales = ls
  layer : ∃ l, s.layer = some l ∧ l.IsCoherent ls

theorem isCoherent_start (outer : Ambient) (ls : Locales) {kind : String}
    (h : handles kind = true) (query path : String) (headers : Http.Headers)
    (entries : Table StateEntry) (installed : Bool) :
    (start outer ls kind query path headers entries installed false).IsCoherent ls := by
  simp only [start, h]
  exact ⟨rfl, _, rfl, rfl, rfl, fun a found => by cases found⟩

namespace IsCoherent

variable {ls : Locales} {s : Serving}

theorem within (h : s.IsCoherent ls) {a : Session.Action} (ha : a.bringsMessages = false) :
    (s.within a).state.IsCoherent ls := by
  obtain ⟨rfl, l, hl, coherent⟩ := h
  have hs : s.session = ⟨l, true, s.outer⟩ := by rw [session, hl]
  have after := s.session.isCoherent_perform (by rw [hs]) (by rw [hs]; exact coherent) ha
  exact ⟨after.locales, _, by simp [Serving.within, withSession, hl], after⟩

theorem act (h : s.IsCoherent ls) {a : Session.Action} (ha : a.bringsMessages = false) :
    (s.act a).state.IsCoherent ls := by
  rw [state_act]
  cases hr : s.reached? a with
  | none => exact h
  | some b =>
    rcases reached?_eq_some hr with rfl | rfl
    · exact h.within ha
    · exact h.within rfl

theorem send (h : s.IsCoherent ls) (f : Frame) : (s.send f).1.IsCoherent ls := by
  obtain ⟨locales, l, hl, coherent⟩ := h
  have follow := coherent.follow (follows_deliver l s.path f) rfl
  have attached : (Middleware.deliver l.context s.path f).1.state.attached =
      l.context.state.attached := by
    unfold Middleware.deliver
    split
    · split <;> rfl
    · rfl
  simp only [Serving.send, hl]
  exact ⟨locales, _, rfl, follow attached⟩

theorem locale (h : s.IsCoherent ls) : s.locale.state.IsCoherent ls := by
  cases found : s.installed && s.keepsContext with
  | false =>
    obtain ⟨e, still⟩ := locale_of_barred found
    rw [still]
    exact h
  | true =>
    obtain ⟨l, hl, after⟩ := locale_of_open found
    obtain ⟨locales, l', hl', coherent⟩ := h
    cases hl.symm.trans hl'
    rw [after]
    refine ⟨locales, _, rfl, coherent.locales, ?_⟩
    show (l.locales.getLocale l.context).state.IsCoherent ls
    rw [coherent.locales]
    exact coherent.context.resolve

theorem perform (h : s.IsCoherent ls) {a : Action} (ha : a.bringsMessages = false) :
    (s.perform a).state.IsCoherent ls := by
  cases a with
  | act a => exact h.act ha
  | call key args =>
    obtain ⟨l, hl, _⟩ := h.layer
    show (s.call key args).state.IsCoherent ls
    rw [call, hl]
    exact h.within rfl
  | send f => exact h.send f
  | entryNames | hasLocales | hasContext => exact h
  | locale | templateEntries => exact h.locale

end IsCoherent

/-- Whether the code finds the context where an action looks for it. -/
def finds (s : Serving) : Action → Bool
  | .act a => (s.reached? a).isSome
  | .locale => s.installed && s.keepsContext
  | _ => true

/-- A question of the session either reaches it as it is, or fails for want of a context. -/
theorem act_question (s : Serving) {a : Session.Action} {q : Question}
    (hq : a.question? = some q) :
    (s.reached? a = some a ∧ s.act a = s.within a) ∨
      (s.reached? a = none ∧ ∃ e, s.act a = .still s (.error e)) := by
  cases hk : s.keepsContext with
  | true => exact .inl ⟨by simp [reached?, hk], by simp [act, hk]⟩
  | false =>
    cases a with
    | getLocale => exact .inr ⟨by simp [reached?, hk]; rfl, _, by simp [act, hk]; rfl⟩
    | translate key args =>
      cases key with
      | none => exact .inl ⟨by simp [reached?, hk]; rfl, by simp [act, hk]; rfl⟩
      | some key => exact .inr ⟨by simp [reached?, hk]; rfl, _, by simp [act, hk]; rfl⟩
    | currentLocale | currentTranslate =>
      exact .inl ⟨by simp [reached?, hk]; rfl, by simp [act, hk]; rfl⟩
    | _ => cases hq

/-- A question that does not find the context fails and does nothing. -/
theorem perform_of_lost {s : Serving} {a : Action} {q : Question} (hq : a.question? = some q)
    (h : s.finds a = false) : ∃ e, s.perform a = .still s (.error e) := by
  cases a with
  | act a =>
    rcases s.act_question hq with ⟨reached, _⟩ | ⟨_, e, still⟩
    · rw [finds, reached] at h
      cases h
    · exact ⟨e, by rw [perform, still]; rfl⟩
  | call key args => cases h
  | locale =>
    obtain ⟨e, still⟩ := locale_of_barred h
    exact ⟨e, by rw [perform, still]; rfl⟩
  | _ => cases hq

/-- A question that finds the context is put to it. -/
theorem perform_question {ls : Locales} {s : Serving} (hs : s.locales = ls) {ctx : Context}
    (hl : s.layer = some ⟨ls, ctx⟩) {a : Action} {q : Question} (hq : a.question? = some q)
    (h : s.finds a = true) :
    (s.perform a).state = { s with layer := some ⟨ls, (q.ask ls ctx).state⟩ } ∧
      (s.perform a).result.map Answer.text? =
        ((q.ask ls ctx).result.map some).mapError .call := by
  have within {b : Session.Action} (hb : b.question? = some q) :
      (s.within b).state = { s with layer := some ⟨ls, (q.ask ls ctx).state⟩ } ∧
        ((s.within b).map Answer.session).result.map Answer.text? =
          ((q.ask ls ctx).result.map some).mapError .call := by
    have hc : s.session = ⟨⟨ls, ctx⟩, true, s.outer⟩ := by rw [session, hl]
    obtain ⟨state, result⟩ := Session.perform_question (s := s.session) (by rw [hc]) hb
    rw [hc] at state result
    subst hs
    constructor
    · simp only [Serving.within, hc, state, withSession, Session.withContext, hl, Option.map_some]
    · simp only [Serving.within, Step.map, hc, result]
      cases (q.ask s.locales ctx).result <;> rfl
  cases a with
  | act a =>
    rcases s.act_question hq with ⟨_, reached⟩ | ⟨lost, _⟩
    · rw [perform, reached]
      exact within hq
    · rw [finds, lost] at h
      cases h
  | call key args =>
    have hc : s.call key args = s.within (.translate key args) := by rw [call, hl]
    rw [perform, hc]
    exact within hq
  | locale =>
    obtain ⟨l, hl', after⟩ := locale_of_open h
    cases hl.symm.trans hl'
    cases hq
    rw [perform, after]
    refine ⟨rfl, ?_⟩
    show ((((ls.getLocale ctx).result.mapError Failure.call).map Answer.text).map Answer.text?) =
      ((ls.getLocale ctx).result.map some).mapError Failure.call
    cases (ls.getLocale ctx).result <;> rfl
  | _ => cases hq

theorem finds_of_keyless (s : Serving) {a : Action} {args : List Value}
    (hq : a.question? = some (.message none args)) : s.finds a = true := by
  cases a with
  | act a =>
    cases a with
    | translate | currentTranslate =>
      cases hq
      cases hk : s.keepsContext with
      | true => simp [finds, reached?, hk]
      | false => simp [finds, reached?, hk]; rfl
    | _ => cases hq
  | call key args => rfl
  | _ => cases hq

theorem finds_of_keepsContext {s : Serving} (hi : s.installed = true)
    (hk : s.keepsContext = true) (a : Action) : s.finds a = true := by
  cases a with
  | act a => simp [finds, reached?, hk]
  | locale => simp [finds, hi, hk]
  | _ => rfl

/-! ## Runs -/

theorem run_append (s : Serving) (actions later : List Action) :
    (s.run (actions ++ later)).1 = ((s.run actions).1.run later).1 := by
  induction actions generalizing s with
  | nil => rfl
  | cons a actions ih => exact ih (s.perform a).state

theorem IsCoherent.run {ls : Locales} {s : Serving} (h : s.IsCoherent ls) {actions : List Action}
    (ha : ∀ a ∈ actions, a.bringsMessages = false) : (s.run actions).1.IsCoherent ls := by
  induction actions generalizing s with
  | nil => exact h
  | cons a actions ih =>
    obtain ⟨first, rest⟩ := List.forall_mem_cons.mp ha
    exact ih (h.perform first) rest

theorem memo_perform {s : Serving} {memo : String} (h : s.memo = some memo) (a : Action) :
    (s.perform a).state.memo = some memo := by
  obtain ⟨l, hl, remembered⟩ := Option.bind_eq_some_iff.mp h
  obtain ⟨next, hn, follows⟩ := (s.follows_perform a).layer l hl
  rw [Serving.memo, hn, Option.bind_some, follows.locale]
  exact Deed.locale_apply remembered _ _

theorem memo_run {s : Serving} {memo : String} (h : s.memo = some memo) (actions : List Action) :
    (s.run actions).1.memo = some memo := by
  induction actions generalizing s with
  | nil => exact h
  | cons a actions ih => exact ih (memo_perform h a)

/-- What a request was begun with stays. -/
theorem entries_run (s : Serving) (actions : List Action) :
    (s.run actions).1.entries = s.entries ∧ (s.run actions).1.installed = s.installed := by
  induction actions generalizing s with
  | nil => exact ⟨rfl, rfl⟩
  | cons a actions ih =>
    have follows := s.follows_perform a
    obtain ⟨entries, installed⟩ := ih (s.perform a).state
    exact ⟨entries.trans follows.entries, installed.trans follows.installed⟩

/-- The context is in its place unless the translator goes by the same name. -/
theorem IsCoherent.keepsContext {ls : Locales} {s : Serving} (h : s.IsCoherent ls)
    {entries : Table StateEntry} (he : s.entries = Middleware.stateEntries ls entries)
    (hn : ls.settings.functionName ≠ contextKey) : s.keepsContext = true := by
  obtain ⟨l, hl, _⟩ := h.layer
  have found : s.entries.get? contextKey = some .context := by
    rw [he, Middleware.stateEntries, Table.get?_insert, if_neg (Ne.symm hn), Table.get?_insert,
      if_pos rfl]
  rw [Serving.keepsContext, hl, found]

/-- How a question is answered under the locale of the request. An answer is the right one. Without
a key it is empty, and nothing happens. Where the code finds the context and the locale cookie has
a legal name, there always is an answer, or the failure of rendering it. -/
structure Answers (ls : Locales) (locale : String) (s : Serving) (a : Action) (q : Question) :
    Prop where
  right : ∀ answer, (s.perform a).result = .ok answer →
    ∃ text, answer.text? = some text ∧ q.answer ls locale = .ok text
  keyless : ∀ args, q = .message none args →
    (s.perform a).state = s ∧ (s.perform a).result.map Answer.text? = .ok (some "")
  total : s.finds a = true → Http.Cookie.checkName ls.settings.cookieField = .ok () →
    (s.perform a).result.map Answer.text? =
      ((q.answer ls locale).map some).mapError (.call ∘ .format)

/-- A question is answered under the locale that is remembered after it. -/
theorem IsCoherent.answers {ls : Locales} {s : Serving} (h : s.IsCoherent ls) {a : Action}
    {q : Question} (hq : a.question? = some q) {locale : String}
    (hm : ∀ memo, (s.perform a).state.memo = some memo → memo = locale) :
    Answers ls locale s a q := by
  obtain ⟨hs, ⟨_, ctx⟩, hl, rfl, hctx⟩ := h
  have keyless : ∀ args, q = .message none args →
      (s.perform a).state = s ∧ (s.perform a).result.map Answer.text? = .ok (some "") := by
    rintro args rfl
    obtain ⟨state, result⟩ := perform_question hs hl hq (s.finds_of_keyless hq)
    refine ⟨state.trans ?_, result⟩
    show { s with layer := some ⟨_, ctx⟩ } = s
    rw [← hl]
  cases hf : s.finds a with
  | false =>
    obtain ⟨e, still⟩ := perform_of_lost hq hf
    refine ⟨fun answer ok => ?_, keyless, fun found => ?_⟩
    · rw [still] at ok
      cases ok
    · rw [hf] at found
      cases found
  | true =>
    obtain ⟨state, result⟩ := perform_question hs hl hq hf
    have asked := q.asked hctx
    generalize q.ask _ ctx = step at asked state result
    cases asked with
    | keyless hk =>
      subst hk
      refine ⟨fun answer ok => ?_, keyless, fun _ _ => result⟩
      rw [ok] at result
      injection result with text
      exact ⟨"", text, rfl⟩
    | refused illegal =>
      refine ⟨fun answer ok => ?_, keyless, fun _ legal => ?_⟩
      · rw [ok] at result
        cases result
      · rw [illegal] at legal
        cases legal
    | @answered after events remembered _ memo =>
      have here : remembered = locale := hm remembered (by rw [state]; exact memo)
      subst here
      refine ⟨fun answer ok => ?_, keyless, fun _ _ => ?_⟩
      · rw [ok] at result
        cases ha : q.answer _ remembered with
        | error e => rw [ha] at result; cases result
        | ok text =>
          rw [ha] at result
          injection result with shown
          exact ⟨text, shown, rfl⟩
      · rw [result]
        cases q.answer _ remembered <;> rfl

/-- **One bundle for each request.** -/
theorem one_bundle (outer : Ambient) (ls : Locales) {kind : String} (h : handles kind = true)
    (query path : String) (headers : Http.Headers) (entries : Table StateEntry)
    (installed : Bool) {actions : List Action} (ha : ∀ a ∈ actions, a.bringsMessages = false) :
    let first := start outer ls kind query path headers entries installed false
    ∃ locale, ∀ before a after q, actions = before ++ a :: after → a.question? = some q →
      Answers ls locale (first.run before).1 a q ∧
        (installed = true → ls.settings.functionName ≠ contextKey →
          (first.run before).1.finds a = true) := by
  intro first
  have coherent := isCoherent_start outer ls h query path headers entries installed
  refine ⟨((first.run actions).1.memo).getD "", ?_⟩
  rintro before a after q rfl hq
  have now := coherent.run fun b hb => ha b (List.mem_append_left _ hb)
  refine ⟨now.answers hq fun memo remembered => ?_, fun hi hn => ?_⟩
  · have last : (first.run (before ++ a :: after)).1.memo = some memo := by
      rw [run_append]
      exact memo_run remembered after
    rw [last, Option.getD_some]
  · obtain ⟨kept, told⟩ := first.entries_run before
    have begun : first.entries = Middleware.stateEntries ls entries ∧ first.installed = true := by
      simp only [first, start, h]
      exact ⟨rfl, hi⟩
    exact finds_of_keepsContext (told.trans begun.2) (now.keepsContext (kept.trans begun.1) hn) a

/-- Bundles for two languages, English being the default. -/
def bilingual : Locales :=
  ⟨.withAliases [], ⟨[], "en_US",
    .ofList [("en_us", .ofList [("hi", "Hello %s")]), ("fr", .ofList [("hi", "Salut %s")])]⟩⟩

/-- The response starts between two translations. -/
def askingActions : List Action :=
  [.act (.currentTranslate (some "hi") [.text "Ana"]), .send ⟨"http.response.start", none, []⟩,
    .act (.translate none [.int 1]), .call (some "hi") [.text "Ben"], .locale]

/-- A locale without a bundle stays the locale of the request, whose messages are English. -/
theorem one_bundle_unknown :
    handles "http" = true ∧ (∀ a ∈ askingActions, a.bringsMessages = false) ∧
    let first := start .empty bilingual "http" "locale=de" "/" [] {} true false
    (first.run askingActions).2.map (fun step => step.result.toOption.bind Answer.text?) =
        [some "Hello Ana", none, some "", some "Hello Ben", some "de"] ∧
      ∀ before a after q, askingActions = before ++ a :: after → a.question? = some q →
        Answers bilingual "de" (first.run before).1 a q := by
  have handled : handles "http" = true := by decide
  have own : ∀ a ∈ askingActions, a.bringsMessages = false := by
    simp [askingActions, Action.bringsMessages, Session.Action.bringsMessages]
  obtain ⟨locale, answers⟩ :=
    one_bundle .empty bilingual handled "locale=de" "/" [] {} true own
  obtain ⟨asked, finds⟩ := answers (askingActions.take 4) .locale [] .locale rfl rfl
  have shown := congrArg Except.toOption (asked.total (finds rfl (by decide)) rfl)
  have told : ((((start .empty bilingual "http" "locale=de" "/" [] {} true false).run
      (askingActions.take 4)).1.perform .locale).result.map Answer.text?).toOption =
        some (some "de") := by
    decide +kernel
  have german : locale = "de" := by
    rw [told] at shown
    cases shown
    rfl
  subst german
  exact ⟨handled, own, by decide +kernel, fun before a after q split hq =>
    (answers before a after q split hq).1⟩

end Serving

end RequestLocale
