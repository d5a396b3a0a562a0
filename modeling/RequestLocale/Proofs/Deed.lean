import RequestLocale.Middleware
import RequestLocale.Proofs.Resolution

/-! # What actions do to the context of a request

The code behind the middleware reaches the context of its request by many ways: the translator it is
given, the one in the state of the request, the one that is current, handlers, templates. All of
them come down to a few deeds. `Session.deed` and `Serving.deed` name the deed of each action, and
`Session.follows_perform` and `Serving.follows_perform` show that the action leaves the context that
the deed leaves, up to the messages attached to it. -/
namespace RequestLocale

/-- What an action does to the channel and to the remembered locale. -/
inductive Deed where
  | nothing
  | resolving
  | writing (w : Http.Cookie.Write)
  | remembering (locale : String)
  /-- Lets the waiting cookies go and starts the response. -/
  | starting
  /-- Changes a scripted channel. -/
  | scripting (f : Script → Script)

namespace Deed

/-- The context after a deed. -/
def apply (s : Settings) (ctx : Context) : Deed → Context
  | nothing => ctx
  | resolving => (ctx.resolve s).state
  | writing w => ctx.write w
  | remembering locale => ctx.remember locale
  | starting =>
    match ctx.channel with
    | .http e => { ctx with channel := .http e.start }
    | _ => ctx
  | scripting f =>
    match ctx.channel with
    | .scripted c => { ctx with channel := .scripted (f c) }
    | _ => ctx

/-- Whether a deed begins by resolving the locale. -/
def resolves : Deed → Bool
  | resolving => true
  | _ => false

/-- A deed never takes the channel away. -/
theorem isCapable_apply (s : Settings) (ctx : Context) (d : Deed) :
    (d.apply s ctx).channel.isCapable = ctx.channel.isCapable := by
  cases d with
  | nothing => rfl
  | resolving => exact ctx.isCapable_resolve s
  | writing w => exact ctx.isCapable_write w
  | remembering locale => rfl
  | starting =>
    obtain ⟨channel, state⟩ := ctx
    cases channel <;> rfl
  | scripting f =>
    obtain ⟨channel, state⟩ := ctx
    cases channel <;> rfl

/-- A remembered locale stays, whatever is done. -/
theorem locale_apply {ctx : Context} {memo : String} (h : ctx.state.locale = some memo)
    (s : Settings) (d : Deed) : (d.apply s ctx).state.locale = some memo := by
  cases d with
  | nothing => exact h
  | resolving => exact Context.locale_resolve h s
  | writing w => rw [apply, Context.state_write, h]
  | remembering locale => rw [apply, Context.remember, LocaleState.remember_of_locale h, h]
  | starting => simp only [apply]; split <;> exact h
  | scripting f => simp only [apply]; split <;> exact h

/-- Nothing comes to be remembered by a deed that neither resolves the locale nor remembers one. -/
theorem locale_apply_of_not_resolves {d : Deed} (hr : d.resolves = false)
    (hm : ∀ locale, d ≠ .remembering locale) (s : Settings) (ctx : Context) :
    (d.apply s ctx).state.locale = ctx.state.locale := by
  cases d with
  | nothing => rfl
  | resolving => cases hr
  | writing w => rw [apply, Context.state_write]
  | remembering locale => exact absurd rfl (hm locale)
  | starting => simp only [apply]; split <;> rfl
  | scripting f => simp only [apply]; split <;> rfl

/-- The request that an exchange came with stays, whatever is done. -/
theorem http_apply {ctx : Context} {e : Exchange} (h : ctx.channel = .http e) (s : Settings)
    (d : Deed) : ∃ after, (d.apply s ctx).channel = .http after ∧ after.query = e.query ∧
      after.headers = e.headers := by
  obtain ⟨channel, state⟩ := ctx
  cases h
  cases d with
  | nothing => exact ⟨e, rfl, rfl, rfl⟩
  | resolving =>
    rw [apply, Context.channel_resolve]
    cases (⟨.http e, state⟩ : Context).resolverCookie? s with
    | none => exact ⟨e, rfl, rfl, rfl⟩
    | some w => exact Context.write_http e state w
  | writing w => exact Context.write_http e state w
  | remembering locale => exact ⟨e, rfl, rfl, rfl⟩
  | starting => exact ⟨e.start, rfl, rfl, rfl⟩
  | scripting f => exact ⟨e, rfl, rfl, rfl⟩

/-- A response that has started stays so, unless a script is told otherwise. -/
theorem started_apply {ctx : Context} (h : ctx.channel.started = true) (s : Settings) {d : Deed}
    (hd : ∀ f c, d = .scripting f → ctx.channel = .scripted c → (f c).started = true) :
    (d.apply s ctx).channel.started = true := by
  obtain ⟨channel, state⟩ := ctx
  cases d with
  | nothing => exact h
  | resolving => exact (Context.started_resolve _ s).trans h
  | writing w => exact (Context.started_write _ w).trans h
  | remembering locale => exact h
  | starting => cases channel <;> first | exact h | rfl
  | scripting f =>
    cases channel with
    | scripted c => exact hd f c rfl rfl
    | _ => exact h

end Deed

/-- A layer that a deed has left: up to attached messages it has the context of the deed. -/
structure Layer.Follows (before : Layer) (d : Deed) (after : Layer) : Prop where
  settings : after.locales.settings = before.locales.settings
  channel : after.context.channel = (d.apply before.locales.settings before.context).channel
  locale : after.context.state.locale =
    (d.apply before.locales.settings before.context).state.locale

namespace Layer.Follows

theorem idle (l : Layer) : l.Follows .nothing l := ⟨rfl, rfl, rfl⟩

/-- Calls that begin by resolving the locale may attach messages afterwards. -/
theorem resolving {l after : Layer} (hl : after.locales = l.locales)
    (hc : after.context.channel = (l.context.resolve l.locales.settings).state.channel)
    (hm : after.context.state.locale =
      (l.context.resolve l.locales.settings).state.state.locale) :
    l.Follows .resolving after := ⟨by rw [hl], hc, hm⟩

end Layer.Follows

/-! ## Calls on a context -/

namespace Context

theorem attach_of_isCapable {ctx : Context} (h : ctx.channel.isCapable = true)
    (attached : Option Attached) : ∃ after, ctx.attach attached = .ok after := by
  obtain ⟨channel, state⟩ := ctx
  cases channel with
  | http e => exact ⟨_, rfl⟩
  | scripted c => exact ⟨_, rfl⟩
  | absent => cases h
  | stateOnly => cases h

theorem attach_eq {ctx after : Context} {attached : Option Attached}
    (h : ctx.attach attached = .ok after) :
    after.channel = ctx.channel ∧ after.state.locale = ctx.state.locale := by
  unfold attach at h
  split at h
  · cases h
  · cases h; exact ⟨rfl, rfl⟩

end Context

namespace Locales

theorem ensureAttached_eq {ls : Locales} {ctx after : Context} {locale : String}
    (h : ls.ensureAttached ctx locale = .ok after) :
    after.channel = ctx.channel ∧ after.state.locale = ctx.state.locale := by
  unfold ensureAttached at h
  split at h
  · cases h; exact ⟨rfl, rfl⟩
  · exact Context.attach_eq h

/-- A translation with a key resolves the locale; what it attaches is all it does beyond. -/
theorem translate_eq (ls : Locales) (ctx : Context) (key : String) (args : List Value) :
    (ls.translate ctx (some key) args).state.channel =
        (ctx.resolve ls.settings).state.channel ∧
      (ls.translate ctx (some key) args).state.state.locale =
        (ctx.resolve ls.settings).state.state.locale := by
  simp only [translate, getLocale, Step.bind]
  cases (ctx.resolve ls.settings).result with
  | error e => exact ⟨rfl, rfl⟩
  | ok locale =>
    cases ha : ls.ensureAttached (ctx.resolve ls.settings).state locale with
    | error e => simp only [ha]; exact ⟨rfl, rfl⟩
    | ok after => simp only [ha]; exact ensureAttached_eq ha

theorem attachBundle_eq (ls : Locales) (ctx : Context) :
    (ls.attachBundle ctx).state.channel = (ctx.resolve ls.settings).state.channel ∧
      (ls.attachBundle ctx).state.state.locale =
        (ctx.resolve ls.settings).state.state.locale := by
  simp only [attachBundle, getLocale, Step.bind]
  cases (ctx.resolve ls.settings).result with
  | error e => exact ⟨rfl, rfl⟩
  | ok locale =>
    cases ha : (ctx.resolve ls.settings).state.attach (some (ls.attachment locale)) with
    | error e => simp only [ha]; exact ⟨rfl, rfl⟩
    | ok after => simp only [ha]; exact Context.attach_eq ha

end Locales

/-! ## Actions of a session -/

namespace Session

/-- What an action does to the context of the session. Calls of code that is handed nothing reach
it only while its translator is current. -/
def deed (s : Session) : Action → Deed
  | .translate (some _) _ | .getLocale | .attachBundle => .resolving
  | .currentTranslate (some _) _ | .currentLocale => if s.isCurrent then .resolving else .nothing
  | .remember locale => .remembering locale
  | .setCookie w => .writing w
  | .applyCookies _ => .starting
  | .setParameter name (some value) => .scripting fun c =>
      { c with parameters := c.parameters.insert name value }
  | .setParameter name none => .scripting fun c =>
      { c with parameters := c.parameters.erase name }
  | .setStarted started => .scripting fun c => { c with started := started }
  | _ => .nothing

/-- The deeds that actions can have. -/
inductive HasDeed : Action → Deed → Prop
  | nothing {a : Action} : HasDeed a .nothing
  | resolving {a : Action} : HasDeed a .resolving
  | writing (w : Http.Cookie.Write) : HasDeed (.setCookie w) (.writing w)
  | remembering (locale : String) : HasDeed (.remember locale) (.remembering locale)
  | starting (headers : Http.Headers) : HasDeed (.applyCookies headers) .starting
  | scripting (name : String) (value : Option String) {f : Script → Script} :
      (∀ c, (f c).started = c.started) → HasDeed (.setParameter name value) (.scripting f)
  | flagging (started : Bool) :
      HasDeed (.setStarted started) (.scripting fun c => { c with started := started })

theorem hasDeed (s : Session) (a : Action) : HasDeed a (s.deed a) := by
  cases a with
  | translate key args =>
    cases key with
    | none => exact .nothing
    | some key => exact .resolving
  | getLocale => exact .resolving
  | attachBundle => exact .resolving
  | remember locale => exact .remembering locale
  | setCookie w => exact .writing w
  | applyCookies headers => exact .starting headers
  | currentTranslate key args =>
    cases key with
    | none => exact .nothing
    | some key =>
      simp only [deed]
      split
      · exact .resolving
      · exact .nothing
  | currentLocale =>
    simp only [deed]
    split
    · exact .resolving
    · exact .nothing
  | setParameter name value => cases value <;> exact .scripting name _ fun _ => rfl
  | setStarted started => exact .flagging started
  | _ => exact .nothing

/-- Only setting a cookie is setting a cookie. -/
theorem eq_of_deed_eq_writing {s : Session} {a : Action} {w : Http.Cookie.Write}
    (h : s.deed a = .writing w) : a = .setCookie w := by
  have hd := s.hasDeed a
  rw [h] at hd
  cases hd
  rfl

/-- The session after a deed: its layer follows, and it stays current if it was. -/
structure Follows (s : Session) (d : Deed) (after : Session) : Prop where
  layer : s.layer.Follows d after.layer
  isCurrent : after.isCurrent = s.isCurrent

namespace Follows

theorem idle {s after : Session} (hl : after.layer = s.layer)
    (hc : after.isCurrent = s.isCurrent) : s.Follows .nothing after :=
  ⟨hl ▸ Layer.Follows.idle s.layer, hc⟩

end Follows

theorem follows_parameter (s : Session) (name : String) :
    s.Follows .nothing (s.parameter name).state := by
  unfold parameter
  split <;> exact .idle rfl rfl

theorem follows_cookie (s : Session) (name : String) :
    s.Follows .nothing (s.cookie name).state := by
  unfold cookie
  split <;> exact .idle rfl rfl

theorem follows_languages (s : Session) : s.Follows .nothing s.languages.state := by
  unfold languages
  split <;> exact .idle rfl rfl

theorem follows_locale (s : Session) : s.Follows .nothing s.locale.state := by
  unfold locale
  split <;> exact .idle rfl rfl

theorem follows_setCookie (s : Session) (w : Http.Cookie.Write) :
    s.Follows (.writing w) (s.change (s.layer.context.setCookie w)).state := by
  unfold change
  cases h : s.layer.context.setCookie w with
  | ok after => exact ⟨⟨rfl, by rw [Deed.apply, Context.write_of_ok h]; rfl,
      by rw [Deed.apply, Context.write_of_ok h]; rfl⟩, rfl⟩
  | error e => exact ⟨⟨rfl, by rw [Deed.apply, Context.write_of_error h],
      by rw [Deed.apply, Context.write_of_error h]⟩, rfl⟩

theorem follows_attach (s : Session) (attached : Option Attached) :
    s.Follows .nothing (s.change (s.layer.context.attach attached)).state := by
  unfold change
  cases h : s.layer.context.attach attached with
  | ok after =>
    obtain ⟨hc, hl⟩ := Context.attach_eq h
    exact ⟨⟨rfl, hc, hl⟩, rfl⟩
  | error e => exact .idle rfl rfl

theorem follows_applyCookies (s : Session) (headers : Http.Headers) :
    s.Follows .starting (s.applyCookies headers).state := by
  obtain ⟨⟨ls, ⟨channel, state⟩⟩, isCurrent, outer⟩ := s
  cases channel <;> exact ⟨⟨rfl, rfl, rfl⟩, rfl⟩

theorem follows_script (s : Session) (f : Script → Script) :
    s.Follows (.scripting f) (s.script f).state := by
  obtain ⟨⟨ls, ⟨channel, state⟩⟩, isCurrent, outer⟩ := s
  cases channel <;> exact ⟨⟨rfl, rfl, rfl⟩, rfl⟩

/-- A call of code that is handed nothing acts on the layer of the session while that is current,
and otherwise leaves it alone. -/
theorem follows_onAmbient {α : Type} {s : Session} {run : Ambient → Step Ambient Failure α}
    {call : Locales → Context → Step Context CallError α} (answer : α → Answer)
    (hrun : ∀ a l, (run (.bind a l)).state = a.bind (l.run call).state)
    (hcall : s.layer.Follows .resolving (s.layer.run call).state) :
    s.Follows (if s.isCurrent then .resolving else .nothing) (s.onAmbient run answer).state := by
  obtain ⟨layer, isCurrent, outer⟩ := s
  cases isCurrent with
  | false => exact .idle rfl rfl
  | true =>
    simp only [onAmbient, ambient, if_true, hrun]
    exact ⟨hcall, rfl⟩

theorem follows_translate (l : Layer) (key : String) (args : List Value) :
    l.Follows .resolving (l.run fun ls ctx => ls.translate ctx (some key) args).state := by
  obtain ⟨hc, hl⟩ := l.locales.translate_eq l.context key args
  exact .resolving rfl hc hl

theorem follows_perform (s : Session) (a : Action) : s.Follows (s.deed a) (s.perform a).state := by
  cases a with
  | translate key args =>
    cases key with
    | none => exact .idle rfl rfl
    | some key => exact ⟨follows_translate s.layer key args, rfl⟩
  | getLocale => exact ⟨⟨rfl, rfl, rfl⟩, rfl⟩
  | functionName => exact .idle rfl rfl
  | attach messages => exact s.follows_attach _
  | attachBundle =>
    obtain ⟨hc, hl⟩ := s.layer.locales.attachBundle_eq s.layer.context
    exact ⟨.resolving rfl hc hl, rfl⟩
  | remember locale => exact ⟨⟨rfl, rfl, rfl⟩, rfl⟩
  | parameter name => exact s.follows_parameter name
  | cookie name => exact s.follows_cookie name
  | setCookie w => exact s.follows_setCookie w
  | languages => exact s.follows_languages
  | hasCapabilities => exact .idle rfl rfl
  | locale => exact s.follows_locale
  | applyCookies headers => exact s.follows_applyCookies headers
  | addBundle locale entries => exact ⟨⟨rfl, rfl, rfl⟩, rfl⟩
  | currentTranslate key args =>
    cases key with
    | none =>
      have h : (s.perform (.currentTranslate none args)).state = s := s.withAmbient_ambient
      rw [h]
      exact .idle rfl rfl
    | some key =>
      exact follows_onAmbient .text (fun _ _ => rfl) (follows_translate s.layer key args)
  | currentLocale => exact follows_onAmbient .text (fun _ _ => rfl) ⟨rfl, rfl, rfl⟩
  | isBound => exact .idle rfl rfl
  | addLocale fields => exact .idle rfl rfl
  | setParameter name value =>
    cases value with
    | none => exact s.follows_script _
    | some value => exact s.follows_script _
  | setStarted started => exact s.follows_script _

end Session

/-! ## Actions behind the middleware -/

namespace Serving

/-- The action of the session that an action comes down to. Where code does not find the context
in its place, few actions reach it. -/
def reached? (s : Serving) (a : Session.Action) : Option Session.Action :=
  if s.keepsContext then some a
  else match a.needs, a, s.layer with
    | some _, .locale, some _ => some .getLocale
    | some _, _, _ | none, .hasCapabilities, _ => none
    | none, _, _ => some a

/-- What an action does to the context of the request. -/
def deed (s : Serving) : Action → Deed
  | .act a => (s.reached? a).elim .nothing s.session.deed
  | .call key args => s.session.deed (.translate key args)
  | .send f => if f.isStart then .starting else .nothing
  | .locale | .templateEntries => if s.installed && s.keepsContext then .resolving else .nothing
  | .entryNames | .hasLocales | .hasContext => .nothing

theorem reached?_eq_some {s : Serving} {a b : Session.Action} (h : s.reached? a = some b) :
    b = a ∨ b = .getLocale := by
  unfold reached? at h
  split at h
  · cases h; exact .inl rfl
  · split at h
    · cases h; exact .inr rfl
    · cases h
    · cases h
    · cases h; exact .inl rfl

theorem eq_of_deed_eq_writing {s : Serving} {a : Action} {w : Http.Cookie.Write}
    (h : s.deed a = .writing w) : a = .act (.setCookie w) := by
  cases a with
  | act a =>
    simp only [deed] at h
    cases hr : s.reached? a with
    | none => rw [hr] at h; cases h
    | some b =>
      rw [hr] at h
      have hb := Session.eq_of_deed_eq_writing h
      subst hb
      rcases reached?_eq_some hr with he | he
      · rw [he]
      · cases he
  | call key args => cases Session.eq_of_deed_eq_writing h
  | send f => simp only [deed] at h; split at h <;> cases h
  | entryNames => cases h
  | hasLocales => cases h
  | hasContext => cases h
  | locale => simp only [deed] at h; split at h <;> cases h
  | templateEntries => simp only [deed] at h; split at h <;> cases h

/-- The request after a deed: it still has a layer, which follows, and the same state entries. -/
structure Follows (s : Serving) (d : Deed) (after : Serving) : Prop where
  layer : ∀ l, s.layer = some l → ∃ next, after.layer = some next ∧ l.Follows d next
  entries : after.entries = s.entries
  installed : after.installed = s.installed

theorem Follows.idle (s : Serving) : s.Follows .nothing s :=
  ⟨fun l hl => ⟨l, hl, .idle l⟩, rfl, rfl⟩

theorem Follows.of_none {s after : Serving} {d : Deed} (hl : s.layer = none)
    (he : after.entries = s.entries) (hi : after.installed = s.installed) : s.Follows d after :=
  ⟨fun l h => (by rw [hl] at h; cases h), he, hi⟩

theorem follows_within (s : Serving) (a : Session.Action) :
    s.Follows (s.session.deed a) (s.within a).state := by
  refine ⟨fun l hl => ⟨(s.session.perform a).state.layer, ?_, ?_⟩, rfl, rfl⟩
  · simp [within, withSession, hl]
  · have h := (s.session.follows_perform a).layer
    have hs : s.session.layer = l := by simp [session, hl]
    rwa [hs] at h

theorem state_act (s : Serving) (a : Session.Action) :
    (s.act a).state = (s.reached? a).elim s fun b => (s.within b).state := by
  unfold reached? act
  split
  · rfl
  · cases s.layer <;> cases a.needs <;> cases a <;> rfl

theorem follows_act (s : Serving) (a : Session.Action) :
    s.Follows ((s.reached? a).elim .nothing s.session.deed) (s.act a).state := by
  rw [state_act]
  cases s.reached? a with
  | none => exact .idle s
  | some b => exact s.follows_within b

/-- A frame that starts a response starts it for the context too; any other leaves it alone. -/
theorem follows_deliver (l : Layer) (path : String) (f : Frame) :
    l.Follows (if f.isStart then .starting else .nothing)
      { l with context := (Middleware.deliver l.context path f).1 } := by
  obtain ⟨ls, ⟨channel, state⟩⟩ := l
  cases hf : f.isStart with
  | false => cases channel <;> simp [Middleware.deliver, hf] <;> exact .idle _
  | true => cases channel <;> simp [Middleware.deliver, hf] <;> exact ⟨rfl, rfl, rfl⟩

theorem follows_send (s : Serving) (f : Frame) :
    s.Follows (if f.isStart then .starting else .nothing) (s.send f).1 := by
  obtain ⟨locales, layer, outer, entries, installed, path, sent⟩ := s
  cases layer with
  | none => exact .of_none rfl rfl rfl
  | some l => exact ⟨fun _ hl => by cases hl; exact ⟨_, rfl, follows_deliver l path f⟩, rfl, rfl⟩

theorem keepsContext_iff {s : Serving} :
    s.keepsContext = true ↔ s.layer.isSome = true ∧ s.context? = .ok .context := by
  unfold keepsContext context?
  cases s.layer with
  | none => simp
  | some l =>
    cases s.entries.get? Middleware.contextKey with
    | none => simp
    | some entry =>
      cases entry with
      | context => simp
      | translator => simp
      | other value => cases value <;> simp

theorem locale_of_barred {s : Serving} (h : (s.installed && s.keepsContext) = false) :
    ∃ e, s.locale = .still s (.error e) := by
  unfold locale
  cases hi : s.installed with
  | false => exact ⟨_, rfl⟩
  | true =>
    rw [hi, Bool.true_and] at h
    cases hl : s.layer with
    | none =>
      cases s.context? with
      | error e => exact ⟨_, rfl⟩
      | ok entry => cases entry <;> exact ⟨_, rfl⟩
    | some l =>
      cases hc : s.context? with
      | error e => exact ⟨_, rfl⟩
      | ok entry =>
        cases entry with
        | context => rw [keepsContext_iff.mpr ⟨by rw [hl]; rfl, hc⟩] at h; cases h
        | translator => exact ⟨_, rfl⟩
        | other value => exact ⟨_, rfl⟩

theorem locale_of_open {s : Serving} (h : (s.installed && s.keepsContext) = true) :
    ∃ l, s.layer = some l ∧
      s.locale = ⟨{ s with layer := some (l.run Locales.getLocale).state },
        (l.run Locales.getLocale).events, (l.run Locales.getLocale).result.mapError .call⟩ := by
  obtain ⟨hi, hk⟩ := Bool.and_eq_true_iff.mp h
  obtain ⟨hl, hc⟩ := keepsContext_iff.mp hk
  obtain ⟨l, hl⟩ := Option.isSome_iff_exists.mp hl
  exact ⟨l, hl, by simp [locale, hi, hc, hl]⟩

/-- A handler gets the locale through the context that it finds, and does nothing without one. -/
theorem follows_locale (s : Serving) :
    s.Follows (if s.installed && s.keepsContext then .resolving else .nothing) s.locale.state := by
  cases h : s.installed && s.keepsContext with
  | false =>
    obtain ⟨e, hs⟩ := locale_of_barred h
    rw [hs]
    exact .idle s
  | true =>
    obtain ⟨l, hl, hs⟩ := locale_of_open h
    rw [hs]
    exact ⟨fun l' h => by rw [hl] at h; cases h; exact ⟨_, rfl, rfl, rfl, rfl⟩, rfl, rfl⟩

theorem follows_call (s : Serving) (key : Option String) (args : List Value) :
    s.Follows (s.session.deed (.translate key args)) (s.call key args).state := by
  unfold call
  split
  · exact s.follows_within (.translate key args)
  · rename_i hl
    have h := s.follows_act (.translate key args)
    exact .of_none hl h.entries h.installed

/-- Every action leaves what its deed leaves. -/
theorem follows_perform (s : Serving) (a : Action) : s.Follows (s.deed a) (s.perform a).state := by
  cases a with
  | act a => exact s.follows_act a
  | call key args => exact s.follows_call key args
  | send f => exact s.follows_send f
  | entryNames => exact .idle s
  | hasLocales => exact .idle s
  | hasContext => exact .idle s
  | locale => exact s.follows_locale
  | templateEntries => exact s.follows_locale

/-! ## What is sent -/

theorem sent_act (s : Serving) (a : Session.Action) : (s.act a).state.sent = s.sent := by
  rw [state_act]
  cases s.reached? a <;> rfl

theorem sent_locale (s : Serving) : s.locale.state.sent = s.sent := by
  cases h : s.installed && s.keepsContext with
  | false =>
    obtain ⟨e, hs⟩ := locale_of_barred h
    rw [hs]
    rfl
  | true =>
    obtain ⟨l, _, hs⟩ := locale_of_open h
    rw [hs]

/-- Sending is the only action that lets anything reach the server. -/
theorem sent_perform {s : Serving} {a : Action} (h : ∀ f, a ≠ .send f) :
    (s.perform a).state.sent = s.sent := by
  cases a with
  | act a => exact s.sent_act a
  | call key args =>
    simp only [perform, call, Step.map]
    cases s.layer with
    | none => exact s.sent_act _
    | some l => rfl
  | send f => exact absurd rfl (h f)
  | entryNames => rfl
  | hasLocales => rfl
  | hasContext => rfl
  | locale => exact s.sent_locale
  | templateEntries => exact s.sent_locale

end Serving

end RequestLocale
