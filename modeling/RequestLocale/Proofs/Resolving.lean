import RequestLocale.Proofs.OneBundle

/-! # Actions that resolve the locale

The code of a request resolves its locale by many ways: translations with a key, questions for the
locale, handlers, templates. Each of them is a call on the context that begins with the resolution
(`Serving.perform_resolving`), and the resolution sets its cookie before it remembers anything. So
if a cookie is refused, by whatever way, the request is as it was (`Serving.state_of_refused`). -/
namespace RequestLocale

open Http (Headers)
open Http.Cookie (Write)

/-! ## Calls that begin with a resolution -/

/-- Changing the answers of a step changes no failure. -/
theorem Step.failed_of_map {σ ε α β : Type} {step : Step σ ε α} {f : α → β} {e : ε}
    (h : (step.map f).result = .error e) : step.result = .error e := by
  obtain ⟨state, events, result⟩ := step
  cases result with
  | error e' => cases h; rfl
  | ok a => cases h

/-- A failure of a call is passed on as what it is. -/
theorem Failure.eq_call {α : Type} {r : Except CallError α} {e : Failure}
    (h : r.mapError .call = .error e) : ∃ cause, r = .error cause ∧ e = .call cause := by
  cases r with
  | error cause => cases h; exact ⟨cause, rfl, rfl⟩
  | ok a => cases h

theorem Deed.of_if_resolving {b : Bool}
    (h : (if b then Deed.resolving else .nothing) = .resolving) : b = true := by
  cases b with
  | true => rfl
  | false => cases h

/-- A call that begins by resolving the locale. It fails with the resolution, and then does nothing;
after the resolution nothing but a message can fail. -/
structure Locales.Resolving {α : Type} (ls : Locales) (ctx : Context)
    (step : Step Context CallError α) : Prop where
  refused : ∀ e, (ctx.resolve ls.settings).result = .error e →
    step.state = ctx ∧ step.result = .error e
  settled : ∀ locale, (ctx.resolve ls.settings).result = .ok locale →
    ∀ e, step.result = .error e → ∃ fault, e = .format fault

namespace Locales.Resolving

variable {α β : Type} {ls : Locales} {ctx : Context}

theorem map {step : Step Context CallError α} (h : ls.Resolving ctx step) (f : α → β) :
    ls.Resolving ctx (step.map f) := by
  refine ⟨fun e failed => ?_, fun locale found e failed =>
    h.settled locale found e (Step.failed_of_map failed)⟩
  obtain ⟨same, result⟩ := h.refused e failed
  exact ⟨same, by rw [Step.map, result]; rfl⟩

theorem bind (h : ctx.channel.isCapable = true)
    {next : Context → String → Step Context CallError α}
    (hn : ∀ after locale e, after.channel.isCapable = true →
      (next after locale).result = .error e → ∃ fault, e = .format fault) :
    ls.Resolving ctx ((ls.getLocale ctx).bind next) := by
  have capable : (ctx.resolve ls.settings).state.channel.isCapable = true :=
    (ctx.isCapable_resolve ls.settings).trans h
  refine ⟨fun e failed => ?_, fun locale found e failed => ?_⟩
  · simp only [Step.bind, getLocale, failed, and_true]
    exact (Context.refused_of_resolve h failed).1
  · simp only [Step.bind, getLocale, found] at failed
    exact hn _ _ _ capable failed

theorem getLocale (h : ctx.channel.isCapable = true) : ls.Resolving ctx (ls.getLocale ctx) :=
  ⟨fun _ failed => ⟨(Context.refused_of_resolve h failed).1, failed⟩,
    fun _ found _ failed => by cases found.symm.trans failed⟩

theorem attachBundle (h : ctx.channel.isCapable = true) :
    ls.Resolving ctx (ls.attachBundle ctx) := by
  refine bind h fun after locale e capable failed => ?_
  obtain ⟨last, attached⟩ := Context.attach_of_isCapable capable (some (ls.attachment locale))
  simp only [attached] at failed
  cases failed

theorem translate (h : ctx.channel.isCapable = true) (key : String) (args : List Value) :
    ls.Resolving ctx (ls.translate ctx (some key) args) := by
  simp only [Locales.translate]
  refine bind h fun after locale e capable failed => ?_
  have attached : ∃ last, ls.ensureAttached after locale = .ok last := by
    unfold ensureAttached
    split
    · exact ⟨after, rfl⟩
    · exact Context.attach_of_isCapable capable _
  obtain ⟨last, attached⟩ := attached
  simp only [attached] at failed
  cases rendered : Message.render (last.state.attached.map ls.messages) key args with
  | ok text => rw [rendered] at failed; cases failed
  | error fault => rw [rendered] at failed; cases failed; exact ⟨fault, rfl⟩

/-- A refused cookie is the failure of the resolution. -/
theorem state_of_refused {step : Step Context CallError α} (h : ls.Resolving ctx step)
    {refusal : Http.Cookie.Error} (failed : step.result = .error (.cookie refusal)) :
    step.state = ctx := by
  cases hr : (ctx.resolve ls.settings).result with
  | error e => exact (h.refused e hr).1
  | ok locale =>
    obtain ⟨fault, other⟩ := h.settled locale hr _ failed
    cases other

end Locales.Resolving

/-! ## Actions of a session -/

namespace Session

/-- Every action that resolves the locale does so by a call on the context. -/
theorem perform_resolving {s : Session} (hc : s.isCurrent = true)
    (capable : s.layer.context.channel.isCapable = true) {a : Action} (h : s.deed a = .resolving) :
    ∃ step : Step Context CallError Answer, s.layer.locales.Resolving s.layer.context step ∧
      (s.perform a).state = s.withContext step.state ∧
      (s.perform a).result = step.result.mapError .call := by
  cases a with
  | translate key args =>
    cases key with
    | none => cases h
    | some key => exact ⟨_, (Locales.Resolving.translate capable key args).map .text, rfl, rfl⟩
  | getLocale => exact ⟨_, (Locales.Resolving.getLocale capable).map .text, rfl, rfl⟩
  | attachBundle =>
    exact ⟨_, (Locales.Resolving.attachBundle capable).map fun _ => .nothing, rfl, rfl⟩
  | currentTranslate key args =>
    cases key with
    | none => cases h
    | some key =>
      obtain ⟨state, result⟩ := perform_question hc (a := .currentTranslate (some key) args) rfl
      exact ⟨_, (Locales.Resolving.translate capable key args).map Answer.text, state, result⟩
  | currentLocale =>
    obtain ⟨state, result⟩ := perform_question hc (a := .currentLocale) rfl
    exact ⟨_, (Locales.Resolving.getLocale capable).map Answer.text, state, result⟩
  | setParameter name value => cases value <;> cases h
  | _ => cases h

/-- Only resolutions and cookies of the application are refused. -/
theorem deed_of_refused {s : Session} (hc : s.isCurrent = true) {a : Action}
    {refusal : Http.Cookie.Error} (h : (s.perform a).result = .error (.call (.cookie refusal))) :
    s.deed a = .resolving ∨ ∃ w, a = .setCookie w := by
  obtain ⟨⟨ls, ⟨channel, state⟩⟩, isCurrent, outer⟩ := s
  cases hc
  cases a with
  | translate key args =>
    cases key with
    | none => cases h
    | some key => exact .inl rfl
  | currentTranslate key args =>
    cases key with
    | none => cases h
    | some key => exact .inl rfl
  | getLocale | attachBundle | currentLocale => exact .inl rfl
  | setCookie w => exact .inr ⟨w, rfl⟩
  | addBundle locale entries =>
    simp only [perform, addBundle] at h
    cases hr : (ls.loader.addBundle locale entries).2 <;> rw [hr] at h <;> cases h
  | setParameter name value => cases value <;> cases channel <;> cases h
  | attach | parameter | cookie | languages | locale | applyCookies | setStarted =>
    cases channel <;> cases h
  | _ => cases h

theorem state_of_refused_setCookie {s : Session} {w : Write} {e : Failure}
    (h : (s.perform (.setCookie w)).result = .error e) : (s.perform (.setCookie w)).state = s := by
  simp only [perform, change] at h ⊢
  cases hw : s.layer.context.setCookie w with
  | ok after => rw [hw] at h; cases h
  | error failure => rfl

/-- What an action does to the context depends on whether the session is current, and on nothing
else. -/
theorem deed_congr {s t : Session} (h : t.isCurrent = s.isCurrent) (a : Action) :
    t.deed a = s.deed a := by
  cases a with
  | translate key | currentTranslate key => cases key <;> simp only [deed, h]
  | setParameter name value => cases value <;> rfl
  | currentLocale => simp only [deed, h]
  | _ => rfl

end Session

namespace Serving

/-! ## The layer of a request -/

/-- The `Locales` of a request are those of its layer, bundles that were added included. -/
def OwnsLayer (s : Serving) : Prop := ∀ l, s.layer = some l → l.locales = s.locales

theorem ownsLayer_start (outer : Ambient) (ls : Locales) (kind query path : String)
    (headers : Headers) (entries : Table StateEntry) (installed bypass : Bool) :
    (start outer ls kind query path headers entries installed bypass).OwnsLayer := by
  unfold start
  split
  · rintro l ⟨⟩
    rfl
  · rintro l ⟨⟩

theorem OwnsLayer.within {s : Serving} (a : Session.Action) : (s.within a).state.OwnsLayer := by
  intro l hl
  obtain ⟨_, _, rfl⟩ := Option.map_eq_some_iff.mp hl
  rfl

namespace OwnsLayer

variable {s : Serving}

theorem act (h : s.OwnsLayer) (a : Session.Action) : (s.act a).state.OwnsLayer := by
  rw [state_act]
  cases s.reached? a with
  | none => exact h
  | some b => exact .within b

theorem locale (h : s.OwnsLayer) : s.locale.state.OwnsLayer := by
  cases found : s.installed && s.keepsContext with
  | false =>
    obtain ⟨e, still⟩ := locale_of_barred found
    rw [still]
    exact h
  | true =>
    obtain ⟨l, hl, after⟩ := locale_of_open found
    rw [after]
    rintro _ ⟨⟩
    exact h l hl

theorem send (h : s.OwnsLayer) (f : Frame) : (s.send f).1.OwnsLayer := by
  unfold Serving.send
  split
  · rename_i none
    intro l hl
    exact h l hl
  · rename_i layer hl
    rintro _ ⟨⟩
    exact h layer hl

theorem perform (h : s.OwnsLayer) (a : Action) : (s.perform a).state.OwnsLayer := by
  cases a with
  | act a => exact h.act a
  | call key args =>
    show (s.call key args).state.OwnsLayer
    unfold call
    split
    · exact .within _
    · exact h.act _
  | send f => exact h.send f
  | entryNames | hasLocales | hasContext => exact h
  | locale | templateEntries => exact h.locale

theorem run (h : s.OwnsLayer) (actions : List Action) : (s.run actions).1.OwnsLayer := by
  induction actions generalizing s with
  | nil => exact h
  | cons a actions ih => exact ih (h.perform a)

theorem withSession_session (h : s.OwnsLayer) : s.withSession s.session = s := by
  obtain ⟨locales, layer, outer, entries, installed, path, sent⟩ := s
  cases layer with
  | none => rfl
  | some l =>
    have own : l.locales = locales := h l rfl
    subst own
    rfl

end OwnsLayer

/-! ## Refused actions -/

/-- An action reaches the session, or does nothing, and then it is not for a cookie if it fails. -/
theorem act_cases (s : Serving) (a : Session.Action) :
    (∃ b, s.reached? a = some b ∧ s.act a = s.within b) ∨
      s.reached? a = none ∧ ∃ r, s.act a = .still s r ∧
        ∀ refusal, r ≠ .error (.call (.cookie refusal)) := by
  unfold reached? act
  split
  · exact .inl ⟨a, rfl, rfl⟩
  · cases s.layer <;> cases a.needs <;> cases a <;>
      first
      | exact .inl ⟨_, rfl, rfl⟩
      | exact .inr ⟨rfl, _, rfl, fun _ h => by cases h⟩

theorem open_of_refused {s : Serving} {refusal : Http.Cookie.Error}
    (h : s.locale.result = .error (.call (.cookie refusal))) :
    (s.installed && s.keepsContext) = true := by
  unfold locale at h
  cases hi : s.installed with
  | false => rw [hi] at h; cases h
  | true =>
    rw [hi] at h
    cases hc : s.context? with
    | error e => rw [hc] at h; cases h
    | ok entry =>
      cases hl : s.layer with
      | none => rw [hc, hl] at h; cases entry <;> cases h
      | some l =>
        rw [hc, hl] at h
        cases entry with
        | context => exact keepsContext_iff.mpr ⟨by rw [hl]; rfl, hc⟩
        | translator => cases h
        | other value => cases h

section

variable {s : Serving} {ctx : Context} {refusal : Http.Cookie.Error}

theorem session_eq (hl : s.layer = some ⟨s.locales, ctx⟩) :
    s.session = ⟨⟨s.locales, ctx⟩, true, s.outer⟩ := by rw [session, hl]

theorem within_resolving (hl : s.layer = some ⟨s.locales, ctx⟩)
    (capable : ctx.channel.isCapable = true) {a : Session.Action}
    (h : s.session.deed a = .resolving) :
    ∃ step : Step Context CallError Answer, s.locales.Resolving ctx step ∧
      (s.within a).state = { s with layer := some ⟨s.locales, step.state⟩ } ∧
      ((s.within a).map Answer.session).result = step.result.mapError .call := by
  have hs := s.session_eq hl
  obtain ⟨step, resolving, state, result⟩ :=
    Session.perform_resolving (by rw [hs]) (by rw [hs]; exact capable) h
  rw [hs] at resolving state result
  refine ⟨step.map Answer.session, resolving.map Answer.session, ?_, ?_⟩
  · simp only [within, hs, state, withSession, Session.withContext, hl, Option.map_some]
    rfl
  · simp only [within, Step.map, hs, result]
    cases step.result <;> rfl

theorem locale_resolving (hl : s.layer = some ⟨s.locales, ctx⟩)
    (capable : ctx.channel.isCapable = true) (answer : String → Answer)
    (h : (if s.installed && s.keepsContext then Deed.resolving else .nothing) = .resolving) :
    ∃ step : Step Context CallError Answer, s.locales.Resolving ctx step ∧
      s.locale.state = { s with layer := some ⟨s.locales, step.state⟩ } ∧
      (s.locale.map answer).result = step.result.mapError .call := by
  obtain ⟨l, hl', after⟩ := locale_of_open (Deed.of_if_resolving h)
  cases hl.symm.trans hl'
  refine ⟨_, (Locales.Resolving.getLocale capable).map answer, by rw [after]; rfl, ?_⟩
  rw [after]
  show ((s.locales.getLocale ctx).result.mapError Failure.call).map answer =
    ((s.locales.getLocale ctx).result.map answer).mapError Failure.call
  cases (s.locales.getLocale ctx).result <;> rfl

/-- Every action that resolves the locale does so by a call on the context, and changes nothing
but the context. -/
theorem perform_resolving (hl : s.layer = some ⟨s.locales, ctx⟩)
    (capable : ctx.channel.isCapable = true) {a : Action} (h : s.deed a = .resolving) :
    ∃ step : Step Context CallError Answer, s.locales.Resolving ctx step ∧
      (s.perform a).state = { s with layer := some ⟨s.locales, step.state⟩ } ∧
      (s.perform a).result = step.result.mapError .call := by
  cases a with
  | act a =>
    rcases s.act_cases a with ⟨b, reached, same⟩ | ⟨lost, _⟩
    · rw [deed, reached] at h
      rw [perform, same]
      exact within_resolving hl capable h
    · rw [deed, lost] at h
      cases h
  | call key args =>
    have same : s.call key args = s.within (.translate key args) := by rw [call, hl]
    rw [perform, same]
    exact within_resolving hl capable h
  | send f =>
    simp only [deed] at h
    split at h <;> cases h
  | locale => exact locale_resolving hl capable .text h
  | templateEntries =>
    obtain ⟨step, resolving, state, result⟩ := locale_resolving hl capable
      (fun locale => .entries ((Table.insert {} s.locales.settings.functionName .translator).insert
        "locale" (.other (.text locale)))) h
    refine ⟨step, resolving, state, ?_⟩
    rw [← result]
    simp only [perform, templateEntries, Step.map]
    cases s.locale.result <;> rfl
  | entryNames | hasLocales | hasContext => cases h

/-- Only resolutions and cookies of the application are refused. -/
theorem deed_of_refused (hl : s.layer = some ⟨s.locales, ctx⟩) {a : Action}
    (h : (s.perform a).result = .error (.call (.cookie refusal))) :
    s.deed a = .resolving ∨ ∃ w, a = .act (.setCookie w) := by
  have current : s.session.isCurrent = true := by rw [s.session_eq hl]
  cases a with
  | act a =>
    have failed := Step.failed_of_map h
    rcases s.act_cases a with ⟨b, reached, same⟩ | ⟨_, r, still, other⟩
    · rw [same] at failed
      rcases Session.deed_of_refused current failed with resolving | ⟨w, rfl⟩
      · left
        rw [deed, reached]
        exact resolving
      · right
        rcases reached?_eq_some reached with rfl | impossible
        · exact ⟨w, rfl⟩
        · cases impossible
    · rw [still] at failed
      exact absurd failed (other refusal)
  | call key args =>
    have same : s.call key args = s.within (.translate key args) := by rw [call, hl]
    have failed := Step.failed_of_map h
    rw [same] at failed
    rcases Session.deed_of_refused current failed with resolving | ⟨w, impossible⟩
    · exact .inl resolving
    · cases impossible
  | locale => exact .inl (if_pos (open_of_refused (Step.failed_of_map h)))
  | templateEntries =>
    exact .inl (if_pos (open_of_refused (Step.failed_of_map (Step.failed_of_map h))))
  | hasLocales =>
    simp only [perform, Step.still] at h
    split at h <;> cases h
  | hasContext =>
    simp only [perform, Step.still] at h
    cases hc : s.context? <;> rw [hc] at h <;> cases h
  | send | entryNames => cases h

/-- **A refused cookie changes nothing.** Whatever action it was that failed, the request is as it
was before. -/
theorem state_of_refused (own : s.OwnsLayer) (hl : s.layer = some ⟨s.locales, ctx⟩)
    (capable : ctx.channel.isCapable = true) {a : Action}
    (h : (s.perform a).result = .error (.call (.cookie refusal))) : (s.perform a).state = s := by
  by_cases resolving : s.deed a = .resolving
  · obtain ⟨step, course, state, result⟩ := perform_resolving hl capable resolving
    obtain ⟨_, failed, cause⟩ := Failure.eq_call (result.symm.trans h)
    cases cause
    rw [state, course.state_of_refused failed, ← hl]
  · obtain ⟨w, rfl⟩ := (deed_of_refused hl h).resolve_left resolving
    have failed := Step.failed_of_map h
    show (s.act (.setCookie w)).state = s
    rcases s.act_cases (.setCookie w) with ⟨b, reached, same⟩ | ⟨_, r, still, _⟩
    · rw [same] at failed ⊢
      rcases reached?_eq_some reached with rfl | rfl
      · rw [within, Session.state_of_refused_setCookie failed, own.withSession_session]
      · exact absurd (by rw [deed, reached]; rfl) resolving
    · rw [still]
      rfl

end

/-! ## Actions in a run -/

/-- What resolves the locale finds the context. -/
theorem finds_of_resolving {s : Serving} {a : Action} (h : s.deed a = .resolving) :
    s.finds a = true := by
  cases a with
  | act a =>
    rw [finds]
    cases hr : s.reached? a with
    | none => rw [deed, hr] at h; cases h
    | some b => rfl
  | locale => exact Deed.of_if_resolving h
  | _ => rfl

/-- What an action does to the context stays the same through a run. -/
theorem deed_run {s : Serving} {l last : Layer} (hl : s.layer = some l) {later : List Action}
    (hlast : (s.run later).1.layer = some last) (a : Action) :
    (s.run later).1.deed a = s.deed a := by
  obtain ⟨entries, installed⟩ := s.entries_run later
  have kept : (s.run later).1.keepsContext = s.keepsContext := by
    rw [keepsContext, keepsContext, entries, hl, hlast]
    cases s.entries.get? Middleware.contextKey with
    | none => rfl
    | some entry => cases entry <;> rfl
  have same (b : Session.Action) : (s.run later).1.session.deed b = s.session.deed b :=
    Session.deed_congr (by rw [session, session, hl, hlast]) b
  cases a with
  | act a =>
    have reached : (s.run later).1.reached? a = s.reached? a := by
      unfold reached?
      rw [kept, hl, hlast]
      cases a.needs <;> cases a <;> rfl
    rw [deed, deed, reached]
    cases s.reached? a with
    | none => rfl
    | some b => exact same b
  | call key args => exact same _
  | locale | templateEntries => simp only [deed, kept, installed]
  | send | entryNames | hasLocales | hasContext => rfl

end Serving

end RequestLocale
