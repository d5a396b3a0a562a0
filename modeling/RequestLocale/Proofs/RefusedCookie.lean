import RequestLocale.Proofs.HeaderSafety
import RequestLocale.Proofs.Resolving

/-! # What a refused cookie leaves behind

Nothing changes when a cookie is refused, so other cookies go on waiting and leave with the next
start, each once. After the start no cookie is set any more, and the call that failed has an answer.
That is the locale that the rules give, with one exception: if the empty text is remembered, the
rules pass over it, but it is given back all the same (`Serving.withstands_iff`). -/
namespace RequestLocale

open Http (Headers)
open Http.Cookie (Write)

theorem Channel.Brings.isCapable {c : Channel} {request : Exchange} (h : c.Brings request) :
    c.isCapable = true := by
  obtain ⟨e, rfl, _⟩ := h
  rfl

/-! ## Cookies that go on waiting -/

/-- Only handing out the cookies starts the response of a session. -/
theorem Session.eq_of_deed_eq_starting {s : Session} {a : Session.Action}
    (h : s.deed a = .starting) : ∃ headers, a = .applyCookies headers := by
  have hd := s.hasDeed a
  rw [h] at hd
  cases hd
  exact ⟨_, rfl⟩

namespace Serving

/-- Whether an action takes the waiting cookies, to send them or to hand them out. -/
def Action.takesCookies : Action → Bool
  | .send f => f.isStart
  | .act (.applyCookies _) => true
  | _ => false

theorem takesCookies_of_starting {s : Serving} {a : Action} (h : s.deed a = .starting) :
    a.takesCookies = true := by
  cases a with
  | act a =>
    simp only [deed] at h
    cases hr : s.reached? a with
    | none => rw [hr] at h; cases h
    | some b =>
      rw [hr] at h
      obtain ⟨headers, rfl⟩ := Session.eq_of_deed_eq_starting h
      rcases reached?_eq_some hr with rfl | impossible
      · rfl
      · cases impossible
  | call key args =>
    obtain ⟨headers, impossible⟩ := Session.eq_of_deed_eq_starting h
    cases impossible
  | send f =>
    simp only [deed] at h
    split at h
    · assumption
    · cases h
  | entryNames | hasLocales | hasContext => cases h
  | locale | templateEntries =>
    simp only [deed] at h
    split at h <;> cases h

/-- An action that takes no cookie leaves the queue as it was and may lengthen it. -/
theorem waiting_of_not_takesCookies {s : Serving} {a : Action} (h : a.takesCookies = false)
    (queued : List Write) : s.waiting queued a = queued ++ s.waiting [] a := by
  unfold waiting
  cases s.layer with
  | none => exact (List.append_nil queued).symm
  | some l =>
    have quiet : s.deed a ≠ .starting := fun starting =>
      Bool.false_ne_true (h.symm.trans (takesCookies_of_starting starting))
    cases hd : s.deed a with
    | starting => exact absurd hd quiet
    | resolving | writing => rfl
    | nothing | remembering | scripting => exact (List.append_nil queued).symm

section

variable {settings : Settings} {request : Exchange} {done later : List Action}
  {queued : List Write} {s : Serving}

/-- Until cookies are taken the queue only gets longer, by the cookie of the locale and those that
the application sets. -/
theorem Awaits.run_quiet (h : s.Awaits settings request done queued)
    (quiet : ∀ b ∈ later, b.takesCookies = false) :
    ∃ more, (s.run later).1.Awaits settings request (done ++ later) (queued ++ more) ∧
      ∀ w ∈ more, w = request.localeCookie settings ∨ .act (.setCookie w) ∈ later := by
  -- Each action lengthens the queue of the next ones, so the induction is over any queue.
  induction later generalizing s done queued with
  | nil => exact ⟨[], by simpa [Serving.run] using h, fun w hw => by cases hw⟩
  | cons a later ih =>
    obtain ⟨first, rest⟩ := List.forall_mem_cons.mp quiet
    have next := h.perform a
    rw [waiting_of_not_takesCookies first] at next
    obtain ⟨more, waits, origin⟩ := ih next rest
    rw [List.append_assoc, List.append_assoc] at waits
    refine ⟨_, waits, fun w hw => ?_⟩
    rcases List.mem_append.mp hw with hw | hw
    · obtain ⟨l, hl, rfl, _, brings⟩ := h.layer
      simp only [waiting, hl] at hw
      rcases Deed.mem_waiting brings hw with old | ⟨_, kept | written⟩
      · cases old
      · exact .inl kept
      · rw [← eq_of_deed_eq_writing written]
        exact .inr List.mem_cons_self
    · exact (origin w hw).imp_right (List.mem_cons_of_mem _)

end

end Serving

theorem mem_lastWrites_iff {queued : List Write} {w : Write} :
    w ∈ lastWrites queued ↔ (queued.filter (·.name == w.name)).getLast? = some w := by
  constructor
  · intro h
    obtain ⟨name, _, hl⟩ := List.mem_filterMap.mp h
    have named : w.name = name := by
      simpa using (List.mem_filter.mp (List.mem_of_getLast? hl)).2
    rwa [named]
  · intro h
    have queuedFirst := (List.mem_filter.mp (List.mem_of_getLast? h)).1
    exact List.mem_filterMap.mpr
      ⟨w.name, List.mem_eraseDups.mpr (List.mem_map_of_mem queuedFirst), h⟩

/-- A cookie that is to be sent stays so when others come to wait, unless one of them replaces
it. -/
theorem exists_mem_lastWrites_append {queued : List Write} {w : Write}
    (h : w ∈ lastWrites queued) (more : List Write) :
    ∃ v ∈ lastWrites (queued ++ more), v.name = w.name ∧ (v = w ∨ v ∈ more) := by
  have last : ((queued ++ more).filter (·.name == w.name)).getLast? =
      ((more.filter (·.name == w.name)).getLast?).or (some w) := by
    rw [List.filter_append, List.getLast?_append, mem_lastWrites_iff.mp h]
  cases hm : (more.filter (·.name == w.name)).getLast? with
  | none =>
    rw [hm] at last
    exact ⟨w, mem_lastWrites_iff.mpr last, rfl, .inl rfl⟩
  | some v =>
    rw [hm] at last
    have found := List.mem_filter.mp (List.mem_of_getLast? hm)
    have named : v.name = w.name := by simpa using found.2
    refine ⟨v, mem_lastWrites_iff.mpr ?_, named, .inr found.1⟩
    rw [named]
    exact last

namespace Serving

/-- The next start takes some cookies along, one for each name, and then none waits. -/
structure HandsOver (s : Serving) (cookies : List Write) : Prop where
  distinct : (cookies.map (·.name)).Nodup
  sent : ∀ f : Frame, f.isStart = true →
    let own := f.headers.getD []
    (s.perform (.send f)).state.Holds [] ∧
      (s.perform (.send f)).state.sent = s.sent ++
        [{ f with headers := some (own ++ cookies.map (fun w => ("set-cookie", w.text)) ++
          languageLine s.memo own) }]
  applied : ∀ own, s.keepsContext = true →
    (s.perform (.act (.applyCookies own))).state.Holds [] ∧
      (s.perform (.act (.applyCookies own))).result =
        .ok (.session (.headers (own ++ cookies.map fun w => ("set-cookie", w.text))))

theorem Holds.handsOver {s : Serving} {queued : List Write} (h : s.Holds queued) :
    s.HandsOver (lastWrites queued) := by
  have emptied {a : Action} (ha : s.deed a = .starting) : (s.perform a).state.Holds [] := by
    have next := h.perform a
    obtain ⟨l, hl, _⟩ := h
    rwa [waiting, hl, ha] at next
  refine ⟨nodup_name_lastWrites queued, fun f hf => ⟨emptied (by rw [deed, if_pos hf]), ?_⟩,
    fun own kept => ?_⟩
  · have sent := h.sent_perform (.send f)
    rwa [outgoing, if_pos hf] at sent
  · have reached : s.reached? (.applyCookies own) = some (.applyCookies own) := if_pos kept
    refine ⟨emptied (by rw [deed, reached]; rfl), ?_⟩
    obtain ⟨⟨ls, ⟨channel, state⟩⟩, hl, e, he, hq⟩ := h
    cases he
    have hs : s.session = ⟨⟨ls, ⟨.http e, state⟩⟩, true, s.outer⟩ := by rw [session, hl]
    have same : s.act (.applyCookies own) = s.within (.applyCookies own) := by
      unfold act
      exact if_pos kept
    rw [Serving.perform, same, within, hs, ← hq.cookieHeaders]
    rfl

end Serving

/-! ## The locale that the rules give -/

/-- Once the response has started a resolution cannot fail. What is remembered is its answer, the
empty locale too. -/
theorem Context.result_resolve_of_started {e : Exchange} (h : e.started = true)
    (state : LocaleState) (s : Settings) :
    ((⟨.http e, state⟩ : Context).resolve s).result =
      .ok (state.remembered (e.localeCookie s).value) := by
  have late : ((e.signals s).decide s).writes = false := by
    simp [Signals.decide, Exchange.signals, h]
  have course := (⟨.http e, state⟩ : Context).resolution s
  generalize (⟨.http e, state⟩ : Context).resolve s = step at course ⊢
  cases course with
  | known hk =>
    rw [LocaleState.remembered, Option.eq_some_of_filter_eq_some hk]
    rfl
  | outside _ hs => cases hs
  | refused _ hs hw =>
    cases hs
    exact absurd (late.symm.trans hw) Bool.false_ne_true
  | written _ hs hw =>
    cases hs
    exact absurd (late.symm.trans hw) Bool.false_ne_true
  | quiet _ hs =>
    cases hs
    rfl

/-- What is remembered, if it is not empty, and otherwise the first candidate that is not empty, by
way of one alias. -/
def Exchange.ruled (e : Exchange) (s : Settings) (memo : Option String) : Option String :=
  (Signals.nonempty? memo).or
    ((firstNonempty (e.candidates s)).map fun wished => (s.aliases.get? wished).getD wished)

theorem Exchange.ruled_eq {s : Settings} (h : s.IsAccepted) (e : Exchange) (memo : Option String) :
    e.ruled s memo = some ((Signals.nonempty? memo).getD (e.localeCookie s).value) := by
  have wished : firstNonempty (e.candidates s) = some ((e.signals s).wish s.defaultLocale).1 :=
    (e.signals s).wish_eq h.defaultLocale_ne_empty
  rw [ruled, wished]
  cases Signals.nonempty? memo <;> rfl

/-- Passing over the empty locale makes no difference unless it is remembered. -/
theorem Signals.getD_eq_iff (memo : Option String) (decided : String) :
    memo.getD decided = (nonempty? memo).getD decided ↔ (memo = some "" → decided = "") := by
  cases memo with
  | none => simp [nonempty?]
  | some locale =>
    by_cases empty : locale = ""
    · subst empty
      show "" = decided ↔ _
      exact ⟨fun same _ => same.symm, fun same => (same rfl).symm⟩
    · simp [nonempty?, Option.filter, empty]

namespace Serving

/-- An action settles on a locale: it is remembered, it is the answer to the question for it, and
nothing but a message can fail. -/
structure Settles (s : Serving) (a : Action) (locale : String) : Prop where
  remembered : (s.perform a).state.memo = some locale
  answer : a.question? = some .locale →
    (s.perform a).result.map Answer.text? = .ok (some locale)
  total : ∀ e, (s.perform a).result = .error e → ∃ fault, e = .call (.format fault)

/-- The context behind the middleware. -/
theorem Awaits.layer_eq {settings : Settings} {request : Exchange} {done : List Action}
    {queued : List Write} {s : Serving} (h : s.Awaits settings request done queued)
    (own : s.OwnsLayer) :
    ∃ ctx, s.layer = some ⟨s.locales, ctx⟩ ∧ s.locales.settings = settings ∧
      ctx.channel.Brings request := by
  obtain ⟨⟨locales, ctx⟩, hl, same, _, brings⟩ := h.layer
  have ownLocales : locales = s.locales := own _ hl
  subst ownLocales
  exact ⟨ctx, hl, same, brings⟩

/-- After the start whatever resolves the locale settles on what is remembered, the empty locale
too, and otherwise on what the request decides. -/
theorem Awaits.settles {settings : Settings} {request : Exchange} {done : List Action}
    {queued : List Write} {s : Serving} (h : s.Awaits settings request done queued)
    (own : s.OwnsLayer) (started : s.HasStarted) {a : Action} (ha : s.deed a = .resolving) :
    s.Settles a (s.memo.getD (request.localeCookie settings).value) := by
  obtain ⟨⟨channel, state⟩, hl, rfl, e, he, hq, hh⟩ := h.layer_eq own
  obtain ⟨_, hl', hs⟩ := started
  cases hl.symm.trans hl'
  cases he
  have memo : s.memo = state.locale := by rw [Serving.memo, hl]; rfl
  have resolved : ((⟨.http e, state⟩ : Context).resolve s.locales.settings).result =
      .ok (s.memo.getD (request.localeCookie s.locales.settings).value) := by
    rw [Context.result_resolve_of_started hs, Exchange.localeCookie_congr hq hh, memo]
    rfl
  obtain ⟨next, hn, follows⟩ := (s.follows_perform a).layer _ hl
  refine ⟨?_, fun question => ?_, fun failure failed => ?_⟩
  · rw [Serving.memo, hn, Option.bind_some, follows.locale, ha]
    exact Context.locale_of_resolve rfl resolved
  · rw [(perform_question rfl hl question (finds_of_resolving ha)).2]
    show ((((⟨.http e, state⟩ : Context).resolve s.locales.settings).result.map some).mapError
      Failure.call) = _
    rw [resolved]
    rfl
  · obtain ⟨step, course, _, result⟩ := perform_resolving hl rfl ha
    rw [result] at failed
    obtain ⟨_, cause, rfl⟩ := Failure.eq_call failed
    obtain ⟨fault, rfl⟩ := course.settled _ resolved _ cause
    exact ⟨fault, rfl⟩

/-! ## The law and where it holds -/

/-- What an action that fails leaves of a request, at once and after some later actions. -/
structure Withstands (settings : Settings) (request : Exchange) (s : Serving) (a : Action)
    (later : List Action) : Prop where
  same : (s.perform a).state = s
  /-- A cookie that waited waits on, unless it is replaced, and then leaves once. -/
  handed : (∀ b ∈ later, b.takesCookies = false) →
    ∃ queued cookies, s.Holds queued ∧
      ((s.perform a).state.run later).1.HandsOver cookies ∧
      ∀ w ∈ lastWrites queued, ∃ v ∈ cookies, v.name = w.name ∧
        (v = w ∨ v = request.localeCookie settings ∨ .act (.setCookie v) ∈ later)
  /-- What was to resolve the locale resolves it when it is done again. -/
  resolves : (∀ w, a ≠ .act (.setCookie w)) →
    ((s.perform a).state.run later).1.deed a = .resolving
  /-- Once the response has started, all that resolves the locale gets the one of the rules. -/
  settled : ((s.perform a).state.run later).1.HasStarted →
    ∀ b, ((s.perform a).state.run later).1.deed b = .resolving →
      ∃ locale, request.ruled settings ((s.perform a).state.run later).1.memo = some locale ∧
        ((s.perform a).state.run later).1.Settles b locale

/-- **What a refused cookie leaves behind.** At whatever point a cookie is refused, nothing changes,
and all goes on as it should, with one exception: after the start the locale is not the one that the
rules give if the empty text is remembered and the rules give another. -/
theorem withstands_iff (outer : Ambient) {ls : Locales} (accepted : ls.settings.IsAccepted)
    {kind : String} (handled : Middleware.handles kind = true) (query path : String)
    (headers : Headers) (entries : Table StateEntry) (installed : Bool) (before : List Action)
    {a : Action} {refusal : Http.Cookie.Error}
    (refused : (((start outer ls kind query path headers entries installed false).run
      before).1.perform a).result = .error (.call (.cookie refusal)))
    (later : List Action) :
    let request := Exchange.ofRequest query headers
    let s := ((start outer ls kind query path headers entries installed false).run before).1
    let last := ((s.perform a).state.run later).1
    s.Withstands ls.settings request a later ↔
      (last.HasStarted → last.memo = some "" → request.ruled ls.settings none = some "") := by
  intro request s last
  have first := awaits_start outer ls handled query path headers entries installed
  obtain ⟨queued, waits⟩ := first.run before
  have own : s.OwnsLayer :=
    (ownsLayer_start outer ls kind query path headers entries installed false).run before
  obtain ⟨ctx, hl, _, brings⟩ := waits.layer_eq own
  have same : (s.perform a).state = s := state_of_refused own hl brings.isCapable refused
  have lastIs : last = (s.run later).1 := by rw [← same]
  obtain ⟨lastQueued, lastWaits⟩ := waits.run later
  rw [← lastIs] at lastWaits
  have lastOwn : last.OwnsLayer := lastIs ▸ own.run later
  have settles (started : last.HasStarted) {b : Action} (hb : last.deed b = .resolving) :
      last.Settles b (last.memo.getD (request.localeCookie ls.settings).value) :=
    lastWaits.settles lastOwn started hb
  constructor
  · intro withstands started empty
    -- The translator of a request reaches the layer whatever the state of the request holds.
    have called : last.deed (.call (some "") []) = .resolving := rfl
    obtain ⟨locale, ruled, settled⟩ := withstands.settled started _ called
    have agree := settled.remembered.symm.trans (settles started called).remembered
    rw [Exchange.ruled_eq accepted] at ruled ⊢
    have decided := (Signals.getD_eq_iff _ _).mp (Option.some.inj (agree.symm.trans ruled.symm))
    exact congrArg some (decided empty)
  · intro exception
    refine ⟨same, fun quiet => ?_, fun direct => ?_, fun started b hb =>
      ⟨_, ?_, settles started hb⟩⟩
    · rw [same]
      obtain ⟨more, waiting, origin⟩ := waits.run_quiet quiet
      refine ⟨queued, _, waits.holds, waiting.holds.handsOver, fun w hw => ?_⟩
      obtain ⟨v, hv, named, kept | added⟩ := exists_mem_lastWrites_append hw more
      · exact ⟨v, hv, named, .inl kept⟩
      · exact ⟨v, hv, named, .inr (origin v added)⟩
    · obtain ⟨lastCtx, hlast, _⟩ := lastWaits.layer_eq lastOwn
      show last.deed a = .resolving
      rw [lastIs] at hlast ⊢
      rw [deed_run hl hlast]
      exact (deed_of_refused hl refused).resolve_right fun ⟨w, written⟩ => direct w written
    · rw [Exchange.ruled_eq accepted]
      refine congrArg some ((Signals.getD_eq_iff _ _).mpr fun empty => ?_).symm
      have ruled := exception started empty
      rw [Exchange.ruled_eq accepted] at ruled
      exact Option.some.inj ruled

/-- The error with which a cookie was refused. -/
def refusal? : Except Failure Answer → Option Http.Cookie.Error
  | .error (.call (.cookie refusal)) => some refusal
  | _ => none

theorem eq_of_refusal? {r : Except Failure Answer} {refusal : Http.Cookie.Error}
    (h : refusal? r = some refusal) : r = .error (.call (.cookie refusal)) := by
  unfold refusal? at h
  split at h
  · cases h
    rfl
  · cases h

/-- Settings whose cookie is named like an attribute, without bundles. -/
def pathLocales : Locales := ⟨.withCookieField "path", ⟨[], "en_US", {}⟩⟩

theorem isAccepted_pathLocales : pathLocales.settings.IsAccepted :=
  Settings.isAccepted_withCookieField (by decide +kernel) (by decide)

/-- A translation is refused its cookie while another one waits. That one leaves with the start, and
then the default locale is the answer. -/
theorem seen_withstands :
    pathLocales.settings.IsAccepted ∧ Middleware.handles "http" = true ∧
    let s := ((start .empty pathLocales "http" "" "/" [] {} true false).run
      [.act (.setCookie ⟨"seen", "1", 5, true⟩)]).1
    let a := Action.act (.currentTranslate (some "hi") [])
    let last := ((s.perform a).state.run [.send bareStart]).1
    (s.perform a).result = .error (.call (.cookie (.reserved "path"))) ∧
    s.Withstands pathLocales.settings (.ofRequest "" []) a [.send bareStart] ∧
    last.sent.map (·.headers) =
      [some [("set-cookie", "seen=1; HttpOnly; Max-Age=5; Path=/; SameSite=lax")]] ∧
    (last.perform .locale).result.toOption.bind Answer.text? = some "en_US" ∧
    (last.perform a).result.toOption.bind Answer.text? = some "hi" := by
  have handled : Middleware.handles "http" = true := by decide
  refine ⟨isAccepted_pathLocales, handled, ?_⟩
  intro s a last
  have refused : (s.perform a).result = .error (.call (.cookie (.reserved "path"))) :=
    eq_of_refusal? (by decide +kernel)
  have law := withstands_iff .empty isAccepted_pathLocales handled "" "/" [] {} true
    [.act (.setCookie ⟨"seen", "1", 5, true⟩)] refused [.send bareStart]
  have unknown : last.memo = none := by decide +kernel
  refine ⟨refused, law.mpr fun _ empty => ?_, by decide +kernel,
    by decide +kernel, by decide +kernel⟩
  cases unknown.symm.trans empty

/-- With the empty locale remembered the rules give the default, and the answer is empty. -/
theorem emptyMemo_answers_empty :
    pathLocales.settings.IsAccepted ∧ Middleware.handles "http" = true ∧
    let s := ((start .empty pathLocales "http" "" "/" [] {} true false).run
      [.act (.remember "")]).1
    let last := ((s.perform (.act .getLocale)).state.run [.send bareStart]).1
    (s.perform (.act .getLocale)).result = .error (.call (.cookie (.reserved "path"))) ∧
    (Exchange.ofRequest "" []).ruled pathLocales.settings last.memo = some "en_US" ∧
    (last.perform (.act .getLocale)).result.toOption.bind Answer.text? = some "" ∧
    ¬ s.Withstands pathLocales.settings (.ofRequest "" []) (.act .getLocale)
      [.send bareStart] := by
  have handled : Middleware.handles "http" = true := by decide
  refine ⟨isAccepted_pathLocales, handled, ?_⟩
  intro s last
  have ruled : (Exchange.ofRequest "" []).ruled pathLocales.settings last.memo = some "en_US" := by
    decide +kernel
  have remembered : (last.perform (.act .getLocale)).state.memo = some "" := by decide +kernel
  refine ⟨eq_of_refusal? (by decide +kernel), ruled,
    by decide +kernel, fun withstands => ?_⟩
  obtain ⟨queued, waits⟩ := (awaits_start .empty pathLocales handled "" "/" [] {} true).run
    [.act (.remember "")]
  have started : last.HasStarted := (waits.holds.perform (.act .getLocale)).hasStarted_run
    (.inr ⟨bareStart, List.mem_singleton_self _, by decide⟩)
  obtain ⟨locale, rule, settled⟩ :=
    withstands.settled started _ (withstands.resolves fun _ direct => by cases direct)
  rw [rule, ← settled.remembered, remembered] at ruled
  exact absurd ruled (by decide)

end Serving

end RequestLocale
