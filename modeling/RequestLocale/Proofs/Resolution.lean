import RequestLocale.Resolver

/-! # What a resolution can do

A remembered locale that is not empty is given back at once; otherwise the signals decide, and the
cookie is set before anything is remembered, so that a refused cookie leaves the context as it was.
`Resolution` has one constructor for each of these courses, with everything that led to it. What
else is known about resolving is read off its cases, and the code is not looked at again. -/
namespace RequestLocale

/-! ## Channels -/

namespace Channel

/-- Whether a client speaks through a channel and can be told something. -/
def isCapable : Channel → Bool
  | .http _ | .scripted _ => true
  | .absent | .stateOnly => false

/-- Whether the response has started. -/
def started : Channel → Bool
  | .http e => e.started
  | .scripted c => c.started
  | .absent | .stateOnly => false

end Channel

@[simp] theorem Decision.name_cookie (d : Decision) (s : Settings) :
    (d.cookie s).name = s.cookieField := rfl

/-- The life of the locale cookie can always be written, so only its name can be refused. -/
theorem Decision.check_cookie (d : Decision) (s : Settings) :
    (d.cookie s).check = (Http.Cookie.checkName s.cookieField).mapError .name :=
  Http.Cookie.Write.check_of_short s.life.isShort

namespace Context

theorem signals?_of_isCapable {ctx : Context} (h : ctx.channel.isCapable = true) (s : Settings) :
    ∃ sig, ctx.signals? s = some sig ∧ sig.started = ctx.channel.started := by
  obtain ⟨channel, state⟩ := ctx
  cases channel with
  | http e => exact ⟨_, rfl, rfl⟩
  | scripted c => exact ⟨_, rfl, rfl⟩
  | absent => cases h
  | stateOnly => cases h

/-- Over an exchange a cookie waits for the response if it can be written, and is refused if not. -/
theorem setCookie_http (e : Exchange) (state : LocaleState) (w : Http.Cookie.Write) :
    (⟨.http e, state⟩ : Context).setCookie w =
      match w.check with
      | .ok _ => .ok ⟨.http { e with pending := e.pending.insert w.name w.text }, state⟩
      | .error refusal => .error (.ofWrite refusal) := by
  simp only [setCookie, Exchange.setCookie, Http.Cookie.Write.text?]
  cases w.check <;> rfl

theorem setCookie_of_legal {ctx : Context} (hc : ctx.channel.isCapable = true) (d : Decision)
    {s : Settings} (hs : Http.Cookie.checkName s.cookieField = .ok ()) :
    ∃ after, ctx.setCookie (d.cookie s) = .ok after := by
  obtain ⟨channel, state⟩ := ctx
  cases channel with
  | http e =>
    rw [setCookie_http, d.check_cookie, hs]
    exact ⟨_, rfl⟩
  | scripted c => exact ⟨_, rfl⟩
  | absent => cases hc
  | stateOnly => cases hc

theorem checkName_of_setCookie {e : Exchange} {state : LocaleState} {d : Decision} {s : Settings}
    {after : Context} (h : (⟨.http e, state⟩ : Context).setCookie (d.cookie s) = .ok after) :
    Http.Cookie.checkName s.cookieField = .ok () := by
  rw [setCookie_http, d.check_cookie] at h
  cases hn : Http.Cookie.checkName s.cookieField with
  | ok _ => rfl
  | error refusal => rw [hn] at h; cases h

/-- A client that can be told something refuses the locale cookie for its name and for nothing
else. -/
theorem checkName_of_refused {ctx : Context} (hc : ctx.channel.isCapable = true)
    {d : Decision} {s : Settings} {e : CallError} (h : ctx.setCookie (d.cookie s) = .error e) :
    ∃ refusal, e = .cookie refusal ∧ Http.Cookie.checkName s.cookieField = .error refusal := by
  obtain ⟨channel, state⟩ := ctx
  cases channel with
  | http exchange =>
    rw [setCookie_http, d.check_cookie] at h
    cases hn : Http.Cookie.checkName s.cookieField with
    | ok _ => rw [hn] at h; cases h
    | error refusal => rw [hn] at h; cases h; exact ⟨refusal, rfl, rfl⟩
  | scripted c => cases h
  | absent => cases hc
  | stateOnly => cases hc

/-- The context after a cookie has been set; a refused cookie changes nothing. -/
def write (ctx : Context) (w : Http.Cookie.Write) : Context :=
  match ctx.setCookie w with
  | .ok after => after
  | .error _ => ctx

theorem write_of_ok {ctx after : Context} {w : Http.Cookie.Write}
    (h : ctx.setCookie w = .ok after) : ctx.write w = after := by rw [write, h]

theorem write_of_error {ctx : Context} {w : Http.Cookie.Write} {e : CallError}
    (h : ctx.setCookie w = .error e) : ctx.write w = ctx := by rw [write, h]

@[simp] theorem state_write (ctx : Context) (w : Http.Cookie.Write) :
    (ctx.write w).state = ctx.state := by
  cases h : ctx.setCookie w with
  | ok after => rw [write_of_ok h, state_setCookie h]
  | error e => rw [write_of_error h]

/-- Setting a cookie does not start the response. -/
@[simp] theorem started_write (ctx : Context) (w : Http.Cookie.Write) :
    (ctx.write w).channel.started = ctx.channel.started := by
  obtain ⟨channel, state⟩ := ctx
  cases channel with
  | http e =>
    simp only [write, setCookie_http]
    cases w.check <;> rfl
  | scripted c => rfl
  | absent => rfl
  | stateOnly => rfl

@[simp] theorem isCapable_write (ctx : Context) (w : Http.Cookie.Write) :
    (ctx.write w).channel.isCapable = ctx.channel.isCapable := by
  obtain ⟨channel, state⟩ := ctx
  cases channel with
  | http e =>
    simp only [write, setCookie_http]
    cases w.check <;> rfl
  | scripted c => rfl
  | absent => rfl
  | stateOnly => rfl

/-- Setting a cookie leaves the request of an exchange as it came. -/
theorem write_http (e : Exchange) (state : LocaleState) (w : Http.Cookie.Write) :
    ∃ after, ((⟨.http e, state⟩ : Context).write w).channel = .http after ∧
      after.query = e.query ∧ after.headers = e.headers := by
  simp only [write, setCookie_http]
  cases w.check with
  | ok _ => exact ⟨_, rfl, rfl, rfl⟩
  | error refusal => exact ⟨e, rfl, rfl, rfl⟩

/-- The cookie that resolving the locale sets. -/
def resolverCookie? (ctx : Context) (s : Settings) : Option Http.Cookie.Write :=
  match ctx.state.known?, ctx.signals? s with
  | none, some sig => if (sig.decide s).writes then some ((sig.decide s).cookie s) else none
  | _, _ => none

theorem resolverCookie?_of_writes {ctx : Context} {s : Settings} {sig : Signals}
    (hk : ctx.state.known? = none) (hs : ctx.signals? s = some sig)
    (hw : (sig.decide s).writes = true) :
    ctx.resolverCookie? s = some ((sig.decide s).cookie s) := by
  rw [resolverCookie?, hk, hs]
  exact if_pos hw

/-! ## The courses of a resolution -/

/-- The courses that resolving the locale of a context can take. -/
inductive Resolution (ctx : Context) (s : Settings) : Step Context CallError String → Prop
  | known {locale : String} : ctx.state.known? = some locale →
      Resolution ctx s ⟨ctx, [], .ok locale⟩
  | outside : ctx.state.known? = none → ctx.signals? s = none →
      Resolution ctx s ⟨ctx, [], .ok s.defaultLocale⟩
  | refused {sig : Signals} {e : CallError} : ctx.state.known? = none →
      ctx.signals? s = some sig → (sig.decide s).writes = true →
      ctx.setCookie ((sig.decide s).cookie s) = .error e →
      Resolution ctx s ⟨ctx, [], .error e⟩
  | written {sig : Signals} {after : Context} : ctx.state.known? = none →
      ctx.signals? s = some sig → (sig.decide s).writes = true →
      ctx.setCookie ((sig.decide s).cookie s) = .ok after →
      Resolution ctx s ⟨after.remember (sig.decide s).locale,
        [(sig.decide s).written sig.cookie, (sig.decide s).resolved],
        .ok (ctx.state.remembered (sig.decide s).locale)⟩
  | quiet {sig : Signals} : ctx.state.known? = none → ctx.signals? s = some sig →
      (sig.decide s).writes = false →
      Resolution ctx s ⟨ctx.remember (sig.decide s).locale, [(sig.decide s).resolved],
        .ok (ctx.state.remembered (sig.decide s).locale)⟩

theorem resolution (ctx : Context) (s : Settings) : Resolution ctx s (ctx.resolve s) := by
  unfold resolve
  split
  · rename_i locale hk
    exact .known hk
  · rename_i hk hs
    exact .outside hk hs
  · rename_i sig hk hs
    unfold settle
    by_cases hw : (sig.decide s).writes = true
    · simp only [hw, if_true]
      cases hc : ctx.setCookie ((sig.decide s).cookie s) with
      | error e => exact .refused hk hs hw hc
      | ok after => exact .written hk hs hw hc
    · simp only [Bool.not_eq_true] at hw
      simp only [hw]
      exact .quiet hk hs hw

/-! ## What the courses have in common -/

/-- The channel changes by the cookie that the resolver sets, and by nothing else. -/
theorem channel_resolve (ctx : Context) (s : Settings) :
    (ctx.resolve s).state.channel =
      ((ctx.resolverCookie? s).elim ctx ctx.write).channel := by
  have course := ctx.resolution s
  generalize ctx.resolve s = step at course ⊢
  cases course with
  | known hk => simp [resolverCookie?, hk]
  | outside hk hs => simp [resolverCookie?, hk, hs]
  | refused hk hs hw hc => simp [resolverCookie?, hk, hs, hw, write_of_error hc]
  | written hk hs hw hc => simp [resolverCookie?, hk, hs, hw, write_of_ok hc, remember]
  | quiet hk hs hw => simp [resolverCookie?, hk, hs, hw, remember]

@[simp] theorem started_resolve (ctx : Context) (s : Settings) :
    (ctx.resolve s).state.channel.started = ctx.channel.started := by
  rw [channel_resolve]
  cases ctx.resolverCookie? s with
  | none => rfl
  | some w => exact ctx.started_write w

@[simp] theorem isCapable_resolve (ctx : Context) (s : Settings) :
    (ctx.resolve s).state.channel.isCapable = ctx.channel.isCapable := by
  rw [channel_resolve]
  cases ctx.resolverCookie? s with
  | none => rfl
  | some w => exact ctx.isCapable_write w

/-- A remembered locale stays, the empty one too. -/
theorem locale_resolve {ctx : Context} {memo : String} (h : ctx.state.locale = some memo)
    (s : Settings) : (ctx.resolve s).state.state.locale = some memo := by
  have course := ctx.resolution s
  generalize ctx.resolve s = step at course ⊢
  cases course with
  | known => exact h
  | outside => exact h
  | refused => exact h
  | written _ _ _ hc => rw [remember, state_setCookie hc, LocaleState.remember_of_locale h, h]
  | quiet => rw [remember, LocaleState.remember_of_locale h, h]

/-- What a context with a capable channel answers is what it remembers from then on. -/
theorem locale_of_resolve {ctx : Context} {s : Settings} {locale : String}
    (hc : ctx.channel.isCapable = true) (h : (ctx.resolve s).result = .ok locale) :
    (ctx.resolve s).state.state.locale = some locale := by
  have course := ctx.resolution s
  generalize ctx.resolve s = step at course h ⊢
  cases course with
  | known hk =>
    cases h
    exact Option.eq_some_of_filter_eq_some hk
  | outside _ hs =>
    obtain ⟨sig, hsig, _⟩ := signals?_of_isCapable hc s
    rw [hs] at hsig; cases hsig
  | refused => cases h
  | written _ _ _ hw =>
    cases h
    rw [remember, LocaleState.locale_remember, state_setCookie hw]
  | quiet =>
    cases h
    rw [remember, LocaleState.locale_remember]

/-- A resolution leaves the attached messages alone. -/
@[simp] theorem attached_resolve (ctx : Context) (s : Settings) :
    (ctx.resolve s).state.state.attached = ctx.state.attached := by
  have course := ctx.resolution s
  generalize ctx.resolve s = step at course ⊢
  cases course with
  | known => rfl
  | outside => rfl
  | refused => rfl
  | written _ _ _ hc => rw [remember, LocaleState.attached_remember, state_setCookie hc]
  | quiet => rw [remember, LocaleState.attached_remember]

/-- A resolution fails only with a refused cookie, and then leaves the context as it was. -/
theorem refused_of_resolve {ctx : Context} {s : Settings} (hc : ctx.channel.isCapable = true)
    {e : CallError} (h : (ctx.resolve s).result = .error e) :
    (ctx.resolve s).state = ctx ∧
      ∃ refusal, e = .cookie refusal ∧ Http.Cookie.checkName s.cookieField = .error refusal := by
  have course := ctx.resolution s
  generalize ctx.resolve s = step at course h ⊢
  cases course with
  | known => cases h
  | outside => cases h
  | refused _ _ _ hset =>
    cases h
    exact ⟨rfl, checkName_of_refused hc hset⟩
  | written => cases h
  | quiet => cases h

theorem resolverCookie?_of_known {ctx : Context} {locale : String}
    (h : ctx.state.known? = some locale) (s : Settings) : ctx.resolverCookie? s = none := by
  rw [resolverCookie?, h]

/-- Once the response has started no cookie is set. -/
theorem resolverCookie?_of_started {ctx : Context} (h : ctx.channel.started = true)
    (s : Settings) : ctx.resolverCookie? s = none := by
  unfold resolverCookie?
  split
  · rename_i sig _ hs
    have hst : sig.started = true := by
      obtain ⟨channel, state⟩ := ctx
      cases channel <;> cases hs <;> exact h
    simp [Signals.decide, hst]
  · rfl

end Context

end RequestLocale
