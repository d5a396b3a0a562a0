import RequestLocale.Proofs.Accepted
import RequestLocale.Proofs.Deed
import RequestLocale.Proofs.TableHistory

/-! # What leaves with the messages of an application

Cookies wait from the moment they are set until the next start of a response. `Serving.traffic` says
what a server must see of a run: every message once and in order, those that start no response as
they are, and a start with the headers of the application, one header for each waiting cookie and
the language. `Serving.Holds.sent_run` is the run lemma: the queue of the context holds the cookies
that wait, whatever the code of the request does. -/
namespace RequestLocale

open Http (Headers)
open Http.Cookie (Write)

/-! ## Cookies that wait -/

/-- Whether a cookie can be written. -/
def Http.Cookie.Write.isLegal (w : Write) : Bool := w.check.isOk

/-- The cookies that wait after a deed, in the order in which they were set. -/
def Deed.waiting (s : Settings) (ctx : Context) (queued : List Write) : Deed → List Write
  | .resolving => queued ++ (ctx.resolverCookie? s).toList.filter Write.isLegal
  | .writing w => queued ++ [w].filter Write.isLegal
  | .starting => []
  | .nothing | .remembering _ | .scripting _ => queued

/-- One cookie for each name, in the order in which the names first came, each as it was set
last. -/
def lastWrites (queued : List Write) : List Write :=
  (queued.map (·.name)).eraseDups.filterMap fun name =>
    (queued.filter (·.name == name)).getLast?

/-- No name is left out and none comes twice. -/
theorem map_name_lastWrites (queued : List Write) :
    (lastWrites queued).map (·.name) = (queued.map (·.name)).eraseDups := by
  rw [lastWrites, List.map_filterMap]
  have last : ∀ name ∈ (queued.map (·.name)).eraseDups,
      ((queued.filter (·.name == name)).getLast?).map (·.name) = some name := by
    intro name hm
    obtain ⟨w, hw, hn⟩ := List.mem_map.mp (List.mem_eraseDups.mp hm)
    have hne : queued.filter (·.name == name) ≠ [] := by
      intro h
      have hf : w ∈ queued.filter (·.name == name) := List.mem_filter.mpr ⟨hw, by simp [hn]⟩
      rw [h] at hf
      cases hf
    have hl := List.mem_filter.mp (List.getLast_mem hne)
    rw [List.getLast?_eq_some_getLast hne, Option.map_some, beq_iff_eq.mp hl.2]
  rw [List.filterMap_congr last, List.filterMap_some]

/-- The queue of an exchange holds the cookies that wait. -/
def Exchange.Holds (e : Exchange) (queued : List Write) : Prop :=
  e.pending = Table.ofList (queued.map fun w => (w.name, w.text))

/-- The channel is an exchange that holds the cookies that wait. -/
def Channel.Holds (c : Channel) (queued : List Write) : Prop :=
  ∃ e, c = .http e ∧ e.Holds queued

theorem Exchange.Holds.cookieHeaders {e : Exchange} {queued : List Write} (h : e.Holds queued) :
    e.cookieHeaders = (lastWrites queued).map fun w => ("set-cookie", w.text) := by
  unfold Exchange.cookieHeaders
  rw [h, Table.values_ofList, lastWrites, List.map_map, List.map_filterMap, List.map_filterMap]
  refine List.filterMap_congr fun name _ => ?_
  simp [Table.lastUnder, List.filter_map, Function.comp_def]

/-- Setting a cookie lengthens the queue, unless it is refused. -/
theorem Channel.Holds.write {ctx : Context} {queued : List Write} (h : ctx.channel.Holds queued)
    (w : Write) : (ctx.write w).channel.Holds (queued ++ [w].filter Write.isLegal) := by
  obtain ⟨e, he, hq⟩ := h
  obtain ⟨channel, state⟩ := ctx
  cases he
  simp only [Context.write, Context.setCookie_http]
  cases hc : w.check with
  | error err => exact ⟨e, rfl, by simpa [Write.isLegal, hc, Except.isOk, Except.toBool] using hq⟩
  | ok _ =>
    refine ⟨_, rfl, ?_⟩
    rw [Exchange.Holds] at hq
    simp [Exchange.Holds, Write.isLegal, hc, Except.isOk, Except.toBool, Table.ofList_concat, hq]

theorem Deed.holds_apply {ctx : Context} {queued : List Write} (h : ctx.channel.Holds queued)
    (s : Settings) (d : Deed) : (d.apply s ctx).channel.Holds (d.waiting s ctx queued) := by
  cases d with
  | nothing => exact h
  | resolving =>
    simp only [apply, waiting, Context.channel_resolve]
    cases ctx.resolverCookie? s with
    | none => simpa using h
    | some w => exact h.write w
  | writing w => exact h.write w
  | remembering locale => exact h
  | starting =>
    obtain ⟨e, he, _⟩ := h
    simp only [apply, he]
    exact ⟨_, rfl, rfl⟩
  | scripting f =>
    obtain ⟨e, he, hq⟩ := h
    simp only [apply, he]
    exact ⟨e, rfl, hq⟩

/-! ## Frames as they leave -/

/-- The header for the language: the remembered locale, if it is a language tag and the
application has not set the header itself. -/
def languageLine (memo : Option String) (own : Headers) : Headers :=
  match memo with
  | some tag =>
    if LanguageTag.isTag tag = true ∧ ∀ line ∈ own, line.1 ≠ "content-language" then
      [("content-language", tag)]
    else []
  | none => []

/-- The start of a response as it leaves. -/
def Frame.started (f : Frame) (memo : Option String) (queued : List Write) : Frame :=
  let own := f.headers.getD []
  { f with headers := some (own ++ (lastWrites queued).map (fun w => ("set-cookie", w.text)) ++
      languageLine memo own) }

/-- Cookies are no language, so they do not stand in the way of the header for it. -/
theorem languageHeader_append (memo : Option String) (own : Headers) (queued : List Write) :
    Middleware.languageHeader memo
        (own ++ (lastWrites queued).map fun w => ("set-cookie", w.text)) =
      languageLine memo own := by
  have hc : ((lastWrites queued).map fun w => ("set-cookie", w.text)).any
      (·.1 == "content-language") = false := by
    simp
  have hh : Headers.has (own ++ (lastWrites queued).map fun w => ("set-cookie", w.text))
      "content-language" = own.has "content-language" := by
    unfold Headers.has
    rw [List.any_append, hc, Bool.or_false]
  cases memo with
  | none => rfl
  | some tag =>
    simp only [Middleware.languageHeader, languageLine, hh]
    exact if_congr (by simp [Headers.has]) rfl rfl

theorem deliver_of_start {ctx : Context} {queued : List Write} (h : ctx.channel.Holds queued)
    (path : String) {f : Frame} (hf : f.isStart = true) :
    (Middleware.deliver ctx path f).2.2 = f.started ctx.state.locale queued := by
  obtain ⟨e, he, hq⟩ := h
  simp [Middleware.deliver, he, hf, Middleware.startHeaders, Frame.started, hq.cookieHeaders,
    ← languageHeader_append ctx.state.locale (f.headers.getD []) queued]

namespace Serving

/-- The locale that is remembered for the request. -/
def memo (s : Serving) : Option String := s.layer.bind (·.context.state.locale)

/-- The cookies that wait after an action. -/
def waiting (s : Serving) (queued : List Write) (a : Action) : List Write :=
  match s.layer with
  | some l => (s.deed a).waiting l.locales.settings l.context queued
  | none => queued

/-- What a server must see of an action, when some cookies wait. -/
def outgoing (s : Serving) (queued : List Write) : Action → List Frame
  | .send f => [if f.isStart then f.started s.memo queued else f]
  | _ => []

/-- What a server must see of actions in order. -/
def traffic (s : Serving) (queued : List Write) : List Action → List Frame
  | [] => []
  | a :: actions => s.outgoing queued a ++ traffic (s.perform a).state (s.waiting queued a) actions

/-- The request has a layer whose queue holds the cookies that wait. -/
def Holds (s : Serving) (queued : List Write) : Prop :=
  ∃ l, s.layer = some l ∧ l.context.channel.Holds queued

theorem holds_start (outer : Ambient) (ls : Locales) {kind : String}
    (h : Middleware.handles kind = true) (query path : String) (headers : Headers)
    (entries : Table StateEntry) (installed : Bool) :
    (start outer ls kind query path headers entries installed false).Holds [] := by
  simp only [start, h]
  exact ⟨_, rfl, _, rfl, rfl⟩

theorem Holds.perform {s : Serving} {queued : List Write} (h : s.Holds queued) (a : Action) :
    (s.perform a).state.Holds (s.waiting queued a) := by
  obtain ⟨l, hl, hq⟩ := h
  obtain ⟨next, hn, hf⟩ := (s.follows_perform a).layer l hl
  refine ⟨next, hn, ?_⟩
  rw [hf.channel, waiting, hl]
  exact Deed.holds_apply hq _ _

theorem Holds.sent_perform {s : Serving} {queued : List Write} (h : s.Holds queued) (a : Action) :
    (s.perform a).state.sent = s.sent ++ s.outgoing queued a := by
  by_cases ha : ∃ f, a = .send f
  · obtain ⟨f, rfl⟩ := ha
    obtain ⟨l, hl, hq⟩ := h
    have hs : (s.perform (.send f)).state.sent =
        s.sent ++ [(Middleware.deliver l.context s.path f).2.2] := by
      simp [Serving.perform, send, hl]
    rw [hs, outgoing]
    cases hf : f.isStart with
    | false => simp [Middleware.deliver_of_not_start hf]
    | true => simp [deliver_of_start hq _ hf, memo, hl]
  · have hne : ∀ f, a ≠ .send f := fun f he => ha ⟨f, he⟩
    rw [Serving.sent_perform hne]
    cases a with
    | send f => exact absurd rfl (hne f)
    | _ => simp [outgoing]

/-- A server sees what it must see, however a run goes on. -/
theorem Holds.sent_run {s : Serving} {queued : List Write} (h : s.Holds queued)
    (actions : List Action) : (s.run actions).1.sent = s.sent ++ s.traffic queued actions := by
  induction actions generalizing s queued with
  | nil => simp [run, traffic]
  | cons a actions ih =>
    have hr : (s.run (a :: actions)).1 = ((s.perform a).state.run actions).1 := rfl
    rw [hr, ih (h.perform a), h.sent_perform a, traffic, List.append_assoc]

/-! ## After the start of a response -/

/-- The response of the request has started. -/
def HasStarted (s : Serving) : Prop :=
  ∃ l, s.layer = some l ∧ l.context.channel.started = true

theorem Holds.hasStarted_perform {s : Serving} {queued : List Write} (h : s.Holds queued)
    (hs : s.HasStarted) (a : Action) : (s.perform a).state.HasStarted := by
  obtain ⟨l, hl, e, he, _⟩ := h
  obtain ⟨l', hl', hs⟩ := hs
  rw [hl] at hl'
  cases hl'
  obtain ⟨next, hn, hf⟩ := (s.follows_perform a).layer l hl
  refine ⟨next, hn, ?_⟩
  rw [hf.channel]
  exact Deed.started_apply hs _ fun _ _ _ hc => by rw [he] at hc; cases hc

theorem Holds.hasStarted_send {s : Serving} {queued : List Write} (h : s.Holds queued) {f : Frame}
    (hf : f.isStart = true) : (s.perform (.send f)).state.HasStarted := by
  obtain ⟨l, hl, e, he, _⟩ := h
  obtain ⟨next, hn, hd⟩ := (s.follows_perform (.send f)).layer l hl
  refine ⟨next, hn, ?_⟩
  rw [hd.channel]
  simp [deed, hf, Deed.apply, he, Channel.started, Exchange.start]

theorem Holds.hasStarted_run {s : Serving} {queued : List Write} (h : s.Holds queued)
    {actions : List Action}
    (hs : s.HasStarted ∨ ∃ f : Frame, .send f ∈ actions ∧ f.isStart = true) :
    (s.run actions).1.HasStarted := by
  induction actions generalizing s queued with
  | nil =>
    rcases hs with hs | ⟨f, hm, _⟩
    · exact hs
    · cases hm
  | cons a actions ih =>
    refine ih (h.perform a) ?_
    rcases hs with hs | ⟨f, hm, hf⟩
    · exact .inl (h.hasStarted_perform hs a)
    · rcases List.mem_cons.mp hm with rfl | hm
      · exact .inl (h.hasStarted_send hf)
      · exact .inr ⟨f, hm, hf⟩

/-- Once the response has started, resolving the locale sets no cookie. -/
theorem HasStarted.waiting {s : Serving} (h : s.HasStarted) {a : Action}
    (ha : ∀ w, a ≠ .act (.setCookie w)) : s.waiting [] a = [] := by
  obtain ⟨l, hl, hs⟩ := h
  simp only [Serving.waiting, hl]
  cases hd : s.deed a with
  | resolving => simp [Deed.waiting, Context.resolverCookie?_of_started hs]
  | writing w => exact absurd (eq_of_deed_eq_writing hd) (ha w)
  | _ => rfl

/-- **What leaves with the messages of an application.** The server sees the traffic of the run, and
once a response has started no cookie waits but those that the application sets itself. -/
theorem sent_eq_traffic (outer : Ambient) (ls : Locales) {kind : String}
    (h : Middleware.handles kind = true) (query path : String) (headers : Headers)
    (entries : Table StateEntry) (installed : Bool) (actions : List Action) :
    let first := start outer ls kind query path headers entries installed false
    (first.run actions).1.sent = first.traffic [] actions ∧
      ∀ before a, (∃ f : Frame, .send f ∈ before ∧ f.isStart = true) →
        (∀ w, a ≠ .act (.setCookie w)) → (first.run before).1.waiting [] a = [] := by
  intro first
  have holds : first.Holds [] := holds_start outer ls h query path headers entries installed
  have none : first.sent = [] := by
    simp only [first, start]
    split <;> rfl
  refine ⟨?_, fun before a hs ha => (holds.hasStarted_run (.inr hs)).waiting ha⟩
  rw [holds.sent_run actions, none, List.nil_append]

/-- The default settings, without bundles. -/
def sampleLocales : Locales := ⟨.withAliases [], ⟨[], "en_US", {}⟩⟩

/-- Two cookies wait for the start, one of them set twice; nothing waits afterwards. -/
def sampleActions : List Action :=
  [.act .getLocale, .act (.setCookie ⟨"seen", "1", 5, true⟩),
    .act (.setCookie ⟨"locale", "fr", 5, false⟩), .send ⟨"http.response.start", none, []⟩,
    .act .getLocale, .send ⟨"http.response.body", none, []⟩,
    .send ⟨"websocket.accept", some [("content-language", "xx")], []⟩]

theorem sent_sample :
    Middleware.handles "http" = true ∧
    ((start .empty sampleLocales "http" "locale=fr" "/" [("cookie", "locale=de")] {} true
      false).run sampleActions).1.sent.map (·.headers) =
      [some [("set-cookie", "locale=fr; Max-Age=5; Path=/; SameSite=lax"),
        ("set-cookie", "seen=1; HttpOnly; Max-Age=5; Path=/; SameSite=lax"),
        ("content-language", "fr")],
        none, some [("content-language", "xx")]] := by
  have handled : Middleware.handles "http" = true := by decide
  obtain ⟨sent, _⟩ := sent_eq_traffic .empty sampleLocales handled "locale=fr" "/"
    [("cookie", "locale=de")] {} true sampleActions
  rw [sent]
  exact ⟨handled, by decide +kernel⟩

end Serving

end RequestLocale
