import RequestLocale.Proofs.CookieReturn
import RequestLocale.Proofs.Delivery
import RequestLocale.Proofs.Precedence

/-! # Headers that are added to a response

A locale comes from the client and may be any text. It reaches two headers. Into the cookie it goes
in percent coding, which has only characters that may stand in a name: so the first semicolon ends
the value, and the attributes behind it are those that the code writes. Into the header for the
language it goes as it is, but only if it is a language tag. Neither can hold a line end or leave
ASCII (`Serving.added_headers`). The cookies themselves are known: one keeps the locale of the
request, all others were set by the application. -/
namespace RequestLocale

open Http (Headers)
open Http.Cookie (Write isNameChar checkName)

/-! ## Characters -/

/-- A printable character of ASCII. -/
def Http.isPrintable (c : Char) : Bool := 0x20 ≤ c.toNat && c.toNat ≤ 0x7E

open Http (isPrintable)

/-- Language tags are written in characters of names. -/
theorem LanguageTag.isNameChar_of_accepts {inPart : Bool} {cs : List Char}
    (h : accepts inPart cs = true) {c : Char} (hc : c ∈ cs) : isNameChar c = true := by
  induction cs generalizing inPart with
  | nil => cases hc
  | cons d cs ih =>
    rw [accepts] at h
    split at h
    · rename_i plain
      rcases List.mem_cons.mp hc with rfl | hc
      · simp only [isPlain] at plain
        simp [isNameChar, plain]
      · exact ih h hc
    · simp only [Bool.and_eq_true] at h
      rcases List.mem_cons.mp hc with rfl | hc
      · simp only [isJoint, Bool.or_eq_true, beq_iff_eq] at h
        rcases h.1.1 with rfl | rfl <;> decide
      · exact ih h.2 hc

/-- A whole number is written in digits, with a hyphen before them if it is negative. -/
theorem Http.isNameChar_of_mem_toString {n : Int} {c : Char} (h : c ∈ (toString n).toList) :
    isNameChar c = true := by
  have digits (m : Nat) (hm : c ∈ (toString m).toList) : isNameChar c = true := by
    rw [Nat.toString_eq_ofList_toDigits, String.toList_ofList] at hm
    have digit := Nat.isDigit_of_mem_toDigits (by decide) (by decide) hm
    simp only [Char.isDigit, Bool.and_eq_true, decide_eq_true_eq] at digit
    simp only [isNameChar, Bool.or_eq_true, Bool.and_eq_true, decide_eq_true_eq]
    exact .inl (.inr ⟨digit.1, digit.2⟩)
  have written : toString n = if 0 ≤ n then toString n.toNat else "-" ++ toString (-n).toNat :=
    Int.repr_eq_if
  rw [written] at h
  split at h
  · exact digits _ h
  · rw [String.toList_append, List.mem_append] at h
    rcases h with h | h
    · obtain rfl : c = '-' := by simpa using h
      decide
    · exact digits _ h

/-! ## The text of a cookie -/

namespace Http.Cookie

open Text

/-- What follows name and value in the text of a cookie: one part for each attribute. -/
def Write.directives (w : Write) : List (List Char) :=
  (if w.httpOnly then [" HttpOnly".toList] else []) ++
    [" Max-Age=".toList ++ (toString w.maxAge).toList, " Path=/".toList, " SameSite=lax".toList]

theorem Write.toList_text (w : Write) : w.text.toList = join [';'] (w.pair :: w.directives) := by
  unfold Write.text Write.attributes Write.directives
  cases w.httpOnly <;> simp [join]

theorem isPartChar_of_mem_directives {w : Write} {part : List Char} (hp : part ∈ w.directives)
    {c : Char} (hc : c ∈ part) : isPartChar c = true := by
  have fixed : [" HttpOnly", " Max-Age=", " Path=/", " SameSite=lax"].all
      (fun text => text.toList.all isPartChar) = true := by decide
  have in_fixed (text : String)
      (ht : text ∈ [" HttpOnly", " Max-Age=", " Path=/", " SameSite=lax"])
      (hm : c ∈ text.toList) : isPartChar c = true :=
    List.all_eq_true.mp (List.all_eq_true.mp fixed text ht) c hm
  rw [Write.directives, List.mem_append] at hp
  rcases hp with hp | hp
  · split at hp
    · rw [List.mem_singleton.mp hp] at hc
      exact in_fixed " HttpOnly" (by decide) hc
    · cases hp
  · simp only [List.mem_cons, List.not_mem_nil, or_false] at hp
    rcases hp with rfl | rfl | rfl
    · rcases List.mem_append.mp hc with hc | hc
      · exact in_fixed " Max-Age=" (by decide) hc
      · exact isPartChar_of_isNameChar (isNameChar_of_mem_toString hc)
    · exact in_fixed " Path=/" (by decide) hc
    · exact in_fixed " SameSite=lax" (by decide) hc

theorem isPartChar_of_mem_part {w : Write} (h : checkName w.name = .ok ()) {part : List Char}
    (hp : part ∈ w.pair :: w.directives) {c : Char} (hc : c ∈ part) : isPartChar c = true := by
  rcases List.mem_cons.mp hp with rfl | hp
  · exact isPartChar_of_mem_pair h hc
  · exact isPartChar_of_mem_directives hp hc

/-- Up to the first semicolon the text has name and value, and behind it the attributes. -/
theorem split_text {w : Write} (h : checkName w.name = .ok ()) :
    split ';' w.text.toList = w.pair :: w.directives := by
  rw [Write.toList_text]
  refine split_join (List.cons_ne_nil _ _) fun part hp hc => ?_
  exact absurd (isPartChar_of_mem_part h hp hc) (by decide)

theorem isPrintable_of_isPartChar {c : Char} (h : isPartChar c = true) : isPrintable c = true := by
  rw [isPartChar, Bool.or_eq_true] at h
  rcases h with h | h
  · exact forall_of_isNameChar (isPrintable · = true) (by decide +kernel) h
  · have marks : " =/\"".toList.all isPrintable = true := by decide
    exact List.all_eq_true.mp marks c (List.contains_iff_mem.mp h)

theorem isPrintable_of_mem_text {w : Write} (h : checkName w.name = .ok ()) {c : Char}
    (hc : c ∈ w.text.toList) : isPrintable c = true := by
  rw [Write.toList_text] at hc
  rcases mem_join hc with hc | ⟨part, hp, hc⟩
  · obtain rfl : c = ';' := by simpa using hc
    decide
  · exact isPrintable_of_isPartChar (isPartChar_of_mem_part h hp hc)

end Http.Cookie

/-! ## Where cookies come from -/

/-- The cookie that keeps the locale of a request. -/
def Exchange.localeCookie (e : Exchange) (s : Settings) : Write :=
  ⟨s.cookieField, ((e.signals s).decide s).locale, s.cookieMaxAge, false⟩

/-- It depends on what came with the request, and not on what has happened since. -/
theorem Exchange.localeCookie_congr {e request : Exchange} (hq : e.query = request.query)
    (hh : e.headers = request.headers) (s : Settings) :
    e.localeCookie s = request.localeCookie s := by
  obtain ⟨query, headers, pending, started⟩ := e
  cases hq
  cases hh
  rfl

theorem Context.resolverCookie?_http {e : Exchange} {state : LocaleState} {s : Settings} {w : Write}
    (h : (⟨.http e, state⟩ : Context).resolverCookie? s = some w) : w = e.localeCookie s := by
  unfold resolverCookie? at h
  split at h
  · rename_i hs
    cases hs
    split at h
    · cases h
      rfl
    · cases h
  · cases h

/-- The channel is the exchange in which a request came. -/
def Channel.Brings (c : Channel) (request : Exchange) : Prop :=
  ∃ e, c = .http e ∧ e.query = request.query ∧ e.headers = request.headers

/-- Nothing that is done changes what came with a request. -/
theorem Deed.brings_apply {ctx : Context} {request : Exchange} (h : ctx.channel.Brings request)
    (s : Settings) (d : Deed) : (d.apply s ctx).channel.Brings request := by
  obtain ⟨e, he, hq, hh⟩ := h
  obtain ⟨channel, state⟩ := ctx
  cases he
  have write (w : Write) :
      ((⟨.http e, state⟩ : Context).write w).channel.Brings request := by
    simp only [Context.write, Context.setCookie_http]
    cases w.check with
    | ok _ => exact ⟨_, rfl, hq, hh⟩
    | error refusal => exact ⟨e, rfl, hq, hh⟩
  cases d with
  | nothing => exact ⟨e, rfl, hq, hh⟩
  | resolving =>
    rw [apply, Context.channel_resolve]
    cases (⟨.http e, state⟩ : Context).resolverCookie? s with
    | none => exact ⟨e, rfl, hq, hh⟩
    | some w => exact write w
  | writing w => exact write w
  | remembering locale => exact ⟨e, rfl, hq, hh⟩
  | starting => exact ⟨_, rfl, hq, hh⟩
  | scripting f => exact ⟨e, rfl, hq, hh⟩

/-- A cookie that can be written has a legal name. -/
theorem Http.Cookie.Write.checkName_of_isLegal {w : Write} (h : w.isLegal = true) :
    checkName w.name = .ok () := by
  unfold isLegal at h
  cases hc : w.check with
  | ok _ => exact (Write.check_eq_ok_iff.mp hc).1
  | error refusal => rw [hc] at h; cases h

/-- A cookie that waits after a deed waited before or has a legal name, and then it is that of the
locale of the request or was set by the deed. -/
theorem Deed.mem_waiting {ctx : Context} {request : Exchange} (h : ctx.channel.Brings request)
    {s : Settings} {d : Deed} {queued : List Write} {w : Write} (hw : w ∈ d.waiting s ctx queued) :
    w ∈ queued ∨
      checkName w.name = .ok () ∧ (w = request.localeCookie s ∨ d = .writing w) := by
  cases d with
  | resolving =>
    rw [waiting, List.mem_append, List.mem_filter, Option.mem_toList] at hw
    refine hw.imp_right fun set => ⟨Write.checkName_of_isLegal set.2, .inl ?_⟩
    obtain ⟨e, he, hq, hh⟩ := h
    obtain ⟨channel, state⟩ := ctx
    cases he
    rw [Context.resolverCookie?_http set.1, Exchange.localeCookie_congr hq hh]
  | writing v =>
    rw [waiting, List.mem_append, List.mem_filter, List.mem_singleton] at hw
    refine hw.imp_right fun set => ⟨Write.checkName_of_isLegal set.2, .inr ?_⟩
    rw [set.1]
  | starting => cases hw
  | nothing => exact .inl hw
  | remembering locale => exact .inl hw
  | scripting f => exact .inl hw

namespace Serving

/-- The cookies that wait after some actions are legal, and each is that of the locale of the
request or was set by one of the actions. -/
structure Awaits (settings : Settings) (request : Exchange) (done : List Action)
    (queued : List Write) (s : Serving) : Prop where
  layer : ∃ l, s.layer = some l ∧ l.locales.settings = settings ∧
    l.context.channel.Holds queued ∧ l.context.channel.Brings request
  legal : ∀ w ∈ queued, checkName w.name = .ok ()
  origin : ∀ w ∈ queued, w = request.localeCookie settings ∨ .act (.setCookie w) ∈ done

variable {settings : Settings} {request : Exchange} {done : List Action} {queued : List Write}
  {s : Serving}

theorem Awaits.holds (h : s.Awaits settings request done queued) : s.Holds queued := by
  obtain ⟨l, hl, _, hq, _⟩ := h.layer
  exact ⟨l, hl, hq⟩

/-- A cookie that has come to wait by an action is legal, and its origin is known. -/
theorem Awaits.mem_waiting (h : s.Awaits settings request done queued) {a : Action} {w : Write}
    (hw : w ∈ s.waiting queued a) :
    checkName w.name = .ok () ∧
      (w = request.localeCookie settings ∨ .act (.setCookie w) ∈ done ++ [a]) := by
  obtain ⟨l, hl, rfl, _, brings⟩ := h.layer
  simp only [waiting, hl] at hw
  rcases Deed.mem_waiting brings hw with old | ⟨legal, kept | written⟩
  · exact ⟨h.legal w old, (h.origin w old).imp_right (List.mem_append_left _)⟩
  · exact ⟨legal, .inl kept⟩
  · refine ⟨legal, .inr ?_⟩
    rw [← eq_of_deed_eq_writing written]
    exact List.mem_append_right _ List.mem_cons_self

theorem Awaits.perform (h : s.Awaits settings request done queued) (a : Action) :
    (s.perform a).state.Awaits settings request (done ++ [a]) (s.waiting queued a) := by
  refine ⟨?_, fun w hw => (h.mem_waiting hw).1, fun w hw => (h.mem_waiting hw).2⟩
  obtain ⟨l, hl, hs, hq, hb⟩ := h.layer
  obtain ⟨next, hn, hf⟩ := (s.follows_perform a).layer l hl
  have holds : next.context.channel.Holds (s.waiting queued a) := by
    rw [hf.channel, waiting, hl]
    exact Deed.holds_apply hq _ _
  have brings : next.context.channel.Brings request := by
    rw [hf.channel]
    exact Deed.brings_apply hb _ _
  exact ⟨next, hn, hf.settings.trans hs, holds, brings⟩

theorem Awaits.run (h : s.Awaits settings request done queued) (actions : List Action) :
    ∃ queued', (s.run actions).1.Awaits settings request (done ++ actions) queued' := by
  induction actions generalizing s done queued with
  | nil => exact ⟨queued, by simpa [Serving.run] using h⟩
  | cons a actions ih =>
    obtain ⟨queued', h'⟩ := ih (h.perform a)
    rw [List.append_assoc] at h'
    exact ⟨queued', h'⟩

theorem awaits_start (outer : Ambient) (ls : Locales) {kind : String}
    (h : Middleware.handles kind = true) (query path : String) (headers : Headers)
    (entries : Table StateEntry) (installed : Bool) :
    (start outer ls kind query path headers entries installed false).Awaits ls.settings
      (.ofRequest query headers) [] [] := by
  refine ⟨?_, fun w hw => (by cases hw), fun w hw => (by cases hw)⟩
  simp only [start, h]
  exact ⟨_, rfl, rfl, ⟨_, rfl, rfl⟩, ⟨_, rfl, rfl, rfl⟩⟩

end Serving

/-! ## What is added -/

theorem nodup_name_lastWrites (queued : List Write) : ((lastWrites queued).map (·.name)).Nodup := by
  have distinct := (Table.ofList (queued.map fun w => (w.name, w.text))).keys_nodup
  rw [Table.keys_ofList, List.map_map] at distinct
  rw [map_name_lastWrites]
  exact distinct

theorem mem_of_mem_lastWrites {queued : List Write} {w : Write} (h : w ∈ lastWrites queued) :
    w ∈ queued := by
  obtain ⟨name, _, hl⟩ := List.mem_filterMap.mp h
  exact (List.mem_filter.mp (List.mem_of_getLast? hl)).1

theorem isPrintable_of_mem_languageLine {memo : Option String} {own : Headers}
    {line : String × String} (h : line ∈ languageLine memo own) :
    ∀ c ∈ line.1.toList ++ line.2.toList, isPrintable c = true := by
  intro c hc
  unfold languageLine at h
  split at h
  · rename_i tag
    split at h
    · rename_i safe
      obtain rfl := List.mem_singleton.mp h
      rcases List.mem_append.mp hc with hc | hc
      · have name : "content-language".toList.all isPrintable = true := by decide
        exact List.all_eq_true.mp name c hc
      · have plain := LanguageTag.isNameChar_of_accepts safe.1 hc
        exact Http.Cookie.isPrintable_of_isPartChar (Http.Cookie.isPartChar_of_isNameChar plain)
    · cases h
  · cases h

theorem isPrintable_of_mem_cookieLine {w : Write} (h : checkName w.name = .ok ()) :
    ∀ c ∈ "set-cookie".toList ++ w.text.toList, isPrintable c = true := by
  intro c hc
  rcases List.mem_append.mp hc with hc | hc
  · have name : "set-cookie".toList.all isPrintable = true := by decide
    exact List.all_eq_true.mp name c hc
  · exact Http.Cookie.isPrintable_of_mem_text h hc

/-- Name and value as they stand in a header, the value in percent coding. -/
theorem Http.Cookie.Write.pair_eq_encode (w : Write) :
    w.pair = w.name.toList ++ '=' ::
      if w.value = "" then ['"', '"'] else Http.Percent.encode w.value.toList := by
  have coded : (Http.Percent.encode w.value.toList).isEmpty = true ↔ w.value = "" := by
    constructor
    · intro h
      exact String.toList_inj.mp (Http.Percent.encode_eq_nil (List.isEmpty_iff.mp h))
    · intro h
      rw [h]
      decide +kernel
  rw [Write.pair_eq, Write.written]
  exact congrArg _ (congrArg _ (if_congr coded rfl rfl))

namespace Serving

/-- **The headers that are added to the start of a response.** They are printable, and each cookie
is nothing but its name, its coded value and its attributes. What comes with a request decides one
of them at most. -/
theorem added_headers (outer : Ambient) (ls : Locales) {kind : String}
    (h : Middleware.handles kind = true) (query path : String) (headers : Headers)
    (entries : Table StateEntry) (installed : Bool) (before : List Action) {f : Frame}
    (hf : f.isStart = true) :
    let s := ((start outer ls kind query path headers entries installed false).run before).1
    let own := f.headers.getD []
    let kept := Exchange.localeCookie (.ofRequest query headers) ls.settings
    ∃ cookies : List Write,
      let added := cookies.map (fun w => ("set-cookie", w.text)) ++ languageLine s.memo own
      (s.perform (.send f)).state.sent = s.sent ++ [{ f with headers := some (own ++ added) }] ∧
      (∀ line ∈ added, ∀ c ∈ line.1.toList ++ line.2.toList, isPrintable c = true) ∧
      (∀ w ∈ cookies, Http.Cookie.IsLegalName w.name ∧
        Text.split ';' w.text.toList =
          (w.name.toList ++ '=' ::
            if w.value = "" then ['"', '"'] else Http.Percent.encode w.value.toList) ::
          w.directives) ∧
      (∀ w ∈ cookies, w = kept ∨ .act (.setCookie w) ∈ before) ∧
      ((∀ w, .act (.setCookie w) ∉ before) → cookies = [] ∨ cookies = [kept]) := by
  intro s own kept
  have first := awaits_start outer ls h query path headers entries installed
  obtain ⟨queued, waits⟩ := first.run before
  have origin : ∀ w ∈ lastWrites queued, w = kept ∨ .act (.setCookie w) ∈ before :=
    fun w hw => waits.origin w (mem_of_mem_lastWrites hw)
  refine ⟨lastWrites queued, ?_, ?_, fun w hw => ?_, origin, fun quiet => ?_⟩
  · have sent := waits.holds.sent_perform (.send f)
    rw [outgoing, if_pos hf, Frame.started, List.append_assoc] at sent
    exact sent
  · intro line hl
    rcases List.mem_append.mp hl with hl | hl
    · obtain ⟨w, hw, rfl⟩ := List.mem_map.mp hl
      exact isPrintable_of_mem_cookieLine (waits.legal w (mem_of_mem_lastWrites hw))
    · exact isPrintable_of_mem_languageLine hl
  · have legal := waits.legal w (mem_of_mem_lastWrites hw)
    refine ⟨Http.Cookie.checkName_eq_ok_iff.mp legal, ?_⟩
    rw [Http.Cookie.split_text legal, Http.Cookie.Write.pair_eq_encode]
  · -- All have one name then, and no name comes twice.
    have same : ∀ w ∈ lastWrites queued, w = kept :=
      fun w hw => (origin w hw).resolve_right (quiet w)
    have distinct := nodup_name_lastWrites queued
    rw [List.eq_replicate_of_mem same, List.map_replicate, List.nodup_replicate] at distinct
    rw [List.eq_replicate_of_mem same]
    rcases Nat.le_one_iff_eq_zero_or_eq_one.mp distinct with none | one
    · exact .inl (by rw [none]; rfl)
    · exact .inr (by rw [one]; rfl)

/-- A request that asks for a line end, another header, an attribute and a letter outside ASCII. -/
def hostileQuery : String := "locale=x%0D%0AA:b;%20Domain=%C3%A9"

/-- The start of a response without headers. -/
def bareStart : Frame := ⟨"http.response.start", none, []⟩

/-- All of it ends up in the value of the one cookie, and there is no header for the language. -/
theorem hostile_added :
    Middleware.handles "http" = true ∧ bareStart.isStart = true ∧
    let s := ((start .empty sampleLocales "http" hostileQuery "/" [] {} true false).run
      [.act .getLocale]).1
    s.memo = some "x\x0D\nA:b; Domain=é" ∧
    (s.perform (.send bareStart)).state.sent.map (·.headers) = [some
      [("set-cookie",
        "locale=x%0D%0AA%3Ab%3B%20Domain%3D%C3%A9; Max-Age=31557600; Path=/; SameSite=lax")]] ∧
    ∀ f ∈ (s.perform (.send bareStart)).state.sent, ∀ line ∈ f.headers.getD [],
      ∀ c ∈ line.1.toList ++ line.2.toList, isPrintable c = true := by
  have handled : Middleware.handles "http" = true := by decide
  have isStart : bareStart.isStart = true := by decide
  obtain ⟨cookies, sent, printable, _⟩ := added_headers .empty sampleLocales handled hostileQuery
    "/" [] {} true [.act .getLocale] isStart
  refine ⟨handled, isStart, by decide +kernel, by decide +kernel, fun f hf line hl => ?_⟩
  rw [sent] at hf
  obtain rfl := List.mem_singleton.mp hf
  exact printable line hl

end Serving

end RequestLocale
