import RequestLocale.Proofs.CookieReturn
import RequestLocale.Proofs.OneBundle
import RequestLocale.Proofs.PageReply
import RequestLocale.Proofs.Rendering

/-! # The page of a bundle

The page shows the messages of a bundle, or reports that the bundle is not loaded. The report asks
for the locale of the request twice, once for its header and once for its text, and gets the same
one (`Context.resolve_again`), so text, header and what the middleware remembers agree. Yet the
report also names the path of the request, which is read back from the address, and there are
requests whose address cannot be read. They get no report at all (`Service.answer_bundle`). -/
namespace RequestLocale

/-! ## The way to the page -/

namespace Page

open Text

/-- The paths to the page of a bundle. A line break may follow at the very end. -/
structure IsBundlePath (path locale : String) : Prop where
  named : locale ≠ ""
  single : '/' ∉ locale.toList
  parts : ∃ last, (last = "messages" ∨ last = "messages\n") ∧
    path = "/v1/locales/" ++ locale ++ "/" ++ last

theorem split_bundlePath {locale last : String} (h : '/' ∉ locale.toList)
    (hl : '/' ∉ last.toList) :
    split '/' ("/v1/locales/" ++ locale ++ "/" ++ last).toList =
      [[], "v1".toList, "locales".toList, locale.toList, last.toList] := by
  have path : ("/v1/locales/" ++ locale ++ "/" ++ last).toList =
      [] ++ '/' :: ("v1".toList ++ '/' :: ("locales".toList ++ '/' ::
        (locale.toList ++ '/' :: last.toList))) := by
    simp
  rw [path, split_append (by decide), split_append (by decide), split_append (by decide),
    split_append h, split_of_not_mem hl]

theorem isLast_iff {word : String} {part : List Char} :
    isLast word part = true ↔ part = word.toList ∨ part = word.toList ++ ['\n'] := by
  simp [isLast]

theorem parameter?_eq_some_iff {part : List Char} {s : String} :
    parameter? part = some s ↔ part = s.toList ∧ s ≠ "" := by
  unfold parameter?
  cases part with
  | nil =>
    constructor
    · rintro ⟨⟩
    · rintro ⟨h, named⟩
      exact absurd (String.toList_eq_nil_iff.mp h.symm) named
  | cons c part =>
    constructor
    · rintro ⟨⟩
      exact ⟨String.toList_ofList.symm, by simp [← String.toList_inj]⟩
    · rintro ⟨h, _⟩
      change some (String.ofList (c :: part)) = some s
      rw [h, String.ofList_toList]

theorem ofParts?_eq_bundle_iff {parts : List (List Char)} {locale : String} :
    ofParts? parts = some (.bundle locale) ↔ locale ≠ "" ∧
      ∃ last, isLast "messages" last = true ∧
        parts = ["v1".toList, "locales".toList, locale.toList, last] := by
  constructor
  · intro h
    unfold ofParts? at h
    split at h
    · split at h <;> cases h
    · split at h <;> cases h
    · split at h
      · rename_i third _
        cases hp : parameter? third <;> rw [hp] at h <;> cases h
      · cases h
    · rename_i base second third last
      split at h
      · rename_i fits
        simp only [Bool.and_eq_true, beq_iff_eq] at fits
        obtain ⟨s, hs, same⟩ := Option.map_eq_some_iff.mp h
        cases same
        obtain ⟨rfl, named⟩ := parameter?_eq_some_iff.mp hs
        exact ⟨named, last, fits.2, by rw [fits.1.1, fits.1.2]⟩
      · cases h
    · cases h
  · rintro ⟨named, last, hl, rfl⟩
    have third : parameter? locale.toList = some locale := parameter?_eq_some_iff.mpr ⟨rfl, named⟩
    rw [ofParts?, hl, third]
    rfl

/-- A path leads to the page of a bundle exactly if the locale stands in its place. -/
theorem ofPath?_eq_bundle_iff (failing : Table Failure) (path locale : String) :
    ofPath? failing path = some (.bundle locale) ↔ IsBundlePath path locale := by
  constructor
  · intro h
    unfold ofPath? at h
    split at h
    · rename_i parts hs
      split at h
      · rename_i page _ hp
        cases h
        obtain ⟨named, last, hl, rfl⟩ := ofParts?_eq_bundle_iff.mp hp
        have joined := join_split '/' path.toList
        rw [hs] at joined
        refine ⟨named, not_mem_split '/' path.toList (by rw [hs]; simp), String.ofList last, ?_, ?_⟩
        · rcases isLast_iff.mp hl with rfl | rfl
          · exact .inl rfl
          · exact .inr rfl
        · rw [← String.toList_inj, ← joined]
          simp [join]
      · obtain ⟨found, _, same⟩ := Option.map_eq_some_iff.mp h
        cases same
      · cases h
    · cases h
  · rintro ⟨named, single, last, hl, rfl⟩
    have plain : '/' ∉ last.toList := by
      rcases hl with rfl | rfl <;> decide
    have isLast : isLast "messages" last.toList = true := by
      rw [isLast_iff]
      rcases hl with rfl | rfl
      · exact .inl rfl
      · exact .inr (by decide)
    rw [ofPath?, split_bundlePath single plain]
    simp only [ofParts?_eq_bundle_iff.mpr ⟨named, last.toList, isLast, rfl⟩]

end Page

/-! ## The language of the page -/

namespace Context

/-- A request whose locale has been resolved gets it again, the empty one too. -/
theorem resolve_again {e : Exchange} {state : LocaleState} {s : Settings} {locale : String}
    (h : ((⟨.http e, state⟩ : Context).resolve s).result = .ok locale) :
    (((⟨.http e, state⟩ : Context).resolve s).state.resolve s).result = .ok locale := by
  have heard : (⟨.http e, state⟩ : Context).channel.isCapable = true := rfl
  have memo := locale_of_resolve heard h
  have capable := isCapable_resolve ⟨.http e, state⟩ s
  have first := resolution ⟨.http e, state⟩ s
  generalize Context.resolve ⟨.http e, state⟩ s = step at h memo capable first ⊢
  have kept := locale_resolve memo s
  have answer {found : String} (hr : (step.state.resolve s).result = .ok found) :=
    locale_of_resolve capable hr
  have second := step.state.resolution s
  generalize step.state.resolve s = again at kept answer second ⊢
  cases hr : again.result with
  | ok found =>
    cases (answer hr).symm.trans kept
    rfl
  | error f =>
    -- Only a refused cookie fails, and the first time it was not refused.
    cases second with
    | refused hk' hs' hw' hset' =>
      cases first with
      | known hk => rw [hk] at hk'; cases hk'
      | outside _ hs => cases hs
      | refused => cases h
      | written _ _ _ hset =>
        obtain ⟨refusal, _, illegal⟩ := checkName_of_refused capable hset'
        have legal := checkName_of_setCookie hset
        rw [illegal] at legal
        cases legal
      | quiet _ hs hw =>
        cases hs
        cases hs'
        rw [hw] at hw'
        cases hw'
    | _ => cases hr

/-- The channel of a request stays an exchange when its locale is resolved. -/
theorem http_resolve {ctx : Context} {e : Exchange} (h : ctx.channel = .http e) (s : Settings) :
    ∃ after, (ctx.resolve s).state.channel = .http after := by
  obtain ⟨after, hc, _⟩ := Deed.http_apply h s .resolving
  exact ⟨after, hc⟩

end Context

/-- Going on after a call that has succeeded. -/
theorem Step.result_bind {σ ε α β : Type} {step : Step σ ε α} {a : α} (h : step.result = .ok a)
    (next : σ → α → Step σ ε β) : (step.bind next).result = (next step.state a).result := by
  simp only [bind, h]

theorem Step.state_bind {σ ε α β : Type} {step : Step σ ε α} {a : α} (h : step.result = .ok a)
    (next : σ → α → Step σ ε β) : (step.bind next).state = (next step.state a).state := by
  simp only [bind, h]

namespace Locales

/-- Once the locale is resolved, a text is taken from the messages of that locale. -/
theorem result_translate {ls : Locales} {ctx : Context} (h : ctx.IsCoherent ls) {locale : String}
    (hr : (ctx.resolve ls.settings).result = .ok locale) (key : String) (args : List Value) :
    (ls.translate ctx (some key) args).result =
      (Message.render (some (ls.loader.get locale)) key args).mapError .format := by
  have memo := Context.locale_of_resolve h.capable hr
  obtain ⟨after, attached, _, _, messages⟩ := ls.ensureAttached_coherent h.resolve memo
  have resolved : (ls.getLocale ctx).result = .ok locale := hr
  rw [translate, Step.result_bind resolved, getLocale, attached]
  simp only [messages]

end Locales

/-! ## The message of the page -/

/-- A record of texts can be put into every message. -/
theorem Message.render_record (messages : Option Messages) (key : String) {entries : Entries}
    (texts : ∀ entry ∈ entries, ∃ s, entry.2 = .text s) :
    ∃ text, render messages key [.record entries] = .ok text := by
  rw [(tries_render messages key _).returns_iff]
  intro f hf e refused
  unfold steps at hf
  split at hf
  · cases hf
  · obtain ⟨label, _, hl⟩ := List.mem_flatMap.mp hf
    unfold Template.Named.steps at hl
    split at hl
    · cases hl
    · rename_i v found
      obtain ⟨name, hm⟩ := Entries.exists_mem_of_find? found
      obtain ⟨s, rfl⟩ := texts _ hm
      rcases List.mem_cons.mp hl with rfl | hl
      · cases refused
      · split at hl
        · rw [List.mem_singleton.mp hl] at refused
          exact Template.Directive.not_refuses_shown_text e refused
        · cases hl

/-! ## The address -/

namespace Request

/-- The characters of the host in the address of a request. -/
def addressHost (r : Request) (server : String) : List Char :=
  (r.addressChars server).takeWhile (!Http.Address.endsHost ·)

/-- A request whose address can be read back: its query is text, and nothing is wrong with its
host. -/
structure HasAddress (r : Request) (server : String) : Prop where
  query : ∃ text, Text.Utf8.decode r.queryBytes = .ok text
  host : Http.Address.hostFault? (r.addressHost server) = none

theorem addressPath_of_query {r : Request} {e : Text.Utf8.Error}
    (h : Text.Utf8.decode r.queryBytes = .error e) (server : String) :
    r.addressPath server = .error (.address (.query e)) := by
  rw [addressPath, queryText, h]
  rfl

theorem addressPath_of_host {r : Request} {server : String} {text : List Char}
    (hq : Text.Utf8.decode r.queryBytes = .ok text) {fault : Http.Address.Fault}
    (hh : Http.Address.hostFault? (r.addressHost server) = some fault) :
    r.addressPath server = .error (.address fault) := by
  have path : Http.Address.path? (r.addressChars server) = .error fault := by
    rw [Http.Address.path?, ← addressHost, hh]
  rw [addressPath, queryText, hq, path]
  rfl

theorem HasAddress.exists_path {r : Request} {server : String} (h : r.HasAddress server) :
    ∃ path, r.addressPath server = .ok path := by
  obtain ⟨text, hq⟩ := h.query
  obtain ⟨path, found⟩ : ∃ path, Http.Address.path? (r.addressChars server) = .ok path := by
    rw [Http.Address.path?, ← addressHost, h.host]
    exact ⟨_, rfl⟩
  rw [addressPath, queryText, hq, found]
  exact ⟨_, rfl⟩

/-- The address of a request is read back, or it is known why not. -/
theorem hasAddress_iff {r : Request} {server : String} :
    r.HasAddress server ↔ ∃ path, r.addressPath server = .ok path := by
  refine ⟨HasAddress.exists_path, fun ⟨path, found⟩ => ?_⟩
  cases hq : Text.Utf8.decode r.queryBytes with
  | error e => rw [addressPath_of_query hq] at found; cases found
  | ok text =>
    cases hh : Http.Address.hostFault? (r.addressHost server) with
    | some fault => rw [addressPath_of_host hq hh] at found; cases found
    | none => exact ⟨⟨text, hq⟩, hh⟩

end Request

/-! ## Pages of errors -/

namespace Service

variable {svc : Service} {r : Request}

theorem isCoherent_context (svc : Service) (r : Request) : r.context.IsCoherent svc.locales :=
  ⟨rfl, by rintro a ⟨⟩⟩

/-- The text under the key of an error, in a language. -/
def IsTextOf (svc : Service) (language : String) (e : ReportedError) (key text : String) : Prop :=
  Message.render (some (svc.locales.loader.get language)) key [.record e.params] = .ok text

/-- The message of an error whose text is known. A text that is its own key stands for none. -/
def messageOf (e : ReportedError) (key text : String) : String :=
  if text = key then e.message else text

theorem errorMessage_of_key {e : ReportedError} {key : String} (hk : e.messageKey = some key)
    (hne : key.isEmpty = false) (ctx : Context) :
    svc.errorMessage ctx e =
      (svc.translate ctx key [.record e.params]).map (messageOf e key) := by
  have kept : e.messageKey.filter (!·.isEmpty) = some key := by simp [hk, hne, Option.filter]
  simp only [errorMessage, kept]
  rfl

/-- An error with a key and with texts as its parameters gets its message in the language that the
context resolves to, and that is remembered. -/
theorem errorMessage_of_resolved {e : ReportedError} {key : String} (hk : e.messageKey = some key)
    (hne : key.isEmpty = false) (texts : ∀ entry ∈ e.params, ∃ s, entry.2 = .text s)
    {ctx : Context} (coherent : ctx.IsCoherent svc.locales) {exchange : Exchange}
    (channel : ctx.channel = .http exchange) {language : String}
    (h : (ctx.resolve svc.locales.settings).result = .ok language) :
    ∃ text, svc.IsTextOf language e key text ∧
      (svc.errorMessage ctx e).result = .ok (messageOf e key text) ∧
      (svc.errorMessage ctx e).state.state.locale = some language ∧
      ∃ after, (svc.errorMessage ctx e).state.channel = .http after := by
  obtain ⟨text, rendered⟩ :=
    Message.render_record (some (svc.locales.loader.get language)) key texts
  have translated := Locales.result_translate coherent h key [.record e.params]
  rw [rendered] at translated
  obtain ⟨same, memo⟩ := svc.locales.translate_eq ctx key [.record e.params]
  obtain ⟨after, kept⟩ := Context.http_resolve channel svc.locales.settings
  rw [errorMessage_of_key hk hne]
  refine ⟨text, rendered, ?_, memo.trans (Context.locale_of_resolve coherent.capable h), after,
    same.trans kept⟩
  simp only [Step.map, translate, Step.mapError, translated]
  rfl

/-- The page of such an error, whose text and whose header are in the language of the request. There
is no page without an address. -/
theorem errorPage_of_key {e : ReportedError} {key : String} (hk : e.messageKey = some key)
    (hne : key.isEmpty = false) (texts : ∀ entry ∈ e.params, ∃ s, entry.2 = .text s)
    {language : String} (h : (r.context.resolve svc.locales.settings).result = .ok language)
    (server : String) :
    ∃ text, svc.IsTextOf language e key text ∧
      let page := svc.errorPage r r.context server e
      page.result = (match r.addressPath server with
        | .error f => .error f
        | .ok _ => (Response.json e.status (languageHeader language)
            (.record (e.reportWith (messageOf e key text)))).mapError .json) ∧
      page.state.state.locale = some language ∧ ∃ after, page.state.channel = .http after := by
  have asked : (svc.getLocale r.context).result = .ok language := by
    rw [getLocale, Step.mapError, Locales.getLocale, h]
    rfl
  have coherent : (svc.getLocale r.context).state.IsCoherent svc.locales :=
    (svc.isCoherent_context r).resolve
  have channel : r.context.channel = .http (.ofRequest r.query r.headers) := rfl
  obtain ⟨_, resolved⟩ := Context.http_resolve channel svc.locales.settings
  obtain ⟨text, rendered, message, memo, kept⟩ :=
    errorMessage_of_resolved hk hne texts coherent resolved (Context.resolve_again h)
  refine ⟨text, rendered, ?_⟩
  simp only [errorPage, Step.result_bind asked, Step.state_bind asked, Step.result_bind message,
    Step.state_bind message]
  cases r.addressPath server with
  | error f => exact ⟨rfl, memo, kept⟩
  | ok path => exact ⟨rfl, memo, kept⟩

/-- The header of such a page and the remembered language are one language. -/
theorem languagesWith_languageHeader (language : String) :
    (languageHeader language).languagesWith (some language) =
      if LanguageTag.isTag language then [language] else [] := by
  cases ht : LanguageTag.isTag language <;>
    simp [languageHeader, ht, Http.Headers.languagesWith, Http.Headers.has, Http.Headers.all]

/-! ## Bundles -/

/-- A request for the messages of a locale. -/
structure AsksForBundle (r : Request) (locale : String) : Prop where
  method : r.method = "GET"
  path : Page.IsBundlePath r.path locale

/-- The messages of a bundle as a client reads them. -/
def messagesRecord (messages : Messages) : Value :=
  .record ((textEntries messages).map Json.named)

theorem isLegible_messagesRecord (messages : Messages) : (messagesRecord messages).IsLegible := by
  refine .record _ ?_ ?_
  · simpa [textEntries, Function.comp_def] using messages.distinct
  · intro entry he
    obtain ⟨_, _, rfl⟩ := List.mem_map.mp he
    exact .text _

/-- The report of a bundle that is not loaded as a client reads it. -/
def absenceRecord (locale message : String) : Value :=
  .record [(.text "error_code", .text "LOCALE_NOT_FOUND"), (.text "message", .text message),
    (.text "details", .record [(.text "locale", .text locale)]),
    (.text "message_key", .text "error_locale_not_found")]

theorem isLegible_absenceRecord (locale message : String) :
    (absenceRecord locale message).IsLegible := by
  have details : (Value.record [(.text "locale", .text locale)]).IsLegible :=
    .record [("locale", .text locale)] (by simp) (by simp [Value.IsLegible.text])
  refine .record [("error_code", .text "LOCALE_NOT_FOUND"), ("message", .text message),
    ("details", .record [(.text "locale", .text locale)]),
    ("message_key", .text "error_locale_not_found")] (by simp) ?_
  simp [details, Value.IsLegible.text]

/-- The reply tells a client, in a language, that the bundle of a locale is not loaded. -/
def TellsAbsence (svc : Service) (reply : Reply) (locale language : String) : Prop :=
  ∃ text, Message.render (some (svc.locales.loader.get language)) "error_locale_not_found"
      [.record [(.text "locale", .text locale)]] = .ok text ∧
    reply.Shows 404
      (absenceRecord locale
        (if text = "error_locale_not_found" then "Locale not found: " ++ locale else text))
      (if LanguageTag.isTag language then [language] else [])

section Answers

variable {locale : String} (h : AsksForBundle r locale)
include h

theorem route_of_asksForBundle (ctx : Context) (server : String) :
    svc.route r ctx server = svc.pageOrReport r ctx server (.bundle locale) := by
  rw [route, (Page.ofPath?_eq_bundle_iff svc.failing r.path locale).mpr h.path]
  exact if_pos h.method

theorem answer_of_loaded {own : Messages}
    (loaded : svc.locales.loader.bundles.get? (Locale.normalize locale) = some own)
    (server fresh : String) :
    (svc.answer r server fresh).Shows 200 (messagesRecord own) [] := by
  have legible := isLegible_messagesRecord own
  obtain ⟨response, hj, _⟩ := Response.json_of_isLegible 200 [] legible
  have has : svc.locales.loader.hasLocale locale = true := by
    simp [Resource.Loader.hasLocale, Table.contains, loaded]
  have get : svc.locales.loader.get locale = own := by
    simp [Resource.Loader.get, Resource.Loader.serving?, Table.contains, loaded]
  have page : svc.bundlePage r.context locale = .still r.context (.ok response) := by
    rw [bundlePage, if_pos has, get, respond]
    exact congrArg (fun x => Step.still r.context (x.mapError Failure.json)) hj
  have routed : svc.route r r.context server = .still r.context (.ok response) := by
    rw [route_of_asksForBundle h]
    simp only [pageOrReport, Service.page, page, Step.still]
  have result : (svc.route r r.context server).result =
      (Response.json 200 [] (messagesRecord own)).mapError .json := by
    rw [routed, hj]
    rfl
  have channel : (svc.route r r.context server).state.channel =
      .http (.ofRequest r.query r.headers) := by
    rw [routed]
    rfl
  have shown := shows_of_route legible result channel fresh
  rw [routed] at shown
  exact shown

/-- Without the bundle the page is that of the error. -/
theorem route_of_absent
    (absent : svc.locales.loader.bundles.get? (Locale.normalize locale) = none)
    (server : String) :
    (svc.route r r.context server).result =
        (svc.errorPage r r.context server (.localeNotFound locale)).result ∧
      (svc.route r r.context server).state =
        (svc.errorPage r r.context server (.localeNotFound locale)).state := by
  have has : svc.locales.loader.hasLocale locale = false := by
    simp [Resource.Loader.hasLocale, Table.contains, absent]
  have page : svc.bundlePage r.context locale =
      .still r.context (.error (.reported (.localeNotFound locale))) := by
    rw [bundlePage, has]
    rfl
  rw [route_of_asksForBundle h]
  simp [pageOrReport, Service.page, page, Step.still]

theorem answer_of_absent
    (absent : svc.locales.loader.bundles.get? (Locale.normalize locale) = none)
    {language : String} (resolved : (r.context.resolve svc.locales.settings).result = .ok language)
    (server fresh : String) :
    (r.HasAddress server → svc.TellsAbsence (svc.answer r server fresh) locale language) ∧
      ∀ f, r.addressPath server = .error f → (svc.answer r server fresh).Breaks f := by
  obtain ⟨text, rendered, page, memo, e, channel⟩ :=
    errorPage_of_key (e := .localeNotFound locale) rfl rfl (by simp [ReportedError.params])
      resolved server
  obtain ⟨result, state⟩ := route_of_absent h absent server
  rw [← state] at memo channel
  refine ⟨fun address => ⟨text, rendered, ?_⟩, fun f missing => ?_⟩
  · obtain ⟨path, found⟩ := address.exists_path
    rw [found] at page
    have shown := shows_of_route (isLegible_absenceRecord _ _) (result.trans page) channel fresh
    rwa [memo, languagesWith_languageHeader] at shown
  · rw [missing] at page
    exact breaks_of_route (result.trans page) fresh

/-- **The answer to a request for a bundle.** A bundle of its own is shown, entry by entry, whatever
else the request holds. A bundle that is not loaded is reported in the language of the request,
exactly if the address of the request can be read back; otherwise the request fails. -/
theorem answer_bundle (svc : Service) (server fresh : String) :
    (∀ own, svc.locales.loader.bundles.get? (Locale.normalize locale) = some own →
      (svc.answer r server fresh).Shows 200 (messagesRecord own) []) ∧
    (svc.locales.loader.bundles.get? (Locale.normalize locale) = none →
      ∀ language, (r.context.resolve svc.locales.settings).result = .ok language →
        (svc.TellsAbsence (svc.answer r server fresh) locale language ↔ r.HasAddress server) ∧
        ∀ f, r.addressPath server = .error f → (svc.answer r server fresh).Breaks f) := by
  refine ⟨fun own loaded => answer_of_loaded h loaded server fresh,
    fun absent language resolved => ?_⟩
  obtain ⟨told, broken⟩ := answer_of_absent h absent resolved server fresh
  refine ⟨⟨fun ⟨text, _, shown⟩ => Request.hasAddress_iff.mpr ?_, told⟩, broken⟩
  cases ha : r.addressPath server with
  | ok path => exact ⟨path, rfl⟩
  | error f => exact absurd shown (broken f ha).not_shows

end Answers

/-- A service with the shipped bundles only. -/
def ofShipped : Service := ⟨⟨.withAliases [], ⟨[], "en_US", shipped⟩⟩, {}⟩

/-- A request for the messages of a locale. -/
def asking (locale query : String) : Request :=
  ⟨"GET", "/v1/locales/" ++ locale ++ "/messages", query, []⟩

theorem asksForBundle_asking (locale : String) (named : locale ≠ "")
    (single : '/' ∉ locale.toList) (query : String) :
    AsksForBundle (asking locale query) locale :=
  ⟨rfl, named, single, "messages", .inl rfl, by simp [asking, String.append_assoc]⟩

/-- The messages of a bundle, and the report of one that is missing in the language of the query. -/
theorem answer_zh_CN_xx :
    AsksForBundle (asking "zh-CN" "") "zh-CN" ∧
      ofShipped.locales.loader.bundles.get? (Locale.normalize "zh-CN") = some chinese ∧
      (ofShipped.answer (asking "zh-CN" "") "testserver" "id").Shows 200
        (messagesRecord chinese) [] ∧
    AsksForBundle (asking "xx" "locale=fr_FR") "xx" ∧
      ofShipped.locales.loader.bundles.get? (Locale.normalize "xx") = none ∧
      ((asking "xx" "locale=fr_FR").context.resolve ofShipped.locales.settings).result =
        .ok "fr_FR" ∧
      ofShipped.TellsAbsence (ofShipped.answer (asking "xx" "locale=fr_FR") "testserver" "id")
        "xx" "fr_FR" := by
  have loaded := asksForBundle_asking "zh-CN" (by decide) (by decide) ""
  have absent := asksForBundle_asking "xx" (by decide) (by decide) "locale=fr_FR"
  have own : ofShipped.locales.loader.bundles.get? (Locale.normalize "zh-CN") = some chinese := by
    decide +kernel
  have missing : ofShipped.locales.loader.bundles.get? (Locale.normalize "xx") = none := by
    decide +kernel
  have resolved : ((asking "xx" "locale=fr_FR").context.resolve
      ofShipped.locales.settings).result = .ok "fr_FR" :=
    eq_ok_of_toOption (by decide +kernel)
  have told := ((answer_bundle absent ofShipped "testserver" "id").2 missing "fr_FR" resolved).1
  have address : (asking "xx" "locale=fr_FR").HasAddress "testserver" :=
    ⟨⟨"locale=fr_FR".toList, eq_ok_of_toOption (by decide +kernel)⟩, by decide +kernel⟩
  exact ⟨loaded, own, (answer_bundle loaded ofShipped "testserver" "id").1 chinese own,
    absent, missing, resolved, told.mpr address⟩

/-- The report is missing where the query of the request is not text. -/
theorem absence_of_stray_byte :
    AsksForBundle (asking "xx" "ÿ") "xx" ∧
      ofShipped.locales.loader.bundles.get? (Locale.normalize "xx") = none ∧
      ((asking "xx" "ÿ").context.resolve ofShipped.locales.settings).result = .ok "en_US" ∧
      (ofShipped.answer (asking "xx" "ÿ") "testserver" "id").Breaks
        (.address (.query ⟨.startByte, 0, [0xFF]⟩)) ∧
      ¬ ofShipped.TellsAbsence (ofShipped.answer (asking "xx" "ÿ") "testserver" "id") "xx"
        "en_US" := by
  have asks := asksForBundle_asking "xx" (by decide) (by decide) "ÿ"
  have absent : ofShipped.locales.loader.bundles.get? (Locale.normalize "xx") = none := by
    decide +kernel
  have resolved : ((asking "xx" "ÿ").context.resolve ofShipped.locales.settings).result =
      .ok "en_US" :=
    eq_ok_of_toOption (by decide +kernel)
  have undecoded : Text.Utf8.decode (asking "xx" "ÿ").queryBytes =
      .error ⟨.startByte, 0, [0xFF]⟩ := by
    have stray : (asking "xx" "ÿ").queryBytes = [0xFF] := by decide
    rw [stray, Text.Utf8.decode, Text.Utf8.decodeFrom]
    rfl
  have broken := (answer_of_absent asks absent resolved "testserver" "id").2 _
    (Request.addressPath_of_query undecoded "testserver")
  refine ⟨asks, absent, resolved, broken, ?_⟩
  rintro ⟨_, _, shown⟩
  exact broken.not_shows shown

end Service

end RequestLocale
