import RequestLocale.Proofs.AskedLanguage
import RequestLocale.Proofs.CookieReturn
import RequestLocale.Proofs.Precedence

/-! # The locale of the next request

A client that says nothing else comes back with the cookie of its last request. The locale it then
gets is what its cookie stands for, by way of one alias more. So it gets the same locale again
exactly if that is no spelling of another one (`Context.recalls_iff`): where aliases form a chain,
each request moves one step on. The empty locale never comes back for certain, as its cookie counts
for nothing and the languages of the client are asked. -/
namespace RequestLocale

open Http (Headers)

/-! ## Carrying cookies over -/

theorem Text.not_mem_cut (sep : Char) (cs : List Char) : sep ∉ (cut sep cs).1 := by
  induction cs with
  | nil => simp [cut, cut?]
  | cons c cs ih =>
    by_cases h : c = sep
    · simp [cut, cut?, h]
    · rw [cut] at ih
      rw [cut, cut?, if_neg h]
      cases hc : cut? sep cs with
      | none => rw [hc] at ih; simpa [Ne.symm h] using ih
      | some parts => rw [hc] at ih; simpa [Ne.symm h] using ih

namespace Http.Cookie

/-- The cookies that a response sets, in order. -/
def setBy (response : Headers) : List (String × List Char) :=
  (response.all "set-cookie").map fieldsSet

/-- A request brings the cookies of an earlier one, as the response to that has changed them. -/
def Carries (next first response : Headers) : Prop :=
  ∀ name, Table.lastUnder (brought next) name =
    Table.lastUnder (brought first ++ setBy response) name

/-- The headers of a request, and those that bring what a response has set. -/
def carry (first response : Headers) : Headers :=
  first ++ (response.all "set-cookie").map fun text =>
    ("cookie", header [(Text.cut ';' text.toList).1])

theorem carries_carry (first response : Headers) :
    Carries (carry first response) first response := by
  have sent (texts : List String) :
      brought (texts.map fun text => ("cookie", header [(Text.cut ';' text.toList).1])) =
        texts.map fieldsSet := by
    induction texts with
    | nil => rfl
    | cons text texts ih =>
      rw [List.map_cons, ← List.singleton_append, brought_append, ih,
        brought_header (List.cons_ne_nil _ _) fun cookie hc => ?_]
      · rfl
      · rw [List.mem_singleton.mp hc]
        exact Text.not_mem_cut ';' _
  intro name
  rw [carry, brought_append, sent, setBy]

end Http.Cookie

namespace Table

variable {α : Type}

theorem mem_values_insert (t : Table α) (key : String) (value : α) :
    value ∈ (t.insert key value).values ∧
      ∀ other ∈ (t.insert key value).values, other = value ∨ other ∈ t.values := by
  have put (entries : List (String × α)) : value ∈ (Table.put key value entries).map (·.2) ∧
      ∀ other ∈ (Table.put key value entries).map (·.2),
        other = value ∨ other ∈ entries.map (·.2) := by
    induction entries with
    | nil => simp [Table.put]
    | cons entry entries ih =>
      simp only [Table.put]
      split
      · simp only [List.map_cons, List.mem_cons]
        exact ⟨.inl trivial, fun other h => h.imp_right .inr⟩
      · simp only [List.map_cons, List.mem_cons]
        refine ⟨.inr ih.1, ?_⟩
        rintro other (rfl | h)
        · exact .inr (.inl rfl)
        · exact (ih.2 other h).imp_right .inr
  exact put t.entries

end Table

open Http.Cookie (brought setBy Carries fieldsSet readValue)

namespace Exchange

theorem setBy_cookieHeaders (e : Exchange) :
    setBy e.cookieHeaders = e.pending.values.map fieldsSet := by
  have all (texts : List String) :
      Headers.all (texts.map ("set-cookie", ·)) "set-cookie" = texts := by
    induction texts with
    | nil => rfl
    | cons text texts ih => simpa [Headers.all] using ih
  rw [setBy, cookieHeaders, all]

/-- Of the cookies that wait after a decision, the locale cookie keeps the decision. -/
theorem lastUnder_setBy_queue {e : Exchange} {s : Settings}
    (legal : Http.Cookie.checkName s.cookieField = .ok ())
    (own : ∀ set ∈ setBy e.cookieHeaders, set.1 ≠ s.cookieField) (locale : String) :
    ∃ written, Table.lastUnder (setBy (e.queue s locale).cookieHeaders) s.cookieField =
      some written ∧ readValue written = locale := by
  let w : Http.Cookie.Write := ⟨s.cookieField, locale, s.cookieMaxAge, false⟩
  have set : fieldsSet w.text = (s.cookieField, w.written) :=
    Http.Cookie.fieldsSet_text (w := w) legal
  obtain ⟨mem, others⟩ := e.pending.mem_values_insert s.cookieField w.text
  refine ⟨w.written, ?_, Http.Cookie.readValue_written w⟩
  rw [setBy_cookieHeaders] at own ⊢
  refine Table.lastUnder_eq_some (List.mem_map.mpr ⟨w.text, mem, set⟩) fun entry hm hn => ?_
  obtain ⟨text, ht, rfl⟩ := List.mem_map.mp hm
  rcases others text ht with rfl | ht
  · rw [set]
  · exact absurd hn (own _ (List.mem_map_of_mem ht))

theorem wish_of_language {e : Exchange} {s : Settings} {tag : String}
    (hp : e.parameter? s.queryField = none) (hc : e.cookie? s.cookieField = some "")
    (hl : (AcceptLanguage.Outcome.several e.languages).first? = some tag) (hne : tag ≠ "") :
    (e.signals s).wish s.defaultLocale = (tag, .header) := by
  simp [signals, Signals.wish, Signals.nonempty?, Option.filter, hp, hc, hl, hne]

theorem wish_of_cookie {e : Exchange} {s : Settings} {locale : String}
    (hp : e.parameter? s.queryField = none) (hc : e.cookie? s.cookieField = some locale)
    (hne : locale ≠ "") : (e.signals s).wish s.defaultLocale = (locale, .cookie) := by
  simp [signals, Signals.wish, Signals.nonempty?, Option.filter, hp, hc, hne]

end Exchange

namespace Context

/-! ## The first request -/

/-- A request gets a locale before its response starts, and the response sets the locale cookie as
the decision has left it. Other cookies may be set as well, before the decision and after it. -/
structure Settles (s : Settings) (first : Exchange) (locale : String) (response : Headers) :
    Prop where
  early : first.started = false
  own : ∀ set ∈ setBy first.cookieHeaders, set.1 ≠ s.cookieField
  result : ((ofChannel (.http first)).resolve s).result = .ok locale
  sent : ∃ decided, ((ofChannel (.http first)).resolve s).state.channel = .http decided ∧
    Table.lastUnder (setBy response) s.cookieField =
      Table.lastUnder (setBy decided.cookieHeaders) s.cookieField

/-- The request that brings over the cookies brings the locale. -/
theorem Settles.cookie? {s : Settings} (h : s.IsAccepted) {first : Exchange}
    {locale : String} {response : Headers} (settled : Settles s first locale response)
    (next : Exchange) (carried : Carries next.headers first.headers response) :
    next.cookie? s.cookieField = some locale := by
  obtain ⟨answered, returned⟩ := ((ofChannel (.http first)).resolution s).over_exchange rfl
  obtain ⟨answer, channel⟩ := answered locale settled.result
  rw [← answer] at channel returned
  obtain ⟨decided, hd, sent⟩ := settled.sent
  rw [hd] at channel
  cases channel
  rw [Exchange.cookie?, Http.Cookie.value?_eq h.cookieField_ne_empty, carried,
    Table.lastUnder_append, sent]
  by_cases due : first.IsDue s locale
  · have legal := returned.mp ⟨locale, settled.result⟩ due
    obtain ⟨written, hw, hv⟩ := Exchange.lastUnder_setBy_queue legal settled.own locale
    rw [if_pos due, hw, Option.some_or, Option.map_some, hv]
  · have unset : Table.lastUnder (setBy first.cookieHeaders) s.cookieField = none :=
      Table.lastUnder_eq_none settled.own
    have kept : first.cookie? s.cookieField = some locale := by
      by_contra hn
      exact due ⟨hn, settled.early⟩
    rw [if_neg due, unset, Option.none_or, ← Http.Cookie.value?_eq h.cookieField_ne_empty]
    exact kept

/-! ## The request after it -/

/-- A request without a parameter gets what its cookie stands for. -/
theorem resolve_of_cookie {s : Settings} {e : Exchange} {locale : String}
    (hp : e.parameter? s.queryField = none) (hc : e.cookie? s.cookieField = some locale)
    (hne : locale ≠ "") :
    let step := (ofChannel (.http e)).resolve s
    (∀ answer, step.result = .ok answer → answer = (s.aliases.get? locale).getD locale) ∧
      ((s.aliases.get? locale).getD locale = locale →
        step.result = .ok locale ∧ step.state.channel = .http e) := by
  intro step
  have hl : ((e.signals s).decide s).locale = (s.aliases.get? locale).getD locale := by
    rw [Signals.decide, Exchange.wish_of_cookie hp hc hne]
  obtain ⟨answered, returned⟩ := ((ofChannel (.http e)).resolution s).over_exchange hl
  refine ⟨fun answer h => (answered answer h).1, fun fixed => ?_⟩
  rw [fixed] at answered returned
  have idle : ¬ e.IsDue s locale := fun due => due.1 hc
  obtain ⟨answer, ok⟩ := returned.mpr fun due => absurd due idle
  obtain ⟨rfl, channel⟩ := answered answer ok
  rw [if_neg idle] at channel
  exact ⟨ok, channel⟩

/-- Every request that brings over the cookies, and has no parameter, gets the locale again, and
nothing is set in its response. -/
def Recalls (s : Settings) (first : Headers) (response : Headers) (locale : String) : Prop :=
  ∀ query headers, let next := Exchange.ofRequest query headers
    next.parameter? s.queryField = none → Carries headers first response →
    ((ofChannel (.http next)).resolve s).result = .ok locale ∧
      ((ofChannel (.http next)).resolve s).state.channel = .http next ∧ next.cookieHeaders = []

/-- With the empty locale in its cookie a client gets any language that it asks for, if this has no
alias. -/
theorem not_recalls_empty {s : Settings} (h : s.IsAccepted) {first : Exchange} {response : Headers}
    (settled : Settles s first "" response) : ¬ Recalls s first.headers response "" := by
  intro recalls
  obtain ⟨tag, bare, unaliased⟩ := AcceptLanguage.exists_asked_not_key s.aliases
  let headers := ("accept-language", tag) :: Http.Cookie.carry first.headers response
  have carried : Carries headers first.headers response :=
    Http.Cookie.carries_carry first.headers response
  have brings := settled.cookie? h (.ofRequest "" headers) carried
  have asks : (AcceptLanguage.Outcome.several (Exchange.ofRequest "" headers).languages).first? =
      some tag := AcceptLanguage.first?_ranked bare
  have decided : (((Exchange.ofRequest "" headers).signals s).decide s).locale = tag := by
    rw [Signals.decide, Exchange.wish_of_language rfl brings asks bare.ne_empty]
    simp [unaliased]
  obtain ⟨answered, _⟩ := ((ofChannel (.http (.ofRequest "" headers))).resolution s).over_exchange
    decided
  obtain ⟨again, _⟩ := recalls "" headers rfl carried
  exact bare.ne_empty (answered "" again).1.symm

/-- **The locale of the next request.** -/
theorem recalls_iff {s : Settings} (h : s.IsAccepted) {first : Exchange} {locale : String}
    {response : Headers} (settled : Settles s first locale response) :
    Recalls s first.headers response locale ↔
      locale ≠ "" ∧ (s.aliases.get? locale).getD locale = locale := by
  constructor
  · intro recalls
    have hne : locale ≠ "" := by
      rintro rfl
      exact not_recalls_empty h settled recalls
    obtain ⟨again, _⟩ := recalls "" (Http.Cookie.carry first.headers response) rfl
      (Http.Cookie.carries_carry _ _)
    have brings := settled.cookie? h (.ofRequest "" _) (Http.Cookie.carries_carry _ _)
    exact ⟨hne, ((resolve_of_cookie rfl brings hne).1 locale again).symm⟩
  · rintro ⟨hne, fixed⟩ query headers next hp carried
    have brings := settled.cookie? h next carried
    obtain ⟨result, channel⟩ := (resolve_of_cookie hp brings hne).2 fixed
    exact ⟨result, channel, rfl⟩

/-! ## Tables of aliases -/

/-- The response that sends what waits after the decision, and nothing else. -/
theorem settles_of_result {s : Settings} {first : Exchange} {locale : String}
    (early : first.started = false) (own : ∀ set ∈ setBy first.cookieHeaders, set.1 ≠ s.cookieField)
    (hr : ((ofChannel (.http first)).resolve s).result = .ok locale) :
    Settles s first locale
      (if first.IsDue s locale then first.queue s locale else first).cookieHeaders := by
  obtain ⟨answered, _⟩ := ((ofChannel (.http first)).resolution s).over_exchange rfl
  obtain ⟨answer, channel⟩ := answered locale hr
  rw [← answer] at channel
  exact ⟨early, own, hr, _, channel, rfl⟩

theorem not_recalls {s : Settings} {first response : Headers} {locale : String}
    (headers : Headers) (other : String)
    (carried : brought headers = brought first ++ setBy response)
    (hp : (Exchange.ofRequest "" headers).parameter? s.queryField = none)
    (hr : ((ofChannel (.http (.ofRequest "" headers))).resolve s).result = .ok other)
    (hne : other ≠ locale) : ¬ Recalls s first response locale := by
  intro recalls
  obtain ⟨again, _⟩ := recalls "" headers hp fun name => by rw [carried]
  rw [hr] at again
  exact hne (Except.ok.inj again)

/-- A request that asks for a locale by its parameter, and has no cookies. -/
def asking (locale : String) : Exchange := .ofRequest ("locale=" ++ locale) []

/-- The header that sets the locale cookie under the default settings. -/
def cookieLine (written : String) : String × String :=
  ("set-cookie", "locale=" ++ written ++ "; Max-Age=31557600; Path=/; SameSite=lax")

theorem settles_asking {aliases : List (String × String)} {wished locale written : String}
    (hr : ((ofChannel (.http (asking wished))).resolve (.withAliases aliases)).result.toOption =
      some locale)
    (hs : (if (asking wished).IsDue (.withAliases aliases) locale then
      (asking wished).queue (.withAliases aliases) locale else asking wished).cookieHeaders =
        [cookieLine written]) :
    Settles (.withAliases aliases) (asking wished) locale [cookieLine written] := by
  rw [← hs]
  exact settles_of_result rfl (fun _ h => by cases h) (eq_ok_of_toOption hr)

theorem recalls_canonical :
    (Settings.withAliases [("zh-TW", "zh_TW")]).IsAccepted ∧
      Settles (.withAliases [("zh-TW", "zh_TW")]) (asking "zh-TW") "zh_TW" [cookieLine "zh_TW"] ∧
      Recalls (.withAliases [("zh-TW", "zh_TW")]) [] [cookieLine "zh_TW"] "zh_TW" := by
  have accepted := Settings.isAccepted_withAliases [("zh-TW", "zh_TW")]
  have settled : Settles (.withAliases [("zh-TW", "zh_TW")]) (asking "zh-TW") "zh_TW"
      [cookieLine "zh_TW"] :=
    settles_asking (by decide +kernel) (by decide +kernel)
  exact ⟨accepted, settled, (recalls_iff accepted settled).mpr (by decide +kernel)⟩

/-- Of two aliases in a row the next request takes the second one, and a cookie for the empty
locale does not keep the languages of the client from being asked. -/
theorem chained_moves_on :
    (Settings.withAliases [("zh", "zh-TW"), ("zh-TW", "zh_TW")]).IsAccepted ∧
      Settles (.withAliases [("zh", "zh-TW"), ("zh-TW", "zh_TW")]) (asking "zh") "zh-TW"
        [cookieLine "zh-TW"] ∧
      ¬ Recalls (.withAliases [("zh", "zh-TW"), ("zh-TW", "zh_TW")]) [] [cookieLine "zh-TW"]
        "zh-TW" ∧
    (Settings.withAliases [("zh", "")]).IsAccepted ∧
      Settles (.withAliases [("zh", "")]) (asking "zh") "" [cookieLine "\"\""] ∧
      ¬ Recalls (.withAliases [("zh", "")]) [] [cookieLine "\"\""] "" := by
  refine ⟨Settings.isAccepted_withAliases _, settles_asking ?_ ?_, ?_,
    Settings.isAccepted_withAliases _, settles_asking ?_ ?_, ?_⟩
  · decide +kernel
  · decide +kernel
  · exact not_recalls [("cookie", "locale=zh-TW")] "zh_TW"
      (by decide +kernel) rfl (eq_ok_of_toOption (by decide +kernel)) (by decide)
  · decide +kernel
  · decide +kernel
  · exact not_recalls [("cookie", "locale=\"\""), ("accept-language", "fr")] "fr"
      (by decide +kernel) rfl (eq_ok_of_toOption (by decide +kernel))
      (by decide)

end Context

end RequestLocale
