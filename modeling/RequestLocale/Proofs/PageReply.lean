import RequestLocale.Proofs.JsonReading
import RequestLocale.Service.Answer

/-! # What becomes of a page

A page leaves through the middleware, which adds headers and changes nothing else. Of these headers
one names a language: the remembered one, unless the page names a language itself. So what a client
is shown can be told from the page and from what its request remembers (`Service.shows_of_route`),
and a failure that is no page leaves nothing to show (`Service.breaks_of_route`). -/
namespace RequestLocale

/-- A reply that goes out as a page: its status, what a client reads of its body, and the languages
that it names. -/
structure Reply.Shows (reply : Reply) (status : Int) (content : Value) (languages : List String) :
    Prop where
  returned : reply.raised = none
  status : reply.response.status = status
  content : Json.read reply.response.body.toList = .ok content
  languages : reply.response.headers.all "content-language" = languages

/-- A reply that passes a failure on, and tells the client nothing about it. -/
structure Reply.Breaks (reply : Reply) (f : Failure) : Prop where
  raised : reply.raised = some f
  response : reply.response = .broken

theorem Reply.Breaks.not_shows {reply : Reply} {f : Failure} (h : reply.Breaks f) {status : Int}
    {content : Value} {languages : List String} : ¬ reply.Shows status content languages := by
  intro shown
  have raised := h.raised
  rw [shown.returned] at raised
  cases raised

/-! ## Languages -/

namespace Http.Headers

/-- The languages that headers name in the end: their own, or else the one that is remembered. -/
def languagesWith (own : Headers) (memo : Option String) : List String :=
  if own.has "content-language" then own.all "content-language"
  else (memo.filter LanguageTag.isTag).toList

theorem all_append (hs more : Headers) (name : String) :
    (hs ++ more).all name = hs.all name ++ more.all name := by
  simp [all]

theorem has_append (hs more : Headers) (name : String) :
    (hs ++ more).has name = (hs.has name || more.has name) :=
  List.any_append

theorem all_of_has {hs : Headers} {name : String} (h : hs.has name = false) : hs.all name = [] := by
  simp only [has, List.any_eq_false] at h
  simp only [all, List.map_eq_nil_iff, List.filter_eq_nil_iff]
  exact h

theorem languagesWith_append {more : Headers} (h : more.has "content-language" = false)
    (own : Headers) (memo : Option String) :
    (own ++ more).languagesWith memo = own.languagesWith memo := by
  rw [languagesWith, has_append, h, Bool.or_false, all_append, all_of_has h, List.append_nil,
    languagesWith]

end Http.Headers

namespace Middleware

open Http.Headers

theorem all_languageHeader (memo : Option String) (own : Http.Headers) :
    own.all "content-language" ++ (languageHeader memo own).all "content-language" =
      own.languagesWith memo := by
  cases hh : own.has "content-language" with
  | true => cases memo <;> simp [languageHeader, languagesWith, hh, all]
  | false =>
    rw [all_of_has hh]
    cases memo with
    | none => simp [languageHeader, languagesWith, hh, all]
    | some tag =>
      cases ht : LanguageTag.isTag tag <;>
        simp [languageHeader, languagesWith, hh, ht, all, Option.filter]

/-- Cookies are no languages. -/
theorem all_startHeaders (e : Exchange) (memo : Option String) (own : Http.Headers) :
    (startHeaders e memo own).all "content-language" = own.languagesWith memo := by
  have cookies : e.cookieHeaders.has "content-language" = false := by
    simp [Exchange.cookieHeaders, has]
  rw [startHeaders, all_append, all_languageHeader, languagesWith_append cookies]

end Middleware

/-! ## Pages -/

namespace Response

/-- A legible value becomes a response, to whose headers its length and its kind are added. -/
theorem json_of_isLegible (status : Int) (headers : Http.Headers) {content : Value}
    (h : content.IsLegible) : ∃ response, json status headers content = .ok response ∧
      response.status = status ∧ Json.read response.body.toList = .ok content ∧
      ∀ memo, response.headers.languagesWith memo = headers.languagesWith memo := by
  obtain ⟨body, hj, hr⟩ := h.read_json
  refine ⟨_, by rw [json, hj]; rfl, rfl, by rw [String.toList_ofList, hr], fun memo => ?_⟩
  have length : (lengthHeader status body).has "content-language" = false := by
    unfold lengthHeader
    split <;> simp [Http.Headers.has]
  rw [Http.Headers.languagesWith_append (by rfl), Http.Headers.languagesWith_append length]

end Response

/-- The context with which a request is answered. -/
abbrev Request.context (r : Request) : Context := .ofChannel (.http (.ofRequest r.query r.headers))

namespace Service

variable {svc : Service} {r : Request} {server : String}

/-- What goes out differs from the response in its headers only. -/
theorem sendOut_http {ctx : Context} {e : Exchange} (h : ctx.channel = .http e) (path : String)
    (response : Response) : (sendOut ctx path response).2 =
      { response with
        headers := Middleware.startHeaders e ctx.state.locale response.headers } := by
  simp [sendOut, Middleware.deliver, h, Frame.isStart]

theorem answer_of_ok {response : Response}
    (h : (svc.route r r.context server).result = .ok response) (fresh : String) :
    (svc.answer r server fresh).raised = none ∧
      (svc.answer r server fresh).response =
        (sendOut (svc.route r r.context server).state r.path { response with
          headers := response.headers ++ [("x-request-id", identifier r fresh)] }).2 := by
  simp [answer, h]

/-- A page with a legible body is shown, in the languages of its headers or else in the one that is
remembered. -/
theorem shows_of_route {status : Int} {headers : Http.Headers} {content : Value}
    (legible : content.IsLegible)
    (h : (svc.route r r.context server).result =
      (Response.json status headers content).mapError .json) {e : Exchange}
    (hc : (svc.route r r.context server).state.channel = .http e) (fresh : String) :
    (svc.answer r server fresh).Shows status content
      (headers.languagesWith (svc.route r r.context server).state.state.locale) := by
  obtain ⟨response, hj, hs, read, same⟩ := Response.json_of_isLegible status headers legible
  rw [hj] at h
  have identified : Http.Headers.has [("x-request-id", identifier r fresh)] "content-language" =
      false := rfl
  obtain ⟨raised, sent⟩ := answer_of_ok h fresh
  rw [sendOut_http hc] at sent
  refine ⟨raised, by rw [sent]; exact hs, by rw [sent]; exact read, ?_⟩
  rw [sent, Middleware.all_startHeaders, Http.Headers.languagesWith_append identified, same]

/-- A failure that is no page is passed on. -/
theorem breaks_of_route {f : Failure} (h : (svc.route r r.context server).result = .error f)
    (fresh : String) : (svc.answer r server fresh).Breaks f := by
  constructor <;> simp [answer, h]

end Service

end RequestLocale
