import RequestLocale.LanguageTag
import RequestLocale.Session
import RequestLocale.Text.Order

/-! The layer between a server and an application. It gives every request of the right kind a
context and a translator, keeps them in the state of the request, and lets the waiting cookies and
the language go out with the start of the response. Everything that is sent is passed on once and
in order (`sent_send`), and nothing but the headers of a start changes (`deliver_of_not_start`,
`kind_deliver`, `rest_deliver`).

A frame is a message as it is when it is sent. Headers go into the application's own message, so one
that is sent a second time is a frame that has them already. -/
namespace RequestLocale

/-- What an application sends: its kind, its headers if it has any, and the rest. -/
structure Frame where
  kind : String
  headers : Option Http.Headers
  rest : Entries

namespace Frame

/-- Whether a frame starts a response and so carries headers. -/
def isStart (f : Frame) : Bool :=
  f.kind == "http.response.start" || f.kind == "websocket.accept"

end Frame

/-- An entry in the state of a request. -/
inductive StateEntry where
  | context
  | translator
  | other (value : Value)

namespace Middleware

/-- The key of the context in the state of a request. -/
def contextKey : String := "_locale_context"

/-- Whether requests of a kind get a context. -/
def handles (kind : String) : Bool := kind == "http" || kind == "websocket"

/-- The header for a language, if it may stand in one and the application has not set it. -/
def languageHeader (locale : Option String) (headers : Http.Headers) : Http.Headers :=
  match locale with
  | some tag =>
    if LanguageTag.isTag tag && !headers.has "content-language" then [("content-language", tag)]
    else []
  | none => []

/-- The headers of a start as they go out. -/
def startHeaders (e : Exchange) (locale : Option String) (headers : Http.Headers) : Http.Headers :=
  let headers := headers ++ e.cookieHeaders
  headers ++ languageHeader locale headers

/-- The report of cookies that have gone out. -/
def sentCookies (locale : Option String) (path : String) : Log.Event :=
  ⟨.info, "locale_cookie_written", [("locale", Log.optional locale), ("path", .text path)]⟩

/-- Passes a frame on. -/
def deliver (ctx : Context) (path : String) (f : Frame) : Context × List Log.Event × Frame :=
  match ctx.channel with
  | .http e =>
    if f.isStart then
      let locale := ctx.state.locale
      ({ ctx with channel := .http e.start },
        if e.pending.isEmpty then [] else [sentCookies locale path],
        { f with headers := some (startHeaders e locale (f.headers.getD [])) })
    else (ctx, [], f)
  | _ => (ctx, [], f)

theorem deliver_of_not_start {f : Frame} (h : f.isStart = false) (ctx : Context) (path : String) :
    deliver ctx path f = (ctx, [], f) := by
  unfold deliver
  split
  · rw [if_neg (by simp [h])]
  · rfl

theorem kind_deliver (ctx : Context) (path : String) (f : Frame) :
    (deliver ctx path f).2.2.kind = f.kind := by
  unfold deliver
  split
  · split <;> rfl
  · rfl

theorem rest_deliver (ctx : Context) (path : String) (f : Frame) :
    (deliver ctx path f).2.2.rest = f.rest := by
  unfold deliver
  split
  · split <;> rfl
  · rfl

/-- The state of a request with the context and the translator in it. -/
def stateEntries (ls : Locales) (entries : Table StateEntry) : Table StateEntry :=
  (entries.insert contextKey .context).insert ls.settings.functionName .translator

end Middleware

/-- A request that is being served. It has a layer of its own unless the middleware passes it on
untouched, or does not stand before the application. -/
structure Serving where
  locales : Locales
  layer : Option Layer
  /-- What surrounds the middleware. -/
  outer : Ambient
  entries : Table StateEntry
  /-- Whether the application was told of its `Locales`. -/
  installed : Bool
  path : String
  sent : List Frame

namespace Serving

open Middleware

/-- Begins to serve a request. -/
def start (outer : Ambient) (ls : Locales) (kind query path : String) (headers : Http.Headers)
    (entries : Table StateEntry) (installed bypass : Bool) : Serving :=
  if handles kind && !bypass then
    let context := Context.ofChannel (.http (.ofRequest query headers))
    ⟨ls, some ⟨ls, context⟩, outer, stateEntries ls entries, installed, path, []⟩
  else ⟨ls, none, outer, entries, installed, path, []⟩

/-- The session of the code that serves the request. Its translator is current only with a layer;
without one the context says nothing. -/
def session (s : Serving) : Session :=
  match s.layer with
  | some layer => ⟨layer, true, s.outer⟩
  | none => ⟨⟨s.locales, .ofLocale none⟩, false, s.outer⟩

/-- The request after its code has done something. -/
def withSession (s : Serving) (after : Session) : Serving :=
  { s with
    locales := after.layer.locales
    layer := s.layer.map fun _ => after.layer
    outer := after.outer }

/-- The report of an application that was not told of its `Locales`. -/
def notInstalled : ReportedError :=
  .configuration "Locales are not installed on this application" []

def noContext : ReportedError := .configuration "LocaleMiddleware is not installed" []

/-- The context that handlers find in the state of the request. -/
def context? (s : Serving) : Except ReportedError StateEntry :=
  match s.entries.get? contextKey with
  | none | some (.other .none) => .error noContext
  | some entry => .ok entry

/-- The locale that a handler gets through the context it finds. -/
def locale (s : Serving) : Step Serving Failure String :=
  if !s.installed then .still s (.error (.reported notInstalled))
  else match s.context?, s.layer with
    | .error e, _ => .still s (.error (.reported e))
    | .ok .context, some layer =>
      let step := layer.run Locales.getLocale
      ⟨{ s with layer := some step.state }, step.events, step.result.mapError .call⟩
    | .ok _, _ => .still s (.error (.call (.missing "locale_state")))

/-- What a template is given: the translator under its name, and the locale. -/
def templateEntries (s : Serving) : Step Serving Failure (Table StateEntry) :=
  s.locale.map fun locale =>
    (Table.insert {} s.locales.settings.functionName .translator).insert "locale"
      (.other (.text locale))

/-- Sends a frame through the middleware. -/
def send (s : Serving) (f : Frame) : Serving × List Log.Event × Frame :=
  match s.layer with
  | none => ({ s with sent := s.sent ++ [f] }, [], f)
  | some layer =>
    let (ctx, events, f) := deliver layer.context s.path f
    ({ s with layer := some { layer with context := ctx }, sent := s.sent ++ [f] }, events, f)

theorem sent_send (s : Serving) (f : Frame) :
    (s.send f).1.sent = s.sent ++ [(s.send f).2.2] := by
  unfold send
  split <;> rfl

/-- What code behind the middleware does. -/
inductive Action where
  | act (a : Session.Action)
  | call (key : Option String) (args : List Value)
  | send (f : Frame)
  /-- Asks for the names in the state of the request. -/
  | entryNames
  /-- Asks whether there is a `Locales` for handlers. -/
  | hasLocales
  /-- Asks whether there is a context for handlers. -/
  | hasContext
  | locale
  | templateEntries

inductive Answer where
  | session (a : Session.Answer)
  | frame (f : Frame)
  | names (ss : List String)
  | found
  | text (s : String)
  | entries (es : Table StateEntry)

/-- Runs an action with the layer of the request. -/
def within (s : Serving) (a : Session.Action) : Step Serving Failure Session.Answer :=
  let step := s.session.perform a
  ⟨s.withSession step.state, step.events, step.result⟩

/-- Whether code finds the context of the request in its place. A translator of the same name takes
the place, and without a layer there is no context at all. -/
def keepsContext (s : Serving) : Bool :=
  match s.layer, s.entries.get? contextKey with
  | some _, some .context => true
  | _, _ => false

/-- Runs an action on what code finds in the place of the context. Without a context only those
actions work that do without it; a translator in its place still knows the locale. -/
def act (s : Serving) (a : Session.Action) : Step Serving Failure Session.Answer :=
  if s.keepsContext then s.within a
  else match a.needs, a, s.layer with
    | some _, .locale, some _ => s.within .getLocale
    | some capability, _, _ => .still s (.error (.call (.missing capability)))
    | none, .hasCapabilities, _ => .still s (.ok (.truth false))
    | none, _, _ => s.within a

/-- Calls the translator in the state of the request. -/
def call (s : Serving) (key : Option String) (args : List Value) :
    Step Serving Failure Session.Answer :=
  match s.layer with
  | some _ => s.within (.translate key args)
  | none => s.act (.translate key args)

def perform (s : Serving) : Action → Step Serving Failure Answer
  | .act a => (s.act a).map .session
  | .call key args => (s.call key args).map .session
  | .send f =>
    let (after, events, sent) := s.send f
    ⟨after, events, .ok (.frame sent)⟩
  | .entryNames => .still s (.ok (.names (Text.sorted s.entries.keys)))
  | .hasLocales =>
    .still s (if s.installed then .ok .found else .error (.reported notInstalled))
  | .hasContext => .still s ((s.context?.map fun _ => .found).mapError .reported)
  | .locale => s.locale.map .text
  | .templateEntries => s.templateEntries.map .entries

/-- Performs actions in order. -/
def run (s : Serving) : List Action → Serving × List (Step Serving Failure Answer)
  | [] => (s, [])
  | action :: actions =>
    let result := s.perform action
    let (last, results) := run result.state actions
    (last, result :: results)

end Serving

end RequestLocale
