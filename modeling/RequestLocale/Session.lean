import RequestLocale.Ambient

/-! The actions of code that serves a request, one after the other, on the layer of the request.
Every action leaves a layer, reports events, and has an answer or fails; after a failure the next
action goes on with the layer that was left. -/
namespace RequestLocale

/-- The layer of a request, whether its translator is current, and what else surrounds the code. -/
structure Session where
  layer : Layer
  isCurrent : Bool
  outer : Ambient

namespace Session

inductive Action where
  | translate (key : Option String) (args : List Value)
  | getLocale
  /-- The name under which templates find the translator. -/
  | functionName
  | attach (messages : Option Messages)
  | attachBundle
  | remember (locale : String)
  | parameter (name : String)
  | cookie (name : String)
  | setCookie (w : Http.Cookie.Write)
  | languages
  | hasCapabilities
  /-- The locale that is remembered. -/
  | locale
  /-- Sends the waiting cookies with some headers. -/
  | applyCookies (headers : Http.Headers)
  | addBundle (locale : String) (entries : Entries)
  | currentTranslate (key : Option String) (args : List Value)
  | currentLocale
  | isBound
  | addLocale (fields : Entries)
  /-- Changes a parameter of a scripted channel. -/
  | setParameter (name : String) (value : Option String)
  /-- Says of a scripted channel whether the response has started. -/
  | setStarted (started : Bool)

/-- What an action needs of the context it is used on. -/
def Action.needs : Action → Option String
  | .translate none _ | .functionName | .hasCapabilities | .addBundle .. | .currentTranslate ..
  | .currentLocale | .isBound | .addLocale _ => none
  | .translate (some _) _ | .getLocale | .attachBundle | .remember _ => some "locale_state"
  | .attach _ => some "attach_resource_mapping"
  | .parameter _ => some "get_query_param"
  | .cookie _ => some "get_cookie"
  | .setCookie _ => some "set_cookie"
  | .languages => some "negotiate_languages"
  | .locale => some "locale"
  | .applyCookies _ => some "apply_pending_cookies"
  | .setParameter .. => some "query"
  | .setStarted _ => some "started"

inductive Answer where
  | nothing
  | text (s : String)
  | optional (s : Option String)
  | outcome (o : Option AcceptLanguage.Outcome)
  | truth (b : Bool)
  | headers (hs : Http.Headers)
  | fields (entries : Entries)

/-- What the code of a session finds around it. -/
def ambient (s : Session) : Ambient := if s.isCurrent then s.outer.bind s.layer else s.outer

/-- The session after something has changed around its code. -/
def withAmbient (s : Session) (a : Ambient) : Session :=
  match s.isCurrent, a.current? with
  | true, some layer => { s with layer := layer, outer := a.release }
  | _, _ => { s with outer := a }

theorem withAmbient_ambient (s : Session) : s.withAmbient s.ambient = s := by
  obtain ⟨layer, isCurrent, outer⟩ := s
  cases isCurrent <;> rfl

def withContext (s : Session) (ctx : Context) : Session :=
  { s with layer := { s.layer with context := ctx } }

abbrev Result := Step Session Failure Answer

def still (s : Session) (answer : Answer) : Result := ⟨s, [], .ok answer⟩

def missing (s : Session) (capability : String) : Result :=
  ⟨s, [], .error (.call (.missing capability))⟩

/-- Runs a call on the context. -/
def onContext {α : Type} (s : Session) (call : Locales → Context → Step Context CallError α)
    (answer : α → Answer) : Result :=
  let step := s.layer.run call
  ⟨{ s with layer := step.state }, step.events, (step.result.map answer).mapError .call⟩

/-- Runs a call of code that is handed nothing. -/
def onAmbient {α : Type} (s : Session) (call : Ambient → Step Ambient Failure α)
    (answer : α → Answer) : Result :=
  let step := call s.ambient
  ⟨s.withAmbient step.state, step.events, step.result.map answer⟩

/-- Replaces the context, or fails. -/
def change (s : Session) (r : Except CallError Context) : Result :=
  match r with
  | .ok ctx => ⟨s.withContext ctx, [], .ok .nothing⟩
  | .error e => ⟨s, [], .error (.call e)⟩

/-- Changes a scripted channel; other channels stay. -/
def script (s : Session) (f : Script → Script) : Result :=
  match s.layer.context.channel with
  | .scripted c =>
    ⟨s.withContext { s.layer.context with channel := .scripted (f c) }, [], .ok .nothing⟩
  | _ => s.still .nothing

def parameter (s : Session) (name : String) : Result :=
  match s.layer.context.channel with
  | .http e => s.still (.optional (e.parameter? name))
  | .scripted c => s.still (.optional (c.parameters.get? name))
  | _ => s.missing "get_query_param"

def cookie (s : Session) (name : String) : Result :=
  match s.layer.context.channel with
  | .http e => s.still (.optional (e.cookie? name))
  | .scripted c => s.still (.optional (c.cookies.get? name))
  | _ => s.missing "get_cookie"

def languages (s : Session) : Result :=
  match s.layer.context.channel with
  | .http e => s.still (.outcome (some (.several e.languages)))
  | .scripted c => s.still (.outcome c.languages)
  | _ => s.missing "negotiate_languages"

def applyCookies (s : Session) (headers : Http.Headers) : Result :=
  match s.layer.context.channel with
  | .http e =>
    ⟨s.withContext { s.layer.context with channel := .http e.start }, [],
      .ok (.headers (headers ++ e.cookieHeaders))⟩
  | _ => s.missing "apply_pending_cookies"

def locale (s : Session) : Result :=
  match s.layer.context.channel with
  | .stateOnly => s.missing "locale"
  | _ => s.still (.optional s.layer.context.state.locale)

def hasCapabilities (s : Session) : Bool :=
  match s.layer.context.channel with
  | .http _ | .scripted _ => true
  | .absent | .stateOnly => false

def addBundle (s : Session) (locale : String) (entries : Entries) : Result :=
  let (loader, result) := s.layer.locales.loader.addBundle locale entries
  ⟨{ s with layer := { s.layer with locales := { s.layer.locales with loader := loader } } }, [],
    (result.map fun _ => .nothing).mapError .flatten⟩

def perform (s : Session) : Action → Result
  | .translate key args => s.onContext (fun ls ctx => ls.translate ctx key args) .text
  | .getLocale => s.onContext Locales.getLocale .text
  | .functionName => s.still (.text s.layer.locales.settings.functionName)
  | .attach messages => s.change (s.layer.context.attach (messages.map .given))
  | .attachBundle => s.onContext Locales.attachBundle fun _ => .nothing
  | .remember locale =>
    ⟨s.withContext (s.layer.context.remember locale), [],
      .ok (.text (s.layer.context.state.remembered locale))⟩
  | .parameter name => s.parameter name
  | .cookie name => s.cookie name
  | .setCookie w => s.change (s.layer.context.setCookie w)
  | .languages => s.languages
  | .hasCapabilities => s.still (.truth s.hasCapabilities)
  | .locale => s.locale
  | .applyCookies headers => s.applyCookies headers
  | .addBundle locale entries => s.addBundle locale entries
  | .currentTranslate key args => s.onAmbient (·.translate key args) .text
  | .currentLocale => s.onAmbient Ambient.getLocale .text
  | .isBound => s.still (.truth s.ambient.isBound)
  | .addLocale fields => s.still (.fields (s.ambient.addLocale fields))
  | .setParameter name value => s.script fun c =>
      { c with parameters := match value with
        | some v => c.parameters.insert name v
        | none => c.parameters.erase name }
  | .setStarted started => s.script fun c => { c with started := started }

/-- Performs actions in order. -/
def run (s : Session) : List Action → Session × List Result
  | [] => (s, [])
  | action :: actions =>
    let result := s.perform action
    let (last, results) := run result.state actions
    (last, result :: results)

end Session

end RequestLocale
