import RequestLocale.Middleware

/-! Code around which translators are bound. A scope and the middleware bind a translator for the
code inside of them, and release it however that code ends (`around`). Such code nests in any way,
goes on as it likes after a failure inside, and cannot bind or release anything by itself. -/
namespace RequestLocale

/-- The layer of a scope outside of requests, with a locale that may be given. -/
def Layer.scope (ls : Locales) (locale : Option String) : Layer := ⟨ls, .ofLocale locale⟩

namespace Ambient

/-- What code calls. Bound translators are counted from the current one. -/
inductive Call where
  | install (fs : Resource.FileSystem) (settings : Option Settings)
      (loader : Settings → Except Failure (Option Resource.Loader))
  | uninstall
  | setVariable (name : String) (value : Option String)
  | forget
  | settings
  | getLocale
  | translate (key : Option String) (args : List Value)
  | isBound
  | addLocale (fields : Entries)
  /-- Acts on the context of a bound translator. -/
  | use (i : Nat) (a : Session.Action)
  /-- Sends a frame through the middleware that has bound a translator. -/
  | pass (i : Nat) (path : String) (f : Frame)

inductive Answer where
  | nothing
  | locales (ls : Locales)
  | settings (s : Settings)
  | text (s : String)
  | truth (b : Bool)
  | fields (entries : Entries)
  | session (a : Session.Answer)
  | frame (f : Frame)

/-- The translators that a call needs, the first `n` that are bound being enough. -/
def Call.reaches (n : Nat) : Call → Bool
  | .use i _ | .pass i _ _ => i < n
  | .getLocale | .translate .. | .isBound | .addLocale _ => 0 < n
  | _ => true

/-- Acts on the context of a bound translator, which knows what surrounds it if it is current. -/
def use (a : Ambient) (i : Nat) (action : Session.Action) : Step Ambient Failure Session.Answer :=
  match a.layers[i]? with
  | none => .still a (.error (.call (.missing "locale_state")))
  | some layer =>
    let step := (⟨layer, i == 0, if i = 0 then a.release else a⟩ : Session).perform action
    let after := step.state.ambient
    ⟨{ after with layers := after.layers.set i step.state.layer }, step.events, step.result⟩

/-- Sends a frame through the middleware that has bound a translator. -/
def pass (a : Ambient) (i : Nat) (path : String) (f : Frame) :
    Ambient × List Log.Event × Frame :=
  match a.layers[i]? with
  | none => (a, [], f)
  | some layer =>
    let (ctx, events, f) := Middleware.deliver layer.context path f
    ({ a with layers := a.layers.set i { layer with context := ctx } }, events, f)

def perform (a : Ambient) : Call → Step Ambient Failure Answer
  | .install fs settings loader => (a.installWith fs settings loader).map .locales
  | .uninstall => .still (a.install none) (.ok .nothing)
  | .setVariable name value => .still (a.setVariable name value) (.ok .nothing)
  | .forget => .still a.forget (.ok .nothing)
  | .settings =>
    let (a, result) := a.settings
    ⟨a, [], (result.map .settings).mapError .settings⟩
  | .getLocale => a.getLocale.map .text
  | .translate key args => (a.translate key args).map .text
  | .isBound => .still a (.ok (.truth a.isBound))
  | .addLocale fields => .still a (.ok (.fields (a.addLocale fields)))
  | .use i action => (a.use i action).map .session
  | .pass i path f =>
    let (a, events, f) := a.pass i path f
    ⟨a, events, .ok (.frame f)⟩

/-- What happens around code, one after the other. -/
inductive Move where
  | call (c : Call)
  | enter (l : Layer)
  | leave

def move (a : Ambient) : Move → Ambient
  | .call c => (a.perform c).state
  | .enter l => a.bind l
  | .leave => a.release

/-- What code finds after some moves. -/
def after (a : Ambient) (moves : List Move) : Ambient := moves.foldl move a

end Ambient

/-- How code ends. -/
abbrev Outcome := Except Failure Value

/-- A run of code: what has happened and was reported, what it leaves, and how it ends. -/
structure Run where
  moves : List Ambient.Move
  events : List Log.Event
  after : Ambient
  outcome : Outcome

namespace Run

/-- Goes on after a run, however it ended. -/
def andThen (r : Run) (next : Outcome → Ambient → Run) : Run :=
  let rest := next r.outcome r.after
  ⟨r.moves ++ rest.moves, r.events ++ rest.events, rest.after, rest.outcome⟩

/-- Runs code with a translator bound, which is released in any case. -/
def around (l : Layer) (body : Ambient → Run) (a : Ambient) : Run :=
  let inner := body (a.bind l)
  ⟨.enter l :: inner.moves ++ [.leave], inner.events, inner.after.release, inner.outcome⟩

end Run

/-- What an application is handed when a client connects. -/
structure Connection where
  kind : String
  query : String
  path : String
  headers : Http.Headers
  /-- The state of the connection. -/
  entries : Table StateEntry

namespace Connection

/-- How many translators the middleware binds for a connection. -/
def layers (c : Connection) : Nat := if Middleware.handles c.kind then 1 else 0

/-- The connection as the middleware begins to serve it. -/
def begin (c : Connection) (ls : Locales) (outer : Ambient) : Serving :=
  Serving.start outer ls c.kind c.query c.path c.headers c.entries true false

end Connection

/-- Serves a connection with an application. -/
def Middleware.call (ls : Locales) (c : Connection) (app : Connection → Ambient → Run)
    (a : Ambient) : Run :=
  let s := c.begin ls a
  let inner := app { c with entries := s.entries }
  match s.layer with
  | some l => Run.around l inner a
  | none => inner a

/-- Code that holds the first `n` of the bound translators. It goes on with the answer of a call,
and with the outcome of the code inside of a scope or of the middleware. -/
inductive Code : Nat → Type where
  | done {n : Nat} (outcome : Outcome) : Code n
  | call {n : Nat} (c : Ambient.Call) (reaches : c.reaches n = true)
      (next : Except Failure Ambient.Answer → Code n) : Code n
  | scope {n : Nat} (ls : Locales) (locale : Option String) (body : Code (n + 1))
      (next : Outcome → Code n) : Code n
  | serve {n : Nat} (ls : Locales) (c : Connection) (app : Connection → Code (n + c.layers))
      (next : Outcome → Code n) : Code n

def Code.run {n : Nat} : Code n → Ambient → Run
  | .done outcome, a => ⟨[], [], a, outcome⟩
  | .call c _ next, a =>
    let step := a.perform c
    let rest := (next step.result).run step.state
    ⟨.call c :: rest.moves, step.events ++ rest.events, rest.after, rest.outcome⟩
  | .scope ls locale body next, a =>
    (Run.around (.scope ls locale) body.run a).andThen fun outcome => (next outcome).run
  | .serve ls c app next, a =>
    (Middleware.call ls c (fun c => (app c).run) a).andThen fun outcome => (next outcome).run

end RequestLocale
