import RequestLocale.Http.Address
import RequestLocale.Locales
import RequestLocale.Settings.Source

/-! What code finds around it without being handed anything: the translators that are bound, the
innermost one being current, the installed `Locales`, and the settings of the environment, which
are built once. Closing a scope brings back what was current before it (`release_bind`). -/
namespace RequestLocale

/-- Why something fails, inside of a request or outside. -/
inductive Failure where
  | call (e : CallError)
  | settings (e : Settings.Error)
  | load (e : Resource.LoadError)
  | flatten (e : Messages.FlattenError)
  | reported (e : ReportedError)
  /-- An answer has no JSON text. -/
  | json (e : JsonFault)
  /-- The address of a request cannot be read back. -/
  | address (e : Http.Address.Fault)
  /-- An error of the application's own, with its kind and its message. -/
  | application (kind message : String)

/-- A bound translator: the messages it takes, and the context it translates for. -/
structure Layer where
  locales : Locales
  context : Context

namespace Layer

/-- Runs a call on the context of a layer. -/
def run {α : Type} (l : Layer) (call : Locales → Context → Step Context CallError α) :
    Step Layer CallError α :=
  let step := call l.locales l.context
  ⟨{ l with context := step.state }, step.events, step.result⟩

end Layer

structure Ambient where
  environment : Table String
  /-- The settings of the environment, once they have been built. -/
  cached : Option Settings
  installed : Option Locales
  /-- The bound translators, the current one first. -/
  layers : List Layer

namespace Ambient

def empty : Ambient := ⟨{}, none, none, []⟩

def current? (a : Ambient) : Option Layer := a.layers.head?

def isBound (a : Ambient) : Bool := a.current?.isSome

/-- The settings of the environment. They are kept, so later changes of the environment count only
after `forget`; a failure is not kept. -/
def settings (a : Ambient) : Ambient × Except Settings.Error Settings :=
  match a.cached with
  | some s => (a, .ok s)
  | none =>
    match Settings.build [] a.environment with
    | .ok s => ({ a with cached := some s }, .ok s)
    | .error e => (a, .error e)

def forget (a : Ambient) : Ambient := { a with cached := none }

def setVariable (a : Ambient) (name : String) : Option String → Ambient
  | some value => { a with environment := a.environment.insert name value }
  | none => { a with environment := a.environment.erase name }

def install (a : Ambient) (ls : Option Locales) : Ambient := { a with installed := ls }

/-- Binds a translator; it is current until it is released. -/
def bind (a : Ambient) (l : Layer) : Ambient := { a with layers := l :: a.layers }

def release (a : Ambient) : Ambient := { a with layers := a.layers.drop 1 }

/-- Opens a scope outside of requests, with a locale that may be given. -/
def enter (a : Ambient) (ls : Locales) (locale : Option String) : Ambient :=
  a.bind ⟨ls, .ofLocale locale⟩

@[simp] theorem release_bind (a : Ambient) (l : Layer) : (a.bind l).release = a := rfl

/-- Runs a call with the current translator, if there is one. -/
def withCurrent? {α : Type} (a : Ambient)
    (call : Locales → Context → Step Context CallError α) : Option (Step Ambient Failure α) :=
  match a.layers with
  | [] => none
  | l :: outer =>
    let step := l.run call
    some ⟨{ a with layers := step.state :: outer }, step.events, step.result.mapError .call⟩

/-- The current locale: that of the current translator, else the default of what is installed,
else the default of the environment. -/
def getLocale (a : Ambient) : Step Ambient Failure String :=
  match a.withCurrent? Locales.getLocale, a.installed with
  | some step, _ => step
  | none, some ls => ⟨a, [], .ok ls.settings.defaultLocale⟩
  | none, none =>
    let (a, result) := a.settings
    ⟨a, [], (result.map Settings.defaultLocale).mapError .settings⟩

/-- Translates with the current translator; without one the key stands for its own text. -/
def translate (a : Ambient) (key : Option String) (args : List Value) :
    Step Ambient Failure String :=
  match key with
  | none => ⟨a, [], .ok ""⟩
  | some key =>
    match a.withCurrent? fun ls ctx => ls.translate ctx (some key) args with
    | some step => step
    | none =>
      ⟨a, [Locales.rendered none none key],
        (Message.render none key args).mapError (.call ∘ .format)⟩

/-- The fields of a log line with the current locale, if one is remembered and none is named. -/
def addLocale (a : Ambient) (fields : Entries) : Entries :=
  match a.current?.bind (·.context.state.locale), fields.find? "locale" with
  | some locale, none => fields.put (.text "locale") (.text locale)
  | _, _ => fields

/-- Installs settings and bundles; missing settings come from the environment, missing bundles from
the directories of the settings. -/
def installWith (a : Ambient) (fs : Resource.FileSystem) (settings : Option Settings)
    (loader : Settings → Except Failure (Option Resource.Loader)) : Step Ambient Failure Locales :=
  let (a, built) : Ambient × Except Settings.Error Settings := match settings with
    | some s => (a, .ok s)
    | none => a.settings
  match built with
  | .error e => ⟨a, [], .error (.settings e)⟩
  | .ok s =>
    match loader s with
    | .error e => ⟨a, [], .error e⟩
    | .ok (some l) => ⟨a.install (some ⟨s, l⟩), [], .ok ⟨s, l⟩⟩
    | .ok none =>
      let (events, loaded) :=
        Resource.Loader.ofDirectories s.directories.paths s.defaultLocale fs
      match loaded with
      | .error e => ⟨a, events, .error (.load e)⟩
      | .ok l => ⟨a.install (some ⟨s, l⟩), events, .ok ⟨s, l⟩⟩

end Ambient

end RequestLocale
