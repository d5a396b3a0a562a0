import RequestLocale.Context.Exchange
import RequestLocale.Context.State
import RequestLocale.Log
import RequestLocale.Settings.Basic
import RequestLocale.Template.Error

/-! The context of a request: what it remembers, and the channel through which the wishes of the
client come in and cookies go out. Outside of requests there is no channel. -/
namespace RequestLocale

/-- A channel of fixed answers, which keeps the cookies that are written. -/
structure Script where
  parameters : Table String
  cookies : Table String
  languages : Option AcceptLanguage.Outcome
  started : Bool
  writes : List Http.Cookie.Write

inductive Channel where
  | http (e : Exchange)
  | scripted (s : Script)
  | absent
  /-- There is nothing but the state, to which no messages can be attached. -/
  | stateOnly

structure Context where
  channel : Channel
  state : LocaleState

/-- Why a call on a context fails. -/
inductive CallError where
  | cookie (e : Http.Cookie.Error)
  /-- The life of a cookie has too many digits to be written. -/
  | cookieLife
  | format (e : FormatError)
  /-- The context has no such capability. -/
  | missing (capability : String)
  deriving DecidableEq, Repr

def CallError.ofWrite : Http.Cookie.WriteError → CallError
  | .name e => .cookie e
  | .digits => .cookieLife

/-- What a call does: the state it leaves, the events it reports, and its answer. -/
structure Step (σ ε α : Type) where
  state : σ
  events : List Log.Event
  result : Except ε α

namespace Step

variable {σ ε α β : Type}

/-- Goes on with the answer of a call, unless it has failed. -/
def bind (s : Step σ ε α) (next : σ → α → Step σ ε β) : Step σ ε β :=
  match s.result with
  | .error e => ⟨s.state, s.events, .error e⟩
  | .ok a =>
    let t := next s.state a
    ⟨t.state, s.events ++ t.events, t.result⟩

/-- A step that reports nothing and leaves the state alone. -/
def still (state : σ) (result : Except ε α) : Step σ ε α := ⟨state, [], result⟩

def map (s : Step σ ε α) (f : α → β) : Step σ ε β := ⟨s.state, s.events, s.result.map f⟩

def mapError {ε' : Type} (s : Step σ ε α) (f : ε → ε') : Step σ ε' α :=
  ⟨s.state, s.events, s.result.mapError f⟩

end Step

/-- What the client says about its locale, and whether it can still be told. -/
structure Signals where
  parameter : Option String
  cookie : Option String
  languages : Option AcceptLanguage.Outcome
  started : Bool

namespace Context

def ofChannel (c : Channel) : Context := ⟨c, .empty⟩

/-- A context outside of requests, with a locale that may be given. -/
def ofLocale (locale : Option String) : Context := ⟨.absent, ⟨locale, none⟩⟩

/-- The signals of a context with a channel. -/
def signals? (ctx : Context) (s : Settings) : Option Signals :=
  match ctx.channel with
  | .http e =>
    some ⟨e.parameter? s.queryField, e.cookie? s.cookieField, some (.several e.languages),
      e.started⟩
  | .scripted c =>
    some ⟨c.parameters.get? s.queryField, c.cookies.get? s.cookieField, c.languages, c.started⟩
  | .absent | .stateOnly => none

/-- Writes a cookie through the channel. -/
def setCookie (ctx : Context) (w : Http.Cookie.Write) : Except CallError Context :=
  match ctx.channel with
  | .http e =>
    match e.setCookie w with
    | .ok e => .ok { ctx with channel := .http e }
    | .error e => .error (.ofWrite e)
  | .scripted c => .ok { ctx with channel := .scripted { c with writes := c.writes ++ [w] } }
  | .absent | .stateOnly => .error (.missing "set_cookie")

def attach (ctx : Context) (attached : Option Attached) : Except CallError Context :=
  match ctx.channel with
  | .stateOnly => .error (.missing "attach_resource_mapping")
  | _ => .ok { ctx with state := ctx.state.attach attached }

def remember (ctx : Context) (locale : String) : Context :=
  { ctx with state := ctx.state.remember locale }

theorem state_setCookie {ctx ctx' : Context} {w : Http.Cookie.Write}
    (h : ctx.setCookie w = .ok ctx') : ctx'.state = ctx.state := by
  unfold setCookie at h
  split at h
  · split at h <;> simp at h
    exact h ▸ rfl
  · simp at h; exact h ▸ rfl
  all_goals simp at h

end Context

end RequestLocale
