import RequestLocale.Context.Basic

/-! Deciding on the locale of a request. The first wish that is not empty counts: the parameter of
the query, the cookie, the languages of the client, the default; a spelling with an alias is
replaced once. The decision is remembered, and written to the cookie when it differs from it and
the response has not started. -/
namespace RequestLocale

/-- Where a locale comes from. -/
inductive Origin where
  | query
  | cookie
  | header
  | default
  deriving DecidableEq, Repr

def Origin.name : Origin → String
  | .query => "query"
  | .cookie => "cookie"
  | .header => "header"
  | .default => "default"

/-- The locale of a request as its signals decide it. -/
structure Decision where
  locale : String
  origin : Origin
  /-- Whether the client is to be told. -/
  writes : Bool
  deriving DecidableEq, Repr

namespace Signals

def nonempty? (s : Option String) : Option String := s.filter (!·.isEmpty)

/-- The locale that is wished for, and where the wish comes from. -/
def wish (sig : Signals) (default : String) : String × Origin :=
  match nonempty? sig.parameter, nonempty? sig.cookie,
    nonempty? (sig.languages.bind (·.first?)) with
  | some locale, _, _ => (locale, .query)
  | none, some locale, _ => (locale, .cookie)
  | none, none, some locale => (locale, .header)
  | none, none, none => (default, .default)

def decide (sig : Signals) (s : Settings) : Decision :=
  let (wished, origin) := sig.wish s.defaultLocale
  let locale := (s.aliases.get? wished).getD wished
  ⟨locale, origin, sig.cookie != some locale && !sig.started⟩

end Signals

namespace Decision

/-- The cookie that keeps a decision. -/
def cookie (d : Decision) (s : Settings) : Http.Cookie.Write :=
  ⟨s.cookieField, d.locale, s.cookieMaxAge, false⟩

open Log

def written (d : Decision) (previous : Option String) : Event :=
  ⟨.debug, "locale_cookie_written", [("locale", .text d.locale), ("previous", optional previous)]⟩

def resolved (d : Decision) : Event :=
  ⟨.debug, "locale_resolved", [("locale", .text d.locale), ("source", .text d.origin.name)]⟩

end Decision

/-- Decides by signals, and writes the cookie first, so that nothing has changed if that fails. -/
def Context.settle (ctx : Context) (s : Settings) (sig : Signals) : Step Context CallError String :=
  let d := sig.decide s
  let answer := ctx.state.remembered d.locale
  if d.writes then
    match ctx.setCookie (d.cookie s) with
    | .error e => ⟨ctx, [], .error e⟩
    | .ok after => ⟨after.remember d.locale, [d.written sig.cookie, d.resolved], .ok answer⟩
  else ⟨ctx.remember d.locale, [d.resolved], .ok answer⟩

/-- The locale of a context. A locale that is remembered and not empty stays; without a channel it
is the default, which is not remembered. -/
def Context.resolve (ctx : Context) (s : Settings) : Step Context CallError String :=
  match ctx.state.known?, ctx.signals? s with
  | some locale, _ => ⟨ctx, [], .ok locale⟩
  | none, none => ⟨ctx, [], .ok s.defaultLocale⟩
  | none, some sig => ctx.settle s sig

end RequestLocale
