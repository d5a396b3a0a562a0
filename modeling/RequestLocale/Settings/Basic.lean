import RequestLocale.Table
import RequestLocale.Duration

/-! The configuration of the library, fixed when an application starts and shared by all requests.
Values come from keywords, then from variables of the environment, then from defaults. -/
namespace RequestLocale

inductive Deployment where
  | locally
  | staging
  | production
  deriving DecidableEq, Repr

def Deployment.name : Deployment → String
  | .locally => "local"
  | .staging => "staging"
  | .production => "production"

/-- The directories that hold resource files. -/
inductive Directories where
  | single (path : String)
  | several (paths : List String)
  deriving DecidableEq, Repr

def Directories.paths : Directories → List String
  | .single path => [path]
  | .several paths => paths

/-- The life of a cookie in seconds, which can be written with few digits. -/
structure Life where
  seconds : Nat
  isShort : Numeral.exceedsDigitLimit seconds = false
  deriving DecidableEq

structure Settings where
  defaultLocale : String
  queryField : String
  cookieField : String
  /-- Spellings of locales, and what is used in their place. -/
  aliases : Table String
  /-- The life of the locale cookie. -/
  life : Life
  /-- The name under which templates find the translator of a request. -/
  functionName : String
  directories : Directories
  deployment : Deployment
  debug : Bool
  deriving DecidableEq

namespace Settings

def cookieMaxAge (s : Settings) : Nat := s.life.seconds

/-- The fields in the order in which they are checked. -/
inductive Field where
  | defaultLocale
  | queryField
  | cookieField
  | aliases
  | cookieMaxAge
  | functionName
  | directories
  | deployment
  | debug
  deriving DecidableEq, Repr

namespace Field

def all : List Field :=
  [defaultLocale, queryField, cookieField, aliases, cookieMaxAge, functionName, directories,
   deployment, debug]

def name : Field → String
  | defaultLocale => "DEFAULT_LOCALE"
  | queryField => "QUERY_FIELD"
  | cookieField => "COOKIE_FIELD"
  | aliases => "LOCALE_ALIAS"
  | cookieMaxAge => "COOKIE_MAX_AGE"
  | functionName => "FUNCTION_NAME"
  | directories => "DIRS"
  | deployment => "ENVIRONMENT"
  | debug => "DEBUG"

end Field

/-- What is wrong with the value of a field. -/
inductive FaultKind where
  | notText
  | undecodableText
  | textTooShort
  | notRecord
  | invalid (reason : String)
  | unknownName
  | unreadableTruth
  | notTruth
  | fixed
  deriving DecidableEq, Repr

/-- A fault with the path to the value, which begins with the name of the field. -/
structure Fault where
  path : List String
  kind : FaultKind
  deriving DecidableEq, Repr

/-- Settings never change: every attempt to set a field is this fault. -/
def assign (_ : Settings) (field : String) (_ : Value) : Fault := ⟨[field], .fixed⟩

end Settings

end RequestLocale
