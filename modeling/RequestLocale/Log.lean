import RequestLocale.Value.Basic

/-! Events that the library reports while it works. -/
namespace RequestLocale.Log

inductive Level where
  | debug
  | info
  | warning
  | error
  | critical
  deriving DecidableEq, Repr

def Level.name : Level → String
  | .debug => "debug"
  | .info => "info"
  | .warning => "warning"
  | .error => "error"
  | .critical => "critical"

/-- Levels by weight; a threshold lets through the levels that weigh at least as much. -/
def Level.weight : Level → Nat
  | .debug => 10
  | .info => 20
  | .warning => 30
  | .error => 40
  | .critical => 50

structure Event where
  level : Level
  name : String
  fields : List (String × Value)
  deriving BEq

/-- A text that may be missing, as a field. -/
def optional : Option String → Value
  | none => .none
  | some s => .text s

def texts (ss : List String) : Value := .list (ss.map .text)

end RequestLocale.Log
