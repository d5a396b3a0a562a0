import RequestLocale.Ambient
import RequestLocale.Text.Order

/-! Log lines. A line holds the fields of its call over those that are bound for the request, the
current locale unless a field has that name, and what the call itself says. Calls below the
threshold leave no line. -/
namespace RequestLocale

/-- The form of log lines: for people, or one JSON record for each line. -/
inductive LineForm where
  | console
  | json
  deriving DecidableEq, Repr

structure Logging where
  threshold : Log.Level
  form : LineForm
  deriving DecidableEq, Repr

/-- A call of a logger. An event that is missing leaves no field. -/
structure LogCall where
  logger : String
  level : Log.Level
  event : Value
  fields : Entries

namespace LogCall

/-- The fields of a call, its event among them. -/
def ownFields (c : LogCall) : Entries :=
  match c.event with
  | .none => c.fields
  | event => c.fields.put (.text "event") event

end LogCall

namespace Logging

/-- People read the lines where an application is developed, programs elsewhere. -/
def ofSettings (s : Settings) : Logging :=
  ⟨if s.debug then .debug else .info,
    match s.deployment with
    | .locally => .console
    | .staging | .production => .json⟩

def lets (lg : Logging) (level : Log.Level) : Bool := lg.threshold.weight ≤ level.weight

/-- Bytes that stand alone in a field are text. -/
def fieldValue : Value → Value
  | .bytes false bs => .text (String.ofList (Text.Utf8.decodeLenient bs))
  | v => v

/-- The fields of a line, over those that are bound. -/
def fields (a : Ambient) (bound : Entries) (c : LogCall) : Entries :=
  let own := a.addLocale (Entries.ofList (bound ++ c.ownFields))
  (own.put (.text "level") (.text c.level.name)).put (.text "logger") (.text c.logger)

/-- The record of a line, its fields in the order of their names. -/
def record (a : Ambient) (bound : Entries) (c : LogCall) : Value :=
  let sorted := (fields a bound c).mergeSort fun x y => Text.isSorted x.1.toText y.1.toText
  .record (sorted.map fun (name, v) => (name, fieldValue v))

/-- The style of JSON lines: characters stand as they are, and every value has some text. -/
def style : JsonStyle := ⟨false, .quoted⟩

/-- The JSON line of a call that is let through. -/
def line? (lg : Logging) (a : Ambient) (bound : Entries) (c : LogCall) :
    Option (Except JsonFault (List Char)) :=
  if lg.lets c.level then some ((record a bound c).json style) else none

/-- The number of lines that a call writes. For people, an event of several lines stands as it
is. -/
def lineCount (lg : Logging) (c : LogCall) : Nat :=
  if !lg.lets c.level then 0
  else match lg.form, c.event with
    | .console, .text event => 1 + event.toList.count '\n'
    | _, _ => 1

end Logging

end RequestLocale
