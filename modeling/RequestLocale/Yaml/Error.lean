import RequestLocale.Template.Error
import RequestLocale.Value.Calendar

/-! Why a YAML text gives no value. Half of a pair would give one, but a text cannot hold it. -/
namespace RequestLocale.Yaml

inductive Error where
  /-- The text breaks a rule of the format. -/
  | malformed
  /-- An escape names a number beyond the last character. -/
  | characterRange
  /-- An escape names a number that does not even fit into 32 bits with a sign. -/
  | characterSize
  /-- An escape names half of a pair, which is no character. -/
  | half
  /-- A text marked as a whole number is none in its base. -/
  | notWhole (base : Nat) (text : List Char)
  /-- A whole number has too many digits. -/
  | digits (count : Nat)
  /-- A text marked as a floating-point number is none. -/
  | notFloat (text : List Char)
  /-- Numbers marked as a day or a moment are not in the calendar. -/
  | calendar (fault : CalendarError)
  /-- An empty text is marked as a number. -/
  | emptyNumber
  /-- A text marked as a truth value is none. -/
  | notTruth (text : List Char)
  /-- A text marked as a day or a moment is none. -/
  | notMoment
  deriving DecidableEq, Repr

/-- At most the given number of characters of a quoted text. -/
def shortQuoted (cs : List Char) : String := String.ofList ((Text.quoted cs).take 200)

/-- What is said of an error. The words in angle brackets are stand-ins: how a parser puts a broken
rule is left open, and of half of a pair nothing is ever said, since it does not occur in files. -/
def Error.message : Error → String
  | .malformed => "<yaml>"
  | .characterRange => "chr() arg not in range(0x110000)"
  | .characterSize => "Python int too large to convert to C int"
  | .half => "<half of a pair>"
  | .notWhole base text =>
    "invalid literal for int() with base " ++ toString base ++ ": " ++ shortQuoted text
  | .digits count => digitRunMessage count
  | .notFloat text => "could not convert string to float: " ++ String.ofList (Text.quoted text)
  | .calendar fault => fault.message
  | .emptyNumber => "string index out of range"
  | .notTruth text => String.ofList (Text.quoted text)
  | .notMoment => "'NoneType' object has no attribute 'groupdict'"

/-- Whether the error is about the text that was read; the others are faults in the use of marks,
which no reader of files expects, and half of a pair, with which no file comes. -/
def Error.isExpected : Error → Bool
  | .characterSize | .half | .emptyNumber | .notTruth _ | .notMoment => false
  | _ => true

end RequestLocale.Yaml
