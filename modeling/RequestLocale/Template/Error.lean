import RequestLocale.Json.Writer

/-! What can go wrong while arguments are put into a message. -/
namespace RequestLocale

inductive FormatError where
  /-- A whole number has too many digits to be written. -/
  | digitLimit
  /-- The number in an indexed placeholder has too many digits to be read. -/
  | indexDigits (count : Nat)
  /-- A whole number is beyond the floating-point range. -/
  | integerTooLarge
  /-- A fraction is beyond the floating-point range. -/
  | quotientTooLarge
  /-- A record with a key of this kind has no JSON text. -/
  | jsonKey (kind : String)
  /-- A signalling NaN was compared. -/
  | signallingNaN
  deriving DecidableEq, Repr

/-- The message for a run of digits that is too long to be read as a whole number. -/
def digitRunMessage (count : Nat) : String :=
  "Exceeds the limit (4300 digits) for integer string conversion: value has " ++ toString count ++
    " digits; use sys.set_int_max_str_digits() to increase the limit"

def FormatError.message : FormatError → String
  | .digitLimit => Numeral.digitLimitMessage
  | .indexDigits count => digitRunMessage count
  | .integerTooLarge => "int too large to convert to float"
  | .quotientTooLarge => "integer division result too large for a float"
  | .jsonKey kind => (JsonFault.key kind).message
  | .signallingNaN => "[<class 'decimal.InvalidOperation'>]"

namespace Value

def plain? (v : Value) : Except FormatError (List Char) :=
  if v.exceedsDigits then .error .digitLimit else .ok v.plain

def quoted? (v : Value) : Except FormatError (List Char) :=
  if v.exceedsDigits then .error .digitLimit else .ok v.quoted

end Value

end RequestLocale
