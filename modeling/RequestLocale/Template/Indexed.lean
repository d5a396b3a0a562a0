import RequestLocale.Template.Piece
import RequestLocale.Text.DecimalDigit

/-! Indexed placeholders: `{0}` stands for the first value of a sequence, and so on. -/
namespace RequestLocale.Template.Indexed

open Text

/-- A slot is an opening brace, digits, and a closing brace; its label is the digits' values. -/
def slotAt : List Char → Option (List Nat × Nat)
  | [] => none
  | c :: cs =>
    let digits := cs.takeWhile isDigit
    if c = '{' ∧ digits ≠ [] ∧ (cs.drop digits.length).head? = some '}' then
      some (digits.filterMap digitValue?, digits.length + 1)
    else none

/-- A place beyond the sequence leaves the slot as it is. -/
def textOf (values : List Value) (digits : List Nat) : Except FormatError (Option (List Char)) :=
  if Numeral.digitLimit < digits.length then .error (.indexDigits digits.length)
  else match values[ofDigitValues digits]? with
    | none => .ok none
    | some v => (v.takenFrom (.list values)).plain?.map some

def format (text : List Char) (values : List Value) : Except FormatError (List Char) :=
  fill (textOf values) (pieces slotAt text)

end RequestLocale.Template.Indexed
