import RequestLocale.Number.FloatText
import RequestLocale.Text.Quoted
import RequestLocale.Value.Basic

/-! The two texts of a value. The quoted text shows what kind of value it is, and is used for
everything inside a container; the plain text differs from it for text, fractions, decimals and
calendar values only. -/
namespace RequestLocale.Value

open Text

/-- Parts with a comma and a blank between neighbours. -/
def commaJoin : List (List Char) → List Char
  | [] => []
  | [part] => part
  | part :: parts => part ++ ',' :: ' ' :: commaJoin parts

def fractionText (q : Rat) : String :=
  if q.den = 1 then toString q.num else toString q.num ++ "/" ++ toString q.den

mutual
def quoted : Value → List Char
  | .none => "None".toList
  | .bool b => (if b then "True" else "False").toList
  | .int n => (toString n).toList
  | .float x => x.text.toList
  | .fraction q => ("Fraction(" ++ toString q.num ++ ", " ++ toString q.den ++ ")").toList
  | .decimal d => ("Decimal('" ++ d.text ++ "')").toList
  | .text s => Text.quoted s.toList
  | .bytes mutable bs =>
    if mutable then "bytearray(".toList ++ quotedBytes true bs ++ [')'] else quotedBytes false bs
  | .day d => d.quoted.toList
  | .moment m => m.quoted.toList
  | .sequence .list items => '[' :: commaJoin (quotedItems items) ++ [']']
  | .sequence .tuple items =>
    match quotedItems items with
    | [item] => '(' :: item ++ [',', ')']
    | parts => '(' :: commaJoin parts ++ [')']
  | .set items =>
    if items.isEmpty then "set()".toList else '{' :: commaJoin (quotedItems items) ++ ['}']
  | .record entries => '{' :: commaJoin (quotedEntries entries) ++ ['}']
  | .enclosing keyed => if keyed then ['{', '.', '.', '.', '}'] else ['[', '.', '.', '.', ']']
  termination_by structural v => v

def quotedItems : List Value → List (List Char)
  | [] => []
  | item :: items => quoted item :: quotedItems items
  termination_by structural items => items

def quotedEntries : List (Value × Value) → List (List Char)
  | [] => []
  | (key, value) :: entries =>
    (quoted key ++ ':' :: ' ' :: quoted value) :: quotedEntries entries
  termination_by structural entries => entries
end

def plain : Value → List Char
  | .text s => s.toList
  | .fraction q => (fractionText q).toList
  | .decimal d => d.text.toList
  | .day d => d.text.toList
  | .moment m => m.text.toList
  | v => v.quoted

/-- The plain text as a string. -/
def toText (v : Value) : String := String.ofList v.plain

/-- The quoted text as a string. -/
def toQuoted (v : Value) : String := String.ofList v.quoted

theorem plain_text (s : String) : (Value.text s).plain = s.toList := rfl

mutual
/-- Whether the texts of a value spell a whole number with more digits than the limit. -/
def exceedsDigits : Value → Bool
  | .int n => Numeral.exceedsDigitLimit n
  | .fraction q => Numeral.exceedsDigitLimit q.num || Numeral.exceedsDigitLimit q.den
  | .sequence _ items | .set items => itemsExceedDigits items
  | .record entries => entriesExceedDigits entries
  | _ => false
  termination_by structural v => v

def itemsExceedDigits : List Value → Bool
  | [] => false
  | item :: items => exceedsDigits item || itemsExceedDigits items
  termination_by structural items => items

def entriesExceedDigits : List (Value × Value) → Bool
  | [] => false
  | (key, value) :: entries =>
    exceedsDigits key || exceedsDigits value || entriesExceedDigits entries
  termination_by structural entries => entries
end

end RequestLocale.Value
