import RequestLocale.Text.DecimalDigit
import RequestLocale.Number.Binary64

/-! Reading numbers from text. Digits of every script count, and an underscore may stand between
two digits. A text that is no number reads as `none`. -/
namespace RequestLocale.Numeral

open Text

/-- Takes out the underscores, each of which must have a digit on both sides. -/
def joinGroups (afterDigit : Bool) : List Char → Option (List Char)
  | [] => some []
  | c :: cs =>
    if c = '_' then
      if afterDigit && cs.head?.any isDigit then joinGroups false cs else none
    else (joinGroups (isDigit c) cs).map (c :: ·)

/-- Whether a minus sign stands at the head, and the text after a sign. -/
def sign : List Char → Bool × List Char
  | '-' :: cs => (true, cs)
  | '+' :: cs => (false, cs)
  | cs => (false, cs)

/-- The values of the digits at the head, and the rest. -/
def digitsAtHead (cs : List Char) : List Nat × List Char :=
  (cs.takeWhile isDigit |>.filterMap digitValue?, cs.dropWhile isDigit)

/-- A whole number by sign and digits. -/
structure Whole where
  negative : Bool
  digits : List Nat
  deriving DecidableEq, Repr

def Whole.toInt (w : Whole) : Int :=
  if w.negative then -(ofDigitValues w.digits : Int) else ofDigitValues w.digits

/-- Longer runs of digits are not turned into whole numbers, nor whole numbers into them. -/
def digitLimit : Nat := 4300

/-- The message for a whole number with too many digits to be written. -/
def digitLimitMessage : String :=
  "Exceeds the limit (4300 digits) for integer string conversion; " ++
    "use sys.set_int_max_str_digits() to increase the limit"

def Whole.tooLong (w : Whole) : Bool := digitLimit < w.digits.length

/-- Whether the digits of a whole number are more than the limit. -/
def exceedsDigitLimit (n : Int) : Bool := Nat.pow 10 digitLimit ≤ n.natAbs

theorem exceedsDigitLimit_iff {n : Int} :
    exceedsDigitLimit n = true ↔ Nat.pow 10 digitLimit ≤ n.natAbs := decide_eq_true_iff

/-- The floating-point range ends long before the limit. -/
theorem range_lt : Nat.pow 2 1024 < Nat.pow 10 digitLimit :=
  calc Nat.pow 2 1024 ≤ Nat.pow 10 1024 := Nat.pow_le_pow_left (by decide) _
    _ < Nat.pow 10 digitLimit := Nat.pow_lt_pow_right (by decide) (by decide)

/-- What is left of a floating-point number without its places after the point can be written. -/
theorem exceedsDigitLimit_of_trunc? {x : Binary64} {n : Int} (hn : x.trunc? = some n) :
    exceedsDigitLimit n = false := by
  cases x with
  | nan => cases hn
  | infinite negative => cases hn
  | finite negative units =>
    cases hn
    have small : units.count / Binary64.one < Nat.pow 2 1024 := by
      have below := units.inRange
      rw [Binary64.overflow_eq_mul] at below
      exact Nat.div_lt_of_lt_mul below
    have same : (Binary64.signed negative (units.count / Binary64.one)).natAbs =
        units.count / Binary64.one := by
      unfold Binary64.signed
      generalize units.count / Binary64.one = whole
      cases negative <;> simp
    rw [← Bool.not_eq_true, exceedsDigitLimit_iff, same]
    exact Nat.not_le_of_lt (Nat.lt_trans small range_lt)

def whole? (cs : List Char) : Option Whole := do
  let plain ← joinGroups false cs
  let (negative, body) := sign plain
  let (digits, rest) := digitsAtHead body
  if digits.isEmpty || !rest.isEmpty then none else some ⟨negative, digits⟩

/-- The digits of a mantissa, those after the point counted. -/
def mantissa? (cs : List Char) : Option (List Nat × Nat × List Char) :=
  let (before, rest) := digitsAtHead cs
  let (after, rest) := match rest with
    | '.' :: rest => digitsAtHead rest
    | rest => ([], rest)
  if before.isEmpty && after.isEmpty then none else some (before ++ after, after.length, rest)

/-- The exponent that makes up the rest of a number; nothing stands for zero. -/
def exponent? : List Char → Option Int
  | [] => some 0
  | c :: cs =>
    if c = 'e' ∨ c = 'E' then
      let (negative, body) := sign cs
      let (digits, rest) := digitsAtHead body
      if digits.isEmpty || !rest.isEmpty then none
      else some (Whole.toInt ⟨negative, digits⟩)
    else none

/-- Reads a number with point and exponent, or one of the words for infinity and NaN. -/
def float? (cs : List Char) : Option Binary64 := do
  let plain ← joinGroups false cs
  let (negative, body) := sign plain
  let word := String.ofList (body.map Char.toLower)
  if word = "inf" ∨ word = "infinity" then some (.infinite negative)
  else if word = "nan" then some .nan
  else
    let (digits, places, rest) ← mantissa? body
    let exponent ← exponent? rest
    some (.ofDecimal negative (ofDigitValues digits) (exponent - places))

end RequestLocale.Numeral
