import RequestLocale.Number.Numeral

/-! Decimal numbers that keep their trailing zeros: a whole coefficient and a power of ten. The text
shows every digit of the coefficient, and the exponent only where it is positive or the number is
very small. -/
namespace RequestLocale

inductive Decimal where
  | finite (negative : Bool) (coefficient : Nat) (exponent : Int)
  | infinite (negative : Bool)
  | nan (negative signalling : Bool) (payload : Nat)
  deriving DecidableEq, Repr

namespace Decimal

def isNaN : Decimal → Bool
  | .nan .. => true
  | _ => false

def isZero : Decimal → Bool
  | .finite _ 0 _ => true
  | _ => false

/-- The exact value of a finite number, unless its exponent is beyond what digits can spell. -/
def toRat? : Decimal → Option Rat
  | .finite negative coefficient exponent =>
    let n : Int := if negative then -coefficient else coefficient
    if Numeral.digitLimit < exponent.natAbs then none
    else if 0 ≤ exponent then some (n * Nat.pow 10 exponent.toNat : Int)
    else some (mkRat n (Nat.pow 10 (-exponent).toNat))
  | _ => none

/-- The nearest floating-point number; a signalling NaN has none. -/
def toBinary64? : Decimal → Option Binary64
  | .finite negative coefficient exponent => some (.ofDecimal negative coefficient exponent)
  | .infinite negative => some (.infinite negative)
  | .nan _ signalling _ => if signalling then none else some .nan

def zeros (n : Nat) : List Char := List.replicate n '0'

/-- Writes `digits · 10 ^ exponent`. The point stays where the exponent puts it unless that takes
zeros after the digits or more than five zeros after the point; then it follows the first digit. -/
def finiteText (digits : List Char) (exponent : Int) : String :=
  let left := exponent + digits.length
  let positional := exponent ≤ 0 && -6 < left
  let point := if positional then left else 1
  let body :=
    if point ≤ 0 then '0' :: '.' :: zeros (-point).toNat ++ digits
    else if digits.length ≤ point then digits ++ zeros (point - digits.length).toNat
    else digits.take point.toNat ++ '.' :: digits.drop point.toNat
  let power := left - point
  String.ofList body ++
    if power = 0 then "" else "E" ++ (if power < 0 then "-" else "+") ++ toString power.natAbs

def text (d : Decimal) : String :=
  let minus (negative : Bool) := if negative then "-" else ""
  match d with
  | .finite negative coefficient exponent =>
    minus negative ++ finiteText (toString coefficient).toList exponent
  | .infinite negative => minus negative ++ "Infinity"
  | .nan negative signalling payload =>
    minus negative ++ (if signalling then "sNaN" else "NaN") ++
      (if payload = 0 then "" else toString payload)

def ofText? (cs : List Char) : Option Decimal := do
  let (negative, body) := Numeral.sign cs
  let word := String.ofList (body.map Char.toLower)
  if word = "inf" ∨ word = "infinity" then some (.infinite negative)
  else
    let payload (signalling : Bool) (cs : List Char) : Option Decimal :=
      let (digits, rest) := Numeral.digitsAtHead cs
      if rest.isEmpty then some (.nan negative signalling (Text.ofDigitValues digits)) else none
    match body.map Char.toLower with
    | 'n' :: 'a' :: 'n' :: cs => payload false cs
    | 's' :: 'n' :: 'a' :: 'n' :: cs => payload true cs
    | _ =>
      let (digits, places, rest) ← Numeral.mantissa? body
      let exponent ← Numeral.exponent? rest
      some (.finite negative (Text.ofDigitValues digits) (exponent - places))

end Decimal

end RequestLocale
