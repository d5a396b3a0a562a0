import RequestLocale.Number.Binary64

/-! The shortest decimal number that reads back as a given floating-point number. All numbers
between the two halfway points around it read back, the halfway points themselves when its last
place is even. With one, two, … digits the two decimal neighbours of the number are tried until
one reads back; of two that do the nearer is taken. -/
namespace RequestLocale.Binary64

/-- The numbers that read back as one number, in quarters of a unit. -/
structure Basin where
  low : Nat
  center : Nat
  high : Nat
  closed : Bool

/-- Below a power of two the neighbour is half as far away as above it. -/
def basin (units : Nat) : Basin :=
  let places := dropped units
  let gap := Nat.pow 2 places
  let below := if 0 < places ∧ units = Nat.pow 2 units.log2 then gap else 2 * gap
  ⟨4 * units - below, 4 * units, 4 * units + 2 * gap, units / gap % 2 == 0⟩

/-- Whether the quotient lies in the basin. -/
def Basin.contains (b : Basin) (num den : Nat) : Bool :=
  if b.closed then b.low * den ≤ num && num ≤ b.high * den
  else b.low * den < num && num < b.high * den

/-- `digits · 10 ^ exponent`. -/
structure Digits where
  digits : Nat
  exponent : Int
  deriving DecidableEq, Repr

/-- A power of ten as a quotient. -/
def tenPower (e : Int) : Nat × Nat :=
  if 0 ≤ e then (Nat.pow 10 e.toNat, 1) else (1, Nat.pow 10 (-e).toNat)

/-- The exponent of the power of ten at or below a positive number of units. The logarithm is
estimated from the binary one and corrected by at most one. -/
def leadingExponent (units : Nat) : Int :=
  let reached (e : Int) : Bool := (tenPower e).1 * one ≤ units * (tenPower e).2
  let guess := ((units.log2 : Int) - 1074) * 30103 / 100000
  if reached (guess + 1) then guess + 1 else if reached guess then guess else guess - 1

/-- The better of the two neighbours on the grid of `10 ^ exponent`, if one reads back. -/
def onGrid? (b : Basin) (exponent : Int) : Option Digits :=
  let (up, den) := tenPower exponent
  let num := up * (4 * one)
  let target := b.center * den
  let low := target / num
  let below := target - low * num
  let above := (low + 1) * num - target
  match b.contains (low * num) den, b.contains ((low + 1) * num) den with
  | true, true =>
    some ⟨if below < above ∨ (below = above ∧ low % 2 = 0) then low else low + 1, exponent⟩
  | true, false => some ⟨low, exponent⟩
  | false, true => some ⟨low + 1, exponent⟩
  | false, false => none

/-- Seventeen digits always read back, so the last choice is never used. -/
def shortest (units : Nat) : Digits :=
  let b := basin units
  let first := leadingExponent units
  ((List.range 17).findSome? fun more : Nat => onGrid? b (first - more)).getD ⟨units, -1074⟩

end RequestLocale.Binary64
