import RequestLocale.Number.Units

/-! Floating-point numbers of the 64-bit binary format, without reference to machine arithmetic.
A finite number is a number of units that the format has; an operation computes exactly and rounds
once. -/
namespace RequestLocale

inductive Binary64 where
  | nan
  | infinite (negative : Bool)
  | finite (negative : Bool) (units : RequestLocale.Binary64.Units)
  deriving DecidableEq, Repr, Inhabited

namespace Binary64

def ofUnits (negative : Bool) (num den : Nat) : Binary64 :=
  (Units.round? num den).elim (.infinite negative) (.finite negative)

/-- The number nearest to a quotient of natural numbers. -/
def ofQuotient (negative : Bool) (num den : Nat) : Binary64 := ofUnits negative (num * one) den

def ofInt (n : Int) : Binary64 := ofQuotient (n < 0) n.natAbs 1

/-- The number nearest to `digits · 10 ^ exponent`. Far outside the range of the format the answer
is known from the size alone, so no large power is computed. -/
def ofDecimal (negative : Bool) (digits : Nat) (exponent : Int) : Binary64 :=
  if digits = 0 then .finite negative 0
  else if 400 < exponent then .infinite negative
  else if exponent + (digits.log2 + 1) / 3 + 1 < -400 then .finite negative 0
  else if 0 ≤ exponent then ofQuotient negative (digits * Nat.pow 10 exponent.toNat) 1
  else ofQuotient negative digits (Nat.pow 10 (-exponent).toNat)

def isNaN : Binary64 → Bool
  | .nan => true
  | _ => false

def isFinite : Binary64 → Bool
  | .finite .. => true
  | _ => false

def isZero : Binary64 → Bool
  | .finite _ units => units.count = 0
  | _ => false

/-- A natural number with its sign. -/
def signed (negative : Bool) (n : Nat) : Int := if negative then -n else n

def ofSigned (n : Int) : Binary64 := ofUnits (n < 0) n.natAbs 1

def mul : Binary64 → Binary64 → Binary64
  | .finite s a, .finite t b => ofUnits (s != t) (a.count * b.count) one
  | .nan, _ | _, .nan => .nan
  | .infinite s, .infinite t => .infinite (s != t)
  | .infinite s, .finite t b => if b.count = 0 then .nan else .infinite (s != t)
  | .finite s a, .infinite t => if a.count = 0 then .nan else .infinite (s != t)

def add : Binary64 → Binary64 → Binary64
  | .finite s a, .finite t b =>
    let sum := signed s a.count + signed t b.count
    if sum = 0 then .finite (s && t) 0 else ofSigned sum
  | .nan, _ | _, .nan => .nan
  | .infinite s, .infinite t => if s = t then .infinite s else .nan
  | .infinite s, .finite .. => .infinite s
  | .finite .., .infinite t => .infinite t

def neg : Binary64 → Binary64
  | .nan => .nan
  | .infinite s => .infinite (!s)
  | .finite s a => .finite (!s) a

instance : Mul Binary64 := ⟨mul⟩
instance : Add Binary64 := ⟨add⟩
instance : Neg Binary64 := ⟨neg⟩

/-- Strict order; no number stands in it with NaN. -/
def lt : Binary64 → Binary64 → Bool
  | .nan, _ | _, .nan => false
  | .finite s a, .finite t b => signed s a.count < signed t b.count
  | .infinite s, .infinite t => s && !t
  | .infinite s, .finite .. => s
  | .finite .., .infinite t => !t

/-- Equality of values: the two zeros are equal and NaN equals nothing. -/
def same : Binary64 → Binary64 → Bool
  | .finite s a, .finite t b => signed s a.count == signed t b.count
  | .infinite s, .infinite t => s == t
  | _, _ => false

/-- The whole number toward zero, for finite numbers. -/
def trunc? : Binary64 → Option Int
  | .finite s a => some (signed s (a.count / one))
  | _ => none

/-- The exact value as a fraction, for finite numbers. -/
def toRat? : Binary64 → Option Rat
  | .finite s a => some (mkRat (signed s a.count) one)
  | _ => none

theorem lt_irrefl (x : Binary64) : x.lt x = false := by
  cases x with
  | nan => rfl
  | infinite s => cases s <;> rfl
  | finite s a => simp [lt]

end Binary64

end RequestLocale
