import RequestLocale.Error
import RequestLocale.Text.Blank
import RequestLocale.Text.LowerCase

/-! Durations in whole seconds. A duration is a number of seconds, or a text with a number and a
unit, where a missing unit stands for seconds. The product of number and unit is computed in
floating point and must be finite and not negative; its fraction is cut off. -/
namespace RequestLocale.Duration

open Text

/-- The words for the units, and the number of seconds in each. -/
def units : List (List String × Binary64) :=
  [(["ms", "msec", "msecs", "millisecond", "milliseconds"], .ofDecimal false 1 (-3)),
   (["s", "sec", "secs", "second", "seconds"], .ofInt 1),
   (["m", "min", "mins", "minute", "minutes"], .ofInt 60),
   (["h", "hr", "hrs", "hour", "hours"], .ofInt 3600),
   (["d", "day", "days"], .ofInt 86400),
   (["w", "week", "weeks"], .ofInt 604800),
   (["y", "yr", "yrs", "year", "years"], .ofInt 31557600)]

/-- The seconds in the unit that a word names in any case. -/
def unit? (word : List Char) : Option Binary64 :=
  let name := if word.isEmpty then "s" else String.ofList (lower word)
  (units.find? (·.1.contains name)).map (·.2)

/-- The number at the head of a text after its sign: digits that may be missing, a point that may be
missing, and digits. -/
def unsigned? (negative : Bool) (cs : List Char) : Option (Binary64 × List Char) :=
  let (before, rest) := Numeral.digitsAtHead cs
  match rest with
  | '.' :: rest =>
    let (after, rest) := Numeral.digitsAtHead rest
    if after.isEmpty then none
    else some (.ofDecimal negative (ofDigitValues (before ++ after)) (-(after.length : Int)), rest)
  | rest =>
    if before.isEmpty then none else some (.ofDecimal negative (ofDigitValues before) 0, rest)

/-- The number at the head of a text, with a minus sign or none. -/
def number? : List Char → Option (Binary64 × List Char)
  | '-' :: cs => unsigned? true cs
  | cs => unsigned? false cs

/-- The seconds that a text spells. -/
def ofText? (cs : List Char) : Option Binary64 := do
  let (number, rest) ← number? (trim cs)
  let seconds ← unit? (rest.dropWhile (· == ' '))
  return number * seconds

inductive Error where
  | invalid (value : Value)
  /-- A whole number is beyond the floating-point range. -/
  | tooLarge
  /-- The value to report holds a whole number with too many digits to be written. -/
  | unwritable
  deriving BEq

/-- What is reported of a value that is no duration. The report shows the value. -/
def refusal (value : Value) : Error :=
  if value.exceedsDigits then .unwritable else .invalid value

/-- Cuts off the fraction of an amount that is finite and not negative. -/
def whole? (x : Binary64) : Option Nat :=
  if x.lt (.finite false 0) then none else x.trunc?.map Int.toNat

/-- The conversion of a whole number fails where it does not give a finite number. -/
def converted : Binary64 → Except Error Binary64
  | .infinite _ => .error .tooLarge
  | x => .ok x

/-- The seconds that a value stands for, in floating point. -/
def amount (value : Value) : Except Error Binary64 :=
  match value with
  | .int n => converted (.ofInt n)
  | .float x => .ok x
  | .text s => (ofText? s.toList).elim (.error (refusal value)) .ok
  | _ => .error (refusal value)

def seconds (value : Value) : Except Error Nat := do
  (whole? (← amount value)).elim (throw (refusal value)) pure

theorem isShort_of_whole? {x : Binary64} {n : Nat} (h : whole? x = some n) :
    Numeral.exceedsDigitLimit n = false := by
  unfold whole? at h
  split at h
  · cases h
  · obtain ⟨m, hm, rfl⟩ := Option.map_eq_some_iff.mp h
    have short := Numeral.exceedsDigitLimit_of_trunc? hm
    rw [← Bool.not_eq_true, Numeral.exceedsDigitLimit_iff] at short ⊢
    omega

/-- Seconds are counted in floating point, so they can always be written. -/
theorem isShort_of_seconds {value : Value} {n : Nat} (h : seconds value = .ok n) :
    Numeral.exceedsDigitLimit n = false := by
  unfold seconds at h
  cases ha : amount value with
  | error e => rw [ha] at h; cases h
  | ok x =>
    rw [ha] at h
    cases hw : whole? x with
    | none => simp [bind, Except.bind, hw, throw, throwThe, MonadExceptOf.throw] at h
    | some m =>
      simp only [bind, Except.bind, hw, Option.elim_some, pure, Except.pure, Except.ok.injEq] at h
      exact h ▸ isShort_of_whole? hw

end RequestLocale.Duration
