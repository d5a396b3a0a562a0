/-! Numbers of units, of which a floating-point number keeps 53 binary places. One unit is the least
positive number 2⁻¹⁰⁷⁴ of the format. A quotient is rounded once, a half to the even neighbour, and
what rounding gives needs no more places than are kept (`isRounded_roundUnits`). -/
namespace RequestLocale.Binary64

/-- Units in one. -/
def one : Nat := Nat.pow 2 1074

/-- The first number of units that has no finite form. -/
def overflow : Nat := Nat.pow 2 2098

/-- The last places that a number of units gives up, since 53 binary places are kept. -/
def dropped (units : Nat) : Nat := units.log2 + 1 - 53

/-- The quotient rounded to a whole number, a half to the even neighbour. -/
def roundQuotient (num den : Nat) : Nat :=
  let q := num / den
  let r := num % den
  if den < 2 * r ∨ (den = 2 * r ∧ q % 2 = 1) then q + 1 else q

/-- The representable number of units nearest to a quotient. -/
def roundUnits (num den : Nat) : Nat :=
  let places := dropped (num / den)
  roundQuotient num (den * Nat.pow 2 places) * Nat.pow 2 places

/-- The places that rounding gives up are zero already. -/
def IsRounded (units : Nat) : Prop := Nat.pow 2 (dropped units) ∣ units

theorem roundQuotient_le (num den : Nat) : roundQuotient num den ≤ num / den + 1 := by
  unfold roundQuotient
  dsimp only
  split <;> omega

theorem dropped_le {units m : Nat} (h : units < Nat.pow 2 (m + 53)) : dropped units ≤ m := by
  unfold dropped
  by_cases hz : units = 0
  · subst hz
    simp
  · have := (Nat.log2_lt hz).mpr h
    omega

theorem isRounded_of_lt {units m : Nat} (h : units < Nat.pow 2 (m + 53))
    (hm : Nat.pow 2 m ∣ units) : IsRounded units :=
  Nat.dvd_trans (Nat.pow_dvd_pow 2 (dropped_le h)) hm

/-- No more than 53 places are left of a quotient without its last places. -/
theorem roundQuotient_dropped_le (num den : Nat) :
    roundQuotient num (den * Nat.pow 2 (dropped (num / den))) ≤ Nat.pow 2 53 := by
  simp only [Nat.pow_eq]
  have below : num / den < 2 ^ (dropped (num / den) + 53) :=
    calc num / den < 2 ^ ((num / den).log2 + 1) := Nat.lt_log2_self
      _ ≤ 2 ^ (dropped (num / den) + 53) :=
        Nat.pow_le_pow_right (by decide) (by unfold dropped; omega)
  have short : num / (den * 2 ^ dropped (num / den)) < 2 ^ 53 := by
    rw [← Nat.div_div_eq_div_mul, Nat.div_lt_iff_lt_mul (Nat.two_pow_pos _), ← Nat.pow_add,
      Nat.add_comm]
    exact below
  have step := roundQuotient_le num (den * 2 ^ dropped (num / den))
  omega

theorem isRounded_roundUnits (num den : Nat) : IsRounded (roundUnits num den) := by
  have few := roundQuotient_dropped_le num den
  unfold roundUnits
  dsimp only [Nat.pow_eq] at few ⊢
  generalize dropped (num / den) = p at few ⊢
  generalize roundQuotient num (den * 2 ^ p) = q at few ⊢
  rcases Nat.lt_or_eq_of_le few with below | full
  · refine isRounded_of_lt (m := p) ?_ (Nat.dvd_mul_left _ _)
    rw [Nat.pow_eq, Nat.pow_add, Nat.mul_comm]
    exact Nat.mul_lt_mul_of_pos_left below (Nat.two_pow_pos p)
  · -- The last place carried over, so there is one place more and it is zero.
    subst full
    refine isRounded_of_lt (m := p + 1) ?_ ?_
    · rw [Nat.pow_eq, ← Nat.pow_add]
      exact Nat.pow_lt_pow_right (by decide) (by omega)
    · rw [Nat.pow_eq, ← Nat.pow_add]
      exact Nat.pow_dvd_pow 2 (by omega)

theorem overflow_pos : 0 < overflow := Nat.two_pow_pos _

theorem overflow_eq_mul : overflow = one * Nat.pow 2 1024 := by
  rw [overflow, one, Nat.pow_eq, Nat.pow_eq, Nat.pow_eq, ← Nat.pow_add]

/-- A number of units that the format has: it is in range and needs no rounding. -/
@[ext]
structure Units where
  count : Nat
  inRange : count < overflow
  isRounded : IsRounded count
  deriving DecidableEq, Repr

namespace Units

def zero : Units := ⟨0, overflow_pos, Nat.dvd_zero _⟩

instance : OfNat Units 0 := ⟨zero⟩

@[simp] theorem count_zero : (0 : Units).count = 0 := rfl

/-- The units nearest to a quotient, if that is in range. -/
def round? (num den : Nat) : Option Units :=
  if h : roundUnits num den < overflow then
    some ⟨roundUnits num den, h, isRounded_roundUnits num den⟩
  else none

end Units

end RequestLocale.Binary64
