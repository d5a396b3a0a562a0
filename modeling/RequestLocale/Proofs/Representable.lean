import RequestLocale.Proofs.FloatRange

/-! # Numbers that rounding leaves alone

Rounding keeps 53 places of a number of units. What needs no more is left as it is
(`roundUnits_of_isRounded`). Such a number still needs no more when its fraction is cut off, so the
whole number that is left is converted back without loss, however large it is (`ofInt_whole`). -/
namespace RequestLocale.Binary64

/-! ## Rounding -/

/-- A quotient without a remainder is not rounded. -/
theorem roundQuotient_mul (q : Nat) {den : Nat} (hd : 0 < den) :
    roundQuotient (q * den) den = q := by
  unfold roundQuotient
  simp only [Nat.mul_div_cancel q hd, Nat.mul_mod_left]
  exact if_neg (by omega)

theorem roundUnits_of_isRounded {units : Nat} (h : IsRounded units) :
    roundUnits units 1 = units := by
  obtain ⟨q, hq⟩ := h
  unfold roundUnits
  dsimp only [Nat.pow_eq]
  rw [Nat.div_one, Nat.one_mul]
  generalize dropped units = p at hq ⊢
  rw [hq, Nat.pow_eq, Nat.mul_comm (2 ^ p) q, roundQuotient_mul q (Nat.two_pow_pos p)]

/-- Nothing is left of a quotient below one half. -/
theorem roundUnits_eq_zero {num den : Nat} (h : 2 * num < den) : roundUnits num den = 0 := by
  have none : num / den = 0 := Nat.div_eq_of_lt (by omega)
  have all : num % den = num := Nat.mod_eq_of_lt (by omega)
  unfold roundUnits
  rw [none]
  show roundQuotient num (den * 1) * 1 = 0
  rw [Nat.mul_one, Nat.mul_one]
  unfold roundQuotient
  rw [none, all]
  exact if_neg (by omega)

theorem ofUnits_eq_zero (negative : Bool) {num den : Nat} (h : 2 * num < den) :
    ofUnits negative num den = .finite negative 0 := by
  rcases ofUnits_cases negative num den with ⟨large, -⟩ | ⟨units, nearest, finite⟩
  · rw [roundUnits_eq_zero h] at large
    exact absurd large (Nat.not_le_of_lt overflow_pos)
  · rw [roundUnits_eq_zero h] at nearest
    rw [finite, (Units.ext nearest : units = 0)]

/-- Where a decimal fraction is taken for zero because of its size alone, rounding makes it zero. -/
theorem two_mul_lt_of_tiny {digits places : Nat}
    (h : -(places : Int) + (digits.log2 + 1) / 3 + 1 < -400) :
    2 * (digits * one) < 10 ^ places := by
  have below : digits < 2 ^ (digits.log2 + 1) := Nat.lt_log2_self
  calc 2 * (digits * one) < 2 * (2 ^ (digits.log2 + 1) * one) :=
        Nat.mul_lt_mul_of_pos_left (Nat.mul_lt_mul_of_pos_right below one_pos) (by decide)
    _ = 2 ^ (digits.log2 + 1 + 1074 + 1) := by
        rw [one_eq, Nat.pow_succ 2 (digits.log2 + 1 + 1074), Nat.pow_add 2 (digits.log2 + 1),
          Nat.mul_comm]
    _ ≤ 2 ^ (3 * ((digits.log2 + 1) / 3 + 359)) := Nat.pow_le_pow_right (by decide) (by omega)
    _ = 8 ^ ((digits.log2 + 1) / 3 + 359) := Nat.pow_mul 2 3 _
    _ ≤ 10 ^ ((digits.log2 + 1) / 3 + 359) := Nat.pow_le_pow_left (by decide) _
    _ ≤ 10 ^ places := Nat.pow_le_pow_right (by decide) (by omega)

/-- A decimal fraction is rounded once, whatever its size. -/
theorem ofDecimal_fraction (negative : Bool) (digits places : Nat) :
    ofDecimal negative digits (-(places : Int)) = ofQuotient negative digits (10 ^ places) := by
  unfold ofDecimal
  split
  · rename_i zero
    rw [zero, ofQuotient, Nat.zero_mul, ofUnits_eq_zero]
    exact Nat.pow_pos (by decide)
  · split
    · omega
    · split
      · rename_i tiny
        rw [ofQuotient, ofUnits_eq_zero negative (two_mul_lt_of_tiny tiny)]
      · split
        · obtain rfl : places = 0 := by omega
          simp
        · simp

/-! ## Cutting off the fraction -/

/-- With its last `n` places at zero a number needs no more places than before. -/
theorem IsRounded.floor {units : Nat} (h : IsRounded units) (n : Nat) :
    IsRounded (units / 2 ^ n * 2 ^ n) := by
  rcases Nat.lt_or_ge units (2 ^ (n + 53)) with below | above
  · exact isRounded_of_lt (Nat.lt_of_le_of_lt (Nat.div_mul_le_self _ _) below) (Nat.dvd_mul_left _ _)
  · have some : units ≠ 0 := Nat.ne_of_gt (Nat.lt_of_lt_of_le (Nat.two_pow_pos _) above)
    have high := (Nat.le_log2 some).mpr above
    have whole : 2 ^ n ∣ units :=
      (Nat.pow_dvd_pow 2 (by unfold dropped; omega)).trans h
    rw [Nat.div_mul_cancel whole]
    exact h

/-- A number of units without its fraction. -/
def Units.whole (units : Units) : Units where
  count := units.count / one * one
  inRange := Nat.lt_of_le_of_lt (Nat.div_mul_le_self _ _) units.inRange
  isRounded := by
    rw [one_eq]
    exact units.isRounded.floor 1074

/-- A whole number that is left of a number of the format is a number of the format. -/
theorem ofInt_whole (units : Units) :
    ofInt ((units.count / one : Nat) : Int) = .finite false units.whole := by
  have kept : roundUnits (units.count / one * one) 1 = units.whole.count :=
    roundUnits_of_isRounded units.whole.isRounded
  unfold ofInt ofQuotient
  rw [Int.natAbs_natCast, decide_eq_false (Int.not_lt.mpr (Int.natCast_nonneg _))]
  rcases ofUnits_cases false (units.count / one * one) 1 with ⟨large, -⟩ | ⟨found, nearest, finite⟩
  · rw [kept] at large
    exact absurd units.whole.inRange (Nat.not_lt_of_le large)
  · rw [finite, Units.ext (nearest.trans kept)]

end RequestLocale.Binary64
