import Mathlib.Data.List.Induction
import Mathlib.Tactic.Ring
import RequestLocale.Number.Numeral

/-! # The range of floating-point numbers

A quotient becomes infinite when it is rounded to the first number of units without a finite form.
That number is a power of two, and the midpoint between it and the last finite number counts to it,
since that last number is odd in its last place: so the quotients that become infinite begin half a
step below the power (`le_roundUnits_iff`). In whole numbers this is the bound `limit`
(`ofInt_cases`, `ofQuotient_cases`). What is read from few digits can be written out again
(`Numeral.exceedsDigitLimit_of_whole?`). -/
namespace RequestLocale.Binary64

/-! ## Rounding at the end of the range -/

theorem div_le_roundQuotient (num den : Nat) : num / den ≤ roundQuotient num den := by
  unfold roundQuotient
  dsimp only
  split <;> omega

/-- An odd quotient is rounded up from the midpoint on. -/
theorem lt_roundQuotient_iff {num den : Nat} (hodd : num / den % 2 = 1) :
    num / den < roundQuotient num den ↔ den ≤ 2 * (num % den) := by
  unfold roundQuotient
  dsimp only
  split <;> omega

/-- The midpoint above a quotient, without division. -/
theorem le_two_mul_mod_iff {num den q : Nat} (hq : num / den = q) :
    den ≤ 2 * (num % den) ↔ (2 * q + 1) * den ≤ 2 * num := by
  have parts := Nat.div_add_mod num den
  rw [hq] at parts
  have expand : (2 * q + 1) * den = 2 * (den * q) + den := by ring
  rw [expand]
  omega

theorem dropped_eq {units m : Nat} (hl : 2 ^ (m + 53) ≤ units) (hh : units < 2 ^ (m + 54)) :
    dropped units = m + 1 := by
  have hz : units ≠ 0 := Nat.ne_of_gt (Nat.lt_of_lt_of_le (Nat.two_pow_pos _) hl)
  have low := (Nat.le_log2 hz).mpr hl
  have high := (Nat.log2_lt hz).mpr hh
  unfold dropped
  omega

/-- Far below the power of two nothing is rounded to it. -/
theorem roundUnits_lt {num den m : Nat} (h : num / den < 2 ^ (m + 53)) :
    roundUnits num den < 2 ^ (m + 54) := by
  have hp := dropped_le h
  unfold roundUnits
  dsimp only [Nat.pow_eq]
  generalize dropped (num / den) = p at hp ⊢
  have up := Nat.mul_le_mul_right (2 ^ p) (roundQuotient_le num (den * 2 ^ p))
  have whole : num / (den * 2 ^ p) * 2 ^ p ≤ num / den := by
    rw [← Nat.div_div_eq_div_mul]
    exact Nat.div_mul_le_self _ _
  have step : 2 ^ p ≤ 2 ^ m := Nat.pow_le_pow_right (by decide) hp
  have double : 2 ^ (m + 54) = 2 * 2 ^ (m + 53) := by ring
  have far : 2 ^ m ≤ 2 ^ (m + 53) := Nat.pow_le_pow_right (by decide) (by omega)
  rw [Nat.add_mul, Nat.one_mul] at up
  omega

/-- From the power of two on nothing falls below it. -/
theorem le_roundUnits {num den n : Nat} (h : 2 ^ n ≤ num / den) : 2 ^ n ≤ roundUnits num den := by
  have hz : num / den ≠ 0 := Nat.ne_of_gt (Nat.lt_of_lt_of_le (Nat.two_pow_pos _) h)
  have hn := (Nat.le_log2 hz).mpr h
  have top : 2 ^ (num / den).log2 ≤ num / den := Nat.log2_self_le hz
  have hp : dropped (num / den) ≤ (num / den).log2 := by
    unfold dropped
    omega
  unfold roundUnits
  dsimp only [Nat.pow_eq]
  generalize dropped (num / den) = p at hp ⊢
  have kept : 2 ^ (num / den).log2 ≤ num / den / 2 ^ p * 2 ^ p := by
    obtain ⟨more, hm⟩ := Nat.exists_eq_add_of_le hp
    rw [hm, Nat.pow_add] at top ⊢
    rw [Nat.mul_comm]
    exact Nat.mul_le_mul_right _ ((Nat.le_div_iff_mul_le (Nat.two_pow_pos _)).mpr
      (by rwa [Nat.mul_comm]))
  calc 2 ^ n ≤ 2 ^ (num / den).log2 := Nat.pow_le_pow_right (by decide) hn
    _ ≤ num / den / 2 ^ p * 2 ^ p := kept
    _ = num / (den * 2 ^ p) * 2 ^ p := by rw [Nat.div_div_eq_div_mul]
    _ ≤ roundQuotient num (den * 2 ^ p) * 2 ^ p :=
      Nat.mul_le_mul_right _ (div_le_roundQuotient _ _)

/-- In the last stretch below the power of two the midpoint decides. -/
theorem le_roundUnits_last {num den m : Nat} (hd : 0 < den) (hl : 2 ^ (m + 53) ≤ num / den)
    (hh : num / den < 2 ^ (m + 54)) :
    2 ^ (m + 54) ≤ roundUnits num den ↔ (2 ^ (m + 54) - 2 ^ m) * den ≤ num := by
  have places := dropped_eq hl hh
  have power : 2 ^ (m + 54) = 2 ^ 53 * 2 ^ (m + 1) := by ring
  have unit : 0 < den * 2 ^ m := Nat.mul_pos hd (Nat.two_pow_pos m)
  have bound : (2 ^ (m + 54) - 2 ^ m) * den = (2 ^ 54 - 1) * (den * 2 ^ m) := by
    rw [show 2 ^ (m + 54) = 2 ^ 54 * 2 ^ m by ring, ← Nat.sub_one_mul]
    ring
  have grid : den * 2 ^ (m + 1) = 2 * (den * 2 ^ m) := by ring
  have few : num / (den * 2 ^ (m + 1)) < 2 ^ 53 := by
    rw [← Nat.div_div_eq_div_mul, Nat.div_lt_iff_lt_mul (Nat.two_pow_pos _), ← power]
    exact hh
  have reached : 2 ^ (m + 54) ≤ roundUnits num den ↔
      2 ^ 53 ≤ roundQuotient num (den * 2 ^ (m + 1)) := by
    unfold roundUnits
    dsimp only [Nat.pow_eq]
    rw [places, power]
    exact Nat.mul_le_mul_right_iff (Nat.two_pow_pos _)
  have atMost := roundQuotient_le num (den * 2 ^ (m + 1))
  rw [reached, bound]
  by_cases last : num / (den * 2 ^ (m + 1)) = 2 ^ 53 - 1
  · have odd : num / (den * 2 ^ (m + 1)) % 2 = 1 := by omega
    have up := lt_roundQuotient_iff odd
    rw [le_two_mul_mod_iff last, grid] at up
    rw [grid] at last ⊢
    omega
  · have short : num < (2 ^ 53 - 1) * (den * 2 ^ (m + 1)) := by
      refine (Nat.div_lt_iff_lt_mul ?_).mp (by omega)
      omega
    omega

/-- The quotients that are rounded to a power of two or beyond. -/
theorem le_roundUnits_iff {num den : Nat} (hd : 0 < den) (m : Nat) :
    2 ^ (m + 54) ≤ roundUnits num den ↔ (2 ^ (m + 54) - 2 ^ m) * den ≤ num := by
  have double : 2 ^ (m + 54) = 2 * 2 ^ (m + 53) := by ring
  have far : 2 ^ m ≤ 2 ^ (m + 53) := Nat.pow_le_pow_right (by decide) (by omega)
  rcases Nat.lt_or_ge (num / den) (2 ^ (m + 53)) with below | above
  · have small := roundUnits_lt below
    have short : num < 2 ^ (m + 53) * den := (Nat.div_lt_iff_lt_mul hd).mp below
    have less : 2 ^ (m + 53) * den ≤ (2 ^ (m + 54) - 2 ^ m) * den :=
      Nat.mul_le_mul_right _ (by omega)
    omega
  · rcases Nat.lt_or_ge (num / den) (2 ^ (m + 54)) with inside | beyond
    · exact le_roundUnits_last hd above inside
    · have reached := le_roundUnits beyond
      have long : 2 ^ (m + 54) * den ≤ num := (Nat.le_div_iff_mul_le hd).mp beyond
      have less : (2 ^ (m + 54) - 2 ^ m) * den ≤ 2 ^ (m + 54) * den :=
        Nat.mul_le_mul_right _ (Nat.sub_le _ _)
      omega

/-! ## The bound -/

/-- The least whole number beyond the range. -/
def limit : Nat := 2 ^ 1024 - 2 ^ 970

theorem one_eq : one = 2 ^ 1074 := Nat.pow_eq

theorem overflow_eq : overflow = 2 ^ (2044 + 54) := Nat.pow_eq

theorem one_pos : 0 < one := Nat.two_pow_pos _

/-- The bound in units is half a step below the first number of units without a finite form. -/
theorem limit_mul_one : limit * one = 2 ^ (2044 + 54) - 2 ^ 2044 := by
  rw [limit, one_eq, Nat.sub_mul, ← Nat.pow_add, ← Nat.pow_add]

theorem overflow_le_roundUnits_iff {num den : Nat} (hd : 0 < den) :
    overflow ≤ roundUnits (num * one) den ↔ limit * den ≤ num := by
  rw [overflow_eq, le_roundUnits_iff hd, ← limit_mul_one, Nat.mul_right_comm]
  exact Nat.mul_le_mul_right_iff one_pos

theorem ofUnits_cases (negative : Bool) (num den : Nat) :
    (overflow ≤ roundUnits num den ∧ ofUnits negative num den = .infinite negative) ∨
      ∃ units : Units, units.count = roundUnits num den ∧
        ofUnits negative num den = .finite negative units := by
  unfold ofUnits Units.round?
  by_cases h : roundUnits num den < overflow
  · exact .inr ⟨⟨_, h, isRounded_roundUnits num den⟩, rfl, by rw [dif_pos h]; rfl⟩
  · exact .inl ⟨Nat.le_of_not_lt h, by rw [dif_neg h]; rfl⟩

/-- A quotient is infinite from the bound on, and finite below it. -/
theorem ofQuotient_cases (negative : Bool) {num den : Nat} (hd : 0 < den) :
    (limit * den ≤ num ∧ ofQuotient negative num den = .infinite negative) ∨
      (num < limit * den ∧ ∃ units, ofQuotient negative num den = .finite negative units) := by
  have bound : overflow ≤ roundUnits (num * one) den ↔ limit * den ≤ num :=
    overflow_le_roundUnits_iff hd
  rcases ofUnits_cases negative (num * one) den with ⟨large, h⟩ | ⟨units, nearest, h⟩
  · exact .inl ⟨bound.mp large, h⟩
  · have small := units.inRange
    rw [nearest] at small
    exact .inr ⟨Nat.lt_of_not_le fun reached => Nat.not_le_of_lt small (bound.mpr reached), _, h⟩

theorem ofInt_cases (n : Int) :
    (limit ≤ n.natAbs ∧ ofInt n = .infinite (n < 0)) ∨
      (n.natAbs < limit ∧ ∃ units, ofInt n = .finite (n < 0) units) := by
  rw [← Nat.mul_one limit]
  exact ofQuotient_cases _ Nat.one_pos

end RequestLocale.Binary64

namespace RequestLocale.Numeral

open Text

/-- Digits spell a number with no more digits. -/
theorem ofDigitValues_lt {digits : List Nat} (h : ∀ d ∈ digits, d < 10) :
    ofDigitValues digits < 10 ^ digits.length := by
  induction digits using List.reverseRecOn with
  | nil => decide
  | append_singleton digits d ih =>
    have last : d < 10 := h d (by simp)
    have front := ih fun e he => h e (List.mem_append_left _ he)
    rw [ofDigitValues_append_singleton, List.length_append, List.length_singleton, Nat.pow_succ]
    omega

theorem lt_of_mem_digitsAtHead {cs : List Char} {d : Nat} (h : d ∈ (digitsAtHead cs).1) :
    d < 10 := by
  obtain ⟨c, _, hd⟩ := List.mem_filterMap.mp h
  exact digitValue?_lt hd

theorem natAbs_toInt (w : Whole) : w.toInt.natAbs = ofDigitValues w.digits := by
  unfold Whole.toInt
  cases w.negative <;> simp

/-- A whole number that is read from few digits can be written. -/
theorem exceedsDigitLimit_of_whole? {cs : List Char} {w : Whole} (h : whole? cs = some w)
    (hw : w.tooLong = false) : exceedsDigitLimit w.toInt = false := by
  have digits : ∀ d ∈ w.digits, d < 10 := by
    obtain ⟨plain, _, h⟩ := Option.bind_eq_some_iff.mp h
    dsimp only at h
    split at h
    · cases h
    · cases h
      exact fun d hd => lt_of_mem_digitsAtHead hd
  have few : w.digits.length ≤ digitLimit := by simpa [Whole.tooLong] using hw
  have bound : ofDigitValues w.digits < 10 ^ digitLimit :=
    Nat.lt_of_lt_of_le (ofDigitValues_lt digits) (Nat.pow_le_pow_right (by decide) few)
  rw [← Bool.not_eq_true, exceedsDigitLimit_iff, natAbs_toInt]
  exact Nat.not_le_of_lt bound

end RequestLocale.Numeral
