import RequestLocale.Proofs.FieldValues
import RequestLocale.Proofs.Filling

/-! # Values that are no durations

A value that is no duration is to be reported as such. Two kinds of values are not: a whole number
beyond the floating-point range fails before it is looked at, and a value that holds a number with
too many digits cannot be shown in its report. There are no others. Settings list the second kind
among the faults of their fields, but not the first (`Settings.reports_durations_iff`). -/
namespace RequestLocale

namespace Duration

/-! ## The amount of seconds -/

/-- The whole seconds of an amount that is finite and not below zero. -/
def HasWhole (x : Binary64) (n : Nat) : Prop :=
  ∃ negative units, x = .finite negative units ∧ (negative = true → units.count = 0) ∧
    n = units.count / Binary64.one

theorem whole?_eq_some_iff {x : Binary64} {n : Nat} : whole? x = some n ↔ HasWhole x n := by
  cases x with
  | nan => simp [whole?, HasWhole, Binary64.lt, Binary64.trunc?]
  | infinite negative => cases negative <;> simp [whole?, HasWhole, Binary64.lt, Binary64.trunc?]
  | finite negative units =>
    have below : (Binary64.finite negative units).lt (.finite false 0) = true ↔
        ¬ (negative = true → units.count = 0) := by
      cases negative <;> simp [Binary64.lt, Binary64.signed, Nat.pos_iff_ne_zero]
    have whole : (negative = true → units.count = 0) →
        (Binary64.signed negative (units.count / Binary64.one)).toNat = units.count / Binary64.one := by
      generalize Binary64.one = one
      cases negative with
      | false => exact fun _ => rfl
      | true => intro zero; rw [zero rfl, Nat.zero_div]; rfl
    unfold whole? HasWhole
    split
    · rename_i less
      simp only [reduceCtorEq, false_iff, not_exists, not_and]
      rintro sign other h fine
      cases h
      exact absurd fine (below.mp less)
    · rename_i notLess
      have fine : negative = true → units.count = 0 := by
        rwa [below, not_not] at notLess
      rw [Binary64.trunc?, Option.map_some, whole fine, Option.some.injEq]
      constructor
      · rintro rfl
        exact ⟨negative, units, rfl, fine, rfl⟩
      · rintro ⟨sign, other, h, -, rfl⟩
        cases h
        rfl

/-- The seconds that a value stands for, in floating point. -/
def amount? : Value → Option Binary64
  | .int n => some (.ofInt n)
  | .float x => some x
  | .text s => ofText? s.toList
  | _ => none

/-- A whole number beyond the floating-point range. -/
def IsTooLarge (value : Value) : Prop := ∃ n, value = .int n ∧ Binary64.limit ≤ n.natAbs

theorem not_isTooLarge_text (s : String) : ¬ IsTooLarge (.text s) := by
  rintro ⟨n, h, -⟩
  cases h

theorem seconds_int (n : Int) :
    seconds (.int n) = (converted (.ofInt n)).bind fun x =>
      (whole? x).elim (.error (refusal (.int n))) .ok := rfl

theorem seconds_of_isTooLarge {value : Value} (h : IsTooLarge value) :
    seconds value = .error .tooLarge := by
  obtain ⟨n, rfl, large⟩ := h
  rcases Binary64.ofInt_cases n with ⟨-, infinite⟩ | ⟨small, -⟩
  · rw [seconds_int, infinite]
    rfl
  · exact absurd large (Nat.not_le_of_lt small)

/-- Every other value is measured by its amount or refused. -/
theorem seconds_eq {value : Value} (h : ¬ IsTooLarge value) :
    seconds value = ((amount? value).bind whole?).elim (.error (refusal value)) .ok := by
  cases value with
  | int n =>
    rcases Binary64.ofInt_cases n with ⟨large, -⟩ | ⟨-, units, finite⟩
    · exact absurd ⟨n, rfl, large⟩ h
    · rw [seconds_int, amount?, finite]
      rfl
  | text s =>
    simp only [seconds, amount, amount?]
    cases ofText? s.toList <;> rfl
  | _ => rfl

theorem seconds_eq_ok_iff {value : Value} {n : Nat} :
    seconds value = .ok n ↔ ¬ IsTooLarge value ∧ ∃ x, amount? value = some x ∧ HasWhole x n := by
  by_cases large : IsTooLarge value
  · simp [seconds_of_isTooLarge large, large]
  · rw [seconds_eq large]
    constructor
    · intro h
      obtain ⟨x, hx, hn⟩ := Option.bind_eq_some_iff.mp (eq_some_of_elim h)
      exact ⟨large, x, hx, whole?_eq_some_iff.mp hn⟩
    · rintro ⟨-, x, hx, hn⟩
      rw [hx, Option.bind_some, whole?_eq_some_iff.mpr hn]
      rfl

/-! ## What is reported -/

/-- A value that is no whole number and holds one with too many digits to be written. -/
def IsUnwritable (value : Value) : Prop :=
  (∀ n, value ≠ .int n) ∧ ∃ n, value.Spells n ∧ Numeral.exceedsDigitLimit n = true

/-- A value is measured or refused with a report that shows it. -/
def Reports (value : Value) : Prop :=
  (∃ n, seconds value = .ok n) ∨ seconds value = .error (.invalid value)

/-- What can be written is measured or reported. -/
theorem reports_of_writable {value : Value} (large : ¬ IsTooLarge value)
    (writable : value.exceedsDigits = false) : Reports value := by
  have report : refusal value = .invalid value := by
    rw [refusal, writable]
    rfl
  rw [Reports, seconds_eq large, report]
  cases (amount? value).bind whole? with
  | none => exact .inr rfl
  | some n => exact .inl ⟨n, rfl⟩

/-- A whole number that is not too large can be written. -/
theorem writable_of_int {n : Int} (h : ¬ IsTooLarge (.int n)) :
    (Value.int n).exceedsDigits = false := by
  have small : n.natAbs < Binary64.limit :=
    Nat.lt_of_not_le fun large => h ⟨n, rfl, large⟩
  have short : Binary64.limit ≤ 2 ^ 1024 := Nat.sub_le _ _
  change Numeral.exceedsDigitLimit n = false
  rw [← Bool.not_eq_true, Numeral.exceedsDigitLimit_iff, Nat.not_le]
  exact Nat.lt_trans (Nat.lt_of_lt_of_le small short) Numeral.range_lt

theorem reports_iff {value : Value} :
    Reports value ↔ ¬ IsTooLarge value ∧ ¬ IsUnwritable value := by
  by_cases large : IsTooLarge value
  · simp [Reports, seconds_of_isTooLarge large, large]
  · cases long : value.exceedsDigits with
    | false =>
      have writable : ¬ IsUnwritable value := by
        rintro ⟨-, spelled⟩
        rw [Value.exceedsDigits_iff.mpr spelled] at long
        cases long
      exact iff_of_true (reports_of_writable large long) ⟨large, writable⟩
    | true =>
      have noInt : ∀ n, value ≠ .int n := by
        rintro n rfl
        rw [writable_of_int large] at long
        cases long
      have unwritable : IsUnwritable value := ⟨noInt, Value.exceedsDigits_iff.mp long⟩
      -- Floating-point numbers and texts can always be written, so this value has no amount.
      have noAmount : amount? value = none := by
        cases value with
        | int n => exact absurd rfl (noInt n)
        | float x => cases long
        | text s => cases long
        | _ => rfl
      refine iff_of_false ?_ fun h => h.2 unwritable
      rw [Reports, seconds_eq large, noAmount, refusal, long]
      rintro (⟨n, h⟩ | h) <;> cases h

end Duration

namespace Settings

open Duration (IsTooLarge IsUnwritable Reports)

/-- Settings are built, or the faults of their fields are listed. -/
def IsChecked (result : Except Error Settings) : Prop :=
  (∃ s, result = .ok s) ∨ ∃ faults, result = .error (.invalid faults)

/-- The variable for the aliases is absent or holds JSON. -/
def HasAliases (environment : Table String) : Prop :=
  ∃ aliases, environmentValue environment .aliases = .ok aliases

theorem checkMaxAge_of_isTooLarge {value : Value} (h : IsTooLarge value) :
    checkMaxAge value = .error .durationTooLarge :=
  checkMaxAge_of_error (Duration.seconds_of_isTooLarge h)

theorem checkMaxAge_of_not_isTooLarge {value : Value} (h : ¬ IsTooLarge value) :
    ∃ life, checkMaxAge value = .ok life := by
  have measured := Duration.seconds_eq h
  cases hw : (Duration.amount? value).bind Duration.whole? with
  | some n =>
    rw [hw] at measured
    exact ⟨_, checkMaxAge_of_seconds ⟨n, Duration.isShort_of_seconds measured⟩ measured⟩
  | none =>
    rw [hw, Option.elim_none] at measured
    rw [checkMaxAge_of_error measured, Duration.refusal]
    cases value.exceedsDigits <;> exact ⟨_, rfl⟩

theorem isChecked_check_iff {given : Field → Option Value} :
    IsChecked (check given) ↔
      ¬ IsTooLarge ((given .cookieMaxAge).getD (fallback .cookieMaxAge)) := by
  by_cases large : IsTooLarge ((given .cookieMaxAge).getD (fallback .cookieMaxAge))
  · simp [IsChecked, check, checkMaxAge_of_isTooLarge large, bind, Except.bind, large]
  · refine iff_of_true ?_ large
    obtain ⟨life, hl⟩ := checkMaxAge_of_not_isTooLarge large
    simp only [check, hl, bind, Except.bind]
    split
    · exact .inl ⟨_, rfl⟩
    · exact .inr ⟨_, rfl⟩

/-- Neither a variable nor the default is a whole number that is too large. -/
theorem isTooLarge_given_iff {keywords : List (String × Value)} {environment : Table String}
    {aliases : Option Value} :
    IsTooLarge ((given keywords environment aliases .cookieMaxAge).getD (fallback .cookieMaxAge)) ↔
      ∃ value, keyword? keywords .cookieMaxAge = some value ∧ IsTooLarge value := by
  obtain ⟨value, keyword, found⟩ | ⟨none, s, found⟩ :=
    cookieMaxAge_cases keywords environment aliases
  · simp [keyword, found]
  · simp only [none, found, reduceCtorEq, false_and, exists_false, iff_false]
    exact Duration.not_isTooLarge_text s

theorem isChecked_build_iff {keywords : List (String × Value)} {environment : Table String}
    (aliases : HasAliases environment) :
    IsChecked (build keywords environment) ↔
      ∀ value, keyword? keywords .cookieMaxAge = some value → ¬ IsTooLarge value := by
  obtain ⟨aliases, ha⟩ := aliases
  rw [build_eq, ha]
  change IsChecked (check _) ↔ _
  rw [isChecked_check_iff, isTooLarge_given_iff]
  simp only [not_exists, not_and]

theorem hasAliases_empty : HasAliases {} := ⟨none, environmentValue_empty .aliases⟩

/-- A keyword for the life of the cookie, and nothing else. -/
def lifeOnly (value : Value) : List (String × Value) := [(Field.cookieMaxAge.name, value)]

theorem isChecked_lifeOnly_iff {value : Value} :
    IsChecked (build (lifeOnly value) {}) ↔ ¬ IsTooLarge value := by
  rw [isChecked_build_iff hasAliases_empty, lifeOnly, keyword?_single, if_pos rfl]
  simp

/-- **Which durations are refused with a report.** A value is measured or reported unless it is a
whole number beyond the floating-point range or, being no whole number itself, holds one with too
many digits to be written. Settings are built or list the faults of their fields unless the keyword
for the life of the cookie is a whole number beyond that range. -/
theorem reports_durations_iff (keywords : List (String × Value)) {environment : Table String}
    (aliases : HasAliases environment) :
    (∀ value, Reports value ↔ ¬ IsTooLarge value ∧ ¬ IsUnwritable value) ∧
      (IsChecked (build keywords environment) ↔
        ∀ value, keyword? keywords .cookieMaxAge = some value → ¬ IsTooLarge value) :=
  ⟨fun _ => Duration.reports_iff, isChecked_build_iff aliases⟩

theorem reports_minus_one :
    Reports (.int (-1)) ∧ HasAliases {} ∧ IsChecked (build (lifeOnly (.int (-1))) {}) := by
  have large : ¬ IsTooLarge (.int (-1)) := by
    rintro ⟨n, h, large⟩
    cases h
    exact absurd large (by decide +kernel)
  have writable : ¬ IsUnwritable (.int (-1)) := fun h => h.1 (-1) rfl
  obtain ⟨reports, checked⟩ := reports_durations_iff (lifeOnly (.int (-1))) hasAliases_empty
  refine ⟨(reports _).mpr ⟨large, writable⟩, hasAliases_empty, checked.mpr fun value h => ?_⟩
  rw [lifeOnly, keyword?_single, if_pos rfl] at h
  cases h
  exact large

/-- Ten to the power of four hundred is so large, and ten to the power of four thousand and three
hundred too long to be written. -/
theorem power_of_ten_refused :
    ¬ Reports (.int (10 ^ 400)) ∧ ¬ Reports (.list [.int (10 ^ 4300)]) ∧
      ¬ IsChecked (build (lifeOnly (.int (10 ^ 400))) {}) := by
  have large : IsTooLarge (.int (10 ^ 400)) := ⟨_, rfl, by decide +kernel⟩
  have unwritable : IsUnwritable (.list [.int (10 ^ 4300)]) := by
    refine ⟨fun n h => (by cases h), 10 ^ 4300, .item (List.mem_singleton.mpr rfl) (.whole _), ?_⟩
    decide +kernel
  exact ⟨fun h => (Duration.reports_iff.mp h).1 large,
    fun h => (Duration.reports_iff.mp h).2 unwritable, fun h => isChecked_lifeOnly_iff.mp h large⟩

end Settings

end RequestLocale
