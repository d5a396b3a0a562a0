import Mathlib.Data.List.TakeWhile
import RequestLocale.Number.Numeral
import RequestLocale.Proofs.LowerCase

/-! # Runs of decimal digits

A run of digits ends where another character stands, and each digit in it has its own value.
Digits have no case, in whatever script. -/
namespace RequestLocale

namespace Text

theorem values_of_isDigit {digits : List Char} (h : ∀ c ∈ digits, isDigit c = true) :
    digits.map digitValue? = (digits.filterMap digitValue?).map some := by
  induction digits with
  | nil => rfl
  | cons c digits ih =>
    obtain ⟨d, hd⟩ := Option.isSome_iff_exists.mp (h c List.mem_cons_self)
    rw [List.map_cons, List.filterMap_cons_some hd, List.map_cons, hd,
      ih fun e he => h e (List.mem_cons_of_mem c he)]

theorem length_values {digits : List Char} (h : ∀ c ∈ digits, isDigit c = true) :
    (digits.filterMap digitValue?).length = digits.length := by
  have same := congrArg List.length (values_of_isDigit h)
  rw [List.length_map, List.length_map] at same
  exact same.symm

theorem lowerChar_of_isDigit {c : Char} (h : isDigit c = true) : lowerChar c = c := by
  by_cases hc : c.toNat < 128
  · exact forall_of_ascii (fun c => isDigit c = true → lowerChar c = c) (by decide +kernel) hc h
  · rcases lowerChar_cases hc with ⟨-, own⟩ | ⟨run, hr, inside, -⟩
    · exact own
    · -- No run of capitals comes near the ten digits of a script.
      have apart : ∀ run ∈ caseRuns, ∀ first ∈ digitZeros,
          run.last < first ∨ first + 10 ≤ run.first := by decide +kernel
      rw [isDigit, digitValue?, if_neg hc, Option.isSome_map, List.find?_isSome] at h
      obtain ⟨first, hf, between⟩ := h
      simp only [CaseRun.contains, Bool.and_eq_true, decide_eq_true_eq] at inside between
      have := apart run hr first hf
      omega

end Text

namespace Numeral

open Text

/-- Digits at the head are read up to the first other character. -/
theorem digitsAtHead_append {digits rest : List Char} (h : ∀ c ∈ digits, isDigit c = true)
    (stop : ∀ c ∈ rest.head?, isDigit c = false) :
    digitsAtHead (digits ++ rest) = (digits.filterMap digitValue?, rest) := by
  have none : rest.takeWhile isDigit = [] ∧ rest.dropWhile isDigit = rest := by
    cases rest with
    | nil => exact ⟨rfl, rfl⟩
    | cons c rest =>
      have hc : isDigit c = false := stop c rfl
      simp [hc]
  rw [digitsAtHead, List.takeWhile_append_of_pos h, List.dropWhile_append_of_pos h, none.1, none.2,
    List.append_nil]

/-- What is read are the digits of a run, which is followed by what is left. -/
theorem digitsAtHead_eq (cs : List Char) :
    ∃ digits : List Char, (∀ c ∈ digits, isDigit c = true) ∧
      digitsAtHead cs = (digits.filterMap digitValue?, cs.dropWhile isDigit) ∧
        cs = digits ++ cs.dropWhile isDigit :=
  ⟨cs.takeWhile isDigit, fun _ hc => List.mem_takeWhile_imp hc, rfl,
    (List.takeWhile_append_dropWhile).symm⟩

end Numeral

end RequestLocale
