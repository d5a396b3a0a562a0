/-! The order of characters and texts, which is that of code points: sets of characters given as
ascending ranges, both ends included, and lists sorted by texts. -/
namespace RequestLocale.Text

abbrev Ranges := List (Nat × Nat)

def Ranges.contains (ranges : Ranges) (c : Char) : Bool :=
  ranges.any fun range => range.1 ≤ c.toNat && c.toNat ≤ range.2

def isSorted (a b : String) : Bool := !decide (b < a)

def sorted (ss : List String) : List String := ss.mergeSort isSorted

theorem sorted_perm (ss : List String) : (sorted ss).Perm ss := List.mergeSort_perm ss _

/-- Sorted by texts that are all different, a list is strictly ordered by them. -/
theorem mergeSort_increasing {α : Type} (text : α → String) {xs : List α}
    (distinct : xs.Pairwise fun a b => text a ≠ text b) :
    (xs.mergeSort fun a b => !decide (text b < text a)).Pairwise fun a b => text a < text b := by
  have sorted : (xs.mergeSort fun a b => !decide (text b < text a)).Pairwise
      fun a b => text a ≤ text b := by
    refine (List.pairwise_mergeSort ?_ ?_ _).imp ?_
    · simp only [Bool.not_eq_true', decide_eq_false_iff_not, String.not_lt]
      exact fun _ _ _ => String.le_trans
    · simp only [Bool.or_eq_true, Bool.not_eq_true', decide_eq_false_iff_not, String.not_lt]
      exact fun a b => String.le_total (text a) (text b)
    · simp only [Bool.not_eq_true', decide_eq_false_iff_not, String.not_lt, imp_self, implies_true]
  refine (sorted.and (distinct.perm (List.mergeSort_perm _ _).symm fun h => h.symm)).imp ?_
  rintro a b ⟨hle, hne⟩
  exact Decidable.byContradiction fun hlt => hne (String.le_antisymm hle (String.not_lt.mp hlt))

end RequestLocale.Text
