/-! Cutting a text at a separator: everywhere, or at its first place. -/
namespace RequestLocale.Text

/-- The parts between the separators, one more than there are separators. -/
def split (sep : Char) : List Char → List (List Char)
  | [] => [[]]
  | c :: cs =>
    if c = sep then [] :: split sep cs
    else match split sep cs with
      | [] => [[c]]
      | part :: parts => (c :: part) :: parts

theorem split_ne_nil (sep : Char) (cs : List Char) : split sep cs ≠ [] := by
  cases cs with
  | nil => simp [split]
  | cons c cs =>
    simp only [split]
    split
    · simp
    · split <;> simp

/-- What stands before and after the first separator, and `none` without one. -/
def cut? (sep : Char) : List Char → Option (List Char × List Char)
  | [] => none
  | c :: cs =>
    if c = sep then some ([], cs) else (cut? sep cs).map fun (before, rest) => (c :: before, rest)

/-- As `cut?`, with the whole text before a separator that is missing. -/
def cut (sep : Char) (cs : List Char) : List Char × List Char := (cut? sep cs).getD (cs, [])

theorem cut?_eq_none_iff {sep : Char} {cs : List Char} : cut? sep cs = none ↔ sep ∉ cs := by
  induction cs with
  | nil => simp [cut?]
  | cons c cs ih =>
    by_cases h : c = sep
    · simp [cut?, h]
    · simp [cut?, h, Ne.symm h, ih]

theorem cut?_append {sep : Char} {before : List Char} (h : sep ∉ before) (rest : List Char) :
    cut? sep (before ++ sep :: rest) = some (before, rest) := by
  induction before with
  | nil => simp [cut?]
  | cons c before ih =>
    simp only [List.mem_cons, not_or] at h
    simp [cut?, Ne.symm h.1, ih h.2]

/-- The parts of a text joined with a separator between neighbours. -/
def join (sep : List Char) : List (List Char) → List Char
  | [] => []
  | [part] => part
  | part :: parts => part ++ sep ++ join sep parts

theorem join_split (sep : Char) (cs : List Char) : join [sep] (split sep cs) = cs := by
  induction cs with
  | nil => rfl
  | cons c cs ih =>
    simp only [split]
    by_cases h : c = sep
    · subst h
      cases hs : split c cs with
      | nil => exact absurd hs (split_ne_nil c cs)
      | cons part parts => rw [hs] at ih; simp [join, ih]
    · rw [if_neg h]
      cases hs : split sep cs with
      | nil => exact absurd hs (split_ne_nil sep cs)
      | cons part parts =>
        rw [hs] at ih
        cases parts <;> simp_all [join]

end RequestLocale.Text
