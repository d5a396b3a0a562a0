import RequestLocale.Text.Order

/-! Blank characters and trimming. A text is trimmed when neither end is blank; trimming a
trimmed text changes nothing. -/
namespace RequestLocale.Text

/-- White space of every script, the line ends, and the four information separators. -/
def blankRanges : Ranges :=
  [(0x9, 0xD), (0x1C, 0x20), (0x85, 0x85), (0xA0, 0xA0), (0x1680, 0x1680), (0x2000, 0x200A),
   (0x2028, 0x2029), (0x202F, 0x202F), (0x205F, 0x205F), (0x3000, 0x3000)]

def isBlank (c : Char) : Bool := blankRanges.contains c

def trimStart (cs : List Char) : List Char := cs.dropWhile isBlank

def trimEnd (cs : List Char) : List Char := (cs.reverse.dropWhile isBlank).reverse

def trim (cs : List Char) : List Char := trimEnd (trimStart cs)

/-- The text without the blanks at its two ends. -/
def trimmed (s : String) : String := String.ofList (trim s.toList)

theorem trimStart_eq_self_iff {cs : List Char} :
    trimStart cs = cs ↔ ∀ c ∈ cs.head?, isBlank c = false := by
  cases cs with
  | nil => simp [trimStart]
  | cons c cs =>
    cases hc : isBlank c with
    | false => simp [trimStart, hc]
    | true =>
      simp only [trimStart, List.dropWhile_cons, hc, if_true, List.head?_cons, Option.mem_def,
        Option.some.injEq, forall_eq']
      constructor
      · intro h
        have shorter := (List.dropWhile_suffix isBlank (l := cs)).length_le
        rw [h] at shorter
        exact absurd shorter (Nat.not_succ_le_self _)
      · simp

theorem trimStart_trimStart (cs : List Char) : trimStart (trimStart cs) = trimStart cs := by
  rw [trimStart_eq_self_iff]
  intro c hc
  have first := List.head?_dropWhile_not isBlank cs
  rw [trimStart] at hc
  rwa [Option.mem_def.mp hc] at first

theorem trimEnd_trimEnd (cs : List Char) : trimEnd (trimEnd cs) = trimEnd cs := by
  have again := trimStart_trimStart cs.reverse
  simp only [trimStart] at again
  simp only [trimEnd, List.reverse_reverse, again]

theorem trimEnd_prefix (cs : List Char) : trimEnd cs <+: cs := by
  have suffix := (List.dropWhile_suffix isBlank (l := cs.reverse)).reverse
  rwa [List.reverse_reverse] at suffix

/-- Trimming the end leaves the start as it is. -/
theorem trim_trim (cs : List Char) : trim (trim cs) = trim cs := by
  have start : trimStart (trim cs) = trim cs := by
    rw [trimStart_eq_self_iff]
    intro c hc
    obtain ⟨rest, hr⟩ := trimEnd_prefix (trimStart cs)
    have there : c ∈ (trimStart cs).head? := by
      rw [← hr, List.head?_append, ← trim, Option.mem_def.mp hc]
      rfl
    exact trimStart_eq_self_iff.mp (trimStart_trimStart cs) c there
  rw [trim, start, trim, trimEnd_trimEnd]

theorem trimmed_trimmed (s : String) : trimmed (trimmed s) = trimmed s := by
  simp only [trimmed, String.toList_ofList, trim_trim]

end RequestLocale.Text
