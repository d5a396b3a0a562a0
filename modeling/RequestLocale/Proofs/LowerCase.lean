import RequestLocale.Text.Blank
import RequestLocale.Text.LowerCase

/-! # Text in lower case

A character in lower case is left alone wherever it stands, so a text of such characters does not
change (`lower_eq_self`). What any text becomes in lower case is of this kind (`isLow_of_mem_lower`),
although one capital depends on its neighbours and another turns into two characters. What the table
of capitals has to satisfy for this is said of its runs, and not of each character. -/
namespace RequestLocale.Text

/-! ## The table of capitals -/

namespace CaseRun

/-- The partners of the first and of the last capital of a run. -/
def low (run : CaseRun) : Nat := (run.first + run.shift).toNat

def high (run : CaseRun) : Nat := (run.last + run.shift).toNat

/-- Whether no partner of a capital of the run lies within these bounds. -/
def avoids (run : CaseRun) (least greatest : Nat) : Bool :=
  run.high.blt least || greatest.blt run.low

/-- Whether no partner of a capital of the run is a capital of the other run: between two
neighbours of an alternating run there is room for a partner. -/
def misses (run other : CaseRun) : Bool :=
  run.avoids other.first other.last ||
    (run.step == 2 || run.first == run.last) && other.step == 2 &&
      (run.low + other.first) % 2 == 1

/-! The partners of the capitals in the table are characters, none of them blank, none a capital of
the table, and none the dotted capital, which is not in the table. -/

theorem valid_of_mem : ∀ run ∈ caseRuns, 0 ≤ run.first + run.shift ∧ run.high < 0x110000 ∧
    run.avoids 0xD800 0xDFFF = true := by
  decide +kernel

theorem avoids_dotted : ∀ run ∈ caseRuns, run.avoids 'İ'.toNat 'İ'.toNat = true := by
  decide +kernel

theorem avoids_blanks : ∀ run ∈ caseRuns, ∀ range ∈ blankRanges,
    run.avoids range.1 range.2 = true := by
  decide +kernel

theorem misses_of_mem {run other : CaseRun} (hr : run ∈ caseRuns) (ho : other ∈ caseRuns) :
    run.misses other = true := by
  have all : caseRuns.all (fun run => caseRuns.all run.misses) = true := by decide +kernel
  exact List.all_eq_true.mp (List.all_eq_true.mp all run hr) other ho

variable {run : CaseRun} {c d : Char}

/-- The partner of a capital is apart from what its run avoids. -/
theorem not_between_of_avoids (h : run.contains c = true)
    (hd : (d.toNat : Int) = c.toNat + run.shift) {least greatest : Nat}
    (ha : run.avoids least greatest = true) : ¬ (least ≤ d.toNat ∧ d.toNat ≤ greatest) := by
  simp only [contains, avoids, low, high, Bool.and_eq_true, Bool.or_eq_true, decide_eq_true_eq,
    Nat.blt_eq] at h ha
  omega

theorem not_contains_of_misses (hs : 0 ≤ run.first + run.shift) (h : run.contains c = true)
    (hd : (d.toNat : Int) = c.toNat + run.shift) {other : CaseRun}
    (hm : run.misses other = true) : other.contains d = false := by
  rw [misses, Bool.or_eq_true] at hm
  rcases hm with ha | hm
  · have apart := not_between_of_avoids h hd ha
    simp only [contains, Bool.and_eq_false_iff, decide_eq_false_iff_not]
    omega
  · simp only [contains, low, Bool.and_eq_true, Bool.or_eq_true, decide_eq_true_eq,
      beq_iff_eq] at h hm
    obtain ⟨⟨alternating, other2⟩, odd⟩ := hm
    simp only [contains, Bool.and_eq_false_iff, decide_eq_false_iff_not, other2,
      beq_eq_false_iff_ne]
    rcases alternating with step2 | single
    · rw [step2] at h
      omega
    · omega

/-- The partner of a capital of the table is a character, at the distance that the run gives. -/
theorem toNat_partner (hr : run ∈ caseRuns) (h : run.contains c = true) :
    ((Char.ofNat ((c.toNat : Int) + run.shift).toNat).toNat : Int) = c.toNat + run.shift := by
  obtain ⟨nonneg, bounded, gap⟩ := valid_of_mem run hr
  simp only [avoids, low, high, Bool.or_eq_true, Nat.blt_eq] at bounded gap
  simp only [contains, Bool.and_eq_true, decide_eq_true_eq] at h
  have valid : Nat.isValidChar ((c.toNat : Int) + run.shift).toNat := by
    unfold Nat.isValidChar
    omega
  rw [Char.ofNat, dif_pos valid]
  change (((c.toNat : Int) + run.shift).toNat : Int) = _
  omega

end CaseRun

/-- A character beyond ASCII stays or becomes the partner that a run of the table gives it. -/
theorem lowerChar_cases {c : Char} (h : ¬ c.toNat < 128) :
    (∀ run ∈ caseRuns, run.contains c = false) ∧ lowerChar c = c ∨
      ∃ run ∈ caseRuns, run.contains c = true ∧ ((lowerChar c).toNat : Int) = c.toNat + run.shift := by
  rw [lowerChar, if_neg h]
  cases found : caseRuns.find? (·.contains c) with
  | none => exact .inl ⟨fun run hr => by simpa using List.find?_eq_none.mp found run hr, rfl⟩
  | some run =>
    have hr := List.mem_of_find?_eq_some found
    have hc : run.contains c = true := by simpa using List.find?_some found
    exact .inr ⟨run, hr, hc, CaseRun.toNat_partner hr hc⟩

/-! ## Characters in lower case -/

/-- A character that is left alone in lower case, whatever stands around it. -/
def IsLow (c : Char) : Prop := c ≠ 'Σ' ∧ c ≠ 'İ' ∧ lowerChar c = c

instance : DecidablePred IsLow := fun c => inferInstanceAs (Decidable (c ≠ 'Σ' ∧ c ≠ 'İ' ∧ _))

/-- What is to be known of the characters of ASCII is seen by looking at all of them. -/
theorem forall_of_ascii (p : Char → Prop) (h : ∀ n : Fin 128, p (Char.ofNat n)) {c : Char}
    (hc : c.toNat < 128) : p c := by
  have at_c := h ⟨c.toNat, hc⟩
  rwa [Char.ofNat_toNat] at at_c

theorem isLow_of_no_run {c : Char} (h : ∀ run ∈ caseRuns, run.contains c = false) (hd : c ≠ 'İ') :
    IsLow c := by
  refine ⟨?_, hd, ?_⟩
  · rintro rfl
    have capital : caseRuns.any (·.contains 'Σ') = true := by decide +kernel
    obtain ⟨run, hr, hc⟩ := List.any_eq_true.mp capital
    rw [h run hr] at hc
    cases hc
  · by_cases hc : c.toNat < 128
    · have small := h ⟨0x41, 0x5A, 1, 32⟩ (List.Mem.head _)
      exact forall_of_ascii
        (fun c => CaseRun.contains ⟨0x41, 0x5A, 1, 32⟩ c = false → lowerChar c = c)
        (by decide +kernel) hc small
    · rcases lowerChar_cases hc with ⟨-, own⟩ | ⟨run, hr, hc, -⟩
      · exact own
      · rw [h run hr] at hc
        cases hc

theorem isLow_lowerChar {c : Char} (h : c ≠ 'İ') : IsLow (lowerChar c) := by
  by_cases hc : c.toNat < 128
  · exact forall_of_ascii (fun c => IsLow (lowerChar c)) (by decide +kernel) hc
  · rcases lowerChar_cases hc with ⟨none, own⟩ | ⟨run, hr, hc, hd⟩
    · rw [own]
      exact isLow_of_no_run none h
    · refine isLow_of_no_run (fun other ho => ?_) fun dotted => ?_
      · exact CaseRun.not_contains_of_misses (CaseRun.valid_of_mem run hr).1 hc hd
          (CaseRun.misses_of_mem hr ho)
      · refine CaseRun.not_between_of_avoids hc hd (CaseRun.avoids_dotted run hr) ?_
        rw [dotted]
        exact ⟨Nat.le_refl _, Nat.le_refl _⟩

theorem isBlank_lowerChar {c : Char} (h : isBlank c = false) : isBlank (lowerChar c) = false := by
  by_cases hc : c.toNat < 128
  · exact forall_of_ascii (fun c => isBlank c = false → isBlank (lowerChar c) = false)
      (by decide +kernel) hc h
  · rcases lowerChar_cases hc with ⟨-, own⟩ | ⟨run, hr, hc, hd⟩
    · rw [own, h]
    · rw [isBlank, Ranges.contains, List.any_eq_false]
      intro range hb
      simpa using CaseRun.not_between_of_avoids hc hd (CaseRun.avoids_blanks run hr range hb)

/-! ## Texts in lower case -/

/-- What one character of a text becomes. -/
def lowering (before : List Char) (c : Char) (after : List Char) : List Char :=
  if c = 'Σ' then if meetsCased before && !meetsCased after then ['ς'] else ['σ']
  else if c = 'İ' then ['i', '\u0307']
  else [lowerChar c]

theorem lowerFrom_cons (before : List Char) (c : Char) (after : List Char) :
    lowerFrom before (c :: after) = lowering before c after ++ lowerFrom (c :: before) after := rfl

theorem lowering_ne_nil (before : List Char) (c : Char) (after : List Char) :
    lowering before c after ≠ [] := by
  unfold lowering
  split
  · split <;> simp
  · split <;> simp

/-- A property of what any single character becomes. -/
theorem forall_mem_lowering (p : Char → Prop) {c : Char}
    (special : p 'ς' ∧ p 'σ' ∧ p 'i' ∧ p '\u0307') (h : c ≠ 'İ' → p (lowerChar c))
    {before after : List Char} : ∀ d ∈ lowering before c after, p d := by
  obtain ⟨final, sigma, i, dot⟩ := special
  unfold lowering
  split
  · split <;> simpa
  · split
    · simp [i, dot]
    · rename_i hd
      simpa using h hd

theorem isLow_of_mem_lowering {before after : List Char} {c d : Char}
    (h : d ∈ lowering before c after) : IsLow d :=
  forall_mem_lowering IsLow (by decide +kernel) isLow_lowerChar d h

theorem isBlank_of_mem_lowering {before after : List Char} {c d : Char} (hc : isBlank c = false)
    (h : d ∈ lowering before c after) : isBlank d = false :=
  forall_mem_lowering (isBlank · = false) (by decide +kernel) (fun _ => isBlank_lowerChar hc) d h

theorem isLow_of_mem_lowerFrom {before cs : List Char} {d : Char} (h : d ∈ lowerFrom before cs) :
    IsLow d := by
  induction cs generalizing before with
  | nil => cases h
  | cons c cs ih =>
    rw [lowerFrom_cons, List.mem_append] at h
    exact h.elim isLow_of_mem_lowering ih

theorem lowerFrom_of_isLow {cs : List Char} (h : ∀ c ∈ cs, IsLow c) (before : List Char) :
    lowerFrom before cs = cs := by
  induction cs generalizing before with
  | nil => rfl
  | cons c cs ih =>
    obtain ⟨⟨noSigma, noDot, own⟩, h⟩ := List.forall_mem_cons.mp h
    rw [lowerFrom_cons, lowering, if_neg noSigma, if_neg noDot, own, ih h, List.singleton_append]

/-- A text is in lower case if all its characters are. -/
theorem lower_eq_self {cs : List Char} (h : ∀ c ∈ cs, IsLow c) : lower cs = cs :=
  lowerFrom_of_isLow h []

theorem isLow_of_mem_lower {cs : List Char} {d : Char} (h : d ∈ lower cs) : IsLow d :=
  isLow_of_mem_lowerFrom h

/-! ## Lower case and blanks -/

/-- Lower case begins a text with a blank only where one was. -/
theorem isBlank_head_lower {cs : List Char} (h : ∀ c ∈ cs.head?, isBlank c = false) :
    ∀ d ∈ (lower cs).head?, isBlank d = false := by
  cases cs with
  | nil => simp [lower, lowerFrom]
  | cons c cs =>
    intro d hd
    have first : isBlank c = false := h c rfl
    obtain ⟨e, es, he⟩ := List.exists_cons_of_ne_nil (lowering_ne_nil [] c cs)
    have there : d ∈ lowering [] c cs := by
      rw [lower, lowerFrom_cons, he] at hd
      rw [he]
      exact List.mem_of_mem_head? hd
    exact isBlank_of_mem_lowering first there

theorem isBlank_last_lowerFrom {cs : List Char} (h : ∀ c ∈ cs.getLast?, isBlank c = false)
    (before : List Char) : ∀ d ∈ (lowerFrom before cs).getLast?, isBlank d = false := by
  induction cs generalizing before with
  | nil => simp [lowerFrom]
  | cons c cs ih =>
    intro d hd
    rw [lowerFrom_cons, List.getLast?_append] at hd
    cases cs with
    | nil =>
      have last : isBlank c = false := h c rfl
      exact isBlank_of_mem_lowering last (List.mem_of_getLast? (by simpa [lowerFrom] using hd))
    | cons next cs =>
      have more : lowerFrom (c :: before) (next :: cs) ≠ [] := by
        simp [lowerFrom_cons, lowering_ne_nil]
      rw [List.getLast?_eq_some_getLast more, Option.some_or] at hd
      refine ih (by simpa using h) (c :: before) d ?_
      rwa [List.getLast?_eq_some_getLast more]

end RequestLocale.Text
