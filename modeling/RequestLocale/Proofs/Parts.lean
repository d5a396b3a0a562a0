import Mathlib.Data.List.TakeWhile
import RequestLocale.Text.Blank
import RequestLocale.Text.Split

/-! # Texts, trimmed and cut

A text is trimmed exactly if neither end of it is blank, and cut exactly if its parts, joined again,
are the text and none of them holds the separator. If the separator is not blank, it does not matter
to the trimmed parts of a text whether the text was trimmed before it was cut
(`map_trim_split_trim`). -/
namespace RequestLocale.Text

/-! ## Blanks at the ends -/

theorem trimEnd_eq_self_iff {cs : List Char} :
    trimEnd cs = cs ↔ ∀ c ∈ cs.getLast?, isBlank c = false := by
  rw [← List.head?_reverse, ← trimStart_eq_self_iff, trimEnd, trimStart, List.reverse_eq_iff]

/-- A text that trimming leaves alone has a character other than a blank at each end. -/
theorem trim_eq_self_iff {cs : List Char} :
    trim cs = cs ↔ (∀ c ∈ cs.head?, isBlank c = false) ∧ ∀ c ∈ cs.getLast?, isBlank c = false := by
  rw [← trimStart_eq_self_iff, ← trimEnd_eq_self_iff]
  constructor
  · intro h
    -- Nothing is lost at the end, so nothing was lost at the start.
    have atEnd := trimEnd_prefix (trimStart cs) |>.length_le
    have start : trimStart cs = cs := by
      refine (List.dropWhile_suffix isBlank).eq_of_length_le ?_
      rwa [← trim, h] at atEnd
    exact ⟨start, by rwa [trim, start] at h⟩
  · rintro ⟨start, atEnd⟩
    rw [trim, start, atEnd]

/-- Text without blanks is trimmed. -/
theorem trim_of_forall {cs : List Char} (h : ∀ c ∈ cs, isBlank c = false) : trim cs = cs :=
  trim_eq_self_iff.mpr ⟨fun c hc => h c (List.mem_of_mem_head? hc),
    fun c hc => h c (List.mem_of_getLast? hc)⟩

section

variable {c : Char} (hc : isBlank c = false)
include hc

theorem trimStart_append (before after : List Char) :
    trimStart (before ++ c :: after) = trimStart before ++ c :: after := by
  rw [trimStart, List.dropWhile_append]
  split
  · rename_i none
    rw [trimStart, List.isEmpty_iff.mp none, List.dropWhile_cons_of_neg (by simp [hc])]
    rfl
  · rfl

theorem trimEnd_append (before after : List Char) :
    trimEnd (before ++ c :: after) = before ++ c :: trimEnd after := by
  have start := trimStart_append hc after.reverse before.reverse
  simp only [trimStart] at start
  simp [trimEnd, start]

theorem trim_append (before after : List Char) :
    trim (before ++ c :: after) = trimStart before ++ c :: trimEnd after := by
  rw [trim, trimStart_append hc, trimEnd_append hc]

end

theorem trim_trimStart (cs : List Char) : trim (trimStart cs) = trim cs := by
  rw [trim, trimStart_trimStart, trim]

theorem trim_trimEnd (cs : List Char) : trim (trimEnd cs) = trim cs := by
  by_cases h : ∃ c ∈ cs, isBlank c = false
  · obtain ⟨c, hm, hc⟩ := h
    obtain ⟨before, after, rfl⟩ := List.append_of_mem hm
    rw [trimEnd_append hc, trim_append hc, trim_append hc, trimEnd_trimEnd]
  · have blank : ∀ c ∈ cs, isBlank c = true := by simpa using h
    have noStart : trimStart cs = [] := List.dropWhile_eq_nil_iff.mpr blank
    have noEnd : trimEnd cs = [] := by
      rw [trimEnd, List.dropWhile_eq_nil_iff.mpr fun c hc => blank c (List.mem_reverse.mp hc)]
      rfl
    rw [noEnd, trim, trim, noStart]
    rfl

/-! ## Parts -/

theorem join_cons {sep part : List Char} {parts : List (List Char)} (hne : parts ≠ []) :
    join sep (part :: parts) = part ++ sep ++ join sep parts := by
  cases parts with
  | nil => exact absurd rfl hne
  | cons next parts => rfl

theorem mem_join {sep : List Char} {parts : List (List Char)} {c : Char}
    (h : c ∈ join sep parts) : c ∈ sep ∨ ∃ part ∈ parts, c ∈ part := by
  induction parts with
  | nil => cases h
  | cons part parts ih =>
    cases parts with
    | nil => exact .inr ⟨part, List.mem_cons_self, h⟩
    | cons next parts =>
      rw [join_cons (List.cons_ne_nil _ _), List.mem_append, List.mem_append] at h
      rcases h with (h | h) | h
      · exact .inr ⟨part, List.mem_cons_self, h⟩
      · exact .inl h
      · rcases ih h with h | ⟨later, hp, h⟩
        · exact .inl h
        · exact .inr ⟨later, List.mem_cons_of_mem _ hp, h⟩

theorem split_of_not_mem {sep : Char} {cs : List Char} (h : sep ∉ cs) : split sep cs = [cs] := by
  induction cs with
  | nil => rfl
  | cons c cs ih =>
    simp only [List.mem_cons, not_or] at h
    rw [split, if_neg (Ne.symm h.1), ih h.2]

theorem split_append {sep : Char} {part : List Char} (h : sep ∉ part) (cs : List Char) :
    split sep (part ++ sep :: cs) = part :: split sep cs := by
  induction part with
  | nil => simp [split]
  | cons c part ih =>
    simp only [List.mem_cons, not_or] at h
    rw [List.cons_append, split, if_neg (Ne.symm h.1), ih h.2]

/-- Parts that are joined with a separator are found again, if none of them contains it. -/
theorem split_join {sep : Char} {parts : List (List Char)} (hne : parts ≠ [])
    (h : ∀ part ∈ parts, sep ∉ part) : split sep (join [sep] parts) = parts := by
  induction parts with
  | nil => exact absurd rfl hne
  | cons part parts ih =>
    obtain ⟨hp, hr⟩ := List.forall_mem_cons.mp h
    cases parts with
    | nil => exact split_of_not_mem hp
    | cons next parts =>
      rw [join_cons (List.cons_ne_nil _ _), List.append_assoc, List.singleton_append,
        split_append hp, ih (List.cons_ne_nil _ _) hr]

theorem not_mem_split (sep : Char) (cs : List Char) {part : List Char}
    (h : part ∈ split sep cs) : sep ∉ part := by
  induction cs generalizing part with
  | nil => simp only [split, List.mem_singleton] at h; simp [h]
  | cons c cs ih =>
    simp only [split] at h
    split at h
    · rcases List.mem_cons.mp h with rfl | h
      · simp
      · exact ih h
    · rename_i hc
      split at h
      · rw [List.mem_singleton.mp h]
        simpa using Ne.symm hc
      · rename_i first parts hs
        rcases List.mem_cons.mp h with rfl | h
        · have apart : sep ∉ first := ih (by rw [hs]; exact List.mem_cons_self)
          simp [apart, Ne.symm hc]
        · exact ih (by rw [hs]; exact List.mem_cons_of_mem _ h)

/-- The first part is what stands before the first separator; the others are parts of the rest. -/
theorem split_eq_cut (sep : Char) (cs : List Char) :
    split sep cs = (cut sep cs).1 :: if sep ∈ cs then split sep (cut sep cs).2 else [] := by
  by_cases h : sep ∈ cs
  · obtain ⟨before, after, rfl, hb⟩ := List.eq_append_cons_of_mem h
    rw [split_append hb, cut, cut?_append hb, if_pos h]
    rfl
  · rw [split_of_not_mem h, cut, cut?_eq_none_iff.mpr h, if_neg h]
    rfl

/-! ## Trimmed parts -/

section

variable {sep : Char} (hs : isBlank sep = false)
include hs

theorem map_trim_split_trimStart (cs : List Char) :
    (split sep (trimStart cs)).map trim = (split sep cs).map trim := by
  by_cases h : sep ∈ cs
  · obtain ⟨first, rest, rfl, hf⟩ := List.eq_append_cons_of_mem h
    have hf' : sep ∉ trimStart first := fun hm => hf ((List.dropWhile_sublist isBlank).mem hm)
    rw [trimStart_append hs, split_append hf', split_append hf, List.map_cons, List.map_cons,
      trim_trimStart]
  · have h' : sep ∉ trimStart cs := fun hm => h ((List.dropWhile_sublist isBlank).mem hm)
    rw [split_of_not_mem h, split_of_not_mem h', List.map_singleton, List.map_singleton,
      trim_trimStart]

theorem map_trim_split_trimEnd {parts : List (List Char)} (hne : parts ≠ [])
    (apart : ∀ part ∈ parts, sep ∉ part) :
    (split sep (trimEnd (join [sep] parts))).map trim = parts.map trim := by
  induction parts with
  | nil => exact absurd rfl hne
  | cons part parts ih =>
    obtain ⟨hp, apart⟩ := List.forall_mem_cons.mp apart
    cases parts with
    | nil =>
      have hp' : sep ∉ trimEnd part := fun hm => hp <| trimEnd_prefix part |>.subset hm
      rw [join, split_of_not_mem hp', List.map_singleton, List.map_singleton, trim_trimEnd]
    | cons next parts =>
      rw [join_cons (List.cons_ne_nil _ _), List.append_assoc, List.singleton_append,
        trimEnd_append hs, split_append hp, List.map_cons, ih (List.cons_ne_nil _ _) apart,
        ← List.map_cons]

/-- The trimmed parts of a text are those of the trimmed text. -/
theorem map_trim_split_trim (cs : List Char) :
    (split sep (trim cs)).map trim = (split sep cs).map trim := by
  have parts := map_trim_split_trimEnd hs (split_ne_nil sep (trimStart cs))
    fun part hp => not_mem_split sep (trimStart cs) hp
  rw [join_split] at parts
  rw [trim, parts, map_trim_split_trimStart hs]

end

end RequestLocale.Text
