import RequestLocale.Template.Piece

/-! # The division of a text into pieces

What a scan from left to right finds, told without the scan: the pieces spell the text, each slot
is a text of the kind that is looked for, and a character stands on its own only where no slot
begins. Every text has exactly one such row of pieces (`Finds.divides_iff`), so what a text is
divided into does not depend on what fills it. Two texts side by side have their rows side by side
unless a slot begins in the first and ends in the second (`Divides.append_apart`). -/
namespace RequestLocale.Template

variable {α : Type}

/-- The text that a row of pieces spells. -/
def spelled (row : List (Piece α)) : List Char := row.flatMap Piece.source

@[simp] theorem spelled_nil : spelled ([] : List (Piece α)) = [] := rfl

@[simp] theorem spelled_plain (c : Char) (row : List (Piece α)) :
    spelled (.plain c :: row) = c :: spelled row := rfl

@[simp] theorem spelled_slot (label : α) (source : List Char) (row : List (Piece α)) :
    spelled (.slot label source :: row) = source ++ spelled row := rfl

@[simp] theorem spelled_append (row row' : List (Piece α)) :
    spelled (row ++ row') = spelled row ++ spelled row' := List.flatMap_append

/-- The row that a scan from left to right finds in a text, `IsSlot` telling what is a slot. -/
structure Divides (IsSlot : α → List Char → Prop) (text : List Char) (row : List (Piece α)) :
    Prop where
  spells : spelled row = text
  slots : ∀ label source, .slot label source ∈ row → IsSlot label source
  leftmost : ∀ front c back, row = front ++ .plain c :: back →
    ∀ label source, IsSlot label source → ¬ source <+: c :: spelled back

/-- Looking at the head of a text finds the slot there, and counts its characters after the
first. -/
structure Finds (slotAt : List Char → Option (α × Nat)) (IsSlot : α → List Char → Prop) :
    Prop where
  iff : ∀ {text label more}, slotAt text = some (label, more) ↔
    ∃ source rest, IsSlot label source ∧ source.length = more + 1 ∧ text = source ++ rest
  ne_nil : ∀ {label source}, IsSlot label source → source ≠ []

section Rows

variable {IsSlot : α → List Char → Prop} {text next : List Char} {row row' : List (Piece α)}

namespace Divides

theorem nil : Divides IsSlot [] [] where
  spells := rfl
  slots _ _ h := by cases h
  leftmost front c back h := by simp at h

theorem plain (h : Divides IsSlot text row) {c : Char}
    (none : ∀ label source, IsSlot label source → ¬ source <+: c :: text) :
    Divides IsSlot (c :: text) (.plain c :: row) where
  spells := congrArg (c :: ·) h.spells
  slots label source hm := by
    rcases List.mem_cons.mp hm with hm | hm
    · cases hm
    · exact h.slots label source hm
  leftmost front d back hr := by
    cases front with
    | nil =>
      cases hr
      rw [h.spells]
      exact none
    | cons p front =>
      cases hr
      exact h.leftmost front d back rfl

theorem slot (h : Divides IsSlot text row) {label : α} {source : List Char}
    (hs : IsSlot label source) : Divides IsSlot (source ++ text) (.slot label source :: row) where
  spells := congrArg (source ++ ·) h.spells
  slots label' source' hm := by
    rcases List.mem_cons.mp hm with hm | hm
    · cases hm
      exact hs
    · exact h.slots label' source' hm
  leftmost front d back hr := by
    cases front with
    | nil => cases hr
    | cons p front =>
      cases hr
      exact h.leftmost front d back rfl

theorem tail {p : Piece α} (h : Divides IsSlot text (p :: row)) :
    Divides IsSlot (spelled row) row where
  spells := rfl
  slots label source hm := h.slots label source (List.mem_cons_of_mem p hm)
  leftmost front c back hr := h.leftmost (p :: front) c back (congrArg (p :: ·) hr)

theorem front {back : List (Piece α)} (h : Divides IsSlot text (row ++ back)) :
    Divides IsSlot (spelled row) row where
  spells := rfl
  slots label source hm := h.slots label source (List.mem_append_left back hm)
  leftmost start c rest hr label source hs begins := by
    have whole : row ++ back = start ++ .plain c :: (rest ++ back) := by
      rw [hr, List.append_assoc, List.cons_append]
    refine h.leftmost start c (rest ++ back) whole label source hs ?_
    rw [spelled_append]
    exact begins.trans (List.prefix_append (c :: spelled rest) _)

/-- Rows stand side by side if no slot begins in the first text and goes on into the second. -/
theorem append (h : Divides IsSlot text row) (h' : Divides IsSlot next row')
    (closed : ∀ front c back, row = front ++ .plain c :: back → ∀ label source,
      IsSlot label source → ¬ source <+: c :: (spelled back ++ next)) :
    Divides IsSlot (text ++ next) (row ++ row') where
  spells := by rw [spelled_append, h.spells, h'.spells]
  slots label source hm := by
    rcases List.mem_append.mp hm with hm | hm
    · exact h.slots label source hm
    · exact h'.slots label source hm
  leftmost front c back hr := by
    rcases List.append_eq_append_iff.mp hr with ⟨mid, hf, hm⟩ | ⟨mid, hf, hm⟩
    · exact h'.leftmost mid c back hm
    · cases mid with
      | nil => exact h'.leftmost [] c back hm.symm
      | cons p mid =>
        obtain ⟨rfl, rest⟩ : .plain c = p ∧ back = mid ++ row' := List.cons.inj hm
        rw [rest, spelled_append, h'.spells]
        exact closed front c mid hf

end Divides

/-- What a text with another behind it begins with ends in the first or goes on into the second. -/
theorem ends_or_goes_on (text : List Char) {next source : List Char} (h : source <+: text ++ next) :
    source <+: text ∨ ∃ after, after ≠ [] ∧ source = text ++ after ∧ after <+: next := by
  obtain ⟨rest, hr⟩ := h
  rcases List.append_eq_append_iff.mp hr with ⟨more, ht, _⟩ | ⟨after, hs, hn⟩
  · exact .inl ⟨more, ht.symm⟩
  · by_cases empty : after = []
    · subst empty
      exact .inl ⟨[], by rw [hs, List.append_nil, List.append_nil]⟩
    · exact .inr ⟨after, empty, hs, rest, hn.symm⟩

/-- A slot begins in the one text and ends in the other. -/
def Straddles (IsSlot : α → List Char → Prop) (left right : List Char) : Prop :=
  ∃ label before after, IsSlot label (before ++ after) ∧ before ≠ [] ∧ after ≠ [] ∧
    before <:+ left ∧ after <+: right

theorem Divides.append_apart (h : Divides IsSlot text row) (h' : Divides IsSlot next row')
    (apart : ¬ Straddles IsSlot text next) : Divides IsSlot (text ++ next) (row ++ row') := by
  refine h.append h' fun front c back hr label source hs begins => ?_
  rcases ends_or_goes_on (c :: spelled back) begins with within | ⟨after, hn, rfl, ha⟩
  · exact h.leftmost front c back hr label source hs within
  · refine apart ⟨label, c :: spelled back, after, hs, List.cons_ne_nil _ _, hn, ?_, ha⟩
    rw [← h.spells, hr, spelled_append, spelled_plain]
    exact List.suffix_append _ _

end Rows

/-! ## The pieces that a scan finds -/

section Scan

variable {slotAt : List Char → Option (α × Nat)} {IsSlot : α → List Char → Prop}

theorem pieces_plain {c : Char} {cs : List Char} (h : slotAt (c :: cs) = none) :
    pieces slotAt (c :: cs) = .plain c :: pieces slotAt cs := by
  rw [pieces, h]

theorem pieces_slot {c : Char} {source rest : List Char} {label : α}
    (h : slotAt (c :: (source ++ rest)) = some (label, source.length)) :
    pieces slotAt (c :: (source ++ rest)) = .slot label (c :: source) :: pieces slotAt rest := by
  rw [pieces, h]
  simp only [List.take_left, List.drop_left]

theorem Finds.divides (finds : Finds slotAt IsSlot) (text : List Char) :
    Divides IsSlot text (pieces slotAt text) := by
  fun_induction pieces slotAt text with
  | case1 => exact .nil
  | case2 c cs h ih =>
    refine ih.plain fun label source hs begins => ?_
    obtain ⟨rest, hr⟩ := begins
    obtain ⟨d, more, rfl⟩ := List.exists_cons_of_ne_nil (finds.ne_nil hs)
    have found := finds.iff.mpr ⟨d :: more, rest, hs, rfl, hr.symm⟩
    rw [h] at found
    cases found
  | case3 c cs label more h ih =>
    obtain ⟨source, rest, hs, length, ht⟩ := finds.iff.mp h
    have taken : source = c :: cs.take more := by
      rw [← List.take_succ_cons, ht, ← length, List.take_left]
    rw [taken] at hs
    have whole := ih.slot hs
    rwa [List.cons_append, List.take_append_drop] at whole

/-- No other row divides a text. -/
theorem Finds.eq_pieces (finds : Finds slotAt IsSlot) {text : List Char} {row : List (Piece α)}
    (h : Divides IsSlot text row) : row = pieces slotAt text := by
  induction row generalizing text with
  | nil =>
    rw [← h.spells, spelled_nil, pieces]
  | cons p row ih =>
    have rest := ih h.tail
    rw [← h.spells]
    cases p with
    | plain c =>
      have none : slotAt (c :: spelled row) = none := by
        refine Option.eq_none_iff_forall_ne_some.mpr fun found hf => ?_
        obtain ⟨label, more⟩ := found
        obtain ⟨source, after, hs, _, ht⟩ := finds.iff.mp hf
        exact h.leftmost [] c row rfl label source hs ⟨after, ht.symm⟩
      rw [spelled_plain, pieces_plain none, ← rest]
    | slot label source =>
      have hs := h.slots label source List.mem_cons_self
      obtain ⟨c, more, rfl⟩ := List.exists_cons_of_ne_nil (finds.ne_nil hs)
      have found : slotAt (c :: (more ++ spelled row)) = some (label, more.length) :=
        finds.iff.mpr ⟨c :: more, spelled row, hs, rfl, rfl⟩
      rw [spelled_slot, List.cons_append, pieces_slot found, ← rest]

theorem Finds.divides_iff (finds : Finds slotAt IsSlot) {text : List Char}
    {row : List (Piece α)} : Divides IsSlot text row ↔ row = pieces slotAt text :=
  ⟨finds.eq_pieces, fun h => h ▸ finds.divides text⟩

end Scan

/-! ## Filling a row -/

section Filling

variable {textOf : α → Except FormatError (Option (List Char))}

/-- What stands for a piece: a character for itself, and a slot for its text or for itself. -/
def Piece.shown (textOf : α → Except FormatError (Option (List Char))) :
    Piece α → Except FormatError (List Char)
  | .plain c => .ok [c]
  | .slot label source => (textOf label).map (·.getD source)

theorem fill_plain (c : Char) (row : List (Piece α)) :
    fill textOf (.plain c :: row) = (fill textOf row).map (c :: ·) := rfl

theorem fill_slot (label : α) (source : List Char) (row : List (Piece α)) :
    fill textOf (.slot label source :: row) =
      (do
        let text ← textOf label
        let rest ← fill textOf row
        return text.getD source ++ rest) := rfl

/-- Every piece is filled on its own, and the results are joined. -/
theorem fill_eq_mapM (row : List (Piece α)) :
    fill textOf row = (row.mapM (Piece.shown textOf)).map List.flatten := by
  induction row with
  | nil => rfl
  | cons p row ih =>
    rw [List.mapM_cons]
    cases p with
    | plain c =>
      rw [fill_plain, ih]
      cases row.mapM (Piece.shown textOf) <;> rfl
    | slot label source =>
      rw [fill_slot, ih, Piece.shown]
      cases textOf label with
      | error e => rfl
      | ok text => cases row.mapM (Piece.shown textOf) <;> rfl

/-- If every slot has a text or none, so has the row. -/
theorem exists_fill (row : List (Piece α))
    (h : ∀ {label source}, .slot label source ∈ row → ∃ text, textOf label = .ok text) :
    ∃ filled, fill textOf row = .ok filled := by
  induction row with
  | nil => exact ⟨[], rfl⟩
  | cons p row ih =>
    obtain ⟨rest, hr⟩ := ih fun hm => h (List.mem_cons_of_mem p hm)
    cases p with
    | plain c =>
      rw [fill_plain, hr]
      exact ⟨_, rfl⟩
    | slot label source =>
      obtain ⟨text, ht⟩ := h List.mem_cons_self
      rw [fill_slot, ht, hr]
      exact ⟨_, rfl⟩

theorem fill_congr {textOf' : α → Except FormatError (Option (List Char))} {row : List (Piece α)}
    (h : ∀ {label source}, .slot label source ∈ row → textOf label = textOf' label) :
    fill textOf row = fill textOf' row := by
  induction row with
  | nil => rfl
  | cons p row ih =>
    have rest := ih fun hm => h (List.mem_cons_of_mem p hm)
    cases p with
    | plain c => rw [fill_plain, fill_plain, rest]
    | slot label source => rw [fill_slot, fill_slot, rest, h List.mem_cons_self]

theorem fill_append (row row' : List (Piece α)) :
    fill textOf (row ++ row') =
      (do
        let text ← fill textOf row
        let rest ← fill textOf row'
        return text ++ rest) := by
  rw [fill_eq_mapM, fill_eq_mapM, fill_eq_mapM, List.mapM_append]
  cases row.mapM (Piece.shown textOf) with
  | error e => rfl
  | ok parts =>
    cases row'.mapM (Piece.shown textOf) with
    | error e => rfl
    | ok parts' => exact congrArg Except.ok List.flatten_append

end Filling

end RequestLocale.Template
