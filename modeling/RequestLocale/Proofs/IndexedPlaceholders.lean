import RequestLocale.Proofs.Digits
import RequestLocale.Proofs.Division
import RequestLocale.Template.Indexed

/-! # What indexed placeholders become

A placeholder is a run of decimal digits in braces. No brace stands in another placeholder, so
every occurrence is a piece of its own wherever it stands, and is replaced by the value in its
place or left as it is (`Indexed.format_of_indexes`). Hence a text may be cut anywhere but within
a placeholder, and its parts formatted one after the other. -/
namespace RequestLocale.Template.Indexed

open Text

/-! ## Placeholders -/

/-- Decimal digits in braces, labelled with their values. -/
inductive IsPlaceholder : List Nat → List Char → Prop
  | mk {label : List Nat} {digits : List Char} : digits ≠ [] →
      digits.map digitValue? = label.map some → IsPlaceholder label ('{' :: (digits ++ ['}']))

theorem isDigit_of_values {digits : List Char} {label : List Nat}
    (h : digits.map digitValue? = label.map some) : ∀ c ∈ digits, isDigit c = true := by
  intro c hc
  obtain ⟨d, _, hd⟩ := List.mem_map.mp (h ▸ List.mem_map_of_mem hc)
  rw [isDigit, ← hd]
  rfl

theorem filterMap_of_values {digits : List Char} {label : List Nat}
    (h : digits.map digitValue? = label.map some) : digits.filterMap digitValue? = label := by
  have read := congrArg (List.filterMap id) h
  rwa [List.filterMap_map, List.filterMap_map, Function.id_comp, Function.id_comp,
    List.filterMap_some] at read

theorem not_isDigit_braces : isDigit '{' = false ∧ isDigit '}' = false := by decide

theorem finds : Finds slotAt IsPlaceholder where
  iff := by
    intro text label more
    constructor
    · intro h
      cases text with
      | nil => cases h
      | cons c cs =>
        unfold slotAt at h
        dsimp only at h
        split at h
        case isFalse => cases h
        case isTrue hc =>
          obtain ⟨rfl, some, closed⟩ := hc
          cases h
          obtain ⟨rest, hr⟩ := List.head?_eq_some_iff.mp closed
          have cut := List.prefix_iff_eq_append.mp (List.takeWhile_prefix isDigit (l := cs))
          have values := values_of_isDigit (List.all_eq_true.mp (List.all_takeWhile (l := cs)))
          refine ⟨_, rest, .mk some values, by simp, ?_⟩
          rw [hr] at cut
          simp [cut]
    · rintro ⟨source, rest, ⟨some, values⟩, length, rfl⟩
      rename_i digits
      have digit := isDigit_of_values values
      have run : (digits ++ '}' :: rest).takeWhile isDigit = digits := by
        rw [List.takeWhile_append_of_pos digit,
          List.takeWhile_cons_of_neg (by rw [not_isDigit_braces.2]; decide), List.append_nil]
      have more_eq : more = digits.length + 1 := by simpa using length.symm
      simp [slotAt, run, some, filterMap_of_values values, more_eq]
  ne_nil hs := by
    cases hs
    exact List.cons_ne_nil _ _

theorem not_mem_digits {label : List Nat} {digits : List Char} {c : Char}
    (h : digits.map digitValue? = label.map some) (other : isDigit c = false) : c ∉ digits := by
  intro hc
  rw [isDigit_of_values h c hc] at other
  cases other

/-- No placeholder goes on where another one begins. -/
theorem not_straddles {label : List Nat} {source : List Char} (hs : IsPlaceholder label source)
    (left right : List Char) : ¬ Straddles IsPlaceholder left (source ++ right) := by
  rintro ⟨_, before, after, whole, hb, ha, _, rest⟩
  obtain ⟨c, before, rfl⟩ := List.exists_cons_of_ne_nil hb
  obtain ⟨d, after, rfl⟩ := List.exists_cons_of_ne_nil ha
  generalize hw : c :: before ++ d :: after = text at whole
  obtain @⟨digits, _, values⟩ := whole
  obtain ⟨_, inner⟩ := List.cons.inj hw
  cases hs
  obtain rfl : d = '{' := (List.cons_prefix_cons.mp rest).1
  -- the brace that opens the other placeholder would be one of the digits
  have brace : '{' ∈ digits ++ ['}'] := inner ▸ List.mem_append_right before List.mem_cons_self
  rcases List.mem_append.mp brace with brace | brace
  · exact not_mem_digits values not_isDigit_braces.1 brace
  · cases List.mem_singleton.mp brace

/-- Every occurrence of a placeholder is a piece of its own. -/
theorem occurrence {label : List Nat} {before source after : List Char}
    (hs : IsPlaceholder label source) :
    pieces slotAt (before ++ (source ++ after)) =
      pieces slotAt before ++ .slot label source :: pieces slotAt after :=
  (finds.eq_pieces ((finds.divides before).append_apart ((finds.divides after).slot hs)
    (not_straddles hs before after))).symm

/-! ## What is put in -/

/-- The text of the value in the place that the digits name; beyond the values there is none. -/
def itemText (values : List Value) (label : List Nat) : Except FormatError (Option (List Char)) :=
  match values[ofDigitValues label]? with
  | none => .ok none
  | some v => (v.takenFrom (.list values)).plain?.map some

/-- No run of digits in a text is too long to be read as a whole number. -/
def HasShortRuns (text : List Char) : Prop :=
  ∀ run, run <:+: text → (∀ c ∈ run, isDigit c = true) → run.length ≤ Numeral.digitLimit

theorem HasShortRuns.length_le {text : List Char} (short : HasShortRuns text)
    {row : List (Piece (List Nat))} (h : Divides IsPlaceholder text row) {label : List Nat}
    {source : List Char} (hm : .slot label source ∈ row) :
    label.length ≤ Numeral.digitLimit := by
  obtain ⟨front, back, rfl⟩ := List.append_of_mem hm
  have spells := h.spells
  obtain @⟨digits, _, values⟩ := h.slots label source hm
  have length : digits.length = label.length := by simpa using congrArg List.length values
  rw [← length]
  refine short digits ⟨spelled front ++ ['{'], '}' :: spelled back, ?_⟩ (isDigit_of_values values)
  rw [← spells]
  simp

theorem hasShortRuns_of_length_le {text : List Char} (h : text.length ≤ Numeral.digitLimit) :
    HasShortRuns text := fun _ within _ => Nat.le_trans within.length_le h

/-- With no number that is too long, every place has its text or none. -/
theorem exists_itemText {values : List Value}
    (short : ∀ v ∈ values, (v.takenFrom (.list values)).exceedsDigits = false)
    (label : List Nat) : ∃ text, itemText values label = .ok text := by
  unfold itemText
  cases h : values[ofDigitValues label]? with
  | none => exact ⟨none, rfl⟩
  | some v =>
    dsimp only
    rw [Value.plain?, short v (List.mem_of_getElem? h)]
    exact ⟨_, rfl⟩

theorem textOf_of_length_le {values : List Value} {label : List Nat}
    (h : label.length ≤ Numeral.digitLimit) : textOf values label = itemText values label :=
  if_neg (Nat.not_lt.mpr h)

theorem format_append_apart {left right : List Char}
    (apart : ¬ Straddles IsPlaceholder left right) (values : List Value) :
    format (left ++ right) values =
      (do
        let text ← format left values
        let rest ← format right values
        return text ++ rest) := by
  have row := finds.eq_pieces ((finds.divides left).append_apart (finds.divides right) apart)
  unfold format
  rw [← row, fill_append]

/-- **What a text with indexed placeholders becomes.** It has one row of pieces, in which every
occurrence of a placeholder is a piece of its own. Unless a run of digits is too long to be read,
each of them is replaced by the text of the value in its place, or stays where there is none, and
everything else is copied; values that can all be written always give a text. A text that is cut
nowhere within a placeholder can be formatted part by part. -/
theorem format_of_indexes (text : List Char) :
    (∃ row, (∀ other, Divides IsPlaceholder text other ↔ other = row) ∧
      (∀ before label source after, IsPlaceholder label source →
        text = before ++ (source ++ after) →
        ∃ front back, row = front ++ .slot label source :: back ∧
          Divides IsPlaceholder before front ∧ Divides IsPlaceholder after back) ∧
      (HasShortRuns text → ∀ values,
        format text values = (row.mapM (Piece.shown (itemText values))).map List.flatten ∧
        ((∀ v ∈ values, (v.takenFrom (.list values)).exceedsDigits = false) →
          ∃ shown, format text values = .ok shown))) ∧
    ∀ left right, text = left ++ right → ¬ Straddles IsPlaceholder left right → ∀ values,
      format text values =
        (do
          let shown ← format left values
          let rest ← format right values
          return shown ++ rest) := by
  refine ⟨⟨pieces slotAt text, fun _ => finds.divides_iff, ?_, fun short values => ?_⟩, ?_⟩
  · rintro before label source after hs rfl
    exact ⟨_, _, occurrence hs, finds.divides before, finds.divides after⟩
  · have filled : format text values = fill (itemText values) (pieces slotAt text) :=
      fill_congr fun hm => textOf_of_length_le (short.length_le (finds.divides text) hm)
    refine ⟨by rw [filled, fill_eq_mapM], fun fits => ?_⟩
    rw [filled]
    exact exists_fill _ fun _ => exists_itemText fits _
  · rintro left right rfl apart values
    exact format_append_apart apart values

theorem format_nested_item :
    let values : List Value := [.none, .text "\x7b0\x7d"]
    let left : List Char := ['{', '\u0660', '}']
    let right : List Char := ['{', '0', '1', '}', '{', '2', '}']
    let shown : List Char := "None".toList ++ ['{', '0', '}', '{', '2', '}']
    HasShortRuns (left ++ right) ∧
      (∀ v ∈ values, (v.takenFrom (.list values)).exceedsDigits = false) ∧
      format (left ++ right) values = .ok shown ∧ ¬ Straddles IsPlaceholder left right ∧
      (do
        let first ← format left values
        let rest ← format right values
        return first ++ rest) = .ok shown := by
  intro values left right shown
  have short : HasShortRuns (left ++ right) := hasShortRuns_of_length_le (by decide +kernel)
  have apart : ¬ Straddles IsPlaceholder left right :=
    not_straddles (@IsPlaceholder.mk [0, 1] ['0', '1'] (by decide) (by decide +kernel)) left
      ['{', '2', '}']
  obtain ⟨⟨row, divides, _, filled⟩, parts⟩ := format_of_indexes (left ++ right)
  have found : [.slot [0] left, .slot [0, 1] ['{', '0', '1', '}'],
      .slot [2] ['{', '2', '}']] = row :=
    (divides _).mp (finds.divides_iff.mpr (by decide +kernel))
  have whole : format (left ++ right) values = .ok shown := by
    rw [(filled short values).1, ← found]
    rfl
  exact ⟨short, by decide +kernel, whole, apart, (parts _ _ rfl apart values).symm.trans whole⟩

end RequestLocale.Template.Indexed
