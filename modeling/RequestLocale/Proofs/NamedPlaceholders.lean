import RequestLocale.Proofs.Division
import RequestLocale.Template.Named

/-! # What named placeholders become

A placeholder is a name in braces on one line, and a scan from left to right takes each one that it
meets. It is replaced by the value under its name where that value is one to be put in
(`Value.IsPutIn`), and left as it is otherwise; everything else is copied (`Named.format_of_names`).
-/
namespace RequestLocale

/-! ## Values that are put in -/

namespace Value

/-- The zeros among the numbers. -/
inductive IsZero : Value → Prop
  | int : IsZero (.int 0)
  | float (negative : Bool) : IsZero (.float (.finite negative 0))
  | fraction : IsZero (.fraction 0)
  | decimal (negative : Bool) (exponent : Int) : IsZero (.decimal (.finite negative 0 exponent))

/-- A value that takes the place of its name. Nothing, truth values and NaN never do, and of what
counts as false only zeros and the empty text do. -/
structure IsPutIn (v : Value) : Prop where
  ne_none : v ≠ .none
  ne_bool : ∀ b, v ≠ .bool b
  not_nan : v.isNaN = false
  counts : v.isTrue = true ∨ v.IsZero ∨ v = .text ""

theorem IsZero.isNumber {v : Value} (h : v.IsZero) : v.isNumber = true := by
  cases h <;> rfl

theorem isTrue_or_isZero {v : Value} (number : v.isNumber = true) (notTruth : ∀ b, v ≠ .bool b)
    (notNaN : v.isNaN = false) : v.isTrue = true ∨ v.IsZero := by
  cases v with
  | int n =>
    by_cases zero : n = 0
    · subst zero
      exact .inr .int
    · exact .inl (by simpa [isTrue] using zero)
  | fraction q =>
    by_cases zero : q = 0
    · subst zero
      exact .inr .fraction
    · exact .inl (by simpa [isTrue] using zero)
  | float x =>
    cases x with
    | nan => cases notNaN
    | infinite negative => exact .inl rfl
    | finite negative units =>
      by_cases zero : units = 0
      · subst zero
        exact .inr (.float negative)
      · have some : units.count ≠ 0 := fun h => zero (Binary64.Units.ext h)
        exact .inl (by simpa [isTrue, Binary64.isZero] using some)
  | decimal d =>
    cases d with
    | nan negative signalling payload => cases notNaN
    | infinite negative => exact .inl rfl
    | finite negative coefficient exponent =>
      cases coefficient with
      | zero => exact .inr (.decimal negative exponent)
      | succ coefficient => exact .inl rfl
  | bool b => exact absurd rfl (notTruth b)
  | _ => cases number

theorem beq_empty_iff {v : Value} : (v == .text "") = true ↔ v = .text "" := by
  cases v with
  | text s =>
    show (s == "") = true ↔ _
    rw [beq_iff_eq, text.injEq]
  | _ => exact ⟨fun h => (by cases h), fun h => (by cases h)⟩

end Value

namespace Template.Named

open Value (IsPutIn)

theorem isSubstitutable_eq {v : Value} (something : v ≠ .none) (notTruth : ∀ b, v ≠ .bool b) :
    isSubstitutable v = (!v.isNaN && (v.isTrue || v.isNumber || v == .text "")) := by
  cases v with
  | none => exact absurd rfl something
  | bool b => exact absurd rfl (notTruth b)
  | _ => rfl

theorem isSubstitutable_iff {v : Value} : isSubstitutable v = true ↔ v.IsPutIn := by
  by_cases something : v = .none
  · subst something
    exact ⟨fun h => (by cases h), fun h => absurd rfl h.ne_none⟩
  by_cases truth : ∃ b, v = .bool b
  · obtain ⟨b, rfl⟩ := truth
    exact ⟨fun h => (by cases h), fun h => absurd rfl (h.ne_bool b)⟩
  have notTruth : ∀ b, v ≠ .bool b := fun b hb => truth ⟨b, hb⟩
  rw [isSubstitutable_eq something notTruth, Bool.and_eq_true, Bool.not_eq_true', Bool.or_eq_true,
    Bool.or_eq_true, Value.beq_empty_iff]
  constructor
  · rintro ⟨notNaN, (true | number) | empty⟩
    · exact ⟨something, notTruth, notNaN, .inl true⟩
    · rcases Value.isTrue_or_isZero number notTruth notNaN with true | zero
      · exact ⟨something, notTruth, notNaN, .inl true⟩
      · exact ⟨something, notTruth, notNaN, .inr (.inl zero)⟩
    · exact ⟨something, notTruth, notNaN, .inr (.inr empty)⟩
  · rintro ⟨_, _, notNaN, true | zero | empty⟩
    · exact ⟨notNaN, .inl (.inl true)⟩
    · exact ⟨notNaN, .inl (.inr zero.isNumber)⟩
    · exact ⟨notNaN, .inr empty⟩

instance (v : Value) : Decidable v.IsPutIn := decidable_of_iff _ isSubstitutable_iff

/-- Where a record comes around it counts as it does as a whole, since it has an entry. -/
theorem isSubstitutable_takenFrom (v : Value) {values : Entries} (h : values ≠ []) :
    isSubstitutable (v.takenFrom (.record values)) = isSubstitutable v := by
  cases v with
  | enclosing keyed =>
    cases keyed with
    | false => rfl
    | true =>
      obtain ⟨entry, entries, rfl⟩ := List.exists_cons_of_ne_nil h
      rfl
  | _ => rfl

/-! ## What stands under a name -/

/-- The value under a name; where the record comes around, the whole record. -/
def valueUnder? (values : Entries) (name : List Char) : Option Value :=
  (values.find? (String.ofList name)).map (·.takenFrom (.record values))

/-- The text that takes the place of a name, if any. -/
def nameText (values : Entries) (name : List Char) : Except FormatError (Option (List Char)) :=
  match valueUnder? values name with
  | none => .ok none
  | some v => if v.IsPutIn then v.plain?.map some else .ok none

/-- A record without signalling NaN can be compared throughout. -/
def IsQuiet (values : Entries) : Prop :=
  ∀ entry ∈ values, ∀ negative payload, entry.2 ≠ .decimal (.nan negative true payload)

theorem exists_of_valueUnder? {values : Entries} {name : List Char} {v : Value}
    (h : valueUnder? values name = some v) :
    ∃ entry ∈ values, values.find? (String.ofList name) = some entry.2 ∧
      entry.2.takenFrom (.record values) = v ∧ (isSubstitutable entry.2 = true ↔ v.IsPutIn) := by
  obtain ⟨part, found, rfl⟩ := Option.map_eq_some_iff.mp h
  obtain ⟨key, hm⟩ := Entries.exists_mem_of_find? found
  refine ⟨_, hm, found, rfl, ?_⟩
  rw [← isSubstitutable_iff, isSubstitutable_takenFrom part (List.ne_nil_of_mem hm)]

theorem textOf_of_find? {values : Entries} {name : List Char} {v : Value}
    (found : values.find? (String.ofList name) = some v)
    (quiet : ∀ negative payload, v ≠ .decimal (.nan negative true payload)) :
    textOf values name =
      if isSubstitutable v then (v.takenFrom (.record values)).plain?.map some else .ok none := by
  unfold textOf
  rw [found]
  dsimp only
  split
  · exact absurd rfl (quiet _ _)
  · exact if_neg Bool.false_ne_true

/-- A signalling NaN is not put in, so what is put in has been compared. -/
theorem textOf_of_isPutIn {values : Entries} {name : List Char} {v : Value}
    (h : valueUnder? values name = some v) (hv : v.IsPutIn) :
    textOf values name = v.plain?.map some := by
  obtain ⟨⟨key, part⟩, _, found, rfl, counts⟩ := exists_of_valueUnder? h
  have notNaN := (isSubstitutable_iff.mp (counts.mpr hv)).not_nan
  rw [textOf_of_find? found fun _ _ signal => (by cases signal; cases notNaN),
    if_pos (counts.mpr hv)]

theorem textOf_eq_nameText {values : Entries} (quiet : IsQuiet values) (name : List Char) :
    textOf values name = nameText values name := by
  unfold nameText
  cases h : valueUnder? values name with
  | none => rw [textOf, Option.map_eq_none_iff.mp h]
  | some v =>
    dsimp only
    split
    case isTrue hv => exact textOf_of_isPutIn h hv
    case isFalse hv =>
      obtain ⟨⟨key, part⟩, hm, found, rfl, counts⟩ := exists_of_valueUnder? h
      rw [textOf_of_find? found (quiet _ hm), if_neg (mt counts.mp hv)]

/-- With no number that is too long, every name has its text or none. -/
theorem exists_nameText {values : Entries}
    (short : ∀ entry ∈ values, (entry.2.takenFrom (.record values)).exceedsDigits = false)
    (name : List Char) : ∃ text, nameText values name = .ok text := by
  unfold nameText
  cases h : valueUnder? values name with
  | none => exact ⟨none, rfl⟩
  | some v =>
    obtain ⟨⟨key, part⟩, hm, _, rfl, _⟩ := exists_of_valueUnder? h
    dsimp only
    split
    · rw [Value.plain?, short _ hm]
      exact ⟨_, rfl⟩
    · exact ⟨none, rfl⟩

/-! ## Placeholders -/

/-- A name in braces on one line, up to the nearest closing brace that leaves a name. So only the
first character of a name can be a closing brace. -/
inductive IsPlaceholder : List Char → List Char → Prop
  | mk {name : List Char} : name ≠ [] → '\n' ∉ name → '}' ∉ name.tail →
      IsPlaceholder name ('{' :: (name ++ ['}']))

theorem upToBrace_append {name : List Char} (oneLine : '\n' ∉ name) (nearest : '}' ∉ name)
    (rest : List Char) : upToBrace (name ++ '}' :: rest) = some name := by
  induction name with
  | nil => rfl
  | cons c name ih =>
    obtain ⟨line, oneLine⟩ := not_or.mp (mt List.mem_cons.mpr oneLine)
    obtain ⟨brace, nearest⟩ := not_or.mp (mt List.mem_cons.mpr nearest)
    rw [List.cons_append, upToBrace, if_neg (Ne.symm brace), if_neg (Ne.symm line),
      ih oneLine nearest]
    rfl

theorem of_upToBrace {cs name : List Char} (h : upToBrace cs = some name) :
    '\n' ∉ name ∧ '}' ∉ name ∧ ∃ rest, cs = name ++ '}' :: rest := by
  fun_induction upToBrace cs generalizing name with
  | case1 => cases h
  | case2 cs =>
    cases h
    exact ⟨List.not_mem_nil, List.not_mem_nil, cs, rfl⟩
  | case3 => cases h
  | case4 c cs brace line ih =>
    obtain ⟨name, found, rfl⟩ := Option.map_eq_some_iff.mp h
    obtain ⟨oneLine, nearest, rest, rfl⟩ := ih found
    exact ⟨by simp [oneLine, Ne.symm line], by simp [nearest, Ne.symm brace], rest, rfl⟩

theorem finds : Finds slotAt IsPlaceholder where
  iff := by
    intro text name more
    constructor
    · intro h
      unfold slotAt at h
      split at h
      case h_2 => cases h
      case h_1 c cs =>
        split at h
        case isTrue => cases h
        case isFalse line =>
          obtain ⟨tail, found, pair⟩ := Option.map_eq_some_iff.mp h
          cases pair
          obtain ⟨oneLine, nearest, rest, rfl⟩ := of_upToBrace found
          have whole : '\n' ∉ c :: tail := by simp [oneLine, Ne.symm line]
          exact ⟨_, rest, .mk (List.cons_ne_nil _ _) whole nearest, by simp, by simp⟩
    · rintro ⟨source, rest, ⟨some, oneLine, nearest⟩, length, rfl⟩
      obtain ⟨c, tail, rfl⟩ := List.exists_cons_of_ne_nil some
      obtain ⟨line, oneLine⟩ := not_or.mp (mt List.mem_cons.mpr oneLine)
      have found := upToBrace_append oneLine nearest rest
      have more_eq : more = tail.length + 2 := by simpa using length.symm
      simp [slotAt, Ne.symm line, found, more_eq]
  ne_nil hs := by
    cases hs
    exact List.cons_ne_nil _ _

/-- **What a text with named placeholders becomes.** It has one row of pieces. In it each
placeholder is replaced by the text of the value under its name if that is a value to be put in,
and stays otherwise; every other character is copied. A record whose values can all be written
always gives a text. -/
theorem format_of_names (text : List Char) :
    ∃ row, (∀ other, Divides IsPlaceholder text other ↔ other = row) ∧
      ∀ values, IsQuiet values →
        format text values = (row.mapM (Piece.shown (nameText values))).map List.flatten ∧
        ((∀ entry ∈ values, (entry.2.takenFrom (.record values)).exceedsDigits = false) →
          ∃ shown, format text values = .ok shown) := by
  refine ⟨pieces slotAt text, fun _ => finds.divides_iff, fun values quiet => ?_⟩
  have filled : format text values = fill (nameText values) (pieces slotAt text) :=
    fill_congr fun _ => textOf_eq_nameText quiet _
  refine ⟨by rw [filled, fill_eq_mapM], fun short => ?_⟩
  rw [filled]
  exact exists_fill _ fun _ => exists_nameText short _

theorem format_nested_value :
    let values : Entries :=
      [(.text "a", .decimal (.finite false 0 0)), (.text "b", .text "x\x7ba\x7d"),
        (.text "n", .none)]
    IsQuiet values ∧
      (∀ entry ∈ values, (entry.2.takenFrom (.record values)).exceedsDigits = false) ∧
      format ['{', 'b', '}', '{', 'n', '}', '{', 'a', '}', '{', '}'] values =
        .ok ['x', '{', 'a', '}', '{', 'n', '}', '0', '{', '}'] := by
  intro values
  have quiet : IsQuiet values := by
    intro entry hm negative payload
    simp only [values, List.mem_cons, List.not_mem_nil, or_false] at hm
    rcases hm with rfl | rfl | rfl <;> exact fun h => by cases h
  obtain ⟨row, divides, filled⟩ :=
    format_of_names ['{', 'b', '}', '{', 'n', '}', '{', 'a', '}', '{', '}']
  have found : [.slot ['b'] ['{', 'b', '}'], .slot ['n'] ['{', 'n', '}'],
      .slot ['a'] ['{', 'a', '}'], .plain '{', .plain '}'] = row :=
    (divides _).mp (finds.divides_iff.mpr (by decide +kernel))
  refine ⟨quiet, by decide +kernel, ?_⟩
  rw [(filled values quiet).1, ← found]
  rfl

end Template.Named

end RequestLocale
