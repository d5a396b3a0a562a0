import RequestLocale.Message
import RequestLocale.Proofs.Filling
import RequestLocale.Proofs.Results

/-! # Which messages can be rendered

`Message.steps` lists what is put into a message, in order: for indexed and named placeholders what
each of them stands for, for directives each argument under its directive and then the arguments
that are left. A message is rendered exactly if none of these steps is refused, and otherwise the
first refusal is reported (`Message.render_iff`). With texts as arguments only one refusal is left:
a whole number beyond the range of floating-point numbers under the directive for these. -/
namespace RequestLocale

open Filling (Refuses)

namespace Template

section Slots

variable {α : Type}

/-- The label of a slot. -/
def Piece.label? : Piece α → Option α
  | .plain _ => none
  | .slot label _ => some label

/-- The labels of the slots, in order. -/
def labels (ps : List (Piece α)) : List α := ps.filterMap Piece.label?

/-- Slots that are filled on their own take their steps in order. -/
theorem tries_fill {textOf : α → Except FormatError (Option (List Char))}
    {steps : α → List Filling} (h : ∀ label, Tries Refuses (steps label) (textOf label))
    (ps : List (Piece α)) : Tries Refuses ((labels ps).flatMap steps) (fill textOf ps) := by
  induction ps with
  | nil => exact .nil _
  | cons p ps ih =>
    cases p with
    | plain c => exact ih.map _
    | slot label source =>
      refine (h label).bind fun text _ => ?_
      exact ih.map fun rest => text.getD source ++ rest

end Slots

/-! ## Indexed and named placeholders -/

namespace Indexed

/-- An index is read, and the value in its place is written. -/
def steps (values : List Value) (digits : List Nat) : List Filling :=
  .index digits.length ::
    (values[Text.ofDigitValues digits]?).toList.map fun v => .shown (v.takenFrom (.list values))

theorem tries_textOf (values : List Value) (digits : List Nat) :
    Tries Refuses (steps values digits) (textOf values digits) := by
  unfold steps textOf
  by_cases long : Numeral.digitLimit < digits.length
  · rw [if_pos long]
    exact .error (.here (.index long))
  · rw [if_neg long]
    refine .cons (fun e he => ?_) ?_
    · cases he with
      | index h => exact long h
    · cases values[Text.ofDigitValues digits]? with
      | none => exact .nil _
      | some v => exact (v.takenFrom (.list values)).tries_plain?.map _

end Indexed

namespace Named

/-- The value under a name is compared, and written if it counts as there. -/
def steps (values : Entries) (name : List Char) : List Filling :=
  match values.find? (String.ofList name) with
  | none => []
  | some v =>
    .compared v :: if isSubstitutable v then [.shown (v.takenFrom (.record values))] else []

/-- Of all values only a signalling NaN cannot be compared. -/
theorem tries_compared {fs : List Filling} {α : Type} {r : Except FormatError α}
    (h : Tries Refuses fs r) (v : Value) :
    Tries Refuses (.compared v :: fs)
      (if v matches .decimal (.nan _ true _) then .error .signallingNaN else r) := by
  split
  · exact .error (.here .compared)
  · rename_i quiet
    refine .cons (fun e he => ?_) h
    cases he
    exact quiet _ _ rfl

theorem tries_textOf (values : Entries) (name : List Char) :
    Tries Refuses (steps values name) (textOf values name) := by
  unfold steps textOf
  cases values.find? (String.ofList name) with
  | none => exact .nil _
  | some v =>
    refine tries_compared ?_ v
    cases isSubstitutable v with
    | true => exact (v.takenFrom (.record values)).tries_plain?.map _
    | false => exact .nil _

end Named

/-! ## Directives -/

/-- A text is too large for the directive for floating-point numbers if it spells a whole number
beyond their range. With more digits than the limit it is read as a floating-point number itself,
and not refused. -/
def IsTooLarge (s : String) : Prop :=
  ∃ w, Numeral.whole? (Text.trim s.toList) = some w ∧ w.digits.length ≤ Numeral.digitLimit ∧
    Binary64.limit ≤ w.toInt.natAbs

namespace Directive

/-- What is done to an argument under a directive. -/
def steps (d : Directive) (v : Value) : List Filling :=
  match d with
  | plain | quoted => [.shown v]
  | integer => [.integer v]
  | float => [.float v]
  | json => [.json v]
  | percent | nothing => []

/-- The directives that take an argument. -/
def takers (ps : List (Piece Directive)) : List Directive := (labels ps).filter (· ≠ percent)

/-- The arguments that directives take, each with its directive. -/
def pairs (ps : List (Piece Directive)) (args : List Value) : List (Directive × Value) :=
  (takers ps).zip args

theorem tries_convert (d : Directive) (v : Value) :
    Tries Refuses (d.steps v) (d.convert v) := by
  cases d with
  | percent => exact .nil _
  | plain => exact v.tries_plain?
  | integer => exact tries_integerText v
  | float => exact tries_floatText v
  | json => exact tries_jsonText v
  | quoted => exact v.tries_quoted?
  | nothing => exact .nil _

theorem not_refuses_shown_text {s : String} (e : FormatError) :
    ¬ (Filling.shown (.text s)).Refuses e := by
  intro he
  cases he with
  | shown hs _ => cases hs

theorem tries_trailing (v : Value) : Tries Refuses [.shown v] (trailing v) := by
  cases v with
  | text s => exact .granted not_refuses_shown_text
  | _ => exact Value.tries_quoted? _

theorem tries_trailingAll (args : List Value) :
    Tries Refuses (args.map .shown) (trailingAll args) := by
  induction args with
  | nil => exact .nil _
  | cons arg args ih =>
    refine (tries_trailing arg).bind fun shown _ => ?_
    exact ih.map fun rest => ' ' :: shown ++ rest

theorem takers_slot {d : Directive} (h : d ≠ percent) (source : List Char)
    (ps : List (Piece Directive)) : takers (.slot d source :: ps) = d :: takers ps := by
  simp [takers, labels, Piece.label?, h]

theorem pairs_slot {d : Directive} (h : d ≠ percent) (source : List Char)
    (ps : List (Piece Directive)) (arg : Value) (args : List Value) :
    pairs (.slot d source :: ps) (arg :: args) = (d, arg) :: pairs ps args := by
  rw [pairs, takers_slot h]
  rfl

/-- Filling the directives takes the arguments one by one. -/
theorem tries_fillAll (ps : List (Piece Directive)) (args : List Value) :
    Tries Refuses ((pairs ps args).flatMap fun pair => pair.1.steps pair.2) (fillAll ps args) := by
  fun_induction fillAll ps args with
  | case1 args => exact .nil _
  | case2 c ps args ih => exact ih.map fun result => (c :: result.1, result.2)
  | case3 source ps args ih => exact ih.map fun result => ('%' :: result.1, result.2)
  | case4 d source ps hd ih =>
    have none : pairs (.slot d source :: ps) [] = pairs ps [] := by simp [pairs]
    rw [none]
    exact ih.map fun result => (source ++ result.1, result.2)
  | case5 d source ps arg args hd ih =>
    rw [pairs_slot hd, List.flatMap_cons]
    refine (tries_convert d arg).bind fun converted _ => ?_
    exact ih.map fun result => (converted ++ result.1, result.2)

/-- What is left are the arguments behind the last one that a directive takes. -/
theorem left_fillAll {ps : List (Piece Directive)} {args left : List Value} {filled : List Char}
    (h : fillAll ps args = .ok (filled, left)) : left = args.drop (takers ps).length := by
  fun_induction fillAll ps args generalizing filled left with
  | case1 args =>
    cases h
    rfl
  | case2 c ps args ih =>
    obtain ⟨result, hr, h⟩ := ok_of_bind h
    cases h
    exact ih hr
  | case3 source ps args ih =>
    obtain ⟨result, hr, h⟩ := ok_of_bind h
    cases h
    exact ih hr
  | case4 d source ps hd ih =>
    obtain ⟨result, hr, h⟩ := ok_of_bind h
    cases h
    rw [ih hr, List.drop_nil, List.drop_nil]
  | case5 d source ps arg args hd ih =>
    obtain ⟨converted, _, h⟩ := ok_of_bind h
    obtain ⟨result, hr, h⟩ := ok_of_bind h
    cases h
    rw [ih hr, takers_slot hd]
    rfl

/-- The arguments that directives take, and then those that are left. -/
def formatSteps (text : List Char) (args : List Value) : List Filling :=
  (pairs (pieces slotAt text) args).flatMap (fun pair => pair.1.steps pair.2) ++
    (args.drop (takers (pieces slotAt text)).length).map .shown

theorem tries_format (text : List Char) (args : List Value) :
    Tries Refuses (formatSteps text args) (format text args) := by
  refine (tries_fillAll (pieces slotAt text) args).bind fun result hr => ?_
  rw [← left_fillAll hr]
  exact (tries_trailingAll result.2).map fun rest => result.1 ++ rest

theorem refuses_of_isTooLarge {s : String} (h : IsTooLarge s) :
    (Filling.float (.text s)).Refuses .integerTooLarge := by
  obtain ⟨w, hw, few, large⟩ := h
  refine .floatOfText hw ?_ large
  simpa [Numeral.Whole.tooLong] using few

theorem isTooLarge_of_refuses {s : String} {e : FormatError}
    (h : (Filling.float (.text s)).Refuses e) : IsTooLarge s := by
  cases h with
  | floatOfText hw short large =>
    exact ⟨_, hw, by simpa [Numeral.Whole.tooLong] using short, large⟩

/-- A text is refused by one directive only. -/
theorem eq_float_of_refuses_text {d : Directive} {s : String} {f : Filling}
    (hf : f ∈ d.steps (.text s)) {e : FormatError} (he : f.Refuses e) :
    d = .float ∧ IsTooLarge s := by
  cases d with
  | percent | nothing => cases hf
  | plain | quoted =>
    rw [List.mem_singleton.mp hf] at he
    exact absurd he (not_refuses_shown_text e)
  | integer =>
    rw [List.mem_singleton.mp hf] at he
    cases he
  | float =>
    rw [List.mem_singleton.mp hf] at he
    exact ⟨rfl, isTooLarge_of_refuses he⟩
  | json =>
    rw [List.mem_singleton.mp hf] at he
    cases he with
    | json first => cases first

theorem isRefused_formatSteps_iff {text : List Char} {args : List Value}
    (texts : ∀ a ∈ args, ∃ s, a = .text s) :
    (∃ f ∈ formatSteps text args, ∃ e, f.Refuses e) ↔
      ∃ s, (.float, .text s) ∈ pairs (pieces slotAt text) args ∧ IsTooLarge s := by
  constructor
  · rintro ⟨f, hf, e, he⟩
    rcases List.mem_append.mp hf with taken | left
    · obtain ⟨⟨d, v⟩, hp, hf⟩ := List.mem_flatMap.mp taken
      obtain ⟨s, rfl⟩ := texts v (List.of_mem_zip hp).2
      obtain ⟨rfl, large⟩ := eq_float_of_refuses_text hf he
      exact ⟨s, hp, large⟩
    · obtain ⟨v, hv, rfl⟩ := List.mem_map.mp left
      obtain ⟨s, rfl⟩ := texts v (List.mem_of_mem_drop hv)
      exact absurd he (not_refuses_shown_text e)
  · rintro ⟨s, hp, large⟩
    refine ⟨.float (.text s), List.mem_append_left _ ?_, _, refuses_of_isTooLarge large⟩
    exact List.mem_flatMap.mpr ⟨_, hp, List.mem_singleton_self _⟩

end Directive

end Template

/-! ## Messages -/

open Template (IsTooLarge)

/-- What is put into a text by the form of the arguments. -/
def CallForm.steps (text : List Char) : CallForm → List Filling
  | .empty => []
  | .scalar value => Template.Directive.formatSteps text [value]
  | .sequence _ values =>
    (Template.labels (Template.pieces Template.Indexed.slotAt text)).flatMap
      (Template.Indexed.steps values)
  | .record entries =>
    (Template.labels (Template.pieces Template.Named.slotAt text)).flatMap
      (Template.Named.steps entries)
  | .several values => Template.Directive.formatSteps text values

theorem CallForm.tries_substitute (args : List Value) (text : List Char) :
    Tries Refuses ((ofArgs args).steps text) (substitute text (ofArgs args)) := by
  fun_cases ofArgs args with
  | case1 => exact .nil _
  | case2 entries => exact Template.tries_fill (Template.Named.tries_textOf entries) _
  | case3 kind values => exact Template.tries_fill (Template.Indexed.tries_textOf values) _
  | case4 value => exact Template.Directive.tries_format text [value]
  | case5 values => exact Template.Directive.tries_format text _

/-- Texts are put in by directives, however many there are. -/
theorem CallForm.steps_ofArgs_of_texts {args : List Value} (texts : ∀ a ∈ args, ∃ s, a = .text s)
    (text : List Char) :
    (ofArgs args).steps text = Template.Directive.formatSteps text args := by
  fun_cases ofArgs args with
  | case1 => simp [steps, Template.Directive.formatSteps, Template.Directive.pairs]
  | case2 entries =>
    obtain ⟨s, hs⟩ := texts _ List.mem_cons_self
    cases hs
  | case3 kind values =>
    obtain ⟨s, hs⟩ := texts _ List.mem_cons_self
    cases hs
  | case4 value => rfl
  | case5 values => rfl

namespace Message

/-- What is put into the message under a key. -/
def steps (messages : Option Messages) (key : String) (args : List Value) : List Filling :=
  if (template messages key).isEmpty then []
  else (CallForm.ofArgs args).steps (template messages key).toList

theorem tries_render (messages : Option Messages) (key : String) (args : List Value) :
    Tries Refuses (steps messages key args) (render messages key args) := by
  unfold steps render
  dsimp only
  by_cases empty : (template messages key).isEmpty = true
  · rw [if_pos empty, if_pos empty]
    exact .nil _
  · rw [if_neg empty, if_neg empty]
    exact (CallForm.tries_substitute args _).map _

theorem render_eq_error_iff (messages : Option Messages) (key : String) (args : List Value)
    (e : FormatError) :
    render messages key args = .error e ↔ FirstRefusal Refuses (steps messages key args) e := by
  have one : ∀ f e e', Refuses f e → Refuses f e' → e = e' := fun _ _ _ => Refuses.unique
  exact (tries_render messages key args).fails_iff one e

/-- The directives of a message that take an argument, each with the argument it takes. -/
def pairs (messages : Option Messages) (key : String) (args : List Value) :
    List (Template.Directive × Value) :=
  Template.Directive.pairs
    (Template.pieces Template.Directive.slotAt (template messages key).toList) args

/-- Of texts only these are refused: a text that is too large, as a floating-point number. -/
theorem isRefused_iff_of_texts (messages : Option Messages) (key : String) {args : List Value}
    (texts : ∀ a ∈ args, ∃ s, a = .text s) :
    (∃ f ∈ steps messages key args, ∃ e, f.Refuses e) ↔
      ∃ s, (.float, .text s) ∈ pairs messages key args ∧ IsTooLarge s := by
  unfold steps pairs
  by_cases empty : (template messages key).isEmpty = true
  · rw [if_pos empty, String.isEmpty_iff.mp empty]
    simp [Template.pieces, Template.Directive.pairs, Template.Directive.takers, Template.labels]
  · rw [if_neg empty, CallForm.steps_ofArgs_of_texts texts]
    exact Template.Directive.isRefused_formatSteps_iff texts

/-- **Which messages can be rendered.** A message fails as the first of its steps that is refused,
and is rendered if there is none. With texts as arguments it is rendered exactly if no directive for
floating-point numbers takes a text that is too large. -/
theorem render_iff (messages : Option Messages) (key : String) :
    (∀ args : List Value,
      (∀ e, render messages key args = .error e ↔
        FirstRefusal Refuses (steps messages key args) e) ∧
      ((∃ text, render messages key args = .ok text) ↔
        ∀ f ∈ steps messages key args, ∀ e, ¬ f.Refuses e)) ∧
    ∀ texts : List String,
      (∃ text, render messages key (texts.map .text) = .ok text) ↔
        ∀ s, (.float, .text s) ∈ pairs messages key (texts.map .text) → ¬ IsTooLarge s := by
  refine ⟨fun args => ⟨render_eq_error_iff messages key args,
    (tries_render messages key args).returns_iff⟩, fun texts => ?_⟩
  have spelled : ∀ a ∈ texts.map Value.text, ∃ s, a = .text s := by
    intro a ha
    obtain ⟨s, _, rfl⟩ := List.mem_map.mp ha
    exact ⟨s, rfl⟩
  have refused := isRefused_iff_of_texts messages key spelled
  rw [(tries_render messages key _).returns_iff]
  constructor
  · intro granted s hs large
    obtain ⟨f, hf, e, he⟩ := refused.mpr ⟨s, hs, large⟩
    exact granted f hf e he
  · intro fine f hf e he
    obtain ⟨s, hs, large⟩ := refused.mp ⟨f, hf, e, he⟩
    exact fine s hs large

theorem not_isTooLarge_seven : ¬ IsTooLarge "7" := by
  rintro ⟨w, hw, _, large⟩
  have seven : Numeral.whole? (Text.trim "7".toList) = some ⟨false, [7]⟩ := by decide +kernel
  rw [seven] at hw
  cases hw
  exact absurd large (by decide +kernel)

theorem render_one_of_seven :
    let args := [.float (.ofInt 1), .text "7"]
    (∃ text, render none "%d of %f" args = .ok text) ∧
      ∃ text, render none "%d of %f" (["1", "7"].map .text) = .ok text := by
  intro args
  have row : Template.pieces Template.Directive.slotAt "%d of %f".toList =
      [.slot .integer ['%', 'd'], .plain ' ', .plain 'o', .plain 'f', .plain ' ',
        .slot .float ['%', 'f']] := by decide +kernel
  have shape : steps none "%d of %f" args =
      [.integer (.float (.ofInt 1)), .float (.text "7")] := by
    show Template.Directive.formatSteps "%d of %f".toList args = _
    rw [Template.Directive.formatSteps, row]
    rfl
  have taken : pairs none "%d of %f" (["1", "7"].map .text) =
      [(.integer, .text "1"), (.float, .text "7")] := by
    show Template.Directive.pairs (Template.pieces Template.Directive.slotAt "%d of %f".toList) _ = _
    rw [row]
    rfl
  refine ⟨((render_iff none "%d of %f").1 args).2.mpr fun f hf e he => ?_,
    ((render_iff none "%d of %f").2 ["1", "7"]).mpr fun s hs large => ?_⟩
  · rw [shape] at hf
    rcases List.mem_cons.mp hf with rfl | hf
    · cases he
    · rw [List.mem_singleton.mp hf] at he
      exact not_isTooLarge_seven (Template.Directive.isTooLarge_of_refuses he)
  · rw [taken] at hs
    rcases List.mem_cons.mp hs with hs | hs
    · cases hs
    · cases List.mem_singleton.mp hs
      exact not_isTooLarge_seven large

/-- So large are three hundred and nine nines. -/
def nines : String := String.ofList (List.replicate 309 '9')

theorem isTooLarge_nines : IsTooLarge nines := by
  have spelled : Numeral.whole? (Text.trim (List.replicate 309 '9')) =
      some ⟨false, List.replicate 309 9⟩ := by decide +kernel
  have few : (List.replicate 309 9).length ≤ Numeral.digitLimit := by decide +kernel
  have large : Binary64.limit ≤ (Numeral.Whole.toInt ⟨false, List.replicate 309 9⟩).natAbs := by
    decide +kernel
  have characters : nines.toList = List.replicate 309 '9' := String.toList_ofList
  rw [← characters] at spelled
  exact ⟨_, spelled, few, large⟩

theorem steps_float_directive (v : Value) :
    Template.Directive.formatSteps "%f".toList [v] = [.float v] := by
  have row : Template.pieces Template.Directive.slotAt "%f".toList =
      [.slot .float ['%', 'f']] := by decide +kernel
  rw [Template.Directive.formatSteps, row]
  rfl

theorem render_nines_refused : render none "%f" [.text nines] = .error .integerTooLarge := by
  refine (render_eq_error_iff none "%f" _ _).mpr ?_
  have shape : steps none "%f" [.text nines] = [.float (.text nines)] :=
    steps_float_directive (.text nines)
  rw [shape]
  exact .here (Template.Directive.refuses_of_isTooLarge isTooLarge_nines)

end Message

end RequestLocale
