import Mathlib.Tactic.Ring
import RequestLocale.Yaml.Content

/-! # Whole numbers of any length in YAML

The digits of a whole number are counted when they are decimal, but not when they are hexadecimal:
`k: 0xff…f` is read as a record, however many digits there are (`Yaml.read_hexRecord`). The text
is cut into tokens step by step; only the step over the number itself depends on its length. -/
namespace RequestLocale.Yaml

/-- The largest number of some length in hexadecimal digits, one at least. -/
def hexNumber (more : Nat) : List Char := '0' :: 'x' :: List.replicate (more + 1) 'f'

/-- A record with this number in it. -/
def hexRecord (more : Nat) : List Char := 'k' :: ':' :: ' ' :: hexNumber more

theorem mem_hexNumber {more : Nat} {c : Char} (h : c ∈ hexNumber more) :
    c = '0' ∨ c = 'x' ∨ c = 'f' := by
  simpa [hexNumber] using h

/-! ## Tokens -/

theorem Cursor.skip_eq {cs : List Char} (h : ∀ c ∈ cs, isBreak c = false ∧ c ≠ '\uFEFF')
    (rest : List Char) (index line column : Nat) :
    Cursor.skip cs.length ⟨cs ++ rest, index, line, column⟩ =
      ⟨rest, index + cs.length, line, column + cs.length⟩ := by
  induction cs generalizing index column with
  | nil => rfl
  | cons c cs ih =>
    obtain ⟨⟨hb, hm⟩, h⟩ := List.forall_mem_cons.mp h
    rw [List.length_cons, skip, next]
    simp only [List.cons_append, hb, if_neg hm, Bool.false_eq_true, if_false]
    rw [ih h, Nat.add_assoc, Nat.add_assoc, Nat.add_comm 1]

namespace Plain

theorem chunk_replicate (n : Nat) :
    chunk false (List.replicate n 'f') = List.replicate n 'f' := by
  induction n with
  | zero => rfl
  | succ n ih =>
    have goesOn : stops false ('f' :: List.replicate n 'f') = false := rfl
    rw [List.replicate_succ, chunk, goesOn, ih]
    rfl

theorem chunk_hexNumber (more : Nat) : chunk false (hexNumber more) = hexNumber more := by
  rw [hexNumber, chunk, chunk, chunk_replicate]
  rfl

/-- A number at the end of the text is taken as a whole. -/
theorem scalar_hexNumber (indent : Int) (more index line column : Nat) :
    scalar false indent ⟨hexNumber more, index, line, column⟩ =
      ⟨hexNumber more,
        ⟨[], index + (hexNumber more).length, line, column + (hexNumber more).length⟩, false⟩ := by
  have ordinary : ∀ c ∈ hexNumber more, isBreak c = false ∧ c ≠ '\uFEFF' := by
    intro c hc
    rcases mem_hexNumber hc with rfl | rfl | rfl <;> decide
  have after := Cursor.skip_eq ordinary [] index line column
  rw [List.append_nil] at after
  rw [scalar, chunks]
  simp only [chunk_hexNumber, after]
  rfl

end Plain

namespace Lexer

/-- The tokens before the value, the last one first. -/
def beforeValue : List Token := [.value, .scalar true ['k'], .key, .blockMappingStart]

def afterKey (rest : List Char) : Lexer :=
  ⟨⟨':' :: ' ' :: rest, 1, 0, 1⟩, [.scalar true ['k']], -1, [], [some ⟨0, false, 0, 0, 0⟩], false⟩

def afterColon (rest : List Char) : Lexer :=
  ⟨⟨' ' :: rest, 2, 0, 2⟩, beforeValue, 0, [-1], [none], false⟩

def atValue (rest : List Char) : Lexer :=
  ⟨⟨rest, 3, 0, 3⟩, beforeValue, 0, [-1], [none], false⟩

def atEnd (value : List Char) : Lexer :=
  ⟨⟨[], 3 + value.length, 0, 3 + value.length⟩, .scalar true value :: beforeValue, 0, [-1], [none],
    false⟩

/-- A step takes one token, if no block ends before it. -/
theorem run_step {before after : Lexer} (lx : Lexer) {fuel : Nat}
    (skipped : ∀ steps, skipToToken (steps + 1) before = lx)
    (fresh : lx.dropStale = .ok lx) (level : lx.unwindTo lx.cursor.column = lx)
    (more : lx.cursor.rest.isEmpty = false) (taken : lx.token = .ok after) :
    run (fuel + 1) before = run fuel after := by
  rw [run, skipped, fresh]
  show (if (lx.unwindTo lx.cursor.column).cursor.rest.isEmpty then _ else _) = _
  rw [level, more, taken]
  rfl

theorem run_key (fuel : Nat) (rest : List Char) :
    run (fuel + 1) (start ('k' :: ':' :: ' ' :: rest)) = run fuel (afterKey rest) := by
  refine run_step (start ('k' :: ':' :: ' ' :: rest)) (fun _ => ?_) ?_ ?_ ?_ ?_ <;> rfl

theorem run_colon (fuel : Nat) (rest : List Char) :
    run (fuel + 1) (afterKey rest) = run fuel (afterColon rest) := by
  refine run_step (afterKey rest) (fun _ => ?_) ?_ ?_ ?_ ?_ <;> rfl

theorem token_hexNumber (more : Nat) :
    token (atValue (hexNumber more)) = .ok (atEnd (hexNumber more)) := by
  have plain : token (atValue (hexNumber more)) = plainScalar (atValue (hexNumber more)) := by rfl
  have saved : saveCandidate (atValue (hexNumber more)) = .ok (atValue (hexNumber more)) := by rfl
  have reading : Plain.scalar (atValue (hexNumber more)).inFlow (atValue (hexNumber more)).indent
      (atValue (hexNumber more)).cursor = _ := Plain.scalar_hexNumber 0 more 3 0 3
  rw [plain, plainScalar, saved]
  show Except.ok _ = _
  rw [reading]
  rfl

theorem run_hexNumber (fuel more : Nat) :
    run (fuel + 1) (afterColon (hexNumber more)) = run fuel (atEnd (hexNumber more)) := by
  refine run_step (atValue (hexNumber more)) (fun _ => ?_) ?_ ?_ ?_ (token_hexNumber more) <;> rfl

theorem run_end (fuel : Nat) (value : List Char) :
    (run (fuel + 1) (atEnd value)).map (·.reversed) =
      .ok (.streamEnd :: .blockEnd :: .scalar true value :: beforeValue) := by
  rfl

end Lexer

theorem tokens_eq {text : List Char} (allowed : text.all isAllowed = true)
    (unmarked : text.head? ≠ some '\uFEFF') :
    tokens text =
      ((Lexer.run (text.length + 2) (Lexer.start text)).map (·.reversed)).map List.reverse := by
  simp only [tokens, allowed, if_neg unmarked]
  generalize Lexer.run (text.length + 2) (Lexer.start text) = result
  cases result <;> rfl

theorem tokens_hexRecord (more : Nat) :
    tokens (hexRecord more) =
      .ok [.blockMappingStart, .key, .scalar true ['k'], .value, .scalar true (hexNumber more),
        .blockEnd, .streamEnd] := by
  have allowed : (hexRecord more).all isAllowed = true := by
    simp only [hexRecord, List.all_cons, List.all_eq_true, Bool.and_eq_true]
    refine ⟨by decide, by decide, by decide, fun c hc => ?_⟩
    rcases mem_hexNumber hc with rfl | rfl | rfl <;> decide
  have unmarked : (hexRecord more).head? ≠ some '\uFEFF' := by
    rw [hexRecord, List.head?_cons]
    decide
  have steps : (hexRecord more).length + 2 = (hexNumber more).length + 1 + 1 + 1 + 1 + 1 := by
    simp [hexRecord]
  rw [tokens_eq allowed unmarked, steps, hexRecord, Lexer.run_key, Lexer.run_colon,
    Lexer.run_hexNumber, Lexer.run_end]
  rfl

/-! ## Nodes and values -/

theorem document_record (text : List Char) :
    Reader.document.run' ⟨[.blockMappingStart, .key, .scalar true ['k'], .value,
        .scalar true text, .blockEnd, .streamEnd], [], Reader.defaultHandles⟩ =
      .ok (some (.mapping .mapping
        [(.scalar .text ['k'], .scalar (.ofSpelling text) text)])) := by
  rfl

theorem isWhole_hexNumber (more : Nat) : Spelling.isWhole (hexNumber more) = true := by
  have digits : Spelling.isWhole (hexNumber more) =
      (List.replicate (more + 1) 'f').all fun c => (Text.hexValue? c).isSome || c == '_' := rfl
  rw [digits, List.all_replicate]
  simp
  decide

theorem isFloat_hexNumber (more : Nat) : Spelling.isFloat (hexNumber more) = false := by
  have pointless : Text.cut? '.' ('x' :: List.replicate (more + 1) 'f') = none := by
    rw [Text.cut?_eq_none_iff]
    simp
  have unsigned : Spelling.dropSign (hexNumber more) = hexNumber more := rfl
  have digits : ('x' :: List.replicate (more + 1) 'f').dropWhile Spelling.isDigitOrGap =
      'x' :: List.replicate (more + 1) 'f' := rfl
  unfold Spelling.isFloat
  simp only [unsigned]
  simp only [hexNumber, digits]
  -- A point may stand first or after the digits; here neither is one.
  split
  · next first => exact absurd (List.cons.inj first).1 (by decide)
  split
  · next after => exact absurd (List.cons.inj after).1 (by decide)
  rw [pointless]
  rfl

theorem ofSpelling_hexNumber (more : Nat) : Tag.ofSpelling (hexNumber more) = .whole := by
  have untrue : Spelling.truths.any (·.toList == hexNumber more) = false := rfl
  rw [Tag.ofSpelling, untrue, isFloat_hexNumber, isWhole_hexNumber]
  rfl

namespace Scalar

theorem trim_replicate (n : Nat) :
    Text.trim (List.replicate (n + 1) 'f') = List.replicate (n + 1) 'f' := by
  have notBlank : Text.isBlank 'f' = false := by decide
  have kept : (List.replicate (n + 1) 'f').dropWhile Text.isBlank =
      List.replicate (n + 1) 'f' := by
    rw [List.replicate_succ, List.dropWhile_cons, notBlank]
    rfl
  rw [Text.trim, Text.trimStart, kept, Text.trimEnd, List.reverse_replicate, kept,
    List.reverse_replicate]

theorem foldl_replicate (n start : Nat) :
    (List.replicate n 15).foldl (fun n d => 16 * n + d) start + 1 = 16 ^ n * (start + 1) := by
  induction n generalizing start with
  | zero => simp
  | succ n ih =>
    rw [List.replicate_succ, List.foldl_cons, ih]
    ring

theorem wholeIn_replicate (n : Nat) :
    wholeIn 16 (List.replicate (n + 1) 'f') = .ok ((16 ^ (n + 1) - 1 : Nat) : Int) := by
  have digits : (List.replicate (n + 1) 'f').filterMap (digitIn? 16) =
      List.replicate (n + 1) 15 := List.filterMap_replicate_of_some (by decide)
  have unsigned : Numeral.sign (List.replicate (n + 1) 'f') =
      (false, List.replicate (n + 1) 'f') := rfl
  have bare : dropBase 16 (List.replicate (n + 1) 'f') = List.replicate (n + 1) 'f' := rfl
  have sum := foldl_replicate (n + 1) 0
  rw [Nat.zero_add, Nat.mul_one] at sum
  simp only [wholeIn, trim_replicate, unsigned, bare, digits, List.length_replicate]
  rw [if_neg (by simp), if_neg (by simp), ← sum]
  rfl

theorem whole_hexNumber (more : Nat) :
    whole (hexNumber more) = .ok (.int ((16 ^ (more + 1) - 1 : Nat) : Int)) := by
  have ungrouped : (hexNumber more).filter (· ≠ '_') = hexNumber more := by
    refine List.filter_eq_self.mpr fun c hc => ?_
    rcases mem_hexNumber hc with rfl | rfl | rfl <;> decide
  have unsigned : splitSign (hexNumber more) = .ok (false, hexNumber more) := rfl
  rw [whole, ungrouped, unsigned]
  show (wholeIn 16 (List.replicate (more + 1) 'f') >>= _) = _
  rw [wholeIn_replicate]
  rfl

end Scalar

/-- The value of a record is built from that of its only entry. -/
theorem value_record (text : List Char) :
    Content.value 12 0 (.mapping .mapping [(.scalar .text ['k'], .scalar .whole text)]) =
      (Content.both (· :: ·) (Content.both Prod.mk (.ok (.text "k"))
        (atLevel 1 (Scalar.value .whole text))) (.ok [])).map fun pairs =>
          .record (Entries.ofList pairs) := by
  have own : Node.allEntries [(.scalar .text ['k'], .scalar .whole text)] =
      .ok [(.scalar .text ['k'], .scalar .whole text)] := rfl
  have scalar (fuel level : Nat) (tag : Tag) (text : List Char) :
      Content.value (fuel + 1) level (.scalar tag text) =
        atLevel level (Scalar.value tag text) := by
    rw [Content.value]
  rw [Content.value]
  simp only [own, Scalar.isScalarTag, Content.entryValues, scalar]
  rfl

/-- A number of any length is read. -/
theorem read_hexRecord (more : Nat) :
    read (hexRecord more) =
      .ok (.record [(.text "k", .int ((16 ^ (more + 1) - 1 : Nat) : Int))]) := by
  have node : Node.ofText? (hexRecord more) =
      .ok (some (.mapping .mapping [(.scalar .text ['k'], .scalar .whole (hexNumber more))])) := by
    rw [Node.ofText?, tokens_hexRecord, ← ofSpelling_hexNumber more]
    exact document_record (hexNumber more)
  have fuel : 2 * (Node.mapping .mapping
      [(.scalar .text ['k'], .scalar .whole (hexNumber more))]).steps + 2 = 12 := rfl
  rw [read, node]
  simp only [bind, Except.bind, fuel]
  rw [value_record, Scalar.value, Scalar.whole_hexNumber]
  rfl

end RequestLocale.Yaml
