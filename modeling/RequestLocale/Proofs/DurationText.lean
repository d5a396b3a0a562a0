import RequestLocale.Proofs.Digits
import RequestLocale.Proofs.DurationReport
import RequestLocale.Proofs.Representable

/-! # Durations as texts

A duration is spelled as a number and the word for a unit. The spelling is said apart from the way
in which it is read, and a number can be divided in more than one way: without a point it does not
matter which of its digits are taken for the optional ones. The reader takes as many digits as there
are, and since no unit begins with a digit, a point or a blank it finds every spelling
(`ofText?_eq_some_iff`). So a text is measured exactly if it spells an amount that is finite and not
below zero, and reported otherwise (`seconds_text_iff`). -/
namespace RequestLocale.Duration

open Text

/-! ## Numbers -/

/-- A number as it is spelled: a minus sign or none, digits that may be missing, a point or none,
and digits. -/
structure Number where
  negative : Bool
  before : List Char
  pointed : Bool
  after : List Char

namespace Number

structure IsWellFormed (n : Number) : Prop where
  before : ∀ c ∈ n.before, isDigit c = true
  after : ∀ c ∈ n.after, isDigit c = true
  after_ne : n.after ≠ []

/-- The number without its sign. -/
def unsigned (n : Number) : List Char :=
  n.before ++ ((if n.pointed then ['.'] else []) ++ n.after)

def text (n : Number) : List Char := (if n.negative then ['-'] else []) ++ n.unsigned

def digits (n : Number) : List Nat := (n.before ++ n.after).filterMap digitValue?

/-- How many of the digits stand behind a point. -/
def places (n : Number) : Nat := if n.pointed then n.after.length else 0

/-- The floating-point number nearest to the decimal fraction. -/
def value (n : Number) : Binary64 :=
  .ofQuotient n.negative (ofDigitValues n.digits) (10 ^ n.places)

end Number

/-- What may stand behind a number: its digits end there, and so does the number. -/
def Ends (rest : List Char) : Prop := ∀ c ∈ rest.head?, isDigit c = false ∧ c ≠ '.'

theorem values_ne_nil {digits : List Char} (h : ∀ c ∈ digits, isDigit c = true)
    (hn : digits ≠ []) : (digits.filterMap digitValue?).isEmpty = false := by
  rw [List.isEmpty_eq_false_iff, ne_eq, ← List.length_eq_zero_iff, length_values h,
    List.length_eq_zero_iff]
  exact hn

theorem unsigned?_pointed (negative : Bool) {before after rest : List Char}
    (hb : ∀ c ∈ before, isDigit c = true) (ha : ∀ c ∈ after, isDigit c = true) (hn : after ≠ [])
    (stop : ∀ c ∈ rest.head?, isDigit c = false) :
    unsigned? negative (before ++ '.' :: (after ++ rest)) =
      some ((Number.mk negative before true after).value, rest) := by
  have point : ∀ c ∈ ('.' :: (after ++ rest)).head?, isDigit c = false := by
    intro c hc
    cases hc
    decide
  rw [unsigned?, Numeral.digitsAtHead_append hb point]
  dsimp only
  split
  · rename_i behind hr
    cases hr
    rw [Numeral.digitsAtHead_append ha stop, values_ne_nil ha hn, ← List.filterMap_append,
      length_values ha, Binary64.ofDecimal_fraction]
    rfl
  · rename_i other
    exact absurd rfl (other _)

theorem unsigned?_plain (negative : Bool) {before after rest : List Char}
    (hb : ∀ c ∈ before, isDigit c = true) (ha : ∀ c ∈ after, isDigit c = true) (hn : after ≠ [])
    (ends : Ends rest) :
    unsigned? negative (before ++ after ++ rest) =
      some ((Number.mk negative before false after).value, rest) := by
  have all : ∀ c ∈ before ++ after, isDigit c = true := fun c hc =>
    (List.mem_append.mp hc).elim (hb c) (ha c)
  have some_digit : before ++ after ≠ [] := fun none => hn (List.append_eq_nil_iff.mp none).2
  rw [unsigned?, Numeral.digitsAtHead_append all fun c hc => (ends c hc).1]
  dsimp only
  split
  · exact absurd rfl (ends '.' rfl).2
  · rw [values_ne_nil all some_digit]
    exact congrArg (fun x => some (x, rest)) (Binary64.ofDecimal_fraction negative _ 0)

/-- The reader finds a number whichever of its digits are taken for the optional ones. -/
theorem unsigned?_append {n : Number} (h : n.IsWellFormed) {rest : List Char} (ends : Ends rest) :
    unsigned? n.negative (n.unsigned ++ rest) = some (n.value, rest) := by
  obtain ⟨negative, before, pointed, after⟩ := n
  cases pointed with
  | true =>
    have shape : (Number.mk negative before true after).unsigned ++ rest =
        before ++ '.' :: (after ++ rest) := by simp [Number.unsigned]
    rw [shape]
    exact unsigned?_pointed negative h.before h.after h.after_ne fun c hc => (ends c hc).1
  | false => exact unsigned?_plain negative h.before h.after h.after_ne ends

theorem exists_of_unsigned? {negative : Bool} {cs rest : List Char} {x : Binary64}
    (h : unsigned? negative cs = some (x, rest)) :
    ∃ n : Number, n.IsWellFormed ∧ n.negative = negative ∧ cs = n.unsigned ++ rest ∧
      x = n.value := by
  obtain ⟨before, hb, read, cut⟩ := Numeral.digitsAtHead_eq cs
  rw [unsigned?, read] at h
  dsimp only at h
  split at h
  · rename_i behind hr
    obtain ⟨after, ha, read, cut'⟩ := Numeral.digitsAtHead_eq behind
    rw [read] at h
    dsimp only at h
    split at h
    · cases h
    · rename_i some_digit
      cases h
      refine ⟨⟨negative, before, true, after⟩, ⟨hb, ha, ?_⟩, rfl, ?_, ?_⟩
      · rintro rfl
        exact some_digit rfl
      · rw [cut, hr]
        nth_rewrite 1 [cut']
        simp [Number.unsigned]
      · rw [length_values ha, ← List.filterMap_append, Binary64.ofDecimal_fraction]
        rfl
  · split at h
    · cases h
    · rename_i some_digit
      cases h
      refine ⟨⟨negative, [], false, before⟩, ⟨by simp, hb, ?_⟩, rfl, cut, ?_⟩
      · rintro rfl
        exact some_digit rfl
      · exact Binary64.ofDecimal_fraction negative _ 0

/-- A number does not begin with a second sign. -/
theorem number?_of_not_minus {cs : List Char} (h : ∀ c ∈ cs.head?, c ≠ '-') :
    number? cs = unsigned? false cs := by
  unfold number?
  split
  · exact absurd rfl (h '-' rfl)
  · rfl

theorem head_unsigned {n : Number} (h : n.IsWellFormed) (rest : List Char) :
    ∀ c ∈ (n.unsigned ++ rest).head?, isDigit c = true ∨ c = '.' := by
  obtain ⟨negative, before, pointed, after⟩ := n
  intro c hc
  cases before with
  | cons d before =>
    cases hc
    exact .inl (h.before _ List.mem_cons_self)
  | nil =>
    cases pointed with
    | true => cases hc; exact .inr rfl
    | false =>
      cases after with
      | nil => exact absurd rfl h.after_ne
      | cons d after => cases hc; exact .inl (h.after _ List.mem_cons_self)

theorem number?_append {n : Number} (h : n.IsWellFormed) {rest : List Char} (ends : Ends rest) :
    number? (n.text ++ rest) = some (n.value, rest) := by
  have read := unsigned?_append h ends
  unfold Number.text
  cases hn : n.negative with
  | true =>
    rw [hn] at read
    exact read
  | false =>
    rw [hn] at read
    have noMinus : ∀ c ∈ (n.unsigned ++ rest).head?, c ≠ '-' := by
      rintro c hc rfl
      exact absurd (head_unsigned h rest '-' hc) (by decide)
    rw [if_neg (by decide), List.nil_append, number?_of_not_minus noMinus, read]

theorem exists_of_number? {cs rest : List Char} {x : Binary64} (h : number? cs = some (x, rest)) :
    ∃ n : Number, n.IsWellFormed ∧ cs = n.text ++ rest ∧ x = n.value := by
  unfold number? at h
  split at h
  · obtain ⟨n, wf, hn, rfl, hx⟩ := exists_of_unsigned? h
    exact ⟨n, wf, by simp [Number.text, hn], hx⟩
  · obtain ⟨n, wf, hn, rfl, hx⟩ := exists_of_unsigned? h
    exact ⟨n, wf, by simp [Number.text, hn], hx⟩

/-! ## Units -/

/-- The seconds in the unit that a word names in any case. No word at all stands for seconds. -/
inductive Names : List Char → Binary64 → Prop
  | missing : Names [] (.ofInt 1)
  | word {word : List Char} {names : List String} {x : Binary64} : (names, x) ∈ units →
      String.ofList (lower word) ∈ names → Names word x

def letters : List Char := "abcdefghijklmnopqrstuvwxyz".toList

theorem letters_apart : ∀ c ∈ letters, isDigit c = false ∧ c ≠ '.' ∧ c ≠ ' ' := by
  have apart : (letters.all fun c => !isDigit c && c != '.' && c != ' ') = true := by
    decide +kernel
  simpa [and_assoc] using apart

theorem letters_of_units : ∀ row ∈ units, ∀ name ∈ row.1,
    name.toList ≠ [] ∧ ∀ c ∈ name.toList, c ∈ letters := by
  have plain : (units.all fun row => row.1.all fun name =>
      !name.toList.isEmpty && name.toList.all letters.contains) = true := by
    decide +kernel
  simp only [List.all_eq_true, Bool.and_eq_true, List.contains_iff_mem, Bool.not_eq_true',
    List.isEmpty_eq_false_iff] at plain
  exact plain

/-- No word names two units. -/
theorem units_apart : ∀ row ∈ units, ∀ other ∈ units, ∀ name ∈ row.1, name ∈ other.1 →
    other.2 = row.2 := by
  decide +kernel

theorem mem_units_second : (["s", "sec", "secs", "second", "seconds"], .ofInt 1) ∈ units := by
  decide +kernel

theorem find?_units {names : List String} {x : Binary64} (hr : (names, x) ∈ units) {name : String}
    (hn : name ∈ names) : (units.find? (·.1.contains name)).map (·.2) = some x := by
  cases found : units.find? (·.1.contains name) with
  | none => exact absurd hn (by simpa using List.find?_eq_none.mp found (names, x) hr)
  | some other =>
    have there : name ∈ other.1 := by simpa using List.find?_some found
    exact congrArg some
      (units_apart (names, x) hr other (List.mem_of_find?_eq_some found) name hn there)

theorem unit?_nil : unit? [] = some (.ofInt 1) := by
  have named : "s" ∈ ["s", "sec", "secs", "second", "seconds"] := List.mem_cons_self
  rw [unit?, if_pos List.isEmpty_nil, find?_units mem_units_second named]

theorem unit?_of_ne_nil {word : List Char} (h : word ≠ []) :
    unit? word = (units.find? (·.1.contains (String.ofList (lower word)))).map (·.2) := by
  rw [unit?, if_neg (by simpa using h)]

theorem Names.unit? {word : List Char} {x : Binary64} (h : Names word x) :
    unit? word = some x := by
  cases h with
  | missing => exact unit?_nil
  | word hr hn =>
    have some_word : word ≠ [] := by
      rintro rfl
      exact (letters_of_units _ hr _ hn).1 rfl
    rw [unit?_of_ne_nil some_word, find?_units hr hn]

theorem names_of_unit? {word : List Char} {x : Binary64} (h : unit? word = some x) :
    Names word x := by
  by_cases none : word = []
  · subst none
    rw [unit?_nil] at h
    exact Option.some.inj h ▸ .missing
  · rw [unit?_of_ne_nil none] at h
    obtain ⟨row, hf, rfl⟩ := Option.map_eq_some_iff.mp h
    exact .word (List.mem_of_find?_eq_some hf) (by simpa using List.find?_some hf)

/-- The name of a unit begins with a letter in any case, so a number ends before it. -/
theorem Names.begins {word : List Char} {x : Binary64} (h : Names word x) :
    Ends word ∧ ∀ c ∈ word.head?, c ≠ ' ' := by
  cases h with
  | missing => exact ⟨fun c hc => (by cases hc), fun c hc => (by cases hc)⟩
  | word hr hn =>
    have named := (letters_of_units _ hr _ hn).2
    rw [String.toList_ofList] at named
    -- What lower case leaves as it is has to be a letter already.
    have letter {c : Char} (hc : c ∈ word.head?) (low : c ≠ 'Σ' ∧ c ≠ 'İ' ∧ lowerChar c = c) :
        c ∈ letters := by
      obtain ⟨rest, rfl⟩ := List.head?_eq_some_iff.mp hc
      refine named c ?_
      rw [lower, lowerFrom_cons, lowering, if_neg low.1, if_neg low.2.1, low.2.2]
      exact List.mem_cons_self
    have noDigit : ∀ c ∈ word.head?, isDigit c = false := by
      intro c hc
      cases hd : isDigit c with
      | false => rfl
      | true =>
        have low : c ≠ 'Σ' ∧ c ≠ 'İ' ∧ lowerChar c = c := by
          refine ⟨?_, ?_, lowerChar_of_isDigit hd⟩ <;> rintro rfl <;> exact absurd hd (by decide)
        exact hd.symm.trans (letters_apart c (letter hc low)).1
    have noMark {d : Char} (low : d ≠ 'Σ' ∧ d ≠ 'İ' ∧ lowerChar d = d) (other : d ∉ letters) :
        ∀ c ∈ word.head?, c ≠ d := by
      rintro c hc rfl
      exact other (letter hc low)
    have noPoint := noMark (d := '.') (by decide) (by decide)
    have noSpace := noMark (d := ' ') (by decide) (by decide)
    exact ⟨fun c hc => ⟨noDigit c hc, noPoint c hc⟩, noSpace⟩

/-! ## Durations -/

/-- A text that spells an amount: a number, blanks, and the word for a unit. The amount is the
product of the number and the seconds of the unit, as floating-point arithmetic computes it. -/
inductive Spells : List Char → Binary64 → Prop
  | mk {number : Number} {word : List Char} {seconds : Binary64} (spaces : Nat) :
      number.IsWellFormed → Names word seconds →
      Spells (number.text ++ (List.replicate spaces ' ' ++ word)) (number.value * seconds)

section

variable {word : List Char} {seconds : Binary64} (named : Names word seconds) (spaces : Nat)
include named

theorem ends_spaced : Ends (List.replicate spaces ' ' ++ word) := by
  cases spaces with
  | zero => exact named.begins.1
  | succ spaces =>
    intro c hc
    cases hc
    decide

theorem dropWhile_spaced : (List.replicate spaces ' ' ++ word).dropWhile (· == ' ') = word := by
  rw [List.dropWhile_append_of_pos fun c hc => by simpa using List.eq_of_mem_replicate hc]
  cases word with
  | nil => rfl
  | cons c word => exact List.dropWhile_cons_of_neg (by simpa using named.begins.2 c rfl)

end

theorem ofText?_eq_some_iff {cs : List Char} {x : Binary64} :
    ofText? cs = some x ↔ Spells (trim cs) x := by
  constructor
  · intro h
    obtain ⟨⟨value, rest⟩, hv, h⟩ := Option.bind_eq_some_iff.mp h
    obtain ⟨seconds, hs, h⟩ := Option.bind_eq_some_iff.mp h
    obtain ⟨number, wf, shape, hx⟩ := exists_of_number? hv
    have blanks : rest.takeWhile (· == ' ') =
        List.replicate (rest.takeWhile (· == ' ')).length ' ' :=
      List.eq_replicate_of_mem fun c hc => by simpa using List.mem_takeWhile_imp hc
    have spelled := Spells.mk (rest.takeWhile (· == ' ')).length wf (names_of_unit? hs)
    rw [← blanks, List.takeWhile_append_dropWhile, ← shape, ← hx] at spelled
    exact Option.some.inj h ▸ spelled
  · intro h
    generalize hcs : trim cs = text at h
    cases h with
    | mk spaces wf named =>
      rw [ofText?, hcs, number?_append wf (ends_spaced named spaces)]
      change (unit? ((List.replicate spaces ' ' ++ _).dropWhile (· == ' '))).bind _ = _
      rw [dropWhile_spaced named spaces, named.unit?]
      rfl

theorem amount?_text (s : String) : amount? (.text s) = ofText? s.toList := rfl

/-- **Which texts are durations.** A text is measured exactly if it spells, between the blanks at its
ends, an amount that is finite and not below zero, and then as the whole seconds of that amount.
Every other text is reported as it is. -/
theorem seconds_text_iff (s : String) :
    (∀ n, seconds (.text s) = .ok n ↔ ∃ x, Spells (trim s.toList) x ∧ HasWhole x n) ∧
      ∀ e, seconds (.text s) = .error e ↔
        e = .invalid (.text s) ∧ ∀ x n, Spells (trim s.toList) x → ¬ HasWhole x n := by
  have measured (n : Nat) :
      seconds (.text s) = .ok n ↔ ∃ x, Spells (trim s.toList) x ∧ HasWhole x n := by
    rw [seconds_eq_ok_iff, amount?_text]
    simp only [ofText?_eq_some_iff]
    exact and_iff_right (not_isTooLarge_text s)
  refine ⟨measured, fun e => ?_⟩
  have reported : Reports (.text s) := reports_of_writable (not_isTooLarge_text s) rfl
  constructor
  · intro h
    rcases reported with ⟨n, hn⟩ | invalid
    · rw [hn] at h
      cases h
    · rw [invalid] at h
      cases h
      refine ⟨rfl, fun x n spelled whole => ?_⟩
      rw [(measured n).mpr ⟨x, spelled, whole⟩] at invalid
      cases invalid
  · rintro ⟨rfl, none⟩
    rcases reported with ⟨n, hn⟩ | invalid
    · obtain ⟨x, spelled, whole⟩ := (measured n).mp hn
      exact absurd whole (none x n spelled)
    · exact invalid

-- The lower case of the Kelvin sign is a plain letter.
example : (seconds (.text " 1.5 wee\u212as\n")).toOption = some 907200 := by decide +kernel

end RequestLocale.Duration
