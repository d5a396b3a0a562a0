import Mathlib.Computability.Language
import RequestLocale.Proofs.HeaderSafety

/-! # Which texts are language tags

A text is read once, with nothing kept but whether a part has begun. What is accepted can be said
without that: as the words of a pattern (`LanguageTag.accepts_iff_mem`), or by cutting the text at
every hyphen and underscore and looking at the parts (`LanguageTag.accepts_iff_parts`).
`LanguageTag.isTag_iff` says both of whole texts. The parts of two texts with a separator between
them are the parts of both, so tags can be joined and taken apart. -/
namespace RequestLocale.LanguageTag

open scoped Computability
open Text (isBlank)

/-! ## As a pattern -/

/-- One character of a class. -/
def oneOf (p : Char → Bool) : Language Char := {cs | ∃ c, p c = true ∧ cs = [c]}

/-- At least one letter or digit. -/
def run : Language Char := oneOf isPlain * (oneOf isPlain)∗

/-- A run, and any number of further ones, each after a separator. -/
def pattern : Language Char := run * (oneOf isJoint * run)∗

/-- What may follow within a part. -/
def continuation : Language Char := (oneOf isPlain)∗ * (oneOf isJoint * run)∗

theorem nil_notMem_oneOf_mul (p : Char → Bool) (l : Language Char) : [] ∉ oneOf p * l := by
  rw [Language.mem_mul]
  rintro ⟨_, ⟨c, _, rfl⟩, rest, _, h⟩
  cases h

theorem cons_mem_oneOf_mul {p : Char → Bool} {l : Language Char} {c : Char} {cs : List Char} :
    c :: cs ∈ oneOf p * l ↔ p c = true ∧ cs ∈ l := by
  rw [Language.mem_mul]
  constructor
  · rintro ⟨_, ⟨d, hd, rfl⟩, rest, hr, h⟩
    cases h
    exact ⟨hd, hr⟩
  · rintro ⟨hc, hcs⟩
    exact ⟨[c], ⟨c, hc, rfl⟩, cs, hcs, rfl⟩

theorem pattern_eq : pattern = oneOf isPlain * continuation := by
  rw [continuation, ← mul_assoc, ← run, pattern]

/-- A part goes on, ends for another one, or ends with the text. -/
theorem continuation_eq :
    continuation = 1 + oneOf isJoint * pattern + oneOf isPlain * continuation := by
  have parts : (oneOf isJoint * run)∗ = 1 + oneOf isJoint * pattern := by
    rw [← Language.one_add_self_mul_kstar_eq_kstar, pattern, mul_assoc]
  calc continuation
      = (1 + oneOf isPlain * (oneOf isPlain)∗) * (oneOf isJoint * run)∗ := by
        rw [Language.one_add_self_mul_kstar_eq_kstar, continuation]
    _ = (oneOf isJoint * run)∗ + oneOf isPlain * continuation := by
        rw [add_mul, one_mul, mul_assoc, continuation]
    _ = 1 + oneOf isJoint * pattern + oneOf isPlain * continuation := by rw [parts]

theorem isJoint_eq_false {c : Char} (h : isPlain c = true) : isJoint c = false := by
  cases hj : isJoint c with
  | false => rfl
  | true =>
    rw [isJoint, Bool.or_eq_true, beq_iff_eq, beq_iff_eq] at hj
    rcases hj with rfl | rfl <;> exact absurd h (by decide)

/-- The two states of the reading accept the pattern and what may follow within a part. -/
theorem accepts_iff_mem (cs : List Char) :
    (accepts true cs = true ↔ cs ∈ continuation) ∧ (accepts false cs = true ↔ cs ∈ pattern) := by
  induction cs with
  | nil =>
    constructor
    · rw [continuation_eq, Language.mem_add, Language.mem_add, Language.mem_one]
      simp [accepts]
    · rw [pattern_eq]
      simp [accepts, nil_notMem_oneOf_mul]
  | cons c cs ih =>
    constructor
    · rw [continuation_eq, Language.mem_add, Language.mem_add, Language.mem_one,
        cons_mem_oneOf_mul, cons_mem_oneOf_mul, ← ih.1, ← ih.2]
      cases hp : isPlain c with
      | true => simp [accepts, hp, isJoint_eq_false hp]
      | false => simp [accepts, hp]
    · rw [pattern_eq, cons_mem_oneOf_mul, ← ih.1]
      cases hp : isPlain c with
      | true => simp [accepts, hp]
      | false => simp [accepts, hp]

/-! ## By its parts -/

theorem isPlain_eq_isAlphanum (c : Char) : isPlain c = c.isAlphanum := by
  have lower : ('a' ≤ c && c ≤ 'z') = c.isLower := rfl
  have upper : ('A' ≤ c && c ≤ 'Z') = c.isUpper :=
    (Bool.decide_and (65 ≤ c.val) (c.val ≤ 90)).symm
  have digit : ('0' ≤ c && c ≤ '9') = c.isDigit := rfl
  show _ = (c.isUpper || c.isLower || c.isDigit)
  rw [isPlain, lower, upper, digit, Bool.or_comm c.isLower]

/-- Letters and digits of ASCII, at least one. -/
def IsPart (part : List Char) : Prop := part ≠ [] ∧ ∀ c ∈ part, c.isAlphanum = true

/-- The parts of a text between its separators. -/
def parts (cs : List Char) : List (List Char) := cs.splitOnP isJoint

theorem exists_parts (cs : List Char) : ∃ first rest, parts cs = first :: rest :=
  List.exists_cons_of_ne_nil (List.splitOnP_ne_nil isJoint cs)

theorem parts_cons_joint {c : Char} (h : isJoint c = true) (cs : List Char) :
    parts (c :: cs) = [] :: parts cs := by
  rw [parts, List.splitOnP_cons_eq_if_modifyHead, if_pos h, parts]

theorem parts_cons {c : Char} (h : isJoint c = false) {cs first : List Char}
    {rest : List (List Char)} (hp : parts cs = first :: rest) :
    parts (c :: cs) = (c :: first) :: rest := by
  rw [parts] at hp
  rw [parts, List.splitOnP_cons_eq_if_modifyHead, h, hp]
  rfl

/-- A text is accepted if its parts are parts of a tag, where the first one may be empty if it has
begun already. -/
theorem accepts_iff_parts {cs first : List Char} {rest : List (List Char)}
    (hp : parts cs = first :: rest) (inPart : Bool) :
    accepts inPart cs = true ↔ (inPart = true ∨ first ≠ []) ∧
      (∀ c ∈ first, c.isAlphanum = true) ∧ ∀ part ∈ rest, IsPart part := by
  induction cs generalizing first rest inPart with
  | nil =>
    cases hp
    simp [accepts]
  | cons c cs ih =>
    obtain ⟨next, more, hn⟩ := exists_parts cs
    cases hj : isJoint c with
    | true =>
      rw [parts_cons_joint hj, hn] at hp
      cases hp
      have notPlain : ¬ isPlain c = true := mt isJoint_eq_false (by simp [hj])
      simp [accepts, notPlain, hj, ih hn false, IsPart, and_assoc]
    | false =>
      rw [parts_cons hj hn] at hp
      cases hp
      cases hc : isPlain c with
      | true => simp [accepts, hc, ih hn true, ← isPlain_eq_isAlphanum]
      | false => simp [accepts, hc, hj, ← isPlain_eq_isAlphanum]

theorem isTag_iff_parts (s : String) :
    isTag s = true ↔ ∀ part ∈ parts s.toList, IsPart part := by
  obtain ⟨first, rest, hp⟩ := exists_parts s.toList
  rw [isTag, accepts_iff_parts hp false, hp, List.forall_mem_cons, IsPart, ← and_assoc]
  simp

/-- Two texts with a separator between them are a tag exactly if both are tags. -/
theorem isTag_joined {joint : Char} (h : isJoint joint = true) (s t : String) :
    isTag (s ++ String.singleton joint ++ t) = true ↔ isTag s = true ∧ isTag t = true := by
  have cut : parts (s ++ String.singleton joint ++ t).toList =
      parts s.toList ++ parts t.toList := by
    rw [String.toList_append, String.toList_append, String.toList_singleton, List.append_assoc,
      List.singleton_append, parts, List.splitOnP_append_cons _ _ h, parts, parts]
  rw [isTag_iff_parts, cut, List.forall_mem_append, ← isTag_iff_parts, ← isTag_iff_parts]

theorem ascii_of_isTag {s : String} (h : isTag s = true) {c : Char} (hc : c ∈ s.toList) :
    c.toNat < 128 ∧ isBlank c = false := by
  have plain := isNameChar_of_accepts h hc
  exact ⟨Http.Cookie.lt_of_isNameChar plain, Http.Cookie.isBlank_of_isNameChar plain⟩

theorem isTag_push_of_isBlank {c : Char} (h : isBlank c = true) (s : String) :
    isTag (s.push c) = false := by
  rw [← Bool.not_eq_true]
  intro tag
  have last : c ∈ (s.push c).toList := by simp
  rw [(ascii_of_isTag tag last).2] at h
  cases h

/-- **Which texts are language tags.** Blanks, the line ends among them, have no place in one, at
its end neither. -/
theorem isTag_iff (s : String) :
    (isTag s = true ↔ s ≠ "" ∧
      ∀ part ∈ s.toList.splitOnP isJoint, part ≠ [] ∧ ∀ c ∈ part, c.isAlphanum = true) ∧
    (isTag s = true ↔ s.toList ∈ pattern) ∧
    (∀ (joint : Char) (t : String), isJoint joint = true →
      (isTag (s ++ String.singleton joint ++ t) = true ↔ isTag s = true ∧ isTag t = true)) ∧
    (isTag s = true → ∀ c ∈ s.toList, c.toNat < 128 ∧ isBlank c = false) ∧
    ∀ c, isBlank c = true → isTag (s.push c) = false := by
  refine ⟨?_, (accepts_iff_mem s.toList).2, fun joint t h => isTag_joined h s t,
    fun h c hc => ascii_of_isTag h hc, fun c hc => isTag_push_of_isBlank hc s⟩
  rw [isTag_iff_parts]
  constructor
  · intro h
    refine ⟨?_, h⟩
    rintro rfl
    exact (h [] List.mem_cons_self).1 rfl
  · exact fun h => h.2

/-- A language with a script and a region, and what becomes of it with a line end behind it. -/
theorem isTag_serbian :
    isJoint '_' = true ∧ isTag "sr" = true ∧ isTag "Latn-RS" = true ∧ isBlank '\n' = true ∧
    isTag "sr_Latn-RS" = true ∧ (∀ c ∈ "sr_Latn-RS".toList, c.toNat < 128 ∧ isBlank c = false) ∧
    isTag "sr_Latn-RS\n" = false := by
  have joint : isJoint '_' = true := by decide
  have language : isTag "sr" = true := by decide
  have rest : isTag "Latn-RS" = true := by decide
  have blank : isBlank '\n' = true := by decide
  obtain ⟨_, _, joined, _⟩ := isTag_iff "sr"
  have whole : isTag "sr_Latn-RS" = true := (joined '_' "Latn-RS" joint).mpr ⟨language, rest⟩
  obtain ⟨_, _, _, ascii, ended⟩ := isTag_iff "sr_Latn-RS"
  exact ⟨joint, language, rest, blank, whole, ascii whole, ended '\n' blank⟩

end RequestLocale.LanguageTag
