import RequestLocale.Proofs.FloatRange
import RequestLocale.Template.Directive

/-! # What is put into one place of a message

An argument is written as a text, as a number or as JSON, and each of these can be refused. What is
refused is said here in terms of the argument alone: the whole numbers that its text spells, its
distance from the range of floating-point numbers, the keys of its records. Several steps in order
fail as the first one that is refused (`Tries`), so each step is looked at on its own. -/
namespace RequestLocale

/-! ## Steps in order -/

section Steps

variable {φ ε α β : Type}

/-- Of some steps the first one that is refused is refused for this reason. -/
inductive FirstRefusal (refuses : φ → ε → Prop) : List φ → ε → Prop
  | here {f : φ} {fs : List φ} {e : ε} : refuses f e → FirstRefusal refuses (f :: fs) e
  | later {f : φ} {fs : List φ} {e : ε} : (∀ e', ¬ refuses f e') → FirstRefusal refuses fs e →
      FirstRefusal refuses (f :: fs) e

/-- A result that takes some steps: it is there if none of them is refused, and otherwise fails as
the first one that is. -/
inductive Tries (refuses : φ → ε → Prop) (fs : List φ) : Except ε α → Prop
  | ok {a : α} : (∀ f ∈ fs, ∀ e, ¬ refuses f e) → Tries refuses fs (.ok a)
  | error {e : ε} : FirstRefusal refuses fs e → Tries refuses fs (.error e)

variable {refuses : φ → ε → Prop} {fs gs : List φ}

theorem FirstRefusal.append_right {e : ε} (h : FirstRefusal refuses fs e) (gs : List φ) :
    FirstRefusal refuses (fs ++ gs) e := by
  induction h with
  | here hr => exact .here hr
  | later hn _ ih => exact .later hn ih

theorem FirstRefusal.append_left {e : ε} (hn : ∀ f ∈ fs, ∀ e', ¬ refuses f e')
    (h : FirstRefusal refuses gs e) : FirstRefusal refuses (fs ++ gs) e := by
  induction fs with
  | nil => exact h
  | cons f fs ih =>
    exact .later (hn f List.mem_cons_self) (ih fun g hg => hn g (List.mem_cons_of_mem _ hg))

theorem FirstRefusal.exists_mem {e : ε} (h : FirstRefusal refuses fs e) :
    ∃ f ∈ fs, refuses f e := by
  induction h with
  | here hr => exact ⟨_, List.mem_cons_self, hr⟩
  | later _ _ ih =>
    obtain ⟨f, hf, hr⟩ := ih
    exact ⟨f, List.mem_cons_of_mem _ hf, hr⟩

/-- Where every step is refused, and is its own reason, the first one is. -/
theorem FirstRefusal.head?_eq {e : ε} {es : List ε} (h : FirstRefusal Eq es e) :
    es.head? = some e := by
  cases h with
  | here he => rw [he, List.head?_cons]
  | later hn _ => exact absurd rfl (hn _)

/-- Where each step has one reason at most, so have the steps together. -/
theorem FirstRefusal.unique (one : ∀ f e e', refuses f e → refuses f e' → e = e') {e e' : ε}
    (h : FirstRefusal refuses fs e) (h' : FirstRefusal refuses fs e') : e = e' := by
  induction h with
  | here hr =>
    cases h' with
    | here hr' => exact one _ _ _ hr hr'
    | later hn _ => exact absurd hr (hn _)
  | later hn _ ih =>
    cases h' with
    | here hr' => exact absurd hr' (hn _)
    | later _ h' => exact ih h'

namespace Tries

theorem nil (a : α) : Tries refuses [] (.ok a) := .ok fun _ h => (by cases h)

theorem map {r : Except ε α} (h : Tries refuses fs r) (g : α → β) :
    Tries refuses fs (r.map g) := by
  cases h with
  | ok hn => exact .ok hn
  | error hr => exact .error hr

theorem bind {r : Except ε α} {k : α → Except ε β} (h : Tries refuses fs r)
    (hk : ∀ a, r = .ok a → Tries refuses gs (k a)) : Tries refuses (fs ++ gs) (r >>= k) := by
  cases h with
  | error hr => exact .error (hr.append_right gs)
  | @ok a hn =>
    show Tries refuses (fs ++ gs) (k a)
    have next := hk a rfl
    generalize k a = result at next ⊢
    cases next with
    | ok hm =>
      refine .ok fun f hf => ?_
      rcases List.mem_append.mp hf with hf | hf
      · exact hn f hf
      · exact hm f hf
    | error hr => exact .error (.append_left hn hr)

theorem granted {f : φ} {a : α} (h : ∀ e, ¬ refuses f e) : Tries refuses [f] (.ok a) := by
  refine .ok fun g hg => ?_
  rw [List.mem_singleton.mp hg]
  exact h

theorem refused {f : φ} {e : ε} (h : refuses f e) :
    Tries refuses [f] (.error e : Except ε α) := .error (.here h)

/-- A step that is not refused changes nothing. -/
theorem cons {f : φ} {r : Except ε α} (h : ∀ e, ¬ refuses f e) (hr : Tries refuses fs r) :
    Tries refuses (f :: fs) r := by
  cases hr with
  | ok hn => exact .ok (List.forall_mem_cons.mpr ⟨h, hn⟩)
  | error he => exact .error (.later h he)

theorem returns_iff {r : Except ε α} (h : Tries refuses fs r) :
    (∃ a, r = .ok a) ↔ ∀ f ∈ fs, ∀ e, ¬ refuses f e := by
  cases h with
  | ok hn => exact ⟨fun _ => hn, fun _ => ⟨_, rfl⟩⟩
  | error hr =>
    obtain ⟨f, hf, he⟩ := hr.exists_mem
    exact ⟨fun ⟨_, h⟩ => (by cases h), fun hn => absurd he (hn f hf _)⟩

theorem fails_iff (one : ∀ f e e', refuses f e → refuses f e' → e = e') {r : Except ε α}
    (h : Tries refuses fs r) (e : ε) : r = .error e ↔ FirstRefusal refuses fs e := by
  cases h with
  | ok hn =>
    refine ⟨fun h => (by cases h), fun hr => ?_⟩
    obtain ⟨f, hf, he⟩ := hr.exists_mem
    exact absurd he (hn f hf e)
  | error hr =>
    refine ⟨fun h => ?_, fun hr' => ?_⟩
    · cases h
      exact hr
    · rw [hr.unique one hr']

end Tries

end Steps

/-! ## What the text of a value spells -/

namespace Value

/-- The whole numbers that the texts of a value spell. -/
inductive Spells : Value → Int → Prop
  | whole (n : Int) : Spells (.int n) n
  | numerator (q : Rat) : Spells (.fraction q) q.num
  | denominator (q : Rat) : Spells (.fraction q) q.den
  | item {kind : SequenceKind} {items : List Value} {item : Value} {n : Int} : item ∈ items →
      Spells item n → Spells (.sequence kind items) n
  | element {items : List Value} {item : Value} {n : Int} : item ∈ items →
      Spells item n → Spells (.set items) n
  | key {entries : Entries} {entry : Value × Value} {n : Int} : entry ∈ entries →
      Spells entry.1 n → Spells (.record entries) n
  | value {entries : Entries} {entry : Value × Value} {n : Int} : entry ∈ entries →
      Spells entry.2 n → Spells (.record entries) n

theorem itemsExceedDigits_of_mem {items : List Value} {item : Value} (hm : item ∈ items)
    (h : item.exceedsDigits = true) : itemsExceedDigits items = true := by
  induction items with
  | nil => cases hm
  | cons first items ih =>
    rw [itemsExceedDigits, Bool.or_eq_true]
    rcases List.mem_cons.mp hm with rfl | hm
    · exact .inl h
    · exact .inr (ih hm)

theorem entriesExceedDigits_of_mem {entries : Entries} {entry : Value × Value}
    (hm : entry ∈ entries) (h : (entry.1.exceedsDigits || entry.2.exceedsDigits) = true) :
    entriesExceedDigits entries = true := by
  induction entries with
  | nil => cases hm
  | cons first entries ih =>
    rw [entriesExceedDigits, Bool.or_eq_true]
    rcases List.mem_cons.mp hm with rfl | hm
    · exact .inl h
    · exact .inr (ih hm)

theorem exceedsDigits_of_spells {v : Value} {n : Int} (h : v.Spells n) :
    Numeral.exceedsDigitLimit n = true → v.exceedsDigits = true := by
  induction h with
  | whole n => exact id
  | numerator q =>
    intro long
    simp [exceedsDigits, long]
  | denominator q =>
    intro long
    simp [exceedsDigits, long]
  | item hm _ ih => exact fun long => itemsExceedDigits_of_mem hm (ih long)
  | element hm _ ih => exact fun long => itemsExceedDigits_of_mem hm (ih long)
  | key hm _ ih =>
    exact fun long => entriesExceedDigits_of_mem hm (Bool.or_eq_true_iff.mpr (.inl (ih long)))
  | value hm _ ih =>
    exact fun long => entriesExceedDigits_of_mem hm (Bool.or_eq_true_iff.mpr (.inr (ih long)))

mutual
theorem spells_of_exceedsDigits : ∀ v : Value, v.exceedsDigits = true →
    ∃ n, v.Spells n ∧ Numeral.exceedsDigitLimit n = true
  | .int n => fun h => ⟨n, .whole n, h⟩
  | .fraction q => fun h => by
    rw [exceedsDigits, Bool.or_eq_true] at h
    rcases h with h | h
    · exact ⟨_, .numerator q, h⟩
    · exact ⟨_, .denominator q, h⟩
  | .sequence kind items => fun h => by
    obtain ⟨item, hm, n, hs, hn⟩ := item_of_exceedDigits items h
    exact ⟨n, .item hm hs, hn⟩
  | .set items => fun h => by
    obtain ⟨item, hm, n, hs, hn⟩ := item_of_exceedDigits items h
    exact ⟨n, .element hm hs, hn⟩
  | .record entries => fun h => by
    obtain ⟨entry, hm, n, hk | hv, hn⟩ := entry_of_exceedDigits entries h
    · exact ⟨n, .key hm hk, hn⟩
    · exact ⟨n, .value hm hv, hn⟩
  | .none | .bool _ | .float _ | .decimal _ | .text _ | .bytes _ _ | .day _ | .moment _
  | .enclosing _ => fun h => by cases h

theorem item_of_exceedDigits : ∀ items : List Value, itemsExceedDigits items = true →
    ∃ item ∈ items, ∃ n, item.Spells n ∧ Numeral.exceedsDigitLimit n = true
  | [] => fun h => by cases h
  | item :: items => fun h => by
    rcases Bool.or_eq_true_iff.mp h with h | h
    · exact ⟨item, List.mem_cons_self, spells_of_exceedsDigits item h⟩
    · obtain ⟨other, hm, found⟩ := item_of_exceedDigits items h
      exact ⟨other, List.mem_cons_of_mem _ hm, found⟩

theorem entry_of_exceedDigits : ∀ entries : List (Value × Value),
    entriesExceedDigits entries = true → ∃ entry ∈ entries, ∃ n,
      (entry.1.Spells n ∨ entry.2.Spells n) ∧ Numeral.exceedsDigitLimit n = true
  | [] => fun h => by cases h
  | (key, value) :: entries => fun h => by
    rcases Bool.or_eq_true_iff.mp h with h | h
    · rcases Bool.or_eq_true_iff.mp h with h | h
      · obtain ⟨n, hs, hn⟩ := spells_of_exceedsDigits key h
        exact ⟨_, List.mem_cons_self, n, .inl hs, hn⟩
      · obtain ⟨n, hs, hn⟩ := spells_of_exceedsDigits value h
        exact ⟨_, List.mem_cons_self, n, .inr hs, hn⟩
    · obtain ⟨other, hm, found⟩ := entry_of_exceedDigits entries h
      exact ⟨other, List.mem_cons_of_mem _ hm, found⟩
end

/-- The text of a value is refused exactly if it spells a number that is too long. -/
theorem exceedsDigits_iff {v : Value} :
    v.exceedsDigits = true ↔ ∃ n, v.Spells n ∧ Numeral.exceedsDigitLimit n = true :=
  ⟨spells_of_exceedsDigits v, fun ⟨_, hs, hn⟩ => exceedsDigits_of_spells hs hn⟩

/-! ## What stands in the way of JSON -/

/-- Digits of a value that JSON takes as a text. -/
def digitFaults (v : Value) : List JsonFault := if v.exceedsDigits then [.digitLimit] else []

/-- A key is a text, a number, a truth value or nothing. -/
def keyFaults : Value → List JsonFault
  | .text _ | .none | .bool _ | .float _ => []
  | .int n => digitFaults (.int n)
  | v => [.key v.fullKindName]

mutual
/-- All that stands in the way of the JSON of a value, in the order of writing. -/
def jsonFaults : Value → List JsonFault
  | .sequence _ items => itemFaults items
  | .record entries => entryFaults entries
  | .enclosing _ => [.circular]
  | .none | .bool _ | .float _ | .text _ => []
  | .int n => digitFaults (.int n)
  | .fraction q => digitFaults (.fraction q)
  | .decimal d => digitFaults (.decimal d)
  | .bytes mutable bs => digitFaults (.bytes mutable bs)
  | .day d => digitFaults (.day d)
  | .moment m => digitFaults (.moment m)
  | .set items => digitFaults (.set items)
  termination_by structural v => v

def itemFaults : List Value → List JsonFault
  | [] => []
  | item :: items => jsonFaults item ++ itemFaults items
  termination_by structural items => items

def entryFaults : List (Value × Value) → List JsonFault
  | [] => []
  | (key, value) :: entries => keyFaults key ++ (jsonFaults value ++ entryFaults entries)
  termination_by structural entries => entries
end

/-- How JSON is written into a message. -/
abbrev messageJson : JsonStyle := ⟨true, .plain⟩

theorem tries_jsonInt (n : Int) : Tries Eq (digitFaults (.int n)) (jsonInt n) := by
  unfold digitFaults exceedsDigits jsonInt
  cases Numeral.exceedsDigitLimit n with
  | true => exact .error (.here rfl)
  | false => exact .nil _

theorem tries_jsonForeign (v : Value) : Tries Eq (digitFaults v) (v.jsonForeign messageJson) := by
  unfold digitFaults jsonForeign
  cases v.exceedsDigits with
  | true => exact .error (.here rfl)
  | false => exact .nil _

theorem tries_jsonFloat (x : Binary64) : Tries Eq [] (jsonFloat messageJson x) := .nil _

theorem tries_jsonKey (key : Value) : Tries Eq (keyFaults key) (jsonKey messageJson key) := by
  cases key with
  | text s => exact .nil _
  | none => exact .nil _
  | bool b => exact .nil _
  | int n =>
    rw [keyFaults, jsonKey]
    exact (tries_jsonInt n).map _
  | float x => exact (tries_jsonFloat x).map _
  | _ => exact .error (.here rfl)

mutual
theorem tries_json : ∀ v : Value, Tries Eq v.jsonFaults (v.json messageJson)
  | .none => .nil _
  | .bool _ => .nil _
  | .float x => tries_jsonFloat x
  | .text _ => .nil _
  | .int n => tries_jsonInt n
  | .sequence _ items => (tries_jsonItems items).map _
  | .record entries => (tries_jsonEntries entries).map _
  | .enclosing _ => .error (.here rfl)
  | .fraction q => tries_jsonForeign (.fraction q)
  | .decimal d => tries_jsonForeign (.decimal d)
  | .bytes mutable bs => tries_jsonForeign (.bytes mutable bs)
  | .day d => tries_jsonForeign (.day d)
  | .moment m => tries_jsonForeign (.moment m)
  | .set items => tries_jsonForeign (.set items)

theorem tries_jsonItems : ∀ items : List Value,
    Tries Eq (itemFaults items) (jsonItems messageJson items)
  | [] => .nil _
  | item :: items =>
    (tries_json item).bind fun part _ => (tries_jsonItems items).map (part :: ·)

theorem tries_jsonEntries : ∀ entries : Entries,
    Tries Eq (entryFaults entries) (jsonEntries messageJson entries)
  | [] => .nil _
  | (key, value) :: entries => by
    refine (tries_jsonKey key).bind fun name _ => (tries_json value).bind fun part _ => ?_
    exact (tries_jsonEntries entries).map (fun parts => (name ++ ':' :: part) :: parts)
end

end Value

/-! ## Fillings -/

/-- A step of putting arguments into a message. -/
inductive Filling where
  /-- A value is written, plain or quoted. -/
  | shown (v : Value)
  | integer (v : Value)
  | float (v : Value)
  | json (v : Value)
  /-- An index of so many digits is read. -/
  | index (digits : Nat)
  /-- A value is compared, to tell whether it counts as there. -/
  | compared (v : Value)

open Numeral (exceedsDigitLimit digitLimit)
open Binary64 (limit)

/-- What is refused, and why. -/
inductive Filling.Refuses : Filling → FormatError → Prop
  | shown {v : Value} {n : Int} : v.Spells n → exceedsDigitLimit n = true →
      Refuses (.shown v) .digitLimit
  | integer {n : Int} : exceedsDigitLimit n = true → Refuses (.integer (.int n)) .digitLimit
  | integerOfFraction {q : Rat} : limit * q.den ≤ q.num.natAbs →
      Refuses (.integer (.fraction q)) .quotientTooLarge
  | float {n : Int} : limit ≤ n.natAbs → Refuses (.float (.int n)) .integerTooLarge
  | floatOfFraction {q : Rat} : limit * q.den ≤ q.num.natAbs →
      Refuses (.float (.fraction q)) .quotientTooLarge
  | floatOfText {s : String} {w : Numeral.Whole} :
      Numeral.whole? (Text.trim s.toList) = some w → w.tooLong = false →
      limit ≤ w.toInt.natAbs → Refuses (.float (.text s)) .integerTooLarge
  | json {v : Value} {kind : String} : v.jsonFaults.head? = some (.key kind) →
      Refuses (.json v) (.jsonKey kind)
  | index {count : Nat} : digitLimit < count → Refuses (.index count) (.indexDigits count)
  | compared {negative : Bool} {payload : Nat} :
      Refuses (.compared (.decimal (.nan negative true payload))) .signallingNaN

namespace Filling

theorem Refuses.unique {f : Filling} {e e' : FormatError} (h : f.Refuses e) (h' : f.Refuses e') :
    e = e' := by
  cases h with
  | json hk =>
    cases h' with
    | json hk' =>
      rw [hk] at hk'
      cases hk'
      rfl
  | _ => cases h'; rfl

/-- What a number may be asked for without harm. -/
structure IsHarmless (v : Value) : Prop where
  integer : ∀ e, ¬ (Filling.integer v).Refuses e
  float : ∀ e, ¬ (Filling.float v).Refuses e

end Filling

namespace Value

/-- What may be read from a value as a number. -/
inductive Reading : Value → Except FormatError (Option Number) → Prop
  | whole (n : Int) : Reading (.int n) (.ok (some (.whole n)))
  | truth (b : Bool) : Reading (.bool b) (.ok (some (.whole (if b then 1 else 0))))
  | spelled {s : String} {w : Numeral.Whole} : Numeral.whole? (Text.trim s.toList) = some w →
      w.tooLong = false → Reading (.text s) (.ok (some (.whole w.toInt)))
  | float {v : Value} (x : Binary64) : Filling.IsHarmless v → Reading v (.ok (some (.float x)))
  | tooLarge {q : Rat} : limit * q.den ≤ q.num.natAbs →
      Reading (.fraction q) (.error .quotientTooLarge)
  | nothing {v : Value} : Filling.IsHarmless v → Reading v (.ok Option.none)

/-- A text that spells no whole number with few digits is harmless. -/
theorem isHarmless_text {s : String}
    (h : ∀ w, Numeral.whole? (Text.trim s.toList) = some w → w.tooLong = true) :
    Filling.IsHarmless (.text s) := by
  constructor
  · intro e he
    cases he
  · intro e he
    cases he with
    | floatOfText hw short _ =>
      rw [h _ hw] at short
      cases short

/-- What is read as a floating-point number if a text spells no whole number with few digits. -/
theorem reading_float? {s : String} (h : Filling.IsHarmless (.text s)) :
    Reading (.text s) (.ok ((Numeral.float? (Text.trim s.toList)).map .float)) := by
  cases hf : Numeral.float? (Text.trim s.toList) with
  | none => exact .nothing h
  | some x => exact .float x h

theorem reading (v : Value) : v.Reading v.number? := by
  cases v with
  | bool b => exact .truth b
  | int n => exact .whole n
  | float x =>
    refine .float x ⟨fun e h => ?_, fun e h => ?_⟩
    · cases h
    · cases h
  | fraction q =>
    have rounded : number? (.fraction q) =
      ((Binary64.ofQuotient (q.num < 0) q.num.natAbs q.den).inRange .quotientTooLarge).map
        fun x => some (.float x) := rfl
    rcases Binary64.ofQuotient_cases (q.num < 0) q.den_pos with ⟨large, h⟩ | ⟨small, units, h⟩
    · rw [rounded, h]
      exact .tooLarge large
    · rw [rounded, h]
      refine .float _ ⟨fun e he => ?_, fun e he => ?_⟩
      · cases he with
        | integerOfFraction large => exact absurd large (Nat.not_le_of_lt small)
      · cases he with
        | floatOfFraction large => exact absurd large (Nat.not_le_of_lt small)
  | text s =>
    unfold number?
    dsimp only
    cases hw : Numeral.whole? (Text.trim s.toList) with
    | none =>
      exact reading_float? (isHarmless_text fun w h => by rw [hw] at h; cases h)
    | some w =>
      cases hl : w.tooLong with
      | false =>
        simp only [hl]
        exact .spelled hw hl
      | true =>
        simp only [hl, if_true]
        exact reading_float? (isHarmless_text fun v h => by rw [hw] at h; cases h; exact hl)
  | _ =>
    refine .nothing ⟨fun e h => ?_, fun e h => ?_⟩
    · cases h
    · cases h

/-! ## The texts of a value -/

/-- A text, plain or quoted, is refused for the numbers in it. -/
theorem tries_shown (v : Value) (text : List Char) :
    Tries Filling.Refuses [.shown v]
      (if v.exceedsDigits then .error .digitLimit else .ok text) := by
  cases h : v.exceedsDigits with
  | true =>
    obtain ⟨n, hs, hn⟩ := exceedsDigits_iff.mp h
    exact .refused (.shown hs hn)
  | false =>
    refine .granted fun e he => ?_
    cases he with
    | shown hs hn =>
      rw [exceedsDigits_of_spells hs hn] at h
      cases h

theorem tries_plain? (v : Value) : Tries Filling.Refuses [.shown v] v.plain? :=
  tries_shown v v.plain

theorem tries_quoted? (v : Value) : Tries Filling.Refuses [.shown v] v.quoted? :=
  tries_shown v v.quoted

end Value

namespace Template.Directive

/-- A whole number is refused for its digits only. -/
theorem tries_wholeText {f : Filling} {n : Int}
    (long : exceedsDigitLimit n = true → f.Refuses .digitLimit)
    (short : exceedsDigitLimit n = false → ∀ e, ¬ f.Refuses e) :
    Tries Filling.Refuses [f] (wholeText n) := by
  unfold wholeText Value.plain? Value.exceedsDigits
  cases h : exceedsDigitLimit n with
  | true => exact .refused (long h)
  | false => exact .granted (short h)

/-- As a floating-point number it is refused for its size. -/
theorem tries_wholeFloatText {f : Filling} {n : Int}
    (large : limit ≤ n.natAbs → f.Refuses .integerTooLarge)
    (small : n.natAbs < limit → ∀ e, ¬ f.Refuses e) :
    Tries Filling.Refuses [f] (wholeFloatText n) := by
  unfold wholeFloatText
  rcases Binary64.ofInt_cases n with ⟨hn, h⟩ | ⟨hn, units, h⟩
  · rw [h]
    exact .refused (large hn)
  · rw [h]
    exact .granted (small hn)

/-- One and zero are neither long nor large. -/
theorem truth_isShort (b : Bool) : exceedsDigitLimit (if b then 1 else 0) = false := by
  cases b <;> decide +kernel

theorem truth_isSmall (b : Bool) : (if b then 1 else 0 : Int).natAbs < limit := by
  cases b <;> decide +kernel

section Numbers

variable {whole : Int → Except FormatError (List Char)}
  {float : Binary64 → Except FormatError (List Char)} {v : Value}

theorem numberText_whole {n : Int} (h : v.number? = .ok (some (.whole n))) :
    numberText whole float v = whole n := by
  rw [numberText, h]
  rfl

theorem numberText_float {x : Binary64} (h : v.number? = .ok (some (.float x))) :
    numberText whole float v = float x := by
  rw [numberText, h]
  rfl

theorem numberText_nothing (h : v.number? = .ok none) :
    numberText whole float v = .ok notANumber := by
  rw [numberText, h]
  rfl

theorem numberText_error {e : FormatError} (h : v.number? = .error e) :
    numberText whole float v = .error e := by
  rw [numberText, h]
  rfl

end Numbers

theorem tries_integerText (v : Value) : Tries Filling.Refuses [.integer v] (integerText v) := by
  have reading := v.reading
  unfold integerText
  generalize h : v.number? = number at reading
  cases reading with
  | whole n =>
    rw [numberText_whole h]
    refine tries_wholeText .integer fun short e he => ?_
    cases he with
    | integer long =>
      rw [long] at short
      cases short
  | truth b =>
    rw [numberText_whole h]
    refine tries_wholeText (fun long => ?_) fun _ e he => ?_
    · rw [truth_isShort] at long
      cases long
    · cases he
  | spelled hw hl =>
    rw [numberText_whole h]
    refine tries_wholeText (fun long => ?_) fun _ e he => ?_
    · rw [Numeral.exceedsDigitLimit_of_whole? hw hl] at long
      cases long
    · cases he
  | float x harmless =>
    rw [numberText_float h, truncatedText]
    cases ht : x.trunc? with
    | none => exact .granted harmless.integer
    | some n =>
      refine tries_wholeText (fun long => ?_) fun _ => harmless.integer
      rw [Numeral.exceedsDigitLimit_of_trunc? ht] at long
      cases long
  | tooLarge large =>
    rw [numberText_error h]
    exact .refused (.integerOfFraction large)
  | nothing harmless =>
    rw [numberText_nothing h]
    exact .granted harmless.integer

theorem tries_floatText (v : Value) : Tries Filling.Refuses [.float v] (floatText v) := by
  have reading := v.reading
  unfold floatText
  generalize h : v.number? = number at reading
  cases reading with
  | whole n =>
    rw [numberText_whole h]
    refine tries_wholeFloatText .float fun small e he => ?_
    cases he with
    | float large => exact absurd large (Nat.not_le_of_lt small)
  | truth b =>
    rw [numberText_whole h]
    refine tries_wholeFloatText (fun large => ?_) fun _ e he => ?_
    · exact absurd large (Nat.not_le_of_lt (truth_isSmall b))
    · cases he
  | spelled hw hl =>
    rw [numberText_whole h]
    refine tries_wholeFloatText (.floatOfText hw hl) fun small e he => ?_
    cases he with
    | floatOfText hw' _ large =>
      rw [hw] at hw'
      cases hw'
      exact absurd large (Nat.not_le_of_lt small)
  | float x harmless =>
    rw [numberText_float h]
    exact .granted harmless.float
  | tooLarge large =>
    rw [numberText_error h]
    exact .refused (.floatOfFraction large)
  | nothing harmless =>
    rw [numberText_nothing h]
    exact .granted harmless.float

theorem tries_jsonText (v : Value) : Tries Filling.Refuses [.json v] (jsonText v) := by
  have steps := v.tries_json
  unfold jsonText
  generalize v.json Value.messageJson = result at steps ⊢
  cases steps with
  | ok none =>
    refine .granted fun e he => ?_
    cases he with
    | json first => exact none _ (List.mem_of_head? first) _ rfl
  | @error fault refused =>
    have first := refused.head?_eq
    cases fault with
    | key kind => exact .refused (.json first)
    | _ =>
      refine .granted fun e he => ?_
      cases he with
      | json other =>
        rw [first] at other
        cases other

end Template.Directive

end RequestLocale
