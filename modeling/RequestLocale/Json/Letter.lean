import RequestLocale.Text.Utf8
import RequestLocale.Value.Basic

/-! The letters of texts in JSON. Escapes can spell half of a pair without the other half, which is
no character; a text with one is no text anywhere else in the library. -/
namespace RequestLocale.Json

/-- A character, or half of a pair, counted from the first of them. -/
inductive Letter where
  | whole (c : Char)
  | half (place : Fin 0x800)
  deriving DecidableEq, Repr

namespace Letter

/-- The letter of one unit. -/
def ofUnit (n : Nat) : Letter :=
  if h : 0xD800 ≤ n ∧ n < 0xE000 then .half ⟨n - 0xD800, by omega⟩ else .whole (Char.ofNat n)

def char? : Letter → Option Char
  | .whole c => some c
  | .half _ => none

/-- The bytes of a letter; those of half of a pair encode no character. -/
def bytes : Letter → List UInt8
  | .whole c => Text.Utf8.encodeChar c
  | .half place => [0xED, (0xA0 + place.val / 64).toUInt8, (0x80 + place.val % 64).toUInt8]

def isWhole (letter : Letter) : Bool := letter.char?.isSome

/-- The value of a text: the text, or the bytes of its letters if one of them is no character. -/
def value (letters : List Letter) : Value :=
  if letters.all isWhole then .text (String.ofList (letters.filterMap char?))
  else .bytes false (letters.flatMap bytes)

theorem filterMap_whole (cs : List Char) : (cs.map whole).filterMap char? = cs := by
  simp [char?, Function.comp_def]

theorem value_whole (cs : List Char) : value (cs.map .whole) = .text (String.ofList cs) := by
  have all : (cs.map whole).all isWhole = true := by simp [isWhole, char?]
  rw [value, if_pos all, filterMap_whole]

theorem eq_map_whole {letters : List Letter} (h : letters.all isWhole = true) :
    letters = (letters.filterMap char?).map whole := by
  induction letters with
  | nil => rfl
  | cons letter letters ih =>
    rw [List.all_cons, Bool.and_eq_true] at h
    cases letter with
    | half place => cases h.1
    | whole c =>
      rw [List.filterMap_cons_some (by rfl : char? (.whole c) = some c), List.map_cons, ← ih h.2]

theorem eq_whole_of_value {letters : List Letter} {s : String} (h : value letters = .text s) :
    letters = s.toList.map .whole := by
  unfold value at h
  split at h
  · rename_i all
    cases h
    rw [String.toList_ofList]
    exact eq_map_whole all
  · cases h

end Letter

end RequestLocale.Json
