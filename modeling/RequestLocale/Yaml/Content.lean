import RequestLocale.Text.Blank
import RequestLocale.Text.LowerCase
import RequestLocale.Yaml.Base64
import RequestLocale.Yaml.Document

/-! The value of a node. Collections are filled level by level, so of two errors the one nearer to
the root is reported, and of two on one level the earlier one. -/
namespace RequestLocale.Yaml

open Text

/-- An error with the level on which it occurs. -/
structure Fault where
  level : Nat
  error : Error

abbrev Content (α : Type) := Except Fault α

def fail {α : Type} (level : Nat) (e : Error) : Content α := .error ⟨level, e⟩

/-- Joins two results; of two errors the one on the lower level stays, of two on one level the
first one. -/
def Content.both {α β γ : Type} (f : α → β → γ) : Content α → Content β → Content γ
  | .ok a, .ok b => .ok (f a b)
  | .error a, .error b => .error (if b.level < a.level then b else a)
  | .error a, .ok _ => .error a
  | .ok _, .error b => .error b

namespace Scalar

/-- Takes off the mark of a base, in either case. -/
def dropBase (base : Nat) : List Char → List Char
  | '0' :: c :: cs =>
    let letter := c.toLower
    if (base = 2 ∧ letter = 'b') ∨ (base = 8 ∧ letter = 'o') ∨ (base = 16 ∧ letter = 'x') then cs
    else '0' :: c :: cs
  | cs => cs

def digitIn? (base : Nat) (c : Char) : Option Nat :=
  ((digitValue? c).or (hexValue? c)).filter (· < base)

/-- A whole number in a base. -/
def wholeIn (base : Nat) (text : List Char) : Except Error Int :=
  let (negative, body) := Numeral.sign (trim text)
  let body := dropBase base body
  let digits := body.filterMap (digitIn? base)
  if body.isEmpty ∨ digits.length ≠ body.length then .error (.notWhole base text)
  else if base = 10 ∧ Numeral.digitLimit < digits.length then .error (.digits digits.length)
  else
    let n : Nat := digits.foldl (fun n d => base * n + d) 0
    .ok (if negative then -n else n)

/-- Takes a sign off a text that is not empty. -/
def splitSign (text : List Char) : Except Error (Bool × List Char) :=
  if text.isEmpty then .error .emptyNumber else .ok (Numeral.sign text)

/-- A whole number: binary, hexadecimal, octal after a zero, to the base sixty, or decimal. -/
def whole (text : List Char) : Except Error Value := do
  let (negative, body) ← splitSign (text.filter (· ≠ '_'))
  let n ← match body with
    | [] => throw .emptyNumber
    | ['0'] => pure 0
    | '0' :: 'b' :: digits => wholeIn 2 digits
    | '0' :: 'x' :: digits => wholeIn 16 digits
    | '0' :: _ => wholeIn 8 body
    | _ =>
      let parts ← (split ':' body).mapM (wholeIn 10)
      pure (parts.foldl (fun n part => 60 * n + part) 0)
  return .int (if negative then -n else n)

def floatPart (text : List Char) : Except Error Binary64 :=
  match Numeral.float? (trim text) with
  | some x => .ok x
  | none => .error (.notFloat text)

/-- The sum of parts to the base sixty, the last one being the ones. -/
def sixties (parts : List Binary64) : Binary64 :=
  (parts.reverse.foldl (fun (sum, base) part => (sum + part * .ofInt base, 60 * base))
    (Binary64.finite false 0, (1 : Int))).1

def float (text : List Char) : Except Error Value := do
  let (negative, body) ← splitSign (lower (text.filter (· ≠ '_')))
  let signed (x : Binary64) : Value := .float (if negative then -x else x)
  if body = ".inf".toList then return signed (.infinite false)
  else if body = ".nan".toList then return .float .nan
  else if body.contains ':' then return signed (sixties (← (split ':' body).mapM floatPart))
  else return signed (← floatPart body)

def truth (text : List Char) : Except Error Value :=
  let word := String.ofList (lower text)
  if ["yes", "true", "on"].contains word then .ok (.bool true)
  else if ["no", "false", "off"].contains word then .ok (.bool false)
  else .error (.notTruth word.toList)

/-- Millionths of a second, from at most six digits of the fraction. -/
def micros (fraction : List Char) : Nat :=
  let digits := fraction.take 6
  Spelling.number (digits ++ List.replicate (6 - digits.length) '0')

def moment (text : List Char) : Except Error Value :=
  match Spelling.stamp? text with
  | none => .error .notMoment
  | some s =>
    match s.time with
    | none => ((Day.of? s.year s.month s.day).map Value.day).mapError .calendar
    | some (hour, minute, second, fraction) =>
      ((Moment.of? s.year s.month s.day hour minute second (micros fraction) s.offset).map
        Value.moment).mapError .calendar

/-- The value of a text under a tag. -/
def value (tag : Tag) (text : List Char) : Except Error Value :=
  match tag with
  | .null => .ok .none
  | .truth => truth text
  | .whole => whole text
  | .float => float text
  | .binary => ((Base64.decode? text).map (Value.bytes false)).elim (.error .malformed) .ok
  | .moment => moment text
  | .text => .ok (.text (String.ofList text))
  | _ => .error .malformed

def isScalarTag : Tag → Bool
  | .null | .truth | .whole | .float | .binary | .moment | .text => true
  | _ => false

end Scalar

namespace Node

/-- The text of a node that is used as a scalar: of a mapping, that of its default value. -/
def scalarText? : Node → Option (List Char)
  | .scalar _ text => some text
  | .mapping _ entries => defaultText? entries
  | _ => none
where
  defaultText? : List (Node × Node) → Option (List Char)
    | [] => none
    | (.scalar .value _, value) :: _ => scalarText? value
    | _ :: entries => defaultText? entries

mutual
/-- The entries that a mapping takes over from others, and its own ones. A default value counts
as an entry with a textual key. -/
def unmerged : List (Node × Node) → Except Error (List (Node × Node) × List (Node × Node))
  | [] => .ok ([], [])
  | (key, value) :: entries => do
    if key.scalarTag? = some .merge then
      let here ← mergedFrom value
      let (merged, own) ← unmerged entries
      return (here ++ merged, own)
    else
      let (merged, own) ← unmerged entries
      let key := if key.scalarTag? = some .value then .scalar .text ['='] else key
      return (merged, (key, value) :: own)

/-- What a mapping, or a sequence of mappings with the first one strongest, gives to another. -/
def mergedFrom : Node → Except Error (List (Node × Node))
  | .mapping _ entries => do
    let (merged, own) ← unmerged entries
    return merged ++ own
  | .sequence _ items => mergedFromAll items
  | .enclosing _ => .ok []
  | .scalar .. => .error .malformed

def mergedFromAll : List Node → Except Error (List (Node × Node))
  | [] => .ok []
  | item :: items => do
    let here ← match item with
      | .mapping tag entries => mergedFrom (.mapping tag entries)
      | .enclosing true => .ok []
      | _ => .error .malformed
    let later ← mergedFromAll items
    return later ++ here
end

/-- All entries of a mapping, those taken over first, so that its own ones replace them. -/
def allEntries (entries : List (Node × Node)) : Except Error (List (Node × Node)) := do
  let (merged, own) ← unmerged entries
  return merged ++ own

end Node

/-- A value that may be a key. -/
def checkedKey (level : Nat) (key : Content Value) : Content Value :=
  match key with
  | .ok v => if v.isKey then .ok v else fail level .malformed
  | e => e

def atLevel {α : Type} (level : Nat) (r : Except Error α) : Content α := r.mapError (⟨level, ·⟩)

def isCollection : Node → Bool
  | .scalar .. => false
  | _ => true

namespace Content

mutual
/-- The value of a node on a level; `fuel` bounds the depth below it. -/
def value (fuel level : Nat) (node : Node) : Content Value :=
  match fuel with
  | 0 => fail level .malformed
  | fuel + 1 =>
    match node with
    | .enclosing keyed => .ok (.enclosing keyed)
    | .scalar tag text => atLevel level (Scalar.value tag text)
    | .sequence tag items =>
      match tag with
      | .sequence => (values fuel (level + 1) items).map Value.list
      | .orderedPairs | .pairs => (pairValues fuel (level + 1) items).map Value.list
      | _ => fail (level + 1) .malformed
    | .mapping tag entries =>
      if Scalar.isScalarTag tag then
        match Node.scalarText? (.mapping tag entries) with
        | some text => atLevel level (Scalar.value tag text)
        | none => fail level .malformed
      else if tag = .mapping ∨ tag = .set then
        match Node.allEntries entries with
        | .error e => fail (level + 1) e
        | .ok entries =>
          (entryValues fuel (level + 1) entries).map fun pairs =>
            let record := Entries.ofList pairs
            if tag = .set then .set (record.map (·.1)) else .record record
      else fail (level + 1) .malformed

def values (fuel level : Nat) (items : List Node) : Content (List Value) :=
  match fuel with
  | 0 => fail level .malformed
  | fuel + 1 =>
    match items with
    | [] => .ok []
    | item :: items => both (· :: ·) (value fuel level item) (values fuel level items)

def entryValues (fuel level : Nat) (entries : List (Node × Node)) :
    Content (List (Value × Value)) :=
  match fuel with
  | 0 => fail level .malformed
  | fuel + 1 =>
    match entries with
    | [] => .ok []
    | (key, v) :: entries =>
      let key := if isCollection key ∧ (Node.scalarText? key).isNone then fail level .malformed
        else checkedKey level (value fuel level key)
      both (· :: ·) (both Prod.mk key (value fuel level v)) (entryValues fuel level entries)

/-- Mappings of one entry each, as pairs. -/
def pairValues (fuel level : Nat) (items : List Node) : Content (List Value) :=
  match fuel with
  | 0 => fail level .malformed
  | fuel + 1 =>
    match items with
    | [] => .ok []
    | .mapping _ [(key, v)] :: items =>
      both (· :: ·)
        (both (fun key v => .tuple [key, v]) (value fuel level key) (value fuel level v))
        (pairValues fuel level items)
    | _ => fail level .malformed
end

end Content

mutual
/-- Steps enough to visit a node. -/
def Node.steps : Node → Nat
  | .scalar .. | .enclosing _ => 1
  | .sequence _ items => itemSteps items + 1
  | .mapping _ entries => entrySteps entries + 1
  termination_by structural node => node

def itemSteps : List Node → Nat
  | [] => 1
  | item :: items => item.steps + itemSteps items + 1
  termination_by structural items => items

def entrySteps : List (Node × Node) → Nat
  | [] => 1
  | (key, v) :: entries => key.steps + v.steps + entrySteps entries + 1
  termination_by structural entries => entries
end

/-- Reads the only document of a text; a text without one is nothing. -/
def read (text : List Char) : Except Error Value := do
  match ← Node.ofText? text with
  | none => return .none
  | some node =>
    match Content.value (2 * node.steps + 2) 0 node with
    | .ok v => return v
    | .error fault => throw fault.error

end RequestLocale.Yaml
