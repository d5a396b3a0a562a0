import RequestLocale.Number.Decimal
import RequestLocale.Value.Calendar

/-! The values that fill the placeholders of a message, stand in resource files and configure the
library. A record keeps its entries in order of first writing, and a later entry with an equal key
replaces the value in place.

A text is made of characters, and half of a pair is none, so no text here has one. Values may be
nested to any depth: nowhere does the library count the room that nested calls take on a stack. -/
namespace RequestLocale

inductive SequenceKind where
  | list
  | tuple
  deriving DecidableEq, Repr

inductive Value where
  | none
  | bool (b : Bool)
  | int (n : Int)
  | float (x : Binary64)
  | fraction (q : Rat)
  | decimal (d : Decimal)
  | text (s : String)
  | bytes (mutable : Bool) (bs : List UInt8)
  | day (d : Day)
  | moment (m : Moment)
  | sequence (kind : SequenceKind) (items : List Value)
  | set (items : List Value)
  | record (entries : List (Value × Value))
  /-- A sequence or record that contains itself, at the place where it comes around. -/
  | enclosing (keyed : Bool)
  deriving Repr, Inhabited

/-- A finite or infinite amount, by which numbers of different kinds are compared. -/
inductive Quantity where
  | exact (q : Rat)
  | infinite (negative : Bool)
  deriving DecidableEq

namespace Value

abbrev list (items : List Value) : Value := .sequence .list items
abbrev tuple (items : List Value) : Value := .sequence .tuple items

mutual
/-- Equality of values as data: of the same kind, with equal parts. -/
def beq : Value → Value → Bool
  | .none, .none => true
  | .bool a, .bool b => a == b
  | .int m, .int n => m == n
  | .float x, .float y => x == y
  | .fraction p, .fraction q => p == q
  | .decimal d, .decimal e => d == e
  | .text s, .text t => s == t
  | .bytes mutable bs, .bytes mutable' bs' => mutable == mutable' && bs == bs'
  | .day d, .day e => d == e
  | .moment m, .moment n => m == n
  | .sequence kind items, .sequence kind' others => kind == kind' && beqItems items others
  | .set items, .set others => beqItems items others
  | .record entries, .record others => beqEntries entries others
  | .enclosing keyed, .enclosing keyed' => keyed == keyed'
  | _, _ => false
  termination_by structural a => a

def beqItems : List Value → List Value → Bool
  | [], [] => true
  | a :: items, b :: others => beq a b && beqItems items others
  | _, _ => false
  termination_by structural items => items

def beqEntries : List (Value × Value) → List (Value × Value) → Bool
  | [], [] => true
  | (k, v) :: entries, (l, w) :: others => beq k l && beq v w && beqEntries entries others
  | _, _ => false
  termination_by structural entries => entries
end

instance : BEq Value := ⟨beq⟩

/-- The amount a number stands for; other values and NaN have none. -/
def quantity? : Value → Option Quantity
  | .bool b => some (.exact (if b then 1 else 0))
  | .int n => some (.exact n)
  | .float (.infinite negative) => some (.infinite negative)
  | .float x => x.toRat?.map .exact
  | .fraction q => some (.exact q)
  | .decimal (.infinite negative) => some (.infinite negative)
  | .decimal d => d.toRat?.map .exact
  | _ => Option.none

def isNumber : Value → Bool
  | .bool _ | .int _ | .float _ | .fraction _ | .decimal _ => true
  | _ => false

def isNaN : Value → Bool
  | .float x => x.isNaN
  | .decimal d => d.isNaN
  | _ => false

/-- Zero, the empty text and empty containers count as false. -/
def isTrue : Value → Bool
  | .none => false
  | .bool b => b
  | .int n => n != 0
  | .float x => !x.isZero
  | .fraction q => q != 0
  | .decimal d => !d.isZero
  | .text s => !s.isEmpty
  | .bytes _ bs => !bs.isEmpty
  | .sequence _ items | .set items => !items.isEmpty
  | .record entries => !entries.isEmpty
  | .day _ | .moment _ | .enclosing _ => true

/-- A part of a value on its own: where the value comes around, the part is the whole again. -/
def takenFrom (part whole : Value) : Value :=
  match part, whole with
  | .enclosing false, .sequence .. => whole
  | .enclosing true, .record _ => whole
  | part, _ => part

/-- The name of a value's kind, for messages about values of the wrong kind. -/
def kindName : Value → String
  | .none => "NoneType"
  | .bool _ => "bool"
  | .int _ => "int"
  | .float _ => "float"
  | .fraction _ => "Fraction"
  | .decimal _ => "Decimal"
  | .text _ => "str"
  | .bytes mutable _ => if mutable then "bytearray" else "bytes"
  | .day _ => "date"
  | .moment _ => "datetime"
  | .sequence .list _ => "list"
  | .sequence .tuple _ => "tuple"
  | .set _ => "set"
  | .record _ => "dict"
  | .enclosing keyed => if keyed then "dict" else "list"

/-- The name of a value's kind with the library it belongs to, for messages about keys. -/
def fullKindName (v : Value) : String :=
  match v with
  | .decimal _ => "decimal." ++ v.kindName
  | .day _ | .moment _ => "datetime." ++ v.kindName
  | _ => v.kindName

mutual
/-- Equality of keys: numbers by amount, whatever their kind. -/
def sameKey : Value → Value → Bool
  | .none, .none => true
  | .text s, .text t => s == t
  | .bytes false a, .bytes false b => a == b
  | .day a, .day b => a == b
  | .moment a, .moment b => a == b
  | .sequence .tuple items, .sequence .tuple others => sameKeys items others
  | a, b => a.quantity?.isSome && a.quantity? == b.quantity?
  termination_by structural a => a

def sameKeys : List Value → List Value → Bool
  | [], [] => true
  | a :: items, b :: others => sameKey a b && sameKeys items others
  | _, _ => false
  termination_by structural items => items
end

/-- Whether a value can be a key: nothing in it may change. -/
def isKey : Value → Bool
  | .bytes mutable _ => !mutable
  | .sequence kind items => kind == .tuple && areKeys items
  | .set _ | .record _ | .enclosing _ => false
  | _ => true
where
  areKeys : List Value → Bool
    | [] => true
    | item :: items => isKey item && areKeys items

end Value

/-- The entries of a record, in order of first writing. -/
abbrev Entries := List (Value × Value)

namespace Entries

/-- Writes one entry: in the place of the entry with an equal key, else at the end. -/
def put (key value : Value) : Entries → Entries
  | [] => [(key, value)]
  | (k, v) :: entries =>
    if k.sameKey key then (k, value) :: entries else (k, v) :: put key value entries

def ofList (pairs : List (Value × Value)) : Entries :=
  pairs.foldl (fun entries (key, value) => put key value entries) []

/-- The value under a textual key. -/
def find? (name : String) : Entries → Option Value
  | [] => none
  | (k, v) :: entries => if k.sameKey (.text name) then some v else find? name entries

theorem exists_mem_of_find? {name : String} {entries : Entries} {v : Value}
    (h : entries.find? name = some v) : ∃ key, (key, v) ∈ entries := by
  induction entries with
  | nil => cases h
  | cons entry entries ih =>
    rw [find?] at h
    split at h
    · cases h
      exact ⟨entry.1, List.mem_cons_self⟩
    · obtain ⟨key, hm⟩ := ih h
      exact ⟨key, List.mem_cons_of_mem _ hm⟩

end Entries

end RequestLocale
