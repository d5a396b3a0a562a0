import RequestLocale.Template.Piece
import RequestLocale.Text.Blank

/-! Directives: a percent sign and a letter that says how the next argument is written. A doubled
percent sign is one percent sign and takes no argument, a directive for which no argument is left
is copied, and arguments for which no directive is left follow the text. -/
namespace RequestLocale

/-- A number read from an argument. -/
inductive Number where
  | whole (n : Int)
  | float (x : Binary64)
  deriving DecidableEq, Repr

/-- A rounded number, unless it is beyond the range. -/
def Binary64.inRange (fault : FormatError) : Binary64 → Except FormatError Binary64
  | .infinite _ => .error fault
  | x => .ok x

namespace Value

/-- The number that an argument stands for. Texts are read, fractions rounded, truth values
counted as one and zero; other values stand for none. -/
def number? : Value → Except FormatError (Option Number)
  | .bool b => .ok (some (.whole (if b then 1 else 0)))
  | .int n => .ok (some (.whole n))
  | .float x => .ok (some (.float x))
  | .fraction q =>
    ((Binary64.ofQuotient (q.num < 0) q.num.natAbs q.den).inRange .quotientTooLarge).map
      fun x => some (.float x)
  | .text s =>
    let cs := Text.trim s.toList
    match Numeral.whole? cs with
    | some w => if w.tooLong then .ok (Numeral.float? cs |>.map .float) else
        .ok (some (.whole w.toInt))
    | .none => .ok (Numeral.float? cs |>.map .float)
  | _ => .ok .none

end Value

namespace Template

inductive Directive where
  | percent
  | plain
  | integer
  | float
  | json
  | quoted
  | nothing
  deriving DecidableEq, Repr

namespace Directive

def ofLetter? : Char → Option Directive
  | '%' => some percent
  | 's' => some plain
  | 'd' | 'i' => some integer
  | 'f' => some float
  | 'j' => some json
  | 'o' | 'O' => some quoted
  | 'c' => some nothing
  | _ => none

def slotAt : List Char → Option (Directive × Nat)
  | '%' :: c :: _ => (ofLetter? c).map (·, 1)
  | _ => none

def notANumber : List Char := ['N', 'a', 'N']

def wholeText (n : Int) : Except FormatError (List Char) := (Value.int n).plain?

/-- A number cut toward zero; infinity and NaN by their words. -/
def truncatedText (x : Binary64) : Except FormatError (List Char) :=
  match x.trunc? with
  | some n => wholeText n
  | none => .ok x.text.toList

/-- A whole number as the floating-point number next to it. -/
def wholeFloatText (n : Int) : Except FormatError (List Char) :=
  ((Binary64.ofInt n).inRange .integerTooLarge).map (·.text.toList)

/-- The number that an argument stands for, each kind of number written its own way. -/
def numberText (whole : Int → Except FormatError (List Char))
    (float : Binary64 → Except FormatError (List Char)) (v : Value) :
    Except FormatError (List Char) := do
  match ← v.number? with
  | none => return notANumber
  | some (.whole n) => whole n
  | some (.float x) => float x

def integerText (v : Value) : Except FormatError (List Char) :=
  numberText wholeText truncatedText v

def floatText (v : Value) : Except FormatError (List Char) :=
  numberText wholeFloatText (fun x => .ok x.text.toList) v

/-- Circular values and numbers that cannot be written are replaced by a mark. -/
def jsonText (v : Value) : Except FormatError (List Char) :=
  match v.json ⟨true, .plain⟩ with
  | .ok cs => .ok cs
  | .error (.key kind) => .error (.jsonKey kind)
  | .error _ => .ok "[Circular]".toList

/-- The text of an argument under a directive that takes one. -/
def convert (d : Directive) (v : Value) : Except FormatError (List Char) :=
  match d with
  | percent => .ok ['%']
  | plain => v.plain?
  | integer => integerText v
  | float => floatText v
  | json => jsonText v
  | quoted => v.quoted?
  | nothing => .ok []

/-- Fills the directives in order and gives the arguments that are left. -/
def fillAll : List (Piece Directive) → List Value → Except FormatError (List Char × List Value)
  | [], args => .ok ([], args)
  | .plain c :: ps, args => do
    let (filled, left) ← fillAll ps args
    return (c :: filled, left)
  | .slot percent _ :: ps, args => do
    let (filled, left) ← fillAll ps args
    return ('%' :: filled, left)
  | .slot _ source :: ps, [] => do
    let (filled, left) ← fillAll ps []
    return (source ++ filled, left)
  | .slot d _ :: ps, arg :: args => do
    let converted ← d.convert arg
    let (filled, left) ← fillAll ps args
    return (converted ++ filled, left)

/-- An argument after the text: a text as it is, other values quoted. -/
def trailing (v : Value) : Except FormatError (List Char) :=
  match v with
  | .text s => .ok s.toList
  | v => v.quoted?

/-- Each argument after a blank. -/
def trailingAll : List Value → Except FormatError (List Char)
  | [] => .ok []
  | arg :: args => do
    let shown ← trailing arg
    let rest ← trailingAll args
    return ' ' :: shown ++ rest

def format (text : List Char) (args : List Value) : Except FormatError (List Char) := do
  let (filled, left) ← fillAll (pieces slotAt text) args
  let rest ← trailingAll left
  return filled ++ rest

end Directive

end Template

end RequestLocale
