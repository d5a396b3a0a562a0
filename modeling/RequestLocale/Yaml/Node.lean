import RequestLocale.Text.Split
import RequestLocale.Text.Hex

/-! The nodes of a YAML document. Every node has a tag, which says what its content stands for; a
plain scalar without a mark gets its tag from its spelling. -/
namespace RequestLocale.Yaml

inductive Tag where
  | null
  | truth
  | whole
  | float
  | binary
  | moment
  | orderedPairs
  | pairs
  | set
  | text
  | sequence
  | mapping
  | merge
  | value
  | other (name : String)
  deriving DecidableEq, Repr

def Tag.ofName : String → Tag
  | "tag:yaml.org,2002:null" => .null
  | "tag:yaml.org,2002:bool" => .truth
  | "tag:yaml.org,2002:int" => .whole
  | "tag:yaml.org,2002:float" => .float
  | "tag:yaml.org,2002:binary" => .binary
  | "tag:yaml.org,2002:timestamp" => .moment
  | "tag:yaml.org,2002:omap" => .orderedPairs
  | "tag:yaml.org,2002:pairs" => .pairs
  | "tag:yaml.org,2002:set" => .set
  | "tag:yaml.org,2002:str" => .text
  | "tag:yaml.org,2002:seq" => .sequence
  | "tag:yaml.org,2002:map" => .mapping
  | "tag:yaml.org,2002:merge" => .merge
  | "tag:yaml.org,2002:value" => .value
  | name => .other name

inductive Node where
  | scalar (tag : Tag) (text : List Char)
  | sequence (tag : Tag) (items : List Node)
  | mapping (tag : Tag) (entries : List (Node × Node))
  /-- An alias to a sequence or mapping that holds the alias. -/
  | enclosing (keyed : Bool)
  deriving Repr, Inhabited

/-- The tag of a scalar; others are told apart by their form. -/
def Node.scalarTag? : Node → Option Tag
  | .scalar tag _ => some tag
  | _ => none

/-- A date with or without a time of day, as spelled. -/
structure Stamp where
  year : Nat
  month : Nat
  day : Nat
  /-- Hour, minute, second, and the digits of the fraction. -/
  time : Option (Nat × Nat × Nat × List Char)
  /-- Minutes from universal time. -/
  offset : Option Int

namespace Spelling

def isDigit (c : Char) : Bool := '0' ≤ c && c ≤ '9'

def number (cs : List Char) : Nat := cs.foldl (fun n c => 10 * n + (c.toNat - 48)) 0

def dropSign : List Char → List Char
  | '-' :: cs | '+' :: cs => cs
  | cs => cs

def isDigitOrGap (c : Char) : Bool := isDigit c || c == '_'

/-- One digit, or two of which the first is below six. -/
def isSixty : List Char → Bool
  | [a] => isDigit a
  | [a, b] => '0' ≤ a && a ≤ '5' && isDigit b
  | _ => false

/-- Parts to the base sixty, each after a colon. -/
def areSixties (cs : List Char) : Bool :=
  cs.head? == some ':' && ((Text.split ':' cs).drop 1).all isSixty

def isWhole (cs : List Char) : Bool :=
  match dropSign cs with
  | '0' :: 'b' :: ds => !ds.isEmpty && ds.all fun c => c == '0' || c == '1' || c == '_'
  | '0' :: 'x' :: ds => !ds.isEmpty && ds.all fun c => (Text.hexValue? c).isSome || c == '_'
  | '0' :: ds => ds.all fun c => ('0' ≤ c && c ≤ '7') || c == '_'
  | d :: ds =>
    let rest := ds.dropWhile isDigitOrGap
    isDigit d && (rest.isEmpty || areSixties rest)
  | [] => false

/-- An exponent, which must have a sign, or nothing. -/
def isExponent : List Char → Bool
  | [] => true
  | e :: s :: ds =>
    (e == 'e' || e == 'E') && (s == '-' || s == '+') && !ds.isEmpty && ds.all isDigit
  | _ => false

def isInfinity (cs : List Char) : Bool :=
  [".inf", ".Inf", ".INF"].any fun word => cs == word.toList

def isFloat (cs : List Char) : Bool :=
  let afterPoint (rest : List Char) := isExponent (rest.dropWhile isDigitOrGap)
  let unsigned := match cs with
    | '.' :: d :: rest => isDigit d && afterPoint rest
    | _ => false
  let signed := match dropSign cs with
    | d :: rest =>
      isDigit d &&
        match rest.dropWhile isDigitOrGap with
        | '.' :: rest => afterPoint rest
        | rest =>
          match Text.cut? '.' rest with
          | some (sixties, fraction) => areSixties sixties && fraction.all isDigitOrGap
          | none => false
    | [] => false
  unsigned || signed || isInfinity (dropSign cs) ||
    [".nan", ".NaN", ".NAN"].any fun word => cs == word.toList

/-- One or two digits at the head. -/
def short (cs : List Char) : Option (Nat × List Char) :=
  match cs with
  | a :: b :: rest =>
    if isDigit a then
      if isDigit b then some (number [a, b], rest) else some (number [a], b :: rest)
    else none
  | [a] => if isDigit a then some (number [a], []) else none
  | [] => none

/-- A colon and two digits at the head. -/
def colonPair : List Char → Option (Nat × List Char)
  | ':' :: a :: b :: rest => if isDigit a && isDigit b then some (number [a, b], rest) else none
  | _ => none

def isInset (c : Char) : Bool := c == ' ' || c == '\t'

/-- The zone after a time of day, which fills the rest of the text. -/
def zone (cs : List Char) : Option (Option Int) :=
  match cs with
  | [] => some none
  | cs =>
    match cs.dropWhile isInset with
    | ['Z'] => some (some 0)
    | sign :: rest =>
      if sign = '-' ∨ sign = '+' then do
        let (hours, rest) ← short rest
        let minutes ← match rest with
          | [] => some 0
          | rest => do
            let (minutes, rest) ← colonPair rest
            if rest.isEmpty then some minutes else none
        let total : Int := hours * 60 + minutes
        return some (if sign = '-' then -total else total)
      else none
    | [] => none

/-- The separator between a date and a time. -/
def timeMark : List Char → Option (List Char)
  | c :: cs =>
    if c = 'T' ∨ c = 't' then some cs
    else if isInset c then some (cs.dropWhile isInset)
    else none
  | [] => none

def stamp? (cs : List Char) : Option Stamp := do
  let year := cs.take 4
  if year.length ≠ 4 ∨ !year.all isDigit then none
  let rest ← match cs.drop 4 with
    | '-' :: rest => some rest
    | _ => none
  let (month, rest) ← short rest
  let rest ← match rest with
    | '-' :: rest => some rest
    | _ => none
  let (day, rest) ← short rest
  if rest.isEmpty then return ⟨number year, month, day, none, none⟩
  let rest ← timeMark rest
  let (hour, rest) ← short rest
  let (minute, rest) ← colonPair rest
  let (second, rest) ← colonPair rest
  let (fraction, rest) := match rest with
    | '.' :: rest => (rest.takeWhile isDigit, rest.dropWhile isDigit)
    | rest => ([], rest)
  let offset ← zone rest
  return ⟨number year, month, day, some (hour, minute, second, fraction), offset⟩

/-- Without a time of day, month and day must have two digits. -/
def isMoment (cs : List Char) : Bool :=
  (stamp? cs).any fun s => s.time.isSome || cs.length == 10

def truths : List String :=
  ["yes", "Yes", "YES", "no", "No", "NO", "true", "True", "TRUE", "false", "False", "FALSE",
   "on", "On", "ON", "off", "Off", "OFF"]

def nulls : List String := ["~", "null", "Null", "NULL", ""]

end Spelling

open Spelling

/-- The tag of a plain scalar. -/
def Tag.ofSpelling (cs : List Char) : Tag :=
  if truths.any (·.toList == cs) then .truth
  else if isFloat cs then .float
  else if isWhole cs then .whole
  else if cs = ['<', '<'] then .merge
  else if nulls.any (·.toList == cs) then .null
  else if isMoment cs then .moment
  else if cs = ['='] then .value
  else .text

end RequestLocale.Yaml
