import RequestLocale.Value.Text

/-! Values as compact JSON. Two things differ between users of the format: how far the text stays
within plain characters, and what becomes of values that JSON does not know. -/
namespace RequestLocale

namespace Text

/-- Four hexadecimal digits after `\u`. -/
def jsonUnit (n : Nat) : List Char := '\\' :: 'u' :: hexPadded 4 n

/-- Characters above the first plane are written as two units. -/
def jsonUnits (c : Char) : List Char :=
  if c.toNat < 0x10000 then jsonUnit c.toNat
  else
    let n := c.toNat - 0x10000
    jsonUnit (0xD800 + n / 1024) ++ jsonUnit (0xDC00 + n % 1024)

def jsonChar (plainOnly : Bool) (c : Char) : List Char :=
  if c = '"' ∨ c = '\\' then ['\\', c]
  else if c = '\n' then ['\\', 'n']
  else if c = '\r' then ['\\', 'r']
  else if c = '\t' then ['\\', 't']
  else if c = '\x08' then ['\\', 'b']
  else if c = '\x0c' then ['\\', 'f']
  else if c.toNat < 0x20 ∨ (plainOnly ∧ 0x7F ≤ c.toNat) then jsonUnits c
  else [c]

def jsonQuoted (plainOnly : Bool) (cs : List Char) : List Char :=
  '"' :: cs.flatMap (jsonChar plainOnly) ++ ['"']

end Text

/-- Why a value has no JSON text. -/
inductive JsonFault where
  | circular
  | digitLimit
  | outOfRange
  | key (kind : String)
  | foreign (kind : String)
  deriving DecidableEq, Repr

def JsonFault.message : JsonFault → String
  | .circular => "Circular reference detected"
  | .digitLimit => Numeral.digitLimitMessage
  | .outOfRange => "Out of range float values are not JSON compliant"
  | .key kind => "keys must be str, int, float, bool or None, not " ++ kind
  | .foreign kind => "Object of type " ++ kind ++ " is not JSON serializable"

/-- What becomes of values that JSON does not know. -/
inductive JsonUnknown where
  | refused
  /-- Infinities and NaN are words, all else is its plain text. -/
  | plain
  /-- Infinities and NaN are words, all else is its quoted text. -/
  | quoted
  deriving DecidableEq, Repr

/-- How JSON is written: whether all characters beyond the plain ones are escaped, and what becomes
of values that JSON does not know. -/
structure JsonStyle where
  plainOnly : Bool
  unknown : JsonUnknown

def jsonWords : Binary64.Words := ⟨"NaN", "Infinity"⟩

namespace Value

def jsonInt (n : Int) : Except JsonFault (List Char) :=
  if Numeral.exceedsDigitLimit n then .error .digitLimit else .ok (toString n).toList

def jsonFloat (style : JsonStyle) (x : Binary64) : Except JsonFault (List Char) :=
  if style.unknown != .refused || x.isFinite then .ok (x.textWith jsonWords).toList
  else .error .outOfRange

/-- A value outside JSON. -/
def jsonForeign (style : JsonStyle) (v : Value) : Except JsonFault (List Char) :=
  match style.unknown with
  | .refused => .error (.foreign v.kindName)
  | .plain =>
    if v.exceedsDigits then .error .digitLimit else .ok (Text.jsonQuoted style.plainOnly v.plain)
  | .quoted =>
    if v.exceedsDigits then .error .digitLimit else .ok (Text.jsonQuoted style.plainOnly v.quoted)

def jsonKey (style : JsonStyle) : Value → Except JsonFault (List Char)
  | .text s => .ok (Text.jsonQuoted style.plainOnly s.toList)
  | .none => .ok (Text.jsonQuoted style.plainOnly "null".toList)
  | .bool b => .ok (Text.jsonQuoted style.plainOnly (if b then "true" else "false").toList)
  | .int n => (jsonInt n).map (Text.jsonQuoted style.plainOnly)
  | .float x => (jsonFloat style x).map (Text.jsonQuoted style.plainOnly)
  | v => .error (.key v.fullKindName)

def commaJson : List (List Char) → List Char
  | [] => []
  | [part] => part
  | part :: parts => part ++ ',' :: commaJson parts

mutual
def json (style : JsonStyle) : Value → Except JsonFault (List Char)
  | .none => .ok "null".toList
  | .bool b => .ok (if b then "true" else "false").toList
  | .int n => jsonInt n
  | .float x => jsonFloat style x
  | .text s => .ok (Text.jsonQuoted style.plainOnly s.toList)
  | .sequence _ items => (jsonItems style items).map fun parts => '[' :: commaJson parts ++ [']']
  | .record entries =>
    (jsonEntries style entries).map fun parts => '{' :: commaJson parts ++ ['}']
  | .enclosing _ => .error .circular
  | .fraction q => jsonForeign style (.fraction q)
  | .decimal d => jsonForeign style (.decimal d)
  | .bytes mutable bs => jsonForeign style (.bytes mutable bs)
  | .day d => jsonForeign style (.day d)
  | .moment m => jsonForeign style (.moment m)
  | .set items => jsonForeign style (.set items)
  termination_by structural v => v

def jsonItems (style : JsonStyle) : List Value → Except JsonFault (List (List Char))
  | [] => .ok []
  | item :: items => do
    let part ← json style item
    let parts ← jsonItems style items
    return part :: parts
  termination_by structural items => items

def jsonEntries (style : JsonStyle) : List (Value × Value) → Except JsonFault (List (List Char))
  | [] => .ok []
  | (key, value) :: entries => do
    let name ← jsonKey style key
    let part ← json style value
    let parts ← jsonEntries style entries
    return (name ++ ':' :: part) :: parts
  termination_by structural entries => entries
end

end Value

end RequestLocale
