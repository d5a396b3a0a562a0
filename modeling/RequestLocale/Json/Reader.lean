import RequestLocale.Json.Letter
import RequestLocale.Template.Error

/-! Reading JSON. Names and texts may hold every character but control characters, the words for
infinity and NaN count as numbers, and of two entries with one name the later value stays. A text
that is no JSON is refused with the reason and the place where reading stopped. -/
namespace RequestLocale.Json

inductive Cause where
  | value
  | name
  | colon
  | comma
  | controlCharacter
  | unicodeEscape
  | escape
  | unterminated
  | extraData
  | byteOrderMark
  deriving DecidableEq, Repr

def Cause.message : Cause → String
  | .value => "Expecting value"
  | .name => "Expecting property name enclosed in double quotes"
  | .colon => "Expecting ':' delimiter"
  | .comma => "Expecting ',' delimiter"
  | .controlCharacter => "Invalid control character at"
  | .unicodeEscape => "Invalid \\uXXXX escape"
  | .escape => "Invalid \\escape"
  | .unterminated => "Unterminated string starting at"
  | .extraData => "Extra data"
  | .byteOrderMark => "Unexpected UTF-8 BOM (decode using utf-8-sig)"

/-- Why reading stopped: a fault with the text from its place on, or a number that is too long. -/
inductive Stop where
  | fault (cause : Cause) (rest : List Char)
  | digits (count : Nat)

/-- A fault with its place, or a number that is too long. -/
inductive Error where
  | fault (cause : Cause) (line column position : Nat)
  | digits (count : Nat)
  deriving DecidableEq, Repr

def Error.message : Error → String
  | .fault cause line column position =>
    cause.message ++ ": line " ++ toString line ++ " column " ++ toString column ++ " (char " ++
      toString position ++ ")"
  | .digits count => digitRunMessage count

/-- The place is counted from the start of the text, its column from the last line end before. -/
def Stop.locate (text : List Char) : Stop → Error
  | .digits count => .digits count
  | .fault cause rest =>
    let position := text.length - rest.length
    let before := text.take position
    .fault cause (before.count '\n' + 1)
      ((before.reverse.takeWhile (· != '\n')).length + 1) position

def isSpace (c : Char) : Bool := c == ' ' || c == '\t' || c == '\n' || c == '\r'

def skipSpace (cs : List Char) : List Char := cs.dropWhile isSpace

/-- The number that four hexadecimal digits at the head spell. -/
def unit? : List Char → Option Nat
  | a :: b :: c :: d :: _ => do
    let a ← Text.hexValue? a
    let b ← Text.hexValue? b
    let c ← Text.hexValue? c
    let d ← Text.hexValue? d
    return ((a * 16 + b) * 16 + c) * 16 + d
  | _ => none

def isHighHalf (n : Nat) : Bool := 0xD800 ≤ n && n < 0xDC00
def isLowHalf (n : Nat) : Bool := 0xDC00 ≤ n && n < 0xE000

/-- Reads an escape from its `u` on: the letter, and the number of characters that it takes.
A high half that is followed by another escape forms a pair with it if that is a low half. -/
def unicodeEscape (cs : List Char) : Except Stop (Letter × Nat) :=
  let body := cs.drop 1
  if body.length ≤ 4 then .error (.fault .unicodeEscape cs)
  else match unit? body with
    | none => .error (.fault .unicodeEscape cs)
    | some high =>
      match body.drop 4 with
      | '\\' :: 'u' :: next =>
        if isHighHalf high && 4 < next.length then
          match unit? next with
          | none => .error (.fault .unicodeEscape ('u' :: next))
          | some low =>
            if isLowHalf low then
              .ok (.whole (Char.ofNat (0x10000 + (high - 0xD800) * 1024 + (low - 0xDC00))), 11)
            else .ok (.ofUnit high, 5)
        else .ok (.ofUnit high, 5)
      | _ => .ok (.ofUnit high, 5)

/-- Reads an escape from the character after the backslash on. -/
def escape (start cs : List Char) : Except Stop (Letter × Nat) :=
  match cs with
  | [] => .error (.fault .unterminated start)
  | '"' :: _ => .ok (.whole '"', 1)
  | '\\' :: _ => .ok (.whole '\\', 1)
  | '/' :: _ => .ok (.whole '/', 1)
  | 'b' :: _ => .ok (.whole '\x08', 1)
  | 'f' :: _ => .ok (.whole '\x0c', 1)
  | 'n' :: _ => .ok (.whole '\n', 1)
  | 'r' :: _ => .ok (.whole '\r', 1)
  | 't' :: _ => .ok (.whole '\t', 1)
  | 'u' :: _ => unicodeEscape cs
  | _ => .error (.fault .escape ('\\' :: cs))

/-- Reads a text after its opening quote; `start` is the text from that quote on. -/
def textBody (start : List Char) : List Char → Except Stop (List Letter × List Char)
  | [] => .error (.fault .unterminated start)
  | c :: cs =>
    if c = '"' then .ok ([], cs)
    else if c = '\\' then
      match escape start cs with
      | .error stop => .error stop
      | .ok (letter, width) => do
        let (body, rest) ← textBody start (cs.drop width)
        return (letter :: body, rest)
    else if c.toNat < 0x20 then .error (.fault .controlCharacter (c :: cs))
    else do
      let (body, rest) ← textBody start cs
      return (.whole c :: body, rest)
  termination_by cs => cs.length
  decreasing_by all_goals simp only [List.length_cons, List.length_drop]; omega

def isPlainDigit (c : Char) : Bool := '0' ≤ c && c ≤ '9'

def plainDigits (cs : List Char) : List Nat × List Char :=
  (cs.takeWhile isPlainDigit |>.map (·.toNat - 48), cs.dropWhile isPlainDigit)

/-- Digits after a point; without one the point is not part of the number. -/
def fractionPart : List Char → List Nat × List Char
  | '.' :: cs =>
    match plainDigits cs with
    | ([], _) => ([], '.' :: cs)
    | (digits, rest) => (digits, rest)
  | cs => ([], cs)

/-- An exponent with at least one digit; without one the letter is not part of the number. -/
def exponentPart : List Char → Option Int × List Char
  | c :: cs =>
    if c = 'e' ∨ c = 'E' then
      let (negative, body) := Numeral.sign cs
      match plainDigits body with
      | ([], _) => (none, c :: cs)
      | (digits, rest) => (some (Numeral.Whole.toInt ⟨negative, digits⟩), rest)
    else (none, c :: cs)
  | [] => (none, [])

/-- A number from its digits on. A leading zero stands alone. -/
def number (negative : Bool) (start cs : List Char) : Except Stop (Value × List Char) :=
  let (digits, rest) := match cs with
    | '0' :: rest => ([0], rest)
    | cs => plainDigits cs
  if digits.isEmpty then .error (.fault .value start)
  else
    let (places, rest) := fractionPart rest
    let (exponent, rest) := exponentPart rest
    if places.isEmpty && exponent.isNone then
      if Numeral.digitLimit < digits.length then .error (.digits digits.length)
      else .ok (.int (Numeral.Whole.toInt ⟨negative, digits⟩), rest)
    else
      .ok (.float (.ofDecimal negative (Text.ofDigitValues (digits ++ places))
        (exponent.getD 0 - places.length)), rest)

/-- The words that stand for values, and the values. -/
def words : List (List Char × Value) :=
  [("null".toList, .none), ("true".toList, .bool true), ("false".toList, .bool false),
   ("NaN".toList, .float .nan), ("Infinity".toList, .float (.infinite false)),
   ("-Infinity".toList, .float (.infinite true))]

/-- A value that holds no other values. -/
def atom (cs : List Char) : Except Stop (Value × List Char) :=
  match words.find? fun word => word.1.isPrefixOf cs with
  | some (word, v) => .ok (v, cs.drop word.length)
  | none =>
    match cs with
    | '"' :: body => do
      let (text, rest) ← textBody cs body
      return (Letter.value text, rest)
    | '-' :: body => number true cs body
    | _ => number false cs cs

mutual
/-- Reads one value. Each nested value takes one step of `fuel`, so as many steps as there are
characters are enough. -/
def value (fuel : Nat) (cs : List Char) : Except Stop (Value × List Char) :=
  match fuel with
  | 0 => .error (.fault .value cs)
  | fuel + 1 =>
    match cs with
    | '[' :: body =>
      match skipSpace body with
      | ']' :: rest => .ok (.list [], rest)
      | body => do
        let (items, rest) ← items fuel body
        return (.list items, rest)
    | '{' :: body =>
      match skipSpace body with
      | '}' :: rest => .ok (.record [], rest)
      | body => do
        let (entries, rest) ← entries fuel body
        return (.record (Entries.ofList entries), rest)
    | cs => atom cs

/-- Reads the items up to the closing bracket. -/
def items (fuel : Nat) (cs : List Char) : Except Stop (List Value × List Char) :=
  match fuel with
  | 0 => .error (.fault .value cs)
  | fuel + 1 => do
    let (item, rest) ← value fuel cs
    match skipSpace rest with
    | ']' :: rest => return ([item], rest)
    | ',' :: rest => do
      let (more, rest) ← items fuel (skipSpace rest)
      return (item :: more, rest)
    | rest => throw (.fault .comma rest)

/-- Reads the entries up to the closing brace. -/
def entries (fuel : Nat) (cs : List Char) : Except Stop (List (Value × Value) × List Char) :=
  match fuel with
  | 0 => .error (.fault .value cs)
  | fuel + 1 =>
    match cs with
    | '"' :: body => do
      let (name, rest) ← textBody cs body
      match skipSpace rest with
      | ':' :: rest => do
        let (v, rest) ← value fuel (skipSpace rest)
        let entry := (Letter.value name, v)
        match skipSpace rest with
        | '}' :: rest => return ([entry], rest)
        | ',' :: rest => do
          let (more, rest) ← entries fuel (skipSpace rest)
          return (entry :: more, rest)
        | rest => throw (.fault .comma rest)
      | rest => throw (.fault .colon rest)
    | cs => throw (.fault .name cs)
end

def document (cs : List Char) : Except Stop Value := do
  if cs.head? = some '\uFEFF' then throw (.fault .byteOrderMark cs)
  let (v, rest) ← value (2 * cs.length + 1) (skipSpace cs)
  match skipSpace rest with
  | [] => return v
  | rest => throw (.fault .extraData rest)

/-- Reads a whole text as one value. -/
def read (cs : List Char) : Except Error Value := (document cs).mapError (Stop.locate cs)

end RequestLocale.Json
