import RequestLocale.Yaml.Mark
import RequestLocale.Yaml.Scalar

/-! Cutting a YAML text into tokens. Outside brackets the depth of a line opens and closes blocks.
A key need not be announced: whatever could be one is remembered with the number of its token, and
the token that announces it is put there as soon as a colon follows on the same line. -/
namespace RequestLocale.Yaml

/-- A token that is a key if a colon follows. At the depth of its block nothing else may stand, so
there the colon is required. -/
structure Candidate where
  token : Nat
  required : Bool
  index : Nat
  line : Nat
  column : Nat

structure Lexer where
  cursor : Cursor
  /-- The tokens so far, the last one first. -/
  reversed : List Token
  /-- The depth of the block around the cursor, below zero outside all blocks. -/
  indent : Int
  outer : List Int
  /-- One place for a candidate for each open bracket, the innermost first, and one outside. -/
  candidates : List (Option Candidate)
  keyAllowed : Bool

namespace Lexer

def start (text : List Char) : Lexer := ⟨Cursor.start text, [], -1, [], [none], true⟩

def inFlow (lx : Lexer) : Bool := 1 < lx.candidates.length

def emit (lx : Lexer) (t : Token) : Lexer := { lx with reversed := t :: lx.reversed }

/-- Puts a token before the token of a given number. -/
def insert (lx : Lexer) (number : Nat) (t : Token) : Lexer :=
  let later := lx.reversed.length - number
  { lx with reversed := lx.reversed.take later ++ t :: lx.reversed.drop later }

/-- A candidate is out of reach on a later line and after 1024 characters. -/
def outOfReach (cur : Cursor) (c : Candidate) : Bool :=
  c.line != cur.line || 1024 < cur.index - c.index

def dropStale (lx : Lexer) : Except Error Lexer :=
  let stale (c : Candidate) : Bool := outOfReach lx.cursor c
  if lx.candidates.any fun c => c.any fun c => stale c && c.required then .error .malformed
  else .ok { lx with candidates := lx.candidates.map (·.filter (!stale ·)) }

/-- Gives up the candidate in the innermost brackets. -/
def dropCandidate (lx : Lexer) : Except Error Lexer :=
  match lx.candidates with
  | some c :: outer =>
    if c.required then .error .malformed else .ok { lx with candidates := none :: outer }
  | _ => .ok lx

/-- Remembers that the next token may be a key. -/
def saveCandidate (lx : Lexer) : Except Error Lexer := do
  if !lx.keyAllowed then return lx
  let lx ← lx.dropCandidate
  let cur := lx.cursor
  let required := !lx.inFlow && lx.indent == cur.column
  let candidate : Candidate := ⟨lx.reversed.length, required, cur.index, cur.line, cur.column⟩
  return { lx with candidates := some candidate :: lx.candidates.drop 1 }

/-- Closes every block that is deeper than a column. -/
def unwind (column : Int) : List Int → Lexer → Lexer
  | [], lx => lx
  | indent :: outer, lx =>
    if column < lx.indent then
      unwind column outer { lx.emit .blockEnd with indent := indent, outer := outer }
    else lx

def unwindTo (lx : Lexer) (column : Int) : Lexer :=
  if lx.inFlow then lx else unwind column lx.outer lx

/-- Opens a block at a column that is deeper than the block around it. -/
def openBlock (lx : Lexer) (column : Nat) (number : Nat) (t : Token) : Lexer :=
  if lx.indent < column then
    { lx.insert number t with indent := column, outer := lx.indent :: lx.outer }
  else lx

def advance (lx : Lexer) (n : Nat) : Lexer := { lx with cursor := lx.cursor.skip n }

def allowKey (lx : Lexer) (allowed : Bool) : Lexer := { lx with keyAllowed := allowed }

/-- Passes over blanks, comments and line ends before a token. -/
def skipToToken : Nat → Lexer → Lexer
  | 0, lx => lx
  | fuel + 1, lx =>
    let cur := lx.cursor.skipBlanks.skipComment
    if isBreak cur.peek then
      skipToToken fuel
        { lx with cursor := cur.lineBreak.2, keyAllowed := lx.keyAllowed || !lx.inFlow }
    else { lx with cursor := cur }

def documentMark (lx : Lexer) (t : Token) : Except Error Lexer := do
  let lx ← (lx.unwindTo (-1)).dropCandidate
  return ((lx.allowKey false).advance 3).emit t

def flowStart (lx : Lexer) (t : Token) : Except Error Lexer := do
  let lx ← lx.saveCandidate
  return (({ lx with candidates := none :: lx.candidates }.allowKey true).advance 1).emit t

def flowEnd (lx : Lexer) (t : Token) : Except Error Lexer := do
  if !lx.inFlow then throw .malformed
  let lx ← lx.dropCandidate
  return (({ lx with candidates := lx.candidates.drop 1 }.allowKey false).advance 1).emit t

def flowEntry (lx : Lexer) : Except Error Lexer := do
  let lx ← (lx.allowKey true).dropCandidate
  return (lx.advance 1).emit .flowEntry

/-- Opens a block for an indicator at the cursor, where one may stand. -/
def openHere (lx : Lexer) (t : Token) : Except Error Lexer :=
  if lx.inFlow then .ok lx
  else if !lx.keyAllowed then .error .malformed
  else .ok (lx.openBlock lx.cursor.column lx.reversed.length t)

def blockEntry (lx : Lexer) : Except Error Lexer := do
  let lx ← lx.openHere .blockSequenceStart
  let lx ← (lx.allowKey true).dropCandidate
  return (lx.advance 1).emit .blockEntry

def key (lx : Lexer) : Except Error Lexer := do
  let lx ← lx.openHere .blockMappingStart
  let lx ← (lx.allowKey !lx.inFlow).dropCandidate
  return (lx.advance 1).emit .key

def value (lx : Lexer) : Except Error Lexer := do
  match lx.candidates with
  | some c :: outer =>
    let lx := { lx with candidates := none :: outer }.insert c.token .key
    let lx := if lx.inFlow then lx else lx.openBlock c.column c.token .blockMappingStart
    return ((lx.allowKey false).advance 1).emit .value
  | _ =>
    let lx ← lx.openHere .blockMappingStart
    let lx ← (lx.allowKey !lx.inFlow).dropCandidate
    return (lx.advance 1).emit .value

/-- A token that may be a key, read from the cursor. -/
def node {α : Type} (lx : Lexer) (read : Cursor → Except Error (α × Cursor)) (token : α → Token) :
    Except Error Lexer := do
  let lx ← lx.saveCandidate
  let (a, cur) ← read lx.cursor
  return { lx.emit (token a) with cursor := cur, keyAllowed := false }

def blockScalar (lx : Lexer) (folded : Bool) : Except Error Lexer := do
  let lx ← (lx.allowKey true).dropCandidate
  let (text, cur) ← Block.scalar folded lx.indent lx.cursor
  return { lx.emit (.scalar false text) with cursor := cur }

def plainScalar (lx : Lexer) : Except Error Lexer := do
  let lx ← lx.saveCandidate
  let reading := Plain.scalar lx.inFlow lx.indent lx.cursor
  return { lx.emit (.scalar true reading.text) with
    cursor := reading.cursor, keyAllowed := reading.lineEnded }

/-- Whether a plain text may begin at the cursor. -/
def startsPlain (lx : Lexer) : Bool :=
  let c := lx.cursor.peek
  let indicators := "-?:,[]\x7b\x7d#&*!|>\x27\"%@\x60".toList
  (!isGap c && !indicators.contains c) ||
    (!isGap (lx.cursor.peekAt 1) && (c == '-' || (!lx.inFlow && (c == '?' || c == ':'))))

def streamEnd (lx : Lexer) : Except Error Lexer := do
  let lx ← (lx.unwindTo (-1)).dropCandidate
  return lx.emit .streamEnd

/-- Reads the token at the cursor, which stands before the end of the text. -/
def token (lx : Lexer) : Except Error Lexer :=
  let cur := lx.cursor
  let c := cur.peek
  let gap := isGap (cur.peekAt 1)
  if c = '%' ∧ cur.column = 0 then do
    let lx ← (lx.unwindTo (-1)).dropCandidate
    let (directive, cur) ← Directive.read lx.cursor
    return { lx.emit (.directive directive) with cursor := cur, keyAllowed := false }
  else if cur.column = 0 ∧ cur.atDocumentMark then
    lx.documentMark (if c = '-' then .documentStart else .documentEnd)
  else match c with
    | '[' => lx.flowStart .flowSequenceStart
    | '{' => lx.flowStart .flowMappingStart
    | ']' => lx.flowEnd .flowSequenceEnd
    | '}' => lx.flowEnd .flowMappingEnd
    | ',' => lx.flowEntry
    | '*' => lx.node anchorName .alias
    | '&' => lx.node anchorName .anchor
    | '!' => lx.node Mark.read .mark
    | '\x27' | '"' => lx.node Quoted.scalar (.scalar false)
    | c =>
      if c = '-' ∧ gap then lx.blockEntry
      else if c = '?' ∧ (lx.inFlow ∨ gap) then lx.key
      else if c = ':' ∧ (lx.inFlow ∨ gap) then lx.value
      else if (c = '|' ∨ c = '>') ∧ !lx.inFlow then lx.blockScalar (c == '>')
      else if lx.startsPlain then lx.plainScalar
      else .error .malformed

/-- Reads tokens up to the end of the text; every token takes at least one character. -/
def run : Nat → Lexer → Except Error Lexer
  | 0, _ => .error .malformed
  | fuel + 1, lx => do
    let lx := skipToToken (lx.cursor.rest.length + 1) lx
    let lx ← lx.dropStale
    let lx := lx.unwindTo lx.cursor.column
    if lx.cursor.rest.isEmpty then lx.streamEnd else run fuel (← lx.token)

end Lexer

/-- The characters that may stand in a text. -/
def isAllowed (c : Char) : Bool :=
  let n := c.toNat
  n == 0x9 || n == 0xA || n == 0xD || (0x20 ≤ n && n ≤ 0x7E) || n == 0x85 ||
    (0xA0 ≤ n && n ≤ 0xFFFD) || 0x10000 ≤ n

/-- The tokens of a text. A byte order mark before the first one is passed over. -/
def tokens (text : List Char) : Except Error (List Token) := do
  if !text.all isAllowed then throw .malformed
  let lx := Lexer.start text
  let lx := if text.head? = some '\uFEFF' then lx.advance 1 else lx
  let lx ← Lexer.run (text.length + 2) lx
  return lx.reversed.reverse

end RequestLocale.Yaml
