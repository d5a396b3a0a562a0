/-! A place in a YAML text: the text from there on, with the number of characters before it, its
line and its column. The end of the text reads as the character NUL, which no text contains. -/
namespace RequestLocale.Yaml

def endMark : Char := '\x00'

def isBreak (c : Char) : Bool :=
  c == '\n' || c == '\r' || c == '\x85' || c == '\u2028' || c == '\u2029'

/-- Line ends and the end of the text. -/
def endsLine (c : Char) : Bool := c == endMark || isBreak c

/-- What ends a directive or a mark: a line or a blank. -/
def endsWord (c : Char) : Bool := c == ' ' || endsLine c

/-- What may follow an indicator: the end of a line, a blank or a tab. -/
def isGap (c : Char) : Bool := c == '\t' || endsWord c

def isWordChar (c : Char) : Bool :=
  ('0' ≤ c && c ≤ '9') || ('A' ≤ c && c ≤ 'Z') || ('a' ≤ c && c ≤ 'z') || c == '-' || c == '_'

structure Cursor where
  rest : List Char
  index : Nat
  line : Nat
  column : Nat

namespace Cursor

def start (text : List Char) : Cursor := ⟨text, 0, 0, 0⟩

def peek (cur : Cursor) : Char := cur.rest.headD endMark

def peekAt (cur : Cursor) (n : Nat) : Char := cur.rest.getD n endMark

/-- One character on. A line end begins a line, and a byte order mark takes no column. -/
def next (cur : Cursor) : Cursor :=
  match cur.rest with
  | [] => cur
  | c :: rest =>
    if isBreak c then ⟨rest, cur.index + 1, cur.line + 1, 0⟩
    else ⟨rest, cur.index + 1, cur.line, if c = '\uFEFF' then cur.column else cur.column + 1⟩

def skip : Nat → Cursor → Cursor
  | 0, cur => cur
  | n + 1, cur => skip n cur.next

/-- The characters at the cursor that pass a test, and the cursor after them. -/
def span (test : Char → Bool) (cur : Cursor) : List Char × Cursor :=
  let cs := cur.rest.takeWhile test
  (cs, cur.skip cs.length)

def skipWhile (test : Char → Bool) (cur : Cursor) : Cursor := (cur.span test).2

def skipBlanks (cur : Cursor) : Cursor := cur.skipWhile (· == ' ')

/-- What a line end stands for, and the cursor after it; nothing where there is none. The two
separators of the text stand for themselves, all others for the simple line end. -/
def lineBreak (cur : Cursor) : List Char × Cursor :=
  let c := cur.peek
  if c = '\r' ∧ cur.peekAt 1 = '\n' then (['\n'], cur.skip 2)
  else if c = '\u2028' ∨ c = '\u2029' then ([c], cur.next)
  else if isBreak c then (['\n'], cur.next)
  else ([], cur)

/-- Whether three hyphens or three points stand here and end with a gap. -/
def atDocumentMark (cur : Cursor) : Bool :=
  (cur.rest.take 3 == ['-', '-', '-'] || cur.rest.take 3 == ['.', '.', '.']) && isGap (cur.peekAt 3)

/-- Passes over a comment, without the line end after it. -/
def skipComment (cur : Cursor) : Cursor :=
  if cur.peek = '#' then cur.skipWhile (!endsLine ·) else cur

end Cursor

end RequestLocale.Yaml
