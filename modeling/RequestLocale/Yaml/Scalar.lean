import RequestLocale.Text.Hex
import RequestLocale.Yaml.Cursor
import RequestLocale.Yaml.Error

/-! The texts of scalars: in quotes, plain, and in blocks. Inside the first two a single line end
is a blank and each further one a line end. -/
namespace RequestLocale.Yaml

/-- How a line end and the line ends after it are joined into one line. -/
def fold (lineEnd breaks : List Char) : List Char :=
  (if lineEnd ≠ ['\n'] then lineEnd else if breaks.isEmpty then [' '] else []) ++ breaks

namespace Quoted

/-- The escapes of one letter. -/
def simpleEscape? : Char → Option Char
  | '0' => some '\x00'
  | 'a' => some '\x07'
  | 'b' => some '\x08'
  | 't' | '\t' => some '\t'
  | 'n' => some '\n'
  | 'v' => some '\x0b'
  | 'f' => some '\x0c'
  | 'r' => some '\r'
  | 'e' => some '\x1b'
  | ' ' => some ' '
  | '"' => some '"'
  | '\\' => some '\\'
  | '/' => some '/'
  | 'N' => some '\x85'
  | '_' => some '\xa0'
  | 'L' => some '\u2028'
  | 'P' => some '\u2029'
  | _ => none

/-- The number of hexadecimal digits after an escape letter. -/
def escapeWidth? : Char → Option Nat
  | 'x' => some 2
  | 'u' => some 4
  | 'U' => some 8
  | _ => none

/-- The character of a number. -/
def character (n : Nat) : Except Error Char :=
  if 0x7FFFFFFF < n then .error .characterSize
  else if 0x10FFFF < n then .error .characterRange
  else if 0xD800 ≤ n ∧ n ≤ 0xDFFF then .error .half
  else .ok (Char.ofNat n)

/-- The line ends after a first one. No mark of a document may begin a line. -/
def breaks : Nat → Cursor → Except Error (List Char × Cursor)
  | 0, cur => .ok ([], cur)
  | fuel + 1, cur =>
    if cur.atDocumentMark then .error .malformed
    else
      let cur := cur.skipWhile fun c => c == ' ' || c == '\t'
      if isBreak cur.peek then do
        let (first, cur) := cur.lineBreak
        let (more, cur) ← breaks fuel cur
        return (first ++ more, cur)
      else .ok ([], cur)

/-- An escape, from the character after the backslash on. -/
def escape (cur : Cursor) : Except Error (List Char × Cursor) :=
  let c := cur.peek
  match simpleEscape? c, escapeWidth? c with
  | some e, _ => .ok ([e], cur.next)
  | none, some width =>
    let digits := (cur.next.rest.take width).filterMap Text.hexValue?
    if digits.length ≠ width then .error .malformed
    else (character (digits.foldl (fun n d => 16 * n + d) 0)).map fun e =>
      ([e], cur.next.skip width)
  | none, none =>
    if isBreak c then breaks cur.rest.length cur.lineBreak.2 else .error .malformed

/-- The text up to the closing quote, and the cursor after it. -/
def body (quote : Char) : Nat → Cursor → Except Error (List Char × Cursor)
  | 0, _ => .error .malformed
  | fuel + 1, cur => do
    let c := cur.peek
    let goOn (text : List Char) (cur : Cursor) : Except Error (List Char × Cursor) := do
      let (more, cur) ← body quote fuel cur
      return (text ++ more, cur)
    if cur.rest.isEmpty then throw .malformed
    else if c = quote then
      if quote = '\x27' ∧ cur.peekAt 1 = quote then goOn [quote] (cur.skip 2)
      else return ([], cur.next)
    else if c = ' ' ∨ c = '\t' then
      let (blanks, after) := cur.span fun c => c == ' ' || c == '\t'
      if isBreak after.peek then goOn [] after else goOn blanks after
    else if isBreak c then
      let (first, after) := cur.lineBreak
      let (more, after) ← breaks after.rest.length after
      goOn (fold first more) after
    else if c = '\\' ∧ quote = '"' then
      let (text, after) ← escape cur.next
      goOn text after
    else goOn [c] cur.next

/-- A text in quotes, from the opening quote on. -/
def scalar (cur : Cursor) : Except Error (List Char × Cursor) :=
  body cur.peek (cur.rest.length + 1) cur.next

end Quoted

namespace Plain

/-- A plain text with the cursor after it and the blanks that follow it. `lineEnded` tells whether
a line ended in or after it. -/
structure Reading where
  text : List Char
  cursor : Cursor
  lineEnded : Bool

/-- Whether a plain text ends before this place. -/
def stops (inFlow : Bool) (rest : List Char) : Bool :=
  let c := rest.headD endMark
  let after := rest.getD 1 endMark
  let isFlowMark (c : Char) : Bool := c == ',' || c == '[' || c == ']' || c == '{' || c == '}'
  isGap c || (c == ':' && (isGap after || (inFlow && isFlowMark after))) ||
    (inFlow && (c == '?' || isFlowMark c))

/-- The characters before the place where a plain text stops. -/
def chunk (inFlow : Bool) : List Char → List Char
  | [] => []
  | c :: cs => if stops inFlow (c :: cs) then [] else c :: chunk inFlow cs

/-- Passes over blanks and line ends, and gives the line ends; `none` at a mark of a document. -/
def breaks : Nat → Cursor → Option (List Char) × Cursor
  | 0, cur => (some [], cur)
  | fuel + 1, cur =>
    if cur.peek = ' ' then breaks fuel cur.next
    else if isBreak cur.peek then
      let (first, cur) := cur.lineBreak
      if cur.atDocumentMark then (none, cur)
      else
        let (more, cur) := breaks fuel cur
        (more.map (first ++ ·), cur)
    else (some [], cur)

/-- What stands between two chunks, and whether a line ended in it; nothing at the end of the
text. -/
def spaces (cur : Cursor) : Option (List Char) × Cursor × Bool :=
  let (blanks, after) := cur.span (· == ' ')
  if isBreak after.peek then
    let (first, after) := after.lineBreak
    if after.atDocumentMark then (none, after, true)
    else
      let (more, after) := breaks after.rest.length after
      (more.map (fold first), after, true)
  else (if blanks.isEmpty then none else some blanks, after, false)

/-- Reads chunks while they stand deeper than the block around them. -/
def chunks (inFlow : Bool) (indent : Int) (before : List Char) : Nat → Cursor → Bool → Reading
  | 0, cur, lineEnded => ⟨[], cur, lineEnded⟩
  | fuel + 1, cur, lineEnded =>
    let text := chunk inFlow cur.rest
    if cur.peek = '#' ∨ text = [] then ⟨[], cur, lineEnded⟩
    else
      let (between, after, ended) := spaces (cur.skip text.length)
      match between with
      | none => ⟨before ++ text, after, ended⟩
      | some between =>
        if after.peek = '#' ∨ (!inFlow ∧ (after.column : Int) < indent) then
          ⟨before ++ text, after, ended⟩
        else
          let more := chunks inFlow indent between fuel after ended
          ⟨before ++ text ++ more.text, more.cursor, more.lineEnded⟩

def scalar (inFlow : Bool) (indent : Int) (cur : Cursor) : Reading :=
  chunks inFlow (indent + 1) [] (cur.rest.length + 1) cur false

end Plain

namespace Block

/-- What becomes of the line ends after a block. -/
inductive Chomping where
  | clip
  | strip
  | keep
  deriving DecidableEq, Repr

/-- The digit that sets the depth of a block; zero is none. -/
def depth? (c : Char) : Except Error (Option Nat) :=
  if '1' ≤ c ∧ c ≤ '9' then .ok (some (c.toNat - 48))
  else if c = '0' then .error .malformed
  else .ok none

def chomping? (c : Char) : Option Chomping :=
  if c = '+' then some .keep else if c = '-' then some .strip else none

/-- The chomping and the depth, in either order. -/
def header (cur : Cursor) : Except Error (Chomping × Option Nat × Cursor) := do
  let (chomping, depth, cur) ← match chomping? cur.peek with
    | some chomping => do
      let depth ← depth? cur.next.peek
      pure (chomping, depth, if depth.isSome then cur.skip 2 else cur.next)
    | none => do
      match ← depth? cur.peek with
      | none => pure (.clip, none, cur)
      | some depth =>
        match chomping? cur.next.peek with
        | some chomping => pure (chomping, some depth, cur.skip 2)
        | none => pure (.clip, some depth, cur.next)
  if endsWord cur.peek then return (chomping, depth, cur) else throw .malformed

/-- The empty lines before a block whose depth is not set, and the deepest blank in them. -/
def leading : Nat → Cursor → List Char × Nat × Cursor
  | 0, cur => ([], 0, cur)
  | fuel + 1, cur =>
    if cur.peek = ' ' then
      let column := cur.next.column
      let (breaks, deepest, after) := leading fuel cur.next
      (breaks, max column deepest, after)
    else if isBreak cur.peek then
      let (first, cur) := cur.lineBreak
      let (breaks, deepest, after) := leading fuel cur
      (first ++ breaks, deepest, after)
    else ([], 0, cur)

/-- Passes over blanks up to a column. -/
def skipTo (column : Nat) : Nat → Cursor → Cursor
  | 0, cur => cur
  | fuel + 1, cur =>
    if cur.column < column ∧ cur.peek = ' ' then skipTo column fuel cur.next else cur

/-- The empty lines at a given depth. -/
def breaks (indent : Nat) : Nat → Cursor → List Char × Cursor
  | 0, cur => ([], cur)
  | fuel + 1, cur =>
    let cur := skipTo indent indent cur
    if isBreak cur.peek then
      let (first, cur) := cur.lineBreak
      let (more, cur) := breaks indent fuel cur
      (first ++ more, cur)
    else ([], cur)

/-- The lines of a block with the last line end and the empty lines after it. -/
structure Lines where
  text : List Char
  lineEnd : List Char
  after : List Char
  cursor : Cursor

def isInset (c : Char) : Bool := c == ' ' || c == '\t'

/-- `before` holds the empty lines before the cursor. -/
def lines (folded : Bool) (indent : Nat) (before : List Char) : Nat → Cursor → Lines
  | 0, cur => ⟨[], [], before, cur⟩
  | fuel + 1, cur =>
    if cur.column ≠ indent ∨ cur.rest.isEmpty then ⟨[], [], before, cur⟩
    else
      let (text, after) := cur.span (!endsLine ·)
      let (lineEnd, after) := after.lineBreak
      let (empty, after) := breaks indent after.rest.length after
      if after.column = indent ∧ !after.rest.isEmpty then
        let joint :=
          if folded ∧ lineEnd = ['\n'] ∧ !isInset cur.peek ∧ !isInset after.peek then
            if empty.isEmpty then [' '] else []
          else lineEnd
        let more := lines folded indent empty fuel after
        ⟨before ++ text ++ joint ++ more.text, more.lineEnd, more.after, more.cursor⟩
      else ⟨before ++ text, lineEnd, empty, after⟩

/-- A block, from its indicator on. -/
def scalar (folded : Bool) (indent : Int) (cur : Cursor) : Except Error (List Char × Cursor) := do
  let (chomping, depth, cur) ← header cur.next
  let cur := cur.skipBlanks.skipComment
  if !endsLine cur.peek then throw .malformed
  let cur := cur.lineBreak.2
  let least := max (indent + 1) 1
  let (column, before, cur) := match depth with
    | none =>
      let (before, deepest, cur) := leading (cur.rest.length + 1) cur
      (max least.toNat deepest, before, cur)
    | some depth =>
      let column := (least + depth - 1).toNat
      let (before, cur) := breaks column (cur.rest.length + 1) cur
      (column, before, cur)
  let block := lines folded column before (cur.rest.length + 1) cur
  let lineEnd := if chomping = .strip then [] else block.lineEnd
  let after := if chomping = .keep then block.after else []
  return (block.text ++ lineEnd ++ after, block.cursor)

end Block

end RequestLocale.Yaml
