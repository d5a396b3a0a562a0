import RequestLocale.Text.Hex
import RequestLocale.Text.Utf8
import RequestLocale.Yaml.Cursor
import RequestLocale.Yaml.Error
import RequestLocale.Yaml.Token

/-! Marks, directives, and the names of anchors. -/
namespace RequestLocale.Yaml

/-- A name with the cursor after it. -/
def word (cur : Cursor) : Except Error (String × Cursor) :=
  match cur.span isWordChar with
  | ([], _) => .error .malformed
  | (cs, after) => .ok (String.ofList cs, after)

/-- The name of an anchor or alias, from its indicator on. -/
def anchorName (cur : Cursor) : Except Error (String × Cursor) := do
  let (name, after) ← word cur.next
  if isGap after.peek || "?:,]\x7d%@\x60".toList.contains after.peek then return (name, after)
  else throw .malformed

namespace Mark

def isUriChar (c : Char) : Bool :=
  isWordChar c || ";/?:@&=+$,.!~*\x27()[]%".toList.contains c

/-- The bytes that percent signs give at the head of a text, and the number of them. -/
def escapes : Nat → List Char → Except Error (List UInt8)
  | fuel + 1, '%' :: rest =>
    match rest with
    | a :: b :: rest =>
      match Text.hexValue? a, Text.hexValue? b with
      | some a, some b => (escapes fuel rest).map ((16 * a + b).toUInt8 :: ·)
      | _, _ => .error .malformed
    | _ => .error .malformed
  | _, _ => .ok []

/-- A name in the characters of addresses; bytes given by number must spell characters. -/
def uriChars : Nat → Cursor → Except Error (List Char × Cursor)
  | 0, cur => .ok ([], cur)
  | fuel + 1, cur => do
    if cur.peek = '%' then
      let bytes ← escapes cur.rest.length cur.rest
      match Text.Utf8.decode bytes with
      | .error _ => throw .malformed
      | .ok text =>
        let (more, after) ← uriChars fuel (cur.skip (3 * bytes.length))
        return (text ++ more, after)
    else if isUriChar cur.peek then
      let (more, after) ← uriChars fuel cur.next
      return (cur.peek :: more, after)
    else return ([], cur)

def uri (cur : Cursor) : Except Error (String × Cursor) :=
  if isUriChar cur.peek then
    (uriChars cur.rest.length cur).map fun (text, after) => (String.ofList text, after)
  else .error .malformed

/-- An exclamation mark, alone before a blank, or with a name and a second one. -/
def readHandle (cur : Cursor) : Except Error (String × Cursor) :=
  if cur.peek ≠ '!' then .error .malformed
  else if cur.peekAt 1 = ' ' then .ok ("!", cur.next)
  else
    let (name, after) := cur.next.span isWordChar
    if after.peek = '!' then .ok (String.ofList ('!' :: name ++ ['!']), after.next)
    else .error .malformed

/-- Whether a second exclamation mark stands before the next blank or line end. -/
def hasHandle (rest : List Char) : Bool := (rest.takeWhile (!endsWord ·)).contains '!'

/-- A mark, from its exclamation mark on. -/
def read (cur : Cursor) : Except Error (Mark × Cursor) := do
  let c := cur.peekAt 1
  let (mark, after) ←
    if c = '<' then do
      let (name, after) ← uri (cur.skip 2)
      if after.peek = '>' then pure (⟨none, name⟩, after.next) else throw Error.malformed
    else if isGap c then pure (⟨none, "!"⟩, cur.next)
    else do
      let (handle, after) ← if hasHandle cur.next.rest then readHandle cur else pure ("!", cur.next)
      let (name, after) ← uri after
      pure ((⟨some handle, name⟩ : Mark), after)
  if endsWord after.peek then return (mark, after) else throw .malformed

end Mark

namespace Directive

def number (cur : Cursor) : Except Error (Nat × Cursor) :=
  match cur.span fun c => '0' ≤ c && c ≤ '9' with
  | ([], _) => .error .malformed
  | (cs, after) => .ok (cs.foldl (fun n c => 10 * n + (c.toNat - 48)) 0, after)

def readVersion (cur : Cursor) : Except Error (Directive × Cursor) := do
  let (major, cur) ← number cur
  if cur.peek ≠ '.' then throw .malformed
  let (_, cur) ← number cur.next
  if endsWord cur.peek then return (.version major, cur) else throw .malformed

def readNames (cur : Cursor) : Except Error (Directive × Cursor) := do
  let (name, cur) ← Mark.readHandle cur
  if cur.peek ≠ ' ' then throw .malformed
  let (value, cur) ← Mark.uri cur.skipBlanks
  if endsWord cur.peek then return (.handle name value, cur) else throw .malformed

/-- A directive, from its percent sign to the end of its line. -/
def read (cur : Cursor) : Except Error (Directive × Cursor) := do
  let (name, after) ← word cur.next
  if !endsWord after.peek then throw .malformed
  let (directive, after) ← match name with
    | "YAML" => readVersion after.skipBlanks
    | "TAG" => readNames after.skipBlanks
    | _ => pure (.reserved, after.skipWhile (!endsLine ·))
  let after := after.skipBlanks.skipComment
  if endsLine after.peek then return (directive, after.lineBreak.2) else throw .malformed

end Directive

end RequestLocale.Yaml
