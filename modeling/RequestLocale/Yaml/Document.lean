import RequestLocale.Yaml.Lexer
import RequestLocale.Yaml.Node

/-! The node of a document. A text holds one document at most. An alias stands for the node with
its anchor, which must come before it, and no anchor is set twice. -/
namespace RequestLocale.Yaml

/-- The tokens that are left, the nodes with anchors, and what the handles of marks stand for. -/
structure Reading where
  tokens : List Token
  anchors : List (String × Node)
  handles : List (String × String)

abbrev Reader := StateT Reading (Except Error)

namespace Reader

def peek : Reader Token := return ((← get).tokens.head?).getD .streamEnd

def take : Reader Unit := modify fun r => { r with tokens := r.tokens.drop 1 }

/-- Takes the next token if it is the given one, and tells whether it was. -/
def takes (t : Token) : Reader Bool := do
  if (← peek) = t then take; return true else return false

def expect (t : Token) : Reader Unit := do
  if !(← takes t) then throw .malformed

def isNext (ts : List Token) : Reader Bool := return ts.contains (← peek)

def takeAnchor : Reader (Option String) := do
  match ← peek with
  | .anchor name => take; return some name
  | _ => return none

def takeMark : Reader (Option Mark) := do
  match ← peek with
  | .mark m => take; return some m
  | _ => return none

/-- An anchor and a mark, in either order. -/
def properties : Reader (Option String × Option Mark) := do
  match ← takeAnchor with
  | some anchor => return (some anchor, ← takeMark)
  | none =>
    match ← takeMark with
    | some mark => return (← takeAnchor, some mark)
    | none => return (none, none)

/-- The name of a tag; a lone exclamation mark leaves it to the node. -/
def tagName (mark : Option Mark) : Reader (Option String) := do
  match mark with
  | none => return none
  | some ⟨none, name⟩ => return some name
  | some ⟨some handle, rest⟩ =>
    match (← get).handles.lookup handle with
    | some value => return some (value ++ rest)
    | none => throw .malformed

def isUnset (name : Option String) : Bool := name.all (· == "!")

def setAnchor (anchor : Option String) (node : Node) : Reader Unit :=
  match anchor with
  | none => pure ()
  | some name => modify fun r => { r with anchors := (name, node) :: r.anchors }

def checkAnchor (anchor : Option String) : Reader Unit := do
  if let some name := anchor then
    if ((← get).anchors.lookup name).isSome then throw .malformed

/-- What stands where a node is left out. -/
def absent : Node := .scalar .null []

def scalarTag (name : Option String) (plain : Bool) (text : List Char) : Tag :=
  match name with
  | none => if plain then .ofSpelling text else .text
  | some "!" => .ofSpelling text
  | some name => .ofName name

def collectionTag (name : Option String) (default : Tag) : Tag :=
  if isUnset name then default else .ofName (name.getD "")

/-- Reads a collection, which its own aliases show as enclosing them. -/
def collection (anchor : Option String) (keyed : Bool) (content : Reader Node) : Reader Node := do
  setAnchor anchor (.enclosing keyed)
  let node ← content
  setAnchor anchor node
  return node

/-- The marks that end an entry of a block mapping before its key or value. -/
def blockStops : List Token := [.key, .value, .blockEnd]

mutual
/-- Reads one node. `inBlock` allows blocks, `indentless` also a sequence at the depth of the
mapping around it. -/
def node (fuel : Nat) (inBlock indentless : Bool) : Reader Node := do
  match fuel with
  | 0 => throw .malformed
  | fuel + 1 =>
    if let .alias name ← peek then
      take
      match (← get).anchors.lookup name with
      | some node => return node
      | none => throw .malformed
    else
      let (anchor, mark) ← properties
      let name ← tagName mark
      checkAnchor anchor
      let sequence (items : Reader (List Node)) : Reader Node :=
        collection anchor false do return .sequence (collectionTag name .sequence) (← items)
      let mapping (entries : Reader (List (Node × Node))) : Reader Node :=
        collection anchor true do return .mapping (collectionTag name .mapping) (← entries)
      match ← peek with
      | .scalar plain text =>
        take
        let node := Node.scalar (scalarTag name plain text) text
        setAnchor anchor node
        return node
      | .flowSequenceStart => take; sequence (flowItems fuel true)
      | .flowMappingStart => take; mapping (flowEntries fuel true)
      | next =>
        if next = .blockEntry ∧ indentless then sequence (indentlessItems fuel)
        else if next = .blockSequenceStart ∧ inBlock then
          take
          sequence (blockItems fuel)
        else if next = .blockMappingStart ∧ inBlock then
          take
          mapping (blockEntries fuel)
        else if anchor.isSome ∨ name.isSome then
          let node := Node.scalar (scalarTag name true []) []
          setAnchor anchor node
          return node
        else throw .malformed

def blockItems (fuel : Nat) : Reader (List Node) := do
  match fuel with
  | 0 => throw .malformed
  | fuel + 1 =>
    if ← takes .blockEntry then
      let item ← if ← isNext [.blockEntry, .blockEnd] then pure absent else node fuel true false
      return item :: (← blockItems fuel)
    else
      expect .blockEnd
      return []

def indentlessItems (fuel : Nat) : Reader (List Node) := do
  match fuel with
  | 0 => throw .malformed
  | fuel + 1 =>
    if ← takes .blockEntry then
      let item ← if ← isNext (.blockEntry :: blockStops) then pure absent else node fuel true false
      return item :: (← indentlessItems fuel)
    else return []

def blockEntries (fuel : Nat) : Reader (List (Node × Node)) := do
  match fuel with
  | 0 => throw .malformed
  | fuel + 1 =>
    if ← takes .key then
      let part : Reader Node := do
        if ← isNext blockStops then return absent else node fuel true true
      let key ← part
      let value ← if ← takes .value then part else pure absent
      return (key, value) :: (← blockEntries fuel)
    else
      expect .blockEnd
      return []

/-- The value after a key in brackets, which a comma or the closing bracket leaves out. -/
def flowValue (fuel : Nat) (close : Token) : Reader Node := do
  match fuel with
  | 0 => throw .malformed
  | fuel + 1 =>
    if ← takes .value then
      if ← isNext [.flowEntry, close] then return absent else node fuel false false
    else return absent

/-- A key after its mark, and its value. -/
def flowPair (fuel : Nat) (close : Token) : Reader (Node × Node) := do
  match fuel with
  | 0 => throw .malformed
  | fuel + 1 =>
    let key ← if ← isNext [.value, .flowEntry, close] then pure absent else node fuel false false
    return (key, ← flowValue fuel close)

/-- The items up to the closing bracket. A key among them begins a mapping of one entry. -/
def flowItems (fuel : Nat) (first : Bool) : Reader (List Node) := do
  match fuel with
  | 0 => throw .malformed
  | fuel + 1 =>
    if ← takes .flowSequenceEnd then return []
    if !first then expect .flowEntry
    if ← takes .key then
      let pair ← flowPair fuel .flowSequenceEnd
      return .mapping .mapping [pair] :: (← flowItems fuel false)
    else if ← takes .flowSequenceEnd then return []
    else
      let item ← node fuel false false
      return item :: (← flowItems fuel false)

/-- The entries up to the closing brace. A node without a mark is a key without a value. -/
def flowEntries (fuel : Nat) (first : Bool) : Reader (List (Node × Node)) := do
  match fuel with
  | 0 => throw .malformed
  | fuel + 1 =>
    if ← takes .flowMappingEnd then return []
    if !first then expect .flowEntry
    if ← takes .key then
      let pair ← flowPair fuel .flowMappingEnd
      return pair :: (← flowEntries fuel false)
    else if ← takes .flowMappingEnd then return []
    else
      let key ← node fuel false false
      return (key, absent) :: (← flowEntries fuel false)
end

def defaultHandles : List (String × String) := [("!", "!"), ("!!", "tag:yaml.org,2002:")]

/-- The directives before a document: one version at most, and each handle once. -/
def directives : Nat → Bool → List (String × String) → Reader (List (String × String))
  | 0, _, handles => return handles
  | fuel + 1, versioned, handles => do
    match ← peek with
    | .directive (.version major) =>
      take
      if versioned ∨ major ≠ 1 then throw .malformed
      directives fuel true handles
    | .directive (.handle name value) =>
      take
      if (handles.lookup name).isSome then throw .malformed
      directives fuel versioned ((name, value) :: handles)
    | .directive .reserved =>
      take
      directives fuel versioned handles
    | _ => return handles

def isDocumentStop : Token → Bool
  | .directive _ | .documentStart | .documentEnd | .streamEnd => true
  | _ => false

/-- The content of a document, with the steps that its tokens allow. -/
def content : Reader Node := do
  node (4 * (← get).tokens.length + 4) true false

def skipDocumentEnds : Nat → Reader Unit
  | 0 => pure ()
  | fuel + 1 => do if ← takes .documentEnd then skipDocumentEnds fuel

/-- The node of the only document, if there is one. -/
def document : Reader (Option Node) := do
  let count := (← get).tokens.length
  let root ← match ← peek with
    | .streamEnd => return none
    | .directive _ | .documentStart =>
      let handles ← directives count false []
      expect .documentStart
      modify fun r => { r with handles := handles ++ defaultHandles }
      if isDocumentStop (← peek) then pure absent else content
    | _ => content
  skipDocumentEnds count
  expect .streamEnd
  return some root

end Reader

/-- The node that a text describes, none for a text without a document. -/
def Node.ofText? (text : List Char) : Except Error (Option Node) := do
  let ts ← tokens text
  Reader.document.run' ⟨ts, [], Reader.defaultHandles⟩

end RequestLocale.Yaml
