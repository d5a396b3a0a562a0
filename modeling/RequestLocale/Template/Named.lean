import RequestLocale.Template.Piece

/-! Named placeholders: a name in braces stands for the value under that name. -/
namespace RequestLocale.Template.Named

/-- The text up to the first closing brace on the same line. -/
def upToBrace : List Char → Option (List Char)
  | [] => none
  | c :: cs =>
    if c = '}' then some [] else if c = '\n' then none else (upToBrace cs).map (c :: ·)

/-- A slot is an opening brace, a name of at least one character, and the nearest closing brace
after it. Only the first character of a name can be a closing brace. -/
def slotAt : List Char → Option (List Char × Nat)
  | '{' :: c :: cs =>
    if c = '\n' then none
    else (upToBrace cs).map fun name => (c :: name, name.length + 2)
  | _ => none

/-- Whether a value is put in: numbers other than NaN, texts, and anything that counts as true,
but neither truth values nor nothing. -/
def isSubstitutable (v : Value) : Bool :=
  match v with
  | .none | .bool _ => false
  | _ => !v.isNaN && (v.isTrue || v.isNumber || v == .text "")

def textOf (values : Entries) (name : List Char) : Except FormatError (Option (List Char)) :=
  match values.find? (String.ofList name) with
  | none => .ok none
  | some v =>
    if v matches .decimal (.nan _ true _) then .error .signallingNaN
    else if isSubstitutable v then (v.takenFrom (.record values)).plain?.map some
    else .ok none

def format (text : List Char) (values : Entries) : Except FormatError (List Char) :=
  fill (textOf values) (pieces slotAt text)

end RequestLocale.Template.Named
