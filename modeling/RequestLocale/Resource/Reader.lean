import RequestLocale.Error
import RequestLocale.Flatten
import RequestLocale.Json.Reader
import RequestLocale.Resource.Path
import RequestLocale.Text.Utf8
import RequestLocale.Yaml.Content

/-! Reading one resource file: the system gives its bytes, these are text, the text is JSON or YAML,
and the value is a record of messages. -/
namespace RequestLocale.Resource

inductive Format where
  | json
  | yaml
  deriving DecidableEq, Repr

/-- The format that the ending of a file name stands for. -/
def Format.ofEnding? : String → Option Format
  | ".json" => some .json
  | ".yml" | ".yaml" => some .yaml
  | _ => none

/-- The format of a file by its name. -/
def Format.ofName? (name : String) : Option Format := ofEnding? (Path.splitName name).2

/-- Why a file holds no messages. -/
inductive FileFault where
  | system (reason : String)
  | encoding (e : Text.Utf8.Error)
  | json (e : Json.Error)
  | yaml (e : Yaml.Error)
  | shape (kind : String)
  deriving DecidableEq, Repr

def FileFault.reason : FileFault → String
  | .system reason => reason
  | .encoding e => e.message
  | .json e => e.message
  | .yaml e => e.message
  | .shape kind => "expected a mapping, got " ++ kind

/-- Every kind of line end becomes the simple one. -/
def unifyLines : List Char → List Char
  | [] => []
  | '\r' :: '\n' :: cs => '\n' :: unifyLines cs
  | c :: cs => (if c = '\r' then '\n' else c) :: unifyLines cs

/-- A text that ends within a character is found so only after the rest of it was read as YAML,
and the place of the fault is counted from there. -/
def locate (format : Format) (e : Text.Utf8.Error) : Text.Utf8.Error :=
  if format = .yaml ∧ e.fault = .endOfData then { e with position := 0 } else e

def decode (format : Format) (bytes : List UInt8) : Except FileFault (List Char) :=
  ((Text.Utf8.decode bytes).map unifyLines).mapError fun e => .encoding (locate format e)

def parse (format : Format) (text : List Char) : Except FileFault Value :=
  match format with
  | .json => (Json.read text).mapError .json
  | .yaml => (Yaml.read text).mapError .yaml

mutual
/-- Whether there are bytes in a value. -/
def holdsBytes : Value → Bool
  | .bytes _ _ => true
  | .sequence _ items => itemsHoldBytes items
  | .record entries => entriesHoldBytes entries
  | _ => false
  termination_by structural v => v

def itemsHoldBytes : List Value → Bool
  | [] => false
  | item :: items => holdsBytes item || itemsHoldBytes items
  termination_by structural items => items

def entriesHoldBytes : List (Value × Value) → Bool
  | [] => false
  | (key, v) :: entries => holdsBytes key || holdsBytes v || entriesHoldBytes entries
  termination_by structural entries => entries
end

/-- Whether an escape in a file spells half of a pair. In JSON the value has bytes then, which nothing
else gives; in YAML reading stops there. -/
def spellsHalf (format : Format) (bytes : List UInt8) : Bool :=
  match decode format bytes with
  | .error _ => false
  | .ok text =>
    match format with
    | .json => (Json.read text).toOption.any holdsBytes
    | .yaml => match Yaml.read text with
      | .error .half => true
      | _ => false

/-- The entries of the value that a file holds; nothing has none. -/
def entriesOf : Value → Except FileFault Entries
  | .none => .ok []
  | .record entries => .ok entries
  | value => .error (.shape value.kindName)

/-- The record in a file, read from what the system gives. -/
def readRecord (format : Format) (content : Except String (List UInt8)) :
    Except FileFault Entries := do
  let bytes ← content.mapError .system
  let text ← decode format bytes
  entriesOf (← parse format text)

theorem readRecord_ok (format : Format) (bytes : List UInt8) :
    readRecord format (.ok bytes) =
      (decode format bytes).bind fun text => (parse format text).bind entriesOf := rfl

end RequestLocale.Resource
