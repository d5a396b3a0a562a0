import RequestLocale.Json.Reader
import RequestLocale.Settings.Check

/-! Where the values of settings come from. A keyword or a variable belongs to a field when the
names agree up to letter case, a variable's name having the lead `LOCALES_`. An empty variable
counts as absent. The aliases are read as JSON, and so are the directories where they can be. A
file of variables beside the program is taken not to be there. -/
namespace RequestLocale.Settings

open Text

/-- A later keyword replaces an earlier one, the exact name goes before other spellings. -/
def keyword? (keywords : List (String × Value)) (field : Field) : Option Value :=
  let named (test : String → Bool) : Option Value :=
    ((keywords.filter fun keyword => test keyword.1).getLast?).map (·.2)
  (named (· == field.name)).or (named fun name => lowered name == lowered field.name)

/-- The text of the variable for a field; of several spellings the last one counts. -/
def environmentText? (environment : Table String) (field : Field) : Option String :=
  let wanted := lowered ("LOCALES_" ++ field.name)
  ((environment.entries.filter fun entry =>
    lowered entry.1 == wanted && !entry.2.isEmpty).getLast?).map (·.2)

/-- The value of JSON; the word for nothing leaves the field unset. -/
def present (value : Value) : Option Value :=
  match value with
  | .none => none
  | value => some value

/-- The directories of JSON. A text with half of a pair is refused whatever its parts are; the bytes
that it is read as stand for all of them, as the only item of a list. -/
def presentPaths (value : Value) : Option Value :=
  match value with
  | .bytes mutable bs => some (.list [.bytes mutable bs])
  | value => present value

/-- The value that the environment gives to a field. -/
def environmentValue (environment : Table String) (field : Field) : Except Error (Option Value) :=
  match environmentText? environment field with
  | none => .ok none
  | some s =>
    match field with
    | .aliases =>
      match Json.read s.toList with
      | .ok value => .ok (present value)
      | .error _ => .error .undecodableAliases
    | .directories =>
      match Json.read s.toList with
      | .ok value => .ok (presentPaths value)
      | .error _ => .ok (some (.text s))
    | _ => .ok (some (.text s))

/-- A keyword wins over the environment, except that two records of aliases are merged. -/
def combine (fromKeyword fromEnvironment : Option Value) : Option Value :=
  match fromKeyword, fromEnvironment with
  | some (.record entries), some (.record earlier) =>
    some (.record (Entries.ofList (earlier ++ entries)))
  | some value, _ => some value
  | none, value => value

def build (keywords : List (String × Value)) (environment : Table String) :
    Except Error Settings := do
  let aliases ← environmentValue environment .aliases
  let given (field : Field) : Option Value :=
    match field with
    | .aliases => combine (keyword? keywords .aliases) aliases
    | field =>
      (keyword? keywords field).or ((environmentValue environment field).toOption.getD none)
  check given

end RequestLocale.Settings
