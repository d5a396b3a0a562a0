import RequestLocale.Json.Writer
import RequestLocale.Settings.Basic
import RequestLocale.Text.Split
import RequestLocale.Text.Utf8

/-! Checking the values of settings. Every field is checked, so that all faults are reported
together; only a number of seconds beyond the floating-point range ends the check at once. -/
namespace RequestLocale.Settings

open Text

/-- The value of a field, or the faults in it. -/
abbrev Checked (α : Type) := Except (List Fault) α

def faultsOf {α : Type} : Checked α → List Fault
  | .ok _ => []
  | .error faults => faults

/-- A text, or bytes that encode one. -/
def checkText (path : List String) : Value → Checked String
  | .text s => .ok s
  | .bytes _ bs =>
    match Utf8.decode bs with
    | .ok cs => .ok (String.ofList cs)
    | .error _ => .error [⟨path, .undecodableText⟩]
  | _ => .error [⟨path, .notText⟩]

/-- A text without the blanks around it, of which something must remain. -/
def checkName (field : Field) (value : Value) : Checked String := do
  let s ← checkText [field.name] value
  if field = .defaultLocale ∧ s.isEmpty then throw [⟨[field.name], .textTooShort⟩]
  let s := trimmed s
  if s.isEmpty then throw [⟨[field.name], .invalid "must not be blank"⟩]
  return s

/-- How the place of an entry is named after its key. -/
def keyName : Value → String
  | .text s => s
  | .bool b => if b then "1" else "0"
  | key => key.toQuoted

/-- An entry of a record from text to text; a key and a value can be at fault together. -/
def textEntry (path : List String) (key value : Value) : Checked (String × String) :=
  let place := path ++ [keyName key]
  match checkText (place ++ ["[key]"]) key, checkText place value with
  | .ok k, .ok v => .ok (k, v)
  | k, v => .error (faultsOf k ++ faultsOf v)

def textEntries (path : List String) : Entries → Checked (List (String × String))
  | [] => .ok []
  | (key, value) :: entries =>
    match textEntry path key value, textEntries path entries with
    | .ok entry, .ok rest => .ok (entry :: rest)
    | entry, rest => .error (faultsOf entry ++ faultsOf rest)

def checkAliases : Value → Checked (Table String)
  | .record entries => (textEntries [Field.aliases.name] entries).map Table.ofList
  | _ => .error [⟨[Field.aliases.name], .notRecord⟩]

/-- A text that opens no list is one of parts between commas, blank parts left out; lists and
other texts stay, and any other value is refused. -/
def directoryList (value : Value) : Except Value Value :=
  match value with
  | .text s =>
    if s.toList.head? = some '[' then .ok value
    else
      let parts := ((split ',' s.toList).map trim).filter (· ≠ [])
      .ok (.list (parts.map fun part => .text (String.ofList part)))
  | .sequence .list _ => .ok value
  | _ => .error value

def directoryItems (path : List String) (place : Nat) : List Value → Checked (List String)
  | [] => .ok []
  | item :: items =>
    match checkText (path ++ [toString place]) item, directoryItems path (place + 1) items with
    | .ok s, .ok rest => .ok (s :: rest)
    | s, rest => .error (faultsOf s ++ faultsOf rest)

/-- A list that holds anything but texts is at fault as a list and as a text. -/
def checkDirectories (value : Value) : Checked Directories :=
  let field := Field.directories.name
  match directoryList value with
  | .error value => .error [⟨[field], .invalid value.toText⟩]
  | .ok (.sequence _ items) =>
    match directoryItems [field, "list[str]"] 0 items with
    | .ok paths => .ok (.several paths)
    | .error faults => .error (faults ++ [⟨[field, "str"], .notText⟩])
  | .ok value => (checkText [field] value).map .single

def checkDeployment (value : Value) : Checked Deployment :=
  match [Deployment.locally, .staging, .production].find? fun d => value == .text d.name with
  | some d => .ok d
  | none => .error [⟨[Field.deployment.name], .unknownName⟩]

def truthOfText? (s : String) : Option Bool :=
  let word := String.ofList (s.toList.map Char.toLower)
  if ["1", "on", "t", "true", "y", "yes"].contains word then some true
  else if ["0", "off", "f", "false", "n", "no"].contains word then some false
  else none

/-- The whole number that a number equals, within 64 bits. -/
def smallWhole? (value : Value) : Option Int :=
  let ofFloat (x : Binary64) : Option Int := do
    let n ← x.trunc?
    if x.same (.ofInt n) ∧ n.natAbs < 0x8000000000000000 then some n else none
  match value with
  | .int n => if -0x8000000000000000 ≤ n ∧ n < 0x8000000000000000 then some n else none
  | .float x => ofFloat x
  | .fraction q => ofFloat (.ofQuotient (q.num < 0) q.num.natAbs q.den)
  | .decimal d => d.toBinary64?.bind ofFloat
  | _ => none

def checkDebug (value : Value) : Checked Bool :=
  let fault (kind : FaultKind) : Checked Bool := .error [⟨[Field.debug.name], kind⟩]
  let reading (truth : Option Bool) : Checked Bool := truth.elim (fault .unreadableTruth) .ok
  match value with
  | .bool b => .ok b
  | .text s => reading (truthOfText? s)
  | .bytes false bs => reading (((Utf8.decode bs).toOption).bind (truthOfText? <| String.ofList ·))
  | _ =>
    match smallWhole? value with
    | some n => reading (if n = 0 then some false else if n = 1 then some true else none)
    | none => fault .notTruth

/-- Why no settings were built. -/
inductive Error where
  | invalid (faults : List Fault)
  /-- The life of the cookie is a whole number beyond the floating-point range. -/
  | durationTooLarge
  /-- The variable for the aliases holds no JSON. -/
  | undecodableAliases
  deriving DecidableEq, Repr

/-- What the error says where it is not told by its faults. -/
def Error.message? : Error → Option String
  | .invalid _ => none
  | .durationTooLarge => some "int too large to convert to float"
  | .undecodableAliases =>
    some "error parsing value for field \"LOCALE_ALIAS\" from source \"EnvSettingsSource\""

/-- What it means for the settings that the life of the cookie cannot be measured. -/
def lifeFault : Duration.Error → Except Error (Checked Life)
  | .tooLarge => .error .durationTooLarge
  | .unwritable => .ok (.error [⟨[Field.cookieMaxAge.name], .invalid Numeral.digitLimitMessage⟩])
  | .invalid v =>
    .ok (.error [⟨[Field.cookieMaxAge.name], .invalid (ReportedError.invalidDuration v).message⟩])

def checkMaxAge (value : Value) : Except Error (Checked Life) :=
  match h : Duration.seconds value with
  | .ok n => .ok (.ok ⟨n, Duration.isShort_of_seconds h⟩)
  | .error e => lifeFault e

theorem checkMaxAge_of_seconds {value : Value} (life : Life)
    (h : Duration.seconds value = .ok life.seconds) : checkMaxAge value = .ok (.ok life) := by
  unfold checkMaxAge
  split
  · rename_i n found
    cases h.symm.trans found
    rfl
  · rename_i found
    cases h.symm.trans found

theorem checkMaxAge_of_error {value : Value} {e : Duration.Error}
    (h : Duration.seconds value = .error e) : checkMaxAge value = lifeFault e := by
  unfold checkMaxAge
  split
  · rename_i found
    cases h.symm.trans found
  · rename_i found
    cases h.symm.trans found
    rfl

/-- The value of a field for which nothing is given. -/
def fallback : Field → Value
  | .defaultLocale => .text "en_US"
  | .queryField | .cookieField => .text "locale"
  | .aliases => .record []
  | .cookieMaxAge => .text "1y"
  | .functionName => .text "__"
  | .directories => .list [.text "locales"]
  | .deployment => .text "local"
  | .debug => .bool false

/-- Builds settings from the given values. -/
def check (given : Field → Option Value) : Except Error Settings := do
  let value (field : Field) : Value := (given field).getD (fallback field)
  let maxAge ← checkMaxAge (value .cookieMaxAge)
  match checkName .defaultLocale (value .defaultLocale), checkName .queryField (value .queryField),
    checkName .cookieField (value .cookieField), checkAliases (value .aliases), maxAge,
    checkText [Field.functionName.name] (value .functionName),
    checkDirectories (value .directories), checkDeployment (value .deployment),
    checkDebug (value .debug) with
  | .ok a, .ok b, .ok c, .ok d, .ok e, .ok f, .ok g, .ok h, .ok i =>
    return ⟨a, b, c, d, e, f, g, h, i⟩
  | a, b, c, d, e, f, g, h, i =>
    throw (.invalid (faultsOf a ++ faultsOf b ++ faultsOf c ++ faultsOf d ++ faultsOf e ++
      faultsOf f ++ faultsOf g ++ faultsOf h ++ faultsOf i))

end RequestLocale.Settings
