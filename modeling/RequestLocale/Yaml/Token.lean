/-! The tokens of a YAML text. -/
namespace RequestLocale.Yaml

/-- What a mark says before its handle is looked up; without a handle the rest is the whole name. -/
structure Mark where
  handle : Option String
  rest : String
  deriving DecidableEq, Repr

inductive Directive where
  | version (major : Nat)
  | handle (name value : String)
  | reserved
  deriving DecidableEq, Repr

inductive Token where
  | streamEnd
  | directive (d : Directive)
  | documentStart
  | documentEnd
  | blockSequenceStart
  | blockMappingStart
  | blockEnd
  | flowSequenceStart
  | flowMappingStart
  | flowSequenceEnd
  | flowMappingEnd
  | blockEntry
  | flowEntry
  | key
  | value
  | alias (name : String)
  | anchor (name : String)
  | mark (m : Mark)
  | scalar (plain : Bool) (text : List Char)
  deriving DecidableEq, Repr

end RequestLocale.Yaml
