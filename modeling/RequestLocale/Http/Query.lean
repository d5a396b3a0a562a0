import RequestLocale.Http.Percent
import RequestLocale.Text.Split

/-! The parameters in the query of an address: names and values in percent coding with plus signs
for blanks. -/
namespace RequestLocale.Http.Query

open Text

def decodePart (cs : List Char) : String :=
  String.ofList (Percent.decode (cs.map fun c => if c = '+' then ' ' else c))

/-- A parameter without an equals sign has an empty value. -/
def parameter (part : List Char) : String × String :=
  let (name, value) := cut '=' part
  (decodePart name, decodePart value)

/-- The parameters in order; empty parts are passed over. -/
def parameters (query : String) : List (String × String) :=
  ((split '&' query.toList).filter (· ≠ [])).map parameter

def all (query name : String) : List String :=
  ((parameters query).filter (·.1 == name)).map (·.2)

/-- The last value of a parameter. -/
def last? (query name : String) : Option String := (all query name).getLast?

end RequestLocale.Http.Query
