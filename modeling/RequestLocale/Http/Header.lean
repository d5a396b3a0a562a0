/-! Header lines, in order. The characters of names and values stand for single bytes, and names
are compared as they are written, so a look-up by a name in lower case passes over all others. -/
namespace RequestLocale.Http

abbrev Headers := List (String × String)

namespace Headers

def all (hs : Headers) (name : String) : List String :=
  (hs.filter (·.1 == name)).map (·.2)

def first? (hs : Headers) (name : String) : Option String := (hs.all name).head?

def has (hs : Headers) (name : String) : Bool := hs.any (·.1 == name)

end Headers

end RequestLocale.Http
