import RequestLocale.Number.Numeral
import RequestLocale.Text.Blank
import RequestLocale.Text.LowerCase
import RequestLocale.Text.Split

/-! The languages a client asks for. The header lists tags, each with parameters; the last
parameter `q` is the quality of its tag. Tags of no quality are dropped and the others ranked by
quality, those of equal quality in the order of the header. -/
namespace RequestLocale.AcceptLanguage

open Text

structure Entry where
  tag : String
  quality : Binary64
  deriving DecidableEq, Repr

def fullQuality : Binary64 := .ofInt 1

/-- A parameter that is a quality gives its number; a quality that is no number is full. -/
def quality? (param : List Char) : Option Binary64 :=
  let (name, value) := cut '=' (trim param)
  if lower (trim name) = ['q'] then some ((Numeral.float? (trim value)).getD fullQuality) else none

def entry? (part : List Char) : Option Entry :=
  let (tag, params) := cut ';' (trim part)
  let tag := trim tag
  if tag.isEmpty then none
  else
    let qualities := (split ';' params).filterMap quality?
    some ⟨String.ofList tag, qualities.getLast?.getD fullQuality⟩

def Entry.isWanted (e : Entry) : Bool := Binary64.lt (.finite false 0) e.quality

/-- The entries of a header that are asked for, in the order of the header. -/
def entries (header : List Char) : List Entry :=
  ((split ',' header).filterMap entry?).filter Entry.isWanted

/-- Whether the first entry may stand before the second one. -/
def Entry.atLeast (a b : Entry) : Bool := !a.quality.lt b.quality

def ranked (header : String) : List String :=
  ((entries header.toList).mergeSort Entry.atLeast).map Entry.tag

/-- What came out of a negotiation: one tag, or tags in order of preference. -/
inductive Outcome where
  | single (tag : String)
  | several (tags : List String)
  deriving DecidableEq, Repr

/-- The preferred tag. Of a ranking that begins with the wildcard it is the next one. -/
def Outcome.first? : Outcome → Option String
  | .single tag => if tag.isEmpty then none else some tag
  | .several ("*" :: tags) => tags.head?
  | .several tags => tags.head?

end RequestLocale.AcceptLanguage
