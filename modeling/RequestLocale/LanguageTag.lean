/-! Language tags as they may stand in a response header: parts of plain letters and digits with a
hyphen or an underscore between neighbours. -/
namespace RequestLocale.LanguageTag

def isPlain (c : Char) : Bool :=
  ('a' ≤ c && c ≤ 'z') || ('A' ≤ c && c ≤ 'Z') || ('0' ≤ c && c ≤ '9')

def isJoint (c : Char) : Bool := c == '-' || c == '_'

/-- `inPart` tells whether the part that is being read has begun. -/
def accepts (inPart : Bool) : List Char → Bool
  | [] => inPart
  | c :: cs =>
    if isPlain c then accepts true cs else isJoint c && inPart && accepts false cs

def isTag (s : String) : Bool := accepts false s.toList

end RequestLocale.LanguageTag
