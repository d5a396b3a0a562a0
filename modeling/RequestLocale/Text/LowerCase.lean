import RequestLocale.Text.LetterCase

/-! Lower case of a whole text. Two letters do not map one to one: the dotted capital I keeps its
dot as a mark of its own, and a capital sigma becomes the final form at the end of a word. -/
namespace RequestLocale.Text

/-- The lower-case partner of a single character, its own when it has none. -/
def lowerChar (c : Char) : Char :=
  if c.toNat < 128 then c.toLower
  else match caseRuns.find? (·.contains c) with
    | some run => Char.ofNat ((c.toNat : Int) + run.shift).toNat
    | none => c

/-- Whether the nearest character that is not passed over has case. -/
def meetsCased : List Char → Bool
  | [] => false
  | c :: cs => if caseIgnorable.contains c then meetsCased cs else casedRanges.contains c

/-- `before` is what was read so far, nearest character first. -/
def lowerFrom (before : List Char) : List Char → List Char
  | [] => []
  | c :: cs =>
    let low :=
      if c = 'Σ' then
        if meetsCased before && !meetsCased cs then ['ς'] else ['σ']
      else if c = 'İ' then ['i', '\u0307']
      else [lowerChar c]
    low ++ lowerFrom (c :: before) cs

def lower (cs : List Char) : List Char := lowerFrom [] cs

def lowered (s : String) : String := String.ofList (lower s.toList)

end RequestLocale.Text
