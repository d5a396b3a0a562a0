import RequestLocale.Number.Shortest

/-! The text of a floating-point number. Its shortest digits are written with a point, at least one
digit on each side, while the first of them stands between the fourth place after the point and the
sixteenth before it; beyond that the point follows the first digit, is left out when nothing
follows it, and a signed exponent of two digits or more says where it belongs. -/
namespace RequestLocale.Binary64

/-- The words for the values that have no digits. -/
structure Words where
  nan : String
  infinity : String

def plainWords : Words := ⟨"nan", "inf"⟩

def exponentText (e : Int) : String :=
  (if e < 0 then "-" else "+") ++ (if e.natAbs < 10 then "0" else "") ++ toString e.natAbs

/-- Places the point among digits without trailing zeros, the first of which has the weight
`10 ^ first`. -/
def layout (digits : List Char) (first : Int) : String :=
  if first < -4 ∨ 16 ≤ first then
    let point := match digits with
      | d :: more@(_ :: _) => d :: '.' :: more
      | one => one
    String.ofList point ++ "e" ++ exponentText first
  else if first < 0 then
    "0." ++ String.ofList (List.replicate (-first - 1).toNat '0' ++ digits)
  else
    let whole := first.toNat + 1
    let before := digits.take whole ++ List.replicate (whole - digits.length) '0'
    let after := if digits.length ≤ whole then ['0'] else digits.drop whole
    String.ofList (before ++ '.' :: after)

def unitsText (units : Units) : String :=
  if units.count = 0 then "0.0"
  else
    let d := shortest units.count
    let digits := (toString d.digits).toList
    let kept := (digits.reverse.dropWhile (· == '0')).reverse
    layout kept (d.exponent + digits.length - 1)

def textWith (words : Words) : Binary64 → String
  | .nan => words.nan
  | .infinite negative => (if negative then "-" else "") ++ words.infinity
  | .finite negative units => (if negative then "-" else "") ++ unitsText units

def text (x : Binary64) : String := x.textWith plainWords

end RequestLocale.Binary64
