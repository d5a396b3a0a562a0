import RequestLocale.Text.Split

/-! Paths of files. A path is written without empty and single-point parts, and the path without
parts is a single point; two points in a row stay. -/
namespace RequestLocale.Resource

structure Path where
  root : String
  parts : List String
  deriving DecidableEq, Repr

namespace Path

open Text

def parse (s : String) : Path :=
  let cs := s.toList
  let slashes := (cs.takeWhile (· == '/')).length
  let root := if slashes = 0 then "" else if slashes = 2 then "//" else "/"
  let parts := (split '/' cs).map String.ofList
  ⟨root, parts.filter fun part => part ≠ "" ∧ part ≠ "."⟩

def text (p : Path) : String :=
  if p.root = "" ∧ p.parts = [] then "." else p.root ++ "/".intercalate p.parts

def child (p : Path) (name : String) : Path := ⟨p.root, p.parts ++ [name]⟩

/-- Cuts a file name before its last point; a point at either end cuts nothing. -/
def splitName (name : String) : String × String :=
  let cs := name.toList
  let ending := (cs.reverse.takeWhile (· != '.')).reverse
  let stem := cs.take (cs.length - ending.length - 1)
  if !cs.contains '.' || ending.isEmpty || stem.isEmpty then (name, "")
  else (String.ofList stem, String.ofList ('.' :: ending))

end Path

end RequestLocale.Resource
