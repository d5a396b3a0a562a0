import RequestLocale.Ambient
import RequestLocale.Text.Split

/-! The pages of the service and the paths that lead to them. A part of a path that stands for
itself may be followed by a line break at the very end; a part that is a parameter is any text
without a slash, but not the empty one. -/
namespace RequestLocale

inductive Page where
  | health
  | locale
  | bundle (locale : String)
  | message (key : String)
  /-- A page that always fails. -/
  | failing (f : Failure)

namespace Page

/-- Whether the last part of a path is a word. -/
def isLast (word : String) (part : List Char) : Bool :=
  part == word.toList || part == word.toList ++ ['\n']

/-- A parameter in a path. -/
def parameter? (part : List Char) : Option String :=
  if part.isEmpty then none else some (String.ofList part)

/-- The page under the parts of a path after its first slash. -/
def ofParts? : List (List Char) → Option Page
  | [last] => if isLast "health" last then some .health else none
  | [base, last] => if base == "v1".toList && isLast "locale" last then some .locale else none
  | [base, second, third] =>
    if base == "v1".toList && second == "messages".toList then (parameter? third).map .message
    else none
  | [base, second, third, last] =>
    if base == "v1".toList && second == "locales".toList && isLast "messages" last then
      (parameter? third).map .bundle
    else none
  | _ => none

/-- The page under a path; `failing` holds further pages by the word after the first slash. -/
def ofPath? (failing : Table Failure) (path : String) : Option Page :=
  match Text.split '/' path.toList with
  | [] :: parts =>
    match ofParts? parts, parts with
    | some page, _ => some page
    | none, [last] =>
      (failing.entries.find? fun (word, _) => isLast word last).map fun (_, f) => .failing f
    | none, _ => none
  | _ => none

end Page

end RequestLocale
