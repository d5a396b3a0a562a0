import RequestLocale.Http.Header
import RequestLocale.Http.Percent
import RequestLocale.Number.Numeral
import RequestLocale.Text.Blank
import RequestLocale.Text.LowerCase
import RequestLocale.Text.Quoted
import RequestLocale.Text.Split

/-! Cookies: reading those of a request and writing those of a response. A written value is in
percent coding, so that any text fits into a header and is read back unchanged. -/
namespace RequestLocale.Http.Cookie

open Text

def isOctal (c : Char) : Bool := '0' ≤ c && c ≤ '7'

/-- Takes the escapes out of a quoted value: a backslash with three octal digits is the character
of that number, with any other character but a line end it is that character. -/
def unescape : List Char → List Char
  | [] => []
  | [c] => [c]
  | '\\' :: a :: b :: c :: cs =>
    if '0' ≤ a ∧ a ≤ '3' ∧ isOctal b ∧ isOctal c then
      Char.ofNat (((a.toNat - 48) * 8 + (b.toNat - 48)) * 8 + (c.toNat - 48)) :: unescape cs
    else if a = '\n' then '\\' :: unescape (a :: b :: c :: cs)
    else a :: unescape (b :: c :: cs)
  | '\\' :: a :: cs => if a = '\n' then '\\' :: unescape (a :: cs) else a :: unescape cs
  | c :: cs => c :: unescape cs

/-- The value between quotes, with its escapes taken out; any other value is itself. -/
def unquote (cs : List Char) : List Char :=
  match cs with
  | '"' :: body => if body.getLast? = some '"' then unescape body.dropLast else cs
  | cs => cs

/-- One part of a cookie header. Without an equals sign all of it is the value. -/
def part? (cs : List Char) : Option (List Char × List Char) :=
  let (name, value) := (cut? '=' cs).getD ([], cs)
  let name := trim name
  let value := trim value
  if name.isEmpty && value.isEmpty then none else some (name, unquote value)

/-- The cookies in one header, in order. -/
def parse (header : String) : List (List Char × List Char) :=
  (split ';' header.toList).filterMap part?

/-- The value of a cookie as it was sent: the last one of all headers with cookies. -/
def raw? (headers : Headers) (name : String) : Option (List Char) :=
  (((headers.all "cookie").flatMap parse).filter (·.1 == name.toList)).getLast?.map (·.2)

/-- The value of a cookie, its percent coding taken off. -/
def value? (headers : Headers) (name : String) : Option String :=
  (raw? headers name).map fun cs => String.ofList (Percent.decode cs)

/-- Why a name is no name of a cookie. -/
inductive Error where
  | reserved (name : String)
  | illegal (name : String)
  deriving DecidableEq, Repr

def Error.message : Error → String
  | .reserved name => "Attempt to set a reserved key " ++ String.ofList (quoted name.toList)
  | .illegal name => "Illegal key " ++ String.ofList (quoted name.toList)

/-- The names of the attributes of cookies, which no cookie may have. -/
def reservedNames : List String :=
  ["expires", "path", "comment", "domain", "max-age", "secure", "httponly", "version", "samesite"]

def isNameChar (c : Char) : Bool :=
  ('a' ≤ c && c ≤ 'z') || ('A' ≤ c && c ≤ 'Z') || ('0' ≤ c && c ≤ '9') ||
    "!#$%&\x27*+-.^_\x60|~:".toList.contains c

def checkName (name : String) : Except Error Unit :=
  if reservedNames.contains (lowered name) then .error (.reserved name)
  else if name.isEmpty || !name.toList.all isNameChar then .error (.illegal name)
  else .ok ()

/-- A cookie that is to be written. -/
structure Write where
  name : String
  value : String
  maxAge : Int
  httpOnly : Bool
  deriving DecidableEq, Repr

/-- Name and value; an empty value is a pair of quotes. -/
def Write.pair (w : Write) : List Char :=
  let value := Percent.encode w.value.toList
  w.name.toList ++ '=' :: if value.isEmpty then ['"', '"'] else value

/-- The attributes in the order of their names. -/
def Write.attributes (w : Write) : String :=
  (if w.httpOnly then "; HttpOnly" else "") ++ "; Max-Age=" ++ toString w.maxAge ++
    "; Path=/; SameSite=lax"

/-- The text of the header that writes a cookie. -/
def Write.text (w : Write) : String := String.ofList w.pair ++ w.attributes

/-- Why a cookie cannot be written. -/
inductive WriteError where
  | name (e : Error)
  /-- The life of the cookie is a whole number with too many digits. -/
  | digits
  deriving DecidableEq, Repr

def WriteError.message : WriteError → String
  | .name e => e.message
  | .digits => Numeral.digitLimitMessage

/-- The name is looked at first, and the life when it is written. -/
def Write.check (w : Write) : Except WriteError Unit :=
  match checkName w.name with
  | .error e => .error (.name e)
  | .ok () => if Numeral.exceedsDigitLimit w.maxAge then .error .digits else .ok ()

def Write.text? (w : Write) : Except WriteError String := w.check.map fun _ => w.text

theorem Write.check_eq_ok_iff {w : Write} :
    w.check = .ok () ↔ checkName w.name = .ok () ∧ Numeral.exceedsDigitLimit w.maxAge = false := by
  unfold check
  cases checkName w.name with
  | error e => simp
  | ok _ => cases Numeral.exceedsDigitLimit w.maxAge <;> simp

/-- A life of few digits leaves nothing to refuse but the name. -/
theorem Write.check_of_short {w : Write} (h : Numeral.exceedsDigitLimit w.maxAge = false) :
    w.check = (checkName w.name).mapError .name := by
  rw [check, h]
  cases checkName w.name <;> rfl

end RequestLocale.Http.Cookie
