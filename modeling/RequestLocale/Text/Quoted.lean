import RequestLocale.Text.Hex
import RequestLocale.Text.Printable

/-! Quoted text, as values are shown inside a list or an error message. The quotes are single
unless the text has single quotes and no double ones. Backslashes and the quotes in use are
escaped, line ends and tabs get their letter, and other characters that do not print are given by
number. -/
namespace RequestLocale.Text

/-- The quotes for a text whose characters are tested by `holds`. -/
def quoteFor (holds : Char → Bool) : Char :=
  if holds '\x27' && !holds '"' then '"' else '\x27'

/-- The shortest of the three numbered escapes that has room for the character. -/
def numbered (c : Char) : List Char :=
  if c.toNat < 0x100 then '\\' :: 'x' :: hexPadded 2 c.toNat
  else if c.toNat < 0x10000 then '\\' :: 'u' :: hexPadded 4 c.toNat
  else '\\' :: 'U' :: hexPadded 8 c.toNat

def quotedChar (quote c : Char) : List Char :=
  if c = quote ∨ c = '\\' then ['\\', c]
  else if c = '\n' then ['\\', 'n']
  else if c = '\r' then ['\\', 'r']
  else if c = '\t' then ['\\', 't']
  else if isPrintable c then [c]
  else numbered c

def quoted (cs : List Char) : List Char :=
  let quote := quoteFor cs.contains
  quote :: cs.flatMap (quotedChar quote) ++ [quote]

/-- Bytes are shown as the characters of the same number, all beyond the plain ones by number;
`escaped` is the quote that gets a backslash. -/
def quotedByte (escaped : Char) (b : UInt8) : List Char :=
  if b < 128 then quotedChar escaped (Char.ofNat b.toNat)
  else '\\' :: 'x' :: hexPadded 2 b.toNat

/-- Quoted bytes. In mutable ones the single quotes are escaped even where the quotes are double. -/
def quotedBytes (mutable : Bool) (bs : List UInt8) : List Char :=
  let quote := quoteFor fun c => bs.any fun b => b.toNat == c.toNat
  'b' :: quote :: bs.flatMap (quotedByte (if mutable then '\x27' else quote)) ++ [quote]

end RequestLocale.Text
