import RequestLocale.Text.Utf8

/-! Percent coding: a byte as a percent sign and two hexadecimal digits. A text is coded through
its bytes. Reading takes each run of plain characters on its own, puts the replacement character
for bytes that spell no character, and leaves a percent sign alone that no two digits follow. -/
namespace RequestLocale.Http.Percent

open Text

/-- Bytes that stand for themselves: plain letters and digits, and four marks. -/
def isPlain (b : UInt8) : Bool :=
  (48 ≤ b && b ≤ 57) || (65 ≤ b && b ≤ 90) || (97 ≤ b && b ≤ 122) ||
    b == 45 || b == 46 || b == 95 || b == 126

/-- One byte, which stands for itself if it is plain or one of some further marks. -/
def encodeByte (marks : List Char) (b : UInt8) : List Char :=
  if isPlain b || marks.contains (Char.ofNat b.toNat) then [Char.ofNat b.toNat]
  else ['%', hexDigitUpper (b.toNat / 16), hexDigitUpper b.toNat]

/-- Codes a text; `marks` are characters below 128 that stand for themselves. -/
def encodeKeeping (marks : List Char) (cs : List Char) : List Char :=
  (Utf8.encode cs).flatMap (encodeByte marks)

def encode (cs : List Char) : List Char := encodeKeeping [] cs

/-- The bytes of a run of plain characters. -/
def bytes : List Char → List UInt8
  | [] => []
  | [c] => [c.toNat.toUInt8]
  | [c, d] => [c.toNat.toUInt8, d.toNat.toUInt8]
  | c :: d :: e :: cs =>
    match hexValue? d, hexValue? e with
    | some high, some low =>
      if c = '%' then (16 * high + low).toUInt8 :: bytes cs
      else c.toNat.toUInt8 :: bytes (d :: e :: cs)
    | _, _ => c.toNat.toUInt8 :: bytes (d :: e :: cs)

def isAscii (c : Char) : Bool := c.toNat < 128

/-- Reads text whose plain characters up to here are in `run`, last one first. -/
def decodeFrom (run : List Char) : List Char → List Char
  | [] => Utf8.decodeLenient (bytes run.reverse)
  | c :: cs =>
    if isAscii c then decodeFrom (c :: run) cs
    else Utf8.decodeLenient (bytes run.reverse) ++ c :: decodeFrom [] cs

def decode (cs : List Char) : List Char := decodeFrom [] cs

end RequestLocale.Http.Percent
