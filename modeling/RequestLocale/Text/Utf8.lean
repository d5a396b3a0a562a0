import RequestLocale.Text.Hex

/-! Bytes and characters. A reader of bytes stops at the first sequence that encodes no character
and says where it stands and what is wrong with it; a lenient reader puts the replacement
character in the place of each such sequence. -/
namespace RequestLocale.Text.Utf8

inductive Fault where
  | startByte
  | continuationByte
  | endOfData
  deriving DecidableEq, Repr

def Fault.message : Fault → String
  | .startByte => "invalid start byte"
  | .continuationByte => "invalid continuation byte"
  | .endOfData => "unexpected end of data"

/-- A sequence that encodes no character, with its place in the bytes. -/
structure Error where
  fault : Fault
  position : Nat
  bytes : List UInt8
  deriving DecidableEq, Repr

def Error.message (e : Error) : String :=
  let place := match e.bytes with
    | [b] => "byte 0x" ++ String.ofList (hexPadded 2 b.toNat) ++ " in position " ++
        toString e.position
    | bs => "bytes in position " ++ toString e.position ++ "-" ++
        toString (e.position + bs.length - 1)
  "'utf-8' codec can't decode " ++ place ++ ": " ++ e.fault.message

/-- What the first byte of a longer sequence promises: its share of the code point, the number of
bytes to come, and the bounds of the next one, which rule out overlong forms and surrogates. -/
structure Lead where
  bits : Nat
  more : Nat
  low : UInt8
  high : UInt8

def lead? (b : UInt8) : Option Lead :=
  let n := b.toNat
  if 0xC2 ≤ n ∧ n ≤ 0xDF then some ⟨n - 0xC0, 1, 0x80, 0xBF⟩
  else if n = 0xE0 then some ⟨0, 2, 0xA0, 0xBF⟩
  else if n = 0xED then some ⟨13, 2, 0x80, 0x9F⟩
  else if 0xE1 ≤ n ∧ n ≤ 0xEF then some ⟨n - 0xE0, 2, 0x80, 0xBF⟩
  else if n = 0xF0 then some ⟨0, 3, 0x90, 0xBF⟩
  else if n = 0xF4 then some ⟨4, 3, 0x80, 0x8F⟩
  else if 0xF1 ≤ n ∧ n ≤ 0xF3 then some ⟨n - 0xF0, 3, 0x80, 0xBF⟩
  else none

/-- Reads the bytes after the first one; `width` counts those that fitted. -/
def continued (code width : Nat) (low high : UInt8) :
    Nat → List UInt8 → Except (Fault × Nat) (Nat × Nat)
  | 0, _ => .ok (code, width)
  | _ + 1, [] => .error (.endOfData, width)
  | more + 1, b :: bs =>
    if low ≤ b ∧ b ≤ high then
      continued (64 * code + b.toNat % 64) (width + 1) 0x80 0xBF more bs
    else .error (.continuationByte, width)

/-- The character at the head of the bytes and the number of bytes after the first that it takes;
on failure the number of bytes after the first that belong to the faulty sequence. -/
def head (b : UInt8) (bs : List UInt8) : Except (Fault × Nat) (Char × Nat) :=
  if b < 0x80 then .ok (Char.ofNat b.toNat, 0)
  else match lead? b with
    | none => .error (.startByte, 0)
    | some lead =>
      (continued lead.bits 0 lead.low lead.high lead.more bs).map fun (code, width) =>
        (Char.ofNat code, width)

def decodeFrom (position : Nat) : List UInt8 → Except Error (List Char)
  | [] => .ok []
  | b :: bs =>
    match head b bs with
    | .error (fault, width) => .error ⟨fault, position, b :: bs.take width⟩
    | .ok (c, width) =>
      (decodeFrom (position + 1 + width) (bs.drop width)).map (c :: ·)
  termination_by bs => bs.length
  decreasing_by simp only [List.length_cons, List.length_drop]; omega

def decode (bs : List UInt8) : Except Error (List Char) := decodeFrom 0 bs

def decodeLenient : List UInt8 → List Char
  | [] => []
  | b :: bs =>
    match head b bs with
    | .error (_, width) => '\uFFFD' :: decodeLenient (bs.drop width)
    | .ok (c, width) => c :: decodeLenient (bs.drop width)
  termination_by bs => bs.length
  decreasing_by all_goals simp only [List.length_cons, List.length_drop]; omega

def encodeChar (c : Char) : List UInt8 :=
  let n := c.toNat
  let tail (k : Nat) : UInt8 := (0x80 + (n >>> (6 * k)) % 64).toUInt8
  if n < 0x80 then [n.toUInt8]
  else if n < 0x800 then [(0xC0 + n / 64).toUInt8, tail 0]
  else if n < 0x10000 then [(0xE0 + n / 4096).toUInt8, tail 1, tail 0]
  else [(0xF0 + n / 262144).toUInt8, tail 2, tail 1, tail 0]

def encode (cs : List Char) : List UInt8 := cs.flatMap encodeChar

end RequestLocale.Text.Utf8
