/-! Bytes as text to the base 64. Characters outside the alphabet are passed over; padding counts
where it completes a group of four, and ends the text there. -/
namespace RequestLocale.Yaml.Base64

def digit? (c : Char) : Option Nat :=
  if 'A' ≤ c ∧ c ≤ 'Z' then some (c.toNat - 65)
  else if 'a' ≤ c ∧ c ≤ 'z' then some (c.toNat - 71)
  else if '0' ≤ c ∧ c ≤ '9' then some (c.toNat + 4)
  else if c = '+' then some 62
  else if c = '/' then some 63
  else none

/-- `place` is the number of digits read of the current group, `left` what the last of them leaves
for the next byte, `pads` the padding since the last digit. -/
def decodeFrom (place left pads : Nat) : List Char → Option (List UInt8)
  | [] => if place = 0 then some [] else none
  | c :: cs =>
    if c = '=' then
      if 2 ≤ place then
        if 4 ≤ place + pads + 1 then some [] else decodeFrom place left (pads + 1) cs
      else decodeFrom place left pads cs
    else match digit? c with
      | none => decodeFrom place left pads cs
      | some d =>
        let byte (n : Nat) (bytes : List UInt8) := n.toUInt8 :: bytes
        match place with
        | 0 => decodeFrom 1 d 0 cs
        | 1 => (decodeFrom 2 (d % 16) 0 cs).map (byte (left * 4 + d / 16))
        | 2 => (decodeFrom 3 (d % 4) 0 cs).map (byte (left * 16 + d / 4))
        | _ => (decodeFrom 0 0 0 cs).map (byte (left * 64 + d))

/-- The bytes of a text, which must be plain characters that end with a full group. -/
def decode? (cs : List Char) : Option (List UInt8) :=
  if cs.all (·.toNat < 128) then decodeFrom 0 0 0 cs else none

end RequestLocale.Yaml.Base64
