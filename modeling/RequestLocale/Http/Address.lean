import RequestLocale.Text.DecimalDigit
import RequestLocale.Text.Quoted
import RequestLocale.Text.Split
import RequestLocale.Text.Utf8

/-! Addresses: a host, a path and a query, one after the other. What is read back from an address
need not be what it was made of, since line ends and tabs are left out, and since the first mark
that can end a host or a path ends it. A host is looked at for what stands between brackets, where
only long addresses may stand, and for characters that look like marks. -/
namespace RequestLocale.Http.Address

open Text

/-- Why an address cannot be read back. -/
inductive Fault where
  /-- The query is no text. -/
  | query (e : Utf8.Error)
  /-- The host has a bracket of one kind and none of the other. -/
  | unpairedBracket
  /-- Brackets hold a text that begins like an address of a later version and is none. -/
  | laterVersion
  /-- Brackets hold a short address. -/
  | shortAddress
  /-- Brackets hold no address. -/
  | noAddress (content : List Char)
  /-- The host has a character that looks like a mark. -/
  | likeMark (host : List Char)
  deriving DecidableEq, Repr

def Fault.message : Fault → String
  | .query e => e.message
  | .unpairedBracket => "Invalid IPv6 URL"
  | .laterVersion => "IPvFuture address is invalid"
  | .shortAddress => "An IPv4 address cannot be in brackets"
  | .noAddress content =>
    String.ofList (quoted content) ++ " does not appear to be an IPv4 or IPv6 address"
  | .likeMark host =>
    "netloc '" ++ String.ofList host ++ "' contains invalid characters under NFKC normalization"

/-- The characters of an address that is made of a text. -/
def chars (cs : List Char) : List Char := cs.filter fun c => !"\t\r\n".toList.contains c

def endsHost (c : Char) : Bool := c == '/' || c == '?' || c == '#'

def endsPath (c : Char) : Bool := c == '?' || c == '#'

/-! ## What stands between brackets -/

/-- One of the four numbers in a short address, without zeros in front. -/
def isOctet (cs : List Char) : Bool :=
  cs.all Char.isDigit && !cs.isEmpty && decide (cs.length ≤ 3) &&
    (cs == ['0'] || cs.head? != some '0') &&
    decide (ofDigitValues (cs.filterMap digitValue?) ≤ 255)

/-- Four numbers between points. -/
def isShort (cs : List Char) : Bool :=
  (split '.' cs).length == 4 && (split '.' cs).all isOctet

/-- One of the eight groups in a long address. -/
def isGroup (cs : List Char) : Bool :=
  cs.all (fun c => (hexValue? c).isSome) && !cs.isEmpty && decide (cs.length ≤ 4)

/-- The parts between colons, where a short address at the end stands for two groups. -/
def parts? (cs : List Char) : Option (List (List Char)) :=
  let parts := split ':' cs
  let last := parts.getLast?.getD []
  if !last.contains '.' then some parts
  else if isShort last then some (parts.dropLast ++ [['0'], ['0']])
  else none

/-- The groups on one side of a gap, where there may be none. -/
def besideGap (parts : List (List Char)) : List (List Char) := if parts = [[]] then [] else parts

/-- Eight groups between colons, or fewer with one gap for those that are left out. -/
def hasGroups (parts : List (List Char)) : Bool :=
  let inner := parts.tail.dropLast
  if inner.contains [] then
    let gap := inner.idxOf [] + 1
    let groups := besideGap (parts.take gap) ++ besideGap (parts.drop (gap + 1))
    groups.all isGroup && decide (groups.length < 8)
  else parts.all isGroup && parts.length == 8

/-- A long address, to which a zone may be added behind a percent sign. -/
def isLong (cs : List Char) : Bool :=
  let (groups, zone?) := match cut? '%' cs with
    | some (groups, zone) => (groups, some zone)
    | none => (cs, none)
  (zone?.all fun zone => !zone.isEmpty && !zone.contains '%') && (parts? groups).any hasGroups

/-- An address of a later version, with the number of the version in front of a point. -/
def isLater (cs : List Char) : Bool :=
  match cut? '.' cs.tail with
  | some (version, address) =>
    version.all (fun c => (hexValue? c).isSome) && !version.isEmpty && !address.isEmpty
  | none => false

/-- What is wrong with a text between brackets. -/
def contentFault? (cs : List Char) : Option Fault :=
  if cs.head? = some 'v' then if isLater cs then none else some .laterVersion
  else if isShort cs then some .shortAddress
  else if isLong cs then none
  else some (.noAddress cs)

/-! ## The host -/

/-- The characters that stand for a mark or for several characters with a mark among them. -/
def marksAlike : List Char :=
  [0x2047, 0x2048, 0x2049, 0x2100, 0x2101, 0x2105, 0x2106, 0x2A74, 0xFE13, 0xFE16, 0xFE55, 0xFE56,
   0xFE5F, 0xFE6B, 0xFF03, 0xFF0F, 0xFF1A, 0xFF1F, 0xFF20].map Char.ofNat

/-- What stands between the first bracket that opens and the next one that closes. -/
def bracketed (host : List Char) : List Char :=
  (cut ']' ((cut? '[' host).elim [] (·.2))).1

/-- What is wrong with the brackets of a host. -/
def bracketFault? (host : List Char) : Option Fault :=
  if host.contains '[' != host.contains ']' then some .unpairedBracket
  else if host.contains '[' then contentFault? (bracketed host)
  else none

/-- What is wrong with a host. -/
def hostFault? (host : List Char) : Option Fault :=
  (bracketFault? host).or
    (if host.any marksAlike.contains then some (.likeMark host) else none)

/-- The path of an address from its host on. -/
def path? (cs : List Char) : Except Fault (List Char) :=
  match hostFault? (cs.takeWhile (!endsHost ·)) with
  | some fault => .error fault
  | none => .ok ((cs.dropWhile (!endsHost ·)).takeWhile (!endsPath ·))

/-- A long address may stand between brackets, but no short one and no name. -/
example : hostFault? "[::1]:8000".toList = none ∧
    hostFault? "[10.0.0.1]".toList = some .shortAddress ∧
    hostFault? "[x]".toList = some (.noAddress ['x']) := by decide +kernel

end RequestLocale.Http.Address
