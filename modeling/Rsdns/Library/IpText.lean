import Mathlib.Data.BitVec
import Rsdns.Library.Text

/-!
# IP addresses in text

The standard library's parser.  Each reader returns what it read and the rest
of the text, or fails without reading; an address is read in full when nothing
is left.
-/

namespace IpText

def readGivenChar (target : Char) : Text → Option Text
  | [] => none
  | char :: rest => if char = target then some rest else none

def toDigit (radix : Nat) (char : Char) : Option Nat :=
  let digit :=
    if '0' ≤ char ∧ char ≤ '9' then some (char.toNat - '0'.toNat)
    else if 'a' ≤ char ∧ char ≤ 'z' then some (char.toNat - 'a'.toNat + 10)
    else if 'A' ≤ char ∧ char ≤ 'Z' then some (char.toNat - 'A'.toNat + 10)
    else none
  digit.filter (· < radix)

def readDigits (radix : Nat) : Text → List Nat × Text
  | [] => ([], [])
  | char :: rest =>
      match toDigit radix char with
      | some digit => (digit :: (readDigits radix rest).1, (readDigits radix rest).2)
      | none => ([], char :: rest)

def readNumber (radix maxDigits : Nat) (allowZeroPrefix : Bool) (bound : Nat)
    (text : Text) : Option (Nat × Text) :=
  let (digits, rest) := readDigits radix text
  let hasLeadingZero := text.head? = some '0'
  let result := digits.foldl (fun number digit => number * radix + digit) 0
  if digits.length > maxDigits then none
  else if digits.length = 0 then none
  else if !allowZeroPrefix ∧ hasLeadingZero ∧ digits.length > 1 then none
  else if result < bound then some (result, rest)
  else none

/-- Read a separator before every element but the first. -/
def readSeparator {α : Type} (separator : Char) (index : Nat)
    (inner : Text → Option (α × Text)) (text : Text) : Option (α × Text) :=
  if index > 0 then (readGivenChar separator text).bind inner else inner text

def readOctets : Nat → Nat → Text → Option (List Nat × Text)
  | 0, _, text => some ([], text)
  | missing + 1, index, text => do
      let (octet, rest) ← readSeparator '.' index (readNumber 10 3 false 256) text
      let (octets, rest) ← readOctets missing (index + 1) rest
      return (octet :: octets, rest)

/-- The number whose big-endian digits to the base `2 ^ width` are `groups`. -/
def ofGroups (width : Nat) (groups : List Nat) : Nat :=
  groups.foldl (fun number group => number * 2 ^ width + group) 0

def readIpv4Addr (text : Text) : Option (BitVec 32 × Text) :=
  (readOctets 4 0 text).map fun (octets, rest) => (BitVec.ofNat 32 (ofGroups 8 octets), rest)

/-- Read up to so many groups, the last two of which may be an embedded IPv4
address; the flag says whether they are. -/
def readGroups : Nat → Nat → Text → List Nat × Bool × Text
  | 0, _, text => ([], false, text)
  | missing + 1, index, text =>
      let ipv4 := if missing > 0 then readSeparator ':' index readIpv4Addr text else none
      match ipv4 with
      | some (address, rest) => ([address.toNat / 2 ^ 16, address.toNat % 2 ^ 16], true, rest)
      | none =>
          match readSeparator ':' index (readNumber 16 4 true (2 ^ 16)) text with
          | some (group, rest) =>
              let (groups, embedded, rest) := readGroups missing (index + 1) rest
              (group :: groups, embedded, rest)
          | none => ([], false, text)

/-- An IPv6 address: eight groups, or fewer around one `::`. -/
def readIpv6Addr (text : Text) : Option (BitVec 128 × Text) :=
  let (head, headIpv4, rest) := readGroups 8 0 text
  if head.length = 8 then some (BitVec.ofNat 128 (ofGroups 16 head), rest)
  else if headIpv4 then none
  else do
    let rest ← readGivenChar ':' rest
    let rest ← readGivenChar ':' rest
    let (tail, _, rest) := readGroups (8 - (head.length + 1)) 0 rest
    let zeros := List.replicate (8 - head.length - tail.length) 0
    return (BitVec.ofNat 128 (ofGroups 16 (head ++ zeros ++ tail)), rest)

/-- What `reader` reads, if it reads the whole text. -/
def parseWith {α : Type} (reader : Text → Option (α × Text)) (text : Text) : Option α :=
  match reader text with
  | some (value, []) => some value
  | _ => none

/-- The text of an IPv4 address is at most 15 bytes long. -/
def parseIpv4Addr (text : Text) : Option (BitVec 32) :=
  if text.byteLen > 15 then none else parseWith readIpv4Addr text

def parseIpv6Addr (text : Text) : Option (BitVec 128) := parseWith readIpv6Addr text

end IpText
