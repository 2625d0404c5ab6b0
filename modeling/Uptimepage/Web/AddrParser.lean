import Uptimepage.Targets.Check

/-!
# Addresses in text

`IpAddr::from_str` of the standard library: a reader takes what it can off the front of a text,
and an address is what is read when nothing is left.
-/

namespace Uptimepage.Web

open Targets (IpAddr)

/-- What was read and what is left, if it could be read. -/
abbrev Reader (α : Type) := List Char → Option (α × List Char)

def digitValue (c : Char) : Nat :=
  if c.isDigit then c.toNat - 48
  else if 'a' ≤ c ∧ c ≤ 'f' then c.toNat - 87
  else if 'A' ≤ c ∧ c ≤ 'F' then c.toNat - 55
  else 36

/-- A run of one to `maxDigits` digits whose value is below `bound`. -/
def readNumber (radix maxDigits bound : Nat) (allowZeroPrefix : Bool) : Reader Nat := fun s =>
  let digits := s.takeWhile fun c => digitValue c < radix
  let value := digits.foldl (fun n c => n * radix + digitValue c) 0
  if digits.isEmpty || maxDigits < digits.length then none
  else if !allowZeroPrefix && digits.head? == some '0' && 1 < digits.length then none
  else if value < bound then some (value, s.drop digits.length)
  else none

/-- A separator stands before every item but the first. -/
def readSeparator {α : Type} (sep : Char) (index : Nat) (inner : Reader α) : Reader α := fun s =>
  if index = 0 then inner s
  else
    match s with
    | c :: rest => if c = sep then inner rest else none
    | [] => none

def readOctets : Nat → Nat → Reader (List Nat)
  | 0, _, s => some ([], s)
  | n + 1, i, s => do
    let (octet, rest) ← readSeparator '.' i (readNumber 10 3 256 false) s
    let (octets, rest) ← readOctets n (i + 1) rest
    return (octet :: octets, rest)

def readIpv4Addr : Reader (List Nat) := readOctets 4 0

/-- The groups read, and whether the last two of them were an IPv4 address. -/
def readGroups (limit : Nat) : Nat → Nat → List Char → List Nat × Bool × List Char
  | 0, _, s => ([], false, s)
  | n + 1, i, s =>
    match if i + 1 < limit then readSeparator ':' i readIpv4Addr s else none with
    | some ([a, b, c, d], rest) => ([a * 256 + b, c * 256 + d], true, rest)
    | _ =>
      match readSeparator ':' i (readNumber 16 4 65536 true) s with
      | some (group, rest) =>
        let (groups, ipv4, rest) := readGroups limit n (i + 1) rest
        (group :: groups, ipv4, rest)
      | none => ([], false, s)

def readIpv6Addr : Reader (List Nat) := fun s =>
  let (head, headIpv4, rest) := readGroups 8 8 0 s
  if head.length = 8 then some (head, rest)
  -- an IPv4 part is not allowed before `::`
  else if headIpv4 then none
  else
    match rest with
    | ':' :: ':' :: rest =>
      let limit := 8 - (head.length + 1)
      let (tail, _, rest) := readGroups limit limit 0 rest
      some (head ++ List.replicate (8 - head.length - tail.length) 0 ++ tail, rest)
    | _ => none

def ofOctets : List Nat → Option IpAddr
  | [a, b, c, d] => some (.v4 (.ofNat a) (.ofNat b) (.ofNat c) (.ofNat d))
  | _ => none

def ofSegments : List Nat → Option IpAddr
  | [a, b, c, d, e, f, g, h] =>
    some (.v6 (.ofNat a) (.ofNat b) (.ofNat c) (.ofNat d) (.ofNat e) (.ofNat f) (.ofNat g)
      (.ofNat h))
  | _ => none

/-- `str::parse::<IpAddr>().ok()`. -/
def parseIpAddr (s : List Char) : Option IpAddr :=
  match readIpv4Addr s with
  | some (octets, rest) => if rest.isEmpty then ofOctets octets else none
  | none =>
    match readIpv6Addr s with
    | some (segments, rest) => if rest.isEmpty then ofSegments segments else none
    | none => none

/-- The IPv4 address that an IPv4-mapped one stands for. -/
def toCanonical : IpAddr → IpAddr
  | .v4 a b c d => .v4 a b c d
  | .v6 s0 s1 s2 s3 s4 s5 s6 s7 =>
    if s0 == 0 && s1 == 0 && s2 == 0 && s3 == 0 && s4 == 0 && s5 == 0xffff then
      .v4 (s6 >>> 8).toUInt8 s6.toUInt8 (s7 >>> 8).toUInt8 s7.toUInt8
    else .v6 s0 s1 s2 s3 s4 s5 s6 s7

example : parseIpAddr "2001:db8::192.0.2.1".toList =
    some (.v6 0x2001 0xdb8 0 0 0 0 0xc000 0x201) := by decide

end Uptimepage.Web
