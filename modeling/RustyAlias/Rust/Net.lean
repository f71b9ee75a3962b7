import RustyAlias.Rust.Str

/-! # Numbers and addresses as text

`std`'s parsers of `u8`, `Ipv4Addr` and `Ipv6Addr` by their documented grammars. An integer may
carry a leading `+` and leading zeros; a decimal octet of a dotted quad may not. An IPv6 address is
eight groups of one to four hexadecimal digits, one `::` standing for at least one zero group, and
a dotted quad may stand for its last two groups.
-/

namespace Rust

/-- `char::to_digit`, on the octet of an ASCII character. -/
def toDigit (radix : ℕ) (b : UInt8) : Option ℕ :=
  let value := if 48 ≤ b ∧ b ≤ 57 then some (b.toNat - 48)
    else if 97 ≤ b ∧ b ≤ 122 then some (b.toNat - 87)
    else if 65 ≤ b ∧ b ≤ 90 then some (b.toNat - 55)
    else none
  value.filter (· < radix)

/-- The number that a string of digits denotes. -/
def digitsValue (radix : ℕ) (digits : Bytes) : Option ℕ :=
  digits.foldlM (fun value b => (toDigit radix b).map (value * radix + ·)) 0

/-- `u8::from_str_radix`, without its error. -/
def u8FromStrRadix (s : Bytes) (radix : ℕ) : Option UInt8 :=
  let digits := if s.head? = some 43 then s.tail else s
  if digits = [] then none
  else (digitsValue radix digits).bind fun n => if n ≤ 255 then some (UInt8.ofNat n) else none

/-- `str::parse::<u8>`, without its error. -/
def parseU8 (s : Str) : Option UInt8 := u8FromStrRadix s.bytes 10

/-- `char::is_ascii_hexdigit`. -/
def isAsciiHexdigit (b : UInt8) : Bool := (toDigit 16 b).isSome

structure Ipv4Addr where
  a : UInt8
  b : UInt8
  c : UInt8
  d : UInt8
deriving DecidableEq, Repr

namespace Ipv4Addr

def octets (ip : Ipv4Addr) : Bytes := [ip.a, ip.b, ip.c, ip.d]

@[simp] theorem octets_length (ip : Ipv4Addr) : ip.octets.length = 4 := rfl

/-- One to three digits, without a leading zero. -/
def decimalOctet (s : Bytes) : Option UInt8 :=
  if s = [] ∨ 3 < s.length ∨ (s.head? = some 48 ∧ 1 < s.length) then none
  else (digitsValue 10 s).bind fun n => if n ≤ 255 then some (UInt8.ofNat n) else none

def parseOctets (s : Bytes) : Option Ipv4Addr :=
  match s.splitOn dot.1 with
  | [w, x, y, z] => do return ⟨← decimalOctet w, ← decimalOctet x, ← decimalOctet y, ← decimalOctet z⟩
  | _ => none

/-- `Ipv4Addr::from_str`, without its error. -/
def fromStr (s : Str) : Option Ipv4Addr := parseOctets s.bytes

end Ipv4Addr

/-- Eight groups of sixteen bits. -/
structure Ipv6Addr where
  segments : List UInt16
  length_eq : segments.length = 8
deriving DecidableEq

namespace Ipv6Addr

def octets (ip : Ipv6Addr) : Bytes := ip.segments.flatMap be16

@[simp] theorem octets_length (ip : Ipv6Addr) : ip.octets.length = 16 := by
  simp [octets, List.length_flatMap, ip.length_eq]

def hexGroup (s : Bytes) : Option UInt16 :=
  if s = [] ∨ 4 < s.length then none else (digitsValue 16 s).map UInt16.ofNat

/-- Groups between single colons; with `quad`, the last may be a dotted quad. -/
def groups (quad : Bool) (text : Bytes) : Option (List UInt16) :=
  if text = [] then some []
  else
    let pieces := text.splitOn colon.1
    match pieces.mapM hexGroup with
    | some segments => some segments
    | none =>
      if quad then do
        let front ← pieces.dropLast.mapM hexGroup
        let ip ← (pieces.getLast?).bind Ipv4Addr.parseOctets
        return front ++ [fromBe16 ip.a ip.b, fromBe16 ip.c ip.d]
      else none

/-- The texts before and after the first `::`. -/
def splitDoubleColon : Bytes → Option (Bytes × Bytes)
  | a :: b :: rest =>
    if a = colon.1 ∧ b = colon.1 then some ([], rest)
    else (splitDoubleColon (b :: rest)).map fun (front, back) => (a :: front, back)
  | _ => none

def ofSegments (segments : List UInt16) : Option Ipv6Addr :=
  if eight : segments.length = 8 then some ⟨segments, eight⟩ else none

/-- `Ipv6Addr::from_str`, without its error. -/
def fromStr (s : Str) : Option Ipv6Addr :=
  match splitDoubleColon s.bytes with
  | none => if s.isEmpty then none else (groups true s.bytes).bind ofSegments
  | some (front, back) => do
    let head ← groups false front
    let tail ← groups true back
    if head.length + tail.length ≤ 7 then
      ofSegments (head ++ List.replicate (8 - head.length - tail.length) 0 ++ tail)
    else none

example : (fromStr (.ofString "2a04:4e42:200::201")).map (·.segments) =
    some [0x2a04, 0x4e42, 0x200, 0, 0, 0, 0, 0x201] := by decide +kernel

end Ipv6Addr

end Rust
