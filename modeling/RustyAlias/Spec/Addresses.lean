import RustyAlias.Model.IpParser
import RustyAlias.ToMathlib.ListSearch

/-! # The notations of addresses

Which addresses a name spells, as a plain function of the octets of its labels. A label spells an
IPv4 address by eight hexadecimal digits, or between hyphens by four decimal octets in a row or by
eight hexadecimal digits; four labels in a row spell one by their decimal octets. It spells an IPv6
address when it is one with hyphens for colons.
-/

namespace RustyAlias

open Rust

/-- Two hexadecimal digits. -/
def hexOctet (high low : UInt8) : Option UInt8 := do return UInt8.ofNat ((← toDigit 16 high) * 16 + (← toDigit 16 low))

/-- Eight hexadecimal digits. -/
def hexQuad : Bytes → Option Ipv4Addr
  | [a, b, c, d, e, f, g, h] => do return ⟨← hexOctet a b, ← hexOctet c d, ← hexOctet e f, ← hexOctet g h⟩
  | _ => none

/-- Four decimal octets. -/
def decimalQuad : List Bytes → Option Ipv4Addr
  | [w, x, y, z] => do
    return ⟨← Ipv4Addr.decimalOctet w, ← Ipv4Addr.decimalOctet x, ← Ipv4Addr.decimalOctet y, ← Ipv4Addr.decimalOctet z⟩
  | _ => none

/-- The first four consecutive pieces that are decimal octets. -/
def firstQuad (pieces : List Bytes) : Option Ipv4Addr := pieces.firstWindow 4 decimalQuad

/-- The IPv4 address that a label spells. -/
def spelledIpv4 (label : Bytes) : Option Ipv4Addr :=
  (hexQuad label).or ((firstQuad (label.splitOn hyphen.1)).or ((label.splitOn hyphen.1).findSome? hexQuad))

/-- A hyphen stands for a colon. -/
def withColons (label : Bytes) : Bytes := label.map fun b => if b = hyphen.1 then colon.1 else b

/-- `Ipv6Addr::from_str` on octets. -/
def ipv6OfText (text : Bytes) : Option Ipv6Addr :=
  match Ipv6Addr.splitDoubleColon text with
  | none => if text = [] then none else (Ipv6Addr.groups true text).bind Ipv6Addr.ofSegments
  | some (front, back) => do
    let head ← Ipv6Addr.groups false front
    let tail ← Ipv6Addr.groups true back
    if head.length + tail.length ≤ 7 then
      Ipv6Addr.ofSegments (head ++ List.replicate (8 - head.length - tail.length) 0 ++ tail)
    else none

/-- The IPv6 address that a label spells. -/
def spelledIpv6 (label : Bytes) : Option Ipv6Addr := if hyphen.1 ∈ label then ipv6OfText (withColons label) else none

/-- The addresses that the labels of a name spell; dotted labels count when no label spells an IPv4 address. -/
def spelled (labels : List Bytes) : Option (Option Ipv4Addr × Option Ipv6Addr) :=
  let ipv4 := (labels.findSome? spelledIpv4).or (firstQuad labels)
  let ipv6 := labels.findSome? spelledIpv6
  if ipv4.isNone && ipv6.isNone then none else some (ipv4, ipv6)

end RustyAlias
