import RustyAlias.Rust.Net

/-! # Addresses in names

`ip_parser.rs`: the IPv4 and IPv6 addresses that the labels of a name spell. A loop that returns
from its body is a search in the order of the source.
-/

namespace RustyAlias

open Rust

/-- The loop of `parse_hexadecimal_ip`, over the indices still to be read. -/
def parseHexadecimalIpLoop (s : Str) : List ℕ → Bytes → Outcome (Option Bytes)
  | [], octets => pure (some octets)
  | i :: rest, octets => do
    let start ← umul 2 i
    let hexStr ← s.slice start (← uadd start 2)
    match u8FromStrRadix hexStr.bytes 16 with
    | none => pure none
    | some octet => parseHexadecimalIpLoop s rest (octets ++ [octet])

def parseHexadecimalIp (s : Str) : Outcome (Option Ipv4Addr) :=
  if s.len ≠ 8 then pure none
  else if !s.bytes.all isAsciiHexdigit then pure none
  else do
    match ← parseHexadecimalIpLoop s (List.range 4) [] with
    | some [a, b, c, d] => pure (some ⟨a, b, c, d⟩)
    | _ => pure none

/-- Every part is a decimal `u8`. -/
def allU8 (parts : List Str) : Bool := parts.all fun p => (parseU8 p).isSome

def parseHyphenatedIp (s : Str) : Outcome (Option Ipv4Addr) := do
  let parts := s.split hyphen
  let window ←
    if parts.length = 4 ∧ allU8 parts = true then pure (Ipv4Addr.fromStr (Str.join dot parts))
    else if 4 < parts.length then do
      (List.range ((← usub parts.length 4) + 1)).findSomeM? fun i => do
        let four ← slice parts i (← uadd i 4)
        pure (if allU8 four then Ipv4Addr.fromStr (Str.join dot four) else none)
    else pure none
  match window with
  | some ip => pure (some ip)
  | none => (parts.filter fun p => p.len == 8).findSomeM? parseHexadecimalIp

/-- At least one hyphen is required, so plain labels are not treated as IPv6. -/
def parseHyphenatedIpv6 (s : Str) : Option Ipv6Addr :=
  if !s.contains hyphen then none
  else
    let s := s.replace hyphen [hyphen] (.ofString "::")
    let s := s.replace hyphen [] (.ofString ":")
    Ipv6Addr.fromStr s

def parseLabelIpv4 (label : Str) : Outcome (Option Ipv4Addr) := do
  let whole ← if label.len = 8 then parseHexadecimalIp label else pure none
  match whole with
  | some ip => pure (some ip)
  | none => parseHyphenatedIp label

def parseDottedIpv4 (parts : List Str) : Outcome (Option Ipv4Addr) :=
  if parts.length < 4 then pure none
  else do
    (List.range ((← usub parts.length 4) + 1)).findSomeM? fun i => do
      let potentialIp := Str.join dot (← slice parts i (← uadd i 4))
      pure (Ipv4Addr.fromStr potentialIp)

/-- The `for` loop of `interpret_ip`, with its two accumulators and its early `break`. -/
def interpretIpLoop : List Str → Option Ipv4Addr → Option Ipv6Addr → Outcome (Option Ipv4Addr × Option Ipv6Addr)
  | [], ipv4, ipv6 => pure (ipv4, ipv6)
  | part :: rest, ipv4, ipv6 => do
    let ipv4 ← if ipv4.isNone then parseLabelIpv4 part else pure ipv4
    let ipv6 := if ipv6.isNone then parseHyphenatedIpv6 part else ipv6
    if ipv4.isSome && ipv6.isSome then pure (ipv4, ipv6)
    else interpretIpLoop rest ipv4 ipv6

/-- Extract at most one IPv4 and one IPv6 from DNS labels in `domain`. -/
def interpretIp (domain : Str) : Outcome (Option (Option Ipv4Addr × Option Ipv6Addr)) := do
  let parts := domain.split dot
  let (ipv4, ipv6) ← interpretIpLoop parts none none
  let ipv4 ← if ipv4.isNone then parseDottedIpv4 parts else pure ipv4
  if ipv4.isNone && ipv6.isNone then pure none
  else pure (some (ipv4, ipv6))

example : (interpretIp (.ofString "app-c0a801fc.example.com")).toOption.map (Option.map (·.1)) =
    some (some (some ⟨192, 168, 1, 252⟩)) := by decide +kernel

end RustyAlias
