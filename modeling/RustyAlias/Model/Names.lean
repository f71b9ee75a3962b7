import RustyAlias.Model.Config

/-! # Names of the zone

The tests and encodings of host names that `query.rs` and `response.rs` apply to configured strings
and to the name of the question.
-/

namespace RustyAlias

open Rust

def isVersionQuery (domain : Str) : Bool :=
  domain.eqIgnoreAsciiCase (.ofString "version") ||
    domain.eqIgnoreAsciiCase (.ofString "ver") ||
    domain.eqIgnoreAsciiCase (.ofString "v")

def dmarcOwner (zone : Str) : Str := .ofString "_dmarc." ++ zone.trimEndMatches dot

def namesEq (a b : Str) : Bool :=
  (a.trimEndMatches dot).eqIgnoreAsciiCase (b.trimEndMatches dot)

def isConfiguredNs (domain : Str) (config : Config) : Bool :=
  config.nsNames.any (fun ns => namesEq domain ns) || namesEq domain config.soaName

/-- Returns true if `domain` equals `zone` or is a strict subdomain of `zone`, using
case-insensitive comparison and respecting label boundaries. -/
def isInZone (domain zone : Str) : Outcome Bool :=
  let domain := domain.trimEndMatches dot
  let zone := zone.trimEndMatches dot
  if zone.isEmpty then pure false
  else if domain.eqIgnoreAsciiCase zone then pure true
  else do
    if domain.len ≤ (← uadd zone.len 1) then pure false
    else do
      let splitAt ← usub domain.len zone.len
      let before ← index domain.bytes (← usub splitAt 1)
      if before ≠ dot.1 then pure false
      else do
        let suffix ← domain.sliceFrom splitAt
        pure (suffix.eqIgnoreAsciiCase zone)

def nameInBailiwick (name zone : Str) : Outcome Bool :=
  let name := name.trimEndMatches dot
  let zone := zone.trimEndMatches dot
  if name.eqIgnoreAsciiCase zone then pure true
  else do
    if (← uadd zone.len 1) < name.len then do
      let before ← index name.bytes (← usub (← usub name.len zone.len) 1)
      if before = dot.1 then do
        let suffix ← name.sliceFrom (← usub name.len zone.len)
        pure (suffix.eqIgnoreAsciiCase zone)
      else pure false
    else pure false

/-- Length octets are casts: a part of 256 octets or more loses the high bits of its length. -/
def encodeDomainName (name : Str) : Bytes :=
  let name := name.trimEndMatches dot
  let parts := if name.isEmpty then [] else name.split dot
  parts.flatMap (fun part => UInt8.ofNat part.len :: part.toAsciiLowercase.bytes) ++ [0]

end RustyAlias
