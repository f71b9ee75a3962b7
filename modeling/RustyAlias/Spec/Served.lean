import RustyAlias.Spec.Reply

/-! # What the zone has for a question

Which answer a name and a type stand for, without the records and without the proofs: whether the name is the
zone's to answer for, and the text, the addresses or the records of the apex that it has of the type.
-/

namespace RustyAlias

open Rust

inductive Served
  | refused
  | nothing
  | text (octets : Bytes)
  | addresses (v4 : Option Ipv4Addr) (v6 : Option Ipv6Addr)
  | apex
deriving DecidableEq

/-- The first 255 octets of a text. -/
def servedText (qtype : UInt16) (txt : Str) : Served :=
  if qtype = typeTxt ∨ qtype = typeAny then .text (txt.bytes.take 255) else .nothing

/-- The addresses of the families that the type asks for. -/
def servedAddresses (qtype : UInt16) (ip : Option Ipv4Addr × Option Ipv6Addr) : Served :=
  match ip.1.filter fun _ => wantsA qtype, ip.2.filter fun _ => wantsAaaa qtype with
  | none, none => .nothing
  | v4, v6 => .addresses v4 v6

def servedApex (config : Config) (qtype : UInt16) : Served :=
  if qtype = typeA ∨ qtype = typeAaaa then servedAddresses qtype (some config.glueIp, config.glueIp6)
  else if qtype = typeTxt then (if config.spf.isEmpty then .nothing else servedText qtype config.spf)
  else if qtype = typeSoa ∨ qtype = typeNs ∨ qtype = typeAny then .apex
  else if qtype = typeDnskey ∨ qtype = typeCds ∨ qtype = typeCdnskey ∨ qtype = typeNsec then
    (if config.dnssec.isSome then .apex else .nothing)
  else .nothing

def served (config : Config) (domain : Str) (qtype qclass : UInt16) : Served :=
  if qclass ≠ 1 then .refused
  else if isVersionQuery domain then
    if qtype = typeTxt ∨ qtype = typeAny then servedText qtype (.ofString "RustyAlias v" ++ config.version)
    else if inZone domain config.glueName then .nothing
    else .refused
  else if !inZone domain config.glueName then .refused
  else if !config.dmarc.isEmpty && namesEq domain (dmarcOwner config.glueName) then servedText qtype config.dmarc
  else if namesEq domain config.glueName then servedApex config qtype
  else if isConfiguredNs domain config then servedAddresses qtype (some config.glueIp, config.glueIp6)
  else servedAddresses qtype ((addressOf (domain.split dot)).getD (none, none))

end RustyAlias
