import RustyAlias.Dns.Zone
import RustyAlias.Proofs.Folding
import RustyAlias.Proofs.Names

/-! # The zone that the server stands for

A name of the zone has what the first of these gives it: the DMARC policy, the apex, the nameservers, and the
addresses that its labels spell. There is no list of names: every name at or below the apex belongs to it.
-/

namespace RustyAlias

open Rust Dns

def Rr.entry (rr : Rr) : Entry := ⟨rr.ttl, rr.rdata⟩

section Tables

variable (config : Config)

def soaEntry : Entry where
  ttl := ttlSoa
  rdata := wire (fold (hostLabels config.soaName)) ++ wire (fold (hostLabels config.hostmaster)) ++ be32 config.serial ++
    be32 config.refresh ++ be32 config.retry ++ be32 config.expire ++ be32 config.minimum

/-- A text that is not set has no entry. A text is cut after 255 octets. -/
def textEntries (text : Str) : List Entry :=
  if text.isEmpty then [] else [⟨ttlRr, UInt8.ofNat (min text.len 255) :: text.bytes.take 255⟩]

def addressTable (ip : Option Ipv4Addr × Option Ipv6Addr) : List (UInt16 × List Entry) :=
  [(typeA, ip.1.toList.map fun v4 => ⟨ttlRr, v4.octets⟩), (typeAaaa, ip.2.toList.map fun v6 => ⟨ttlRr, v6.octets⟩)]

def apexTable : List (UInt16 × List Entry) :=
  [(typeSoa, [soaEntry config]), (typeNs, config.nsNames.map fun host => ⟨ttlRr, wire (fold (hostLabels host))⟩)] ++
    addressTable (some config.glueIp, config.glueIp6) ++
    [(typeTxt, textEntries config.spf), (typeDnskey, config.dnssec.toList.map fun key => ⟨ttlSoa, key.dnskeyRdata⟩),
      (typeCds, config.dnssec.toList.map fun key => ⟨ttlSoa, key.dsRdata config.glueName⟩),
      (typeCdnskey, config.dnssec.toList.map fun key => ⟨ttlSoa, key.dnskeyRdata⟩)]

/-- `_dmarc` -/
def dmarcLabel : Label := [95, 100, 109, 97, 114, 99]

def nameTable (name : Name) : List (UInt16 × List Entry) :=
  if config.dmarc.isEmpty = false ∧ fold name = dmarcLabel :: fold (hostLabels config.glueName) then
    [(typeTxt, textEntries config.dmarc)]
  else if fold name = fold (hostLabels config.glueName) then apexTable config
  else if ∃ host ∈ config.soaName :: config.nsNames, fold name = fold (hostLabels host) then
    addressTable (some config.glueIp, config.glueIp6)
  else ((spelled name).map addressTable).getD []

variable {config}

theorem nameTable_fold {a b : Name} (same : fold a = fold b) : nameTable config a = nameTable config b := by
  have addresses : spelled a = spelled b := by rw [← spelled_fold a, same, spelled_fold]
  rw [nameTable, nameTable, same, addresses]

theorem nameTable_apex : nameTable config (hostLabels config.glueName) = apexTable config := by
  have other : fold (hostLabels config.glueName) ≠ dmarcLabel :: fold (hostLabels config.glueName) :=
    (List.cons_ne_self _ _).symm
  rw [nameTable, if_neg fun dmarc => other dmarc.2, if_pos rfl]

end Tables

/-- What a configuration puts under every name. -/
def virtualZone (config : Config) : Zone where
  apex := hostLabels config.glueName
  data name t := ((nameTable config name).lookup t).getD []
  data_fold same := by rw [nameTable_fold same]
  soa := ⟨soaEntry config, by rw [nameTable_apex]; rfl⟩

end RustyAlias
