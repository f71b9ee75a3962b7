import RustyAlias.Rust.Net

/-! # Configuration and keys

The fields of `Config` and `DnssecKey` as `config.rs` and `dnssec.rs` declare them. The P-256 key of
crate `p256` and the digest of crate `sha2` are third-party code: they appear as functions on octet
strings with the documented output lengths and nothing else is assumed of them.
-/

namespace RustyAlias

open Rust

/-- The cryptography behind one signing key. -/
structure Crypto where
  /-- The verifying key as an uncompressed point, without its leading `0x04`. -/
  publicKey : Vector UInt8 64
  sign : Bytes → Vector UInt8 64
  sha256 : Bytes → Vector UInt8 32

/-- `from_signing_key` is the only way to build one, so the RDATA has the length of its parts. -/
structure DnssecKey where
  crypto : Crypto
  dnskeyRdata : Bytes
  keyTag : UInt16
  rdata_length : dnskeyRdata.length = 68

structure Config where
  glueName : Str
  glueIp : Ipv4Addr
  glueIp6 : Option Ipv6Addr
  /-- Primary nameserver (SOA MNAME). -/
  soaName : Str
  /-- Authoritative NS set advertised at the zone apex. -/
  nsNames : List Str
  hostmaster : Str
  serial : UInt32
  refresh : UInt32
  retry : UInt32
  expire : UInt32
  minimum : UInt32
  /-- Apex SPF TXT. Empty disables the record. -/
  spf : Str
  /-- `_dmarc.<zone>` TXT. Empty disables the record. -/
  dmarc : Str
  version : Str
  rateLimitSeconds : UInt64
  rateLimitRequests : UInt32
  dnssec : Option DnssecKey
  /-- Host names are strings in memory. -/
  inMemory : ∀ name ∈ glueName :: soaName :: hostmaster :: nsNames, name.len ≤ isizeMax

/-- A zone with one nameserver inside it and no key. -/
def sampleConfig : Config where
  glueName := .ofString "nip.nu"
  glueIp := ⟨10, 0, 0, 53⟩
  glueIp6 := none
  soaName := .ofString "ns.nip.nu"
  nsNames := [.ofString "ns.nip.nu"]
  hostmaster := .ofString "hostmaster.nip.nu"
  serial := 1
  refresh := 3600
  retry := 600
  expire := 86400
  minimum := 60
  spf := .empty
  dmarc := .empty
  version := .ofString "0"
  rateLimitSeconds := 10
  rateLimitRequests := 10
  dnssec := none
  inMemory := by decide +kernel

end RustyAlias
