import RustyAlias.Dns.Message

/-! # Signatures over RRsets

What a validator takes from a message to check a signature, written from RFC 4034: the fields of an
RRSIG record, the RRset that it covers in its section, and the octets of section 3.1.8.1 over which
the signature is made.
-/

namespace Dns

open Rust

/-- The type code of RRSIG. -/
def rrsigType : UInt16 := 46

/-- RRSIG RDATA. -/
structure Rrsig where
  typeCovered : UInt16
  algorithm : UInt8
  labels : UInt8
  originalTtl : UInt32
  expiration : UInt32
  inception : UInt32
  keyTag : UInt16
  signer : Name
  signature : Bytes
deriving DecidableEq

/-- The RDATA without the signature, the name of the signer in canonical form. -/
def Rrsig.fields (r : Rrsig) : Bytes :=
  be16 r.typeCovered ++ [r.algorithm, r.labels] ++ be32 r.originalTtl ++ be32 r.expiration ++ be32 r.inception ++
    be16 r.keyTag ++ wire (fold r.signer)

/-- The name of the signer is not compressed. -/
def readRrsig (rdata : Bytes) : Option Rrsig := do
  let (typeCovered, input) ← read16 rdata
  let (algorithm, input) ← readByte input
  let (labels, input) ← readByte input
  let (originalTtl, input) ← read32 input
  let (expiration, input) ← read32 input
  let (inception, input) ← read32 input
  let (keyTag, input) ← read16 input
  let (signer, signature) ← readName [] input
  return ⟨typeCovered, algorithm, labels, originalTtl, expiration, inception, keyTag, signer, signature⟩

/-- Records of one key are of one owner, up to case, and of one type. -/
def Record.key (r : Record) : Name × UInt16 := (fold r.owner, r.rtype)

/-- A record in canonical form under the original TTL of a signature. -/
def Record.canonical (r : Record) (originalTtl : UInt32) : Bytes :=
  wire (fold r.owner) ++ be16 r.rtype ++ be16 r.rclass ++ be32 originalTtl ++ be16 (UInt16.ofNat r.rdata.length) ++ r.rdata

/-- The octets over which the signature of an RRset is made: the records come in the order of their RDATA. -/
def signedData (rrsig : Rrsig) (rrset : List Record) : Bytes :=
  rrsig.fields ++ (rrset.mergeSort fun a b => a.rdata ≤ b.rdata).flatMap (Record.canonical · rrsig.originalTtl)

/-- The RRset of an owner and a type in a section. -/
def rrsetOf (key : Name × UInt16) (records : List Record) : List Record := records.filter fun r => r.key = key

/-- An RRset and the record that signs it. -/
structure SignedSet where
  rrset : List Record
  sig : Record
  rrsig : Rrsig

/-- The records as they stand in the section. -/
def SignedSet.records (s : SignedSet) : List Record := s.rrset ++ [s.sig]

/-- The key that the signature covers. -/
def SignedSet.key (s : SignedSet) : Name × UInt16 := (fold s.sig.owner, s.rrsig.typeCovered)

/-- A signature that validates in its section: it covers the whole RRset of its owner and type, which has one TTL and
class IN, and is what `sign` makes of the octets that are reconstructed. -/
structure SignedSet.Validates (sign : Bytes → Vector UInt8 64) (records : List Record) (s : SignedSet) : Prop where
  nonempty : s.rrset ≠ []
  whole : rrsetOf s.key records = s.rrset
  covered : s.rrsig.typeCovered ≠ rrsigType
  ttl : ∀ r ∈ s.rrset, r.ttl = s.sig.ttl
  rclass : ∀ r ∈ s.rrset, r.rclass = 1
  originalTtl : s.rrsig.originalTtl = s.sig.ttl
  rtype : s.sig.rtype = rrsigType
  read : readRrsig s.sig.rdata = some s.rrsig
  signature : s.rrsig.signature = (sign (signedData s.rrsig (rrsetOf s.key records))).toList

/-- A section consists of RRsets, each with its one signature right behind it. -/
def SignedSection (sign : Bytes → Vector UInt8 64) (records : List Record) : Prop :=
  ∃ sets : List SignedSet, records = sets.flatMap SignedSet.records ∧ sets.Pairwise (fun a b => a.key ≠ b.key) ∧
    ∀ s ∈ sets, s.Validates sign records

theorem readRrsig_fields {r : Rrsig} (legal : Legal r.signer) (canonical : fold r.signer = r.signer) :
    readRrsig (r.fields ++ r.signature) = some r := by
  have read : readName [] (wire r.signer ++ r.signature) = some (r.signer, r.signature) := readName_wire legal _
  simp [readRrsig, Rrsig.fields, canonical, read]

/-- In a section of RRsets of pairwise different keys, the RRset of a key is the set that has it. -/
theorem rrsetOf_flatMap {sets : List SignedSet} (apart : sets.Pairwise fun a b => a.key ≠ b.key)
    (keys : ∀ s ∈ sets, ∀ r ∈ s.rrset, r.key = s.key) (covered : ∀ s ∈ sets, s.rrsig.typeCovered ≠ rrsigType)
    (types : ∀ s ∈ sets, s.sig.rtype = rrsigType) {s : SignedSet} (member : s ∈ sets) :
    rrsetOf s.key (sets.flatMap SignedSet.records) = s.rrset := by
  have signature (other : SignedSet) (inside : other ∈ sets) : other.sig.key ≠ s.key := by
    intro same
    apply covered s member
    rw [← types other inside]
    exact (congrArg Prod.snd same).symm
  have foreign (other : SignedSet) (inside : other ∈ sets) (differ : other.key ≠ s.key) :
      rrsetOf s.key other.records = [] := by
    rw [rrsetOf, List.filter_eq_nil_iff]
    intro r present
    rw [decide_eq_true_iff]
    rcases List.mem_append.mp present with present | present
    · rwa [keys other inside r present]
    · rw [List.mem_singleton.mp present]
      exact signature other inside
  obtain ⟨front, rest, rfl⟩ := List.append_of_mem member
  rw [List.pairwise_append, List.pairwise_cons] at apart
  have before : rrsetOf s.key (front.flatMap SignedSet.records) = [] := by
    rw [rrsetOf, List.filter_flatMap, List.flatMap_eq_nil_iff]
    intro other inside
    exact foreign other (by simp [inside]) (apart.2.2 other inside s (by simp))
  have after : rrsetOf s.key (rest.flatMap SignedSet.records) = [] := by
    rw [rrsetOf, List.filter_flatMap, List.flatMap_eq_nil_iff]
    intro other inside
    exact foreign other (by simp [inside]) (apart.2.1.1 other inside).symm
  have here : rrsetOf s.key s.records = s.rrset := by
    rw [rrsetOf, SignedSet.records, List.filter_append, List.filter_eq_self.mpr, List.filter_eq_nil_iff.mpr, List.append_nil]
    · intro r present
      rw [List.mem_singleton.mp present, decide_eq_true_iff]
      exact signature s member
    · intro r present
      rw [decide_eq_true_iff]
      exact keys s member r present
  rw [rrsetOf, List.flatMap_append, List.flatMap_cons, List.filter_append, List.filter_append]
  change rrsetOf s.key (front.flatMap SignedSet.records) ++ (rrsetOf s.key s.records ++
    rrsetOf s.key (rest.flatMap SignedSet.records)) = s.rrset
  rw [before, here, after, List.nil_append, List.append_nil]

end Dns
