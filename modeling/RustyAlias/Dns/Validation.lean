import RustyAlias.Dns.Signing

/-! # Validating signed sections

What a validator does that trusts a DS record of a zone, written from sections 5.2 and 5.3 of RFC 4035:
it authenticates the DNSKEY RRset of the zone, and then takes an RRset as secure if a signature
over it verifies under one of the keys. Times are compared as serial numbers. How digests are made and
signatures are checked is given.
-/

namespace Dns

open Rust

/-- The cryptography of a validator: SHA-256, and the check of a signature over octets under a public key. -/
structure Suite where
  sha256 : Bytes → Vector UInt8 32
  verify : Bytes → Bytes → Bytes → Bool

def dnskeyType : UInt16 := 48
def ecdsaP256 : UInt8 := 13
def sha256Digest : UInt8 := 2

/-- `a ≤ b` in the serial number arithmetic of RFC 1982. -/
def SerialLe (a b : UInt32) : Prop := (b - a).toNat < 2 ^ 31

/-- DNSKEY RDATA. -/
structure Dnskey where
  flags : UInt16
  protocol : UInt8
  algorithm : UInt8
  publicKey : Bytes

def readDnskey (rdata : Bytes) : Option Dnskey := do
  let (flags, input) ← read16 rdata
  let (protocol, input) ← readByte input
  let (algorithm, publicKey) ← readByte input
  return ⟨flags, protocol, algorithm, publicKey⟩

/-- The key belongs to a zone. -/
def Dnskey.ZoneKey (k : Dnskey) : Prop := k.flags.toNat.testBit 8 = true ∧ k.protocol = 3

/-- The sum of the 16-bit words, the last one filled up with zeros. -/
def wordSum : Bytes → ℕ
  | [] => 0
  | [a] => a.toNat * 256
  | a :: b :: rest => a.toNat * 256 + b.toNat + wordSum rest

/-- The key tag of DNSKEY RDATA: Appendix B of RFC 4034. -/
def tagOf (rdata : Bytes) : UInt16 := UInt16.ofNat (wordSum rdata + wordSum rdata / 65536)

/-- DS RDATA. -/
structure Ds where
  keyTag : UInt16
  algorithm : UInt8
  digestType : UInt8
  digest : Bytes

def readDs (rdata : Bytes) : Option Ds := do
  let (keyTag, input) ← read16 rdata
  let (algorithm, input) ← readByte input
  let (digestType, digest) ← readByte input
  return ⟨keyTag, algorithm, digestType, digest⟩

/-- The count of labels in a Labels field: without the root and a leftmost `*`. -/
def countedLabels (name : Name) : ℕ := if name.head? = some [42] then name.length - 1 else name.length

/-- The owner that was signed: from the wildcard if the Labels field is lower than the count of the labels. -/
def signedOwner (labels : ℕ) (name : Name) : Name :=
  if labels = countedLabels name then name else [42] :: name.drop (name.length - labels)

/-- The signature record verifies an RRset under a key. -/
structure Verifies (suite : Suite) (zone : Name) (now : UInt32) (rrset : List Record) (sig : Record) (rrsig : Rrsig)
    (dnskey : Bytes) (k : Dnskey) : Prop where
  rtype : sig.rtype = rrsigType
  read : readRrsig sig.rdata = some rrsig
  filled : rrset ≠ []
  covers : ∀ r ∈ rrset, r.key = (fold sig.owner, rrsig.typeCovered) ∧ r.rclass = sig.rclass ∧ r.ttl = rrsig.originalTtl
  signer : fold rrsig.signer = fold zone
  zone : fold zone <:+ fold sig.owner
  labels : rrsig.labels.toNat ≤ countedLabels sig.owner
  incepted : SerialLe rrsig.inception now
  unexpired : SerialLe now rrsig.expiration
  readKey : readDnskey dnskey = some k
  zoneKey : k.ZoneKey
  supported : rrsig.algorithm = ecdsaP256
  algorithm : k.algorithm = rrsig.algorithm
  keyTag : tagOf dnskey = rrsig.keyTag
  signature : suite.verify k.publicKey (signedData rrsig
    (rrset.map fun r => { r with owner := signedOwner rrsig.labels.toNat r.owner })) rrsig.signature = true

/-- The keys are the DNSKEY RRset, and one of them has the digest of the DS record and signs the RRset. -/
def Authentic (suite : Suite) (zone : Name) (ds : Ds) (now : UInt32) (keys : List Bytes) (records : List Record) : Prop :=
  keys = (rrsetOf (fold zone, dnskeyType) records).map Record.rdata ∧
    ∃ dnskey ∈ keys, ∃ sig ∈ records, ∃ rrsig k,
      Verifies suite zone now (rrsetOf (fold zone, dnskeyType) records) sig rrsig dnskey k ∧
        ds.keyTag = tagOf dnskey ∧ ds.algorithm = k.algorithm ∧ ds.digestType = sha256Digest ∧
          ds.digest = (suite.sha256 (wire (fold zone) ++ dnskey)).toList

/-- The record belongs to an RRset that is verified in its section, or verifies one. -/
def Secure (suite : Suite) (zone : Name) (now : UInt32) (keys : List Bytes) (records : List Record) (r : Record) : Prop :=
  ∃ sig ∈ records, ∃ rrsig, ∃ dnskey ∈ keys, ∃ k,
    Verifies suite zone now (rrsetOf (fold sig.owner, rrsig.typeCovered) records) sig rrsig dnskey k ∧
      (r = sig ∨ r.key = (fold sig.owner, rrsig.typeCovered))

/-- Every record of a message is secure in its section, the OPT record apart. -/
def Message.Secure (suite : Suite) (zone : Name) (now : UInt32) (keys : List Bytes) (msg : Message) : Prop :=
  ∀ records ∈ [msg.answers, msg.authority, msg.additional.filter (·.rtype ≠ optType)],
    ∀ r ∈ records, Dns.Secure suite zone now keys records r

/-- What an RRSIG record says is in force for a zone and a key. -/
structure Rrsig.InForce (rrsig : Rrsig) (owner zone : Name) (now : UInt32) (tag : UInt16) : Prop where
  signer : fold rrsig.signer = fold zone
  zone : fold zone <:+ fold owner
  labels : rrsig.labels.toNat = countedLabels owner
  incepted : SerialLe rrsig.inception now
  unexpired : SerialLe now rrsig.expiration
  algorithm : rrsig.algorithm = ecdsaP256
  keyTag : tag = rrsig.keyTag

theorem countedLabels_fold (name : Name) : countedLabels (fold name) = countedLabels name := by
  cases name with
  | nil => rfl
  | cons label rest =>
    have star : lowerAll label = [42] ↔ label = [42] := by
      constructor
      · intro same
        obtain ⟨b, rfl, low⟩ := List.map_eq_singleton_iff.mp same
        rw [(toLower_eq_iff (by decide) b).mp low]
      · rintro rfl
        decide
    simp [countedLabels, star, fold]

theorem readDnskey_fields (flags : UInt16) (protocol algorithm : UInt8) (publicKey : Bytes) :
    readDnskey (be16 flags ++ [protocol, algorithm] ++ publicKey) = some ⟨flags, protocol, algorithm, publicKey⟩ := by
  simp [readDnskey]

theorem readDs_fields (keyTag : UInt16) (algorithm digestType : UInt8) (digest : Bytes) :
    readDs (be16 keyTag ++ [algorithm, digestType] ++ digest) = some ⟨keyTag, algorithm, digestType, digest⟩ := by
  simp [readDs]

section Sections

variable {suite : Suite} {zone : Name} {now : UInt32} {dnskey : Bytes} {k : Dnskey} {sign : Bytes → Vector UInt8 64}
  {records : List Record}

/-- A signature of the section that is in force verifies its RRset. -/
theorem SignedSet.Validates.verifies {s : SignedSet} (valid : s.Validates sign records) (readKey : readDnskey dnskey = some k)
    (zoneKey : k.ZoneKey) (algorithm : k.algorithm = ecdsaP256)
    (law : ∀ octets, suite.verify k.publicKey octets (sign octets).toList = true)
    (rclass : s.sig.rclass = 1) (inForce : s.rrsig.InForce s.sig.owner zone now (tagOf dnskey)) :
    Verifies suite zone now (rrsetOf s.key records) s.sig s.rrsig dnskey k := by
  have covers : ∀ r ∈ rrsetOf s.key records, r.key = s.key := fun r member => of_decide_eq_true (List.mem_filter.mp member).2
  have whole := valid.whole
  constructor
  · exact valid.rtype
  · exact valid.read
  · rw [whole]
    exact valid.nonempty
  · intro r member
    have present := whole ▸ member
    rw [covers r member, valid.rclass r present, rclass, valid.ttl r present, valid.originalTtl]
    exact ⟨rfl, rfl, rfl⟩
  · exact inForce.signer
  · exact inForce.zone
  · exact inForce.labels.le
  · exact inForce.incepted
  · exact inForce.unexpired
  · exact readKey
  · exact zoneKey
  · exact inForce.algorithm
  · rw [algorithm, inForce.algorithm]
  · exact inForce.keyTag
  · -- No owner comes from a wildcard.
    have same : (rrsetOf s.key records).map (fun r => { r with owner := signedOwner s.rrsig.labels.toNat r.owner }) =
        rrsetOf s.key records := by
      conv_rhs => rw [← List.map_id (rrsetOf s.key records)]
      apply List.map_congr_left
      intro r member
      have owner : fold r.owner = fold s.sig.owner := congrArg Prod.fst (covers r member)
      have count : s.rrsig.labels.toNat = countedLabels r.owner := by
        rw [inForce.labels, ← countedLabels_fold, ← owner, countedLabels_fold]
      rw [signedOwner, if_pos count]
      rfl
    rw [same, valid.signature]
    exact law _

/-- A signed section whose signatures are in force is secure, record by record. -/
theorem SignedSection.secure (signed : SignedSection sign records) (readKey : readDnskey dnskey = some k) (zoneKey : k.ZoneKey)
    (algorithm : k.algorithm = ecdsaP256) (law : ∀ octets, suite.verify k.publicKey octets (sign octets).toList = true)
    (inForce : ∀ r ∈ records, r.rtype = rrsigType → r.rclass = 1 ∧
      ∀ rrsig, readRrsig r.rdata = some rrsig → rrsig.InForce r.owner zone now (tagOf dnskey)) :
    ∀ r ∈ records, Secure suite zone now [dnskey] records r := by
  obtain ⟨sets, parts, _, valid⟩ := signed
  intro r member
  have split := parts ▸ member
  obtain ⟨s, inside, present⟩ := List.mem_flatMap.mp split
  have here : s.sig ∈ records := by
    rw [parts]
    exact List.mem_flatMap.mpr ⟨s, inside, by simp [SignedSet.records]⟩
  obtain ⟨rclass, force⟩ := inForce s.sig here (valid s inside).rtype
  have verified := (valid s inside).verifies readKey zoneKey algorithm law rclass (force s.rrsig (valid s inside).read)
  refine ⟨s.sig, here, s.rrsig, dnskey, List.mem_singleton_self _, k, verified, ?_⟩
  rcases List.mem_append.mp present with present | present
  · right
    rw [← (valid s inside).whole] at present
    exact of_decide_eq_true (List.mem_filter.mp present).2
  · left
    exact List.mem_singleton.mp present

end Sections

end Dns
