import RustyAlias.Model.Names
import RustyAlias.Model.Question

/-! # Online signing

`dnssec.rs`: RRSIG, NSEC and CDS RDATA, and the walks over uncompressed wire names. The clock is read
once for every signature, so it is a stream of readings of which each signature takes the next.
-/

namespace RustyAlias

open Rust

def typeA : UInt16 := 1
def typeNs : UInt16 := 2
def typeSoa : UInt16 := 6
def typeTxt : UInt16 := 16
def typeAaaa : UInt16 := 28
def typeOpt : UInt16 := 41
def typeRrsig : UInt16 := 46
def typeNsec : UInt16 := 47
def typeDnskey : UInt16 := 48
def typeCds : UInt16 := 59
def typeCdnskey : UInt16 := 60
def typeAny : UInt16 := 255

def classIn : UInt16 := 1

/-- ECDSAP256SHA256 (RFC 6605). -/
def algEcdsap256sha256 : UInt8 := 13
/-- SHA-256 DS digest (RFC 4509). -/
def digestSha256 : UInt8 := 2
def signatureValiditySecs : UInt32 := 7 * 24 * 3600
def inceptionSkewSecs : UInt32 := 3600

/-- `SystemTime::now().duration_since(UNIX_EPOCH)` in seconds, `none` before the epoch. -/
abbrev ClockReading := Option UInt64

/-- The readings of the clock, in the order in which they are taken. -/
abbrev Clock := Stream' ClockReading

/-- Inception and expiration for one reading of the clock. -/
def signatureTimes (reading : ClockReading) : UInt32 × UInt32 :=
  let now := (reading.map UInt64.toUInt32).getD 0
  let inception := if now < inceptionSkewSecs then 0 else now - inceptionSkewSecs
  let expiration := if now.toNat + signatureValiditySecs.toNat ≤ 2 ^ 32 - 1 then now + signatureValiditySecs
    else UInt32.ofNat (2 ^ 32 - 1)
  (inception, expiration)

/-- `u8::saturating_add(1)`. -/
def saturatingSucc8 (n : UInt8) : UInt8 := if n = 255 then n else n + 1

def labelCountLoop (wireName : Bytes) (i : ℕ) (n : UInt8) : Outcome UInt8 :=
  if _inside : i < wireName.length then do
    let len ← index wireName i
    if len = 0 then pure n
    else do
      let _ ← uadd i (← uadd 1 len.toNat)
      labelCountLoop wireName (i + (1 + len.toNat)) (saturatingSucc8 n)
  else pure n
termination_by wireName.length - i

def labelCount (wireName : Bytes) : Outcome UInt8 := labelCountLoop wireName 0 0

/-- `make_ascii_lowercase` on every octet of `out[start..stop]`. -/
def lowerRange (out : Bytes) (start stop : ℕ) : Bytes :=
  out.take start ++ lowerAll ((out.take stop).drop start) ++ out.drop stop

theorem lowerRange_length {out : Bytes} {start stop : ℕ} (ordered : start ≤ stop) (bound : stop ≤ out.length) :
    (lowerRange out start stop).length = out.length := by
  simp only [lowerRange, List.length_append, List.length_take, lowerAll_length, List.length_drop]
  omega

def lowercaseWireNameLoop (out : Bytes) (i : ℕ) : Outcome Bytes :=
  if _inside : i < out.length then do
    let len ← index out i
    if len = 0 then pure out
    else if _fits : i + 1 ≤ usizeMax then do
      let start := i + 1
      let stop := min (min (start + len.toNat) usizeMax) out.length
      let _ ← slice out start stop
      lowercaseWireNameLoop (lowerRange out start stop) stop
    else .error .arithmeticOverflow
  else pure out
termination_by out.length - i
decreasing_by rw [lowerRange_length (by omega) (by omega)]; omega

def lowercaseWireName (name : Bytes) : Outcome Bytes := lowercaseWireNameLoop name 0

def ownerCanonicalWire (query : Slice) (ownerIsQuestion : Bool) (name : Option Str) : Outcome Bytes :=
  if ownerIsQuestion then do
    let stop ← expect (← questionSectionEnd query)
    lowercaseWireName (← slice query.data 12 (← usub stop 4))
  else do
    pure (encodeDomainName (← expect name))

/-- The loop state of `type_bitmap`. -/
structure Bitmap where
  out : Bytes
  window : Option UInt8
  bits : Bytes
  maxByte : ℕ

def Bitmap.start : Bitmap := ⟨[], none, List.replicate 32 0, 0⟩

/-- The closure `flush`. -/
def flush (out : Bytes) (window : UInt8) (bits : Bytes) (maxByte : ℕ) : Outcome Bytes := do
  let len ← uadd maxByte 1
  pure (out ++ [window, UInt8.ofNat len] ++ (← slice bits 0 len))

def Bitmap.add (s : Bitmap) (typ : UInt16) : Outcome Bitmap := do
  let w := UInt8.ofNat (typ.toNat / 256)
  let bit := typ.toNat % 256
  let s ←
    if s.window.any (· != w) then do
      let out ← flush s.out (← expect s.window) s.bits s.maxByte
      pure { s with out := out, bits := List.replicate 32 0, maxByte := 0 }
    else pure s
  let old ← index s.bits (bit / 8)
  let bits ← setIndex s.bits (bit / 8) (old ||| ((1 : UInt8) <<< UInt8.ofNat (← usub 7 (bit % 8))))
  pure { s with window := some w, bits := bits, maxByte := max s.maxByte (bit / 8) }

def typeBitmap (types : List UInt16) : Outcome Bytes := do
  let types := types.mergeSort.eraseReps
  if types.isEmpty then pure [0, 0]
  else do
    let s ← types.foldlM Bitmap.add Bitmap.start
    match s.window with
    | some w => flush s.out w s.bits s.maxByte
    | none => pure s.out

def nsecTypes (existing : List UInt16) : List UInt16 :=
  (existing ++ [typeNsec, typeRrsig]).mergeSort.eraseReps

/-- The next domain name is the successor `\000.<qname>`. -/
def nsecRdata (qnameWire : Bytes) (existingTypes : List UInt16) : Outcome Bytes := do
  let lower ← lowercaseWireName qnameWire
  pure ([1, 0] ++ lower ++ (← typeBitmap existingTypes))

namespace DnssecKey

/-- DS / CDS RDATA: key tag, algorithm, digest type, digest. -/
def dsRdata (key : DnssecKey) (zone : Str) : Bytes :=
  let digest := key.crypto.sha256 (encodeDomainName zone ++ key.dnskeyRdata)
  be16 key.keyTag ++ [algEcdsap256sha256, digestSha256] ++ digest.toList

/-- The RRSIG RDATA in front of the signature. -/
def rrsigPrefix (key : DnssecKey) (reading : ClockReading) (labels : UInt8) (typ : UInt16) (originalTtl : UInt32)
    (signerName : Str) : Bytes :=
  let (inception, expiration) := signatureTimes reading
  be16 typ ++ [algEcdsap256sha256, labels] ++ be32 originalTtl ++ be32 expiration ++ be32 inception ++
    be16 key.keyTag ++ encodeDomainName signerName

/-- The octets handed to the signer. -/
def toSign (rrsigPrefix ownerWire : Bytes) (typ : UInt16) (originalTtl : UInt32) (rdatas : List Bytes) : Bytes :=
  rrsigPrefix ++ rdatas.flatMap fun rdata =>
    ownerWire ++ be16 typ ++ be16 classIn ++ be32 originalTtl ++ be16 (UInt16.ofNat rdata.length) ++ rdata

def signRrsig (key : DnssecKey) (reading : ClockReading) (ownerWire : Bytes) (typ : UInt16) (originalTtl : UInt32)
    (rdatas : List Bytes) (signerName : Str) : Outcome Bytes := do
  let labels ← labelCount ownerWire
  let start := key.rrsigPrefix reading labels typ originalTtl signerName
  pure (start ++ (key.crypto.sign (toSign start ownerWire typ originalTtl rdatas)).toList)

end DnssecKey

end RustyAlias
