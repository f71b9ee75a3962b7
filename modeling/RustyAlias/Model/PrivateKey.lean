import RustyAlias.Model.Dnssec
import RustyAlias.Rust.Chars

/-! # Reading the private key

`dnssec.rs`: the key material of `DNSSEC_PRIVATE_KEY`, as PEM or as 64 hexadecimal digits, and the
DNSKEY RDATA of the key made of it. The scalar validation and the PEM formats of crate `p256` are
third-party code and parameters here; the decoration of the text around them is the program's own.
-/

namespace RustyAlias

open Rust

/-- Crate `p256`: a secret key, seen as the signing key made of it, from its three encodings. -/
structure P256 where
  /-- `SecretKey::from_slice`, without its error. -/
  fromSlice : Bytes → Option Crypto
  /-- `SecretKey::from_pkcs8_pem`, with its error as text. -/
  fromPkcs8Pem : Str → Except Str Crypto
  /-- `SecretKey::from_sec1_pem`, without its error. -/
  fromSec1Pem : Str → Option Crypto

def dnskeyFlagsCsk : UInt16 := 257
def dnskeyProtocol : UInt8 := 3

/-- Addition on `u32`. -/
def uadd32 (a b : ℕ) : Outcome ℕ := if a + b < 2 ^ 32 then .ok (a + b) else .error .arithmeticOverflow

/-- RFC 4034 Appendix B. -/
def keyTag (dnskeyRdata : Bytes) : Outcome UInt16 := do
  let ac ← dnskeyRdata.zipIdx.foldlM
    (fun ac (b, i) => uadd32 ac (if i % 2 = 0 then b.toNat * 256 else b.toNat)) 0
  let ac ← uadd32 ac (ac / 65536)
  pure (UInt16.ofNat ac)

def hexAlphabet : Bytes := [48, 49, 50, 51, 52, 53, 54, 55, 56, 57, 65, 66, 67, 68, 69, 70]

/-- `u8 as char`. -/
def charOf (b : UInt8) : Char := Char.ofNat b.toNat

def hexEncode (bytes : Bytes) : Outcome Str := do
  let s ← bytes.foldlM (fun s b => do
    let high ← index hexAlphabet (b.toNat / 16)
    let low ← index hexAlphabet (b.toNat % 16)
    pure (s ++ [charOf high] ++ [charOf low])) []
  pure (.ofChars s)

/-- The loop of `parse_hex_scalar` over the indices still to fill. -/
def parseHexPairs (hex : Str) : List ℕ → Bytes → Outcome (Except Str Bytes)
  | [], out => pure (.ok out)
  | i :: rest, out => do
    let pair ← hex.slice (i * 2) (i * 2 + 2)
    match u8FromStrRadix pair.bytes 16 with
    | none => pure (.error (.ofString "invalid hex in DNSSEC_PRIVATE_KEY"))
    | some b => parseHexPairs hex rest (← setIndex out i b)

/-- `char::is_ascii_hexdigit`. -/
def isHexdigitChar (c : Char) : Bool := c.toNat < 128 && isAsciiHexdigit (UInt8.ofNat c.toNat)

def parseHexScalar (raw : Str) : Outcome (Except Str Bytes) :=
  let hex := Str.ofChars (raw.chars.filter (!isWhitespace ·))
  if hex.len ≠ 64 || !hex.chars.all isHexdigitChar then
    pure (.error (.ofString "expected 64 hex characters (32-byte P-256 scalar)"))
  else parseHexPairs hex (List.range 32) (List.replicate 32 0)

def parsePem (p256 : P256) (raw : Str) : Except Str Crypto :=
  if raw.containsStr (.ofString "BEGIN PRIVATE KEY") then
    (p256.fromPkcs8Pem raw).mapError (.ofString "PKCS#8 PEM: " ++ ·)
  else if raw.containsStr (.ofString "BEGIN EC PRIVATE KEY") then
    match p256.fromSec1Pem raw with
    | some secret => .ok secret
    | none => .error (.ofString "invalid SEC1 EC PRIVATE KEY PEM")
  else .error (.ofString "unsupported PEM label (expected PRIVATE KEY or EC PRIVATE KEY)")

def backslash : Ascii := ⟨92, by decide⟩
def letterN : Ascii := ⟨110, by decide⟩

/-- `raw.trim().replace("\\n", "\n")`: secrets often carry their newlines escaped. -/
def unescaped (raw : Str) : Str := raw.trim.replace backslash [letterN] (.ofString "\n")

namespace DnssecKey

def fromSigningKey (signingKey : Crypto) : Outcome DnssecKey := do
  let dnskeyRdata := be16 dnskeyFlagsCsk ++ [dnskeyProtocol, algEcdsap256sha256] ++ signingKey.publicKey.toList
  let tag ← RustyAlias.keyTag dnskeyRdata
  pure ⟨signingKey, dnskeyRdata, tag, by simp [dnskeyRdata]⟩

/-- The `secret` of `from_private_key_str`. -/
def parseSecret (p256 : P256) (raw : Str) : Outcome (Except Str Crypto) :=
  if raw.containsStr (.ofString "BEGIN") then pure (parsePem p256 raw)
  else do
    match ← parseHexScalar raw with
    | .error message => pure (.error message)
    | .ok bytes => pure ((p256.fromSlice bytes).elim
        (.error (.ofString "DNSSEC_PRIVATE_KEY hex is not a valid P-256 scalar")) .ok)

def fromPrivateKeyStr (p256 : P256) (raw : Str) : Outcome (Except Str DnssecKey) :=
  let raw := unescaped raw
  if raw.isEmpty then pure (.error (.ofString "empty DNSSEC_PRIVATE_KEY"))
  else do
    match ← parseSecret p256 raw with
    | .error message => pure (.error message)
    | .ok secret => pure (.ok (← fromSigningKey secret))

end DnssecKey

end RustyAlias
