import RustyAlias.Model.FromEnv

/-! # Making a key

`generate_and_print`, and the DS record as it is printed for the parent, there and when the server
starts. The secret that crate `p256` makes, and its encodings, are given.
-/

namespace RustyAlias

open Rust

namespace DnssecKey

def dsDigestHex (key : DnssecKey) (zone : Str) : Outcome Str := do
  hexEncode (← sliceFrom (key.dsRdata zone) 4)

def dsPresentation (key : DnssecKey) (zone : Str) : Outcome Str := do
  let digest ← key.dsDigestHex zone
  pure (decimal key.keyTag.toNat ++ .ofString " " ++ decimal algEcdsap256sha256.toNat ++ .ofString " " ++
    decimal digestSha256.toNat ++ .ofString " " ++ digest)

end DnssecKey

/-- A generated secret: its octets, the signing key made of it, and its PKCS#8 text. -/
structure Generated where
  scalar : Vector UInt8 32
  signingKey : Crypto
  pem : Str

/-- The texts that are printed, in order, without the newline of `println!`. -/
def generateAndPrint (generated : Generated) (env : Environment) : Outcome (List Str) := do
  let key ← DnssecKey.fromSigningKey generated.signingKey
  let hex ← hexEncode generated.scalar.toList
  let zone := (env.varOr "GLUE_NAME" "example.com").trimEndMatches dot
  let digest ← key.dsDigestHex zone
  let presentation ← key.dsPresentation zone
  pure [
    .ofString "# Keep this private key secret and identical on every nameserver.",
    .ofString "# Hex (convenient for Kubernetes / Compose secrets):",
    .ofString "DNSSEC_PRIVATE_KEY=" ++ hex,
    .empty,
    .ofString "# PKCS#8 PEM:",
    generated.pem,
    .empty,
    .ofString "# DS record for the parent (one.com KeyTag / Algorithm / Digest type / Digest):",
    .ofString "#   KeyTag:      " ++ decimal key.keyTag.toNat,
    .ofString "#   Algorithm:   " ++ decimal algEcdsap256sha256.toNat ++ .ofString " (ECDSAP256SHA256)",
    .ofString "#   Digest type: " ++ decimal digestSha256.toNat ++ .ofString " (SHA-256)",
    .ofString "#   Digest:      " ++ digest,
    .empty,
    zone ++ .ofString ". IN DS " ++ presentation,
    .empty,
    .ofString "# Deploy this key and serve CDS/CDNSKEY *before* publishing DS at the registrar.",
    .ofString "# For .nu / .se, Internetstiftelsen scans CDS over TCP daily; bootstrap takes ~72h.",
    .ofString "# Track: https://cds.registry.se"]

/-- What `main` prints about the key. -/
def printedAtStart (config : Config) : Outcome (List Str) :=
  match config.dnssec with
  | none => pure []
  | some key => do
    let presentation ← key.dsPresentation config.glueName
    pure [
      .ofString "DNSSEC enabled (ECDSAP256SHA256, key tag " ++ decimal key.keyTag.toNat ++ .ofString ")",
      .ofString "  DS: " ++ config.glueName ++ .ofString " IN DS " ++ presentation]

end RustyAlias
