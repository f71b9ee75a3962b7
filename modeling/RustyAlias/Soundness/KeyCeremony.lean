import RustyAlias.Dns.DsText
import RustyAlias.Model.KeyCeremony
import RustyAlias.Proofs.Names
import RustyAlias.Soundness.Configuration
import RustyAlias.Soundness.HexKeys
import RustyAlias.Soundness.Signatures

/-! # The printed key and the served key are one

What `--generate-dnssec-key` prints is enough to run the zone: the hexadecimal line, put into the
environment, gives a server the key whose DS record was printed for the parent, and the printed DS
record is the RDATA that the server publishes as CDS.
-/

namespace RustyAlias

open Rust Rust.Outcome Dns

section Hexadecimal

private theorem hexPair_table : ∀ b : UInt8, (hexPair b).map (UInt8.ofNat ·.toNat) =
      [UInt8.ofNat (upperDigit (b.toNat / 16)).toNat, UInt8.ofNat (upperDigit (b.toNat % 16)).toNat] ∧
    toDigit 16 (UInt8.ofNat (upperDigit (b.toNat / 16)).toNat) = some (b.toNat / 16) ∧
    toDigit 16 (UInt8.ofNat (upperDigit (b.toNat % 16)).toNat) = some (b.toNat % 16) := by decide +kernel

/-- The octets of what `hex_encode` writes. -/
theorem bytes_hexPairs (bytes : Bytes) :
    (Str.ofChars (bytes.flatMap hexPair)).bytes = bytes.flatMap fun b => (hexPair b).map (UInt8.ofNat ·.toNat) := by
  rw [Str.bytes_ofChars, Utf8.encode_ascii fun c member => isHexdigitChar_ascii (mem_hexPairs member).1, List.map_flatMap]

private theorem unhex_hexPairs (bytes : Bytes) : unhex (Str.ofChars (bytes.flatMap hexPair)).bytes = some bytes := by
  rw [bytes_hexPairs]
  exact unhex_flatMap (fun b => ⟨_, _, hexPair_table b⟩) bytes

private theorem blank_notMem_hexPairs (bytes : Bytes) : 32 ∉ (Str.ofChars (bytes.flatMap hexPair)).bytes := by
  have free : ∀ b : UInt8, 32 ∉ (hexPair b).map (UInt8.ofNat ·.toNat) := by decide +kernel
  rw [bytes_hexPairs]
  intro inside
  obtain ⟨b, _, member⟩ := List.mem_flatMap.mp inside
  exact free b member

end Hexadecimal

section Ds

/-- The printed DS record reads as the RDATA. -/
theorem dsPresentation_reads (key : DnssecKey) (zone : Str) :
    ∃ text, key.dsPresentation zone = .ok text ∧ readDsText text.bytes = some (key.dsRdata zone) := by
  obtain ⟨digest, split⟩ : ∃ digest : Bytes, key.dsRdata zone = be16 key.keyTag ++ [algEcdsap256sha256, digestSha256] ++ digest :=
    ⟨_, rfl⟩
  have digits : key.dsDigestHex zone = .ok (.ofChars (digest.flatMap hexPair)) := by
    rw [DnssecKey.dsDigestHex, split, sliceFrom_ok (by simp; omega), ok_bind]
    exact hexEncode_eq digest
  refine ⟨_, by rw [DnssecKey.dsPresentation, digits]; rfl, ?_⟩
  have small := key.keyTag.toNat_lt
  have read := readDsText_fields (show key.keyTag.toNat ≤ 65535 by omega) (show algEcdsap256sha256.toNat ≤ 255 by decide)
    (show digestSha256.toNat ≤ 255 by decide) (blank_notMem_hexPairs digest) (unhex_hexPairs digest)
  have blank : (Str.ofString " ").bytes = [32] := by decide +kernel
  rw [UInt16.ofNat_toNat, UInt8.ofNat_toNat, UInt8.ofNat_toNat] at read
  rw [split]
  simpa only [Str.bytes_append, List.append_assoc, blank, List.singleton_append, List.cons_append, List.nil_append] using read

/-- Dots behind the zone change nothing. -/
theorem dsRdata_trimEndMatches (key : DnssecKey) (zone : Str) : key.dsRdata (zone.trimEndMatches dot) = key.dsRdata zone := by
  have same : trimmed (zone.trimEndMatches dot) = trimmed zone := List.rdropWhile_idempotent ..
  have labels : hostLabels (zone.trimEndMatches dot) = hostLabels zone := by rw [hostLabels, same, ← hostLabels]
  rw [DnssecKey.dsRdata, DnssecKey.dsRdata, encodeDomainName_eq, encodeDomainName_eq, labels]

end Ds

section Keys

private theorem fromSigningKey_crypto {signingKey : Crypto} {key : DnssecKey} (made : DnssecKey.fromSigningKey signingKey = .ok key) :
    key.crypto = signingKey := by
  obtain ⟨tag, _, made⟩ := bind_eq_ok_iff.mp made
  cases made
  rfl

private theorem decorates_self (ds : List Char) : Decorates ds ds := by
  induction ds with
  | nil => exact .nil
  | cons d rest ih => exact .digit rfl ih

/-- The digits of an accepted scalar are read as the key made of it. -/
theorem fromPrivateKeyStr_hex {p256 : P256} {scalar : Bytes} (size : scalar.length = 32) {signingKey : Crypto}
    (accepted : p256.fromSlice scalar = some signingKey) {key : DnssecKey} (made : DnssecKey.fromSigningKey signingKey = .ok key) :
    DnssecKey.fromPrivateKeyStr p256 (.ofChars (scalar.flatMap hexPair)) = .ok (.ok key) := by
  have text : Decorates (scalar.flatMap hexPair) (Str.ofChars (scalar.flatMap hexPair)).chars := by
    rw [Str.chars_ofChars]
    exact decorates_self _
  obtain ⟨digits, upper, kinds⟩ := unescaped_decorated size text
  obtain ⟨out, parsed, _, written⟩ := parseHexScalar_of_isScalarText digits
  rw [upper] at written
  rw [hexPairs_injective written] at parsed
  rw [DnssecKey.fromPrivateKeyStr, DnssecKey.parseSecret]
  simp only [digits.isEmpty_eq_false, not_contains_begin kinds, parsed, accepted, made, Bool.false_eq_true, if_false,
    pure_eq_ok, ok_bind, Option.elim_some]

private theorem trim_hexPairs {scalar : Bytes} (size : scalar.length = 32) :
    (Str.ofChars (scalar.flatMap hexPair)).trim.isEmpty = false := by
  obtain ⟨b, rest, rfl⟩ := List.exists_cons_of_length_pos (show 0 < scalar.length by omega)
  have first : upperDigit (b.toNat / 16) ∈ (b :: rest).flatMap hexPair := by simp [hexPair]
  have digit := (mem_hexPairs first).1
  have ascii := isHexdigitChar_ascii digit
  have value : (UInt8.ofNat (upperDigit (b.toNat / 16)).toNat).toNat = (upperDigit (b.toNat / 16)).toNat := by
    rw [UInt8.toNat_ofNat', Nat.mod_eq_of_lt (by omega)]
  apply trim_nonempty (b := UInt8.ofNat (upperDigit (b.toNat / 16)).toNat) _ (by omega)
  · intro c same
    rw [value, Char.toNat_inj] at same
    rw [same]
    exact not_isWhitespace_of_digit digit
  · rw [bytes_hexPairs, List.flatMap_cons, (hexPair_table b).1]
    simp

end Keys

/-- Under the digits that are printed for a generated key, and the zone that it was generated for, the server comes up with this
key. The DS record that was printed for the parent, the one that is printed at the start and the CDS RDATA are one. -/
theorem printed_key_loads {p256 : P256} {generated : Generated}
    (accepted : p256.fromSlice generated.scalar.toList = some generated.signingKey) {env : Environment} {zone : Str}
    (named : env.var "GLUE_NAME" = some zone) :
    ∃ printed hex ds key, generateAndPrint generated env = .ok printed ∧ hexEncode generated.scalar.toList = .ok hex ∧
      .ofString "DNSSEC_PRIVATE_KEY=" ++ hex ∈ printed ∧ zone.trimEndMatches dot ++ .ofString ". IN DS " ++ ds ∈ printed ∧
      readDsText ds.bytes = some (key.dsRdata zone) ∧ key.crypto = generated.signingKey ∧
      ∀ env', env'.var "DNSSEC_PRIVATE_KEY" = some hex → DnssecKey.fromEnv p256 env' = .ok (.ok (some key)) ∧
        ∀ config, env'.var "GLUE_NAME" = some zone → Config.fromEnv p256 env' = .ok (.ok config) →
          config.dnssec = some key ∧ config.glueName = zone ∧
          ∃ lines ds', printedAtStart config = .ok lines ∧ .ofString "  DS: " ++ zone ++ .ofString " IN DS " ++ ds' ∈ lines ∧
            readDsText ds'.bytes = some (key.dsRdata zone) := by
  obtain ⟨key, made⟩ := fromSigningKey_returns generated.signingKey
  have size : generated.scalar.toList.length = 32 := by simp
  obtain ⟨ds, presented, read⟩ := dsPresentation_reads key (zone.trimEndMatches dot)
  obtain ⟨digest, digested, _⟩ := bind_eq_ok_iff.mp presented
  have zoned : (env.varOr "GLUE_NAME" "example.com").trimEndMatches dot = zone.trimEndMatches dot := by
    rw [Environment.varOr, named, Option.getD_some]
  rw [dsRdata_trimEndMatches] at read
  obtain ⟨printed, output, hex, line⟩ : ∃ printed, generateAndPrint generated env = .ok printed ∧
      .ofString "DNSSEC_PRIVATE_KEY=" ++ .ofChars (generated.scalar.toList.flatMap hexPair) ∈ printed ∧
      zone.trimEndMatches dot ++ .ofString ". IN DS " ++ ds ∈ printed := by
    rw [generateAndPrint, made, ok_bind, hexEncode_eq, ok_bind, zoned]
    dsimp only
    rw [digested, ok_bind, presented, ok_bind, pure_eq_ok]
    exact ⟨_, rfl, by simp, by simp⟩
  refine ⟨printed, _, ds, key, output, hexEncode_eq _, hex, line, read, fromSigningKey_crypto made, fun env' secret => ?_⟩
  have loaded : DnssecKey.fromEnv p256 env' = .ok (.ok (some key)) := by
    rw [DnssecKey.fromEnv, secret]
    dsimp only
    rw [if_neg (by simp [trim_hexPairs size]), fromPrivateKeyStr_hex size accepted made]
    rfl
  refine ⟨loaded, fun config apex started => ?_⟩
  obtain ⟨withKey, plain, keyed, whole⟩ := fromEnv_eq_ok started
  have dnssec : config.dnssec = some key := by
    rw [keyed] at loaded
    exact Except.ok.inj (Except.ok.inj loaded)
  have glueName : config.glueName = zone := by
    rw [← whole, (keyless_eq_ok plain config.dnssec).1, Environment.glueName, Environment.varOr, apex, Option.getD_some]
  obtain ⟨ds', presented', read'⟩ := dsPresentation_reads key zone
  obtain ⟨lines, start, line'⟩ : ∃ lines, printedAtStart config = .ok lines ∧
      .ofString "  DS: " ++ zone ++ .ofString " IN DS " ++ ds' ∈ lines := by
    rw [printedAtStart, dnssec, glueName]
    dsimp only
    rw [presented', ok_bind]
    exact ⟨_, rfl, by simp⟩
  exact ⟨dnssec, glueName, lines, ds', start, line', read'⟩

/-- A secret of 32 equal octets, and the library that knows it. -/
def sampleGenerated : Generated := ⟨.replicate 32 0xAB, sampleKey.crypto, .empty⟩
def sampleP256 : P256 := ⟨fun scalar => if scalar.length = 32 then some sampleKey.crypto else none, fun _ => .error .empty, fun _ => none⟩

/-- A zone, without a key and with the generated one. -/
def sampleEntries : List (String × Option Str) := [("GLUE_NAME", some (.ofString "nip.nu"))]
def keyedEntries : List (String × Option Str) :=
  ("DNSSEC_PRIVATE_KEY", some (.ofChars (sampleGenerated.scalar.toList.flatMap hexPair))) :: sampleEntries

private theorem sampleEntries_values : AreValues sampleEntries := by
  rintro _ (_ | ⟨_, ⟨⟩⟩) _ ⟨⟩
  decide +kernel

private theorem keyedEntries_values : AreValues keyedEntries := by
  rintro _ (_ | ⟨_, member⟩) value given
  · obtain rfl := Option.some.inj given
    decide +kernel
  · exact sampleEntries_values _ member value given

private theorem sampleP256_accepts : sampleP256.fromSlice sampleGenerated.scalar.toList = some sampleGenerated.signingKey := by
  simp [sampleP256, sampleGenerated]

theorem printed_key_loads_sample :
    ∃ printed hex ds key, generateAndPrint sampleGenerated (.ofEntries _ sampleEntries_values) = .ok printed ∧
      .ofString "DNSSEC_PRIVATE_KEY=" ++ hex ∈ printed ∧ .ofString "nip.nu. IN DS " ++ ds ∈ printed ∧
      readDsText ds.bytes = some (key.dsRdata (.ofString "nip.nu")) ∧
      ∃ config, Config.fromEnv sampleP256 (.ofEntries _ keyedEntries_values) = .ok (.ok config) ∧ config.dnssec = some key := by
  obtain ⟨printed, hex, ds, key, output, written, line, parent, read, _, loads⟩ :=
    @printed_key_loads sampleP256 sampleGenerated sampleP256_accepts (.ofEntries _ sampleEntries_values) (.ofString "nip.nu") rfl
  rw [hexEncode_eq] at written
  obtain rfl := Except.ok.inj written
  have loaded := (loads (.ofEntries _ keyedEntries_values) rfl).1
  obtain ⟨withKey, plain⟩ : ∃ withKey, Config.keyless (.ofEntries _ keyedEntries_values) = .ok withKey := by
    exact ⟨_, rfl⟩
  have started : Config.fromEnv sampleP256 (.ofEntries _ keyedEntries_values) = .ok (.ok (withKey (some key))) := by
    rw [Config.fromEnv, plain]
    dsimp only
    rw [loaded]
    rfl
  exact ⟨printed, _, ds, key, output, line, parent, read, _, started, ((loads _ rfl).2 _ rfl started).1⟩

end RustyAlias
