import RustyAlias.Rust.Numbers

/-! # DS records as text

The presentation format of section 5.3 of RFC 4034, read as a registry reads it: three decimal fields
and the digest in hexadecimal, case-insensitive, which blanks may cut into pieces.
-/

namespace Dns

open Rust

/-- Pairs of hexadecimal digits. -/
def unhex : Bytes → Option Bytes
  | [] => some []
  | [_] => none
  | a :: b :: rest => do
    let high ← toDigit 16 a
    let low ← toDigit 16 b
    return UInt8.ofNat (high * 16 + low) :: (← unhex rest)

/-- A decimal field. -/
def readField (max : ℕ) (text : Bytes) : Option ℕ := (digitsValue 10 text).filter fun n => text ≠ [] ∧ n ≤ max

/-- DS RDATA. -/
def readDsText (text : Bytes) : Option Bytes :=
  match text.splitOn 32 with
  | keyTag :: algorithm :: digestType :: digest => do
    let keyTag ← readField 65535 keyTag
    let algorithm ← readField 255 algorithm
    let digestType ← readField 255 digestType
    let digest ← unhex digest.flatten
    return be16 (UInt16.ofNat keyTag) ++ [UInt8.ofNat algorithm, UInt8.ofNat digestType] ++ digest
  | _ => none

theorem readField_decimal {max n : ℕ} (fits : n ≤ max) : readField max (decimal n).bytes = some n := by
  rw [readField, digitsValue_inRadix (by decide) (by decide), Option.filter_some,
    if_pos (by simpa using ⟨inRadix_ne_nil (by decide) (by decide) n, fits⟩)]

theorem unhex_flatMap {pair : UInt8 → Bytes} (each : ∀ b, ∃ x y, pair b = [x, y] ∧ toDigit 16 x = some (b.toNat / 16) ∧
    toDigit 16 y = some (b.toNat % 16)) (bytes : Bytes) : unhex (bytes.flatMap pair) = some bytes := by
  induction bytes with
  | nil => rfl
  | cons b rest ih =>
    obtain ⟨x, y, shape, high, low⟩ := each b
    have whole : b.toNat / 16 * 16 + b.toNat % 16 = b.toNat := by omega
    rw [List.flatMap_cons, shape, List.cons_append, List.cons_append, List.nil_append, unhex, high, low, ih]
    change some (UInt8.ofNat (b.toNat / 16 * 16 + b.toNat % 16) :: rest) = some (b :: rest)
    rw [whole, UInt8.ofNat_toNat]

/-- Fields without blanks are told apart. -/
theorem readDsText_fields {keyTag algorithm digestType : ℕ} {digits digest : Bytes} (first : keyTag ≤ 65535)
    (second : algorithm ≤ 255) (third : digestType ≤ 255) (free : 32 ∉ digits) (read : unhex digits = some digest) :
    readDsText ((decimal keyTag).bytes ++ 32 :: ((decimal algorithm).bytes ++ 32 :: ((decimal digestType).bytes ++ 32 :: digits))) =
      some (be16 (UInt16.ofNat keyTag) ++ [UInt8.ofNat algorithm, UInt8.ofNat digestType] ++ digest) := by
  have blank (n : ℕ) : 32 ∉ (decimal n).bytes := by
    intro inside
    have digit := inRadix_digits (by decide) (by decide) inside
    contradiction
  have pieces : ([(32 : UInt8)].intercalate [(decimal keyTag).bytes, (decimal algorithm).bytes, (decimal digestType).bytes,
      digits]).splitOn 32 = [(decimal keyTag).bytes, (decimal algorithm).bytes, (decimal digestType).bytes, digits] := by
    apply List.splitOn_intercalate
    · simpa using ⟨blank _, blank _, blank _, free⟩
    · simp
  simp only [List.intercalate_cons_cons, List.intercalate_singleton, List.append_assoc, List.singleton_append] at pieces
  rw [readDsText, pieces]
  simp [readField_decimal first, readField_decimal second, readField_decimal third, read]

end Dns
