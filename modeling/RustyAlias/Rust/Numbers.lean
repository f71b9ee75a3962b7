import RustyAlias.Rust.Chars
import RustyAlias.Rust.Net

/-! # Integers as text

`str::parse` of `u32` and `u64`, and the `Display` of unsigned integers in a radix. What is displayed
is digits alone, and is parsed as the number that was displayed.
-/

namespace Rust

/-- `from_str_radix(s, 10)` of an unsigned type up to `max`, without its error. -/
def unsignedFromStr (max : ℕ) (s : Bytes) : Option ℕ :=
  let digits := if s.head? = some 43 then s.tail else s
  if digits = [] then none
  else (digitsValue 10 digits).bind fun n => if n ≤ max then some n else none

/-- `str::parse::<u32>`, without its error. -/
def parseU32 (s : Str) : Option UInt32 := (unsignedFromStr (2 ^ 32 - 1) s.bytes).map UInt32.ofNat

/-- `str::parse::<u64>`, without its error. -/
def parseU64 (s : Str) : Option UInt64 := (unsignedFromStr (2 ^ 64 - 1) s.bytes).map UInt64.ofNat

/-- The digits of a number. -/
def inRadix (radix n : ℕ) : Str := .ofChars (Nat.toDigits radix n)

/-- `Display` of an unsigned integer. -/
abbrev decimal (n : ℕ) : Str := inRadix 10 n

section Digits

variable {radix n : ℕ}

theorem digitChar_table : ∀ radix ≤ 16, ∀ d < radix, d.digitChar.toNat < 0x80 ∧
    toDigit radix (UInt8.ofNat d.digitChar.toNat) = some d := by decide +kernel

theorem mem_toDigits {c : Char} (two : 1 < radix) (member : c ∈ Nat.toDigits radix n) : ∃ d < radix, c = d.digitChar := by
  induction n using Nat.strongRecOn with
  | ind n ih =>
    rw [Nat.toDigits_eq_if two] at member
    split at member
    · next small => exact ⟨n, small, List.mem_singleton.mp member⟩
    · next large =>
      rcases List.mem_append.mp member with front | last
      · exact ih (n / radix) (Nat.div_lt_self (by omega) two) front
      · exact ⟨n % radix, Nat.mod_lt _ (by omega), List.mem_singleton.mp last⟩

variable (two : 1 < radix) (sixteen : radix ≤ 16)

include two sixteen

/-- One octet for each digit. -/
theorem bytes_inRadix (n : ℕ) : (inRadix radix n).bytes = (Nat.toDigits radix n).map (UInt8.ofNat ·.toNat) := by
  apply Utf8.encode_ascii
  intro c member
  obtain ⟨d, small, rfl⟩ := mem_toDigits two member
  exact (digitChar_table radix sixteen d small).1

theorem inRadix_digits {b : UInt8} (member : b ∈ (inRadix radix n).bytes) : (toDigit radix b).isSome = true := by
  rw [bytes_inRadix two sixteen] at member
  obtain ⟨c, inside, rfl⟩ := List.mem_map.mp member
  obtain ⟨d, small, rfl⟩ := mem_toDigits two inside
  rw [(digitChar_table radix sixteen d small).2]
  rfl

theorem inRadix_ne_nil (n : ℕ) : (inRadix radix n).bytes ≠ [] := by
  rw [bytes_inRadix two sixteen, ne_eq, List.map_eq_nil_iff]
  exact Nat.toDigits_ne_nil

theorem length_inRadix_le {k : ℕ} (positive : 0 < k) (small : n < radix ^ k) : (inRadix radix n).bytes.length ≤ k := by
  rw [bytes_inRadix two sixteen, List.length_map]
  exact (Nat.length_toDigits_le_iff two positive).mpr small

omit two sixteen in
theorem digitsValue_concat (digits : Bytes) (b : UInt8) : digitsValue radix (digits ++ [b]) =
    (digitsValue radix digits).bind fun value => (toDigit radix b).map (value * radix + ·) := by
  rw [digitsValue, List.foldlM_append, ← digitsValue]
  cases digitsValue radix digits with
  | none => rfl
  | some value => cases digit : toDigit radix b <;> simp [digit]

/-- The digits of a number denote it. -/
theorem digitsValue_inRadix (n : ℕ) : digitsValue radix (inRadix radix n).bytes = some n := by
  induction n using Nat.strongRecOn with
  | ind n ih =>
    rw [bytes_inRadix two sixteen, Nat.toDigits_eq_if two]
    split
    · next small => simp [digitsValue, (digitChar_table radix sixteen n small).2]
    · next large =>
      have last := (digitChar_table radix sixteen (n % radix) (Nat.mod_lt _ (by omega))).2
      rw [List.map_append, List.map_singleton, digitsValue_concat, ← bytes_inRadix two sixteen,
        ih (n / radix) (Nat.div_lt_self (by omega) two), last]
      change some (n / radix * radix + n % radix) = some n
      rw [Nat.mul_comm, Nat.div_add_mod]

end Digits

/-- A displayed number is parsed as the number. -/
theorem unsignedFromStr_decimal {max n : ℕ} (fits : n ≤ max) : unsignedFromStr max (decimal n).bytes = some n := by
  have unsigned : (decimal n).bytes.head? ≠ some 43 := by
    intro plus
    have digit : (toDigit 10 43).isSome = true := inRadix_digits (by decide) (by decide) (List.mem_of_mem_head? plus)
    contradiction
  rw [unsignedFromStr, if_neg unsigned, if_neg (inRadix_ne_nil (by decide) (by decide) n),
    digitsValue_inRadix (by decide) (by decide), Option.bind_some, if_pos fits]

theorem parseU32_decimal (n : UInt32) : parseU32 (decimal n.toNat) = some n := by
  have small := n.toNat_lt
  rw [parseU32, unsignedFromStr_decimal (by omega), Option.map_some, UInt32.ofNat_toNat]

theorem parseU64_decimal (n : UInt64) : parseU64 (decimal n.toNat) = some n := by
  have small := n.toNat_lt
  rw [parseU64, unsignedFromStr_decimal (by omega), Option.map_some, UInt64.ofNat_toNat]

namespace Ipv4Addr

theorem decimalOctet_decimal : ∀ v : UInt8, decimalOctet (decimal v.toNat).bytes = some v := by decide +kernel

/-- Four decimal octets between dots. -/
def toStr (ip : Ipv4Addr) : Str := Str.join dot (ip.octets.map fun v => decimal v.toNat)

theorem fromStr_toStr (ip : Ipv4Addr) : fromStr ip.toStr = some ip := by
  have free : ∀ part ∈ (ip.octets.map fun v => decimal v.toNat).map Str.bytes, dot.1 ∉ part := by
    intro part member inside
    rw [List.map_map] at member
    obtain ⟨v, _, rfl⟩ := List.mem_map.mp member
    have digit := inRadix_digits (by decide) (by decide) inside
    contradiction
  have pieces : ip.toStr.bytes.splitOn dot.1 = (ip.octets.map fun v => decimal v.toNat).map Str.bytes :=
    List.splitOn_intercalate _ free (by simp [octets])
  rw [fromStr, parseOctets, pieces]
  simp [octets, decimalOctet_decimal]

end Ipv4Addr

end Rust
