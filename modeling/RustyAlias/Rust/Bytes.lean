import RustyAlias.Rust.Panic

/-! # Octet strings

`&[u8]` and `Vec<u8>` are lists of octets. A `Slice` is one that exists in memory, so its length
fits `isize`; buffers under construction are plain lists. Big-endian fields and the ASCII case
folding of `u8` come with the small facts that the rest of the development rewrites by.
-/

namespace Rust

abbrev Bytes := List UInt8

/-- `&[u8]`: an octet string in memory. -/
structure Slice where
  data : Bytes
  length_le : data.length ≤ isizeMax

def Slice.len (s : Slice) : ℕ := s.data.length

/-- `u16::to_be_bytes`. -/
def be16 (value : UInt16) : Bytes := [UInt8.ofNat (value.toNat / 256), UInt8.ofNat value.toNat]

/-- `u32::to_be_bytes`. -/
def be32 (value : UInt32) : Bytes :=
  [UInt8.ofNat (value.toNat / 2 ^ 24), UInt8.ofNat (value.toNat / 2 ^ 16),
    UInt8.ofNat (value.toNat / 2 ^ 8), UInt8.ofNat value.toNat]

/-- `u16::from_be_bytes`. -/
def fromBe16 (high low : UInt8) : UInt16 := UInt16.ofNat (high.toNat * 256 + low.toNat)

/-- `u32::from_be_bytes`. -/
def fromBe32 (a b c d : UInt8) : UInt32 :=
  UInt32.ofNat (a.toNat * 2 ^ 24 + b.toNat * 2 ^ 16 + c.toNat * 2 ^ 8 + d.toNat)

@[simp] theorem be16_length (value : UInt16) : (be16 value).length = 2 := rfl

@[simp] theorem be32_length (value : UInt32) : (be32 value).length = 4 := rfl

theorem fromBe16_be16 (value : UInt16) :
    fromBe16 (UInt8.ofNat (value.toNat / 256)) (UInt8.ofNat value.toNat) = value := by
  apply UInt16.toNat_inj.mp
  have := value.toNat_lt
  simp only [fromBe16, UInt16.toNat_ofNat', UInt8.toNat_ofNat']
  omega

theorem fromBe32_be32 (value : UInt32) :
    fromBe32 (UInt8.ofNat (value.toNat / 2 ^ 24)) (UInt8.ofNat (value.toNat / 2 ^ 16))
      (UInt8.ofNat (value.toNat / 2 ^ 8)) (UInt8.ofNat value.toNat) = value := by
  apply UInt32.toNat_inj.mp
  have := value.toNat_lt
  simp only [fromBe32, UInt32.toNat_ofNat', UInt8.toNat_ofNat']
  omega

theorem be16_fromBe16 (high low : UInt8) : be16 (fromBe16 high low) = [high, low] := by
  have := high.toNat_lt
  have := low.toNat_lt
  simp only [be16, fromBe16, UInt16.toNat_ofNat', List.cons.injEq, and_true, ← UInt8.toNat_inj,
    UInt8.toNat_ofNat']
  omega

/-- `u16::saturating_add(1)`. -/
def saturatingSucc (n : UInt16) : UInt16 := if n.toNat = 65535 then n else n + 1

/-- `u8::to_ascii_lowercase`. -/
def toLower (b : UInt8) : UInt8 := if 65 ≤ b ∧ b ≤ 90 then b + 32 else b

theorem toLower_toNat (b : UInt8) :
    (toLower b).toNat = if 65 ≤ b.toNat ∧ b.toNat ≤ 90 then b.toNat + 32 else b.toNat := by
  simp only [toLower, UInt8.le_iff_toNat_le, UInt8.reduceToNat]
  split
  · simp only [UInt8.toNat_add, UInt8.reduceToNat]; omega
  · rfl

@[simp] theorem toLower_toLower (b : UInt8) : toLower (toLower b) = toLower b := by
  apply UInt8.toNat_inj.mp
  rw [toLower_toNat, if_neg (by rw [toLower_toNat]; split <;> omega)]

/-- Folding neither makes nor removes an octet below the letters, such as `.` and `-`. -/
theorem toLower_eq_iff {c : UInt8} (small : c.toNat < 65) (b : UInt8) : toLower b = c ↔ b = c := by
  rw [← UInt8.toNat_inj, ← UInt8.toNat_inj, toLower_toNat]
  split <;> omega

theorem toLower_lt_iff (b : UInt8) : toLower b < 128 ↔ b < 128 := by
  simp only [UInt8.lt_iff_toNat_lt, toLower_toNat, UInt8.reduceToNat]
  split <;> omega

/-- `[u8]::to_ascii_lowercase`. -/
def lowerAll (bytes : Bytes) : Bytes := bytes.map toLower

@[simp] theorem lowerAll_nil : lowerAll [] = [] := rfl

@[simp] theorem lowerAll_cons (b : UInt8) (rest : Bytes) : lowerAll (b :: rest) = toLower b :: lowerAll rest := rfl

@[simp] theorem lowerAll_append (a b : Bytes) : lowerAll (a ++ b) = lowerAll a ++ lowerAll b := List.map_append

@[simp] theorem lowerAll_length (a : Bytes) : (lowerAll a).length = a.length := List.length_map _

@[simp] theorem lowerAll_lowerAll (a : Bytes) : lowerAll (lowerAll a) = lowerAll a := by
  simp [lowerAll]

/-- `[u8]::eq_ignore_ascii_case`. -/
def eqIgnoreCase (a b : Bytes) : Bool := lowerAll a == lowerAll b

theorem eqIgnoreCase_iff {a b : Bytes} : eqIgnoreCase a b = true ↔ lowerAll a = lowerAll b := beq_iff_eq

end Rust
