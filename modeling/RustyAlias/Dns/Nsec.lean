import RustyAlias.Dns.Name

/-! # Type bitmaps

The types that an NSEC record lists, read from its bitmap as section 4.1.2 of RFC 4034 lays it out:
blocks of a window number, a count of octets, and that many octets, whose bits stand for the types of
the window from the most significant bit of the first octet on.
-/

namespace Dns

open Rust

/-- The types of a window whose bits are set. -/
def blockTypes (window : UInt8) (bits : Bytes) : List UInt16 :=
  ((List.range (8 * bits.length)).filter fun i => (bits.getD (i / 8) 0).toNat.testBit (7 - i % 8)).map
    fun i => UInt16.ofNat (window.toNat * 256 + i)

/-- The types that a bitmap lists. -/
def readTypes : Bytes → Option (List UInt16)
  | [] => some []
  | window :: len :: rest =>
    if 1 ≤ len.toNat ∧ len.toNat ≤ 32 ∧ len.toNat ≤ rest.length then
      (readTypes (rest.drop len.toNat)).map (blockTypes window (rest.take len.toNat) ++ ·)
    else none
  | [_] => none
termination_by octets => octets.length
decreasing_by simp only [List.length_drop, List.length_cons]; omega

theorem readTypes_nil : readTypes [] = some [] := by rw [readTypes]

theorem readTypes_block {window : UInt8} {bits : Bytes} (some : 1 ≤ bits.length) (few : bits.length ≤ 32) (rest : Bytes) :
    readTypes (window :: UInt8.ofNat bits.length :: (bits ++ rest)) = (readTypes rest).map (blockTypes window bits ++ ·) := by
  have octet : (UInt8.ofNat bits.length).toNat = bits.length := by simp only [UInt8.toNat_ofNat']; omega
  rw [readTypes, octet, if_pos ⟨some, few, by simp⟩, List.take_left, List.drop_left]

/-- The blocks behind a bitmap add their types. -/
theorem readTypes_append {a : Bytes} {types : List UInt16} (read : readTypes a = some types) (b : Bytes) :
    readTypes (a ++ b) = (readTypes b).map (types ++ ·) := by
  induction a using readTypes.induct generalizing types with
  | case1 =>
    rw [readTypes_nil] at read
    cases read
    simp
  | case2 window len rest fits ih =>
    rw [readTypes, if_pos fits] at read
    obtain ⟨others, following, rfl⟩ := Option.map_eq_some_iff.mp read
    have room : 1 ≤ len.toNat ∧ len.toNat ≤ 32 ∧ len.toNat ≤ (rest ++ b).length := by simp; omega
    rw [List.cons_append, List.cons_append, readTypes, if_pos room, List.take_append_of_le_length fits.2.2,
      List.drop_append_of_le_length fits.2.2, ih following, Option.map_map]
    congr 1
    funext more
    simp
  | case3 window len rest fails =>
    rw [readTypes, if_neg fails] at read
    cases read
  | case4 =>
    rw [readTypes] at read
    cases read

theorem mem_blockTypes {window : UInt8} {bits : Bytes} (few : bits.length ≤ 32) (t : UInt16) :
    t ∈ blockTypes window bits ↔ t.toNat / 256 = window.toNat ∧ t.toNat % 256 / 8 < bits.length ∧
      (bits.getD (t.toNat % 256 / 8) 0).toNat.testBit (7 - t.toNat % 256 % 8) = true := by
  have wide := window.toNat_lt
  simp only [blockTypes, List.mem_map, List.mem_filter, List.mem_range]
  constructor
  · rintro ⟨i, ⟨bound, set⟩, rfl⟩
    have value : (UInt16.ofNat (window.toNat * 256 + i)).toNat = window.toNat * 256 + i := by
      simp only [UInt16.toNat_ofNat']
      omega
    have low : (window.toNat * 256 + i) % 256 = i := by omega
    rw [value, low]
    exact ⟨by omega, by omega, set⟩
  · rintro ⟨high, bound, set⟩
    refine ⟨t.toNat % 256, ⟨by omega, set⟩, ?_⟩
    apply UInt16.toNat_inj.mp
    have small := t.toNat_lt
    simp only [UInt16.toNat_ofNat']
    omega

/-- A window block: a window number and up to 32 octets, of which the last is not zero. -/
structure Block where
  window : UInt8
  bits : Bytes
  few : bits.length ≤ 32
  last : ∃ octet ∈ bits.getLast?, octet ≠ 0

namespace Block

/-- The octets of a block, behind their count. -/
def encode (block : Block) : Bytes := block.window :: UInt8.ofNat block.bits.length :: block.bits

theorem nonempty (block : Block) : 1 ≤ block.bits.length := by
  obtain ⟨octet, last, _⟩ := block.last
  exact List.length_pos_of_mem (List.mem_of_getLast? last)

/-- A block announces as many octets as follow. -/
theorem count_toNat (block : Block) : (UInt8.ofNat block.bits.length).toNat = block.bits.length := by
  have few := block.few
  simp only [UInt8.toNat_ofNat']
  omega

end Block

end Dns
