import RustyAlias.Proofs.Nsec

/-! # Type bitmaps are canonical

A bitmap lists the given types and no others, in window blocks as section 4.1.2 of RFC 4034 asks for
them. Neither the order of the types nor repetitions matter.
-/

namespace RustyAlias

open Rust Rust.Outcome Dns

/-- `type_bitmap` sees the set of its types only. -/
theorem typeBitmap_congr {types others : List UInt16} (same : ∀ t, t ∈ others ↔ t ∈ types) : typeBitmap others = typeBitmap types := by
  have sorted : others.mergeSort.eraseReps = types.mergeSort.eraseReps :=
    (sortedTypes_pairwise others).eq_of_mem_iff (sortedTypes_pairwise types) fun t => by
      simp only [List.mem_eraseReps, List.mem_mergeSort, same t]
  rw [typeBitmap, typeBitmap, sorted]

/-- The bitmap of some types consists of blocks with rising window numbers, each with its count of 1 to 32 octets, the last
of which is not zero; it reads as the types; and it is that of every list of the same types. -/
theorem typeBitmap_canonical {types : List UInt16} (nonempty : types ≠ []) :
    (∃ (blocks : List Block) (listed : List UInt16), typeBitmap types = .ok (blocks.flatMap Block.encode) ∧
      blocks.Pairwise (fun a b => a.window < b.window) ∧
      (∀ block ∈ blocks, 1 ≤ block.bits.length ∧ block.bits.length ≤ 32 ∧
        (UInt8.ofNat block.bits.length).toNat = block.bits.length ∧ block.bits.getLast? ≠ some 0) ∧
      readTypes (blocks.flatMap Block.encode) = some listed ∧ ∀ t, t ∈ listed ↔ t ∈ types) ∧
    (∀ others : List UInt16, (∀ t, t ∈ others ↔ t ∈ types) → typeBitmap others = typeBitmap types) ∧
    ∃ bitmap listed, typeBitmap (nsecTypes types) = .ok bitmap ∧ readTypes bitmap = some listed ∧
      ∀ t, t ∈ listed ↔ t ∈ types ∨ t = typeNsec ∨ t = typeRrsig := by
  refine ⟨?_, fun others same => typeBitmap_congr same, nsecTypes_reads types⟩
  obtain ⟨blocks, result, rising⟩ := typeBitmap_blocks nonempty
  obtain ⟨bitmap, listed, result', read, same⟩ := typeBitmap_reads nonempty
  obtain rfl : blocks.flatMap Block.encode = bitmap := Except.ok.inj (result.symm.trans result')
  refine ⟨blocks, listed, result, rising, fun block _ => ⟨block.nonempty, block.few, block.count_toNat, ?_⟩, read, same⟩
  obtain ⟨octet, last, nonzero⟩ := block.last
  rw [Option.mem_def.mp last]
  simpa using nonzero

/-- Two windows, the second with a type of its last octet. -/
theorem typeBitmap_canonical_twoWindows :
    (∃ (blocks : List Block) (listed : List UInt16), typeBitmap [511, 1] = .ok (blocks.flatMap Block.encode) ∧
      blocks.Pairwise (fun a b => a.window < b.window) ∧
      (∀ block ∈ blocks, 1 ≤ block.bits.length ∧ block.bits.length ≤ 32 ∧
        (UInt8.ofNat block.bits.length).toNat = block.bits.length ∧ block.bits.getLast? ≠ some 0) ∧
      readTypes (blocks.flatMap Block.encode) = some listed ∧ ∀ t, t ∈ listed ↔ t ∈ [511, 1]) ∧
    (∀ others : List UInt16, (∀ t, t ∈ others ↔ t ∈ [511, 1]) → typeBitmap others = typeBitmap [511, 1]) ∧
    ∃ bitmap listed, typeBitmap (nsecTypes [511, 1]) = .ok bitmap ∧ readTypes bitmap = some listed ∧
      ∀ t, t ∈ listed ↔ t ∈ [511, 1] ∨ t = typeNsec ∨ t = typeRrsig :=
  typeBitmap_canonical (by decide)

end RustyAlias
