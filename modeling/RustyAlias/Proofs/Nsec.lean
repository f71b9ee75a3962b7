import RustyAlias.Dns.Nsec
import RustyAlias.Proofs.Dnssec

/-! # The bitmap lists the types

The loop over the types closes a block whenever the window changes. Between two types the written
blocks and the bits of the open window together list the types so far, whatever their order.
-/

namespace RustyAlias

open Rust Rust.Outcome Dns

/-- Whether the bit of a type is set among those of its window. -/
def bitOf (bits : Bytes) (i : ℕ) : Bool := (bits.getD (i / 8) 0).toNat.testBit (7 - i % 8)

private theorem bitOf_take {bits : Bytes} {i n : ℕ} (inside : i / 8 < n) : bitOf (bits.take n) i = bitOf bits i := by
  simp only [bitOf, List.getD_eq_getElem?_getD, List.getElem?_take_of_lt inside]

private theorem testBit_setBit : ∀ octet : UInt8, ∀ k < 8, ∀ j < 8,
    (octet ||| ((1 : UInt8) <<< UInt8.ofNat k)).toNat.testBit j = (octet.toNat.testBit j || decide (j = k)) := by
  decide +kernel

/-- Setting one bit sets no other. -/
theorem bitOf_set {bits : Bytes} {i : ℕ} (inside : i / 8 < bits.length) (j : ℕ) :
    bitOf (bits.set (i / 8) (bits.getD (i / 8) 0 ||| ((1 : UInt8) <<< UInt8.ofNat (7 - i % 8)))) j =
      (bitOf bits j || decide (j = i)) := by
  simp only [bitOf, List.getD_eq_getElem?_getD, List.getElem?_set]
  by_cases same : i / 8 = j / 8
  · rw [if_pos same, if_pos (same ▸ inside), ← same, Option.getD_some, testBit_setBit _ _ (by omega) _ (by omega)]
    congr 1
    rw [decide_eq_decide]
    omega
  · rw [if_neg same, decide_eq_false (by omega : ¬ j = i), Bool.or_false]

/-- The state of `type_bitmap` after some types: those of the closed blocks, and those of the open window. -/
structure Bitmap.Holds (s : Bitmap) (closed opened : List UInt16) : Prop where
  ready : s.Ready
  closed : ∃ types, readTypes s.out = some types ∧ ∀ t, t ∈ types ↔ t ∈ closed
  window : ∀ t ∈ opened, s.window = some (UInt8.ofNat (t.toNat / 256))
  bits : ∀ i < 256, bitOf s.bits i = true ↔ ∃ t ∈ opened, t.toNat % 256 = i
  within : ∀ t ∈ opened, t.toNat % 256 / 8 ≤ s.maxByte

private theorem window_toNat (t : UInt16) : (UInt8.ofNat (t.toNat / 256)).toNat = t.toNat / 256 := by
  have := t.toNat_lt
  simp only [UInt8.toNat_ofNat']
  omega

theorem Bitmap.start_holds : Bitmap.start.Holds [] [] where
  ready := ⟨by simp [Bitmap.start], by simp [Bitmap.start]⟩
  closed := ⟨[], readTypes_nil, by simp⟩
  window := by simp
  bits i bound := by
    have zero : (List.replicate 32 (0 : UInt8)).getD (i / 8) 0 = 0 := by
      rw [List.getD_eq_getElem?_getD, List.getElem?_replicate]
      split <;> rfl
    have clear : bitOf Bitmap.start.bits i = false := by
      change ((List.replicate 32 (0 : UInt8)).getD (i / 8) 0).toNat.testBit (7 - i % 8) = false
      rw [zero]
      exact Nat.zero_testBit _
    rw [clear]
    simp
  within := by simp

/-- Closing the window writes a block that lists its types. -/
theorem Bitmap.Holds.flushed {s : Bitmap} {closed opened : List UInt16} (holds : s.Holds closed opened) {w : UInt8}
    (window : s.window = some w) : (s.flushed w).Holds (closed ++ opened) [] := by
  obtain ⟨room, last⟩ := holds.ready
  obtain ⟨types, read, listed⟩ := holds.closed
  have width : (s.bits.take (s.maxByte + 1)).length = s.maxByte + 1 := by rw [List.length_take]; omega
  have block := @readTypes_block w (s.bits.take (s.maxByte + 1)) (by omega) (by omega) []
  rw [readTypes_nil, Option.map_some, List.append_nil, List.append_nil, width] at block
  refine ⟨s.flushed_ready w, ⟨types ++ blockTypes w (s.bits.take (s.maxByte + 1)), ?_, fun t => ?_⟩, by simp,
    Bitmap.start_holds.bits, by simp⟩
  · rw [Bitmap.flushed, readTypes_append read, block]
    rfl
  · rw [List.mem_append, List.mem_append, listed, mem_blockTypes (by omega), width]
    refine or_congr_right ?_
    constructor
    · rintro ⟨high, inside, set⟩
      rw [← bitOf, bitOf_take inside, holds.bits _ (by omega)] at set
      obtain ⟨other, member, low⟩ := set
      have same : w.toNat = other.toNat / 256 := by
        have named := holds.window other member
        rw [window] at named
        rw [Option.some.inj named, window_toNat]
      obtain rfl : t = other := UInt16.toNat_inj.mp (by omega)
      exact member
    · intro member
      have named := holds.window t member
      rw [window] at named
      have inside := holds.within t member
      refine ⟨by rw [Option.some.inj named, window_toNat], by omega, ?_⟩
      rw [← bitOf, bitOf_take (by omega)]
      exact (holds.bits _ (by omega)).mpr ⟨t, member, rfl⟩

/-- One more type of the open window is listed. -/
theorem Bitmap.Holds.mark {s : Bitmap} {closed opened : List UInt16} (holds : s.Holds closed opened) {typ : UInt16}
    (same : ∀ t ∈ opened, t.toNat / 256 = typ.toNat / 256) : (s.mark typ).Holds closed (typ :: opened) := by
  have bit : typ.toNat % 256 / 8 < s.bits.length := by rw [holds.ready.bits]; omega
  refine ⟨holds.ready.mark typ, holds.closed, fun t member => ?_, fun i bound => ?_, fun t member => ?_⟩
  · rcases List.mem_cons.mp member with rfl | member
    · rfl
    · rw [same t member]
      rfl
  · rw [Bitmap.mark, bitOf_set bit, Bool.or_eq_true, holds.bits i bound, decide_eq_true_iff]
    simp only [List.mem_cons, exists_eq_or_imp]
    rw [or_comm, eq_comm]
  · rcases List.mem_cons.mp member with rfl | member
    · exact Nat.le_max_right ..
    · exact Nat.le_trans (holds.within t member) (Nat.le_max_left ..)

/-- One more type is listed. -/
theorem Bitmap.Holds.add {s : Bitmap} {closed opened : List UInt16} (holds : s.Holds closed opened) (typ : UInt16) :
    ∃ last closed' opened', s.add typ = .ok last ∧ last.Holds closed' opened' ∧ last.window ≠ none ∧
      ∀ t, t ∈ closed' ∨ t ∈ opened' ↔ (t ∈ closed ∨ t ∈ opened) ∨ t = typ := by
  rcases s.add_cases holds.ready typ with ⟨added, same⟩ | ⟨w, window, _, added⟩
  · refine ⟨_, closed, typ :: opened, added, holds.mark fun t member => ?_, by simp [Bitmap.mark], fun t => ?_⟩
    · rw [← window_toNat t, ← window_toNat typ, same _ (holds.window t member)]
    · rw [List.mem_cons]
      tauto
  · exact ⟨_, closed ++ opened, [typ], added, (holds.flushed window).mark (by simp), by simp [Bitmap.mark], by simp⟩

/-- All types are listed. -/
theorem Bitmap.Holds.foldlM {s : Bitmap} {closed opened : List UInt16} (holds : s.Holds closed opened) (types : List UInt16) :
    ∃ last closed' opened', types.foldlM Bitmap.add s = .ok last ∧ last.Holds closed' opened' ∧
      (types ≠ [] ∨ s.window ≠ none → last.window ≠ none) ∧ ∀ t, t ∈ closed' ∨ t ∈ opened' ↔ (t ∈ closed ∨ t ∈ opened) ∨ t ∈ types := by
  induction types generalizing s closed opened with
  | nil => exact ⟨s, closed, opened, rfl, holds, by simp, by simp⟩
  | cons typ rest ih =>
    obtain ⟨next, closed', opened', added, holds, some, listed⟩ := holds.add typ
    obtain ⟨last, closed'', opened'', folded, holds, kept, listed'⟩ := ih holds
    refine ⟨last, closed'', opened'', ?_, holds, fun _ => kept (.inr some), fun t => ?_⟩
    · rw [List.foldlM_cons, added, ok_bind, folded]
    · rw [listed', listed, List.mem_cons, or_assoc]

/-- The loop leaves a window open, which is closed behind it. -/
theorem typeBitmap_eq {types : List UInt16} (some : types ≠ []) :
    ∃ last closed opened w, types.mergeSort.eraseReps.foldlM Bitmap.add .start = .ok last ∧ last.Holds closed opened ∧
      (∀ t, t ∈ closed ++ opened ↔ t ∈ types) ∧ last.window = Option.some w ∧ typeBitmap types = .ok (last.flushed w).out := by
  have member (t : UInt16) : t ∈ types.mergeSort.eraseReps ↔ t ∈ types := by rw [List.mem_eraseReps, List.mem_mergeSort]
  have nonempty : types.mergeSort.eraseReps ≠ [] := by
    obtain ⟨t, inside⟩ := List.exists_mem_of_ne_nil types some
    exact List.ne_nil_of_mem ((member t).mpr inside)
  obtain ⟨last, closed, opened, folded, holds, kept, listed⟩ := Bitmap.start_holds.foldlM types.mergeSort.eraseReps
  obtain ⟨w, window⟩ := Option.ne_none_iff_exists'.mp (kept (.inl nonempty))
  refine ⟨last, closed, opened, w, folded, holds, fun t => ?_, window, ?_⟩
  · rw [List.mem_append, listed, member]
    simp
  · rw [typeBitmap, if_neg (by simpa using nonempty), folded, ok_bind, window]
    exact flush_eq holds.ready w

/-- The bitmap of some types lists them and no others. -/
theorem typeBitmap_reads {types : List UInt16} (some : types ≠ []) :
    ∃ bitmap listed, typeBitmap types = .ok bitmap ∧ readTypes bitmap = Option.some listed ∧ ∀ t, t ∈ listed ↔ t ∈ types := by
  obtain ⟨last, closed, opened, w, _, holds, same, window, result⟩ := typeBitmap_eq some
  obtain ⟨listed, read, all⟩ := (holds.flushed window).closed
  exact ⟨_, listed, result, read, fun t => (all t).trans (same t)⟩

theorem mem_nsecTypes (existing : List UInt16) (t : UInt16) :
    t ∈ nsecTypes existing ↔ t ∈ existing ∨ t = typeNsec ∨ t = typeRrsig := by
  rw [nsecTypes, List.mem_eraseReps, List.mem_mergeSort]
  simp

/-- The bitmap of an NSEC record lists the types of its name, NSEC and RRSIG. -/
theorem nsecTypes_reads (existing : List UInt16) :
    ∃ bitmap listed, typeBitmap (nsecTypes existing) = .ok bitmap ∧ readTypes bitmap = some listed ∧
      ∀ t, t ∈ listed ↔ t ∈ existing ∨ t = typeNsec ∨ t = typeRrsig := by
  have nonempty : nsecTypes existing ≠ [] := List.ne_nil_of_mem ((mem_nsecTypes existing typeNsec).mpr (.inr (.inl rfl)))
  obtain ⟨bitmap, listed, result, read, same⟩ := typeBitmap_reads nonempty
  exact ⟨bitmap, listed, result, read, fun t => (same t).trans (mem_nsecTypes existing t)⟩

/-- The state of `type_bitmap` after some types in order: blocks of rising windows below the open one, whose last octet
so far has a bit set. -/
structure Bitmap.Shaped (s : Bitmap) (blocks : List Block) : Prop where
  ready : s.Ready
  out : s.out = blocks.flatMap Block.encode
  rising : blocks.Pairwise fun a b => a.window < b.window
  below : ∀ block ∈ blocks, ∃ w, s.window = some w ∧ block.window < w
  last : s.window = none ∧ s.maxByte = 0 ∨ s.bits.getD s.maxByte 0 ≠ 0

theorem Bitmap.start_shaped : Bitmap.start.Shaped [] :=
  ⟨Bitmap.start_holds.ready, rfl, List.Pairwise.nil, by simp, .inl ⟨rfl, rfl⟩⟩

private theorem setBit_ne_zero (octet : UInt8) {k : ℕ} (inside : k < 8) : octet ||| ((1 : UInt8) <<< UInt8.ofNat k) ≠ 0 := by
  intro zero
  have set := testBit_setBit octet k inside k inside
  rw [zero] at set
  simp at set

/-- The last octet of a window has a bit set as soon as one type is. -/
theorem Bitmap.mark_last {s : Bitmap} (ready : s.Ready) (last : s.maxByte = 0 ∨ s.bits.getD s.maxByte 0 ≠ 0) (typ : UInt16) :
    (s.mark typ).bits.getD (s.mark typ).maxByte 0 ≠ 0 := by
  have bit : typ.toNat % 256 / 8 < s.bits.length := by rw [ready.bits]; omega
  simp only [Bitmap.mark, List.getD_eq_getElem?_getD, List.getElem?_set] at last ⊢
  by_cases higher : s.maxByte ≤ typ.toNat % 256 / 8
  · rw [max_eq_right higher, if_pos rfl, if_pos bit]
    exact setBit_ne_zero _ (by omega)
  · rw [max_eq_left (by omega), if_neg (by omega)]
    exact last.resolve_left (by omega)

/-- A type of a window above all blocks is set. -/
theorem Bitmap.Shaped.mark {s : Bitmap} {blocks : List Block} (shaped : s.Shaped blocks) {typ : UInt16}
    (above : ∀ block ∈ blocks, block.window < UInt8.ofNat (typ.toNat / 256)) : (s.mark typ).Shaped blocks where
  ready := shaped.ready.mark typ
  out := shaped.out
  rising := shaped.rising
  below block member := ⟨_, rfl, above block member⟩
  last := .inr (Bitmap.mark_last shaped.ready (shaped.last.imp_left And.right) typ)

/-- The open window is closed as one more block. -/
theorem Bitmap.Shaped.flushed {s : Bitmap} {blocks : List Block} (shaped : s.Shaped blocks) {w : UInt8}
    (window : s.window = some w) : ∃ block : Block, block.window = w ∧
      (s.flushed w).out = (blocks ++ [block]).flatMap Block.encode ∧
      (blocks ++ [block]).Pairwise fun a b => a.window < b.window := by
  obtain ⟨room, bound⟩ := shaped.ready
  have set : s.bits.getD s.maxByte 0 ≠ 0 := shaped.last.resolve_left fun fresh => by simp [window] at fresh
  have width : (s.bits.take (s.maxByte + 1)).length = s.maxByte + 1 := by rw [List.length_take]; omega
  have last : (s.bits.take (s.maxByte + 1)).getLast? = some (s.bits.getD s.maxByte 0) := by
    rw [List.getLast?_eq_getElem?, width, Nat.add_sub_cancel, List.getElem?_take_of_lt (by omega),
      List.getD_eq_getElem _ _ (by omega), List.getElem?_eq_getElem (by omega)]
  refine ⟨⟨w, s.bits.take (s.maxByte + 1), by omega, _, last, set⟩, rfl, ?_, ?_⟩
  · rw [List.flatMap_append, ← shaped.out, List.flatMap_singleton]
    change _ = s.out ++ w :: UInt8.ofNat (s.bits.take (s.maxByte + 1)).length :: s.bits.take (s.maxByte + 1)
    rw [width]
    rfl
  · refine List.pairwise_append.mpr ⟨shaped.rising, List.pairwise_singleton .., fun block member other alone => ?_⟩
    obtain ⟨w', window', less⟩ := shaped.below block member
    rw [window] at window'
    cases window'
    rw [List.mem_singleton.mp alone]
    exact less

/-- One more type, of the open window or one above it. -/
theorem Bitmap.Shaped.add {s : Bitmap} {blocks : List Block} (shaped : s.Shaped blocks) {typ : UInt16}
    (later : ∀ w, s.window = some w → w ≤ UInt8.ofNat (typ.toNat / 256)) :
    ∃ last blocks', s.add typ = .ok last ∧ last.Shaped blocks' ∧ last.window = some (UInt8.ofNat (typ.toNat / 256)) := by
  rcases s.add_cases shaped.ready typ with ⟨added, same⟩ | ⟨w, window, differ, added⟩
  · refine ⟨_, blocks, added, shaped.mark fun block member => ?_, rfl⟩
    obtain ⟨w, window, less⟩ := shaped.below block member
    rwa [← same w window]
  · have above := UInt8.lt_of_le_of_ne (later w window) differ
    obtain ⟨block, rfl, out, rising⟩ := shaped.flushed window
    refine ⟨_, blocks ++ [block], added, ⟨(s.flushed_ready _).mark typ, out, rising, fun other member => ⟨_, rfl, ?_⟩,
      .inr (Bitmap.mark_last (s.flushed_ready _) (.inl rfl) typ)⟩, rfl⟩
    rcases List.mem_append.mp member with member | member
    · obtain ⟨w', window', less⟩ := shaped.below other member
      rw [window] at window'
      cases window'
      exact UInt8.lt_trans less above
    · rwa [List.mem_singleton.mp member]

/-- All types, in order. -/
theorem Bitmap.Shaped.foldlM {s : Bitmap} {blocks : List Block} (shaped : s.Shaped blocks) {types : List UInt16}
    (sorted : types.Pairwise (· ≤ ·)) (later : ∀ t ∈ types, ∀ w, s.window = some w → w ≤ UInt8.ofNat (t.toNat / 256)) :
    ∃ last blocks', types.foldlM Bitmap.add s = .ok last ∧ last.Shaped blocks' := by
  induction types generalizing s blocks with
  | nil => exact ⟨s, blocks, rfl, shaped⟩
  | cons typ rest ih =>
    obtain ⟨least, sorted⟩ := List.pairwise_cons.mp sorted
    obtain ⟨next, blocks', added, shaped, window⟩ := shaped.add (later typ (List.mem_cons_self ..))
    have following : ∀ t ∈ rest, ∀ w, next.window = some w → w ≤ UInt8.ofNat (t.toNat / 256) := by
      intro t member w open'
      obtain rfl : UInt8.ofNat (typ.toNat / 256) = w := Option.some.inj (window.symm.trans open')
      have ordered : typ.toNat ≤ t.toNat := least t member
      rw [UInt8.le_iff_toNat_le, window_toNat, window_toNat]
      omega
    obtain ⟨last, blocks'', folded, shaped⟩ := ih shaped sorted following
    exact ⟨last, blocks'', by rw [List.foldlM_cons, added, ok_bind, folded], shaped⟩

/-- The types that `type_bitmap` walks over rise, and are those of the list. -/
theorem sortedTypes_pairwise (types : List UInt16) : types.mergeSort.eraseReps.Pairwise (· < ·) := by
  have sorted : types.mergeSort.Pairwise (· ≤ ·) := by
    have merged : types.mergeSort.Pairwise fun a b => decide (a ≤ b) = true :=
      List.pairwise_mergeSort (by simpa using fun a b c => UInt16.le_trans) (by simpa using UInt16.le_total) types
    simpa using merged
  exact List.pairwise_eraseReps UInt16.lt_of_le_of_ne UInt16.lt_of_lt_of_le sorted

/-- The bitmap of some types consists of blocks of rising windows. -/
theorem typeBitmap_blocks {types : List UInt16} (some : types ≠ []) :
    ∃ blocks : List Block, typeBitmap types = .ok (blocks.flatMap Block.encode) ∧
      blocks.Pairwise fun a b => a.window < b.window := by
  obtain ⟨last, _, _, w, folded, _, _, window, result⟩ := typeBitmap_eq some
  have sorted : types.mergeSort.eraseReps.Pairwise (· ≤ ·) := (sortedTypes_pairwise types).imp UInt16.le_of_lt
  obtain ⟨last', blocks, folded', shaped⟩ := Bitmap.start_shaped.foldlM sorted (by simp [Bitmap.start])
  obtain rfl : last = last' := Except.ok.inj (folded.symm.trans folded')
  obtain ⟨block, _, out, rising⟩ := shaped.flushed window
  exact ⟨blocks ++ [block], by rw [result, out], rising⟩

end RustyAlias
