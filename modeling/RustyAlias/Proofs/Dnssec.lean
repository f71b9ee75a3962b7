import RustyAlias.Proofs.Names
import RustyAlias.Proofs.Question
import RustyAlias.Model.Dnssec
import RustyAlias.ToMathlib.EraseReps

/-! # What the signer computes

The walks over wire names and the bitmap of types return on every input that exists in memory, with
bounds on what they produce; on the wire form of a name the walks count and fold its labels.
-/

namespace RustyAlias

open Rust Rust.Outcome Dns

/-- The loop of `label_count` returns from every offset. -/
theorem labelCountLoop_returns {wireName : Bytes} (small : wireName.length ≤ 2 ^ 63 + 1) (i : ℕ) (n : UInt8) :
    Returns (labelCountLoop wireName i n) fun _ => True := by
  induction remaining : wireName.length - i using Nat.strong_induction_on generalizing i n with
  | h k ih =>
    rw [labelCountLoop]
    by_cases inside : i < wireName.length
    · rw [dif_pos inside, index_of_lt inside, ok_bind]
      generalize wireName[i] = len
      have octet := len.toNat_lt
      by_cases zero : len = 0
      · rw [if_pos zero]; exact returns_pure trivial
      rw [if_neg zero, uadd_ok (by unfold usizeMax; omega), ok_bind, uadd_ok (by unfold usizeMax; omega), ok_bind]
      exact ih _ (by omega) _ _ rfl
    · rw [dif_neg inside]; exact returns_pure trivial

theorem labelCount_returns {wireName : Bytes} (small : wireName.length ≤ 2 ^ 63 + 1) :
    Returns (labelCount wireName) fun _ => True := labelCountLoop_returns small 0 0

private theorem saturatingSucc8_ofNat (n : ℕ) : saturatingSucc8 (UInt8.ofNat (min n 255)) = UInt8.ofNat (min (n + 1) 255) := by
  rw [saturatingSucc8]
  by_cases full : 255 ≤ n
  · rw [Nat.min_eq_right full, Nat.min_eq_right (by omega)]
    rfl
  · have small : (UInt8.ofNat n).toNat = n := by simp only [UInt8.toNat_ofNat']; omega
    have other : UInt8.ofNat n ≠ 255 := by
      rw [ne_eq, ← UInt8.toNat_inj, small]
      simp only [UInt8.reduceToNat]
      omega
    rw [Nat.min_eq_left (by omega), Nat.min_eq_left (by omega), if_neg other, UInt8.ofNat_add]
    rfl

/-- The loop counts the labels in front of the root, up to 255. -/
theorem labelCountLoop_labels {labels : Name} (octets : ∀ label ∈ labels, 1 ≤ label.length ∧ label.length ≤ 255)
    (front : Bytes) (small : front.length + (wire labels).length ≤ 2 ^ 63 + 1) (counted : ℕ) :
    labelCountLoop (front ++ wire labels) front.length (UInt8.ofNat (min counted 255)) =
      .ok (UInt8.ofNat (min (counted + labels.length) 255)) := by
  induction labels generalizing front counted with
  | nil => rw [labelCountLoop, dif_pos (by simp), wire_nil, index_append_length, ok_bind, if_pos rfl]; rfl
  | cons label others ih =>
    obtain ⟨low, high⟩ := octets label (List.mem_cons_self ..)
    rw [wire_cons] at *
    simp only [List.length_cons, List.length_append] at small
    have shape : front ++ UInt8.ofNat label.length :: (label ++ wire others) =
        (front ++ UInt8.ofNat label.length :: label) ++ wire others := by simp
    have width : (front ++ UInt8.ofNat label.length :: label).length = front.length + (1 + label.length) := by
      simp only [List.length_append, List.length_cons]
      omega
    have following := ih (fun other member => octets other (List.mem_cons_of_mem _ member))
      (front ++ UInt8.ofNat label.length :: label) (by rw [width]; omega) (counted + 1)
    rw [labelCountLoop, dif_pos (by simp), index_append_length, ok_bind, if_neg (length_octet_ne_zero low high),
      length_octet high, uadd_ok (by unfold usizeMax; omega), ok_bind, uadd_ok (by unfold usizeMax; omega), ok_bind,
      saturatingSucc8_ofNat, shape, ← width, following, List.length_cons, Nat.add_assoc, Nat.add_comm 1]

theorem labelCount_wire {labels : Name} (octets : ∀ label ∈ labels, 1 ≤ label.length ∧ label.length ≤ 255)
    (small : (wire labels).length ≤ 2 ^ 63 + 1) : labelCount (wire labels) = .ok (UInt8.ofNat (min labels.length 255)) := by
  have counted := labelCountLoop_labels octets [] (by simpa using small) 0
  rwa [Nat.zero_add] at counted

/-- The loop of `lowercase_wire_name` returns from every offset and keeps the length. -/
theorem lowercaseWireNameLoop_returns {out : Bytes} (small : out.length ≤ isizeMax) (i : ℕ) :
    Returns (lowercaseWireNameLoop out i) fun lower => lower.length = out.length := by
  induction remaining : out.length - i using Nat.strong_induction_on generalizing out i with
  | h k ih =>
    rw [lowercaseWireNameLoop]
    by_cases inside : i < out.length
    · rw [dif_pos inside, index_of_lt inside, ok_bind]
      generalize out[i] = len
      by_cases zero : len = 0
      · rw [if_pos zero]; exact returns_pure rfl
      have fits : i + 1 ≤ usizeMax := by unfold isizeMax at small; unfold usizeMax; omega
      have ordered : i + 1 ≤ min (min (i + 1 + len.toNat) usizeMax) out.length := by omega
      have length := lowerRange_length ordered (Nat.min_le_right ..)
      rw [if_neg zero, dif_pos fits]
      dsimp only
      rw [slice_ok ordered (Nat.min_le_right ..), ok_bind]
      refine (ih _ ?_ (by rw [length]; exact small) _ rfl).mono fun lower same => same.trans length
      rw [length]
      omega
    · rw [dif_neg inside]; exact returns_pure rfl

theorem lowercaseWireName_returns {name : Bytes} (small : name.length ≤ isizeMax) :
    Returns (lowercaseWireName name) fun lower => lower.length = name.length :=
  lowercaseWireNameLoop_returns small 0

private theorem lowerRange_middle (front middle rest : Bytes) :
    lowerRange (front ++ middle ++ rest) front.length (front.length + middle.length) =
      front ++ lowerAll middle ++ rest := by
  have stop : front.length + middle.length = (front ++ middle).length := List.length_append.symm
  rw [lowerRange, stop, List.take_left, List.drop_left, List.drop_left, List.append_assoc front middle rest,
    List.take_left]

/-- The loop folds the labels under it and goes on behind them. -/
theorem lowercaseWireNameLoop_labels {labels : Name} (octets : ∀ label ∈ labels, 1 ≤ label.length ∧ label.length ≤ 255)
    (front rest : Bytes) (small : front.length + (encodeLabels labels).length + rest.length ≤ isizeMax) :
    lowercaseWireNameLoop (front ++ (encodeLabels labels ++ rest)) front.length =
      lowercaseWireNameLoop (front ++ encodeLabels (fold labels) ++ rest) (front ++ encodeLabels (fold labels)).length := by
  induction labels generalizing front with
  | nil => rw [encodeLabels_nil, List.nil_append, show fold [] = [] from rfl, encodeLabels_nil, List.append_nil]
  | cons label others ih =>
    obtain ⟨low, high⟩ := octets label (List.mem_cons_self ..)
    rw [encodeLabels_cons, List.cons_append, List.append_assoc] at *
    simp only [List.length_cons, List.length_append] at small
    have fits : front.length + 1 ≤ usizeMax := by unfold isizeMax at small; unfold usizeMax; omega
    have stop : min (min (front.length + 1 + label.length) usizeMax)
        (front ++ UInt8.ofNat label.length :: (label ++ (encodeLabels others ++ rest))).length =
          front.length + 1 + label.length := by
      unfold isizeMax at small
      unfold usizeMax
      simp only [List.length_cons, List.length_append]
      omega
    have lowered : lowerRange (front ++ UInt8.ofNat label.length :: (label ++ (encodeLabels others ++ rest)))
        (front.length + 1) (front.length + 1 + label.length) =
          front ++ UInt8.ofNat label.length :: lowerAll label ++ (encodeLabels others ++ rest) := by
      have shape : front ++ UInt8.ofNat label.length :: (label ++ (encodeLabels others ++ rest)) =
          (front ++ [UInt8.ofNat label.length]) ++ label ++ (encodeLabels others ++ rest) := by simp
      have start : front.length + 1 = (front ++ [UInt8.ofNat label.length]).length := by simp
      rw [shape, start, lowerRange_middle]
      simp
    rw [lowercaseWireNameLoop, dif_pos (by simp), index_append_length, ok_bind, if_neg (length_octet_ne_zero low high),
      dif_pos fits]
    dsimp only
    rw [length_octet high, stop, slice_ok (by omega) (by simp; omega), ok_bind, lowered]
    have following := ih (fun other member => octets other (List.mem_cons_of_mem _ member))
      (front ++ UInt8.ofNat label.length :: lowerAll label) (by simp; omega)
    have width : (front ++ UInt8.ofNat label.length :: lowerAll label).length = front.length + 1 + label.length := by
      simp; omega
    rw [width] at following
    rw [following, fold_cons, encodeLabels_cons, lowerAll_length]
    simp

theorem lowercaseWireName_wire {labels : Name} (octets : ∀ label ∈ labels, 1 ≤ label.length ∧ label.length ≤ 255)
    (small : (wire labels).length ≤ isizeMax) : lowercaseWireName (wire labels) = .ok (wire (fold labels)) := by
  rw [wire, List.length_append] at small
  have folded := lowercaseWireNameLoop_labels octets [] [0] (by simpa using small)
  simp only [List.nil_append, List.length_nil] at folded
  rw [lowercaseWireName, wire, folded, lowercaseWireNameLoop, dif_pos (by simp), index_append_length, ok_bind, if_pos rfl]
  rfl

/-- The state of `type_bitmap` between two types: the bits of one window, and room for them. -/
structure Bitmap.Ready (s : Bitmap) : Prop where
  bits : s.bits.length = 32
  maxByte : s.maxByte ≤ 31

/-- The open window, closed. -/
def Bitmap.flushed (s : Bitmap) (w : UInt8) : Bitmap where
  out := s.out ++ w :: UInt8.ofNat (s.maxByte + 1) :: s.bits.take (s.maxByte + 1)
  window := some w
  bits := List.replicate 32 0
  maxByte := 0

/-- The bit of a type, set in the open window. -/
def Bitmap.mark (s : Bitmap) (typ : UInt16) : Bitmap where
  out := s.out
  window := some (UInt8.ofNat (typ.toNat / 256))
  bits := s.bits.set (typ.toNat % 256 / 8)
    (s.bits.getD (typ.toNat % 256 / 8) 0 ||| ((1 : UInt8) <<< UInt8.ofNat (7 - typ.toNat % 256 % 8)))
  maxByte := max s.maxByte (typ.toNat % 256 / 8)

theorem Bitmap.Ready.mark {s : Bitmap} (ready : s.Ready) (typ : UInt16) : (s.mark typ).Ready where
  bits := by rw [Bitmap.mark, List.length_set, ready.bits]
  maxByte := by
    have last := ready.maxByte
    simp only [Bitmap.mark]
    omega

theorem Bitmap.flushed_ready (s : Bitmap) (w : UInt8) : (s.flushed w).Ready := ⟨List.length_replicate, Nat.zero_le 31⟩

theorem flush_eq {s : Bitmap} (ready : s.Ready) (w : UInt8) : flush s.out w s.bits s.maxByte = .ok (s.flushed w).out := by
  have room := ready.bits
  have last := ready.maxByte
  rw [flush, uadd_ok (by unfold usizeMax; omega), ok_bind, slice_ok (by omega) (by omega), ok_bind, pure_eq_ok, Bitmap.flushed]
  simp

theorem Bitmap.flushed_length {s : Bitmap} (ready : s.Ready) (w : UInt8) : (s.flushed w).out.length ≤ s.out.length + 34 := by
  have last := ready.maxByte
  simp only [Bitmap.flushed, List.length_append, List.length_cons, List.length_take]
  omega

/-- A type is set in the window that is open, or the window is closed first. -/
theorem Bitmap.add_cases {s : Bitmap} (ready : s.Ready) (typ : UInt16) :
    (s.add typ = .ok (s.mark typ) ∧ ∀ w, s.window = some w → w = UInt8.ofNat (typ.toNat / 256)) ∨
      ∃ w, s.window = some w ∧ w ≠ UInt8.ofNat (typ.toNat / 256) ∧ s.add typ = .ok ((s.flushed w).mark typ) := by
  have marked {next : Bitmap} (ready : next.Ready) : (do
      let old ← index next.bits (typ.toNat % 256 / 8)
      let bits ← setIndex next.bits (typ.toNat % 256 / 8)
        (old ||| ((1 : UInt8) <<< UInt8.ofNat (← usub 7 (typ.toNat % 256 % 8))))
      pure { next with window := some (UInt8.ofNat (typ.toNat / 256)), bits := bits,
                       maxByte := max next.maxByte (typ.toNat % 256 / 8) }) = .ok (next.mark typ) := by
    have bit : typ.toNat % 256 / 8 < next.bits.length := by rw [ready.bits]; omega
    rw [index_of_lt bit, ok_bind, usub_ok (by omega), ok_bind, setIndex_ok bit, ok_bind, Bitmap.mark,
      List.getD_eq_getElem _ _ bit]
    rfl
  unfold Bitmap.add
  dsimp only
  cases window : s.window with
  | none => exact .inl ⟨marked ready, by simp⟩
  | some w =>
    rw [Option.any_some]
    split
    · next differ =>
      refine .inr ⟨w, rfl, by simpa using differ, ?_⟩
      rw [expect_some, ok_bind, flush_eq ready w, ok_bind, ← marked (s.flushed_ready w), ← window]
      rfl
    · next same =>
      refine .inl ⟨marked ready, ?_⟩
      rintro _ ⟨⟩
      simpa using same

theorem Bitmap.add_returns {s : Bitmap} (ready : s.Ready) (typ : UInt16) :
    Returns (s.add typ) fun next => next.Ready ∧ next.out.length ≤ s.out.length + 34 := by
  rcases s.add_cases ready typ with ⟨added, _⟩ | ⟨w, _, _, added⟩
  · exact ⟨_, added, ready.mark typ, Nat.le_add_right ..⟩
  · exact ⟨_, added, (s.flushed_ready w).mark typ, flushed_length ready w⟩

theorem Bitmap.foldlM_returns {s : Bitmap} (ready : s.Ready) (types : List UInt16) :
    Returns (types.foldlM Bitmap.add s) fun last => last.Ready ∧ last.out.length ≤ s.out.length + 34 * types.length := by
  induction types generalizing s with
  | nil => exact returns_ok ⟨ready, by simp⟩
  | cons typ rest ih =>
    rw [List.foldlM_cons]
    refine (Bitmap.add_returns ready typ).bind fun next ⟨ready, bound⟩ => (ih ready).mono fun last ⟨ready, total⟩ => ⟨ready, ?_⟩
    rw [List.length_cons]
    omega

/-- Each type closes at most one window. -/
theorem typeBitmap_returns (types : List UInt16) :
    Returns (typeBitmap types) fun bitmap => bitmap.length ≤ 34 * types.length + 34 := by
  have fewer : types.mergeSort.eraseReps.length ≤ types.length := by
    have sorted := List.length_eraseReps_le types.mergeSort
    rwa [List.length_mergeSort] at sorted
  unfold typeBitmap
  dsimp only
  split
  · exact returns_pure (by simp)
  · refine (Bitmap.foldlM_returns (s := .start) ⟨by simp [Bitmap.start], by simp [Bitmap.start]⟩ _).bind
      fun last ⟨ready, bound⟩ => ?_
    have empty : Bitmap.start.out.length = 0 := rfl
    cases last.window with
    | none => exact returns_pure (by omega)
    | some w =>
      have longer := Bitmap.flushed_length ready w
      exact ⟨_, flush_eq ready w, by omega⟩

theorem nsecRdata_returns {qname : Bytes} (small : qname.length ≤ isizeMax) (types : List UInt16) :
    Returns (nsecRdata qname types) fun rdata => rdata.length ≤ qname.length + 34 * types.length + 36 := by
  refine (lowercaseWireName_returns small).bind fun lower same => ?_
  refine (typeBitmap_returns types).bind fun bitmap bound => returns_pure ?_
  simp only [List.length_append, List.length_cons, List.length_nil]
  omega

theorem nsecTypes_length_le (existing : List UInt16) : (nsecTypes existing).length ≤ existing.length + 2 := by
  have sorted := List.length_eraseReps_le (existing ++ [typeNsec, typeRrsig]).mergeSort
  rw [List.length_mergeSort, List.length_append] at sorted
  exact sorted

private theorem rrsigPrefix_length (key : DnssecKey) (reading : ClockReading) (labels : UInt8) (typ : UInt16) (ttl : UInt32)
    (signer : Str) :
    (key.rrsigPrefix reading labels typ ttl signer).length = 18 + (encodeDomainName signer).length := by
  simp only [DnssecKey.rrsigPrefix, List.length_append, be16_length, be32_length, List.length_cons, List.length_nil]

theorem signRrsig_returns (key : DnssecKey) (reading : ClockReading) {owner : Bytes} (small : owner.length ≤ 2 ^ 63 + 1)
    (typ : UInt16) (ttl : UInt32) (rdatas : List Bytes) (signer : Str) :
    Returns (key.signRrsig reading owner typ ttl rdatas signer) fun rdata =>
      rdata.length = 82 + (encodeDomainName signer).length := by
  refine (labelCount_returns small).bind fun labels _ => returns_pure ?_
  simp only [List.length_append, rrsigPrefix_length, Vector.length_toList]
  omega

end RustyAlias
