import RustyAlias.Dns.Canonical
import RustyAlias.Proofs.Dnssec

/-! # An NSEC record covers its own name only

The next domain name in the RDATA is the successor of the owner in canonical order. No name comes
between the two, so the record denies no other name.
-/

namespace RustyAlias

open Rust Rust.Outcome Dns

theorem wire_successor (labels : Name) : wire (successor labels) = [1, 0] ++ wire (fold labels) := rfl

/-- The RDATA begins with the wire form of the successor, between which and the owner there is no name. -/
theorem nsecRdata_successor {labels : Name} (octets : ∀ label ∈ labels, 1 ≤ label.length ∧ label.length ≤ 255)
    (inMemory : (wire labels).length ≤ isizeMax) (types : List UInt16) :
    ∃ bitmap, typeBitmap types = .ok bitmap ∧
      nsecRdata (wire labels) types = .ok (wire (successor labels) ++ bitmap) ∧
      (∀ label ∈ successor labels, 1 ≤ label.length ∧ label.length ≤ 255) ∧ Precedes labels (successor labels) ∧
      ∀ other : Name, (∀ label ∈ other, label ≠ []) → ¬ (Precedes labels other ∧ Precedes other (successor labels)) := by
  obtain ⟨bitmap, listed, _⟩ := typeBitmap_returns types
  refine ⟨bitmap, listed, ?_, ?_, precedes_successor labels, ?_⟩
  · rw [nsecRdata, lowercaseWireName_wire octets inMemory, ok_bind, listed, wire_successor]
    rfl
  · intro label member
    rcases List.mem_cons.mp member with rfl | member
    · exact ⟨Nat.le_refl 1, by decide⟩
    · exact octets_fold octets label member
  · rintro other nonempty ⟨above, below⟩
    exact not_precedes_successor nonempty above below

theorem nsecRdata_successor_sample :
    ∃ bitmap, typeBitmap [typeA] = .ok bitmap ∧
      nsecRdata (wire [[65], [110, 117]]) [typeA] = .ok (wire (successor [[65], [110, 117]]) ++ bitmap) ∧
      (∀ label ∈ successor [[65], [110, 117]], 1 ≤ label.length ∧ label.length ≤ 255) ∧
      Precedes [[65], [110, 117]] (successor [[65], [110, 117]]) ∧
      ∀ other : Name, (∀ label ∈ other, label ≠ []) →
        ¬ (Precedes [[65], [110, 117]] other ∧ Precedes other (successor [[65], [110, 117]])) :=
  nsecRdata_successor (by decide) (by decide) [typeA]

end RustyAlias
