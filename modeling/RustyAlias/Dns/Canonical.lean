import RustyAlias.Dns.Name
import RustyAlias.ToMathlib.LexSuccessor

/-! # The canonical order of names

The order of section 6.1 of RFC 4034: names compare from the rightmost label on, a label that is
absent first, and labels compare as case-folded octet strings.
-/

namespace Dns

open Rust

/-- The name comes before the other in canonical order. -/
def Precedes (a b : Name) : Prop := (fold a).reverse < (fold b).reverse

instance (a b : Name) : Decidable (Precedes a b) := inferInstanceAs (Decidable (_ < _))

/-- The name with the label of one zero octet in front. -/
def successor (name : Name) : Name := [0] :: fold name

theorem fold_successor_reverse (name : Name) : (fold (successor name)).reverse = (fold name).reverse ++ [[0]] := by
  have zero : lowerAll [0] = [0] := by decide
  rw [successor, fold_cons, fold_fold, zero, List.reverse_cons]

theorem precedes_successor (name : Name) : Precedes name (successor name) := by
  rw [Precedes, fold_successor_reverse]
  exact List.lt_append_singleton ..

/-- No octet string but the empty one comes before a single zero octet. -/
theorem not_lt_zero_label {label : Label} (nonempty : label ≠ []) : ¬ label < [0] := by
  obtain ⟨octet, rest, rfl⟩ := List.exists_cons_of_ne_nil nonempty
  rw [List.cons_lt_cons_iff]
  rintro (lower | ⟨_, shorter⟩)
  · rw [UInt8.lt_iff_toNat_lt] at lower
    exact Nat.not_lt_zero _ lower
  · exact List.not_lt_nil rest shorter

/-- The successor is the next name: none comes between. -/
theorem not_precedes_successor {name other : Name} (nonempty : ∀ label ∈ other, label ≠ []) (above : Precedes name other) :
    ¬ Precedes other (successor name) := by
  rw [Precedes, fold_successor_reverse]
  refine List.not_lt_append_singleton (fun label member => ?_) above
  obtain ⟨source, present, rfl⟩ := List.mem_map.mp (List.mem_reverse.mp member)
  exact not_lt_zero_label fun empty => nonempty source present (List.map_eq_nil_iff.mp empty)

end Dns
