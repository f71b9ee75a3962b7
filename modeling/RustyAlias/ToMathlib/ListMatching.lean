import Mathlib

/-! # Lists matched with a sublist of another

`List.SublistForall₂` matches every item of a list with an item of its own of another list, in order. What is
matched piece by piece is matched as a whole, stays so among the items that are kept, and weighs no more.
-/

namespace List

variable {α β : Type*} {R : α → β → Prop} {as : List α} {bs : List β}

theorem SublistForall₂.append {as' : List α} {bs' : List β} (front : SublistForall₂ R as bs) (back : SublistForall₂ R as' bs') :
    SublistForall₂ R (as ++ as') (bs ++ bs') := by
  obtain ⟨matched, each, sub⟩ := sublistForall₂_iff.mp front
  obtain ⟨matched', each', sub'⟩ := sublistForall₂_iff.mp back
  exact sublistForall₂_iff.mpr ⟨matched ++ matched', rel_append each each', sub.append sub'⟩

theorem SublistForall₂.append_right (matched : SublistForall₂ R as bs) (others : List β) : SublistForall₂ R as (bs ++ others) := by
  have more := matched.append (SublistForall₂.nil (R := R) (l := others))
  rwa [append_nil] at more

theorem SublistForall₂.filter {p : α → Bool} {q : β → Bool} (kept : ∀ a b, R a b → p a = q b)
    (matched : SublistForall₂ R as bs) : SublistForall₂ R (as.filter p) (bs.filter q) := by
  induction matched with
  | nil => exact .nil
  | @cons a b as bs related _ ih =>
    rw [filter_cons, filter_cons, kept a b related]
    split
    · exact .cons related ih
    · exact ih
  | @cons_right b as bs _ ih =>
    rw [filter_cons]
    split
    · exact .cons_right ih
    · exact ih

theorem SublistForall₂.sum_le {f : α → ℕ} {g : β → ℕ} (each : ∀ a b, R a b → f a ≤ g b) (matched : SublistForall₂ R as bs) :
    (as.map f).sum ≤ (bs.map g).sum := by
  induction matched with
  | nil => exact Nat.zero_le _
  | cons related _ ih => exact Nat.add_le_add (each _ _ related) ih
  | cons_right _ ih => exact Nat.le_trans ih (Nat.le_add_left ..)

end List
