import Mathlib.Data.List.Basic

/-! # Lists by index

A list that is written at the indices below a bound one after the other, and a list that is read two
elements at a time.
-/

namespace List

variable {α : Type*}

/-- Setting the places below a bound in turn. -/
theorem foldl_set_range (f : ℕ → α) {out : List α} {n : ℕ} (room : n ≤ out.length) :
    (List.range n).foldl (fun out i => out.set i (f i)) out = (List.range n).map f ++ out.drop n := by
  induction n with
  | zero => rfl
  | succ n ih =>
    rw [List.range_succ, List.foldl_append, ih (by omega), List.foldl_cons, List.foldl_nil,
      List.set_append_right _ _ (by simp), List.length_map, List.length_range, Nat.sub_self,
      List.drop_eq_getElem_cons (show n < out.length by omega), List.set_cons_zero, List.map_append, List.append_assoc]
    rfl

/-- A list of even length, two at a time. -/
theorem flatMap_range_pairs (d : α) {n : ℕ} {xs : List α} (even : xs.length = n * 2) :
    (List.range n).flatMap (fun i => [xs.getD (i * 2) d, xs.getD (i * 2 + 1) d]) = xs := by
  induction n generalizing xs with
  | zero => rw [List.length_eq_zero_iff.mp (by omega : xs.length = 0)]; rfl
  | succ n ih =>
    obtain ⟨x, xs, rfl⟩ := List.exists_cons_of_length_pos (show 0 < xs.length by omega)
    obtain ⟨y, rest, rfl⟩ := List.exists_cons_of_length_pos (show 0 < xs.length by simp only [List.length_cons] at even; omega)
    have step (i : ℕ) : (x :: y :: rest).getD (i.succ * 2) d = rest.getD (i * 2) d ∧
        (x :: y :: rest).getD (i.succ * 2 + 1) d = rest.getD (i * 2 + 1) d := by
      rw [show i.succ * 2 = i * 2 + 1 + 1 by omega]
      exact ⟨rfl, rfl⟩
    simp only [List.range_succ_eq_map, List.flatMap_cons, List.flatMap_map, step]
    rw [ih (by simp only [List.length_cons] at even; omega)]
    rfl

end List
