import Mathlib.Data.List.Basic

/-! # Erasing repetitions

Of neighbours that are equal the last is kept, so no element gets lost, and a sorted list becomes strictly sorted.
-/

namespace List

variable {α : Type} [BEq α] [LawfulBEq α]

theorem eraseReps_cons_cons (x y : α) (rest : List α) :
    (x :: y :: rest).eraseReps = if x == y then (y :: rest).eraseReps else x :: (y :: rest).eraseReps := by
  have loop (xs : List α) : ∀ x acc, eraseRepsBy.loop (· == ·) x xs acc = acc.reverse ++ eraseRepsBy.loop (· == ·) x xs [] := by
    induction xs with
    | nil => simp [eraseRepsBy.loop]
    | cons y rest ih =>
      intro x acc
      rw [eraseRepsBy.loop, eraseRepsBy.loop]
      split
      · exact ih x acc
      · rw [ih y (x :: acc), ih y [x], reverse_cons, append_assoc]
        rfl
  change eraseRepsBy.loop (· == ·) x (y :: rest) [] = _
  cases same : x == y with
  | true =>
    rw [eraseRepsBy.loop, same, if_pos rfl, beq_iff_eq.mp same]
    rfl
  | false =>
    rw [eraseRepsBy.loop, same, if_neg (by decide)]
    exact loop rest y [x]

theorem mem_eraseReps {xs : List α} {z : α} : z ∈ xs.eraseReps ↔ z ∈ xs := by
  induction xs with
  | nil => rfl
  | cons x rest ih =>
    cases rest with
    | nil => rfl
    | cons y rest =>
      rw [eraseReps_cons_cons, mem_cons]
      split
      · next same => simp [ih, beq_iff_eq.mp same]
      · rw [mem_cons, ih]

theorem length_eraseReps_le (xs : List α) : xs.eraseReps.length ≤ xs.length := by
  induction xs with
  | nil => exact Nat.le_refl _
  | cons x rest ih =>
    cases rest with
    | nil => exact Nat.le_refl _
    | cons y rest =>
      rw [eraseReps_cons_cons]
      split
      · exact Nat.le_trans ih (Nat.le_succ _)
      · exact Nat.succ_le_succ ih

/-- Sorted by `r` and without equal neighbours, a list is sorted by what `r` is on different elements. -/
theorem pairwise_eraseReps {r s : α → α → Prop} (strict : ∀ {x y}, r x y → x ≠ y → s x y)
    (trans : ∀ {x y z}, s x y → r y z → s x z) {xs : List α} (sorted : xs.Pairwise r) : xs.eraseReps.Pairwise s := by
  induction xs with
  | nil => exact Pairwise.nil
  | cons x rest ih =>
    cases rest with
    | nil => exact pairwise_singleton ..
    | cons y rest =>
      obtain ⟨least, sorted⟩ := pairwise_cons.mp sorted
      rw [eraseReps_cons_cons]
      split
      · exact ih sorted
      · next differ =>
        have first : s x y := strict (least y (mem_cons_self ..)) fun same => differ (beq_iff_eq.mpr same)
        refine pairwise_cons.mpr ⟨fun z member => ?_, ih sorted⟩
        rcases mem_cons.mp (mem_eraseReps.mp member) with rfl | later
        · exact first
        · exact trans first ((pairwise_cons.mp sorted).1 z later)

end List
