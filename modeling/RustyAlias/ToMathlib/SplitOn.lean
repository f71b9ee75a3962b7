import Mathlib

/-! # Splitting under maps

A map that moves no separator commutes with splitting.
-/

namespace List

variable {α β : Type} [BEq α] [LawfulBEq α] [BEq β] [LawfulBEq β]

/-- What stands between two separators holds none. -/
theorem notMem_of_mem_splitOn {x : α} {xs part : List α} (member : part ∈ xs.splitOn x) : x ∉ part := by
  induction xs generalizing part with
  | nil =>
    obtain rfl : part = [] := by simpa using member
    exact not_mem_nil
  | cons y rest ih =>
    obtain ⟨first, others, parts⟩ := exists_cons_of_ne_nil (splitOn_ne_nil x rest)
    rw [splitOn_cons_eq_if_modifyHead, parts] at member
    rw [parts] at ih
    split at member
    · rcases mem_cons.mp member with rfl | member
      · exact not_mem_nil
      · exact ih member
    · next other =>
      rcases mem_cons.mp member with rfl | member
      · rw [mem_cons, not_or]
        exact ⟨fun same => other (beq_iff_eq.mpr same.symm), ih (mem_cons_self ..)⟩
      · exact ih (mem_cons_of_mem _ member)

theorem splitOn_map {f : α → β} {x : α} {y : β} {xs : List α} (same : ∀ b ∈ xs, f b = y ↔ b = x) :
    (xs.map f).splitOn y = (xs.splitOn x).map (List.map f) := by
  induction xs with
  | nil => simp
  | cons b rest ih =>
    have here : (f b == y) = (b == x) := by
      rw [Bool.eq_iff_iff, beq_iff_eq, beq_iff_eq]
      exact same b (mem_cons_self ..)
    obtain ⟨first, others, parts⟩ := exists_cons_of_ne_nil (splitOn_ne_nil x rest)
    rw [map_cons, splitOn_cons_eq_if_modifyHead, splitOn_cons_eq_if_modifyHead, here,
      ih fun c member => same c (mem_cons_of_mem _ member), parts]
    split <;> simp

end List
