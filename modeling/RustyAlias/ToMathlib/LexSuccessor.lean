import Mathlib.Data.List.Basic

/-! # Successors in the lexicographic order

In the lexicographic order a list comes directly in front of its extension by a least element.
-/

namespace List

variable {α : Type} [LT α]

theorem lt_append_singleton (xs : List α) (b : α) : xs < xs ++ [b] := by
  induction xs with
  | nil => exact nil_lt_cons b []
  | cons x rest ih =>
    rw [cons_append, cons_lt_cons_iff]
    exact .inr ⟨rfl, ih⟩

/-- Nothing stands between a list and its extension by an element that no element is below. -/
theorem not_lt_append_singleton [Std.Asymm (α := α) (· < ·)] {xs ys : List α} {b : α} (least : ∀ y ∈ ys, ¬ y < b) (above : xs < ys) :
    ¬ ys < xs ++ [b] := by
  induction xs generalizing ys with
  | nil =>
    cases ys with
    | nil => exact absurd above (List.lt_irrefl [])
    | cons y rest =>
      rw [nil_append, cons_lt_cons_iff]
      rintro (lower | ⟨_, shorter⟩)
      · exact least y (mem_cons_self ..) lower
      · exact not_lt_nil rest shorter
  | cons x front ih =>
    cases ys with
    | nil => exact absurd above (not_lt_nil _)
    | cons y rest =>
      rw [cons_lt_cons_iff] at above
      rw [cons_append, cons_lt_cons_iff]
      rcases above with higher | ⟨rfl, higher⟩
      · rintro (lower | ⟨rfl, _⟩)
        · exact Std.Asymm.asymm _ _ higher lower
        · exact Std.Irrefl.irrefl _ higher
      · rintro (lower | ⟨_, between⟩)
        · exact Std.Irrefl.irrefl _ lower
        · exact ih (fun z member => least z (mem_cons_of_mem _ member)) higher between

end List
