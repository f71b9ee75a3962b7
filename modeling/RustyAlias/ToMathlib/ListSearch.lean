import Mathlib

/-! # First matches in a list

Searches from left to right that stop at the first element, or at the first window of one length,
that a probe accepts. An element that no accepted window contains cuts the list in two.
-/

namespace List

variable {α β γ : Type}

/-- What the probe finds in the first window of length `n` that it accepts. -/
def firstWindow (n : ℕ) (probe : List α → Option β) : List α → Option β
  | [] => none
  | x :: rest =>
    if n ≤ (x :: rest).length then (probe ((x :: rest).take n)).or (firstWindow n probe rest) else none

theorem findSome?_congr {f g : α → Option β} {xs : List α} (same : ∀ x ∈ xs, f x = g x) :
    xs.findSome? f = xs.findSome? g := by
  induction xs with
  | nil => rfl
  | cons x rest ih =>
    rw [findSome?_cons, findSome?_cons, same x (mem_cons_self ..), ih fun y member => same y (mem_cons_of_mem _ member)]

/-- Where all accepted elements give one result, the order of the list does not matter. -/
theorem findSome?_eq_some_of_forall {f : α → Option β} {xs : List α} {b : β} (present : ∃ x ∈ xs, f x = some b)
    (only : ∀ x ∈ xs, ∀ c, f x = some c → c = b) : xs.findSome? f = some b := by
  cases found : xs.findSome? f with
  | none =>
    obtain ⟨x, member, accepted⟩ := present
    rw [findSome?_eq_none_iff.mp found x member] at accepted
    cases accepted
  | some c =>
    obtain ⟨x, member, accepted⟩ := exists_of_findSome?_eq_some found
    rw [only x member c accepted]

variable {n : ℕ} {probe : List α → Option β}

theorem firstWindow_of_short {xs : List α} (short : xs.length < n) : xs.firstWindow n probe = none := by
  cases xs with
  | nil => rfl
  | cons x rest => exact if_neg (by omega)

theorem firstWindow_cons {x : α} {rest : List α} (long : n ≤ (x :: rest).length) :
    (x :: rest).firstWindow n probe = (probe ((x :: rest).take n)).or (rest.firstWindow n probe) := if_pos long

/-- A window as the only one. -/
theorem firstWindow_self {xs : List α} (positive : 0 < n) (exactly : xs.length = n) : xs.firstWindow n probe = probe xs := by
  cases xs with
  | nil => exact absurd exactly (by rw [length_nil]; omega)
  | cons x rest =>
    rw [firstWindow_cons (by omega), take_of_length_le (by omega),
      firstWindow_of_short (by rw [length_cons] at exactly; omega), Option.or_none]

theorem firstWindow_congr {probe' : List α → Option β} {xs : List α}
    (same : ∀ window, window <:+: xs → window.length = n → probe window = probe' window) :
    xs.firstWindow n probe = xs.firstWindow n probe' := by
  induction xs with
  | nil => rfl
  | cons x rest ih =>
    have later := ih fun window inside => same window (inside.trans (suffix_cons x rest).isInfix)
    by_cases long : n ≤ (x :: rest).length
    · have front : (x :: rest).take n <+: x :: rest := take_prefix ..
      rw [firstWindow_cons long, firstWindow_cons long, later, same _ front.isInfix (length_take_of_le long)]
    · rw [firstWindow_of_short (by omega), firstWindow_of_short (by omega)]

theorem firstWindow_map (f : γ → α) (xs : List γ) :
    (xs.map f).firstWindow n probe = xs.firstWindow n fun window => probe (window.map f) := by
  induction xs with
  | nil => rfl
  | cons x rest ih =>
    rw [map_cons, firstWindow, firstWindow, ih, ← map_cons, length_map, map_take]

theorem firstWindow_eq_none_iff (positive : 0 < n) {xs : List α} :
    xs.firstWindow n probe = none ↔ ∀ window, window <:+: xs → window.length = n → probe window = none := by
  induction xs with
  | nil =>
    refine ⟨fun _ window inside exactly => ?_, fun _ => rfl⟩
    rw [infix_nil.mp inside, length_nil] at exactly
    omega
  | cons x rest ih =>
    by_cases long : n ≤ (x :: rest).length
    · rw [firstWindow_cons long, Option.or_eq_none_iff, ih]
      constructor
      · rintro ⟨here, later⟩ window inside exactly
        rcases infix_cons_iff.mp inside with start | inside
        · rwa [prefix_iff_eq_take.mp start, exactly]
        · exact later window inside exactly
      · intro all
        have front : (x :: rest).take n <+: x :: rest := take_prefix ..
        refine ⟨all _ front.isInfix (length_take_of_le long), fun window inside => all window ?_⟩
        exact inside.trans (suffix_cons x rest).isInfix
    · rw [firstWindow_of_short (by omega)]
      refine ⟨fun _ window inside exactly => ?_, fun _ => rfl⟩
      have bound := inside.length_le
      omega

section Barred

variable {x : α} (positive : 0 < n) (barred : ∀ window, x ∈ window → probe window = none)

include positive barred

theorem firstWindow_cons_barred (rest : List α) : (x :: rest).firstWindow n probe = rest.firstWindow n probe := by
  by_cases long : n ≤ (x :: rest).length
  · obtain ⟨m, rfl⟩ : ∃ m, n = m + 1 := ⟨n - 1, by omega⟩
    rw [firstWindow_cons long, take_succ_cons, barred _ (mem_cons_self ..), Option.none_or]
  · rw [firstWindow_of_short (by omega), firstWindow_of_short (by rw [length_cons] at long; omega)]

/-- The search goes on behind a barred element as if it began there. -/
theorem firstWindow_append_cons (front back : List α) :
    (front ++ x :: back).firstWindow n probe = (front.firstWindow n probe).or (back.firstWindow n probe) := by
  induction front with
  | nil => exact firstWindow_cons_barred positive barred back
  | cons y rest ih =>
    by_cases inside : n ≤ (y :: rest).length
    · have long : n ≤ (y :: (rest ++ x :: back)).length := by
        simp only [length_cons, length_append] at inside ⊢
        omega
      rw [cons_append, firstWindow_cons long, firstWindow_cons inside, ih, ← cons_append, take_append_of_le_length inside,
        Option.or_assoc]
    · have short : rest.firstWindow n probe = none := firstWindow_of_short (by rw [length_cons] at inside; omega)
      have absent : (y :: rest).firstWindow n probe = none := firstWindow_of_short (by omega)
      rw [absent, Option.none_or, cons_append]
      rw [short, Option.none_or] at ih
      by_cases long : n ≤ (y :: (rest ++ x :: back)).length
      · have across : x ∈ (y :: (rest ++ x :: back)).take n := by
          obtain ⟨m, rfl⟩ : ∃ m, n = (y :: rest).length + (m + 1) := ⟨n - (y :: rest).length - 1, by omega⟩
          rw [← cons_append, take_length_add_append, take_succ_cons]
          simp
        rw [firstWindow_cons long, barred _ across, Option.none_or, ih]
      · rw [firstWindow_of_short (by omega), firstWindow_of_short]
        simp only [length_cons, length_append] at long
        omega

end Barred

/-- Elements in front that no accepted window contains are passed over. -/
theorem firstWindow_append_of_barred (positive : 0 < n) {front : List α}
    (barred : ∀ x ∈ front, ∀ window, x ∈ window → probe window = none) (back : List α) :
    (front ++ back).firstWindow n probe = back.firstWindow n probe := by
  induction front with
  | nil => rfl
  | cons x rest ih =>
    rw [cons_append, firstWindow_cons_barred positive (barred x (mem_cons_self ..)),
      ih fun y member => barred y (mem_cons_of_mem _ member)]

/-- A search that succeeds at the start. -/
theorem firstWindow_append_of_some {window : List α} (exactly : window.length = n) (positive : 0 < n) {b : β}
    (found : probe window = some b) (back : List α) : (window ++ back).firstWindow n probe = some b := by
  subst exactly
  obtain ⟨x, rest, rfl⟩ := exists_cons_of_length_pos positive
  rw [cons_append, firstWindow_cons (by simp), ← cons_append, take_left, found, Option.some_or]

end List
