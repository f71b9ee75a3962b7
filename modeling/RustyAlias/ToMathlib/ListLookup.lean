import Mathlib.Data.List.Basic
import Mathlib.Data.List.Nodup

/-! # Association lists with distinct keys

Looking up every key once collects every entry once.
-/

namespace List

variable {κ α : Type} [DecidableEq κ]

/-- The entries of distinct keys, found by looking up any list of keys that has each of them once. -/
theorem flatMap_lookup_perm {keys : List κ} {sets : List (κ × List α)} (nodup : keys.Nodup)
    (distinct : (sets.map Prod.fst).Nodup) (all : ∀ set ∈ sets, set.1 ∈ keys) :
    (keys.flatMap fun k => (sets.lookup k).getD []).Perm (sets.flatMap Prod.snd) := by
  induction sets generalizing keys with
  | nil => simp
  | cons set rest ih =>
    obtain ⟨key, entries⟩ := set
    obtain ⟨absent, distinct⟩ := nodup_cons.mp distinct
    have present : key ∈ keys := all _ (mem_cons_self ..)
    -- The first key is looked up once, the others among the remaining keys.
    have others : ∀ set ∈ rest, set.1 ∈ keys.erase key := by
      intro set member
      have differ : set.1 ≠ key := fun same => absent (mem_map.mpr ⟨set, member, same⟩)
      exact (mem_erase_of_ne differ).mpr (all set (mem_cons_of_mem _ member))
    have found : ((key, entries) :: rest).lookup key = some entries := lookup_cons_self
    have skipped : ∀ k ∈ keys.erase key, (((key, entries) :: rest).lookup k).getD [] = (rest.lookup k).getD [] := by
      intro k member
      have differ : k ≠ key := fun same => nodup.not_mem_erase (same ▸ member)
      rw [lookup_cons, beq_eq_false_iff_ne.mpr differ]
    calc keys.flatMap (fun k => (((key, entries) :: rest).lookup k).getD [])
      _ ~ (key :: keys.erase key).flatMap (fun k => (((key, entries) :: rest).lookup k).getD []) :=
        (perm_cons_erase present).flatMap_right _
      _ = entries ++ (keys.erase key).flatMap (fun k => (rest.lookup k).getD []) := by
        rw [flatMap_cons, found, Option.getD_some, flatMap_congr skipped]
      _ ~ entries ++ rest.flatMap Prod.snd := (ih (nodup.erase key) distinct others).append_left _
      _ = ((key, entries) :: rest).flatMap Prod.snd := rfl

/-- The entries of a key are found by looking it up. -/
theorem filter_flatMap_lookup {sets : List (κ × List α)} (distinct : (sets.map Prod.fst).Nodup) {key : α → κ}
    (keyed : ∀ set ∈ sets, ∀ a ∈ set.2, key a = set.1) (k : κ) :
    (sets.flatMap Prod.snd).filter (fun a => key a = k) = (sets.lookup k).getD [] := by
  induction sets with
  | nil => rfl
  | cons set rest ih =>
    obtain ⟨first, entries⟩ := set
    obtain ⟨absent, distinct⟩ := nodup_cons.mp distinct
    have here : ∀ a ∈ entries, key a = first := keyed _ (mem_cons_self ..)
    have there := fun set member => keyed set (mem_cons_of_mem _ member)
    rw [flatMap_cons, filter_append, lookup_cons]
    by_cases same : k = first
    · subst same
      have others : (rest.flatMap Prod.snd).filter (fun a => key a = k) = [] := by
        rw [filter_eq_nil_iff]
        intro a member
        obtain ⟨set, inside, present⟩ := mem_flatMap.mp member
        rw [decide_eq_true_iff, there set inside a present]
        exact fun equal => absent (mem_map.mpr ⟨set, inside, equal⟩)
      rw [others, append_nil, beq_self_eq_true, filter_eq_self.mpr fun a member => decide_eq_true (here a member)]
      rfl
    · have none : entries.filter (fun a => key a = k) = [] := by
        rw [filter_eq_nil_iff]
        intro a member
        rw [decide_eq_true_iff, here a member]
        exact fun equal => same equal.symm
      rw [none, nil_append, ih distinct there, beq_eq_false_iff_ne.mpr same]

/-- Looking up what the entries are mapped to. -/
theorem lookup_map_snd {β : Type} (f : α → β) (sets : List (κ × α)) (k : κ) :
    (sets.map fun set => (set.1, f set.2)).lookup k = (sets.lookup k).map f := by
  induction sets with
  | nil => rfl
  | cons set rest ih =>
    rw [map_cons, lookup_cons, lookup_cons, ih]
    cases k == set.1 <;> rfl

end List
