import Mathlib

/-! # Runs of equal keys

A list cut wherever the key of its elements changes. A cut that is grown element by element agrees
with `splitBy`, and blocks whose neighbours have different keys are recovered from their
concatenation.
-/

namespace List

variable {α κ : Type} [DecidableEq κ] (key : α → κ)

/-- Maximal blocks of neighbours with one key. -/
def runs (l : List α) : List (List α) := l.splitBy fun a b => key a == key b

/-- Every element of the block has the key. -/
def Uniform (k : κ) (block : List α) : Prop := ∀ a ∈ block, key a = k

@[simp] theorem runs_nil : runs key [] = [] := rfl

@[simp] theorem runs_flatten (l : List α) : (runs key l).flatten = l := flatten_splitBy _ l

variable {key}

theorem runs_ne_nil {l block : List α} (member : block ∈ runs key l) : block ≠ [] := ne_nil_of_mem_splitBy member

private theorem isChain_uniform {block : List α} (chain : block.IsChain fun a b => (key a == key b) = true) {a : α}
    (first : a ∈ block.head?) : Uniform key (key a) block := by
  induction block generalizing a with
  | nil => simp at first
  | cons x rest ih =>
    obtain rfl : x = a := by simpa using first
    intro y member
    rcases List.mem_cons.mp member with rfl | member
    · rfl
    · cases rest with
      | nil => simp at member
      | cons z rest =>
        rw [isChain_cons_cons] at chain
        have following := ih chain.2 (a := z) (by simp) y member
        exact following.trans (beq_iff_eq.mp chain.1).symm

private theorem uniform_isChain {block : List α} {k : κ} (uniform : Uniform key k block) :
    block.IsChain fun a b => (key a == key b) = true := by
  induction block with
  | nil => exact IsChain.nil
  | cons x rest ih =>
    have rest' := ih fun a member => uniform a (mem_cons_of_mem _ member)
    cases rest with
    | nil => exact isChain_singleton _
    | cons z rest =>
      rw [isChain_cons_cons, beq_iff_eq, uniform x (mem_cons_self ..), uniform z (by simp)]
      exact ⟨rfl, rest'⟩

theorem runs_uniform {l block : List α} (member : block ∈ runs key l) {a : α} (first : a ∈ block.head?) :
    Uniform key (key a) block := isChain_uniform (isChain_of_mem_splitBy member) first

theorem exists_uniform {l block : List α} (member : block ∈ runs key l) : ∃ k, Uniform key k block := by
  obtain ⟨a, rest, rfl⟩ := exists_cons_of_ne_nil (runs_ne_nil member)
  exact ⟨_, runs_uniform member (a := a) (by simp)⟩

variable (key) in
/-- Neighbouring runs have no key in common. -/
theorem runs_isChain (l : List α) : (runs key l).IsChain fun a b => ∀ x ∈ a, ∀ y ∈ b, key x ≠ key y := by
  refine (isChain_getLast_head_splitBy _ l).imp_of_mem_imp fun a b left right ⟨_, _, differ⟩ x first y second => ?_
  obtain ⟨k, uniform⟩ := exists_uniform left
  obtain ⟨k', uniform'⟩ := exists_uniform right
  simpa only [uniform _ (getLast_mem _), uniform' _ (head_mem _), uniform x first, uniform' y second,
    beq_eq_false_iff_ne] using differ

/-- Uniform blocks whose neighbours have no key in common are the runs of their concatenation. -/
theorem runs_of_blocks {blocks : List (List α)} (nonempty : ∀ block ∈ blocks, block ≠ [])
    (uniform : ∀ block ∈ blocks, ∃ k, Uniform key k block)
    (apart : blocks.IsChain fun a b => ∀ x ∈ a, ∀ y ∈ b, key x ≠ key y) : runs key blocks.flatten = blocks := by
  refine splitBy_eq_iff.mpr ⟨rfl, fun empty => nonempty _ empty rfl, ?_, ?_⟩
  · intro block member
    obtain ⟨k, same⟩ := uniform block member
    exact uniform_isChain same
  · refine apart.imp_of_mem_imp fun a b left right differ => ⟨nonempty a left, nonempty b right, ?_⟩
    simpa using differ _ (getLast_mem _) _ (head_mem _)

/-- One more element of the last key extends the last run. -/
theorem runs_concat_same {l : List α} {front : List (List α)} {last : List α} {x a : α}
    (before : runs key l = front ++ [last]) (first : a ∈ last.head?) (same : key a = key x) :
    runs key (l ++ [x]) = front ++ [last ++ [x]] := by
  have whole : l ++ [x] = (front ++ [last ++ [x]]).flatten := by
    have flat := runs_flatten key l
    rw [before] at flat
    simp [← flat]
  have member : ∀ block ∈ front ++ [last], block ∈ runs key l := by simp [before]
  have lastUniform : Uniform key (key a) last := runs_uniform (member _ (by simp)) first
  rw [whole]
  apply runs_of_blocks
  · intro block inside
    rcases mem_append.mp inside with inside | inside
    · exact runs_ne_nil (member block (mem_append_left _ inside))
    · simp_all
  · intro block inside
    rcases mem_append.mp inside with inside | inside
    · exact exists_uniform (member block (mem_append_left _ inside))
    · rw [mem_singleton] at inside
      subst inside
      refine ⟨key a, fun y inside => ?_⟩
      rcases mem_append.mp inside with inside | inside
      · exact lastUniform y inside
      · rw [mem_singleton.mp inside, same]
  · have chain := runs_isChain key l
    rw [before, isChain_append] at chain
    rw [isChain_append]
    refine ⟨chain.1, isChain_singleton _, fun block previous next here y inside z inside' => ?_⟩
    have apart := chain.2.2 block previous last (by simp) y inside a (mem_of_mem_head? first)
    obtain rfl : last ++ [x] = next := by simpa using here
    rcases mem_append.mp inside' with inside' | inside'
    · rwa [lastUniform z inside']
    · rwa [mem_singleton.mp inside', ← same]

/-- One element of another key opens a run. -/
theorem runs_concat_other {l : List α} {front : List (List α)} {last : List α} {x a : α}
    (before : runs key l = front ++ [last]) (first : a ∈ last.head?) (other : key a ≠ key x) :
    runs key (l ++ [x]) = runs key l ++ [[x]] := by
  have flat := runs_flatten key l
  have member : last ∈ runs key l := by simp [before]
  have uniform := runs_uniform member first
  rw [runs, splitBy_append]
  · rfl
  · intro y ends z opens
    obtain rfl : x = z := by simpa using opens
    rw [← flat, before, flatten_append, flatten_singleton, getLast?_append_of_ne_nil _ (runs_ne_nil member)] at ends
    rw [beq_eq_false_iff_ne, uniform y (mem_of_mem_getLast? ends)]
    exact other

theorem runs_singleton (x : α) : runs key [x] = [[x]] := rfl

/-- A change of the key between two lists is a cut. -/
theorem runs_append {a b : List α} (apart : ∀ x ∈ a.getLast?, ∀ y ∈ b.head?, key x ≠ key y) :
    runs key (a ++ b) = runs key a ++ runs key b :=
  splitBy_append fun x last y first => beq_eq_false_iff_ne.mpr (apart x last y first)

theorem runs_uniform_self {k : κ} {block : List α} (nonempty : block ≠ []) (uniform : Uniform key k block) :
    runs key block = [block] := by
  have cut : runs key [block].flatten = [block] :=
    runs_of_blocks (by simpa using nonempty) (by simpa using ⟨k, uniform⟩) (isChain_singleton _)
  simpa using cut

/-- Images are cut where their keys change. -/
theorem runs_map {β : Type} (f : β → α) (l : List β) : runs key (l.map f) = (runs (fun x => key (f x)) l).map (map f) := by
  have cut : runs key ((runs (fun x => key (f x)) l).map (map f)).flatten = (runs (fun x => key (f x)) l).map (map f) := by
    refine runs_of_blocks ?_ ?_ ?_
    · simpa using fun block member => runs_ne_nil member
    · intro block member
      obtain ⟨before, inside, rfl⟩ := mem_map.mp member
      obtain ⟨k, uniform⟩ := exists_uniform inside
      exact ⟨k, by simpa [Uniform] using uniform⟩
    · rw [isChain_map]
      exact (runs_isChain (fun x => key (f x)) l).imp fun a b apart => by simpa using apart
  rwa [← map_flatten, runs_flatten] at cut

omit [DecidableEq κ] in
/-- Keys that tell the same apart cut at the same places. -/
theorem runs_congr {κ' : Type} [DecidableEq κ] [DecidableEq κ'] {key : α → κ} {key' : α → κ'}
    (same : ∀ a b, key a = key b ↔ key' a = key' b) (l : List α) : runs key l = runs key' l := by
  have cuts : (fun a b => key a == key b) = fun a b => key' a == key' b := by
    funext a b
    rw [Bool.eq_iff_iff, beq_iff_eq, beq_iff_eq, same]
  rw [runs, runs, cuts]

/-- No element of one list has the image of an element of the other. -/
def Apart {ω : Type} (wide : α → ω) (a b : List α) : Prop := ∀ x ∈ a, ∀ y ∈ b, wide x ≠ wide y

/-- A concatenation of blocks of one key each, any two of them apart. -/
def Grouped {ω : Type} (key : α → κ) (wide : α → ω) (l : List α) : Prop :=
  ∃ blocks : List (List α), l = blocks.flatten ∧ (∀ block ∈ blocks, ∃ k, Uniform key k block) ∧ blocks.Pairwise (Apart wide)

section Grouped

variable {ω : Type} {wide : α → ω}

omit [DecidableEq κ] in
theorem Uniform.grouped {k : κ} {block : List α} (uniform : Uniform key k block) : Grouped key wide block :=
  ⟨[block], by simp, by simpa using ⟨k, uniform⟩, pairwise_singleton ..⟩

omit [DecidableEq κ] in
theorem grouped_nil : Grouped key wide [] := ⟨[], rfl, by simp, Pairwise.nil⟩

omit [DecidableEq κ] in
theorem Grouped.append {a b : List α} (first : Grouped key wide a) (second : Grouped key wide b) (apart : Apart wide a b) :
    Grouped key wide (a ++ b) := by
  obtain ⟨front, rfl, uniform, chain⟩ := first
  obtain ⟨rest, rfl, uniform', chain'⟩ := second
  refine ⟨front ++ rest, by simp, ?_, pairwise_append.mpr ⟨chain, chain', ?_⟩⟩
  · intro block member
    rcases mem_append.mp member with member | member
    · exact uniform block member
    · exact uniform' block member
  · intro block member block' member' x inside y inside'
    exact apart x (mem_flatten.mpr ⟨block, member, inside⟩) y (mem_flatten.mpr ⟨block', member', inside'⟩)

/-- The runs of a grouped list are apart. -/
theorem Grouped.runs {l : List α} (grouped : Grouped key wide l) (coarser : ∀ a b, key a = key b → wide a = wide b) :
    (runs key l).Pairwise (Apart wide) := by
  obtain ⟨blocks, rfl, uniform, apart⟩ := grouped
  have kept : (blocks.filter (· ≠ [])).flatten = blocks.flatten := flatten_filter_ne_nil
  have separate := apart.filter (· ≠ [])
  rw [← kept, runs_of_blocks]
  · exact separate
  · intro block member
    simpa using (mem_filter.mp member).2
  · intro block member
    exact uniform block (mem_filter.mp member).1
  · exact separate.isChain.imp fun a b differ x first y second same => differ x first y second (coarser x y same)

end Grouped

end List
