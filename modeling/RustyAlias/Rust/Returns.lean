import RustyAlias.Rust.Bytes

/-! # Proving that a computation returns

`Returns x post` says that `x` ends without a panic in a value satisfying `post`. The rules follow
the ways in which a program composes computations. A computation known to return is its `value`,
which is how a checked definition gives rise to a plain function without being written twice.
-/

namespace Rust.Outcome

variable {α β : Type}

/-- Total correctness: a result, with a postcondition. -/
def Returns (x : Outcome α) (post : α → Prop) : Prop := ∃ a, x = .ok a ∧ post a

theorem returns_ok {a : α} {post : α → Prop} (holds : post a) : Returns (.ok a) post := ⟨a, rfl, holds⟩

theorem returns_pure {a : α} {post : α → Prop} (holds : post a) : Returns (pure a) post := ⟨a, rfl, holds⟩

theorem Returns.bind {x : Outcome α} {next : α → Outcome β} {mid : α → Prop} {post : β → Prop}
    (first : Returns x mid) (rest : ∀ a, mid a → Returns (next a) post) : Returns (x >>= next) post := by
  obtain ⟨a, rfl, holds⟩ := first
  exact rest a holds

theorem Returns.mono {x : Outcome α} {weak strong : α → Prop} (returns : Returns x strong)
    (weaker : ∀ a, strong a → weak a) : Returns x weak := by
  obtain ⟨a, same, holds⟩ := returns
  exact ⟨a, same, weaker a holds⟩

/-- A search returns when each of its probes does. -/
theorem Returns.findSomeM? {probe : α → Outcome (Option β)} {xs : List α}
    (each : ∀ x ∈ xs, Returns (probe x) fun _ => True) : Returns (xs.findSomeM? probe) fun _ => True := by
  induction xs with
  | nil => exact returns_ok trivial
  | cons x rest ih =>
    rw [List.findSomeM?]
    refine (each x (List.mem_cons_self ..)).bind fun found _ => ?_
    cases found with
    | some b => exact returns_ok trivial
    | none => exact ih fun y member => each y (List.mem_cons_of_mem _ member)

/-- The result of a computation that returns. -/
def value [Inhabited α] : Outcome α → α
  | .ok a => a
  | .error _ => default

@[simp] theorem value_ok [Inhabited α] (a : α) : value (.ok a) = a := rfl

theorem Returns.eq_ok [Inhabited α] {x : Outcome α} {post : α → Prop} (returns : Returns x post) :
    x = .ok x.value := by
  obtain ⟨a, rfl, _⟩ := returns
  rfl

theorem Returns.post_value [Inhabited α] {x : Outcome α} {post : α → Prop} (returns : Returns x post) :
    post x.value := by
  obtain ⟨a, rfl, holds⟩ := returns
  exact holds

end Rust.Outcome
