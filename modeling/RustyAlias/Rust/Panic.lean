import Mathlib

/-! # Computations that may panic

Safe Rust stops a thread at an index or slice outside its bounds, at a string slice off a
character boundary, at `expect` on `None`, and (with overflow checks) at an arithmetic result
outside its type. A modelled function returns `Outcome`, and every such operation of the source is
one of the checked operations below, so that freedom from panics is a theorem about the model
instead of a convention of it.
-/

namespace Rust

/-- Why a computation stopped. -/
inductive Panic where
  | indexOutOfBounds
  | sliceOutOfBounds
  | notCharBoundary
  | expectNone
  | arithmeticOverflow
deriving DecidableEq, Repr

/-- A result, or the panic that prevented it. -/
abbrev Outcome (α : Type) := Except Panic α

namespace Outcome

variable {α β : Type}

@[simp] theorem ok_bind (value : α) (next : α → Outcome β) :
    (Except.ok value >>= next) = next value := rfl

@[simp] theorem pure_eq_ok (value : α) : (pure value : Outcome α) = .ok value := rfl

@[simp] theorem map_ok (f : α → β) (value : α) : f <$> (Except.ok value : Outcome α) = .ok (f value) := rfl

/-- A computation that returns passed every one of its steps. -/
theorem bind_eq_ok_iff {first : Outcome α} {next : α → Outcome β} {result : β} :
    (first >>= next) = .ok result ↔ ∃ value, first = .ok value ∧ next value = .ok result := by
  cases first with
  | error panic =>
    constructor
    · intro stopped; cases stopped
    · rintro ⟨_, impossible, _⟩; cases impossible
  | ok value =>
    constructor
    · exact fun rest => ⟨value, rfl, rest⟩
    · rintro ⟨_, same, rest⟩; cases same; exact rest

end Outcome

/-- No Rust object is larger than this on a 64-bit target, so no slice or string is longer. -/
def isizeMax : ℕ := 2 ^ 63 - 1

def usizeMax : ℕ := 2 ^ 64 - 1

/-- Addition on `usize`. -/
def uadd (a b : ℕ) : Outcome ℕ := if a + b ≤ usizeMax then .ok (a + b) else .error .arithmeticOverflow

/-- Subtraction on an unsigned type. -/
def usub (a b : ℕ) : Outcome ℕ := if b ≤ a then .ok (a - b) else .error .arithmeticOverflow

/-- Multiplication on `usize`. -/
def umul (a b : ℕ) : Outcome ℕ := if a * b ≤ usizeMax then .ok (a * b) else .error .arithmeticOverflow

/-- `Option::expect` and `Option::unwrap`. -/
def expect {α : Type} : Option α → Outcome α
  | some value => .ok value
  | none => .error .expectNone

theorem uadd_ok {a b : ℕ} (fits : a + b ≤ usizeMax) : uadd a b = .ok (a + b) := if_pos fits

theorem usub_ok {a b : ℕ} (fits : b ≤ a) : usub a b = .ok (a - b) := if_pos fits

theorem umul_ok {a b : ℕ} (fits : a * b ≤ usizeMax) : umul a b = .ok (a * b) := if_pos fits

@[simp] theorem expect_some {α : Type} (value : α) : expect (some value) = .ok value := rfl

section Lists

variable {α : Type}

/-- `xs[i]`. -/
def index (xs : List α) (i : ℕ) : Outcome α :=
  match xs[i]? with
  | some x => .ok x
  | none => .error .indexOutOfBounds

/-- `xs[start..]`. -/
def sliceFrom (xs : List α) (start : ℕ) : Outcome (List α) :=
  if start ≤ xs.length then .ok (xs.drop start) else .error .sliceOutOfBounds

/-- `xs[start..stop]`. -/
def slice (xs : List α) (start stop : ℕ) : Outcome (List α) :=
  if start ≤ stop ∧ stop ≤ xs.length then .ok ((xs.take stop).drop start) else .error .sliceOutOfBounds

/-- `xs[i] = x`. -/
def setIndex (xs : List α) (i : ℕ) (x : α) : Outcome (List α) :=
  if i < xs.length then .ok (xs.set i x) else .error .indexOutOfBounds

theorem index_ok {xs : List α} {i : ℕ} {x : α} (present : xs[i]? = some x) : index xs i = .ok x := by
  simp only [index, present]

theorem index_of_lt {xs : List α} {i : ℕ} (bound : i < xs.length) : index xs i = .ok xs[i] :=
  index_ok (List.getElem?_eq_getElem bound)

theorem index_getD {xs : List α} {i : ℕ} (bound : i < xs.length) (default : α) : index xs i = .ok (xs.getD i default) := by
  rw [index_of_lt bound, List.getD_eq_getElem _ _ bound]

theorem index_add (xs : List α) (n i : ℕ) : index xs (n + i) = index (xs.drop n) i := by
  simp only [index, List.getElem?_drop]

theorem index_append_length (front : List α) (x : α) (rest : List α) : index (front ++ x :: rest) front.length = .ok x :=
  index_ok (by simp)

@[simp] theorem index_cons_zero (x : α) (xs : List α) : index (x :: xs) 0 = .ok x := rfl

@[simp] theorem index_cons_succ (x : α) (xs : List α) (i : ℕ) : index (x :: xs) (i + 1) = index xs i := rfl

theorem sliceFrom_ok {xs : List α} {start : ℕ} (bound : start ≤ xs.length) :
    sliceFrom xs start = .ok (xs.drop start) := if_pos bound

theorem slice_ok {xs : List α} {start stop : ℕ} (ordered : start ≤ stop) (bound : stop ≤ xs.length) :
    slice xs start stop = .ok ((xs.take stop).drop start) := if_pos ⟨ordered, bound⟩

theorem setIndex_ok {xs : List α} {i : ℕ} (bound : i < xs.length) (x : α) :
    setIndex xs i x = .ok (xs.set i x) := if_pos bound

end Lists

end Rust
