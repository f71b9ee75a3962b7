import Mathlib

/-! # Fixed-window counters

A counter admits so many readings of a clock per window; the first reading that lies a whole window
behind the start of the current one opens the next. Readings may come late, out of the order of the
clock. `Tally` bounds how many of the readings of any interval that is one window long are admitted.
-/

namespace FixedWindow

structure Window where
  start : ℕ
  count : ℕ
deriving DecidableEq

/-- The decision on a reading, and the window that it leaves. -/
def admission (length limit now : ℕ) : Option Window → Bool × Window
  | none => (true, ⟨now, 1⟩)
  | some w =>
    if w.start + length ≤ now then (true, ⟨now, 1⟩)
    else if w.count < limit then (true, ⟨w.start, w.count + 1⟩)
    else (false, w)

/-- The window after some readings. -/
def after (length limit : ℕ) (readings : List ℕ) : Option Window :=
  readings.foldl (fun w now => some (admission length limit now w).2) none

@[simp] theorem after_nil (length limit : ℕ) : after length limit [] = none := rfl

@[simp] theorem after_concat (length limit : ℕ) (readings : List ℕ) (now : ℕ) :
    after length limit (readings ++ [now]) = some (admission length limit now (after length limit readings)).2 := by
  simp [after]

/-- The reading lies in the interval of one window that begins at `x`. -/
def Inside (length x now : ℕ) : Prop := x ≤ now ∧ now < x + length

instance (length x now : ℕ) : Decidable (Inside length x now) := inferInstanceAs (Decidable (_ ∧ _))

/-- What is known of `n`, the number of readings from the interval that were admitted, by where the current window starts.
At most `late` readings from the interval are outstanding. -/
structure Tally (length limit x late : ℕ) (w : Window) (n : ℕ) : Prop where
  positive : 1 ≤ w.count
  full : w.count ≤ limit
  apart : w.start + length ≤ x → n = 0
  before : w.start < x → n + 1 ≤ w.count
  within : x ≤ w.start → w.start < x + length → n + 1 ≤ limit + w.count
  beyond : x + length ≤ w.start → n + late ≤ 2 * limit

variable {length limit x late late' n now : ℕ} {w : Window}

theorem Tally.le (tally : Tally length limit x late w n) : n ≤ 2 * limit := by
  obtain ⟨positive, full, apart, before, within, beyond⟩ := tally
  omega

/-- Outstanding readings matter only once the current window starts behind the interval. -/
theorem Tally.congr (tally : Tally length limit x late w n) (fewer : x + length ≤ w.start → late' ≤ late) :
    Tally length limit x late' w n := by
  obtain ⟨positive, full, apart, before, within, beyond⟩ := tally
  constructor <;> omega

/-- A window starts where the last one did, or at the reading. -/
theorem admit_start_le {clock : ℕ} {counter : Option Window} (started : ∀ w, counter = some w → w.start ≤ clock)
    (taken : now ≤ clock) : (FixedWindow.admission length limit now counter).2.start ≤ clock := by
  cases counter with
  | none => exact taken
  | some w =>
    have start := started w rfl
    unfold FixedWindow.admission
    dsimp only
    split
    · exact taken
    split
    · exact start
    · exact start

private theorem inside_cases (length x now : ℕ) :
    (x ≤ now ∧ now < x + length ∧ (if Inside length x now then 1 else 0) = 1) ∨
      (¬ (x ≤ now ∧ now < x + length) ∧ (if Inside length x now then 1 else 0) = 0) := by
  by_cases inside : Inside length x now
  · exact .inl ⟨inside.1, inside.2, if_pos inside⟩
  · exact .inr ⟨inside, if_neg inside⟩

/-- The first window. -/
theorem tally_first (limited : 0 < limit) (few : late' ≤ 1) :
    Tally length limit x late' (admission length limit now none).2 (if Inside length x now then 1 else 0) := by
  have inside := inside_cases length x now
  generalize (if Inside length x now then 1 else 0) = hit at inside ⊢
  constructor <;> simp only [admission] <;> omega

/-- One more reading is decided; once a window starts behind the interval, no more than one reading from it is still
to come. -/
theorem Tally.admission (tally : Tally length limit x late w n) (few : late' ≤ 1)
    (outstanding : late' + (if Inside length x now then 1 else 0) ≤ late) :
    Tally length limit x late' (admission length limit now (some w)).2
      (n + if (admission length limit now (some w)).1 = true ∧ Inside length x now then 1 else 0) := by
  obtain ⟨positive, full, apart, before, within, beyond⟩ := tally
  have inside := inside_cases length x now
  unfold FixedWindow.admission
  dsimp only
  split
  · simp only [true_and]
    generalize (if Inside length x now then 1 else 0) = hit at inside outstanding ⊢
    constructor <;> dsimp only <;> omega
  split
  · simp only [true_and]
    generalize (if Inside length x now then 1 else 0) = hit at inside outstanding ⊢
    constructor <;> dsimp only <;> omega
  · simp only [Bool.false_eq_true, false_and, if_false]
    generalize (if Inside length x now then 1 else 0) = hit at inside outstanding
    constructor <;> omega

end FixedWindow
