import RustyAlias.Rust.Bytes

/-! # UTF-8

`core::str::from_utf8` accepts the well-formed octet sequences of the Unicode standard. They are
given here by the machine that reads one octet at a time and remembers the ranges that the octets
still owed by the current character must fall into. Between characters it owes nothing, which is
what makes an ASCII octet a character boundary on both sides. `encodeChar_valid` ties the machine
to Lean's own encoder of `Char`.
-/

namespace Rust.Utf8

/-- Inclusive ranges of the octets that complete the current character. -/
abbrev Pending := List (UInt8 × UInt8)

/-- The range of a continuation octet that no earlier octet restricts. -/
def tail : UInt8 × UInt8 := (0x80, 0xBF)

/-- What the first octet of a character announces. Overlong forms, surrogates and values above
U+10FFFF are excluded by the range of the second octet. -/
def lead (b : UInt8) : Option Pending :=
  if b ≤ 0x7F then some []
  else if 0xC2 ≤ b ∧ b ≤ 0xDF then some [tail]
  else if b = 0xE0 then some [(0xA0, 0xBF), tail]
  else if b = 0xED then some [(0x80, 0x9F), tail]
  else if 0xE1 ≤ b ∧ b ≤ 0xEF then some [tail, tail]
  else if b = 0xF0 then some [(0x90, 0xBF), tail, tail]
  else if 0xF1 ≤ b ∧ b ≤ 0xF3 then some [tail, tail, tail]
  else if b = 0xF4 then some [(0x80, 0x8F), tail, tail]
  else none

def step : Pending → UInt8 → Option Pending
  | [], b => lead b
  | (low, high) :: rest, b => if low ≤ b ∧ b ≤ high then some rest else none

def run (pending : Pending) : Bytes → Option Pending
  | [] => some pending
  | b :: rest => (step pending b).bind fun next => run next rest

/-- Well-formed UTF-8: read from the start, the octets end between characters. -/
def Valid (bytes : Bytes) : Prop := run [] bytes = some []

instance (bytes : Bytes) : Decidable (Valid bytes) := inferInstanceAs (Decidable (_ = _))

@[simp] theorem valid_nil : Valid [] := rfl

theorem run_append (pending : Pending) (a b : Bytes) :
    run pending (a ++ b) = (run pending a).bind fun next => run next b := by
  induction a generalizing pending with
  | nil => rfl
  | cons x rest ih =>
    simp only [List.cons_append, run, Option.bind_assoc]
    congr 1
    funext next
    exact ih next

/-- After a whole string the machine is where it started. -/
theorem Valid.append_iff {a b : Bytes} (first : Valid a) : Valid (a ++ b) ↔ Valid b := by
  simp only [Valid] at first ⊢
  rw [run_append, first, Option.bind_some]

theorem Valid.append {a b : Bytes} (first : Valid a) (second : Valid b) : Valid (a ++ b) :=
  first.append_iff.mpr second

theorem Valid.flatten {parts : List Bytes} (valid : ∀ part ∈ parts, Valid part) : Valid parts.flatten := by
  induction parts with
  | nil => rfl
  | cons part rest ih =>
    exact (valid part (List.mem_cons_self ..)).append (ih fun p member => valid p (List.mem_cons_of_mem _ member))

/-- Only continuation octets are ever owed. -/
def Owed (pending : Pending) : Prop := ∀ range ∈ pending, 0x80 ≤ range.1 ∧ range.2 ≤ 0xBF

@[simp] theorem owed_nil : Owed [] := by simp [Owed]

theorem lead_owed {b : UInt8} {pending : Pending} (read : lead b = some pending) : Owed pending := by
  unfold lead at read
  split_ifs at read <;> cases read <;> simp [Owed, tail]

theorem step_owed {pending next : Pending} {b : UInt8} (owed : Owed pending)
    (read : step pending b = some next) : Owed next := by
  cases pending with
  | nil => exact lead_owed read
  | cons range rest =>
    simp only [step] at read
    split_ifs at read
    cases read
    exact fun r member => owed r (List.mem_cons_of_mem _ member)

theorem run_owed {pending next : Pending} {bytes : Bytes} (owed : Owed pending)
    (read : run pending bytes = some next) : Owed next := by
  induction bytes generalizing pending with
  | nil => cases read; exact owed
  | cons b rest ih =>
    obtain ⟨middle, stepped, read⟩ := Option.bind_eq_some_iff.mp read
    exact ih (step_owed owed stepped) read

theorem lead_ascii {b : UInt8} (ascii : b < 0x80) : lead b = some [] := by
  rw [lead, if_pos]
  simp only [UInt8.lt_iff_toNat_lt, UInt8.le_iff_toNat_le, UInt8.reduceToNat] at ascii ⊢
  omega

/-- An ASCII octet is read between characters only, and leaves the machine there. -/
theorem step_ascii {pending next : Pending} {b : UInt8} (owed : Owed pending) (ascii : b < 0x80)
    (read : step pending b = some next) : pending = [] ∧ next = [] := by
  cases pending with
  | nil =>
    rw [step, lead_ascii ascii] at read
    exact ⟨rfl, (Option.some.inj read).symm⟩
  | cons range rest =>
    simp only [step] at read
    split_ifs at read with inside
    have low := (owed range (List.mem_cons_self ..)).1
    simp only [UInt8.lt_iff_toNat_lt, UInt8.le_iff_toNat_le, UInt8.reduceToNat] at ascii low inside
    omega

@[simp] theorem valid_cons_ascii {b : UInt8} (ascii : b < 0x80) (rest : Bytes) :
    Valid (b :: rest) ↔ Valid rest := by
  simp only [Valid, run, step, lead_ascii ascii, Option.bind_some]

theorem valid_ascii {bytes : Bytes} (ascii : ∀ b ∈ bytes, b < 0x80) : Valid bytes := by
  induction bytes with
  | nil => rfl
  | cons b rest ih =>
    rw [valid_cons_ascii (ascii b (List.mem_cons_self ..))]
    exact ih fun c member => ascii c (List.mem_cons_of_mem _ member)

/-- A string may be cut around any of its ASCII octets. -/
theorem valid_around_ascii {a rest : Bytes} {b : UInt8} (ascii : b < 0x80) :
    Valid (a ++ b :: rest) ↔ Valid a ∧ Valid rest := by
  constructor
  · intro valid
    simp only [Valid, run_append] at valid
    obtain ⟨pending, before, valid⟩ := Option.bind_eq_some_iff.mp valid
    obtain ⟨next, read, after⟩ := Option.bind_eq_some_iff.mp valid
    obtain ⟨rfl, rfl⟩ := step_ascii (run_owed owed_nil before) ascii read
    exact ⟨before, after⟩
  · rintro ⟨first, second⟩
    exact first.append ((valid_cons_ascii ascii rest).mpr second)

/-- `u8::is_utf8_char_boundary` fails exactly on these. -/
def isContinuation (b : UInt8) : Bool := 0x80 ≤ b && b ≤ 0xBF

theorem lead_of_continuation {b : UInt8} (inside : isContinuation b = true) : lead b = none := by
  revert b
  decide +kernel

/-- No string starts inside a character. -/
theorem Valid.head_not_continuation {b : UInt8} {rest : Bytes} (valid : Valid (b :: rest)) :
    isContinuation b = false := by
  obtain ⟨next, read, _⟩ := Option.bind_eq_some_iff.mp valid
  by_contra inside
  rw [step, lead_of_continuation (Bool.not_eq_false _ ▸ inside)] at read
  contradiction

/-- A string may be cut in front of any octet that is not a continuation. -/
theorem Valid.cut {a rest : Bytes} {b : UInt8} (valid : Valid (a ++ b :: rest))
    (boundary : isContinuation b = false) : Valid a ∧ Valid (b :: rest) := by
  simp only [Valid, run_append] at valid
  obtain ⟨pending, before, after⟩ := Option.bind_eq_some_iff.mp valid
  suffices between : pending = [] by subst between; exact ⟨before, after⟩
  cases pending with
  | nil => rfl
  | cons range owing =>
    obtain ⟨next, read, _⟩ := Option.bind_eq_some_iff.mp after
    simp only [step] at read
    split_ifs at read with inside
    obtain ⟨low, high⟩ := run_owed owed_nil before range (List.mem_cons_self ..)
    simp only [isContinuation, Bool.and_eq_false_iff, decide_eq_false_iff_not, UInt8.le_iff_toNat_le,
      UInt8.reduceToNat] at boundary low high inside
    omega

/-- Replacing ASCII octets by ASCII octets keeps every character whole. -/
theorem run_map {f : UInt8 → UInt8} (keeps : ∀ b, f b = b ∨ b < 0x80 ∧ f b < 0x80) {pending next : Pending}
    {bytes : Bytes} (owed : Owed pending) (read : run pending bytes = some next) :
    run pending (bytes.map f) = some next := by
  induction bytes generalizing pending with
  | nil => exact read
  | cons b rest ih =>
    obtain ⟨middle, stepped, read⟩ := Option.bind_eq_some_iff.mp read
    have mapped : step pending (f b) = some middle := by
      rcases keeps b with same | ⟨ascii, image⟩
      · rw [same, stepped]
      · obtain ⟨rfl, rfl⟩ := step_ascii owed ascii stepped
        exact lead_ascii image
    rw [List.map_cons, run, mapped, Option.bind_some]
    exact ih (step_owed owed stepped) read

theorem Valid.map {f : UInt8 → UInt8} (keeps : ∀ b, f b = b ∨ b < 0x80 ∧ f b < 0x80) {bytes : Bytes}
    (valid : Valid bytes) : Valid (bytes.map f) :=
  run_map keeps owed_nil valid

theorem toLower_keeps (b : UInt8) : toLower b = b ∨ b < 0x80 ∧ toLower b < 0x80 := by
  by_cases ascii : b < 0x80
  · exact .inr ⟨ascii, (toLower_lt_iff b).mpr ascii⟩
  · left
    rw [toLower, if_neg]
    simp only [UInt8.lt_iff_toNat_lt, UInt8.le_iff_toNat_le, UInt8.reduceToNat] at ascii ⊢
    omega

theorem step_toLower {pending : Pending} (owed : Owed pending) (b : UInt8) : step pending (toLower b) = step pending b := by
  rcases toLower_keeps b with same | ⟨ascii, lower⟩
  · rw [same]
  · cases pending with
    | nil => rw [step, step, lead_ascii ascii, lead_ascii lower]
    | cons range rest =>
      have low := (owed range (List.mem_cons_self ..)).1
      simp only [UInt8.lt_iff_toNat_lt, UInt8.le_iff_toNat_le, UInt8.reduceToNat] at ascii lower low
      rw [step, step, if_neg, if_neg]
      all_goals
        simp only [UInt8.le_iff_toNat_le]
        omega

/-- Case does not change what is well formed. -/
theorem valid_lowerAll (bytes : Bytes) : Valid (lowerAll bytes) ↔ Valid bytes := by
  have same {pending : Pending} (owed : Owed pending) : run pending (lowerAll bytes) = run pending bytes := by
    induction bytes generalizing pending with
    | nil => rfl
    | cons b rest ih =>
      rw [lowerAll_cons, run, run, step_toLower owed]
      cases read : step pending b with
      | none => rfl
      | some next => exact ih (step_owed owed read)
  rw [Valid, Valid, same owed_nil]

private theorem lead_two : ∀ n < 32, 2 ≤ n → lead (UInt8.ofNat (n + 192)) = some [tail] := by decide

private theorem lead_three : ∀ n < 16, lead (UInt8.ofNat (n + 224)) =
    some [if n = 0 then (0xA0, 0xBF) else if n = 13 then (0x80, 0x9F) else tail, tail] := by decide

private theorem lead_four : ∀ n < 5, lead (UInt8.ofNat (n + 240)) =
    some [if n = 0 then (0x90, 0xBF) else if n = 4 then (0x80, 0x8F) else tail, tail, tail] := by decide

private theorem step_range {low high : UInt8} {n : ℕ} (rest : Pending) (above : low.toNat ≤ n % 64 + 128)
    (below : n % 64 + 128 ≤ high.toNat) : step ((low, high) :: rest) (UInt8.ofNat (n % 64 + 128)) = some rest := by
  have value : (UInt8.ofNat (n % 64 + 128)).toNat = n % 64 + 128 := by simp only [UInt8.toNat_ofNat']; omega
  rw [step, if_pos (by simp only [UInt8.le_iff_toNat_le, value]; exact ⟨above, below⟩)]

private theorem step_tail (n : ℕ) (rest : Pending) :
    step (tail :: rest) (UInt8.ofNat (n % 64 + 128)) = some rest :=
  step_range rest (by simp) (by simp only [UInt8.reduceToNat]; omega)

/-- Lean's encoding of a character is one the machine reads. -/
theorem encodeChar_valid (c : Char) : Valid (String.utf8EncodeChar c) := by
  have scalar : c.val.toNat < 0xD800 ∨ 0xDFFF < c.val.toNat ∧ c.val.toNat < 0x110000 := c.valid
  simp only [String.utf8EncodeChar]
  generalize c.val.toNat = v at scalar ⊢
  split
  · apply valid_ascii
    simp only [List.mem_singleton, forall_eq, UInt8.lt_iff_toNat_lt, UInt8.toNat_ofNat', UInt8.reduceToNat]
    omega
  split
  · have first := lead_two (v / 64 % 32) (by omega) (by omega)
    simp only [Valid, run, step.eq_1, first, Option.bind_some, step_tail]
  split
  · have first := lead_three (v / 4096 % 16) (by omega)
    simp only [Valid, run, step.eq_1, first, Option.bind_some]
    have second : step [if v / 4096 % 16 = 0 then (0xA0, 0xBF) else if v / 4096 % 16 = 13 then (0x80, 0x9F)
        else tail, tail] (UInt8.ofNat (v / 64 % 64 + 128)) = some [tail] := by
      split_ifs
      · exact step_range _ (by simp only [UInt8.reduceToNat]; omega) (by simp only [UInt8.reduceToNat]; omega)
      · exact step_range _ (by simp only [UInt8.reduceToNat]; omega) (by simp only [UInt8.reduceToNat]; omega)
      · exact step_tail _ _
    simp only [second, Option.bind_some, step_tail]
  · have first := lead_four (v / 262144 % 8) (by omega)
    simp only [Valid, run, step.eq_1, first, Option.bind_some]
    have second : step [if v / 262144 % 8 = 0 then (0x90, 0xBF) else if v / 262144 % 8 = 4 then (0x80, 0x8F)
        else tail, tail, tail] (UInt8.ofNat (v / 4096 % 64 + 128)) = some [tail, tail] := by
      split_ifs
      · exact step_range _ (by simp only [UInt8.reduceToNat]; omega) (by simp only [UInt8.reduceToNat]; omega)
      · exact step_range _ (by simp only [UInt8.reduceToNat]; omega) (by simp only [UInt8.reduceToNat]; omega)
      · exact step_tail _ _
    simp only [second, Option.bind_some, step_tail]

end Rust.Utf8
