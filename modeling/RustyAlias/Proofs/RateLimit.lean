import RustyAlias.Model.RateLimit
import RustyAlias.ToMathlib.FixedWindow

/-! # One check of the rate limiter

The limiter decides as a fixed-window counter of the calls of one address. Pruning may drop the bucket
of an address, but only one that is expired, for which the counter opens a new window as well.
-/

namespace RustyAlias

open FixedWindow

variable {α : Type} [DecidableEq α]

/-- The window that a bucket holds. -/
def Bucket.toWindow (bucket : Bucket) : Window := ⟨bucket.windowStart, bucket.count⟩

/-- A bucket is the window of the counter, or it was dropped and the window is expired at every later reading. -/
def Stands (length : ℕ) (later : ℕ → Prop) (kept : Option Bucket) (counter : Option Window) : Prop :=
  kept.map Bucket.toWindow = counter ∨
    kept = none ∧ ∃ w, counter = some w ∧ ∀ now, later now → w.start + length ≤ now

theorem Stands.mono {length : ℕ} {later later' : ℕ → Prop} {kept : Option Bucket} {counter : Option Window}
    (stands : Stands length later kept counter) (fewer : ∀ now, later' now → later now) :
    Stands length later' kept counter := by
  rcases stands with same | ⟨dropped, w, known, expired⟩
  · exact .inl same
  · exact .inr ⟨dropped, w, known, fun now reading => expired now (fewer now reading)⟩

theorem lookup_retain (kept : Bucket → Bool) (state : AList fun _ : α => Bucket) (ip : α) :
    (retain kept state).lookup ip = (state.lookup ip).filter kept := by
  ext bucket
  have before : bucket ∈ state.lookup ip ↔ ⟨ip, bucket⟩ ∈ state.entries := List.mem_dlookup_iff state.nodupKeys
  have behind : bucket ∈ (retain kept state).lookup ip ↔ ⟨ip, bucket⟩ ∈ (retain kept state).entries :=
    List.mem_dlookup_iff (retain kept state).nodupKeys
  rw [← Option.mem_def, ← Option.mem_def, behind, Option.mem_filter_iff, before, retain, List.mem_filter]

namespace RateLimiter

variable {limiter : RateLimiter α} {now : ℕ} {ip : α}

/-- Pruning keeps a bucket or drops an expired one. -/
theorem lookup_prune (long : 0 < limiter.window) (now : ℕ) (ip : α) :
    (limiter.prune now).lookup ip = limiter.state.lookup ip ∨
      1024 < limiter.state.entries.length ∧ (limiter.prune now).lookup ip = none ∧
        ∃ bucket, limiter.state.lookup ip = some bucket ∧ bucket.windowStart + limiter.window ≤ now := by
  unfold prune
  split
  · next full =>
    rw [lookup_retain]
    cases found : limiter.state.lookup ip with
    | none => exact .inl rfl
    | some bucket =>
      by_cases fresh : now - bucket.windowStart < limiter.window
      · exact .inl (by simp [Option.filter, fresh])
      · exact .inr ⟨full, by simp [Option.filter, fresh], bucket, rfl, by omega⟩
  · exact .inl rfl

/-- What pruning leaves of a bucket that stands for a counter: the window itself, or nothing, where the counter opens a
new window. -/
theorem prune_stands (long : 0 < limiter.window) {later : ℕ → Prop} {counter : Option Window}
    (stands : Stands limiter.window later (limiter.state.lookup ip) counter) (here : later now) :
    (∃ bucket, (limiter.prune now).lookup ip = some bucket ∧ counter = some bucket.toWindow) ∨
      (limiter.prune now).lookup ip = none ∧
        admission limiter.window limiter.maxRequests now counter = (true, ⟨now, 1⟩) := by
  have expired {w : Window} (old : w.start + limiter.window ≤ now) :
      admission limiter.window limiter.maxRequests now (some w) = (true, ⟨now, 1⟩) := if_pos old
  rcases stands with same | ⟨dropped, w, known, old⟩
  · rcases lookup_prune long now ip with kept | ⟨_, pruned, bucket, found, old⟩
    · cases found : limiter.state.lookup ip with
      | none =>
        rw [found] at same kept
        exact .inr ⟨kept, by rw [← same]; rfl⟩
      | some bucket =>
        rw [found] at same kept
        exact .inl ⟨bucket, kept, same.symm⟩
    · rw [found] at same
      exact .inr ⟨pruned, by rw [← same]; exact expired old⟩
  · refine .inr ⟨?_, by rw [known]; exact expired (old now here)⟩
    rcases lookup_prune long now ip with kept | ⟨_, pruned, _⟩
    · rw [kept, dropped]
    · exact pruned

/-- A check decides as the counter that the bucket of the address stands for, and keeps its new window. -/
theorem check_eq (long : 0 < limiter.window) (limited : 0 < limiter.maxRequests) {later : ℕ → Prop}
    {counter : Option Window} (stands : Stands limiter.window later (limiter.state.lookup ip) counter) (here : later now) :
    (limiter.check now ip).1 = (admission limiter.window limiter.maxRequests now counter).1 ∧
      ((limiter.check now ip).2.state.lookup ip).map Bucket.toWindow =
        some (admission limiter.window limiter.maxRequests now counter).2 := by
  have enabled : limiter.isEnabled = true := by
    rw [isEnabled, decide_eq_true limited, decide_eq_false (by omega)]
    rfl
  unfold check
  simp only [enabled, Bool.not_true, Bool.false_eq_true, if_false]
  rcases prune_stands long stands here with ⟨bucket, kept, known⟩ | ⟨dropped, decided⟩
  · rw [kept, known, Option.getD_some]
    unfold admission Bucket.toWindow
    dsimp only
    by_cases expired : bucket.windowStart + limiter.window ≤ now
    · rw [if_pos (show limiter.window ≤ now - bucket.windowStart by omega), if_pos expired]
      simp
    · rw [if_neg (show ¬ limiter.window ≤ now - bucket.windowStart by omega), if_neg expired]
      by_cases full : limiter.maxRequests ≤ bucket.count
      · rw [if_pos full, if_neg (show ¬ bucket.count < limiter.maxRequests by omega)]
        simp
      · rw [if_neg full, if_pos (show bucket.count < limiter.maxRequests by omega)]
        simp
  · rw [dropped, decided, Option.getD_none, if_neg (show ¬ limiter.window ≤ now - now by omega),
      if_neg (show ¬ limiter.maxRequests ≤ 0 by omega)]
    simp [Bucket.toWindow]

/-- For other addresses a check does no more than prune. -/
theorem lookup_check_other (long : 0 < limiter.window) (limited : 0 < limiter.maxRequests) (now : ℕ) {other : α}
    (differ : other ≠ ip) :
    (limiter.check now ip).2.state.lookup other = (limiter.prune now).lookup other := by
  have enabled : limiter.isEnabled = true := by
    rw [isEnabled, decide_eq_true limited, decide_eq_false (by omega)]
    rfl
  unfold check
  simp only [enabled, Bool.not_true, Bool.false_eq_true, if_false]
  split
  · exact AList.lookup_insert_ne differ
  split
  · exact AList.lookup_insert_ne differ
  · exact AList.lookup_insert_ne differ

@[simp] theorem check_window (limiter : RateLimiter α) (now : ℕ) (ip : α) :
    (limiter.check now ip).2.window = limiter.window := by
  unfold check
  dsimp only
  split_ifs <;> rfl

@[simp] theorem check_maxRequests (limiter : RateLimiter α) (now : ℕ) (ip : α) :
    (limiter.check now ip).2.maxRequests = limiter.maxRequests := by
  unfold check
  dsimp only
  split_ifs <;> rfl

private theorem length_insert_le (state : AList fun _ : α => Bucket) (ip : α) (bucket : Bucket) :
    (state.insert ip bucket).entries.length ≤ state.entries.length + 1 := by
  rw [AList.entries_insert, List.length_cons]
  exact Nat.succ_le_succ (List.kerase_sublist ip state.entries).length_le

omit [DecidableEq α] in
private theorem length_prune_le (limiter : RateLimiter α) (now : ℕ) :
    (limiter.prune now).entries.length ≤ limiter.state.entries.length := by
  unfold prune
  split
  · exact List.length_filter_le ..
  · exact Nat.le_refl _

/-- A call adds at most one bucket. -/
theorem length_check_le (limiter : RateLimiter α) (now : ℕ) (ip : α) :
    (limiter.check now ip).2.state.entries.length ≤ limiter.state.entries.length + 1 := by
  have pruned := length_prune_le limiter now
  have inserted (bucket : Bucket) := length_insert_le (limiter.prune now) ip bucket
  unfold check
  split
  · exact Nat.le_succ _
  dsimp only
  split
  · exact (inserted _).trans (Nat.succ_le_succ pruned)
  split
  · exact (inserted _).trans (Nat.succ_le_succ pruned)
  · exact (inserted _).trans (Nat.succ_le_succ pruned)

end RateLimiter

end RustyAlias
