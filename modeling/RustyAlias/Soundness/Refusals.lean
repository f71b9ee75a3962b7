import RustyAlias.Soundness.LimiterMemory

/-! # Nobody is refused for nothing

The quota bounds what is allowed from above. From below, a request is refused only behind as many allowed
requests of the same client as the limit says, in every interleaving of the threads: pruning, late readings
and other clients never cost a client a request.
-/

namespace RustyAlias

open FixedWindow

variable {α : Type} [DecidableEq α]

namespace RateLimiter

variable {limiter : RateLimiter α} {now : ℕ} {ip : α}

/-- A check opens a window, counts in the one that it finds, or refuses because this one is full. -/
theorem check_cases (long : 0 < limiter.window) (limited : 0 < limiter.maxRequests) :
    ((limiter.check now ip).1 = true ∧ (limiter.check now ip).2.state.lookup ip = some ⟨now, 1⟩) ∨
      ∃ bucket, limiter.state.lookup ip = some bucket ∧ now < bucket.windowStart + limiter.window ∧
        ((limiter.check now ip).1 = true ∧
            (limiter.check now ip).2.state.lookup ip = some ⟨bucket.windowStart, bucket.count + 1⟩ ∨
          (limiter.check now ip).1 = false ∧ limiter.maxRequests ≤ bucket.count ∧
            (limiter.check now ip).2.state.lookup ip = some bucket) := by
  have enabled : limiter.isEnabled = true := by
    rw [isEnabled, decide_eq_true limited, decide_eq_false (by omega)]
    rfl
  unfold check
  simp only [enabled, Bool.not_true, Bool.false_eq_true, if_false]
  cases kept : (limiter.prune now).lookup ip with
  | none =>
    left
    rw [Option.getD_none, if_neg (show ¬ limiter.window ≤ now - now by omega), if_neg (show ¬ limiter.maxRequests ≤ 0 by omega)]
    exact ⟨rfl, AList.lookup_insert _⟩
  | some bucket =>
    rw [Option.getD_some]
    by_cases expired : limiter.window ≤ now - bucket.windowStart
    · rw [if_pos expired]
      exact .inl ⟨rfl, AList.lookup_insert _⟩
    · right
      have found : limiter.state.lookup ip = some bucket := by
        rcases lookup_prune long now ip with same | ⟨_, dropped, _⟩
        · rw [← same, kept]
        · rw [kept] at dropped
          cases dropped
      refine ⟨bucket, found, by omega, ?_⟩
      rw [if_neg expired]
      by_cases full : limiter.maxRequests ≤ bucket.count
      · rw [if_pos full]
        exact .inr ⟨rfl, full, AList.lookup_insert _⟩
      · rw [if_neg full]
        exact .inl ⟨rfl, AList.lookup_insert _⟩

end RateLimiter

namespace System

/-- The requests of an address that were allowed on a reading from before the end of the window that began at `x`. -/
def spent (s : System α) (ip : α) (x : ℕ) : ℕ :=
  (s.allowed.filter fun entry => entry.1 = ip ∧ entry.2 < x + s.limiter.window).length

/-- Whether a pending request is one of the address on a reading from before `x`. -/
def overtaken (ip : α) (x : ℕ) : Option (α × ℕ) → ℕ
  | none => 0
  | some (ip', now) => if ip' = ip ∧ now < x then 1 else 0

/-- How many requests of the address on readings from before `x` are pending. -/
def stale (s : System α) (ip : α) (x : ℕ) : ℕ := overtaken ip x (s.pending .udp) + overtaken ip x (s.pending .tcp)

/-- The requests behind the count of a bucket. All but one are in its window: that one may have read the clock before the
window began. -/
structure Spent (s : System α) (ip : α) (bucket : Bucket) : Prop where
  began : bucket.windowStart ≤ s.clock
  opened : (ip, bucket.windowStart) ∈ s.allowed
  before : bucket.count ≤ s.spent ip bucket.windowStart
  inside : ∃ early, early + s.stale ip bucket.windowStart ≤ 1 ∧ bucket.count ≤ s.quota ip bucket.windowStart + early

/-- Every bucket is backed by the requests that it counts. -/
structure Fair (s : System α) : Prop where
  long : 0 < s.limiter.window
  limited : 0 < s.limiter.maxRequests
  taken : ∀ thread ip now, s.pending thread = some (ip, now) → now ≤ s.clock
  spent : ∀ ip bucket, s.limiter.state.lookup ip = some bucket → s.Spent ip bucket

variable {s next : System α} {thread : Thread} {ip : α} {now : ℕ} {events : List (Event α)}

private theorem overtaken_le (ip : α) (x : ℕ) (pending : Option (α × ℕ)) : overtaken ip x pending ≤ 1 := by
  unfold overtaken
  split
  · omega
  · split <;> omega

/-- What a change of one thread's request does to their number. -/
theorem stale_update (s next : System α) {request : Option (α × ℕ)}
    (pending : next.pending = Function.update s.pending thread request) (ip : α) (x : ℕ) :
    ∃ others ≤ 1, s.stale ip x = overtaken ip x (s.pending thread) + others ∧
      next.stale ip x = overtaken ip x request + others := by
  cases thread with
  | udp =>
    refine ⟨_, overtaken_le .., rfl, ?_⟩
    simp [stale, pending]
  | tcp =>
    refine ⟨_, overtaken_le .., Nat.add_comm .., ?_⟩
    simp [stale, pending, Nat.add_comm]

private theorem spent_updated (thread : Thread) (ip' : α) (now x : ℕ) :
    (s.updated thread ip' now).spent ip x = s.spent ip x +
      if ip' = ip ∧ (s.limiter.check now ip').1 = true ∧ now < x + s.limiter.window then 1 else 0 := by
  unfold spent updated
  rw [RateLimiter.check_window]
  cases (s.limiter.check now ip').1 with
  | false => simp
  | true =>
    rw [if_pos rfl, List.filter_cons]
    by_cases counts : ip' = ip ∧ now < x + s.limiter.window
    · simp [counts]
    · have rest : ¬ (ip' = ip ∧ true = true ∧ now < x + s.limiter.window) := fun all => counts ⟨all.1, all.2.2⟩
      rw [if_neg rest, if_neg (by simpa using counts)]
      rfl

theorem Fair.tick {later : ℕ} (fair : s.Fair) (advance : s.clock ≤ later) : { s with clock := later }.Fair where
  long := fair.long
  limited := fair.limited
  taken thread ip now pending := Nat.le_trans (fair.taken thread ip now pending) advance
  spent ip bucket found :=
    have ⟨began, opened, before, inside⟩ := fair.spent ip bucket found
    ⟨Nat.le_trans began advance, opened, before, inside⟩

theorem Fair.read {ip' : α} (fair : s.Fair) (free : s.pending thread = none) :
    { s with pending := Function.update s.pending thread (some (ip', s.clock)) }.Fair where
  long := fair.long
  limited := fair.limited
  taken other ip now pending := by
    dsimp only at pending ⊢
    by_cases same : other = thread
    · subst same
      rw [Function.update_self] at pending
      cases pending
      exact Nat.le_refl _
    · rw [Function.update_of_ne same] at pending
      exact fair.taken other ip now pending
  spent ip bucket found := by
    obtain ⟨began, opened, before, early, few, inside⟩ := fair.spent ip bucket found
    refine ⟨began, opened, before, early, ?_, inside⟩
    let next : System α := { s with pending := Function.update s.pending thread (some (ip', s.clock)) }
    obtain ⟨others, _, old, new⟩ := stale_update s next rfl ip bucket.windowStart
    change early + next.stale ip bucket.windowStart ≤ 1
    rw [free, overtaken] at old
    rw [new, overtaken, if_neg fun both => absurd both.2 (by omega)]
    omega

/-- A bucket of another address is left as it is. -/
theorem Spent.other {ip' : α} {bucket : Bucket} (spent : s.Spent ip bucket) (pending : s.pending thread = some (ip', now))
    (differ : ip' ≠ ip) : (s.updated thread ip' now).Spent ip bucket := by
  obtain ⟨began, opened, before, early, few, inside⟩ := spent
  obtain ⟨others, _, old, new⟩ := stale_update s (s.updated thread ip' now) rfl ip bucket.windowStart
  rw [pending, overtaken, if_neg fun both => differ both.1] at old
  constructor
  · exact began
  · exact allowed_subset_updated opened
  · rw [spent_updated, if_neg fun both => differ both.1]
    exact before
  · refine ⟨early, ?_, ?_⟩
    · rw [new, overtaken]
      omega
    · rw [quota_updated, if_neg fun both => differ both.1]
      exact inside

/-- A window that opens is backed by the request that opens it; the other thread may hold one late reading. -/
theorem spent_opened (long : 0 < s.limiter.window) (taken : now ≤ s.clock) (allowed : (s.limiter.check now ip).1 = true) :
    (s.updated thread ip now).Spent ip ⟨now, 1⟩ := by
  obtain ⟨others, few, _, new⟩ := stale_update s (s.updated thread ip now) rfl ip now
  constructor
  · exact taken
  · simp [updated, allowed]
  · rw [spent_updated, if_pos ⟨rfl, allowed, Nat.lt_add_of_pos_right long⟩]
    exact Nat.le_add_left ..
  · refine ⟨0, ?_, ?_⟩
    · change 0 + (s.updated thread ip now).stale ip now ≤ 1
      rw [new, overtaken]
      omega
    · rw [quota_updated, if_pos ⟨rfl, allowed, Nat.le_refl _, Nat.lt_add_of_pos_right long⟩]
      exact Nat.le_add_left ..

/-- A request that is counted has a reading from the window, or it is the late one. -/
theorem Spent.counted {bucket : Bucket} (spent : s.Spent ip bucket) (pending : s.pending thread = some (ip, now))
    (young : now < bucket.windowStart + s.limiter.window) (allowed : (s.limiter.check now ip).1 = true) :
    (s.updated thread ip now).Spent ip ⟨bucket.windowStart, bucket.count + 1⟩ := by
  obtain ⟨began, opened, before, early, few, inside⟩ := spent
  obtain ⟨others, _, old, new⟩ := stale_update s (s.updated thread ip now) rfl ip bucket.windowStart
  rw [pending, overtaken] at old
  rw [overtaken] at new
  constructor
  · exact began
  · exact allowed_subset_updated opened
  · rw [spent_updated, if_pos ⟨rfl, allowed, young⟩]
    exact Nat.succ_le_succ before
  · dsimp only
    rw [quota_updated]
    by_cases late : now < bucket.windowStart
    · rw [if_pos ⟨rfl, late⟩] at old
      refine ⟨early + 1, by omega, ?_⟩
      omega
    · rw [if_neg fun both => late both.2] at old
      rw [if_pos ⟨rfl, allowed, by omega, young⟩]
      exact ⟨early, by omega, by omega⟩

/-- A request that is refused changes nothing about the bucket. -/
theorem Spent.refused {bucket : Bucket} (spent : s.Spent ip bucket) (refused : (s.limiter.check now ip).1 = false) :
    (s.updated thread ip now).Spent ip bucket := by
  obtain ⟨began, opened, before, early, few, inside⟩ := spent
  obtain ⟨others, _, old, new⟩ := stale_update s (s.updated thread ip now) rfl ip bucket.windowStart
  rw [overtaken] at new
  constructor
  · exact began
  · exact allowed_subset_updated opened
  · rw [spent_updated, refused]
    exact Nat.le_trans before (Nat.le_add_right ..)
  · refine ⟨early, by omega, ?_⟩
    rw [quota_updated, refused]
    exact Nat.le_trans inside (by omega)

theorem Fair.updated {ip' : α} (fair : s.Fair) (pending : s.pending thread = some (ip', now)) : (s.updated thread ip' now).Fair where
  long := (RateLimiter.check_window s.limiter now ip').symm ▸ fair.long
  limited := (RateLimiter.check_maxRequests s.limiter now ip').symm ▸ fair.limited
  taken other ip reading waits := by
    by_cases same : other = thread
    · subst same
      simp [System.updated] at waits
    · exact fair.taken other ip reading (by simpa [System.updated, Function.update_of_ne same] using waits)
  spent ip bucket found := by
    by_cases same : ip = ip'
    · subst same
      rcases @RateLimiter.check_cases α _ s.limiter now ip fair.long fair.limited with ⟨allowed, opened⟩ |
        ⟨old, known, young, ⟨allowed, counted⟩ | ⟨refused, _, unchanged⟩⟩
      · obtain rfl := Option.some.inj (opened.symm.trans found)
        exact spent_opened fair.long (fair.taken thread ip now pending) allowed
      · obtain rfl := Option.some.inj (counted.symm.trans found)
        exact (fair.spent ip old known).counted pending young allowed
      · obtain rfl := Option.some.inj (unchanged.symm.trans found)
        exact (fair.spent ip _ known).refused refused
    · apply Spent.other _ pending (Ne.symm same)
      apply fair.spent
      have other : (s.updated thread ip' now).limiter.state.lookup ip = (s.limiter.prune now).lookup ip :=
        RateLimiter.lookup_check_other fair.long fair.limited now same
      rw [other] at found
      rcases RateLimiter.lookup_prune fair.long now ip with kept | ⟨_, dropped, _⟩
      · rwa [kept] at found
      · rw [dropped] at found
        cases found

theorem Fair.step {event : Event α} (fair : s.Fair) (stepped : s.step event = some next) : next.Fair := by
  cases event with
  | tick later =>
    simp only [System.step] at stepped
    split at stepped
    · next advance =>
      cases stepped
      exact fair.tick advance
    · cases stepped
  | read thread ip =>
    simp only [System.step] at stepped
    split at stepped
    · next free =>
      cases stepped
      exact fair.read free
    · cases stepped
  | update thread =>
    cases pending : s.pending thread with
    | none => simp [System.step, pending] at stepped
    | some request =>
      rw [step_update_eq_some pending stepped]
      exact fair.updated pending

theorem Fair.run (fair : s.Fair) (ran : s.run events = some next) : next.Fair := by
  induction events generalizing s with
  | nil =>
    cases ran
    exact fair
  | cons event rest ih =>
    obtain ⟨middle, stepped, ran⟩ := Option.bind_eq_some_iff.mp ran
    exact ih (fair.step stepped) ran

/-- In every interleaving, a request is refused only on a full bucket whose window an allowed request of the client opened and has
not ended at the reading, behind as many allowed requests of the client on readings from before its end as the limit says, all but
one of them inside it. -/
theorem refused_only_when_spent {window maxRequests : ℕ} (long : 0 < window) (limited : 0 < maxRequests)
    (ran : (System.start window maxRequests).run events = some s) (refused : (s.limiter.check now ip).1 = false) :
    ∃ bucket, s.limiter.state.lookup ip = some bucket ∧ maxRequests ≤ bucket.count ∧ (ip, bucket.windowStart) ∈ s.allowed ∧
      now < bucket.windowStart + window ∧
      maxRequests ≤ (s.allowed.filter fun entry => entry.1 = ip ∧ entry.2 < bucket.windowStart + window).length ∧
      maxRequests ≤ (s.allowed.filter fun entry =>
        entry.1 = ip ∧ bucket.windowStart ≤ entry.2 ∧ entry.2 < bucket.windowStart + window).length + 1 := by
  have start : (System.start window maxRequests : System α).Fair :=
    { long := long
      limited := limited
      taken := fun _ _ _ waits => by cases waits
      spent := fun _ _ found => by cases found }
  have fair := start.run ran
  obtain ⟨sameWindow, sameLimit⟩ := run_limits ran
  have sameWindow : s.limiter.window = window := sameWindow
  have sameLimit : s.limiter.maxRequests = maxRequests := sameLimit
  rcases @RateLimiter.check_cases α _ s.limiter now ip fair.long fair.limited with ⟨allowed, _⟩ |
    ⟨bucket, known, young, ⟨allowed, _⟩ | ⟨_, full, _⟩⟩
  · rw [allowed] at refused
    cases refused
  · rw [allowed] at refused
    cases refused
  · obtain ⟨_, opened, before, early, few, inside⟩ := fair.spent ip bucket known
    have spent : s.limiter.maxRequests ≤ s.spent ip bucket.windowStart := Nat.le_trans full before
    have quota : s.limiter.maxRequests ≤ s.quota ip bucket.windowStart + 1 := by omega
    unfold System.spent at spent
    unfold System.quota Inside at quota
    rw [sameLimit, sameWindow] at spent quota
    rw [sameWindow] at young
    rw [sameLimit] at full
    exact ⟨bucket, known, full, opened, young, spent, quota⟩

/-- One request a window: a second one will be refused. -/
def once : List (Event ℕ) := [.tick 5, .read .udp 0, .update .udp]

theorem once_spent : ∃ s : System ℕ, (System.start 10 1).run once = some s ∧ ∃ bucket,
    s.limiter.state.lookup 0 = some bucket ∧ 1 ≤ bucket.count ∧ (0, bucket.windowStart) ∈ s.allowed ∧ 6 < bucket.windowStart + 10 ∧
    1 ≤ (s.allowed.filter fun entry => entry.1 = 0 ∧ entry.2 < bucket.windowStart + 10).length ∧
    1 ≤ (s.allowed.filter fun entry =>
      entry.1 = 0 ∧ bucket.windowStart ≤ entry.2 ∧ entry.2 < bucket.windowStart + 10).length + 1 := by
  obtain ⟨s, ran, refused⟩ : ∃ s : System ℕ, (System.start 10 1).run once = some s ∧ (s.limiter.check 6 0).1 = false :=
    ⟨_, rfl, rfl⟩
  exact ⟨s, ran, refused_only_when_spent (by decide) (by decide) ran refused⟩

end System

end RustyAlias
