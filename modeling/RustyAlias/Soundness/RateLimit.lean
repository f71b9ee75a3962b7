import RustyAlias.Proofs.RateLimit

/-! # The limiter is a counter per client

Taken one after the other, the checks of an address are decided by a fixed-window counter of its own
that shares nothing and forgets nothing.
-/

namespace RustyAlias

open FixedWindow

variable {α : Type} [DecidableEq α]

/-- The limiter after some calls. -/
def RateLimiter.checks (limiter : RateLimiter α) (calls : List (α × ℕ)) : RateLimiter α :=
  calls.foldl (fun limiter call => (limiter.check call.2 call.1).2) limiter

/-- The readings with which an address calls. -/
def readingsOf (ip : α) (calls : List (α × ℕ)) : List ℕ := (calls.filter fun call => call.1 = ip).map Prod.snd

theorem readingsOf_concat (ip : α) (calls : List (α × ℕ)) (call : α × ℕ) :
    readingsOf ip (calls ++ [call]) = if call.1 = ip then readingsOf ip calls ++ [call.2] else readingsOf ip calls := by
  unfold readingsOf
  rw [List.filter_append]
  split
  · next same => simp [same]
  · next other => simp [other]

private theorem checks_concat (limiter : RateLimiter α) (calls : List (α × ℕ)) (call : α × ℕ) :
    limiter.checks (calls ++ [call]) = ((limiter.checks calls).check call.2 call.1).2 := by
  simp [RateLimiter.checks]

/-- After ordered calls the limiter stands, for every address, for the counter of the calls of that address. -/
theorem checks_stands {window maxRequests : ℕ} (long : 0 < window) (limited : 0 < maxRequests) {calls : List (α × ℕ)}
    (ordered : calls.Pairwise fun a b => a.2 ≤ b.2) :
    ((RateLimiter.new window maxRequests).checks calls).window = window ∧
      ((RateLimiter.new window maxRequests).checks calls).maxRequests = maxRequests ∧
      ∀ ip, Stands window (fun now => ∀ call ∈ calls, call.2 ≤ now)
        (((RateLimiter.new window maxRequests).checks calls).state.lookup ip)
        (after window maxRequests (readingsOf ip calls)) := by
  induction calls using List.reverseRecOn with
  | nil => exact ⟨rfl, rfl, fun ip => .inl rfl⟩
  | append_singleton calls call ih =>
    obtain ⟨before, _, last⟩ := List.pairwise_append.mp ordered
    obtain ⟨sameWindow, sameLimit, stands⟩ := ih before
    have here : ∀ earlier ∈ calls, earlier.2 ≤ call.2 := fun earlier member => last earlier member call (by simp)
    rw [checks_concat]
    generalize (RateLimiter.new window maxRequests).checks calls = limiter at sameWindow sameLimit stands ⊢
    subst sameWindow sameLimit
    refine ⟨by simp, by simp, fun ip => ?_⟩
    rw [readingsOf_concat]
    split
    · next same =>
      subst same
      rw [after_concat]
      exact .inl (RateLimiter.check_eq long limited (stands call.1) here).2
    · next other =>
      rw [RateLimiter.lookup_check_other long limited _ (Ne.symm other)]
      rcases RateLimiter.lookup_prune long call.2 ip with kept | ⟨_, dropped, bucket, found, expired⟩
      · rw [kept]
        exact (stands ip).mono fun now later earlier member => later earlier (by simp [member])
      · refine .inr ⟨dropped, bucket.toWindow, ?_, fun now later => ?_⟩
        · rcases stands ip with same | ⟨missing, _⟩
          · rw [← same, found]
            rfl
          · rw [missing] at found
            cases found
        · exact Nat.le_trans expired (later call (by simp))

/-- Every call is decided as by a counter that sees only the calls of its own address. -/
theorem check_eq_counter {window maxRequests : ℕ} (long : 0 < window) (limited : 0 < maxRequests)
    {calls : List (α × ℕ)} {ip : α} {now : ℕ} (ordered : (calls ++ [(ip, now)]).Pairwise fun a b => a.2 ≤ b.2) :
    (((RateLimiter.new window maxRequests).checks calls).check now ip).1 =
      (admission window maxRequests now (after window maxRequests (readingsOf ip calls))).1 := by
  obtain ⟨before, _, last⟩ := List.pairwise_append.mp ordered
  obtain ⟨sameWindow, sameLimit, stands⟩ := checks_stands long limited before
  generalize (RateLimiter.new window maxRequests).checks calls = limiter at sameWindow sameLimit stands ⊢
  subst sameWindow sameLimit
  exact (RateLimiter.check_eq long limited (stands ip) fun call member => last call member (ip, now) (by simp)).1

/-- Three calls in a window of ten ticks for two requests, beside a call of another address. -/
theorem check_eq_counter_third :
    (((RateLimiter.new 10 2).checks [(1, 0), (2, 3), (1, 4)]).check 9 1).1 =
      (admission 10 2 9 (after 10 2 (readingsOf 1 [(1, 0), (2, 3), (1, 4)]))).1 :=
  check_eq_counter (by decide) (by decide) (by decide)

end RustyAlias
