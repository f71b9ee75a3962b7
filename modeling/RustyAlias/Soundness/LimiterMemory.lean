import RustyAlias.Soundness.Quota

/-! # The limiter does not grow without bound

Every bucket stands for a client that was allowed a request on the reading on which its window began.
So what pruning leaves is a matter of the clients that were allowed something within one window.
-/

namespace RustyAlias

variable {α : Type} [DecidableEq α]

namespace RateLimiter

variable {limiter : RateLimiter α} {now : ℕ} {ip other : α} {bucket : Bucket}

/-- A bucket after a check began before, or now for a request that is allowed. -/
theorem lookup_check (long : 0 < limiter.window) (limited : 0 < limiter.maxRequests)
    (found : (limiter.check now ip).2.state.lookup other = some bucket) :
    (∃ before, (limiter.prune now).lookup other = some before ∧ before.windowStart = bucket.windowStart) ∨
      (other = ip ∧ (limiter.check now ip).1 = true ∧ bucket.windowStart = now) := by
  by_cases same : other = ip
  · subst same
    have enabled : limiter.isEnabled = true := by
      rw [isEnabled, decide_eq_true limited, decide_eq_false (by omega)]
      rfl
    unfold check at found ⊢
    simp only [enabled, Bool.not_true, Bool.false_eq_true, if_false] at found ⊢
    split at found
    · next expired =>
      rw [if_pos expired]
      simp only [AList.lookup_insert, Option.some.injEq] at found
      exact .inr ⟨trivial, rfl, found ▸ rfl⟩
    · next fresh =>
      rw [if_neg fresh]
      cases kept : (limiter.prune now).lookup other with
      | none =>
        rw [kept, Option.getD_none, if_neg (show ¬ limiter.maxRequests ≤ 0 by omega)] at found
        simp only [AList.lookup_insert, Option.some.injEq] at found
        refine .inr ⟨trivial, ?_, found ▸ rfl⟩
        rw [Option.getD_none, if_neg (show ¬ limiter.maxRequests ≤ 0 by omega)]
      | some before =>
        rw [kept, Option.getD_some] at found
        refine .inl ⟨before, rfl, ?_⟩
        split at found
        · simp only [AList.lookup_insert, Option.some.injEq] at found
          rw [found]
        · simp only [AList.lookup_insert, Option.some.injEq] at found
          rw [← found]
  · rw [lookup_check_other long limited now same] at found
    exact .inl ⟨bucket, found, rfl⟩

/-- What pruning leaves of a full map began less than a window ago. -/
theorem lookup_prune_full (full : 1024 < limiter.state.entries.length) (found : (limiter.prune now).lookup other = some bucket) :
    limiter.state.lookup other = some bucket ∧ now < bucket.windowStart + limiter.window := by
  rw [prune, if_pos full, lookup_retain] at found
  obtain ⟨known, fresh⟩ := Option.filter_eq_some_iff.mp found
  rw [decide_eq_true_eq] at fresh
  exact ⟨known, by omega⟩

end RateLimiter

namespace System

variable {s next : System α} {thread : Thread} {ip : α} {now : ℕ} {events : List (Event α)}

/-- Every bucket began on a reading on which a request of its client was allowed. -/
def Backed (s : System α) : Prop :=
  ∀ ip bucket, s.limiter.state.lookup ip = some bucket → (ip, bucket.windowStart) ∈ s.allowed

theorem allowed_subset_updated : s.allowed ⊆ (s.updated thread ip now).allowed := by
  simp only [updated]
  split
  · exact List.subset_cons_self ..
  · exact List.Subset.refl _

theorem Backed.updated (backed : s.Backed) (long : 0 < s.limiter.window) (limited : 0 < s.limiter.maxRequests) :
    (s.updated thread ip now).Backed := by
  intro other bucket found
  rcases RateLimiter.lookup_check long limited found with ⟨before, kept, same⟩ | ⟨rfl, allowed, start⟩
  · refine allowed_subset_updated (same ▸ backed other before ?_)
    rcases RateLimiter.lookup_prune long now other with unchanged | ⟨_, dropped, _⟩
    · rwa [unchanged] at kept
    · rw [dropped] at kept
      cases kept
  · simp [System.updated, allowed, start]

theorem Backed.step {event : Event α} (backed : s.Backed) (long : 0 < s.limiter.window) (limited : 0 < s.limiter.maxRequests)
    (stepped : s.step event = some next) : next.Backed := by
  cases event with
  | tick later =>
    rw [step_tick_eq_some stepped]
    exact backed
  | read thread ip =>
    rw [step_read_eq_some stepped]
    exact backed
  | update thread =>
    cases pending : s.pending thread with
    | none => simp [System.step, pending] at stepped
    | some request =>
      rw [step_update_eq_some pending stepped]
      exact backed.updated long limited

theorem Backed.run (backed : s.Backed) (long : 0 < s.limiter.window) (limited : 0 < s.limiter.maxRequests)
    (ran : s.run events = some next) : next.Backed := by
  induction events generalizing s with
  | nil =>
    cases ran
    exact backed
  | cons event rest ih =>
    obtain ⟨middle, stepped, ran⟩ := Option.bind_eq_some_iff.mp ran
    have one : s.run [event] = some middle := Option.bind_eq_some_iff.mpr ⟨middle, stepped, rfl⟩
    have limits := run_limits one
    exact ih (backed.step long limited stepped) (limits.1 ▸ long) (limits.2 ▸ limited) ran

/-- The clients that were allowed a request on a reading less than one window before `now`, or later. -/
def recent (s : System α) (now : ℕ) : List α := ((s.allowed.filter fun entry => now < entry.2 + s.limiter.window).map Prod.fst).dedup

/-- Behind every update of every interleaving the limiter holds at most 1025 buckets, or one more than there are clients that
were allowed a request within the last window. -/
theorem buckets_le {window maxRequests : ℕ} (long : 0 < window) (limited : 0 < maxRequests)
    (ran : (System.start window maxRequests).run events = some s) (pending : s.pending thread = some (ip, now))
    (stepped : s.step (.update thread) = some next) :
    next.limiter.state.entries.length ≤ max 1025 ((next.recent now).length + 1) := by
  have limits := run_limits ran
  have long' : 0 < s.limiter.window := by rw [limits.1]; exact long
  have limited' : 0 < s.limiter.maxRequests := by rw [limits.2]; exact limited
  have backed : s.Backed := Backed.run (fun _ _ found => by cases found) long limited ran
  rw [step_update_eq_some pending stepped]
  by_cases full : 1024 < s.limiter.state.entries.length
  · refine Nat.le_trans ?_ (Nat.le_max_right ..)
    have known : (s.limiter.check now ip).2.state.keys ⊆ ip :: (s.updated thread ip now).recent now := by
      intro other member
      rw [← AList.mem_keys, ← AList.lookup_isSome] at member
      obtain ⟨bucket, found⟩ := Option.isSome_iff_exists.mp member
      rcases RateLimiter.lookup_check long' limited' found with ⟨before, kept, same⟩ | ⟨rfl, _⟩
      · obtain ⟨there, young⟩ := RateLimiter.lookup_prune_full full kept
        refine List.mem_cons_of_mem _ (List.mem_dedup.mpr (List.mem_map.mpr ⟨(other, before.windowStart), ?_, rfl⟩))
        refine List.mem_filter.mpr ⟨allowed_subset_updated (backed other before there), ?_⟩
        simpa [updated] using young
      · exact List.mem_cons_self
    have shorter := (List.subperm_of_subset (s.limiter.check now ip).2.state.nodupKeys known).length_le
    simpa [AList.keys, List.keys, updated] using shorter
  · have grown := RateLimiter.length_check_le s.limiter now ip
    refine Nat.le_trans ?_ (Nat.le_max_left ..)
    change (s.limiter.check now ip).2.state.entries.length ≤ 1025
    omega

/-- Behind more than a thousand clients the update of a run drops a bucket. -/
theorem buckets_le_pruned : ∃ events, ∃ s next : System ℕ, (System.start 10 3).run events = some s ∧
    s.step (.update .udp) = some next ∧ (s.limiter.state.lookup 0).isSome = true ∧ (s.limiter.prune 15).lookup 0 = none ∧
    next.limiter.state.entries.length ≤ max 1025 ((next.recent 15).length + 1) := by
  have scene₀ : Scene (System.start 10 3) 0 none none [] := ⟨rfl, rfl, rfl, rfl, rfl, rfl, rfl⟩
  have scene₁ := scene₀.tick 5
  have scene₂ := scene₁.call
  have scene₃ := scene₂.call
  have scene₄ := scene₃.call
  have scene₅ := scene₄.tick 14
  have alone := scene₃.alone (scene₂.alone (scene₁.alone fun _ _ => rfl))
  have run₅ := run_trans (run_tick scene₀ (by decide)) (run_trans (run_call scene₁.udp 0) (run_trans (run_call scene₂.udp 0)
    (run_trans (run_call scene₃.udp 0) (run_tick scene₄ (show 5 ≤ 14 by decide)))))
  obtain ⟨s₆, run₆, scene₆, filled, _⟩ := scene₅.fill alone 1025
  have scene₇ := scene₆.tick 15
  let s₇ : System ℕ := { s₆ with clock := 15 }
  let s₈ : System ℕ := { s₇ with pending := Function.update s₇.pending .udp (some (1, 15)) }
  have run₈ : s₇.run [.read .udp 1] = some s₈ := by simp [run, step, s₈, s₇, scene₆.udp]
  have waits : s₈.pending .udp = some (1, 15) := by simp [s₈]
  have ran := run_trans (run_trans run₅ run₆) (run_trans (run_tick scene₆ (show 14 ≤ 15 by decide)) run₈)
  refine ⟨_, s₈, _, ran, step_update waits, ?_, scene₇.pruned (entries_of_filled filled),
    buckets_le (by decide) (by decide) ran waits (step_update waits)⟩
  exact Option.isSome_map.symm.trans (congrArg Option.isSome scene₇.counter)

end System

end RustyAlias
