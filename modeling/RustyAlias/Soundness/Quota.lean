import RustyAlias.Proofs.RateLimit

/-! # The quota under two threads

The threads read the clock before they take the lock, so an update may come with a reading from
before other updates. No more than two quotas of an address fall into an interval of one window, as
long as pruning does not drop a bucket for which the other thread still holds a reading from inside
the window of the bucket. Where it does, the late reading opens a window that overlaps the next one.
-/

namespace RustyAlias

open FixedWindow

variable {α : Type} [DecidableEq α]

namespace System

/-- The requests of an address that were allowed on a reading from the interval of one window that begins at `x`. -/
def quota (s : System α) (ip : α) (x : ℕ) : ℕ :=
  (s.allowed.filter fun entry => entry.1 = ip ∧ Inside s.limiter.window x entry.2).length

/-- The update does not drop the bucket of an address for which another request is pending whose reading still lies in
the window of the bucket. -/
def KeepsPending (s : System α) : Event α → Prop
  | .update thread => ∀ ip now, s.pending thread = some (ip, now) → 1024 < s.limiter.state.entries.length →
      ∀ other ip' now' bucket, s.pending other = some (ip', now') → ip' ≠ ip → s.limiter.state.lookup ip' = some bucket →
        bucket.windowStart + s.limiter.window ≤ now → bucket.windowStart + s.limiter.window ≤ now'
  | _ => True

/-- All steps of a run keep pending requests. -/
def RunKeepsPending (s : System α) : List (Event α) → Prop
  | [] => True
  | event :: rest => s.KeepsPending event ∧ ∀ next, s.step event = some next → next.RunKeepsPending rest

/-- A reading that may still come for the address: one that is pending or one that is taken later. -/
def Later (s : System α) (ip : α) (now : ℕ) : Prop := s.clock ≤ now ∨ ∃ thread, s.pending thread = some (ip, now)

/-- Whether a pending request is one of the address on a reading from the interval. -/
def waiting (length : ℕ) (ip : α) (x : ℕ) : Option (α × ℕ) → ℕ
  | none => 0
  | some (ip', now) => if ip' = ip ∧ Inside length x now then 1 else 0

private theorem waiting_le (length : ℕ) (ip : α) (x : ℕ) (pending : Option (α × ℕ)) : waiting length ip x pending ≤ 1 := by
  unfold waiting
  split
  · omega
  · split <;> omega

/-- How many requests of the address on readings from the interval are pending. -/
def late (s : System α) (ip : α) (x : ℕ) : ℕ :=
  waiting s.limiter.window ip x (s.pending .udp) + waiting s.limiter.window ip x (s.pending .tcp)

/-- What a change of one thread's request does to their number. -/
theorem late_update (s next : System α) {thread : Thread} {request : Option (α × ℕ)}
    (same : next.limiter.window = s.limiter.window) (pending : next.pending = Function.update s.pending thread request) (ip : α) (x : ℕ) :
    ∃ others ≤ 1, s.late ip x = waiting s.limiter.window ip x (s.pending thread) + others ∧
      next.late ip x = waiting s.limiter.window ip x request + others := by
  cases thread with
  | udp =>
    refine ⟨_, waiting_le .., rfl, ?_⟩
    simp [late, same, pending]
  | tcp =>
    refine ⟨_, waiting_le .., Nat.add_comm .., ?_⟩
    simp [late, same, pending, Nat.add_comm]

/-- The system against one counter for each address, and what the counter of one address tells about its quota. -/
structure Counted (s : System α) (counters : α → Option Window) (ip : α) (x : ℕ) : Prop where
  long : 0 < s.limiter.window
  limited : 0 < s.limiter.maxRequests
  taken : ∀ thread ip now, s.pending thread = some (ip, now) → now ≤ s.clock
  stands : ∀ ip, Stands s.limiter.window (s.Later ip) (s.limiter.state.lookup ip) (counters ip)
  started : ∀ ip w, counters ip = some w → w.start ≤ s.clock
  fresh : counters ip = none → s.quota ip x = 0
  tally : ∀ w, counters ip = some w →
    Tally s.limiter.window s.limiter.maxRequests x (s.late ip x) w (s.quota ip x)

variable {s next : System α} {counters : α → Option Window} {ip : α} {x : ℕ}

theorem Counted.tick {later : ℕ} (counted : s.Counted counters ip x) (advance : s.clock ≤ later) :
    { s with clock := later }.Counted counters ip x where
  long := counted.long
  limited := counted.limited
  taken thread ip now pending := Nat.le_trans (counted.taken thread ip now pending) advance
  stands ip := (counted.stands ip).mono fun _ still => still.imp (Nat.le_trans advance) id
  started ip w known := Nat.le_trans (counted.started ip w known) advance
  fresh := counted.fresh
  tally := counted.tally

theorem Counted.read {thread : Thread} {ip' : α} (counted : s.Counted counters ip x) (free : s.pending thread = none) :
    { s with pending := Function.update s.pending thread (some (ip', s.clock)) }.Counted counters ip x := by
  let next : System α := { s with pending := Function.update s.pending thread (some (ip', s.clock)) }
  have pending : next.pending = Function.update s.pending thread (some (ip', s.clock)) := rfl
  obtain ⟨others, _, before, behind⟩ := late_update s next rfl pending ip x
  constructor
  · exact counted.long
  · exact counted.limited
  · intro other host now pending
    dsimp only at pending ⊢
    by_cases same : other = thread
    · subst same
      rw [Function.update_self] at pending
      cases pending
      exact Nat.le_refl _
    · rw [Function.update_of_ne same] at pending
      exact counted.taken other host now pending
  · intro host
    refine (counted.stands host).mono fun now still => ?_
    rcases still with still | ⟨other, pending⟩
    · exact .inl still
    · dsimp only at pending
      by_cases same : other = thread
      · subst same
        rw [Function.update_self] at pending
        cases pending
        exact .inl (Nat.le_refl _)
      · rw [Function.update_of_ne same] at pending
        exact .inr ⟨other, pending⟩
  · exact counted.started
  · exact counted.fresh
  · intro w known
    refine (counted.tally w known).congr fun beyond => ?_
    have start := counted.started ip w known
    have outside : ¬ Inside s.limiter.window x s.clock := fun inside => by
      have := inside.2
      omega
    change next.late ip x ≤ s.late ip x
    rw [before, behind, free, waiting, waiting, if_neg (fun both => outside both.2)]

/-- The system after a thread has updated the limiter. -/
def updated (s : System α) (thread : Thread) (ip : α) (now : ℕ) : System α where
  clock := s.clock
  limiter := (s.limiter.check now ip).2
  pending := Function.update s.pending thread none
  allowed := if (s.limiter.check now ip).1 then (ip, now) :: s.allowed else s.allowed

theorem quota_updated (thread : Thread) (ip' : α) (now : ℕ) :
    (s.updated thread ip' now).quota ip x = s.quota ip x +
      if ip' = ip ∧ (s.limiter.check now ip').1 = true ∧ Inside s.limiter.window x now then 1 else 0 := by
  unfold quota updated
  rw [RateLimiter.check_window]
  cases (s.limiter.check now ip').1 with
  | false => simp
  | true =>
    rw [if_pos rfl, List.filter_cons]
    by_cases counts : ip' = ip ∧ Inside s.limiter.window x now
    · simp [counts]
    · have rest : ¬ (ip' = ip ∧ true = true ∧ Inside s.limiter.window x now) := fun all => counts ⟨all.1, all.2.2⟩
      rw [if_neg rest, if_neg (by simpa using counts)]
      rfl

/-- A reading that may come after an update could have come before it, and is not the one of the update itself. -/
theorem later_updated {thread : Thread} {ip' : α} {now : ℕ} {host : α} {reading : ℕ}
    (still : (s.updated thread ip' now).Later host reading) :
    s.clock ≤ reading ∨ ∃ other, other ≠ thread ∧ s.pending other = some (host, reading) := by
  rcases still with still | ⟨other, pending⟩
  · exact .inl still
  · refine .inr ⟨other, ?_⟩
    simp only [updated] at pending
    by_cases same : other = thread
    · subst same
      simp at pending
    · exact ⟨same, by simpa [Function.update_of_ne same] using pending⟩

theorem Counted.updated {thread : Thread} {ip' : α} {now : ℕ} (counted : s.Counted counters ip x)
    (pending : s.pending thread = some (ip', now)) (keeps : s.KeepsPending (.update thread)) :
    (s.updated thread ip' now).Counted (Function.update counters ip'
      (some (admission s.limiter.window s.limiter.maxRequests now (counters ip')).2)) ip x := by
  have taken := counted.taken thread ip' now pending
  have decided := RateLimiter.check_eq counted.long counted.limited (counted.stands ip') (.inr ⟨thread, pending⟩)
  have window : (s.updated thread ip' now).limiter.window = s.limiter.window := RateLimiter.check_window ..
  have limit : (s.updated thread ip' now).limiter.maxRequests = s.limiter.maxRequests := RateLimiter.check_maxRequests ..
  have before {host : α} {reading : ℕ} (still : (s.updated thread ip' now).Later host reading) : s.Later host reading :=
    (later_updated still).imp id fun ⟨other, _, waits⟩ => ⟨other, waits⟩
  constructor
  · rw [window]
    exact counted.long
  · rw [limit]
    exact counted.limited
  · intro other host reading waits
    by_cases same : other = thread
    · subst same
      simp [System.updated] at waits
    · exact counted.taken other host reading (by simpa [System.updated, Function.update_of_ne same] using waits)
  · intro host
    rw [window]
    by_cases same : host = ip'
    · subst same
      rw [Function.update_self]
      exact .inl decided.2
    rw [Function.update_of_ne same]
    have other : (s.updated thread ip' now).limiter.state.lookup host = (s.limiter.prune now).lookup host :=
      RateLimiter.lookup_check_other counted.long counted.limited now same
    rw [other]
    rcases RateLimiter.lookup_prune counted.long now host with kept | ⟨full, dropped, bucket, found, expired⟩
    · rw [kept]
      exact (counted.stands host).mono fun _ => before
    · rcases counted.stands host with stands | ⟨missing, _⟩
      · refine .inr ⟨dropped, bucket.toWindow, by rw [← stands, found]; rfl, fun reading still => ?_⟩
        rcases later_updated still with still | ⟨holder, _, waits⟩
        · exact Nat.le_trans expired (Nat.le_trans taken still)
        · exact keeps ip' now pending full holder host reading bucket waits same found expired
      · rw [missing] at found
        cases found
  · intro host w known
    change w.start ≤ s.clock
    by_cases same : host = ip'
    · subst same
      rw [Function.update_self] at known
      cases known
      exact admit_start_le (counted.started host) taken
    · rw [Function.update_of_ne same] at known
      exact counted.started host w known
  · intro unknown
    by_cases same : ip = ip'
    · subst same
      simp at unknown
    · rw [Function.update_of_ne same] at unknown
      rw [quota_updated, if_neg fun both => same both.1.symm, counted.fresh unknown]
  · intro w known
    obtain ⟨others, few, lateBefore, lateAfter⟩ := late_update s (s.updated thread ip' now) window rfl ip x
    rw [pending] at lateBefore
    simp only [waiting] at lateBefore lateAfter
    rw [window, limit, lateAfter, quota_updated, Nat.zero_add]
    by_cases same : ip = ip'
    · subst same
      rw [Function.update_self] at known
      obtain rfl := Option.some.inj known
      simp only [true_and] at lateBefore ⊢
      rw [decided.1]
      cases counter : counters ip with
      | none =>
        rw [counted.fresh counter, Nat.zero_add]
        simpa only [admission, true_and] using tally_first counted.limited few
      | some w =>
        exact (counted.tally w counter).admission few (by rw [lateBefore, Nat.add_comm])
    · rw [Function.update_of_ne same] at known
      rw [if_neg fun both => same both.1.symm, Nat.zero_add] at lateBefore
      rw [if_neg fun both => same both.1.symm, Nat.add_zero, ← lateBefore]
      exact counted.tally w known

theorem step_update {α : Type} [DecidableEq α] {s : System α} {thread : Thread} {ip : α} {now : ℕ}
    (pending : s.pending thread = some (ip, now)) : s.step (.update thread) = some (s.updated thread ip now) := by
  simp only [step, pending]
  rfl

theorem step_tick_eq_some {later : ℕ} (stepped : s.step (.tick later) = some next) : next = { s with clock := later } := by
  simp only [step] at stepped
  split at stepped
  · cases stepped
    rfl
  · cases stepped

theorem step_read_eq_some {thread : Thread} {ip : α} (stepped : s.step (.read thread ip) = some next) :
    next = { s with pending := Function.update s.pending thread (some (ip, s.clock)) } := by
  simp only [step] at stepped
  split at stepped
  · cases stepped
    rfl
  · cases stepped

theorem step_update_eq_some {thread : Thread} {ip : α} {now : ℕ} (pending : s.pending thread = some (ip, now))
    (stepped : s.step (.update thread) = some next) : next = s.updated thread ip now := by
  rw [step_update pending] at stepped
  exact (Option.some.inj stepped).symm

/-- What one step keeps. -/
theorem Counted.step {event : Event α} (counted : s.Counted counters ip x) (keeps : s.KeepsPending event)
    (stepped : s.step event = some next) : ∃ counters', next.Counted counters' ip x := by
  cases event with
  | tick later =>
    simp only [System.step] at stepped
    split at stepped
    · next advance =>
      cases stepped
      exact ⟨counters, counted.tick advance⟩
    · cases stepped
  | read thread ip' =>
    simp only [System.step] at stepped
    split at stepped
    · next free =>
      cases stepped
      exact ⟨counters, counted.read free⟩
    · cases stepped
  | update thread =>
    cases pending : s.pending thread with
    | none => simp [System.step, pending] at stepped
    | some request =>
      rw [step_update pending] at stepped
      cases stepped
      exact ⟨_, counted.updated pending keeps⟩

theorem Counted.run {events : List (Event α)} (counted : s.Counted counters ip x) (keeps : s.RunKeepsPending events)
    (ran : s.run events = some next) : ∃ counters', next.Counted counters' ip x := by
  induction events generalizing s counters with
  | nil =>
    cases ran
    exact ⟨counters, counted⟩
  | cons event rest ih =>
    obtain ⟨middle, stepped, ran⟩ := Option.bind_eq_some_iff.mp ran
    obtain ⟨counters', counted'⟩ := counted.step keeps.1 stepped
    exact ih counted' (keeps.2 middle stepped) ran

theorem Counted.quota_le (counted : s.Counted counters ip x) : s.quota ip x ≤ 2 * s.limiter.maxRequests := by
  cases counter : counters ip with
  | none => rw [counted.fresh counter]; omega
  | some w => exact (counted.tally w counter).le

theorem counted_start {window maxRequests : ℕ} (long : 0 < window) (limited : 0 < maxRequests) (ip : α) (x : ℕ) :
    (System.start window maxRequests).Counted (fun _ => none) ip x where
  long := long
  limited := limited
  taken _ _ _ pending := by cases pending
  stands _ := .inl rfl
  started _ _ known := by cases known
  fresh _ := rfl
  tally _ known := by cases known

theorem run_limits {events : List (Event α)} (ran : s.run events = some next) :
    next.limiter.window = s.limiter.window ∧ next.limiter.maxRequests = s.limiter.maxRequests := by
  induction events generalizing s with
  | nil => cases ran; exact ⟨rfl, rfl⟩
  | cons event rest ih =>
    obtain ⟨middle, stepped, ran⟩ := Option.bind_eq_some_iff.mp ran
    have one : middle.limiter.window = s.limiter.window ∧ middle.limiter.maxRequests = s.limiter.maxRequests := by
      cases event <;> simp only [System.step] at stepped <;> split at stepped <;> cases stepped <;> simp
    exact ⟨(ih ran).1.trans one.1, (ih ran).2.trans one.2⟩

/-- In every interleaving whose updates keep pending requests, no more than two quotas of an address are allowed on readings
from any interval that is one window long. -/
theorem quota_le_two_windows {window maxRequests : ℕ} (long : 0 < window) (limited : 0 < maxRequests)
    {events : List (Event α)} {s : System α} (keeps : (System.start window maxRequests).RunKeepsPending events)
    (ran : (System.start window maxRequests).run events = some s) (ip : α) (x : ℕ) :
    (s.allowed.filter fun entry => entry.1 = ip ∧ x ≤ entry.2 ∧ entry.2 < x + window).length ≤ 2 * maxRequests := by
  obtain ⟨counters, counted⟩ := (counted_start long limited ip x).run keeps ran
  obtain ⟨sameWindow, sameLimit⟩ := run_limits ran
  have bound := counted.quota_le
  rw [sameLimit] at bound
  unfold quota Inside at bound
  rw [sameWindow] at bound
  exact bound

/-- Both threads hold a request of one address, and the later reading is updated first. -/
def crossing : List (Event ℕ) := [.tick 5, .read .udp 0, .tick 6, .read .tcp 0, .update .tcp, .update .udp]

theorem crossing_quota :
    ∃ s : System ℕ, (System.start 10 3).run crossing = some s ∧
      (s.allowed.filter fun entry => entry.1 = 0 ∧ 5 ≤ entry.2 ∧ entry.2 < 5 + 10).length ≤ 2 * 3 := by
  obtain ⟨s, ran⟩ := Option.isSome_iff_exists.mp (show ((System.start 10 3).run crossing).isSome = true by decide)
  refine ⟨s, ran, quota_le_two_windows (by decide) (by decide) ?_ ran 0 5⟩
  refine ⟨trivial, ?_⟩
  rintro _ ⟨⟩
  refine ⟨trivial, ?_⟩
  rintro _ ⟨⟩
  refine ⟨trivial, ?_⟩
  rintro _ ⟨⟩
  refine ⟨trivial, ?_⟩
  rintro _ ⟨⟩
  refine ⟨fun _ _ _ full => absurd full (by decide), ?_⟩
  rintro _ ⟨⟩
  exact ⟨fun _ _ _ full => absurd full (by decide), fun _ _ => trivial⟩

section LateReading

/-- A system with windows of ten ticks for three requests, the UDP thread between two requests: the clock, the request that
the TCP thread holds, the window of address 0 and the readings on which its requests were allowed. -/
structure Scene (s : System ℕ) (clock : ℕ) (held : Option (ℕ × ℕ)) (counter : Option Window) (readings : List ℕ) : Prop where
  window : s.limiter.window = 10
  maxRequests : s.limiter.maxRequests = 3
  clock : s.clock = clock
  udp : s.pending .udp = none
  tcp : s.pending .tcp = held
  counter : (s.limiter.state.lookup 0).map Bucket.toWindow = counter
  readings : (s.allowed.filter fun entry => entry.1 = 0).map Prod.snd = readings

variable {s : System ℕ} {clock : ℕ} {held : Option (ℕ × ℕ)} {counter : Option Window} {readings : List ℕ}

theorem run_append {α : Type} [DecidableEq α] (s : System α) (front rest : List (Event α)) :
    s.run (front ++ rest) = (s.run front).bind (run · rest) := by
  simp [run, List.foldlM_append]

theorem Scene.tick (scene : Scene s clock held counter readings) (later : ℕ) :
    Scene { s with clock := later } later held counter readings := by
  obtain ⟨window, maxRequests, rfl, udp, tcp, known, logged⟩ := scene
  exact ⟨window, maxRequests, rfl, udp, tcp, known, logged⟩

theorem run_tick (scene : Scene s clock held counter readings) {later : ℕ} (advance : clock ≤ later) :
    s.run [.tick later] = some { s with clock := later } := by
  have ahead : s.clock ≤ later := scene.clock ▸ advance
  simp [run, step, ahead]

/-- The TCP thread has read the clock for a request of address 0. -/
def holding (s : System ℕ) : System ℕ := { s with pending := Function.update s.pending .tcp (some (0, s.clock)) }

theorem Scene.holding (scene : Scene s clock none counter readings) :
    Scene s.holding clock (some (0, clock)) counter readings := by
  obtain ⟨window, maxRequests, rfl, udp, tcp, known, logged⟩ := scene
  exact ⟨window, maxRequests, rfl, by simpa [System.holding] using udp, by simp [System.holding], known, logged⟩

private theorem run_holding (scene : Scene s clock none counter readings) : s.run [.read .tcp 0] = some s.holding := by
  simp [run, step, scene.tcp, System.holding]

/-- A request that the UDP thread handles in one go. -/
def called (s : System ℕ) (ip : ℕ) : System ℕ :=
  { s with pending := Function.update s.pending .udp (some (ip, s.clock)) }.updated .udp ip s.clock

theorem run_call (udp : s.pending .udp = none) (ip : ℕ) :
    s.run [.read .udp ip, .update .udp] = some (s.called ip) := by
  have read : s.step (.read .udp ip) = some { s with pending := Function.update s.pending .udp (some (ip, s.clock)) } := by
    simp only [step, udp]
  have held : { s with pending := Function.update s.pending .udp (some (ip, s.clock)) }.pending .udp = some (ip, s.clock) := by
    simp
  rw [run, List.foldlM_cons, read, Option.bind_eq_bind, Option.bind_some, List.foldlM_cons, step_update held]
  rfl

theorem Scene.long (scene : Scene s clock held counter readings) : 0 < s.limiter.window := by rw [scene.window]; decide

theorem Scene.limited (scene : Scene s clock held counter readings) : 0 < s.limiter.maxRequests := by
  rw [scene.maxRequests]; decide

/-- The limiter decides on address 0 by its window. -/
theorem Scene.decided (scene : Scene s clock held counter readings) (now : ℕ) :
    (s.limiter.check now 0).1 = (admission 10 3 now counter).1 ∧
      ((s.limiter.check now 0).2.state.lookup 0).map Bucket.toWindow = some (admission 10 3 now counter).2 := by
  have stands : Stands s.limiter.window (fun reading => reading = now) (s.limiter.state.lookup 0) counter := .inl scene.counter
  have result := RateLimiter.check_eq scene.long scene.limited stands rfl
  rwa [scene.window, scene.maxRequests] at result

/-- A request of address 0. -/
theorem Scene.call (scene : Scene s clock held counter readings) :
    Scene (s.called 0) clock held (some (admission 10 3 clock counter).2)
      (if (admission 10 3 clock counter).1 then clock :: readings else readings) := by
  have result := scene.decided clock
  obtain ⟨window, maxRequests, rfl, udp, tcp, known, logged⟩ := scene
  refine ⟨by simpa [called, updated] using window, by simpa [called, updated] using maxRequests, rfl, by simp [called, updated],
    by simpa [called, updated] using tcp, result.2, ?_⟩
  change (((if (s.limiter.check s.clock 0).1 then (0, s.clock) :: s.allowed else s.allowed)).filter _).map _ = _
  rw [result.1]
  split
  · simp [logged]
  · exact logged

/-- The late update of the TCP thread for address 0. -/
theorem Scene.release {late : ℕ} (scene : Scene s clock (some (0, late)) counter readings) :
    Scene (s.updated .tcp 0 late) clock none (some (admission 10 3 late counter).2)
      (if (admission 10 3 late counter).1 then late :: readings else readings) := by
  have result := scene.decided late
  obtain ⟨window, maxRequests, rfl, udp, tcp, known, logged⟩ := scene
  refine ⟨by simpa [updated] using window, by simpa [updated] using maxRequests, rfl, by simpa [updated] using udp,
    by simp [updated], result.2, ?_⟩
  change (((if (s.limiter.check late 0).1 then (0, late) :: s.allowed else s.allowed)).filter _).map _ = _
  rw [result.1]
  split
  · simp [logged]
  · exact logged

/-- A request of another address, which may drop the bucket of address 0. -/
theorem Scene.other (scene : Scene s clock held counter readings) {ip : ℕ} (other : ip ≠ 0) :
    Scene (s.called ip) clock held (((s.limiter.prune clock).lookup 0).map Bucket.toWindow) readings := by
  have kept := RateLimiter.lookup_check_other scene.long scene.limited clock other.symm
  obtain ⟨window, maxRequests, rfl, udp, tcp, known, logged⟩ := scene
  refine ⟨by simpa [called, updated] using window, by simpa [called, updated] using maxRequests, rfl, by simp [called, updated],
    by simpa [called, updated] using tcp, congrArg (Option.map Bucket.toWindow) kept, ?_⟩
  change (((if (s.limiter.check s.clock ip).1 then (ip, s.clock) :: s.allowed else s.allowed)).filter _).map _ = _
  split
  · simp [other, logged]
  · exact logged

/-- Requests of `n` other addresses. -/
def others (n : ℕ) : List (Event ℕ) := (List.range n).flatMap fun i => [.read .udp (i + 1), .update .udp]

theorem Scene.fill (scene : Scene s 14 held (some ⟨5, 3⟩) readings) (empty : ∀ ip ≠ 0, s.limiter.state.lookup ip = none) (n : ℕ) :
    ∃ next, s.run (others n) = some next ∧ Scene next 14 held (some ⟨5, 3⟩) readings ∧
      (∀ i < n, (next.limiter.state.lookup (i + 1)).map Bucket.toWindow = some ⟨14, 1⟩) ∧
      ∀ i, n ≤ i → next.limiter.state.lookup (i + 1) = none := by
  induction n with
  | zero => exact ⟨s, rfl, scene, by omega, fun i _ => empty (i + 1) (by omega)⟩
  | succ n ih =>
    obtain ⟨before, ran, scene, filled, free⟩ := ih
    have fresh {ip : ℕ} {w : Window} (known : (before.limiter.state.lookup ip).map Bucket.toWindow = some w)
        (young : 4 < w.start) :
        (before.limiter.prune 14).lookup ip = before.limiter.state.lookup ip := by
      rcases RateLimiter.lookup_prune scene.long 14 ip with kept | ⟨_, _, bucket, found, expired⟩
      · exact kept
      · rw [found] at known
        cases known
        rw [scene.window] at expired
        simp only [Bucket.toWindow] at young
        omega
    have others (ip : ℕ) (differ : ip ≠ n + 1) :
        (before.called (n + 1)).limiter.state.lookup ip = (before.limiter.prune 14).lookup ip := by
      have same := RateLimiter.lookup_check_other scene.long scene.limited before.clock differ
      rw [scene.clock] at same
      exact scene.clock ▸ same
    have called := scene.other (show n + 1 ≠ 0 by omega)
    rw [fresh scene.counter (by decide), scene.counter] at called
    refine ⟨before.called (n + 1), ?_, called, ?_, ?_⟩
    · rw [System.others, List.range_succ, List.flatMap_append, run_append]
      change ((s.run (System.others n)).bind _) = _
      rw [ran, Option.bind_some]
      simpa using run_call scene.udp (n + 1)
    · intro i bound
      by_cases last : i = n
      · subst last
        have stands : Stands before.limiter.window (fun reading => reading = 14) (before.limiter.state.lookup (i + 1)) none :=
          .inl (by rw [free i (Nat.le_refl _)]; rfl)
        have decided := (RateLimiter.check_eq scene.long scene.limited stands rfl).2
        rw [scene.window, scene.maxRequests] at decided
        have clock := scene.clock
        change (((before.limiter.check before.clock (i + 1)).2.state.lookup (i + 1)).map _) = _
        rw [clock]
        exact decided
      · rw [others (i + 1) (by omega), fresh (filled i (by omega)) (by decide)]
        exact filled i (by omega)
    · intro i bound
      rw [others (i + 1) (by omega)]
      rcases RateLimiter.lookup_prune scene.long 14 (i + 1) with kept | ⟨_, dropped, _⟩
      · rw [kept]
        exact free i (by omega)
      · exact dropped

theorem run_trans {α : Type} [DecidableEq α] {first second third : System α} {front rest : List (Event α)}
    (before : first.run front = some second) (behind : second.run rest = some third) :
    first.run (front ++ rest) = some third := by
  rw [run_append, before, Option.bind_some, behind]

/-- A map with an entry for each of so many addresses is that long. -/
theorem entries_of_filled {limiter : RateLimiter ℕ} {n : ℕ}
    (filled : ∀ i < n, (limiter.state.lookup (i + 1)).map Bucket.toWindow = some ⟨14, 1⟩) : n ≤ limiter.state.entries.length := by
  have inside : (List.range n).map (· + 1) ⊆ limiter.state.keys := by
    intro ip member
    obtain ⟨i, bound, rfl⟩ := List.mem_map.mp member
    have known := filled i (List.mem_range.mp bound)
    rw [← AList.mem_keys, ← AList.lookup_isSome]
    cases found : limiter.state.lookup (i + 1) with
    | none => rw [found] at known; cases known
    | some bucket => rfl
  have distinct : ((List.range n).map (· + 1)).Nodup := List.nodup_range.map fun a b same => by simpa using same
  have shorter := (distinct.subperm inside).length_le
  simpa [AList.keys, List.keys] using shorter

theorem Scene.pruned (scene : Scene s clock held (some ⟨5, 3⟩) readings) (full : 1024 < s.limiter.state.entries.length) :
    (s.limiter.prune 15).lookup 0 = none := by
  have known := scene.counter
  rw [RateLimiter.prune, if_pos full, lookup_retain, scene.window]
  cases found : s.limiter.state.lookup 0 with
  | none => rfl
  | some bucket =>
    rw [found] at known
    have start : bucket.windowStart = 5 := congrArg Window.start (Option.some.inj known)
    simp [Option.filter, start]

/-- No other address has a bucket. -/
def Alone (s : System ℕ) : Prop := ∀ ip ≠ 0, s.limiter.state.lookup ip = none

theorem Scene.alone (scene : Scene s clock held counter readings) (alone : s.Alone) : (s.called 0).Alone := by
  intro ip other
  have same := RateLimiter.lookup_check_other scene.long scene.limited s.clock other
  rcases RateLimiter.lookup_prune scene.long s.clock ip with kept | ⟨_, dropped, _⟩
  · exact same.trans (kept.trans (alone ip other))
  · exact same.trans dropped

private theorem run_release {late : ℕ} (scene : Scene s clock (some (0, late)) counter readings) :
    s.run [.update .tcp] = some (s.updated .tcp 0 late) := by
  rw [run, List.foldlM_cons, step_update scene.tcp]
  rfl

theorem Scene.quota (scene : Scene s clock held counter readings) :
    (s.allowed.filter fun entry => entry.1 = 0 ∧ 14 ≤ entry.2 ∧ entry.2 < 14 + 10).length =
      (readings.filter fun now => 14 ≤ now ∧ now < 14 + 10).length := by
  rw [← scene.readings, List.filter_map, List.length_map, List.filter_filter]
  congr 2
  funext entry
  simp [Bool.and_comm]

/-- Seven requests are allowed on readings from ten ticks: two in a window that pruning drops, two in the window that a late
reading opens instead, and three in the window after that. -/
theorem late_reading_breaks_quota :
    ∃ events, ∃ s : System ℕ, (System.start 10 3).run events = some s ∧
      2 * 3 < (s.allowed.filter fun entry => entry.1 = 0 ∧ 14 ≤ entry.2 ∧ entry.2 < 14 + 10).length := by
  have scene₀ : Scene (System.start 10 3) 0 none none [] := ⟨rfl, rfl, rfl, rfl, rfl, rfl, rfl⟩
  have scene₁ := scene₀.tick 5
  have scene₂ := scene₁.call
  have scene₃ := scene₂.tick 6
  have scene₄ := scene₃.holding
  have scene₅ := scene₄.tick 14
  have scene₆ := scene₅.call
  have scene₇ := scene₆.call
  have alone := scene₆.alone (scene₅.alone (scene₁.alone fun _ _ => rfl))
  have run₇ := run_trans (run_tick scene₀ (by decide)) (run_trans (run_call scene₁.udp 0) (run_trans (run_tick scene₂ (by decide))
    (run_trans (run_holding scene₃) (run_trans (run_tick scene₄ (by decide)) (run_trans (run_call scene₅.udp 0)
      (run_call scene₆.udp 0))))))
  obtain ⟨s₈, run₈, scene₈, filled, _⟩ := scene₇.fill alone 1025
  have full : 1024 < s₈.limiter.state.entries.length := entries_of_filled filled
  have scene₉ := scene₈.tick 15
  have scene₁₀ := scene₉.other (show 1 ≠ 0 by decide)
  rw [scene₉.pruned full] at scene₁₀
  have scene₁₁ := scene₁₀.release
  have scene₁₂ := scene₁₁.call
  have scene₁₃ := scene₁₂.call
  have scene₁₄ := scene₁₃.tick 16
  have scene₁₅ := scene₁₄.call
  have scene₁₆ := scene₁₅.call
  have scene₁₇ := scene₁₆.call
  have run₁₇ := run_trans (run_trans run₇ run₈) (run_trans (run_tick scene₈ (by decide)) (run_trans (run_call scene₉.udp 1)
    (run_trans (run_release scene₁₀) (run_trans (run_call scene₁₁.udp 0) (run_trans (run_call scene₁₂.udp 0)
      (run_trans (run_tick scene₁₃ (by decide)) (run_trans (run_call scene₁₄.udp 0) (run_trans (run_call scene₁₅.udp 0)
        (run_call scene₁₆.udp 0)))))))))
  refine ⟨_, _, run₁₇, ?_⟩
  rw [scene₁₇.quota]
  decide

end LateReading

end System

end RustyAlias
