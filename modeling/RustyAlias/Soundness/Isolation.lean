import RustyAlias.Soundness.Quota
import RustyAlias.Soundness.RateLimit
import RustyAlias.ToMathlib.Runs

/-! # Clients do not share a limit

Under two threads, too, the limiter is one counter for each client. The order that matters is the one in which
the threads take the lock: a decision is made from the readings of the client's own requests in that order, late
ones included, and neither other clients nor pruning have a part in it.
-/

namespace RustyAlias

open FixedWindow

variable {α : Type} [DecidableEq α]

namespace System

/-- The request that a step decides. -/
def callOf (s : System α) : Event α → Option (α × ℕ)
  | .tick _ => none
  | .read _ _ => none
  | .update thread => s.pending thread

/-- The requests in the order in which they are decided. -/
def calls (s : System α) (events : List (Event α)) : List (α × ℕ) := Machine.trace System.step callOf s events

variable {s next : System α} {event : Event α} {events : List (Event α)} {ip : α} {x window maxRequests : ℕ}

private theorem calls_cons (stepped : s.step event = some next) (rest : List (Event α)) :
    s.calls (event :: rest) = (s.callOf event).toList ++ next.calls rest := by
  rw [calls, Machine.trace, stepped]
  rfl

/-- A counter for each client that has seen these requests. -/
def countersOf (window maxRequests : ℕ) (past : List (α × ℕ)) (ip : α) : Option Window :=
  after window maxRequests (readingsOf ip past)

private theorem countersOf_concat (past : List (α × ℕ)) (ip : α) (now : ℕ) :
    countersOf window maxRequests (past ++ [(ip, now)]) = Function.update (countersOf window maxRequests past) ip
      (some (admission window maxRequests now (countersOf window maxRequests past ip)).2) := by
  funext other
  rw [countersOf, readingsOf_concat]
  by_cases same : ip = other
  · subst same
    rw [if_pos rfl, after_concat, Function.update_self]
    rfl
  · rw [if_neg same, Function.update_of_ne (Ne.symm same)]
    rfl

/-- What one step does to the counters. -/
theorem Counted.step_calls {past : List (α × ℕ)}
    (counted : s.Counted (countersOf s.limiter.window s.limiter.maxRequests past) ip x) (keeps : s.KeepsPending event)
    (stepped : s.step event = some next) :
    next.Counted (countersOf s.limiter.window s.limiter.maxRequests (past ++ (s.callOf event).toList)) ip x := by
  cases event with
  | tick later =>
    rw [callOf, Option.toList_none, List.append_nil]
    simp only [System.step] at stepped
    split at stepped
    · next advance =>
      cases stepped
      exact counted.tick advance
    · cases stepped
  | read thread host =>
    rw [callOf, Option.toList_none, List.append_nil]
    simp only [System.step] at stepped
    split at stepped
    · next free =>
      cases stepped
      exact counted.read free
    · cases stepped
  | update thread =>
    cases pending : s.pending thread with
    | none => simp [System.step, pending] at stepped
    | some request =>
      obtain ⟨host, now⟩ := request
      rw [callOf, pending, Option.toList_some, countersOf_concat, step_update_eq_some pending stepped]
      exact counted.updated pending keeps

theorem Counted.run_calls {past : List (α × ℕ)}
    (counted : s.Counted (countersOf s.limiter.window s.limiter.maxRequests past) ip x) (keeps : s.RunKeepsPending events)
    (ran : s.run events = some next) :
    next.Counted (countersOf s.limiter.window s.limiter.maxRequests (past ++ s.calls events)) ip x := by
  induction events generalizing s past with
  | nil =>
    cases ran
    rw [calls, Machine.trace, List.append_nil]
    exact counted
  | cons event rest ih =>
    obtain ⟨middle, stepped, ran⟩ := Option.bind_eq_some_iff.mp ran
    obtain ⟨sameWindow, sameLimit⟩ : middle.limiter.window = s.limiter.window ∧
        middle.limiter.maxRequests = s.limiter.maxRequests :=
      @run_limits α _ s middle [event] (by rw [System.run, List.foldlM_cons, stepped]; rfl)
    have behind := counted.step_calls keeps.1 stepped
    rw [← sameWindow, ← sameLimit] at behind
    rw [calls_cons stepped, ← List.append_assoc, ← sameWindow, ← sameLimit]
    exact ih behind (keeps.2 middle stepped) ran

/-- The decision on a pending request, from the counters. -/
theorem Counted.decides {past : List (α × ℕ)}
    (counted : s.Counted (countersOf window maxRequests past) ip x) (sameWindow : s.limiter.window = window)
    (sameLimit : s.limiter.maxRequests = maxRequests) {thread : Thread} {host : α} {now : ℕ}
    (pending : s.pending thread = some (host, now)) :
    (s.limiter.check now host).1 =
      (admission window maxRequests now (after window maxRequests (readingsOf host past))).1 := by
  subst sameWindow sameLimit
  exact (RateLimiter.check_eq counted.long counted.limited (counted.stands host) (.inr ⟨thread, pending⟩)).1

/-- In every interleaving whose updates keep pending requests, a request is decided as by a counter that has seen nothing
but the requests of its own client, in the order in which they took the lock. -/
theorem decided_alone (long : 0 < window) (limited : 0 < maxRequests)
    (keeps : (System.start window maxRequests).RunKeepsPending events)
    (ran : (System.start window maxRequests).run events = some s) {thread : Thread} {now : ℕ}
    (pending : s.pending thread = some (ip, now)) :
    (s.limiter.check now ip).1 = (admission window maxRequests now
      (after window maxRequests (readingsOf ip ((System.start window maxRequests).calls events)))).1 := by
  have start : (System.start window maxRequests : System α).Counted (countersOf window maxRequests []) ip 0 :=
    counted_start long limited ip 0
  have counted := start.run_calls keeps ran
  obtain ⟨sameWindow, sameLimit⟩ := run_limits ran
  exact counted.decides sameWindow sameLimit pending

/-- The UDP thread has read the clock first and takes the lock last. -/
theorem decided_alone_crossing : ∃ s : System ℕ, (System.start 10 3).run crossing.dropLast = some s ∧
    (s.limiter.check 5 0).1 = (admission 10 3 5
      (after 10 3 (readingsOf 0 ((System.start 10 3).calls crossing.dropLast)))).1 := by
  obtain ⟨s, ran⟩ := Option.isSome_iff_exists.mp
    (show ((System.start 10 3).run crossing.dropLast).isSome = true by decide)
  have held : ((System.start 10 3).run crossing.dropLast).bind (·.pending .udp) = some (0, 5) := by decide
  rw [ran, Option.bind_some] at held
  refine ⟨s, ran, decided_alone (by decide) (by decide) ?_ ran held⟩
  refine ⟨trivial, ?_⟩
  rintro _ ⟨⟩
  refine ⟨trivial, ?_⟩
  rintro _ ⟨⟩
  refine ⟨trivial, ?_⟩
  rintro _ ⟨⟩
  refine ⟨trivial, ?_⟩
  rintro _ ⟨⟩
  exact ⟨fun _ _ _ full => absurd full (by decide), fun _ _ => trivial⟩

end System

end RustyAlias
