import RustyAlias.Soundness.Isolation
import RustyAlias.Soundness.ServerQuota

/-! # The process as two loops in turn

What is left of the concurrency is one order, the one in which requests take the lock. Given that order, each
transport is served as by its loop alone, and every verdict is the one of a limiter that keeps one counter for
each client: no map, no pruning and no second thread.
-/

namespace RustyAlias

open Rust FixedWindow

variable {α : Type} [DecidableEq α]

/-- What a limiter that keeps one counter for each client says to a request that comes behind others: the reading, if it
allows the request. -/
def verdict (window maxRequests : ℕ) (past : List (α × ℕ)) (call : α × ℕ) : Option ℕ :=
  if window = 0 ∨ maxRequests = 0 ∨
      (admission window maxRequests call.2 (after window maxRequests (readingsOf call.1 past))).1 = true then some call.2
  else none

/-- What it says to the requests of one thread. -/
def verdicts (window maxRequests : ℕ) (thread : Thread) : List (α × ℕ) → List (Thread × α × ℕ) → List (α × Option ℕ)
  | _, [] => []
  | past, (caller, call) :: rest =>
    (if caller = thread then [(call.1, verdict window maxRequests past call)] else []) ++
      verdicts window maxRequests thread (past ++ [call]) rest

private theorem verdicts_append (window maxRequests : ℕ) (thread : Thread) (past : List (α × ℕ)) (front rest : List (Thread × α × ℕ)) :
    verdicts window maxRequests thread past (front ++ rest) =
      verdicts window maxRequests thread past front ++ verdicts window maxRequests thread (past ++ front.map Prod.snd) rest := by
  induction front generalizing past with
  | nil => rw [List.nil_append, verdicts, List.nil_append, List.map_nil, List.append_nil]
  | cons first front ih =>
    obtain ⟨caller, call⟩ := first
    rw [List.cons_append, verdicts, verdicts, ih, List.append_assoc, List.map_cons, List.append_assoc, List.singleton_append]

theorem RateLimiter.check_of_disabled {limiter : RateLimiter α} (disabled : limiter.window = 0 ∨ limiter.maxRequests = 0)
    (now : ℕ) (ip : α) : limiter.check now ip = (true, limiter) := by
  have off : limiter.isEnabled = false := by
    rcases disabled with none | none <;> simp [isEnabled, none]
  rw [check, off]
  rfl

namespace Server

variable {config : Config} {s next : Server α} {event : ServerEvent α} {events : List (ServerEvent α)} {window maxRequests : ℕ}

/-- The request that a step decides, and the thread that asks for it. -/
def callOf (s : Server α) : ServerEvent α → Option (Thread × α × ℕ)
  | .lock thread => (s.system.pending thread).map fun call => (thread, call)
  | _ => none

/-- The requests in the order in which they take the lock. -/
def calls (config : Config) (events : List (ServerEvent α)) : List (Thread × α × ℕ) :=
  Machine.trace (step config) callOf (start config) events

/-- Each thread has been told what one counter for each client says to the requests so far. -/
structure InTurn (config : Config) (window maxRequests : ℕ) (past : List (ServerEvent α)) (log : List (Thread × α × ℕ))
    (s : Server α) : Prop where
  heard : ∀ thread, heard config thread past = verdicts window maxRequests thread [] log
  accounted : s.Accounted
  sameWindow : s.system.limiter.window = window
  sameLimit : s.system.limiter.maxRequests = maxRequests
  counted : 0 < window → 0 < maxRequests → ∀ ip x,
    s.system.Counted (System.countersOf window maxRequests (log.map Prod.snd)) ip x

private theorem inTurn_start : (start config : Server α).InTurn config (config.rateLimitSeconds.toNat * ticksPerSecond)
    config.rateLimitRequests.toNat [] [] where
  heard _ := rfl
  accounted := accounted_start
  sameWindow := rfl
  sameLimit := rfl
  counted long limited ip x := System.counted_start long limited ip x

section Step

variable {past : List (ServerEvent α)} {log : List (Thread × α × ℕ)}

/-- The limiter decides as the counters. -/
theorem InTurn.decides (inTurn : s.InTurn config window maxRequests past log) {thread : Thread} {ip : α} {now : ℕ}
    (pending : s.system.pending thread = some (ip, now)) :
    (if (s.system.limiter.check now ip).1 = true then some now else none) =
      verdict window maxRequests (log.map Prod.snd) (ip, now) := by
  by_cases disabled : window = 0 ∨ maxRequests = 0
  · have off := disabled
    rw [← inTurn.sameWindow, ← inTurn.sameLimit] at off
    rw [RateLimiter.check_of_disabled off, verdict, if_pos rfl, if_pos (or_assoc.mp (.inl disabled))]
  · obtain ⟨long, limited⟩ := not_or.mp disabled
    have counted := inTurn.counted (Nat.pos_of_ne_zero long) (Nat.pos_of_ne_zero limited) ip 0
    rw [counted.decides inTurn.sameWindow inTurn.sameLimit pending, verdict]
    simp only [long, limited, false_or]

/-- What a step tells a thread. -/
theorem InTurn.told (inTurn : s.InTurn config window maxRequests past log) (thread : Thread) (event : ServerEvent α) :
    (s.told thread event).toList = verdicts window maxRequests thread (log.map Prod.snd) (s.callOf event).toList := by
  cases event with
  | lock caller =>
    cases pending : s.system.pending caller with
    | none =>
      by_cases same : caller = thread
      · subst same
        simp [Server.told, callOf, pending, verdicts]
      · simp [Server.told, callOf, pending, verdicts, same]
    | some call =>
      obtain ⟨ip, now⟩ := call
      by_cases same : caller = thread
      · subst same
        simp [Server.told, callOf, pending, verdicts, inTurn.accounted.asked caller ip now pending, ← inTurn.decides pending]
      · simp [Server.told, callOf, pending, verdicts, same]
  | tick | readClock | receive | answer | accept | serve => rfl

/-- The counters behind a step. -/
theorem counted_step {calls : List (α × ℕ)} (sameWindow : s.system.limiter.window = window)
    (sameLimit : s.system.limiter.maxRequests = maxRequests) {ip : α} {x : ℕ}
    (counted : s.system.Counted (System.countersOf window maxRequests calls) ip x) (keeps : s.KeepsPending event)
    (stepped : s.step config event = some next) :
    next.system.Counted (System.countersOf window maxRequests (calls ++ (s.callOf event).toList.map Prod.snd)) ip x := by
  subst sameWindow sameLimit
  cases (step_iff.mp stepped).2 with
  | tick ticks => simpa [callOf, System.callOf] using counted.step_calls (keeps _ rfl) ticks
  | readClock asks reads =>
    simpa [callOf, System.callOf] using counted.step_calls (keeps _ (by simp [limiterEvent, asks])) reads
  | lockUdp pending updates decides =>
    simpa [callOf, System.callOf, pending] using counted.step_calls (keeps _ rfl) updates
  | lockTcp pending updates decides =>
    simpa [callOf, System.callOf, pending] using counted.step_calls (keeps _ rfl) updates
  | receive | answer | accept | serve => simpa [callOf] using counted

theorem limits_step (stepped : s.step config event = some next) :
    next.system.limiter.window = s.system.limiter.window ∧ next.system.limiter.maxRequests = s.system.limiter.maxRequests := by
  have projected := projects s event next stepped
  cases seen : s.limiterEvent event with
  | none =>
    rw [seen] at projected
    exact ⟨congrArg (·.limiter.window) projected, congrArg (·.limiter.maxRequests) projected⟩
  | some event' =>
    rw [seen] at projected
    exact @System.run_limits α _ s.system next.system [event'] (Machine.run_cons_eq_some_iff.mpr ⟨_, projected, rfl⟩)

/-- What one step keeps. -/
theorem InTurn.step (inTurn : s.InTurn config window maxRequests past log)
    (reached : Machine.run (Server.step config) (start config) past = some s) (keeps : s.KeepsPending event)
    (stepped : s.step config event = some next) :
    next.InTurn config window maxRequests (past ++ [event]) (log ++ (s.callOf event).toList) := by
  obtain ⟨sameWindow, sameLimit⟩ := limits_step stepped
  constructor
  · intro thread
    rw [heard_concat reached, verdicts_append, List.nil_append, ← inTurn.told, inTurn.heard]
  · exact inTurn.accounted.step stepped
  · exact sameWindow.trans inTurn.sameWindow
  · exact sameLimit.trans inTurn.sameLimit
  · intro long limited ip x
    rw [List.map_append]
    exact counted_step inTurn.sameWindow inTurn.sameLimit (inTurn.counted long limited ip x) keeps stepped

end Step

private theorem inTurn_run (ran : Machine.run (step config) (start config) events = some s)
    (keeps : Machine.Along (step config) KeepsPending (start config) events) :
    s.InTurn config (config.rateLimitSeconds.toNat * ticksPerSecond) config.rateLimitRequests.toNat events (calls config events) := by
  let holds (past : List (ServerEvent α)) (state : Server α) : Prop :=
    state.InTurn config (config.rateLimitSeconds.toNat * ticksPerSecond) config.rateLimitRequests.toNat past (calls config past)
  have keeps' (past : List (ServerEvent α)) (state : Server α) (event : ServerEvent α) (next : Server α)
      (reached : Machine.run (step config) (start config) past = some state) (meets : state.KeepsPending event)
      (now : holds past state) (stepped : state.step config event = some next) : holds (past ++ [event]) next := by
    have behind := now.step reached meets stepped
    rwa [calls, ← Machine.trace_concat reached] at behind
  have inTurn : holds events s := Machine.invariant_along keeps' inTurn_start keeps ran
  exact inTurn

/-- In every run whose updates keep pending requests, whatever the order of the steps, the process does what its two loops do
one by one with the verdicts of one counter for each client on the requests in the order of the lock. -/
theorem serves_in_turn (ran : Machine.run (step config) (start config) events = some s)
    (keeps : Machine.Along (step config) KeepsPending (start config) events) :
    ∃ turns visits run,
      (udpLoop config turns = .ok s.udp.sent ∧ turns.map UdpTurn.request ++ s.udp.inFlight = datagrams events ∧
        turns.map UdpTurn.verdict ++ s.udp.granted = verdicts (config.rateLimitSeconds.toNat * ticksPerSecond)
          config.rateLimitRequests.toNat .udp [] (calls config events) ∧
        turns.filterMap UdpTurn.outcome = outcomes events) ∧
      acceptLoop config (visits.map TcpTurn.toAccept) = .ok run ∧ run.failure = s.tcp.failure ∧
      s.tcp.written.map (fun answer => (answer.peer, answer.octets)) = (visits.zipWith TcpTurn.addressed run.written).flatten ∧
      (visits ++ s.tcp.inFlight).map TcpTurn.undecided = (accepts events).map TcpTurn.undecided ∧
      visits.filterMap TcpTurn.verdict ++ s.tcp.granted = (verdicts (config.rateLimitSeconds.toNat * ticksPerSecond)
        config.rateLimitRequests.toNat .tcp [] (calls config events)).map fun verdict => (verdict.1, verdict.2.isSome) := by
  have inTurn := inTurn_run ran keeps
  obtain ⟨udp, tcp⟩ := follows_run ran
  rw [inTurn.heard] at udp tcp
  obtain ⟨turns, served⟩ := udp.follows
  obtain ⟨visits, run, accepted⟩ := tcp.follows
  exact ⟨turns, visits, run, served, accepted⟩

/-- In the sample run the UDP thread reads the clock last and takes the lock first. -/
theorem calls_sampleEvents : calls sampleConfig sampleEvents = [(.udp, 1, 5), (.tcp, 1, 0)] := by decide +kernel

theorem serves_in_turn_sample : ∃ s, Machine.run (step sampleConfig) (start sampleConfig) sampleEvents = some s ∧
    ∃ turns visits run,
      (udpLoop sampleConfig turns = .ok s.udp.sent ∧ turns.map UdpTurn.request ++ s.udp.inFlight = datagrams sampleEvents ∧
        turns.map UdpTurn.verdict ++ s.udp.granted = [(1, some 5)] ∧
        turns.filterMap UdpTurn.outcome = [(Stream'.const none, true)]) ∧
      acceptLoop sampleConfig (visits.map TcpTurn.toAccept) = .ok run ∧ run.failure = s.tcp.failure ∧
      s.tcp.written.map (fun answer => (answer.peer, answer.octets)) = (visits.zipWith TcpTurn.addressed run.written).flatten ∧
      (visits ++ s.tcp.inFlight).map TcpTurn.undecided = (accepts sampleEvents).map TcpTurn.undecided ∧
      visits.filterMap TcpTurn.verdict ++ s.tcp.granted = [(1, true)] := by
  obtain ⟨s, ran⟩ := sampleEvents_run
  obtain ⟨turns, visits, run, ⟨looped, requests, toldUdp, gave⟩, accepted, ends, written, same, toldTcp⟩ :=
    serves_in_turn ran (keepsPending_of_few (by decide))
  have udp : verdicts (sampleConfig.rateLimitSeconds.toNat * ticksPerSecond) sampleConfig.rateLimitRequests.toNat .udp []
      (calls sampleConfig sampleEvents) = [(1, some 5)] := by rw [calls_sampleEvents]; decide +kernel
  have tcp : verdicts (sampleConfig.rateLimitSeconds.toNat * ticksPerSecond) sampleConfig.rateLimitRequests.toNat .tcp []
      (calls sampleConfig sampleEvents) = [(1, some 0)] := by rw [calls_sampleEvents]; decide +kernel
  rw [udp] at toldUdp
  rw [tcp] at toldTcp
  exact ⟨s, ran, turns, visits, run, ⟨looped, requests, toldUdp, gave⟩, accepted, ends, written, same, toldTcp⟩

end Server

end RustyAlias
