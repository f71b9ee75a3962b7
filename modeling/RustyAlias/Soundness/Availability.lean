import RustyAlias.Soundness.Refusals
import RustyAlias.Soundness.Sequential

/-! # A flood does not cost the others their answers

A client that stays below the limit is never refused, whatever the other clients send, whatever is pruned and
however the threads run. One request less than the limit is what can be promised: a request whose thread waits
for the lock may be counted in a window that began after its reading.
-/

namespace RustyAlias

open Rust FixedWindow

variable {α : Type} [DecidableEq α]

theorem System.Fair.crowded {s : System α} (fair : s.Fair) {thread : Thread} {ip : α} {now : ℕ}
    (pending : s.pending thread = some (ip, now)) (refused : (s.limiter.check now ip).1 = false) :
    ∃ x, s.limiter.maxRequests ≤ s.quota ip x + if Inside s.limiter.window x now then 1 else 0 := by
  rcases @RateLimiter.check_cases α _ s.limiter now ip fair.long fair.limited with ⟨allowed, _⟩ |
    ⟨bucket, known, young, ⟨allowed, _⟩ | ⟨_, full, _⟩⟩
  · rw [allowed] at refused
    cases refused
  · rw [allowed] at refused
    cases refused
  · obtain ⟨_, _, _, early, few, inside⟩ := fair.spent ip bucket known
    refine ⟨bucket.windowStart, ?_⟩
    -- The request is in the window itself, or it is the late one.
    by_cases late : now < bucket.windowStart
    · obtain ⟨others, _, stale, _⟩ := System.stale_update s s (Function.update_eq_self thread s.pending).symm ip bucket.windowStart
      rw [pending, System.overtaken, if_pos ⟨rfl, late⟩] at stale
      omega
    · rw [if_pos ⟨Nat.le_of_not_lt late, young⟩]
      omega

namespace Server

variable {config : Config} {s next : Server α} {event : ServerEvent α} {events : List (ServerEvent α)} {ip : α}

/-- How many requests of an address were decided on readings from the interval of one window that begins at `x`. -/
def made (window : ℕ) (log : List (Thread × α × ℕ)) (ip : α) (x : ℕ) : ℕ :=
  (log.filter fun call => call.2.1 = ip ∧ Inside window x call.2.2).length

private theorem made_append (window : ℕ) (front rest : List (Thread × α × ℕ)) (ip : α) (x : ℕ) :
    made window (front ++ rest) ip x = made window front ip x + made window rest ip x := by
  rw [made, List.filter_append, List.length_append]
  rfl

/-- What is known of the limiter, and that a client below the limit has not been refused. -/
structure Serves (config : Config) (ip : α) (window maxRequests : ℕ) (past : List (ServerEvent α))
    (log : List (Thread × α × ℕ)) (s : Server α) : Prop where
  accounted : s.Accounted
  sameWindow : s.system.limiter.window = window
  sameLimit : s.system.limiter.maxRequests = maxRequests
  fair : 0 < window → 0 < maxRequests → s.system.Fair
  among : s.system.allowed.Subperm (log.map Prod.snd)
  heard : (∀ x, made window log ip x < maxRequests) →
    ∀ thread, ∀ verdict ∈ heard config thread past, verdict.1 = ip → verdict.2 ≠ none

private theorem serves_start : (start config : Server α).Serves config ip (config.rateLimitSeconds.toNat * ticksPerSecond)
    config.rateLimitRequests.toNat [] [] where
  accounted := accounted_start
  sameWindow := rfl
  sameLimit := rfl
  fair long limited :=
    { long := long
      limited := limited
      taken := fun _ _ _ waits => by cases waits
      spent := fun _ _ found => by cases found }
  among := List.Subperm.refl _
  heard _ _ _ member := by cases member

section Step

variable {window maxRequests : ℕ} {past : List (ServerEvent α)} {log : List (Thread × α × ℕ)}

theorem Serves.quota_le (serves : s.Serves config ip window maxRequests past log) (x : ℕ) :
    s.system.quota ip x ≤ made window log ip x := by
  have fewer := (serves.among.filter fun entry => entry.1 = ip ∧ Inside window x entry.2).length_le
  rw [List.filter_map, List.length_map] at fewer
  rw [System.quota, serves.sameWindow]
  exact fewer

/-- A refusal of the client means that it is not below the limit. -/
theorem Serves.allows (serves : s.Serves config ip window maxRequests past log) {thread : Thread} {now : ℕ}
    (pending : s.system.pending thread = some (ip, now))
    (few : ∀ x, made window (log ++ [(thread, ip, now)]) ip x < maxRequests) : (s.system.limiter.check now ip).1 = true := by
  by_contra refused
  rw [Bool.not_eq_true] at refused
  by_cases long : window = 0
  · rw [RateLimiter.check_of_disabled (.inl (serves.sameWindow.trans long))] at refused
    cases refused
  · have fair := serves.fair (Nat.pos_of_ne_zero long) (Nat.zero_lt_of_lt (few 0))
    obtain ⟨x, crowded⟩ := fair.crowded pending refused
    have quota := serves.quota_le x
    have below := few x
    rw [made_append] at below
    have own : made window [(thread, ip, now)] ip x = if Inside window x now then 1 else 0 := by
      by_cases inside : Inside window x now <;> simp [made, inside]
    rw [serves.sameLimit, serves.sameWindow] at crowded
    omega

/-- What a step tells a thread about the client. -/
theorem Serves.told_step (serves : s.Serves config ip window maxRequests past log)
    (few : ∀ x, made window (log ++ (s.callOf event).toList) ip x < maxRequests) (thread : Thread) :
    ∀ verdict ∈ (s.told thread event).toList, verdict.1 = ip → verdict.2 ≠ none := by
  rintro ⟨host, reading⟩ member rfl
  cases event with
  | lock caller =>
    by_cases same : caller = thread
    · subst same
      cases pending : s.system.pending caller with
      | none => simp [Server.told, pending] at member
      | some call =>
        obtain ⟨asker, now⟩ := call
        have asks := serves.accounted.asked caller asker now pending
        simp only [Server.told, asks, pending, if_true, Option.bind_eq_bind, Option.bind_some, Option.toList_some,
          List.mem_singleton, Prod.mk.injEq] at member
        obtain ⟨rfl, rfl⟩ := member
        rw [callOf, pending] at few
        rw [serves.allows pending few]
        simp
    · simp [Server.told, same] at member
  | tick | readClock | receive | answer | accept | serve => cases member

private theorem among_updated {calls : List (α × ℕ)} (among : s.system.allowed.Subperm calls) (thread : Thread) (host : α) (now : ℕ) :
    (s.system.updated thread host now).allowed.Subperm (calls ++ [(host, now)]) := by
  simp only [System.updated]
  split
  · exact ((List.subperm_cons (host, now)).mpr among).trans (List.perm_append_singleton ..).symm.subperm
  · exact among.trans (List.sublist_append_left ..).subperm

/-- The requests that were allowed are among those that took the lock. -/
theorem among_step (among : s.system.allowed.Subperm (log.map Prod.snd)) (stepped : s.step config event = some next) :
    next.system.allowed.Subperm ((log ++ (s.callOf event).toList).map Prod.snd) := by
  cases (step_iff.mp stepped).2 with
  | tick ticks =>
    rw [System.step_tick_eq_some ticks]
    simpa [callOf] using among
  | readClock asks reads =>
    rw [System.step_read_eq_some reads]
    simpa [callOf] using among
  | lockUdp pending updates decides =>
    rw [System.step_update_eq_some pending updates]
    simpa [callOf, pending] using among_updated among .udp _ _
  | lockTcp pending updates decides =>
    rw [System.step_update_eq_some pending updates]
    simpa [callOf, pending] using among_updated among .tcp _ _
  | receive | answer | accept | serve => simpa [callOf] using among

private theorem fair_step (fair : s.system.Fair) (stepped : s.step config event = some next) : next.system.Fair := by
  have projected := projects s event next stepped
  cases seen : s.limiterEvent event with
  | none =>
    rw [seen] at projected
    dsimp only at projected
    rwa [projected]
  | some event' =>
    rw [seen] at projected
    exact fair.step projected

/-- What one step keeps. -/
theorem Serves.step (serves : s.Serves config ip window maxRequests past log)
    (reached : Machine.run (Server.step config) (start config) past = some s) (stepped : s.step config event = some next) :
    next.Serves config ip window maxRequests (past ++ [event]) (log ++ (s.callOf event).toList) where
  accounted := serves.accounted.step stepped
  sameWindow := (limits_step stepped).1.trans serves.sameWindow
  sameLimit := (limits_step stepped).2.trans serves.sameLimit
  fair long limited := fair_step (serves.fair long limited) stepped
  among := among_step serves.among stepped
  heard few thread verdict member := by
    have before (x : ℕ) : made window log ip x < maxRequests := by
      have below := few x
      rw [made_append] at below
      omega
    rw [heard_concat reached, List.mem_append] at member
    rcases member with old | new
    · exact serves.heard before thread verdict old
    · exact serves.told_step few thread verdict new

end Step

private theorem serves_run (ran : Machine.run (step config) (start config) events = some s) :
    s.Serves config ip (config.rateLimitSeconds.toNat * ticksPerSecond) config.rateLimitRequests.toNat events (calls config events) := by
  let holds (past : List (ServerEvent α)) (state : Server α) : Prop :=
    state.Serves config ip (config.rateLimitSeconds.toNat * ticksPerSecond) config.rateLimitRequests.toNat past (calls config past)
  have keeps (past : List (ServerEvent α)) (state : Server α) (event : ServerEvent α) (next : Server α)
      (reached : Machine.run (step config) (start config) past = some state) (now : holds past state)
      (stepped : state.step config event = some next) : holds (past ++ [event]) next := by
    have behind := now.step reached stepped
    rwa [calls, ← Machine.trace_concat reached] at behind
  have serves : holds events s := Machine.invariant_reached keeps serves_start ran
  exact serves

/-- In every interleaving, a client of whom fewer requests are decided on the readings of any interval of one window than the
limit says has all its datagrams handled and all its connections served. -/
theorem served_below_limit (ran : Machine.run (step config) (start config) events = some s)
    (few : ∀ x, made (config.rateLimitSeconds.toNat * ticksPerSecond) (calls config events) ip x < config.rateLimitRequests.toNat) :
    ∃ turns visits run,
      (udpLoop config turns = .ok s.udp.sent ∧ turns.map UdpTurn.request ++ s.udp.inFlight = datagrams events ∧
        turns.map UdpTurn.verdict ++ s.udp.granted = heard config .udp events ∧
        turns.filterMap UdpTurn.outcome = outcomes events ∧
        ∀ turn ∈ turns, turn.src.ip = ip → ∃ handling, turn.handling = some handling) ∧
      acceptLoop config (visits.map TcpTurn.toAccept) = .ok run ∧ run.failure = s.tcp.failure ∧
      s.tcp.written.map (fun answer => (answer.peer, answer.octets)) = (visits.zipWith TcpTurn.addressed run.written).flatten ∧
      (visits ++ s.tcp.inFlight).map TcpTurn.undecided = (accepts events).map TcpTurn.undecided ∧
      visits.filterMap TcpTurn.verdict ++ s.tcp.granted =
        (heard config .tcp events).map (fun verdict => (verdict.1, verdict.2.isSome)) ∧
      ∀ peer stream, some (peer, stream) ∈ visits → peer.ip = ip → stream.peerAddr = true → stream.allowed = true := by
  have allowed := (serves_run ran).heard few
  obtain ⟨udp, tcp⟩ := follows_run ran
  obtain ⟨turns, looped, requests, toldUdp, gave⟩ := udp.follows
  obtain ⟨visits, run, accepted, ends, written, same, toldTcp⟩ := tcp.follows
  refine ⟨turns, visits, run, ⟨looped, requests, toldUdp, gave, fun turn member own => ?_⟩, accepted, ends, written, same, toldTcp, ?_⟩
  · have told : turn.verdict ∈ heard config .udp events := toldUdp ▸ List.mem_append_left _ (List.mem_map_of_mem member)
    have some := allowed .udp _ told own
    exact Option.ne_none_iff_exists'.mp fun none => some (by rw [UdpTurn.verdict, none]; rfl)
  · intro peer stream member own named
    have told : (peer.ip, stream.allowed) ∈ (heard config .tcp events).map fun verdict => (verdict.1, verdict.2.isSome) :=
      toldTcp ▸ List.mem_append_left _ (List.mem_filterMap.mpr ⟨_, member, by simp [TcpTurn.verdict, named]⟩)
    obtain ⟨verdict, there, same⟩ := List.mem_map.mp told
    obtain ⟨asker, decided⟩ := Prod.mk.inj same
    rw [← decided, Option.isSome_iff_ne_none]
    exact allowed .tcp verdict there (asker.trans own)

/-- Two requests of a client that may make ten. -/
theorem served_below_limit_sample : ∃ s, Machine.run (step sampleConfig) (start sampleConfig) sampleEvents = some s ∧
    ∃ turns visits run,
      (udpLoop sampleConfig turns = .ok s.udp.sent ∧ turns.map UdpTurn.request ++ s.udp.inFlight = datagrams sampleEvents ∧
        turns.map UdpTurn.verdict ++ s.udp.granted = heard sampleConfig .udp sampleEvents ∧
        turns.filterMap UdpTurn.outcome = outcomes sampleEvents ∧
        ∀ turn ∈ turns, turn.src.ip = 1 → ∃ handling, turn.handling = some handling) ∧
      acceptLoop sampleConfig (visits.map TcpTurn.toAccept) = .ok run ∧ run.failure = s.tcp.failure ∧
      s.tcp.written.map (fun answer => (answer.peer, answer.octets)) = (visits.zipWith TcpTurn.addressed run.written).flatten ∧
      (visits ++ s.tcp.inFlight).map TcpTurn.undecided = (accepts sampleEvents).map TcpTurn.undecided ∧
      visits.filterMap TcpTurn.verdict ++ s.tcp.granted =
        (heard sampleConfig .tcp sampleEvents).map (fun verdict => (verdict.1, verdict.2.isSome)) ∧
      ∀ peer stream, some (peer, stream) ∈ visits → peer.ip = 1 → stream.peerAddr = true → stream.allowed = true := by
  obtain ⟨s, ran⟩ := sampleEvents_run
  refine ⟨s, ran, served_below_limit ran fun x => ?_⟩
  rw [calls_sampleEvents]
  exact Nat.lt_of_le_of_lt (List.length_filter_le ..) (by decide)

end Server

end RustyAlias
