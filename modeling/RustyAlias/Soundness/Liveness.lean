import RustyAlias.Soundness.ServerQuota

/-! # The UDP thread waits for nobody

The lock is never held across I/O, so a connection that is never read to its end delays connections
but no datagram: the UDP thread finishes what it has begun, and answers the next client that the
limiter allows, by steps of its own.
-/

namespace RustyAlias

open Rust

variable {α : Type} [DecidableEq α]

namespace Server

variable {config : Config} {s t : Server α} {events : List (ServerEvent α)} {src : SocketAddr α} {datagram : Bytes} {now : ℕ}

/-- A step of the UDP thread that needs no datagram. -/
def OfUdp : ServerEvent α → Prop
  | .readClock .udp => True
  | .lock .udp => True
  | .answer _ _ => True
  | _ => False

/-- By such steps the UDP thread gets back to its socket, and the main thread stays where it is. -/
def Finishes (config : Config) (s : Server α) : Prop :=
  ∃ own, (∀ event ∈ own, OfUdp event) ∧ ∃ t, Machine.run (step config) s own = some t ∧ t.udp.phase = .receiving ∧ t.tcp = s.tcp

private theorem finishes_cons (event : ServerEvent α) (ofUdp : OfUdp event) (stepped : s.step config event = some t)
    (same : t.tcp = s.tcp) (finishes : t.Finishes config) : s.Finishes config := by
  obtain ⟨own, all, u, ran, phase, tcp⟩ := finishes
  refine ⟨event :: own, ?_, u, Machine.run_cons_eq_some_iff.mpr ⟨t, stepped, ran⟩, phase, tcp.trans same⟩
  simpa [ofUdp] using all

private theorem step_answer (alive : s.tcp.ended = false) (phase : s.udp.phase = .answering src datagram now) (clock : Clock) (sends : Bool)
    {response : Option Bytes} (handled : handleQuery clock (udpQuery datagram) config = .ok response) :
    s.step config (.answer clock sends) = some { s with udp := ⟨.receiving,
      s.udp.sent ++ if sends then response.toList.map fun octets => ⟨src, now, octets⟩ else []⟩ } := by
  refine step_iff.mpr ⟨alive, .answer ?_⟩
  simp only [UdpThread.answer, phase, handled]
  cases response with
  | none => simp
  | some octets => cases sends <;> simp

private theorem step_lock (alive : s.tcp.ended = false) (phase : s.udp.phase = .checking src datagram)
    (pending : s.system.pending .udp = some (src.ip, now)) {allowed : Bool}
    (decision : (s.system.limiter.check now src.ip).1 = allowed) : s.step config (.lock .udp) = some
      { system := s.system.updated .udp src.ip now
        udp := ⟨if allowed then .answering src datagram now else .receiving, s.udp.sent⟩
        tcp := s.tcp } := by
  refine step_iff.mpr ⟨alive, .lockUdp pending (System.step_update pending) ?_⟩
  simp [UdpThread.decided, phase, decision]

/-- The UDP thread has read the clock. -/
def clockRead (s : Server α) (ip : α) : Server α :=
  { s with system := { s.system with pending := Function.update s.system.pending .udp (some (ip, s.system.clock)) } }

omit [DecidableEq α] in
private theorem clockRead_pending (s : Server α) (ip : α) : (s.clockRead ip).system.pending .udp = some (ip, s.system.clock) := by
  simp [clockRead]

private theorem step_readClock (alive : s.tcp.ended = false) (phase : s.udp.phase = .checking src datagram)
    (free : s.system.pending .udp = none) : s.step config (.readClock .udp) = some (s.clockRead src.ip) := by
  have asks : s.asks .udp = some src.ip := by simp [asks, phase]
  exact step_iff.mpr ⟨alive, .readClock asks (by simp [System.step, free])⟩

private theorem finishes_answering (alive : s.tcp.ended = false) (phase : s.udp.phase = .answering src datagram now) :
    s.Finishes config := by
  have stepped := step_answer alive phase (Stream'.const none) true (handleQuery_eq _ (udpQuery datagram) config)
  exact finishes_cons (.answer (Stream'.const none) true) trivial stepped rfl ⟨[], by simp, _, rfl, rfl, rfl⟩

private theorem finishes_asked (alive : s.tcp.ended = false) (phase : s.udp.phase = .checking src datagram)
    (pending : s.system.pending .udp = some (src.ip, now)) : s.Finishes config := by
  refine finishes_cons (.lock .udp) trivial (step_lock alive phase pending rfl) rfl ?_
  cases (s.system.limiter.check now src.ip).1 with
  | true => exact finishes_answering alive rfl
  | false => exact ⟨[], by simp, _, rfl, rfl, rfl⟩

/-- Wherever the UDP thread stands, it can finish. -/
theorem finishes_of_accounted (accounted : s.Accounted) (sane : s.udp.phase ≠ .panicked) (alive : s.tcp.ended = false) :
    s.Finishes config := by
  cases phase : s.udp.phase with
  | receiving => exact ⟨[], by simp, s, rfl, phase, rfl⟩
  | answering src datagram now => exact finishes_answering alive phase
  | panicked => exact absurd phase sane
  | checking src datagram =>
    cases pending : s.system.pending .udp with
    | some request =>
      obtain ⟨ip, now⟩ := request
      obtain rfl : src.ip = ip := by simpa [asks, phase] using accounted.asked .udp ip now pending
      exact finishes_asked alive phase pending
    | none =>
      refine finishes_cons (.readClock .udp) trivial (step_readClock alive phase pending) rfl ?_
      exact finishes_asked alive phase (clockRead_pending ..)

/-- At its socket it answers the next client that the limiter allows. -/
theorem answers_of_accounted (accounted : s.Accounted) (alive : s.tcp.ended = false) (idle : s.udp.phase = .receiving)
    (allowed : (s.system.limiter.check s.system.clock src.ip).1 = true) {clock : Clock} {response : Bytes}
    (handled : handleQuery clock (udpQuery datagram) config = .ok (some response)) :
    ∃ t, Machine.run (step config) s [.receive (some (src, datagram)), .readClock .udp, .lock .udp, .answer clock true] = some t ∧
      t.udp.sent = s.udp.sent ++ [⟨src, s.system.clock, response⟩] ∧ t.tcp = s.tcp := by
  have free : s.system.pending .udp = none := by
    cases pending : s.system.pending .udp with
    | none => rfl
    | some request => simpa [asks, idle] using accounted.asked .udp request.1 request.2 pending
  let taken : Server α := { s with udp := ⟨.checking src datagram, s.udp.sent⟩ }
  have receives : s.step config (.receive (some (src, datagram))) = some taken :=
    step_iff.mpr ⟨alive, .receive (by simp [UdpThread.receive, idle])⟩
  have reads : taken.step config (.readClock .udp) = some (taken.clockRead src.ip) := step_readClock alive rfl free
  let asked : Server α := ⟨(taken.clockRead src.ip).system.updated .udp src.ip s.system.clock,
    ⟨.answering src datagram s.system.clock, s.udp.sent⟩, s.tcp⟩
  have decides : (taken.clockRead src.ip).step config (.lock .udp) = some asked :=
    step_lock (s := taken.clockRead src.ip) alive rfl (clockRead_pending taken src.ip) allowed
  have answers := step_answer (s := asked) alive rfl clock true handled
  rw [Machine.run_cons, receives, Option.bind_some, Machine.run_cons, reads, Option.bind_some, Machine.run_cons, decides,
    Option.bind_some, Machine.run_cons, answers, Option.bind_some]
  exact ⟨_, rfl, rfl, rfl⟩

/-- In every reachable state of a process that is not over, whatever the main thread is waiting for, the UDP thread gets back to
its socket by steps of its own, and there the next datagram of a client that the limiter allows is answered. -/
theorem udp_waits_for_nobody (ran : Machine.run (step config) (start config) events = some s) (alive : s.tcp.ended = false) :
    ∃ own, (∀ event ∈ own, OfUdp event) ∧ ∃ t, Machine.run (step config) s own = some t ∧ t.udp.phase = .receiving ∧
      t.tcp = s.tcp ∧ ∀ src datagram clock response, (t.system.limiter.check t.system.clock src.ip).1 = true →
        handleQuery clock (udpQuery datagram) config = .ok (some response) →
        ∃ u, Machine.run (step config) t [.receive (some (src, datagram)), .readClock .udp, .lock .udp, .answer clock true] = some u ∧
          u.udp.sent = t.udp.sent ++ [⟨src, t.system.clock, response⟩] ∧ u.tcp = s.tcp := by
  have finishes : s.Finishes config := finishes_of_accounted (accounted_run ran) (follows_run ran).1.sane alive
  obtain ⟨own, ofUdp, t, finished, idle, same⟩ := finishes
  refine ⟨own, ofUdp, t, finished, idle, same, fun src datagram clock response allowed handled => ?_⟩
  have reached : Machine.run (step config) (start config) (events ++ own) = some t := by
    rw [Machine.run_append, ran, Option.bind_some, finished]
  obtain ⟨u, answered, sent, tcp⟩ := answers_of_accounted (accounted_run reached) (same ▸ alive) idle allowed handled
  exact ⟨u, answered, sent, tcp.trans same⟩

/-- While the main thread waits for a query, the UDP thread is half-way through a datagram. -/
def waitingEvents : List (ServerEvent ℕ) :=
  [.accept (some (⟨1, 53⟩, sampleStream false)), .readClock .tcp, .lock .tcp, .receive (some (⟨2, 54⟩, sampleQuery.data)), .readClock .udp]

theorem udp_waits_for_nobody_sample :
    ∃ s, Machine.run (step sampleConfig) (start sampleConfig) waitingEvents = some s ∧ s.tcp.ended = false ∧
      ∃ own, (∀ event ∈ own, OfUdp event) ∧ ∃ t, Machine.run (step sampleConfig) s own = some t ∧ t.udp.phase = .receiving ∧
        t.tcp = s.tcp ∧ ∀ src datagram clock response, (t.system.limiter.check t.system.clock src.ip).1 = true →
          handleQuery clock (udpQuery datagram) sampleConfig = .ok (some response) →
          ∃ u, Machine.run (step sampleConfig) t
              [.receive (some (src, datagram)), .readClock .udp, .lock .udp, .answer clock true] = some u ∧
            u.udp.sent = t.udp.sent ++ [⟨src, t.system.clock, response⟩] ∧ u.tcp = s.tcp := by
  have ran : ((Machine.run (step sampleConfig) (start sampleConfig) waitingEvents).map fun s => s.tcp.ended) = some false := by
    decide +kernel
  obtain ⟨s, ran, alive⟩ := Option.map_eq_some_iff.mp ran
  exact ⟨s, ran, alive, udp_waits_for_nobody ran alive⟩

end Server

end RustyAlias
