import RustyAlias.Soundness.Quota
import RustyAlias.Soundness.Threads

/-! # The quota of a client over both transports

Every answer was paid for by a permission of its own, so the bound on the permissions of an address
bounds what the process sends to it, over UDP and TCP together.
-/

namespace RustyAlias

open Rust

variable {α : Type}

/-- Address and reading of the requests that were answered or are about to be. -/
def UdpThread.charges (thread : UdpThread α) : List (α × ℕ) :=
  thread.sent.map (fun answer => (answer.peer.ip, answer.now)) ++ match thread.phase with
    | .answering src _ now => [(src.ip, now)]
    | _ => []

/-- Address and reading of the connections that were answered or are about to be. -/
def TcpThread.charges (thread : TcpThread α) : List (α × ℕ) :=
  thread.written.map (fun answer => (answer.peer.ip, answer.now)) ++ match thread.phase with
    | .serving peer _ now => [(peer.ip, now)]
    | _ => []

section Charges

variable {config : Config}

theorem UdpThread.charges_receive {thread next : UdpThread α} {received : Option (SocketAddr α × Bytes)}
    (receives : thread.receive received = some next) : next.charges = thread.charges := by
  unfold UdpThread.receive at receives
  split at receives
  · cases receives
    rfl
  · next phase =>
    cases receives
    simp [charges, phase]
  · cases receives

theorem UdpThread.charges_decided {thread next : UdpThread α} {allowed : Bool} {now : ℕ}
    (decides : thread.decided allowed now = some next) :
    ∃ src datagram, thread.phase = .checking src datagram ∧
      next.charges = thread.charges ++ if allowed then [(src.ip, now)] else [] := by
  obtain ⟨src, datagram, phase, sent, moved⟩ := UdpThread.decided_eq_some decides
  refine ⟨src, datagram, phase, ?_⟩
  cases allowed <;> simp [charges, sent, phase, moved]

theorem UdpThread.charges_answer {thread next : UdpThread α} {clock : Clock} {sends : Bool}
    (answers : thread.answer config clock sends = some next) : next.charges.Sublist thread.charges := by
  obtain ⟨src, datagram, now, phase, handled⟩ := UdpThread.answer_eq_some answers
  obtain ⟨moved, sent⟩ := handled _ (handleQuery_eq clock (udpQuery datagram) config)
  simp only [charges, phase, moved, sent, List.map_append, List.append_nil]
  refine .append (.refl _) ?_
  cases reply (udpQuery datagram) config <;> cases sends <;> simp

theorem TcpThread.charges_accept {thread next : TcpThread α} {accepted : TcpTurn α}
    (accepts : thread.accept accepted = some next) : next.charges = thread.charges := by
  obtain ⟨phase, written, ⟨rfl, rfl⟩ | ⟨peer, stream, rfl, moved⟩⟩ := TcpThread.accept_eq_some accepts
  · rfl
  · cases named : stream.peerAddr <;> simp [charges, phase, written, moved, named]

theorem TcpThread.charges_decided {thread next : TcpThread α} {allowed : Bool} {now : ℕ}
    (decides : thread.decided allowed now = some next) :
    ∃ peer stream, thread.phase = .checking peer stream ∧
      next.charges = thread.charges ++ if allowed then [(peer.ip, now)] else [] := by
  obtain ⟨peer, stream, phase, written, moved⟩ := TcpThread.decided_eq_some decides
  refine ⟨peer, stream, phase, ?_⟩
  cases allowed <;> simp [charges, written, phase, moved]

theorem TcpThread.charges_serve {thread next : TcpThread α} (serves : thread.serve config = some next) :
    next.charges.Sublist thread.charges := by
  obtain ⟨peer, stream, now, phase, result⟩ := TcpThread.serve_eq_some serves
  rcases serveConnection_spec config { stream with allowed := true } with ⟨octets, served, _⟩ | ⟨reason, ended, _⟩
  · obtain ⟨moved, written⟩ := result _ served
    simp only [charges, phase, moved, written, List.map_append, List.append_nil]
    refine .append (.refl _) ?_
    cases octets <;> simp
  · obtain ⟨moved, written⟩ := result _ ended
    simp [charges, phase, moved, written]

end Charges

namespace Server

variable {config : Config} {s next : Server α} {event : ServerEvent α} {events : List (ServerEvent α)}

/-- A thread that has read the clock did so for the client that it asks about, and every answer has a permission of its own. -/
structure Accounted (s : Server α) : Prop where
  asked : ∀ thread ip now, s.system.pending thread = some (ip, now) → s.asks thread = some ip
  paid : (s.udp.charges ++ s.tcp.charges).Subperm s.system.allowed

theorem accounted_start : (start config : Server α).Accounted where
  asked _ _ _ pending := by cases pending
  paid := by simp [start, UdpThread.charges, TcpThread.charges]

/-- What a thread does while it asks nothing leaves the limiter alone. -/
theorem Accounted.udp (accounted : s.Accounted) {udp : UdpThread α} (idle : s.asks .udp = none)
    (fewer : udp.charges.Sublist s.udp.charges) : { s with udp }.Accounted where
  asked
    | .udp, ip, now, pending => by rw [accounted.asked .udp ip now pending] at idle; cases idle
    | .tcp, ip, now, pending => accounted.asked .tcp ip now pending
  paid := (fewer.append (.refl _)).subperm.trans accounted.paid

theorem Accounted.tcp (accounted : s.Accounted) {tcp : TcpThread α} (idle : s.asks .tcp = none)
    (fewer : tcp.charges.Sublist s.tcp.charges) : { s with tcp }.Accounted where
  asked
    | .udp, ip, now, pending => accounted.asked .udp ip now pending
    | .tcp, ip, now, pending => by rw [accounted.asked .tcp ip now pending] at idle; cases idle
  paid := (List.Sublist.append (.refl _) fewer).subperm.trans accounted.paid

variable [DecidableEq α]

/-- One more permission pays for one more request. -/
theorem paid_updated {charges charges' : List (α × ℕ)} {thread : Thread} {ip : α} {now : ℕ}
    (paid : charges.Subperm s.system.allowed)
    (more : charges'.Perm (charges ++ if (s.system.limiter.check now ip).1 then [(ip, now)] else [])) :
    charges'.Subperm (s.system.updated thread ip now).allowed := by
  refine more.subperm.trans ?_
  simp only [System.updated]
  split
  · exact (List.perm_append_singleton ..).subperm.trans ((List.subperm_cons (ip, now)).mpr paid)
  · rwa [List.append_nil]

theorem Accounted.step (accounted : s.Accounted) (stepped : s.step config event = some next) : next.Accounted := by
  cases (step_iff.mp stepped).2 with
  | tick ticks =>
    rw [System.step_tick_eq_some ticks]
    exact ⟨accounted.asked, accounted.paid⟩
  | @readClock thread ip system asks reads =>
    rw [System.step_read_eq_some reads]
    refine ⟨fun other ip' now pending => ?_, accounted.paid⟩
    by_cases same : other = thread
    · subst same
      simp only [Function.update_self] at pending
      cases pending
      exact asks
    · exact accounted.asked other ip' now (by simpa [Function.update_of_ne same] using pending)
  | @lockUdp ip now system udp pending updates decides =>
    rw [System.step_update_eq_some pending updates]
    obtain ⟨src, datagram, phase, charges⟩ := UdpThread.charges_decided decides
    obtain rfl : src.ip = ip := by simpa [asks, phase] using accounted.asked .udp ip now pending
    refine ⟨fun other ip' now' pending' => ?_, paid_updated accounted.paid ?_⟩
    · cases other with
      | udp => simp [System.updated] at pending'
      | tcp => exact accounted.asked .tcp ip' now' (by simpa [System.updated] using pending')
    · rw [charges, List.append_assoc, List.append_assoc]
      exact List.perm_append_comm.append_left _
  | @lockTcp ip now system tcp pending updates decides =>
    rw [System.step_update_eq_some pending updates]
    obtain ⟨peer, stream, phase, charges⟩ := TcpThread.charges_decided decides
    obtain rfl : peer.ip = ip := by simpa [asks, phase] using accounted.asked .tcp ip now pending
    refine ⟨fun other ip' now' pending' => ?_, paid_updated accounted.paid ?_⟩
    · cases other with
      | udp => exact accounted.asked .udp ip' now' (by simpa [System.updated] using pending')
      | tcp => simp [System.updated] at pending'
    · rw [charges, List.append_assoc]
  | receive receives =>
    refine accounted.udp ?_ (by rw [UdpThread.charges_receive receives])
    simp [asks, (UdpThread.receive_eq_some receives).1]
  | answer answers =>
    refine accounted.udp ?_ (UdpThread.charges_answer answers)
    obtain ⟨src, datagram, now, phase, _⟩ := UdpThread.answer_eq_some answers
    simp [asks, phase]
  | accept accepts =>
    refine accounted.tcp ?_ (by rw [TcpThread.charges_accept accepts])
    simp [asks, (TcpThread.accept_eq_some accepts).1]
  | serve serves =>
    refine accounted.tcp ?_ (TcpThread.charges_serve serves)
    obtain ⟨peer, stream, now, phase, _⟩ := TcpThread.serve_eq_some serves
    simp [asks, phase]

theorem accounted_run (ran : Machine.run (step config) (start config) events = some s) : s.Accounted := by
  let holds (_ : List (ServerEvent α)) (state : Server α) : Prop := state.Accounted
  have keeps (past : List (ServerEvent α)) (state : Server α) (event : ServerEvent α) (next : Server α) (now : holds past state)
      (stepped : state.step config event = some next) : holds (past ++ [event]) next := Accounted.step now stepped
  exact Machine.invariant keeps accounted_start ran

/-- The answers of an address on readings from an interval, against the permissions of it. -/
theorem Accounted.answers_le (accounted : s.Accounted) (ip : α) (x : ℕ) :
    ((s.udp.sent ++ s.tcp.written).filter fun answer => answer.peer.ip = ip ∧
      FixedWindow.Inside s.system.limiter.window x answer.now).length ≤ s.system.quota ip x := by
  have charged : ((s.udp.sent ++ s.tcp.written).map fun answer => (answer.peer.ip, answer.now)).Subperm s.system.allowed := by
    refine (List.Sublist.subperm ?_).trans accounted.paid
    rw [List.map_append]
    exact (List.sublist_append_left ..).append (List.sublist_append_left ..)
  have fewer := (charged.filter fun entry => entry.1 = ip ∧ FixedWindow.Inside s.system.limiter.window x entry.2).length_le
  rwa [List.filter_map, List.length_map] at fewer

/-- What the limiter sees of an event. -/
def limiterEvent (s : Server α) : ServerEvent α → Option (Event α)
  | .tick later => some (.tick later)
  | .readClock thread => (s.asks thread).map (.read thread)
  | .lock thread => some (.update thread)
  | _ => none

/-- The limiter goes through a run of its own. -/
theorem projects : Machine.Projects (step config) System.step Server.system (limiterEvent (α := α)) := by
  intro s event next stepped
  cases (step_iff.mp stepped).2 with
  | tick ticks => exact ticks
  | readClock asks reads => simpa [limiterEvent, asks] using reads
  | lockUdp pending updates decides => exact updates
  | lockTcp pending updates decides => exact updates
  | receive | answer | accept | serve => rfl

/-- The update, if the event is one, keeps pending requests. -/
def KeepsPending (s : Server α) (event : ServerEvent α) : Prop :=
  ∀ seen, s.limiterEvent event = some seen → s.system.KeepsPending seen

private theorem runKeepsPending_of_along {system : System α} {seen : List (Event α)}
    (along : Machine.Along System.step System.KeepsPending system seen) : system.RunKeepsPending seen := by
  induction seen generalizing system with
  | nil => trivial
  | cons event rest ih => exact ⟨along.1, fun next stepped => ih (along.2 next stepped)⟩

/-- Nothing is pruned before the map is full, and a step adds at most one entry. -/
theorem keepsPending_of_few (few : s.system.limiter.state.entries.length + events.length ≤ 1024) :
    Machine.Along (step config) KeepsPending s events := by
  induction events generalizing s with
  | nil => trivial
  | cons event rest ih =>
    rw [List.length_cons] at few
    refine ⟨?_, fun next stepped => ih ?_⟩
    · rintro (later | ⟨thread, ip⟩ | thread) seen
      · trivial
      · trivial
      · exact fun _ _ _ full => absurd full (by omega)
    · have grown : next.system.limiter.state.entries.length ≤ s.system.limiter.state.entries.length + 1 := by
        cases (step_iff.mp stepped).2 with
        | tick ticks =>
          rw [System.step_tick_eq_some ticks]
          exact Nat.le_succ _
        | readClock asks reads =>
          rw [System.step_read_eq_some reads]
          exact Nat.le_succ _
        | lockUdp pending updates decides =>
          rw [System.step_update_eq_some pending updates]
          exact RateLimiter.length_check_le ..
        | lockTcp pending updates decides =>
          rw [System.step_update_eq_some pending updates]
          exact RateLimiter.length_check_le ..
        | receive | answer | accept | serve => exact Nat.le_succ _
      omega

/-- In every run whose updates keep pending requests, whatever the order of the steps and over both transports together, an
address is sent no more than two quotas of answers to requests from any interval that is one window long. -/
theorem answers_le_two_quotas (long : 0 < config.rateLimitSeconds) (limited : 0 < config.rateLimitRequests)
    (ran : Machine.run (step config) (start config) events = some s)
    (keeps : Machine.Along (step config) KeepsPending (start config) events) (ip : α) (x : ℕ) :
    ((s.udp.sent ++ s.tcp.written).filter fun answer => answer.peer.ip = ip ∧ x ≤ answer.now ∧
      answer.now < x + config.rateLimitSeconds.toNat * ticksPerSecond).length ≤ 2 * config.rateLimitRequests.toNat := by
  have moved : System.run (start config).system _ = some s.system := projects.run ran
  have along := projects.along (fun s event seen found keeps => keeps seen found) ran keeps
  have window : 0 < config.rateLimitSeconds.toNat * ticksPerSecond := Nat.mul_pos long (by decide)
  obtain ⟨counters, counted⟩ := (System.counted_start window limited ip x).run (runKeepsPending_of_along along) moved
  obtain ⟨sameWindow, sameLimit⟩ := System.run_limits moved
  have bound := ((accounted_run ran).answers_le ip x).trans counted.quota_le
  rw [sameWindow, sameLimit] at bound
  exact bound

/-- Over the sample run no address is sent more than twenty answers. -/
theorem answers_le_two_quotas_sample : ∃ s, Machine.run (step sampleConfig) (start sampleConfig) sampleEvents = some s ∧
    ((s.udp.sent ++ s.tcp.written).filter fun answer => answer.peer.ip = 1 ∧ 0 ≤ answer.now ∧
      answer.now < 0 + sampleConfig.rateLimitSeconds.toNat * ticksPerSecond).length ≤ 2 * sampleConfig.rateLimitRequests.toNat := by
  obtain ⟨s, ran⟩ := sampleEvents_run
  exact ⟨s, ran, answers_le_two_quotas (by decide) (by decide) ran (keepsPending_of_few (by decide)) 1 0⟩

end Server

end RustyAlias
