import RustyAlias.Spec.Server
import RustyAlias.ToMathlib.Runs

/-! # Steps of the server

What each event does, and the sequential loops with one more pass.
-/

namespace RustyAlias

open Rust Rust.Outcome

variable {α : Type}

section Threads

variable {config : Config}

theorem UdpThread.receive_eq_some {thread next : UdpThread α} {received : Option (SocketAddr α × Bytes)}
    (receives : thread.receive received = some next) :
    thread.phase = .receiving ∧ next.sent = thread.sent ∧ next.inFlight = received.toList ∧ next.granted = [] ∧
      next.phase ≠ .panicked := by
  unfold UdpThread.receive at receives
  split at receives
  · next phase =>
    cases receives
    exact ⟨phase, rfl, by simp [inFlight, phase], by simp [granted, phase], by simp [phase]⟩
  · next src datagram phase =>
    cases receives
    exact ⟨phase, rfl, rfl, rfl, by simp⟩
  · cases receives

theorem UdpThread.decided_eq_some {thread next : UdpThread α} {allowed : Bool} {now : ℕ}
    (decides : thread.decided allowed now = some next) :
    ∃ src datagram, thread.phase = .checking src datagram ∧ next.sent = thread.sent ∧
      next.phase = if allowed then .answering src datagram now else .receiving := by
  unfold UdpThread.decided at decides
  split at decides
  · next src datagram phase =>
    cases decides
    exact ⟨src, datagram, phase, rfl, rfl⟩
  · cases decides

theorem UdpThread.answer_eq_some {thread next : UdpThread α} {clock : Clock} {sends : Bool}
    (answers : thread.answer config clock sends = some next) :
    ∃ src datagram now, thread.phase = .answering src datagram now ∧
      ∀ response, handleQuery clock (udpQuery datagram) config = .ok response → next.phase = .receiving ∧
        next.sent = thread.sent ++ if sends then response.toList.map fun octets => ⟨src, now, octets⟩ else [] := by
  unfold UdpThread.answer at answers
  split at answers
  · next src datagram now phase =>
    refine ⟨src, datagram, now, phase, fun response handled => ?_⟩
    rw [handled] at answers
    cases response <;> cases sends <;> cases answers <;> simp
  · cases answers

theorem TcpThread.accept_eq_some {thread next : TcpThread α} {accepted : TcpTurn α}
    (accepts : thread.accept accepted = some next) :
    thread.phase = .accepting ∧ next.written = thread.written ∧
      ((accepted = none ∧ next = thread) ∨ ∃ peer stream, accepted = some (peer, stream) ∧
        next.phase = if stream.peerAddr then .checking peer stream else .failed .peerAddr) := by
  unfold TcpThread.accept at accepts
  split at accepts
  · next phase =>
    cases accepts
    exact ⟨phase, rfl, .inl ⟨rfl, rfl⟩⟩
  · next peer stream phase =>
    cases accepts
    exact ⟨phase, rfl, .inr ⟨peer, stream, rfl, rfl⟩⟩
  · cases accepts

theorem TcpThread.decided_eq_some {thread next : TcpThread α} {allowed : Bool} {now : ℕ}
    (decides : thread.decided allowed now = some next) :
    ∃ peer stream, thread.phase = .checking peer stream ∧ next.written = thread.written ∧
      next.phase = if allowed then .serving peer stream now else .accepting := by
  unfold TcpThread.decided at decides
  split at decides
  · next peer stream phase =>
    cases decides
    exact ⟨peer, stream, phase, rfl, rfl⟩
  · cases decides

theorem TcpThread.serve_eq_some {thread next : TcpThread α} (serves : thread.serve config = some next) :
    ∃ peer stream now, thread.phase = .serving peer stream now ∧
      ∀ result, serveConnection config { stream with allowed := true } = .ok result → match result with
        | .error failure => next.phase = .failed failure ∧ next.written = thread.written
        | .ok octets => next.phase = .accepting ∧
          next.written = thread.written ++ if octets.isEmpty then [] else [⟨peer, now, octets⟩] := by
  unfold TcpThread.serve at serves
  split at serves
  · next peer stream now phase =>
    refine ⟨peer, stream, now, phase, fun result served => ?_⟩
    rw [served] at serves
    cases result with
    | error failure =>
      cases serves
      exact ⟨rfl, rfl⟩
    | ok octets =>
      cases serves
      refine ⟨rfl, ?_⟩
      dsimp only
      split <;> simp
  · cases serves

end Threads

section Loops

variable {config : Config}

theorem udpLoop_concat (turns : List (UdpTurn α)) (turn : UdpTurn α) :
    udpLoop config (turns ++ [turn]) = (udpLoop config turns >>= fun sent => turn.answers config >>= fun last =>
      pure (sent ++ last)) := by
  induction turns with
  | nil => cases answered : turn.answers config <;> simp [udpLoop, answered]
  | cons first rest ih =>
    rw [List.cons_append, udpLoop, udpLoop, ih]
    cases first.answers config with
    | error e => rfl
    | ok answers =>
      cases udpLoop config rest with
      | error e => rfl
      | ok others => cases turn.answers config <;> simp

/-- A loop that has not been ended goes on with the next accept result. -/
theorem acceptLoop_concat {accepts : List Accept} {run : TcpRun} (looped : acceptLoop config accepts = .ok run)
    (goesOn : run.failure = none) (accept : Accept) :
    run.written.length = accepts.length ∧ acceptLoop config (accepts ++ [accept]) =
      (acceptLoop config [accept] >>= fun last => pure { last with written := run.written ++ last.written }) := by
  induction accepts generalizing run with
  | nil =>
    cases looped
    refine ⟨rfl, ?_⟩
    rw [List.nil_append]
    cases acceptLoop config [accept] <;> rfl
  | cons first rest ih =>
    cases first with
    | error =>
      rw [acceptLoop] at looped
      cases behind : acceptLoop config rest with
      | error e => rw [behind] at looped; cases looped
      | ok others =>
        rw [behind] at looped
        cases looped
        obtain ⟨length, concat⟩ := ih behind goesOn
        refine ⟨by simp [length], ?_⟩
        rw [List.cons_append, acceptLoop, concat]
        cases acceptLoop config [accept] <;> rfl
    | connection stream =>
      rw [acceptLoop] at looped
      cases served : serveConnection config stream with
      | error e => rw [served] at looped; cases looped
      | ok result =>
        rw [served] at looped
        cases result with
        | error failure =>
          cases looped
          cases goesOn
        | ok octets =>
          cases behind : acceptLoop config rest with
          | error e =>
            rw [behind] at looped
            cases looped
          | ok others =>
            simp only [ok_bind, behind] at looped
            cases looped
            obtain ⟨length, concat⟩ := ih behind goesOn
            refine ⟨by simp [length], ?_⟩
            rw [List.cons_append, acceptLoop, served, ok_bind, concat]
            cases acceptLoop config [accept] <;> rfl

end Loops

variable [DecidableEq α]

namespace Server

/-- What each event does. -/
inductive Steps (config : Config) (s : Server α) : ServerEvent α → Server α → Prop
  | tick {later : ℕ} {system : System α} (ticks : s.system.step (.tick later) = some system) :
    Steps config s (.tick later) { s with system }
  | readClock {thread : Thread} {ip : α} {system : System α} (asks : s.asks thread = some ip)
    (reads : s.system.step (.read thread ip) = some system) : Steps config s (.readClock thread) { s with system }
  | lockUdp {ip : α} {now : ℕ} {system : System α} {udp : UdpThread α} (pending : s.system.pending .udp = some (ip, now))
    (updates : s.system.step (.update .udp) = some system)
    (decides : s.udp.decided (s.system.limiter.check now ip).1 now = some udp) :
    Steps config s (.lock .udp) { s with system, udp }
  | lockTcp {ip : α} {now : ℕ} {system : System α} {tcp : TcpThread α} (pending : s.system.pending .tcp = some (ip, now))
    (updates : s.system.step (.update .tcp) = some system)
    (decides : s.tcp.decided (s.system.limiter.check now ip).1 now = some tcp) :
    Steps config s (.lock .tcp) { s with system, tcp }
  | receive {received : Option (SocketAddr α × Bytes)} {udp : UdpThread α} (receives : s.udp.receive received = some udp) :
    Steps config s (.receive received) { s with udp }
  | answer {clock : Clock} {sends : Bool} {udp : UdpThread α} (answers : s.udp.answer config clock sends = some udp) :
    Steps config s (.answer clock sends) { s with udp }
  | accept {accepted : TcpTurn α} {tcp : TcpThread α} (accepts : s.tcp.accept accepted = some tcp) :
    Steps config s (.accept accepted) { s with tcp }
  | serve {tcp : TcpThread α} (serves : s.tcp.serve config = some tcp) : Steps config s .serve { s with tcp }

variable {config : Config} {s next : Server α} {event : ServerEvent α}

theorem step_iff : s.step config event = some next ↔ s.tcp.ended = false ∧ Steps config s event next := by
  unfold step
  cases s.tcp.ended with
  | true => simp
  | false =>
    simp only [Bool.false_eq_true, if_false, true_and]
    constructor
    · intro stepped
      cases event with
      | tick later =>
        obtain ⟨system, ticks, rfl⟩ := Option.map_eq_some_iff.mp stepped
        exact .tick ticks
      | readClock thread =>
        obtain ⟨ip, asks, stepped⟩ := Option.bind_eq_some_iff.mp stepped
        obtain ⟨system, reads, stepped⟩ := Option.bind_eq_some_iff.mp stepped
        cases stepped
        exact .readClock asks reads
      | lock thread =>
        obtain ⟨⟨ip, now⟩, pending, stepped⟩ := Option.bind_eq_some_iff.mp stepped
        obtain ⟨system, updates, stepped⟩ := Option.bind_eq_some_iff.mp stepped
        cases thread with
        | udp =>
          obtain ⟨udp, decides, rfl⟩ := Option.map_eq_some_iff.mp stepped
          exact .lockUdp pending updates decides
        | tcp =>
          obtain ⟨tcp, decides, rfl⟩ := Option.map_eq_some_iff.mp stepped
          exact .lockTcp pending updates decides
      | receive received =>
        obtain ⟨udp, receives, rfl⟩ := Option.map_eq_some_iff.mp stepped
        exact .receive receives
      | answer clock sends =>
        obtain ⟨udp, answers, rfl⟩ := Option.map_eq_some_iff.mp stepped
        exact .answer answers
      | accept accepted =>
        obtain ⟨tcp, accepts, rfl⟩ := Option.map_eq_some_iff.mp stepped
        exact .accept accepts
      | serve =>
        obtain ⟨tcp, serves, rfl⟩ := Option.map_eq_some_iff.mp stepped
        exact .serve serves
    · intro steps
      cases steps with
      | tick ticks => simp [ticks]
      | readClock asks reads => simp [asks, reads]
      | lockUdp pending updates decides => simp [pending, updates, decided, decides]
      | lockTcp pending updates decides => simp [pending, updates, decided, decides]
      | receive receives => simp [receives]
      | answer answers => simp [answers]
      | accept accepts => simp [accepts]
      | serve serves => simp [serves]

end Server

end RustyAlias
