import RustyAlias.Proofs.Server
import RustyAlias.Soundness.TcpLoop
import RustyAlias.Soundness.UdpSize

/-! # The threads do not disturb each other

Whatever the order of the steps, what goes out over a transport is what the loop of its thread gives
if it runs alone over the requests that arrived there; only the decisions on them are shared.
-/

namespace RustyAlias

open Rust Rust.Outcome

variable {α : Type} {config : Config}

/-- The UDP thread has gone through a first part of the datagrams as its loop does, with the verdicts that it was told and what
the calls gave. -/
structure UdpThread.Follows (config : Config) (arrived : List (SocketAddr α × Bytes)) (told : List (α × Option ℕ))
    (gave : List (Clock × Bool)) (thread : UdpThread α) : Prop where
  sane : thread.phase ≠ .panicked
  follows : ∃ turns, udpLoop config turns = .ok thread.sent ∧ turns.map UdpTurn.request ++ thread.inFlight = arrived ∧
    turns.map UdpTurn.verdict ++ thread.granted = told ∧ turns.filterMap UdpTurn.outcome = gave

namespace UdpThread.Follows

variable {arrived : List (SocketAddr α × Bytes)} {told : List (α × Option ℕ)} {gave : List (Clock × Bool)}
  {thread next : UdpThread α}

theorem start : (⟨.receiving, []⟩ : UdpThread α).Follows config [] [] [] where
  sane := by simp
  follows := ⟨[], rfl, rfl, rfl, rfl⟩

theorem receive (follows : thread.Follows config arrived told gave) {received : Option (SocketAddr α × Bytes)}
    (receives : thread.receive received = some next) : next.Follows config (arrived ++ received.toList) told gave := by
  obtain ⟨phase, sent, taken, granted', sane⟩ := UdpThread.receive_eq_some receives
  obtain ⟨turns, looped, rfl, rfl, given⟩ := follows.follows
  have free : thread.inFlight = [] := by simp [inFlight, phase]
  have granted : thread.granted = [] := by simp [UdpThread.granted, phase]
  exact ⟨sane, turns, by rw [sent, looped], by rw [taken, free, List.append_nil], by rw [granted', granted], given⟩

/-- One more pass is finished, on a verdict from before or from now. -/
theorem finish (follows : thread.Follows config arrived told gave) (turn : UdpTurn α) {answers : List (Answer α)}
    (new : List (α × Option ℕ)) (taken : thread.inFlight = [turn.request]) (heard : thread.granted ++ new = [turn.verdict])
    (answered : turn.answers config = .ok answers) (sent : next.sent = thread.sent ++ answers)
    (phase : next.phase = .receiving) : next.Follows config arrived (told ++ new) (gave ++ turn.outcome.toList) := by
  obtain ⟨turns, looped, rfl, rfl, rfl⟩ := follows.follows
  refine ⟨by simp [phase], turns ++ [turn], ?_, ?_, ?_, ?_⟩
  · rw [udpLoop_concat, looped, ok_bind, answered, ok_bind, sent]
    rfl
  · have free : next.inFlight = [] := by simp [inFlight, phase]
    rw [taken, free, List.map_append, List.append_nil]
    rfl
  · have free : next.granted = [] := by simp [granted, phase]
    rw [List.append_assoc, heard, free, List.map_append, List.append_nil]
    rfl
  · rw [List.filterMap_append]
    cases outcome : turn.outcome <;> simp [outcome]

theorem decided (follows : thread.Follows config arrived told gave) {src : SocketAddr α} {datagram : Bytes}
    (checking : thread.phase = .checking src datagram) {allowed : Bool} {now : ℕ}
    (decides : thread.decided allowed now = some next) :
    next.Follows config arrived (told ++ [(src.ip, if allowed then some now else none)]) gave := by
  obtain ⟨src', datagram', checking', sent, phase⟩ := UdpThread.decided_eq_some decides
  obtain ⟨rfl, rfl⟩ : src = src' ∧ datagram = datagram' := by simpa [checking] using checking'
  have free : thread.granted = [] := by simp [granted, checking]
  cases allowed with
  | true =>
    obtain ⟨turns, looped, rfl, rfl, given⟩ := follows.follows
    refine ⟨by simp [phase], turns, by rw [sent, looped], by simp [inFlight, phase, checking], ?_, given⟩
    rw [free, List.append_nil]
    simp [granted, phase]
  | false =>
    let turn : UdpTurn α := ⟨src, datagram, none⟩
    have dropped : turn.answers config = .ok [] := rfl
    rw [← List.append_nil gave]
    refine follows.finish turn _ ?_ ?_ dropped (by simp [sent]) phase
    · simp [inFlight, checking, UdpTurn.request, turn]
    · rw [free, List.nil_append]
      rfl

theorem answer (follows : thread.Follows config arrived told gave) {clock : Clock} {sends : Bool}
    (answers : thread.answer config clock sends = some next) :
    next.Follows config arrived told (gave ++ [(clock, sends)]) := by
  obtain ⟨src, datagram, now, answering, handled⟩ := UdpThread.answer_eq_some answers
  obtain ⟨phase, sent⟩ := handled _ (handleQuery_eq clock (udpQuery datagram) config)
  rw [← List.append_nil told]
  refine follows.finish ⟨src, datagram, some ⟨now, clock, sends⟩⟩ [] ?_ ?_ ?_ sent phase
  · simp [inFlight, answering, UdpTurn.request]
  · simp [granted, answering, UdpTurn.verdict]
  · simp only [UdpTurn.answers, handleQuery_eq]
    rfl

end UdpThread.Follows

/-- The main thread has gone through a first part of the accept results as its loop does, with the verdicts that it was told. -/
structure TcpThread.Follows (config : Config) (arrived : List (TcpTurn α)) (told : List (α × Option ℕ))
    (thread : TcpThread α) : Prop where
  sane : thread.phase ≠ .panicked
  named : ∀ peer stream, some (peer, stream) ∈ thread.inFlight → stream.peerAddr = true
  follows : ∃ turns run, acceptLoop config (turns.map TcpTurn.toAccept) = .ok run ∧ run.failure = thread.failure ∧
    thread.written.map (fun answer => (answer.peer, answer.octets)) = (turns.zipWith TcpTurn.addressed run.written).flatten ∧
    (turns ++ thread.inFlight).map TcpTurn.undecided = arrived.map TcpTurn.undecided ∧
    turns.filterMap TcpTurn.verdict ++ thread.granted = told.map fun verdict => (verdict.1, verdict.2.isSome)

namespace TcpThread.Follows

variable {arrived : List (TcpTurn α)} {told : List (α × Option ℕ)} {thread next : TcpThread α}

theorem start : (⟨.accepting, []⟩ : TcpThread α).Follows config [] [] where
  sane := by simp
  named := by simp [inFlight]
  follows := ⟨[], ⟨[], none⟩, rfl, rfl, rfl, rfl, rfl⟩

/-- The next accept result, taken before or now, is finished, on a verdict from before or from now. -/
theorem finish (follows : thread.Follows config arrived told) (new : List (TcpTurn α)) (verdicts : List (α × Option ℕ))
    (turn : TcpTurn α) (last : TcpRun) (goesOn : thread.failure = none)
    (taken : thread.inFlight.map TcpTurn.undecided ++ new.map TcpTurn.undecided = [turn.undecided])
    (heard : thread.granted ++ verdicts.map (fun verdict => (verdict.1, verdict.2.isSome)) = turn.verdict.toList)
    (looped : acceptLoop config [turn.toAccept] = .ok last) (failure : last.failure = next.failure)
    (written : next.written.map (fun answer => (answer.peer, answer.octets)) =
      thread.written.map (fun answer => (answer.peer, answer.octets)) ++ ([turn].zipWith TcpTurn.addressed last.written).flatten)
    (sane : next.phase ≠ .panicked) (free : next.inFlight = []) (spent : next.granted = []) :
    next.Follows config (arrived ++ new) (told ++ verdicts) := by
  obtain ⟨turns, run, front, ends, before, same, toldSame⟩ := follows.follows
  obtain ⟨length, concat⟩ := acceptLoop_concat front (ends.trans goesOn) turn.toAccept
  rw [List.length_map] at length
  refine ⟨sane, by simp [free], turns ++ [turn], { last with written := run.written ++ last.written }, ?_, failure, ?_, ?_, ?_⟩
  · rw [List.map_append, List.map_singleton, concat, looped]
    rfl
  · rw [written, before, List.zipWith_append length.symm, List.flatten_append]
  · rw [free, List.append_nil, List.map_append, List.map_append, ← same, List.map_append, List.append_assoc, taken]
    rfl
  · rw [spent, List.append_nil, List.filterMap_append, List.map_append, ← toldSame, List.append_assoc, heard]
    cases asked : turn.verdict <;> simp [asked]

theorem accept (follows : thread.Follows config arrived told) {accepted : TcpTurn α}
    (accepts : thread.accept accepted = some next) : next.Follows config (arrived ++ [accepted]) told := by
  obtain ⟨phase, written, ⟨rfl, rfl⟩ | ⟨peer, stream, rfl, moved⟩⟩ := TcpThread.accept_eq_some accepts
  · rw [← List.append_nil told]
    exact follows.finish [none] [] none ⟨[[]], none⟩ (by simp [failure, phase]) (by simp [inFlight, phase])
      (by simp [granted, phase, TcpTurn.verdict]) rfl (by simp [failure, phase]) (by simp [TcpTurn.addressed]) (by simp [phase])
      (by simp [inFlight, phase]) (by simp [granted, phase])
  cases named : stream.peerAddr with
  | true =>
    obtain ⟨turns, run, looped, ends, before, same, toldSame⟩ := follows.follows
    have free : thread.inFlight = [] := by simp [inFlight, phase]
    have spent : thread.granted = [] := by simp [granted, phase]
    rw [named, if_pos rfl] at moved
    have taken : next.inFlight = [some (peer, stream)] := by simp [inFlight, moved]
    have waiting : next.granted = [] := by simp [granted, moved]
    rw [free, List.append_nil] at same
    refine ⟨by simp [moved], ?_, turns, run, looped, ?_, by rw [written, before], ?_, ?_⟩
    · intro peer' stream' checking
      rw [taken, List.mem_singleton] at checking
      cases checking
      exact named
    · simpa [failure, phase, moved] using ends
    · rw [taken, List.map_append, List.map_append, same]
    · rw [waiting, ← toldSame, spent]
  | false =>
    rw [named, if_neg (by simp)] at moved
    have ended : acceptLoop config [.connection stream] = .ok ⟨[], some .peerAddr⟩ := by
      rw [acceptLoop, serveConnection, named]
      rfl
    rw [← List.append_nil told]
    exact follows.finish [some (peer, stream)] [] (some (peer, stream)) _ (by simp [failure, phase]) (by simp [inFlight, phase])
      (by simp [granted, phase, TcpTurn.verdict, named]) ended (by simp [failure, moved]) (by simp [written]) (by simp [moved])
      (by simp [inFlight, moved]) (by simp [granted, moved])

theorem decided (follows : thread.Follows config arrived told) {peer : SocketAddr α} {stream : Connection}
    (phase : thread.phase = .checking peer stream) {allowed : Bool} {now : ℕ}
    (decides : thread.decided allowed now = some next) :
    next.Follows config arrived (told ++ [(peer.ip, if allowed then some now else none)]) := by
  obtain ⟨peer', stream', phase', written, moved⟩ := TcpThread.decided_eq_some decides
  obtain ⟨rfl, rfl⟩ : peer = peer' ∧ stream = stream' := by simpa [phase] using phase'
  have named : stream.peerAddr = true := follows.named peer stream (by simp [inFlight, phase])
  cases allowed with
  | true =>
    obtain ⟨turns, run, looped, ends, before, same, toldSame⟩ := follows.follows
    have free : thread.granted = [] := by simp [granted, phase]
    refine ⟨by simp [moved], ?_, turns, run, looped, ?_, by rw [written, before], ?_, ?_⟩
    · intro peer' stream' serving
      have taken : next.inFlight = [some (peer, stream)] := by simp [inFlight, moved]
      rw [taken, List.mem_singleton] at serving
      cases serving
      exact named
    · simpa [failure, phase, moved] using ends
    · simpa [inFlight, phase, moved] using same
    · rw [List.map_append, ← toldSame, free, List.append_nil]
      simp [granted, moved]
  | false =>
    have dropped : acceptLoop config [.connection { stream with allowed := false }] = .ok ⟨[[]], none⟩ := by
      rw [acceptLoop, serveConnection, named]
      rfl
    rw [← List.append_nil arrived]
    exact follows.finish [] _ (some (peer, { stream with allowed := false })) _ (by simp [failure, phase])
      (by simp [inFlight, phase, TcpTurn.undecided]) (by simp [granted, phase, TcpTurn.verdict, named]) dropped
      (by simp [failure, moved]) (by simp [written, TcpTurn.addressed]) (by simp [moved]) (by simp [inFlight, moved])
      (by simp [granted, moved])

theorem serve (follows : thread.Follows config arrived told) (serves : thread.serve config = some next) :
    next.Follows config arrived told := by
  obtain ⟨peer, stream, now, phase, result⟩ := TcpThread.serve_eq_some serves
  let turn : TcpTurn α := some (peer, { stream with allowed := true })
  have goesOn : thread.failure = none := by simp [failure, phase]
  have taken : thread.inFlight.map TcpTurn.undecided ++ [].map TcpTurn.undecided = [turn.undecided] := by
    simp [inFlight, phase, TcpTurn.undecided, turn]
  have named : stream.peerAddr = true := follows.named peer stream (by simp [inFlight, phase])
  have heard : thread.granted ++ [].map (fun verdict : α × Option ℕ => (verdict.1, verdict.2.isSome)) = turn.verdict.toList := by
    simp [granted, phase, turn, TcpTurn.verdict, named]
  rw [← List.append_nil arrived, ← List.append_nil told]
  rcases serveConnection_spec config { stream with allowed := true } with ⟨octets, served, _⟩ | ⟨reason, ended, _⟩
  · obtain ⟨moved, written⟩ := result _ served
    refine follows.finish [] [] turn ⟨[octets], none⟩ goesOn taken heard ?_ (by simp [failure, moved]) ?_ (by simp [moved])
      (by simp [inFlight, moved]) (by simp [granted, moved])
    · simp only [TcpTurn.toAccept, turn, acceptLoop, served]
      rfl
    · rw [written, List.map_append]
      simp only [TcpTurn.addressed, turn, List.zipWith_cons_cons, List.zipWith_nil_left, List.flatten_cons, List.flatten_nil,
        List.append_nil]
      split <;> rfl
  · obtain ⟨moved, written⟩ := result _ ended
    refine follows.finish [] [] turn ⟨[], some reason⟩ goesOn taken heard ?_ (by simp [failure, moved]) (by simp [written])
      (by simp [moved]) (by simp [inFlight, moved]) (by simp [granted, moved])
    simp only [TcpTurn.toAccept, turn, acceptLoop, ended]
    rfl

end TcpThread.Follows

namespace Server

variable [DecidableEq α] {s next : Server α} {events : List (ServerEvent α)}

theorem heard_concat (ran : Machine.run (step config) (start config) events = some s) (thread : Thread) (event : ServerEvent α) :
    heard config thread (events ++ [event]) = heard config thread events ++ (s.told thread event).toList :=
  Machine.trace_concat ran

/-- What one step keeps of the UDP thread. -/
theorem udp_follows_step {past : List (ServerEvent α)} {event : ServerEvent α} {told : List (α × Option ℕ)}
    (follows : s.udp.Follows config (datagrams past) told (outcomes past)) (stepped : s.step config event = some next) :
    next.udp.Follows config (datagrams (past ++ [event])) (told ++ (s.told .udp event).toList) (outcomes (past ++ [event])) := by
  rw [datagrams, outcomes, List.filterMap_append, List.filterMap_append, ← datagrams, ← outcomes]
  cases (step_iff.mp stepped).2 with
  | lockUdp pending updates decides =>
    obtain ⟨src, datagram, checking, _⟩ := UdpThread.decided_eq_some decides
    simpa [Server.told, asks, checking, pending] using follows.decided checking decides
  | @receive received _ receives => cases received <;> simpa [Server.told] using follows.receive receives
  | answer answers => simpa [Server.told] using follows.answer answers
  | tick | readClock | lockTcp | accept | serve => simpa [Server.told] using follows

/-- What one step keeps of the main thread. -/
theorem tcp_follows_step {past : List (ServerEvent α)} {event : ServerEvent α} {told : List (α × Option ℕ)}
    (follows : s.tcp.Follows config (accepts past) told) (stepped : s.step config event = some next) :
    next.tcp.Follows config (accepts (past ++ [event])) (told ++ (s.told .tcp event).toList) := by
  rw [accepts, List.filterMap_append, ← accepts]
  cases (step_iff.mp stepped).2 with
  | lockTcp pending updates decides =>
    obtain ⟨peer, stream, checking, _⟩ := TcpThread.decided_eq_some decides
    simpa [Server.told, asks, checking, pending] using follows.decided checking decides
  | accept accepts => simpa [Server.told] using follows.accept accepts
  | serve serves => simpa [Server.told] using follows.serve serves
  | tick | readClock | lockUdp | receive | answer => simpa [Server.told] using follows

theorem follows_run (ran : Machine.run (step config) (start config) events = some s) :
    s.udp.Follows config (datagrams events) (heard config .udp events) (outcomes events) ∧
      s.tcp.Follows config (accepts events) (heard config .tcp events) := by
  let holds (past : List (ServerEvent α)) (state : Server α) : Prop :=
    state.udp.Follows config (datagrams past) (heard config .udp past) (outcomes past) ∧
      state.tcp.Follows config (accepts past) (heard config .tcp past)
  have keeps (past : List (ServerEvent α)) (state : Server α) (event : ServerEvent α) (next : Server α)
      (reached : Machine.run (step config) (start config) past = some state) (now : holds past state)
      (stepped : state.step config event = some next) : holds (past ++ [event]) next := by
    simp only [holds, heard_concat reached]
    exact ⟨udp_follows_step now.1 stepped, tcp_follows_step now.2 stepped⟩
  have follows : holds events s := Machine.invariant_reached keeps ⟨.start, .start⟩ ran
  exact follows

/-- In every interleaving the datagrams that are sent are those of the UDP loop alone, over the datagrams that arrived, with the
verdicts of the limiter and with what the calls behind them gave. -/
theorem udp_runs_alone (ran : Machine.run (step config) (start config) events = some s) :
    ∃ turns, udpLoop config turns = .ok s.udp.sent ∧ turns.map UdpTurn.request ++ s.udp.inFlight = datagrams events ∧
      turns.map UdpTurn.verdict ++ s.udp.granted = heard config .udp events ∧
      turns.filterMap UdpTurn.outcome = outcomes events :=
  (follows_run ran).1.follows

/-- In every interleaving the connections are served as by the accept loop alone, over the accept results with the verdicts of the
limiter. -/
theorem tcp_runs_alone (ran : Machine.run (step config) (start config) events = some s) :
    ∃ turns run, acceptLoop config (turns.map TcpTurn.toAccept) = .ok run ∧ run.failure = s.tcp.failure ∧
      s.tcp.written.map (fun answer => (answer.peer, answer.octets)) = (turns.zipWith TcpTurn.addressed run.written).flatten ∧
      (turns ++ s.tcp.inFlight).map TcpTurn.undecided = (accepts events).map TcpTurn.undecided ∧
      turns.filterMap TcpTurn.verdict ++ s.tcp.granted =
        (heard config .tcp events).map fun verdict => (verdict.1, verdict.2.isSome) :=
  (follows_run ran).2.follows

/-- A query over each transport, the two threads taking turns. -/
def sampleEvents : List (ServerEvent ℕ) :=
  [.accept (some (⟨1, 53⟩, sampleStream true)), .receive (some (⟨1, 54⟩, sampleQuery.data)), .readClock .tcp, .tick 5, .readClock .udp,
    .lock .udp, .lock .tcp, .answer (Stream'.const none) true, .serve]

theorem sampleEvents_run : ∃ s, Machine.run (step sampleConfig) (start sampleConfig) sampleEvents = some s :=
  Option.isSome_iff_exists.mp (by decide +kernel)

private theorem heard_sampleEvents :
    heard sampleConfig .udp sampleEvents = [(1, some 5)] ∧ heard sampleConfig .tcp sampleEvents = [(1, some 0)] := by
  decide +kernel

theorem udp_runs_alone_sample : ∃ s, Machine.run (step sampleConfig) (start sampleConfig) sampleEvents = some s ∧
    ∃ turns, udpLoop sampleConfig turns = .ok s.udp.sent ∧
      turns.map UdpTurn.request ++ s.udp.inFlight = [(⟨1, 54⟩, sampleQuery.data)] ∧
      turns.map UdpTurn.verdict ++ s.udp.granted = [(1, some 5)] ∧
      turns.filterMap UdpTurn.outcome = [(Stream'.const none, true)] := by
  obtain ⟨s, ran⟩ := sampleEvents_run
  have alone := udp_runs_alone ran
  rw [heard_sampleEvents.1] at alone
  exact ⟨s, ran, alone⟩

theorem tcp_runs_alone_sample : ∃ s, Machine.run (step sampleConfig) (start sampleConfig) sampleEvents = some s ∧
    ∃ turns run, acceptLoop sampleConfig (turns.map TcpTurn.toAccept) = .ok run ∧ run.failure = s.tcp.failure ∧
      s.tcp.written.map (fun answer => (answer.peer, answer.octets)) = (turns.zipWith TcpTurn.addressed run.written).flatten ∧
      (turns ++ s.tcp.inFlight).map TcpTurn.undecided = [TcpTurn.undecided (some (⟨1, 53⟩, sampleStream true))] ∧
      turns.filterMap TcpTurn.verdict ++ s.tcp.granted = [(1, true)] := by
  obtain ⟨s, ran⟩ := sampleEvents_run
  have alone := tcp_runs_alone ran
  rw [heard_sampleEvents.2] at alone
  exact ⟨s, ran, alone⟩

end Server

end RustyAlias
