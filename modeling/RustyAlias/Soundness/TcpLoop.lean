import RustyAlias.Model.Tcp
import RustyAlias.Proofs.StandardQuery

/-! # One connection can stop the server

An error of `peer_addr` or of one of the two writes leaves `main`. Where these calls succeed, whatever
happens to the reads, the loop takes every accept result and answers every connection that it can.
-/

namespace RustyAlias

open Rust Rust.Outcome Dns

namespace Connection

/-- The query that is read from the connection. -/
def query? (stream : Connection) : Option Slice :=
  stream.readLength.bind fun (high, low) => (stream.readQuery (fromBe16 high low).toNat).map received

/-- The calls whose errors `main` returns succeed: `peer_addr`, and both writes where there is a response to write. -/
def Spares (stream : Connection) : Prop :=
  stream.peerAddr = true ∧ (stream.allowed = true → stream.query?.isSome = true →
    stream.writeLength = true ∧ stream.writeResponse = true)

/-- The connection is allowed and all of its I/O succeeds, so that a query is read. -/
def Asks (stream : Connection) (query : Slice) : Prop :=
  stream.peerAddr = true ∧ stream.allowed = true ∧ stream.query? = some query ∧ stream.writeLength = true ∧
    stream.writeResponse = true

end Connection

/-- The loop takes every accept result, and every connection that asks gets its framed response. -/
structure Serves (config : Config) (accepts : List Accept) (run : TcpRun) : Prop where
  goesOn : run.failure = none
  taken : run.written.length = accepts.length
  answers : ∀ (i : ℕ) (stream : Connection) (query : Slice), accepts[i]? = some (.connection stream) → stream.Asks query →
    ∃ response, handleQueryInternal stream.clock query config = .ok response ∧
      run.written[i]? = some (be16 (responseLen response) ++ response)

/-- The reads of a connection together. -/
theorem serveConnection_eq (config : Config) (stream : Connection) : serveConnection config stream =
    if !stream.peerAddr then .ok (.error .peerAddr)
    else if !stream.allowed then .ok (.ok [])
    else match stream.query? with
      | none => .ok (.ok [])
      | some query => handleQueryInternal stream.clock query config >>= fun response =>
        if !stream.writeLength then .ok (.error .writeLength)
        else if !stream.writeResponse then .ok (.error .writeResponse)
        else .ok (.ok (be16 (responseLen response) ++ response)) := by
  unfold serveConnection Connection.query?
  cases stream.readLength with
  | none => rfl
  | some octets =>
    dsimp only [Option.bind_some]
    cases stream.readQuery (fromBe16 octets.1 octets.2).toNat <;> rfl

/-- Nothing but the calls of `Spares` ends the loop, and a connection that asks is answered. -/
theorem serveConnection_spec (config : Config) (stream : Connection) :
    (∃ written, serveConnection config stream = .ok (.ok written) ∧ stream.Spares ∧ ∀ query, stream.Asks query →
      ∃ response, handleQueryInternal stream.clock query config = .ok response ∧
        written = be16 (responseLen response) ++ response) ∨
    ∃ failure, serveConnection config stream = .ok (.error failure) ∧ ¬ stream.Spares := by
  rw [serveConnection_eq]
  cases peer : stream.peerAddr with
  | false => exact .inr ⟨.peerAddr, rfl, fun spares => by simp [Connection.Spares, peer] at spares⟩
  | true =>
    cases allowed : stream.allowed with
    | false =>
      exact .inl ⟨[], rfl, by simp [Connection.Spares, peer, allowed], fun _ asks => by simp [Connection.Asks, allowed] at asks⟩
    | true =>
      cases read : stream.query? with
      | none =>
        exact .inl ⟨[], rfl, by simp [Connection.Spares, peer, read], fun _ asks => by simp [Connection.Asks, read] at asks⟩
      | some query =>
        have answered := handleQueryInternal_eq stream.clock query config
        generalize ((reply query config).map _).getD [] = response at answered
        cases first : stream.writeLength with
        | false =>
          refine .inr ⟨.writeLength, ?_, fun spares => by simp [Connection.Spares, allowed, read, first] at spares⟩
          simp [answered]
        | true =>
          cases second : stream.writeResponse with
          | false =>
            refine .inr ⟨.writeResponse, ?_, fun spares => by simp [Connection.Spares, allowed, read, second] at spares⟩
            simp [answered]
          | true =>
            refine .inl ⟨be16 (responseLen response) ++ response, ?_, by simp [Connection.Spares, peer, first, second],
              fun other asks => ?_⟩
            · simp [answered]
            · obtain rfl : query = other := Option.some.inj (read.symm.trans asks.2.2.1)
              exact ⟨response, answered, rfl⟩

/-- Whatever the I/O calls give, the loop goes on and answers exactly if every connection spares it. -/
theorem acceptLoop_serves_iff (config : Config) (accepts : List Accept) :
    ∃ run, acceptLoop config accepts = .ok run ∧
      (Serves config accepts run ↔ ∀ stream, .connection stream ∈ accepts → stream.Spares) := by
  induction accepts with
  | nil => exact ⟨_, rfl, iff_of_true ⟨rfl, rfl, by simp⟩ (by simp)⟩
  | cons accept rest ih =>
    obtain ⟨run, looped, serves⟩ := ih
    -- One more accept result for which something was written.
    have next {written : Bytes} (here : ∀ stream query, accept = .connection stream → stream.Asks query →
        ∃ response, handleQueryInternal stream.clock query config = .ok response ∧
          written = be16 (responseLen response) ++ response) :
        Serves config (accept :: rest) { run with written := written :: run.written } ↔ Serves config rest run := by
      constructor
      · rintro ⟨goesOn, taken, answers⟩
        exact ⟨goesOn, by simpa using taken, fun i => by simpa using answers (i + 1)⟩
      · rintro ⟨goesOn, taken, answers⟩
        refine ⟨goesOn, by simp [taken], fun i stream query present asks => ?_⟩
        cases i with
        | zero =>
          obtain ⟨response, answered, rfl⟩ := here stream query (by simpa using present) asks
          exact ⟨response, answered, rfl⟩
        | succ i => simpa using answers i stream query (by simpa using present) asks
    cases accept with
    | error =>
      refine ⟨{ run with written := [] :: run.written }, by rw [acceptLoop, looped]; rfl, ?_⟩
      rw [next (by simp), serves]
      simp
    | connection stream =>
      rcases serveConnection_spec config stream with ⟨written, served, spares, answers⟩ | ⟨failure, ended, fatal⟩
      · refine ⟨{ run with written := written :: run.written }, by rw [acceptLoop, served, ok_bind, looped]; rfl, ?_⟩
        rw [next, serves]
        · simp [spares]
        · rintro stream query ⟨rfl⟩ asks
          exact answers query asks
      · refine ⟨⟨[], some failure⟩, by rw [acceptLoop, ended]; rfl, iff_of_false ?_ fun all => fatal (all stream (by simp))⟩
        exact fun served => absurd served.goesOn (by simp)

/-- A client that sends the sample query and takes the response, or disconnects before. -/
def sampleStream (stays : Bool) : Connection where
  peerAddr := true
  allowed := true
  readLength := some (0, 44)
  readQuery length := if same : sampleQuery.data.length = length then some ⟨sampleQuery.data.toArray, same⟩ else none
  writeLength := true
  writeResponse := stays
  clock _ := some 0

/-- After a client has disconnected, the next one is not served. -/
theorem sampleStream_stops :
    ∃ run, acceptLoop sampleConfig [.connection (sampleStream false), .connection (sampleStream true)] = .ok run ∧
      run.failure = some .writeResponse ∧ run.written = [] ∧ (sampleStream true).Asks sampleQuery := by
  have read (stays : Bool) : (sampleStream stays).query? = some sampleQuery := rfl
  have ended : serveConnection sampleConfig (sampleStream false) = .ok (.error .writeResponse) := by
    have answered := handleQueryInternal_eq (sampleStream false).clock sampleQuery sampleConfig
    rw [serveConnection_eq, read]
    change (handleQueryInternal (sampleStream false).clock sampleQuery sampleConfig >>= fun _ => _) = _
    rw [answered]
    rfl
  exact ⟨_, by rw [acceptLoop, ended]; rfl, rfl, rfl, rfl, rfl, read true, rfl, rfl⟩

end RustyAlias
