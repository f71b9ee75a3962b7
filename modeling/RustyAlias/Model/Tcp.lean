import RustyAlias.Model.Handler

/-! # The TCP accept loop

The loop of `main.rs` over `tcp_listener.incoming()`. Which I/O calls for a connection succeed, and what
they read, comes with the connection, and so does the decision of the rate limiter, whose counters the
UDP thread shares. A `?` leaves `main` and ends the process. Logging is left out.
-/

namespace RustyAlias

open Rust

/-- The calls whose error `main` returns. -/
inductive TcpFailure where
  | peerAddr
  | writeLength
  | writeResponse
deriving DecidableEq

/-- What the calls for one connection give, as far as they are made. -/
structure Connection where
  /-- `peer_addr` succeeds. -/
  peerAddr : Bool
  /-- `check` allows the peer's address. -/
  allowed : Bool
  /-- `length_buf` after the first `read_exact`, if that succeeds. -/
  readLength : Option (UInt8 × UInt8)
  /-- A buffer of some length after the second `read_exact`, if that succeeds. -/
  readQuery : (length : ℕ) → Option (Vector UInt8 length)
  /-- The first `write_all` succeeds. -/
  writeLength : Bool
  /-- The second `write_all` succeeds. -/
  writeResponse : Bool
  clock : Clock

/-- The octets of a filled buffer, whose length two octets announced. -/
def received {high low : UInt8} (buf : Vector UInt8 (fromBe16 high low).toNat) : Slice where
  data := buf.toList
  length_le := by
    have small := (fromBe16 high low).toNat_lt
    rw [Vector.length_toList]
    unfold isizeMax
    omega

/-- `response.len() as u16`. -/
def responseLen (response : Bytes) : UInt16 := UInt16.ofNat response.length

/-- What is written for a connection, or the call whose error ends the loop. -/
def serveConnection (config : Config) (stream : Connection) : Outcome (Except TcpFailure Bytes) :=
  if !stream.peerAddr then pure (.error .peerAddr)
  else if !stream.allowed then pure (.ok [])
  else match stream.readLength with
    | none => pure (.ok [])
    | some (high, low) => match stream.readQuery (fromBe16 high low).toNat with
      | none => pure (.ok [])
      | some buf => do
        let response ← handleQueryInternal stream.clock (received buf) config
        if !stream.writeLength then pure (.error .writeLength)
        else if !stream.writeResponse then pure (.error .writeResponse)
        else pure (.ok (be16 (responseLen response) ++ response))

/-- An item of `tcp_listener.incoming()`. -/
inductive Accept where
  | error
  | connection (stream : Connection)

/-- What the loop wrote for the accept results it took, in their order, and the call that ended it. -/
structure TcpRun where
  written : List Bytes
  failure : Option TcpFailure

/-- The loop over the first accept results. -/
def acceptLoop (config : Config) : List Accept → Outcome TcpRun
  | [] => pure ⟨[], none⟩
  | .error :: rest => do
    let run ← acceptLoop config rest
    pure { run with written := [] :: run.written }
  | .connection stream :: rest => do
    match ← serveConnection config stream with
    | .error failure => pure ⟨[], some failure⟩
    | .ok written =>
      let run ← acceptLoop config rest
      pure { run with written := written :: run.written }

end RustyAlias
