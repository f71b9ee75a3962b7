import RustyAlias.Model.RateLimit
import RustyAlias.Model.Tcp

/-! # The server process

`main.rs`: the thread that answers UDP queries and the main thread that takes TCP connections, over
one limiter. What arrives and what the I/O calls give comes with the events. A panic of the UDP
thread ends that thread alone, the end of `main` ends the process. A disabled limiter decides without
the clock and the lock; the steps for them then change nothing but the thread. Logging is left out.
-/

namespace RustyAlias

open Rust

structure SocketAddr (α : Type) where
  ip : α
  port : UInt16
deriving DecidableEq

/-- What was sent to a client, and the reading of the clock on which its request was allowed. -/
structure Answer (α : Type) where
  peer : SocketAddr α
  now : ℕ
  octets : Bytes
deriving DecidableEq

/-- `&buf[..amt]`: a longer datagram is cut to the buffer. -/
def udpQuery (datagram : Bytes) : Slice where
  data := datagram.take 4096
  length_le := by
    rw [List.length_take]
    unfold isizeMax
    omega

/-- Where the UDP thread stands. -/
inductive UdpPhase (α : Type)
  | receiving
  | checking (src : SocketAddr α) (datagram : Bytes)
  | answering (src : SocketAddr α) (datagram : Bytes) (now : ℕ)
  | panicked

/-- The UDP thread with the datagrams that it has sent. -/
structure UdpThread (α : Type) where
  phase : UdpPhase α
  sent : List (Answer α)

namespace UdpThread

variable {α : Type}

/-- `recv_from`. -/
def receive (thread : UdpThread α) (received : Option (SocketAddr α × Bytes)) : Option (UdpThread α) :=
  match thread.phase, received with
  | .receiving, none => some thread
  | .receiving, some (src, datagram) => some { thread with phase := .checking src datagram }
  | _, _ => none

/-- What `check` decided on a reading of the clock. -/
def decided (thread : UdpThread α) (allowed : Bool) (now : ℕ) : Option (UdpThread α) :=
  match thread.phase with
  | .checking src datagram =>
    some { thread with phase := if allowed then .answering src datagram now else .receiving }
  | _ => none

/-- `handle_query`; an error of `send_to` is reported and ignored. -/
def answer (config : Config) (thread : UdpThread α) (clock : Clock) (sends : Bool) : Option (UdpThread α) :=
  match thread.phase with
  | .answering src datagram now =>
    match handleQuery clock (udpQuery datagram) config with
    | .error _ => some { thread with phase := .panicked }
    | .ok none => some { thread with phase := .receiving }
    | .ok (some response) => some
      { phase := .receiving, sent := if sends then thread.sent ++ [⟨src, now, response⟩] else thread.sent }
  | _ => none

end UdpThread

/-- Where the main thread stands. -/
inductive TcpPhase (α : Type)
  | accepting
  | checking (peer : SocketAddr α) (stream : Connection)
  | serving (peer : SocketAddr α) (stream : Connection) (now : ℕ)
  | failed (failure : TcpFailure)
  | panicked

/-- The main thread with what it has written. -/
structure TcpThread (α : Type) where
  phase : TcpPhase α
  written : List (Answer α)

namespace TcpThread

variable {α : Type}

/-- An item of `tcp_listener.incoming()`. -/
def accept (thread : TcpThread α) (accepted : Option (SocketAddr α × Connection)) : Option (TcpThread α) :=
  match thread.phase, accepted with
  | .accepting, none => some thread
  | .accepting, some (peer, stream) =>
    some { thread with phase := if stream.peerAddr then .checking peer stream else .failed .peerAddr }
  | _, _ => none

/-- What `check` decided on a reading of the clock. -/
def decided (thread : TcpThread α) (allowed : Bool) (now : ℕ) : Option (TcpThread α) :=
  match thread.phase with
  | .checking peer stream => some { thread with phase := if allowed then .serving peer stream now else .accepting }
  | _ => none

/-- The body of the loop for an allowed connection. -/
def serve (config : Config) (thread : TcpThread α) : Option (TcpThread α) :=
  match thread.phase with
  | .serving peer stream now =>
    match serveConnection config { stream with allowed := true } with
    | .error _ => some { thread with phase := .panicked }
    | .ok (.error failure) => some { thread with phase := .failed failure }
    | .ok (.ok octets) => some
      { phase := .accepting, written := if octets.isEmpty then thread.written else thread.written ++ [⟨peer, now, octets⟩] }
  | _ => none

/-- `main` has returned or panicked. -/
def ended (thread : TcpThread α) : Bool :=
  match thread.phase with
  | .failed _ => true
  | .panicked => true
  | _ => false

end TcpThread

variable {α : Type} [DecidableEq α]

structure Server (α : Type) where
  system : System α
  udp : UdpThread α
  tcp : TcpThread α

inductive ServerEvent (α : Type)
  | tick (later : ℕ)
  | readClock (thread : Thread)
  | lock (thread : Thread)
  | receive (received : Option (SocketAddr α × Bytes))
  | answer (clock : Clock) (sends : Bool)
  | accept (accepted : Option (SocketAddr α × Connection))
  | serve

namespace Server

/-- Nanoseconds. -/
def ticksPerSecond : ℕ := 10 ^ 9

/-- Both threads at their loops, over `RateLimiter::new`. -/
def start (config : Config) : Server α where
  system := .start (config.rateLimitSeconds.toNat * ticksPerSecond) config.rateLimitRequests.toNat
  udp := ⟨.receiving, []⟩
  tcp := ⟨.accepting, []⟩

/-- The address for which a thread asks the limiter. -/
def asks (s : Server α) : Thread → Option α
  | .udp => match s.udp.phase with
    | .checking src _ => some src.ip
    | _ => none
  | .tcp => match s.tcp.phase with
    | .checking peer _ => some peer.ip
    | _ => none

/-- The limiter has decided for a thread. -/
def decided (s : Server α) (allowed : Bool) (now : ℕ) : Thread → Option (Server α)
  | .udp => (s.udp.decided allowed now).map fun udp => { s with udp }
  | .tcp => (s.tcp.decided allowed now).map fun tcp => { s with tcp }

/-- One atomic step of the process, if it is not over. -/
def step (config : Config) (s : Server α) (event : ServerEvent α) : Option (Server α) :=
  if s.tcp.ended then none
  else match event with
    | .tick later => (s.system.step (.tick later)).map fun system => { s with system }
    | .readClock thread => do
      let ip ← s.asks thread
      let system ← s.system.step (.read thread ip)
      pure { s with system }
    | .lock thread => do
      let (ip, now) ← s.system.pending thread
      let system ← s.system.step (.update thread)
      { s with system }.decided (s.system.limiter.check now ip).1 now thread
    | .receive received => (s.udp.receive received).map fun udp => { s with udp }
    | .answer clock sends => (s.udp.answer config clock sends).map fun udp => { s with udp }
    | .accept accepted => (s.tcp.accept accepted).map fun tcp => { s with tcp }
    | .serve => (s.tcp.serve config).map fun tcp => { s with tcp }

end Server

end RustyAlias
