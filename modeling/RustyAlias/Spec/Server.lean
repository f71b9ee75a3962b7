import RustyAlias.Model.Server
import RustyAlias.ToMathlib.Runs

/-! # The threads alone

What each thread of the server does if it is the only one: the UDP loop over the datagrams it takes,
with what the limiter decided on each of them, beside `acceptLoop` for the main thread.
-/

namespace RustyAlias

open Rust

variable {α : Type}

/-- What happened to an allowed datagram: the reading on which it was allowed, the clock that `handle_query` read, and whether
`send_to` succeeded. -/
structure Handling where
  now : ℕ
  clock : Clock
  sends : Bool

/-- One pass of the UDP loop: the datagram, and how it was handled, if it was allowed. -/
structure UdpTurn (α : Type) where
  src : SocketAddr α
  datagram : Bytes
  handling : Option Handling

def UdpTurn.request (turn : UdpTurn α) : SocketAddr α × Bytes := (turn.src, turn.datagram)

/-- For whom the limiter decided, and on which reading it allowed the request. -/
def UdpTurn.verdict (turn : UdpTurn α) : α × Option ℕ := (turn.src.ip, turn.handling.map Handling.now)

/-- What the calls behind an allowed request gave. -/
def UdpTurn.outcome (turn : UdpTurn α) : Option (Clock × Bool) := turn.handling.map fun handling => (handling.clock, handling.sends)

/-- What one pass sends. -/
def UdpTurn.answers (config : Config) (turn : UdpTurn α) : Outcome (List (Answer α)) :=
  match turn.handling with
  | none => pure []
  | some handling => do
    let response ← handleQuery handling.clock (udpQuery turn.datagram) config
    pure (if handling.sends then response.toList.map fun octets => ⟨turn.src, handling.now, octets⟩ else [])

/-- What the loop sends over its first datagrams. -/
def udpLoop (config : Config) : List (UdpTurn α) → Outcome (List (Answer α))
  | [] => pure []
  | turn :: rest => do
    let answers ← turn.answers config
    let others ← udpLoop config rest
    pure (answers ++ others)

/-- An accept result with the client that it is about. -/
abbrev TcpTurn (α : Type) := Option (SocketAddr α × Connection)

def TcpTurn.toAccept : TcpTurn α → Accept
  | none => .error
  | some (_, stream) => .connection stream

/-- The accept result as the network gives it, without what the limiter decides. -/
def TcpTurn.undecided : TcpTurn α → TcpTurn α := Option.map fun (peer, stream) => (peer, { stream with allowed := true })

/-- For whom the limiter decided, if it was asked, and whether it allowed the request. -/
def TcpTurn.verdict : TcpTurn α → Option (α × Bool)
  | none => none
  | some (peer, stream) => if stream.peerAddr then some (peer.ip, stream.allowed) else none

/-- To whom the octets for an accept result go. -/
def TcpTurn.addressed : TcpTurn α → Bytes → List (SocketAddr α × Bytes)
  | none, _ => []
  | some (peer, _), octets => if octets.isEmpty then [] else [(peer, octets)]

namespace Server

/-- The datagrams that arrived. -/
def datagrams (events : List (ServerEvent α)) : List (SocketAddr α × Bytes) :=
  events.filterMap fun event => match event with
    | .receive received => received
    | _ => none

/-- What the clock and `send_to` gave for the datagrams that were handled. -/
def outcomes (events : List (ServerEvent α)) : List (Clock × Bool) :=
  events.filterMap fun event => match event with
    | .answer clock sends => some (clock, sends)
    | _ => none

/-- The results of `accept`. -/
def accepts (events : List (ServerEvent α)) : List (TcpTurn α) :=
  events.filterMap fun event => match event with
    | .accept accepted => some accepted
    | _ => none

variable [DecidableEq α]

/-- What a lock step tells a thread: for whom the limiter decided, and the reading on which it allowed the request. -/
def told (s : Server α) (thread : Thread) : ServerEvent α → Option (α × Option ℕ)
  | .lock caller =>
    if caller = thread then do
      let ip ← s.asks thread
      let (host, now) ← s.system.pending thread
      some (ip, if (s.system.limiter.check now host).1 then some now else none)
    else none
  | _ => none

/-- The verdicts of the limiter that a thread hears in the course of a run. -/
def heard (config : Config) (thread : Thread) (events : List (ServerEvent α)) : List (α × Option ℕ) :=
  Machine.trace (step config) (told · thread) (start config) events

end Server

/-- The datagram that the thread has taken and not finished. -/
def UdpThread.inFlight (thread : UdpThread α) : List (SocketAddr α × Bytes) :=
  match thread.phase with
  | .checking src datagram => [(src, datagram)]
  | .answering src datagram _ => [(src, datagram)]
  | _ => []

/-- The verdict on the datagram that the thread has not answered yet. -/
def UdpThread.granted (thread : UdpThread α) : List (α × Option ℕ) :=
  match thread.phase with
  | .answering src _ now => [(src.ip, some now)]
  | _ => []

/-- The connection that the thread has taken and not finished. -/
def TcpThread.inFlight (thread : TcpThread α) : List (TcpTurn α) :=
  match thread.phase with
  | .checking peer stream => [some (peer, stream)]
  | .serving peer stream _ => [some (peer, stream)]
  | _ => []

/-- The verdict on the connection that the thread has not served yet. -/
def TcpThread.granted (thread : TcpThread α) : List (α × Bool) :=
  match thread.phase with
  | .serving peer _ _ => [(peer.ip, true)]
  | _ => []

/-- The call whose error ended the process. -/
def TcpThread.failure (thread : TcpThread α) : Option TcpFailure :=
  match thread.phase with
  | .failed failure => some failure
  | _ => none

end RustyAlias
