import RustyAlias.Dns.Message

/-! # The resolver's side of an exchange

A resolver takes a message for the answer to its query when it is a response with the same ID and question.
It asks over UDP first. A truncated answer makes it ask again over TCP, where two octets of length stand in
front of a message.
-/

namespace Dns

open Rust

/-- What a resolver keeps of a query that it has sent. -/
structure Exchange where
  id : UInt16
  question : Question

/-- The first message of a TCP stream. -/
def unframe (stream : Bytes) : Option Bytes := do
  let (length, rest) ← read16 stream
  let (octets, _) ← readBytes length.toNat rest
  return octets

theorem unframe_be16 {octets : Bytes} (short : octets.length ≤ 65535) (rest : Bytes) :
    unframe (be16 (UInt16.ofNat octets.length) ++ octets ++ rest) = some octets := by
  have length : (UInt16.ofNat octets.length).toNat = octets.length := by
    simp only [UInt16.toNat_ofNat']
    omega
  simp [unframe, length, readBytes_append]

namespace Exchange

variable (exchange : Exchange)

def Answered (msg : Message) : Prop :=
  msg.header.qr = true ∧ msg.header.opcode = 0 ∧ msg.header.id = exchange.id ∧ msg.questions = [exchange.question]

instance (msg : Message) : Decidable (exchange.Answered msg) := by
  unfold Answered
  infer_instance

/-- The message, if it is the answer. -/
def accept (octets : Bytes) : Option Message := (decode octets).filter fun msg => decide (exchange.Answered msg)

/-- The answer that came over UDP, or over TCP if that one was truncated. -/
def settle (datagram stream : Bytes) : Option Message := do
  let msg ← exchange.accept datagram
  if msg.header.tc then exchange.accept (← unframe stream) else return msg

variable {exchange} {datagram stream octets : Bytes} {msg cut : Message}

theorem accept_of_decode (decoded : decode octets = some msg) (answered : exchange.Answered msg) :
    exchange.accept octets = some msg := by
  rw [accept, decoded, Option.filter_some, if_pos (decide_eq_true answered)]

theorem settle_whole (accepted : exchange.accept datagram = some msg) (whole : msg.header.tc = false) :
    exchange.settle datagram stream = some msg := by
  simp [settle, accepted, whole]

theorem settle_truncated (accepted : exchange.accept datagram = some cut) (truncated : cut.header.tc = true)
    (framed : unframe stream = some octets) : exchange.settle datagram stream = exchange.accept octets := by
  simp [settle, accepted, truncated, framed]

end Exchange

end Dns
