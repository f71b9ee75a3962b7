import RustyAlias.Soundness.Amplification
import RustyAlias.Soundness.Threads
import RustyAlias.ToMathlib.ListMatching

/-! # Nothing is sent unasked

Every datagram that the server sends is for one that it has received: it goes back to where that came from, carries its
ID and question, and is no longer than it or than the largest response. So no address is sent more than
what came from it accounts for, in whatever order the threads take turns.
-/

namespace RustyAlias

open Rust Rust.Outcome Dns

section Datagrams

variable {query : Bytes} {h : Header} {body : Bytes}

/-- A datagram has the ID and the flags of the response, TC apart. -/
theorem queryHeader_datagram (query : Bytes) (h : Header) (body : Bytes) :
    (queryHeader (datagram query h body)).id = h.id ∧ (queryHeader (datagram query h body)).qr = h.qr ∧
      (queryHeader (datagram query h body)).opcode = h.opcode ∧ (queryHeader (datagram query h body)).rd = h.rd := by
  have bits : ∀ b : UInt8, (b ||| 2).toNat.testBit 7 = b.toNat.testBit 7 ∧ (b ||| 2).toNat / 8 % 16 = b.toNat / 8 % 16 ∧
      (b ||| 2).toNat.testBit 0 = b.toNat.testBit 0 := by decide +kernel
  unfold datagram
  split
  · rw [queryHeader_encode]
    exact ⟨rfl, rfl, rfl, rfl⟩
  · rw [truncate, truncated_eq, queryHeader_encode]
    exact ⟨rfl, bits h.flags0⟩

/-- The question is echoed, truncated or not. -/
theorem questionOf_echoed {rest : Bytes} (echoed : body = questionOf query ++ rest) :
    questionOf query <+: (datagram query h body).drop 12 := by
  unfold datagram
  split
  · rw [← Header.encode_length h, List.drop_left, echoed]
    exact List.prefix_append ..
  · rw [truncate, truncated_eq, ← Header.encode_length, List.drop_left]
    exact List.prefix_append ..

private theorem udpLimit_le (query : Bytes) : udpLimit query ≤ 1232 := Nat.min_le_right ..

end Datagrams

/-- A datagram that is sent for one that was received. -/
structure Solicited {α : Type} (answer : Answer α) (received : SocketAddr α × Bytes) : Prop where
  peer : answer.peer = received.1
  id : (queryHeader answer.octets).id = (queryHeader received.2).id
  response : (queryHeader answer.octets).qr = true
  opcode : (queryHeader answer.octets).opcode = (queryHeader received.2).opcode
  rd : (queryHeader answer.octets).rd = (queryHeader received.2).rd
  question : questionOf (received.2.take 4096) <+: answer.octets.drop 12
  short : answer.octets.length ≤ max 1232 received.2.length

variable {α : Type} {config : Config}

private theorem queryHeader_take (received : Bytes) : queryHeader (received.take 4096) = queryHeader received := by
  have kept (i : ℕ) (small : i < 4096) : (received.take 4096).getD i 0 = received.getD i 0 := by
    rw [List.getD, List.getD, List.getElem?_take_of_lt small]
  simp only [queryHeader, kept, Nat.reduceLT]

/-- What the handler sends for a datagram is solicited by it. -/
theorem handleQuery_solicited {clock : Clock} {src : SocketAddr α} {received octets : Bytes}
    (sent : handleQuery clock (udpQuery received) config = .ok (some octets)) (now : ℕ) :
    Solicited ⟨src, now, octets⟩ (src, received) := by
  rw [handleQuery_eq, Except.ok.injEq, Option.map_eq_some_iff] at sent
  obtain ⟨result, answered, rfl⟩ := sent
  have same : queryHeader (udpQuery received).data = queryHeader received := queryHeader_take received
  have shorter : (udpQuery received).data.length ≤ received.length := List.length_take_le' ..
  have headerOnly (none : questionEnd? (udpQuery received).data = none) :=
    responseBody_headerOnly none answered clock (paramsOf (udpQuery received).data config)
  generalize paramsOf (udpQuery received).data config = params at headerOnly ⊢
  change _ = queryHeader (src, received).2 at same
  generalize shape : (udpQuery received).data = query at *
  obtain ⟨id, qr, opcode, rd⟩ := queryHeader_datagram query (responseHeader clock query params result)
    (responseBody clock query params result)
  have flags := replyHeader_flags query result.aa result.rcode
  constructor
  · rfl
  · exact id.trans (congrArg (fun h => h.id) same)
  · exact qr.trans flags.1
  · exact opcode.trans (flags.2.1.trans (congrArg (fun h => h.opcode) same))
  · exact rd.trans (flags.2.2.1.trans (congrArg (fun h => h.rd) same))
  · change questionOf (received.take 4096) <+: _
    rw [show received.take 4096 = query from shape]
    exact questionOf_echoed rfl
  · change (datagram query _ _).length ≤ max 1232 received.length
    have limit := udpLimit_le query
    unfold datagram
    split
    · next whole =>
      rcases whole with fits | none
      · omega
      · rw [headerOnly none, List.append_nil, Header.encode_length]
        omega
    · next cut =>
      have some : questionEnd? query ≠ none := fun none => cut (.inr none)
      obtain ⟨stop, ends⟩ := Option.ne_none_iff_exists'.mp some
      obtain ⟨split, parts, _⟩ := exists_split ends
      have long : 12 ≤ query.length := by
        rw [← shape] at parts ⊢
        exact Split.long parts
      have bound := truncate_length_le long (responseHeader clock query params result)
      omega

/-- One pass of the loop sends at most one datagram, for the one that it has received. -/
theorem UdpTurn.answers_solicited {turn : UdpTurn α} {answers : List (Answer α)} (answered : turn.answers config = .ok answers) :
    List.SublistForall₂ Solicited answers [turn.request] := by
  unfold UdpTurn.answers at answered
  split at answered
  · cases answered
    exact .nil
  · next handling _ =>
    obtain ⟨response, handled, rest⟩ := bind_eq_ok_iff.mp answered
    cases rest
    split
    · cases response with
      | none => exact .nil
      | some octets => exact .cons (handleQuery_solicited handled handling.now) .nil
    · exact .nil

private theorem udpLoop_solicited {turns : List (UdpTurn α)} {sent : List (Answer α)} (looped : udpLoop config turns = .ok sent) :
    List.SublistForall₂ Solicited sent (turns.map UdpTurn.request) := by
  induction turns generalizing sent with
  | nil =>
    cases looped
    exact .nil
  | cons turn rest ih =>
    obtain ⟨answers, here, looped⟩ := bind_eq_ok_iff.mp looped
    obtain ⟨others, later, same⟩ := bind_eq_ok_iff.mp looped
    cases same
    exact (UdpTurn.answers_solicited here).append (ih later)

namespace Server

variable [DecidableEq α] {s : Server α} {events : List (ServerEvent α)}

/-- In every interleaving, the datagrams that are sent are matched in order with datagrams of their own that arrived. -/
theorem solicited_run (ran : Machine.run (step config) (start config) events = some s) :
    List.SublistForall₂ Solicited s.udp.sent (datagrams events) := by
  obtain ⟨turns, looped, arrived, _⟩ := (follows_run ran).1.follows
  rw [← arrived]
  exact (udpLoop_solicited looped).append_right _

/-- Nothing is sent over UDP unasked, and for each datagram that came from it an address is sent at most 1232 octets, or as
many as the datagram had. -/
theorem sent_is_solicited (ran : Machine.run (step config) (start config) events = some s) :
    List.SublistForall₂ Solicited s.udp.sent (datagrams events) ∧
      ∀ ip, ((s.udp.sent.filter fun answer => answer.peer.ip = ip).map fun answer => answer.octets.length).sum ≤
        (((datagrams events).filter fun received => received.1.ip = ip).map fun received => max 1232 received.2.length).sum := by
  have matched := solicited_run ran
  refine ⟨matched, fun ip => ?_⟩
  have among := matched.filter (p := fun answer => answer.peer.ip = ip) (q := fun received => received.1.ip = ip)
    fun answer received solicited => by rw [solicited.peer]
  exact among.sum_le fun answer received solicited => solicited.short

theorem sent_is_solicited_sample : ∃ s, Machine.run (step sampleConfig) (start sampleConfig) sampleEvents = some s ∧
    List.SublistForall₂ Solicited s.udp.sent [(⟨1, 54⟩, sampleQuery.data)] ∧
      ∀ ip, ((s.udp.sent.filter fun answer => answer.peer.ip = ip).map fun answer => answer.octets.length).sum ≤
        (((datagrams sampleEvents).filter fun received => received.1.ip = ip).map fun received =>
          max 1232 received.2.length).sum := by
  obtain ⟨s, ran⟩ := sampleEvents_run
  exact ⟨s, ran, sent_is_solicited ran⟩

end Server

end RustyAlias
