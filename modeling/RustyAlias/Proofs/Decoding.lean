import RustyAlias.Proofs.Reply

/-! # A response decodes to its records

The layout of a response is read back by the decoder of `Dns.Message`: the pointers of the records
lead to the question, host names are read as their folded labels, and the counts of the header
account for every record as long as no section outgrows them.
-/

namespace RustyAlias

open Rust Dns

/-- The name that an owner stands for in a response to a question about `qname`. -/
def ownerName (qname : Name) : Owner → Name
  | .question => qname
  | .name host => fold (hostLabels host)

/-- The record that is read for a written one. -/
def Rr.record (qname : Name) (rr : Rr) : Record := ⟨ownerName qname rr.owner, rr.typ, classIn, rr.ttl, rr.rdata⟩

/-- The server's OPT record: its class is a size and its TTL holds the DO bit. -/
def optRecord (dnssecOk : Bool) : Record := ⟨[], typeOpt, ednsUdpSize, if dnssecOk then 0x8000 else 0, []⟩

/-- No section has more records than its count can tell. -/
structure Queues.Countable (queues : Queues) (opt : Option Bool) : Prop where
  answers : queues.answers.length ≤ 65535
  authority : queues.authority.length ≤ 65535
  additional : queues.additional.length + opt.toList.length ≤ 65535

theorem encode_eq (qname : Name) (rr : Rr) :
    rr.encode = (match rr.owner with
      | .question => [0xC0, 0x0C]
      | .name host => wire (fold (hostLabels host))) ++ (rr.record qname).body := by
  cases owner : rr.owner <;> simp [Rr.encode, writeRr, Rr.record, Record.body, owner, encodeDomainName_eq]

section Reading

variable {msg : Bytes} {qname : Name} {tail : Bytes} (there : msg.drop 12 = wire qname ++ tail) (legal : Legal qname)

include there legal

private theorem readRecord_encode {rr : Rr} (legible : rr.Legible) {after : Bytes}
    (inside : after.length + rr.encode.length + 13 ≤ msg.length) :
    readRecord msg (rr.encode ++ after) = some (rr.record qname, after) := by
  apply readRecord_body legible.fits
  rw [encode_eq qname, List.append_assoc]
  rw [encode_eq qname, List.length_append] at inside
  cases owner : rr.owner with
  | question =>
    have name : (rr.record qname).owner = qname := by simp [Rr.record, ownerName, owner]
    rw [owner] at inside
    rw [name]
    refine readName_pointer legal (show 12 < 64 by omega) (Nat.le_refl 12) there ?_
    simp only [List.length_append, List.length_cons, List.length_nil] at inside ⊢
    omega
  | name host =>
    have name : (rr.record qname).owner = fold (hostLabels host) := by simp [Rr.record, ownerName, owner]
    rw [name]
    exact readName_wire (legible.owner host owner).legal.fold _

omit there legal in
theorem readRecord_opt (dnssecOk : Bool) (after : Bytes) :
    readRecord msg (optRr dnssecOk ++ after) = some (optRecord dnssecOk, after) := by
  have root : optRr dnssecOk ++ after = wire [] ++ ((optRecord dnssecOk).body ++ after) := by
    cases dnssecOk <;> rfl
  rw [root]
  exact readRecord_body (by simp [optRecord]) (readName_wire ⟨by simp, by simp⟩ _)

/-- A section is read back when the octets behind the question hold it. -/
theorem readMany_encode {rrs : List Rr} (legible : ∀ rr ∈ rrs, rr.Legible) {rest : Bytes}
    (inside : (rrs.flatMap Rr.encode ++ rest).length + 13 ≤ msg.length) :
    readMany (readRecord msg) rrs.length (rrs.flatMap Rr.encode ++ rest) = some (rrs.map (Rr.record qname), rest) :=
  readMany_flatMap fun rr member _ bound => readRecord_encode there legal (legible rr member) (by omega)

/-- The additional section ends with the OPT record. -/
theorem readMany_opt {rrs : List Rr} (legible : ∀ rr ∈ rrs, rr.Legible) (opt : Option Bool)
    (inside : (rrs.flatMap Rr.encode ++ opt.toList.flatMap optRr).length + 13 ≤ msg.length) :
    readMany (readRecord msg) (rrs.length + opt.toList.length) (rrs.flatMap Rr.encode ++ opt.toList.flatMap optRr) =
      some (rrs.map (Rr.record qname) ++ opt.toList.map optRecord, []) := by
  let items : List (Rr ⊕ Bool) := rrs.map Sum.inl ++ opt.toList.map Sum.inr
  have octets : rrs.flatMap Rr.encode ++ opt.toList.flatMap optRr = items.flatMap (Sum.elim Rr.encode optRr) ++ [] := by
    simp [items, List.flatMap_append, List.flatMap_map]
  have values : rrs.map (Rr.record qname) ++ opt.toList.map optRecord = items.map (Sum.elim (Rr.record qname) optRecord) := by
    simp [items, Function.comp_def]
  have size : rrs.length + opt.toList.length = items.length := by simp [items]
  rw [octets] at inside ⊢
  rw [values, size]
  refine readMany_flatMap ?_
  rintro (rr | dnssecOk) member after bound
  · have source : rr ∈ rrs := by simpa [items] using member
    exact readRecord_encode there legal (legible rr source) (by rw [Sum.elim_inl] at bound; omega)
  · exact readRecord_opt dnssecOk after

end Reading

/-- What a layout decodes to. -/
def message (header : Header) (question : Question) (records : Queues) (opt : Option Bool) : Message where
  header := withCounts header records opt
  questions := [question]
  answers := records.answers.map (Rr.record question.name)
  authority := records.authority.map (Rr.record question.name)
  additional := records.additional.map (Rr.record question.name) ++ opt.toList.map optRecord

/-- A layout holds its message. -/
theorem holds_layout {header : Header} (single : header.qdcount = 1) {question : Question} (legal : Legal question.name)
    {records : Queues} (legible : records.All Rr.Legible) (opt : Option Bool) :
    Holds (layout header question.encode records opt) (message header question records opt) := by
  obtain ⟨answers, authority, additional⟩ := records
  have shape : layout header question.encode ⟨answers, authority, additional⟩ opt =
      (withCounts header ⟨answers, authority, additional⟩ opt).encode ++ (question.encode ++
        (answers.flatMap Rr.encode ++ (authority.flatMap Rr.encode ++
          (additional.flatMap Rr.encode ++ opt.toList.flatMap optRr)))) := rfl
  generalize layout header question.encode ⟨answers, authority, additional⟩ opt = msg at shape ⊢
  have behind : msg.drop 12 = question.encode ++ (answers.flatMap Rr.encode ++ (authority.flatMap Rr.encode ++
      (additional.flatMap Rr.encode ++ opt.toList.flatMap optRr))) := by
    rw [shape, ← Header.encode_length, List.drop_left]
  have there : msg.drop 12 = wire question.name ++ (be16 question.qtype ++ be16 question.qclass ++
      (answers.flatMap Rr.encode ++ (authority.flatMap Rr.encode ++
          (additional.flatMap Rr.encode ++ opt.toList.flatMap optRr)))) := by
    rw [behind, Question.encode]
    simp
  have length := congrArg List.length shape
  have width : 5 ≤ question.encode.length := by simp [Question.encode, wire]
  simp only [List.length_append, Header.encode_length] at length
  have one : header.qdcount.toNat = 1 := by rw [single]; rfl
  constructor
  · rw [behind]
    nth_rewrite 1 [shape]
    exact readHeader_encode ..
  · rw [behind, readSections]
    simp only [message, List.length_singleton, List.length_map, List.length_append]
    rw [readMany, readQuestion_encode legal]
    simp only [Option.bind_eq_bind, Option.bind_some, readMany, Option.pure_def]
    rw [readMany_encode there legal (fun rr member => legible rr (by simp [member])) (by
      simp only [List.length_append]; omega)]
    simp only [Option.bind_some]
    rw [readMany_encode there legal (fun rr member => legible rr (by simp [member])) (by
      simp only [List.length_append]; omega)]
    simp only [Option.bind_some]
    rw [readMany_opt there legal (fun rr member => legible rr (by simp [member])) opt (by
      simp only [List.length_append]; omega)]
    simp
  · exact one
  · simp [message, withCounts, count_toNat]
  · simp [message, withCounts, count_toNat]
  · simp [message, withCounts, count_toNat]

theorem decode_layout {header : Header} (single : header.qdcount = 1) {question : Question} (legal : Legal question.name)
    {records : Queues} (legible : records.All Rr.Legible) {opt : Option Bool} (countable : records.Countable opt) :
    decode (layout header question.encode records opt) = some (message header question records opt) := by
  refine (holds_layout single legal legible opt).decode ?_ ?_ ?_ ?_
  · simp [message]
  · simpa [message] using countable.answers
  · simpa [message] using countable.authority
  · simpa [message] using countable.additional

end RustyAlias
