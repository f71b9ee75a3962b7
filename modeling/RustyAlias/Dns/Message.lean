import RustyAlias.Dns.Name

/-! # The message format of RFC 1035

A decoder for whole messages, written from the RFC and from nothing else: header, questions, and
three sections of resource records whose owner names may be compressed. Each reader takes the
message and the octets not yet read and returns a value with the octets that follow it; decoding
succeeds only when the counts of the header account for every octet. The encoders beside it serve
to state what a reader does on octets laid out for it.
-/

namespace Dns

open Rust

structure Header where
  id : UInt16
  flags0 : UInt8
  flags1 : UInt8
  qdcount : UInt16
  ancount : UInt16
  nscount : UInt16
  arcount : UInt16
deriving DecidableEq

namespace Header

def qr (h : Header) : Bool := h.flags0.toNat.testBit 7
def opcode (h : Header) : ℕ := h.flags0.toNat / 8 % 16
def aa (h : Header) : Bool := h.flags0.toNat.testBit 2
def tc (h : Header) : Bool := h.flags0.toNat.testBit 1
def rd (h : Header) : Bool := h.flags0.toNat.testBit 0
def ra (h : Header) : Bool := h.flags1.toNat.testBit 7
def rcode (h : Header) : ℕ := h.flags1.toNat % 16

def encode (h : Header) : Bytes :=
  be16 h.id ++ [h.flags0, h.flags1] ++ be16 h.qdcount ++ be16 h.ancount ++ be16 h.nscount ++ be16 h.arcount

@[simp] theorem encode_length (h : Header) : h.encode.length = 12 := rfl

end Header

structure Question where
  name : Name
  qtype : UInt16
  qclass : UInt16
deriving DecidableEq

def Question.encode (q : Question) : Bytes := wire q.name ++ be16 q.qtype ++ be16 q.qclass

/-- The type of the record that carries extensions. -/
def optType : UInt16 := 41

structure Record where
  owner : Name
  rtype : UInt16
  rclass : UInt16
  ttl : UInt32
  rdata : Bytes
deriving DecidableEq

/-- The fields of a record behind its owner name. -/
def Record.body (r : Record) : Bytes :=
  be16 r.rtype ++ be16 r.rclass ++ be32 r.ttl ++ be16 (UInt16.ofNat r.rdata.length) ++ r.rdata

structure Message where
  header : Header
  questions : List Question
  answers : List Record
  authority : List Record
  additional : List Record
deriving DecidableEq

section Readers

def readByte : Bytes → Option (UInt8 × Bytes)
  | a :: rest => some (a, rest)
  | [] => none

def read16 : Bytes → Option (UInt16 × Bytes)
  | a :: b :: rest => some (fromBe16 a b, rest)
  | _ => none

def read32 : Bytes → Option (UInt32 × Bytes)
  | a :: b :: c :: d :: rest => some (fromBe32 a b c d, rest)
  | _ => none

def readBytes (n : ℕ) (input : Bytes) : Option (Bytes × Bytes) :=
  if n ≤ input.length then some (input.take n, input.drop n) else none

def readMany {α : Type} (reader : Bytes → Option (α × Bytes)) : ℕ → Bytes → Option (List α × Bytes)
  | 0, input => some ([], input)
  | n + 1, input => do
    let (item, input) ← reader input
    let (items, input) ← readMany reader n input
    return (item :: items, input)

/-- A possibly compressed name, whose part that begins at the offset `start` is read. A pointer leads to a prior occurrence
of what is left of the name (RFC 1035 section 4.1.4): in front of this part, and behind the header. -/
def readLabels (msg : Bytes) : ℕ → ℕ → Bytes → Option (Name × Bytes)
  | 0, _, _ => none
  | fuel + 1, start, input => do
    let (first, input) ← readByte input
    if first = 0 then some ([], input)
    else if first < 64 then do
      let (label, input) ← readBytes first.toNat input
      let (rest, input) ← readLabels msg fuel start input
      return (label :: rest, input)
    else if 192 ≤ first then do
      let (second, input) ← readByte input
      let target := (first.toNat - 192) * 256 + second.toNat
      if 12 ≤ target ∧ target < start then do
        let (name, _) ← readLabels msg fuel target (msg.drop target)
        return (name, input)
      else none
    else none

/-- No name of at most 255 octets has more labels than the fuel allows. -/
def readName (msg input : Bytes) : Option (Name × Bytes) :=
  (readLabels msg 512 (msg.length - input.length) input).filter fun (name, _) => (wire name).length ≤ 255

def readQuestion (msg input : Bytes) : Option (Question × Bytes) := do
  let (name, input) ← readName msg input
  let (qtype, input) ← read16 input
  let (qclass, input) ← read16 input
  return (⟨name, qtype, qclass⟩, input)

def readRecord (msg input : Bytes) : Option (Record × Bytes) := do
  let (owner, input) ← readName msg input
  let (rtype, input) ← read16 input
  let (rclass, input) ← read16 input
  let (ttl, input) ← read32 input
  let (rdlength, input) ← read16 input
  let (rdata, input) ← readBytes rdlength.toNat input
  return (⟨owner, rtype, rclass, ttl, rdata⟩, input)

def readHeader (input : Bytes) : Option (Header × Bytes) := do
  let (id, input) ← read16 input
  let (flags0, input) ← readByte input
  let (flags1, input) ← readByte input
  let (qdcount, input) ← read16 input
  let (ancount, input) ← read16 input
  let (nscount, input) ← read16 input
  let (arcount, input) ← read16 input
  return (⟨id, flags0, flags1, qdcount, ancount, nscount, arcount⟩, input)

/-- Sections of so many entries behind a header, and nothing after them. -/
def readSections (msg : Bytes) (header : Header) (qdcount ancount nscount arcount : ℕ) (input : Bytes) : Option Message := do
  let (questions, input) ← readMany (readQuestion msg) qdcount input
  let (answers, input) ← readMany (readRecord msg) ancount input
  let (authority, input) ← readMany (readRecord msg) nscount input
  let (additional, input) ← readMany (readRecord msg) arcount input
  if input = [] then some ⟨header, questions, answers, authority, additional⟩ else none

/-- A message and nothing after it. -/
def decode (msg : Bytes) : Option Message := do
  let (header, input) ← readHeader msg
  readSections msg header header.qdcount.toNat header.ancount.toNat header.nscount.toNat header.arcount.toNat input

end Readers

section Layout

variable {msg : Bytes}

@[simp] theorem readByte_cons (b : UInt8) (rest : Bytes) : readByte (b :: rest) = some (b, rest) := rfl

@[simp] theorem read16_be16 (value : UInt16) (rest : Bytes) : read16 (be16 value ++ rest) = some (value, rest) := by
  simp only [be16, List.cons_append, List.nil_append, read16, fromBe16_be16]

@[simp] theorem read32_be32 (value : UInt32) (rest : Bytes) : read32 (be32 value ++ rest) = some (value, rest) := by
  simp only [be32, List.cons_append, List.nil_append, read32, fromBe32_be32]

@[simp] theorem readBytes_append {n : ℕ} {front : Bytes} (width : front.length = n) (rest : Bytes) :
    readBytes n (front ++ rest) = some (front, rest) := by
  subst width
  simp [readBytes]

/-- A run of items is read back when each of them is. -/
theorem readMany_flatMap {α β : Type} {reader : Bytes → Option (β × Bytes)} {layout : α → Bytes} {value : α → β}
    {items : List α} {rest : Bytes}
    (each : ∀ item ∈ items, ∀ after, after.length + (layout item).length ≤ (items.flatMap layout ++ rest).length →
      reader (layout item ++ after) = some (value item, after)) :
    readMany reader items.length (items.flatMap layout ++ rest) = some (items.map value, rest) := by
  induction items with
  | nil => rfl
  | cons item others ih =>
    have first := each item (List.mem_cons_self ..) (others.flatMap layout ++ rest) (by simp; omega)
    have following := ih fun other member after bound => each other (List.mem_cons_of_mem _ member) after (by
      simp only [List.flatMap_cons, List.length_append] at bound ⊢; omega)
    rw [List.flatMap_cons, List.append_assoc, List.length_cons, readMany, first]
    simp [following]

theorem readHeader_encode (h : Header) (rest : Bytes) : readHeader (h.encode ++ rest) = some (h, rest) := by
  simp [readHeader, Header.encode]

/-- An uncompressed legal name reads back label by label. -/
theorem readLabels_wire {name : Name} (legal : ∀ label ∈ name, 1 ≤ label.length ∧ label.length ≤ 63) {fuel start : ℕ}
    (enough : name.length < fuel) (rest : Bytes) :
    readLabels msg fuel start (wire name ++ rest) = some (name, rest) := by
  induction name generalizing fuel with
  | nil =>
    obtain ⟨fuel, rfl⟩ := Nat.exists_eq_add_of_lt enough
    simp [readLabels]
  | cons label others ih =>
    obtain ⟨fuel, rfl⟩ : ∃ more, fuel = more + 1 := ⟨fuel - 1, by omega⟩
    obtain ⟨low, high⟩ := legal label (List.mem_cons_self ..)
    have octet : (UInt8.ofNat label.length).toNat = label.length := by simp only [UInt8.toNat_ofNat']; omega
    have nonzero : UInt8.ofNat label.length ≠ 0 := by
      rw [ne_eq, ← UInt8.toNat_inj, octet]
      simp only [UInt8.reduceToNat]
      omega
    have small : UInt8.ofNat label.length < 64 := by
      simp only [UInt8.lt_iff_toNat_lt, octet, UInt8.reduceToNat]
      omega
    have following := ih (fun other member => legal other (List.mem_cons_of_mem _ member))
      (show others.length < fuel by simpa using enough)
    rw [wire_cons, List.cons_append, readLabels, readByte_cons]
    simp only [Option.bind_eq_bind, Option.bind_some, if_neg nonzero, if_pos small, octet, List.append_assoc]
    rw [readBytes_append rfl]
    simp [following]

theorem readName_wire {name : Name} (legal : Legal name) (rest : Bytes) :
    readName msg (wire name ++ rest) = some (name, rest) := by
  rw [readName, readLabels_wire legal.labels (by have := legal.length_le; omega)]
  simp [legal.total]

private theorem readLabels_pointer {name : Name} {fuel start target : ℕ} {rest : Bytes} (small : target < 64)
    (behind : 12 ≤ target) (before : target < start) {tail : Bytes}
    (there : readLabels msg fuel target (msg.drop target) = some (name, tail)) :
    readLabels msg (fuel + 1) start ([0xC0, UInt8.ofNat target] ++ rest) = some (name, rest) := by
  have octet : (UInt8.ofNat target).toNat = target := by simp only [UInt8.toNat_ofNat']; omega
  simp only [List.cons_append, List.nil_append, readLabels, readByte_cons, Option.bind_eq_bind, Option.bind_some,
    show ¬ (0xC0 : UInt8) = 0 by decide, show ¬ (0xC0 : UInt8) < 64 by decide, show (192 : UInt8) ≤ 0xC0 by decide,
    if_false, if_true, octet, UInt8.reduceToNat, Nat.sub_self, Nat.zero_mul, Nat.zero_add, behind, before, and_self, there]
  rfl

/-- A pointer to a name that stands earlier in the message reads as that name. -/
theorem readName_pointer {name : Name} {target : ℕ} {tail rest : Bytes} (legal : Legal name)
    (small : target < 64) (behind : 12 ≤ target) (there : msg.drop target = wire name ++ tail)
    (before : target + (rest.length + 2) < msg.length) :
    readName msg ([0xC0, UInt8.ofNat target] ++ rest) = some (name, rest) := by
  have fuel := legal.length_le
  have reached : readLabels msg 511 target (wire name ++ tail) = some (name, tail) :=
    readLabels_wire legal.labels (by omega) tail
  have start : target < msg.length - ([0xC0, UInt8.ofNat target] ++ rest).length := by
    simp only [List.length_append, List.length_cons, List.length_nil]
    omega
  rw [readName, readLabels_pointer small behind start (there ▸ reached)]
  simp [legal.total]

theorem readQuestion_encode {q : Question} (legal : Legal q.name) (rest : Bytes) :
    readQuestion msg (q.encode ++ rest) = some (q, rest) := by
  simp [readQuestion, Question.encode, readName_wire legal]

/-- A record is read wherever its owner is, provided RDLENGTH can tell the length of its RDATA. -/
theorem readRecord_body {r : Record} {input rest : Bytes} (fits : r.rdata.length ≤ 65535)
    (owner : readName msg input = some (r.owner, r.body ++ rest)) :
    readRecord msg input = some (r, rest) := by
  have length : (UInt16.ofNat r.rdata.length).toNat = r.rdata.length := by
    simp only [UInt16.toNat_ofNat']; omega
  simp [readRecord, owner, Record.body, length, readBytes_append]

/-- The octets are those of the message: its header, which counts its entries as far as a count can tell, and behind
it the entries of its sections. -/
structure Holds (octets : Bytes) (msg : Message) : Prop where
  header : readHeader octets = some (msg.header, octets.drop 12)
  sections : readSections octets msg.header msg.questions.length msg.answers.length msg.authority.length
    msg.additional.length (octets.drop 12) = some msg
  qdcount : msg.header.qdcount.toNat = min msg.questions.length 65535
  ancount : msg.header.ancount.toNat = min msg.answers.length 65535
  nscount : msg.header.nscount.toNat = min msg.authority.length 65535
  arcount : msg.header.arcount.toNat = min msg.additional.length 65535

/-- Octets whose counts do not saturate decode to the message that they hold. -/
theorem Holds.decode {octets : Bytes} {msg : Message} (holds : Holds octets msg) (questions : msg.questions.length ≤ 65535)
    (answers : msg.answers.length ≤ 65535) (authority : msg.authority.length ≤ 65535)
    (additional : msg.additional.length ≤ 65535) : decode octets = some msg := by
  have qdcount := holds.qdcount.trans (Nat.min_eq_left questions)
  have ancount := holds.ancount.trans (Nat.min_eq_left answers)
  have nscount := holds.nscount.trans (Nat.min_eq_left authority)
  have arcount := holds.arcount.trans (Nat.min_eq_left additional)
  rw [Dns.decode, holds.header]
  simp only [Option.bind_eq_bind, Option.bind_some, qdcount, ancount, nscount, arcount]
  exact holds.sections

end Layout

end Dns
