import RustyAlias.Dns.Message

/-! # What a decoded message says about its octets

The converses of the layout lemmas: a reader that succeeds has taken so many octets, and the names that
it returns are legal.
-/

namespace Dns

open Rust

variable {msg input rest : Bytes}

theorem readByte_eq_some {b : UInt8} (read : readByte input = some (b, rest)) : input = b :: rest := by
  cases input with
  | nil => cases read
  | cons a others =>
    cases read
    rfl

theorem read16_eq_some {value : UInt16} (read : read16 input = some (value, rest)) : input = be16 value ++ rest := by
  match input, read with
  | a :: b :: others, read =>
    cases read
    rw [be16_fromBe16]
    rfl

theorem be32_fromBe32 (a b c d : UInt8) : be32 (fromBe32 a b c d) = [a, b, c, d] := by
  have := a.toNat_lt
  have := b.toNat_lt
  have := c.toNat_lt
  have := d.toNat_lt
  simp only [be32, fromBe32, UInt32.toNat_ofNat', List.cons.injEq, and_true, ← UInt8.toNat_inj, UInt8.toNat_ofNat']
  omega

theorem read32_eq_some {value : UInt32} (read : read32 input = some (value, rest)) : input = be32 value ++ rest := by
  match input, read with
  | a :: b :: c :: d :: others, read =>
    cases read
    rw [be32_fromBe32]
    rfl

theorem readBytes_eq_some {n : ℕ} {front : Bytes} (read : readBytes n input = some (front, rest)) :
    input = front ++ rest ∧ front.length = n := by
  unfold readBytes at read
  split at read
  · next room =>
    cases read
    exact ⟨(List.take_append_drop n input).symm, by rw [List.length_take]; omega⟩
  · cases read

/-- Labels that are read have 1 to 63 octets, and at least one octet is taken for them. -/
theorem readLabels_eq_some {fuel start : ℕ} {name : Name} (read : readLabels msg fuel start input = some (name, rest)) :
    (∀ label ∈ name, 1 ≤ label.length ∧ label.length ≤ 63) ∧ rest.length < input.length := by
  induction fuel generalizing start input name rest with
  | zero => cases read
  | succ fuel ih =>
    rw [readLabels] at read
    obtain ⟨⟨first, behind⟩, byte, decided⟩ := Option.bind_eq_some_iff.mp read
    obtain rfl := readByte_eq_some byte
    dsimp only at decided
    split at decided
    · cases decided
      simp
    split at decided
    · next nonzero small =>
      obtain ⟨⟨label, afterLabel⟩, taken, others⟩ := Option.bind_eq_some_iff.mp decided
      obtain ⟨rfl, width⟩ := readBytes_eq_some taken
      obtain ⟨⟨labels, left⟩, following, same⟩ := Option.bind_eq_some_iff.mp others
      cases same
      obtain ⟨legal, shorter⟩ := ih following
      dsimp only at width shorter
      have low : first.toNat ≠ 0 := fun zero => nonzero (UInt8.toNat_inj.mp zero)
      have high : first.toNat < 64 := by simpa only [UInt8.lt_iff_toNat_lt, UInt8.reduceToNat] using small
      refine ⟨List.forall_mem_cons.mpr ⟨?_, legal⟩, ?_⟩
      · change 1 ≤ label.length ∧ label.length ≤ 63
        omega
      · simp only [List.length_cons, List.length_append]
        omega
    split at decided
    · obtain ⟨⟨second, afterPointer⟩, low, target⟩ := Option.bind_eq_some_iff.mp decided
      obtain rfl := readByte_eq_some low
      dsimp only at target
      split at target
      · obtain ⟨⟨labels, _⟩, following, same⟩ := Option.bind_eq_some_iff.mp target
        cases same
        refine ⟨(ih following).1, ?_⟩
        simp only [List.length_cons]
        omega
      · cases target
    · cases decided

/-- Where no prior occurrence can stand, right behind the header, labels are written out. -/
theorem readLabels_first {fuel start : ℕ} (first : start ≤ 12) {name : Name}
    (read : readLabels msg fuel start input = some (name, rest)) : input = wire name ++ rest := by
  induction fuel generalizing input name rest with
  | zero => cases read
  | succ fuel ih =>
    rw [readLabels] at read
    obtain ⟨⟨length, behind⟩, byte, decided⟩ := Option.bind_eq_some_iff.mp read
    obtain rfl := readByte_eq_some byte
    dsimp only at decided
    split at decided
    · next zero =>
      cases decided
      rw [zero]
      rfl
    split at decided
    · obtain ⟨⟨label, afterLabel⟩, taken, others⟩ := Option.bind_eq_some_iff.mp decided
      obtain ⟨rfl, width⟩ := readBytes_eq_some taken
      obtain ⟨⟨labels, left⟩, following, same⟩ := Option.bind_eq_some_iff.mp others
      cases same
      have written : afterLabel = wire labels ++ left := ih following
      rw [wire_cons, width, UInt8.ofNat_toNat, List.cons_append, List.append_assoc, written]
    split at decided
    · obtain ⟨⟨second, afterPointer⟩, _, target⟩ := Option.bind_eq_some_iff.mp decided
      dsimp only at target
      rw [if_neg (by omega)] at target
      cases target
    · cases decided

theorem readName_eq_some {name : Name} (read : readName msg input = some (name, rest)) :
    Legal name ∧ rest.length < input.length := by
  obtain ⟨read, total⟩ := Option.filter_eq_some_iff.mp read
  obtain ⟨labels, shorter⟩ := readLabels_eq_some read
  exact ⟨⟨labels, by simpa using total⟩, shorter⟩

/-- The root is written as a zero octet or as a pointer. -/
theorem readName_root (read : readName msg input = some ([], rest)) :
    input = 0 :: rest ∨ ∃ high low, 192 ≤ high ∧ input = high :: low :: rest := by
  have read := (Option.filter_eq_some_iff.mp read).1
  rw [readLabels] at read
  obtain ⟨⟨first, behind⟩, byte, decided⟩ := Option.bind_eq_some_iff.mp read
  obtain rfl := readByte_eq_some byte
  dsimp only at decided
  split at decided
  · next zero =>
    cases decided
    exact .inl (by rw [zero])
  split at decided
  · obtain ⟨⟨label, afterLabel⟩, _, others⟩ := Option.bind_eq_some_iff.mp decided
    obtain ⟨⟨labels, left⟩, _, same⟩ := Option.bind_eq_some_iff.mp others
    cases same
  split at decided
  · next pointer =>
    obtain ⟨⟨second, afterPointer⟩, low, target⟩ := Option.bind_eq_some_iff.mp decided
    obtain rfl := readByte_eq_some low
    dsimp only at target
    split at target
    · obtain ⟨⟨labels, _⟩, _, same⟩ := Option.bind_eq_some_iff.mp target
      cases same
      exact .inr ⟨first, second, pointer, rfl⟩
    · cases target
  · cases decided

theorem readQuestion_eq_some {question : Question} (read : readQuestion msg input = some (question, rest)) :
    Legal question.name ∧ rest.length + 5 ≤ input.length := by
  obtain ⟨⟨name, behind⟩, first, read⟩ := Option.bind_eq_some_iff.mp read
  obtain ⟨⟨qtype, behind'⟩, second, read⟩ := Option.bind_eq_some_iff.mp read
  obtain ⟨⟨qclass, behind''⟩, third, same⟩ := Option.bind_eq_some_iff.mp read
  cases same
  obtain ⟨legal, shorter⟩ := readName_eq_some first
  have second := congrArg List.length (read16_eq_some second)
  have third := congrArg List.length (read16_eq_some third)
  rw [List.length_append, be16_length] at second third
  exact ⟨legal, by omega⟩

/-- The first question of a message is written out in full. -/
theorem readQuestion_first (first : msg.length ≤ input.length + 12) {question : Question}
    (read : readQuestion msg input = some (question, rest)) : input = question.encode ++ rest := by
  obtain ⟨⟨name, behind⟩, named, read⟩ := Option.bind_eq_some_iff.mp read
  obtain ⟨⟨qtype, behind'⟩, second, read⟩ := Option.bind_eq_some_iff.mp read
  obtain ⟨⟨qclass, behind''⟩, third, same⟩ := Option.bind_eq_some_iff.mp read
  cases same
  have written := readLabels_first (by omega) (Option.filter_eq_some_iff.mp named).1
  obtain rfl : behind = be16 qtype ++ behind' := read16_eq_some second
  obtain rfl : behind' = be16 qclass ++ rest := read16_eq_some third
  simp [written, Question.encode]

/-- A record that is read is its owner and its body. -/
theorem readRecord_eq_some {record : Record} (read : readRecord msg input = some (record, rest)) :
    record.rdata.length ≤ 65535 ∧ readName msg input = some (record.owner, record.body ++ rest) := by
  obtain ⟨⟨owner, afterOwner⟩, first, read⟩ := Option.bind_eq_some_iff.mp read
  obtain ⟨⟨rtype, afterType⟩, second, read⟩ := Option.bind_eq_some_iff.mp read
  obtain ⟨⟨rclass, afterClass⟩, third, read⟩ := Option.bind_eq_some_iff.mp read
  obtain ⟨⟨ttl, afterTtl⟩, fourth, read⟩ := Option.bind_eq_some_iff.mp read
  obtain ⟨⟨rdlength, afterLength⟩, fifth, read⟩ := Option.bind_eq_some_iff.mp read
  obtain ⟨⟨rdata, afterData⟩, sixth, same⟩ := Option.bind_eq_some_iff.mp read
  cases same
  obtain rfl : afterOwner = be16 rtype ++ afterType := read16_eq_some second
  obtain rfl : afterType = be16 rclass ++ afterClass := read16_eq_some third
  obtain rfl : afterClass = be32 ttl ++ afterTtl := read32_eq_some fourth
  obtain rfl : afterTtl = be16 rdlength ++ afterLength := read16_eq_some fifth
  obtain ⟨shape, width⟩ := readBytes_eq_some sixth
  obtain rfl : afterLength = rdata ++ rest := shape
  have width : rdata.length = rdlength.toNat := width
  have small := rdlength.toNat_lt
  refine ⟨by change rdata.length ≤ 65535; omega, first.trans ?_⟩
  simp [Record.body, width]

/-- A record is its owner and ten octets at least. -/
theorem readRecord_length {record : Record} (read : readRecord msg input = some (record, rest)) :
    rest.length + 11 ≤ input.length := by
  have shorter := (readName_eq_some (readRecord_eq_some read).2).2
  simp only [Record.body, List.length_append, be16_length, be32_length] at shorter
  omega

/-- Items of a size at least take as many times the size. -/
theorem readMany_size {α : Type} {reader : Bytes → Option (α × Bytes)} {size : ℕ}
    (each : ∀ input item rest, reader input = some (item, rest) → rest.length + size ≤ input.length) {n : ℕ} {items : List α}
    (read : readMany reader n input = some (items, rest)) : rest.length + n * size ≤ input.length := by
  induction n generalizing input items with
  | zero =>
    cases read
    simp
  | succ n ih =>
    obtain ⟨⟨item, behind⟩, first, read⟩ := Option.bind_eq_some_iff.mp read
    obtain ⟨⟨others, left⟩, following, same⟩ := Option.bind_eq_some_iff.mp read
    cases same
    have here := each _ _ _ first
    have behind : rest.length + n * size ≤ behind.length := ih following
    rw [Nat.succ_mul]
    omega

theorem readMany_length {α : Type} {reader : Bytes → Option (α × Bytes)} {n : ℕ} {items : List α}
    (read : readMany reader n input = some (items, rest)) : items.length = n := by
  induction n generalizing input items with
  | zero =>
    cases read
    rfl
  | succ n ih =>
    obtain ⟨⟨item, behind⟩, _, read⟩ := Option.bind_eq_some_iff.mp read
    obtain ⟨⟨others, left⟩, following, same⟩ := Option.bind_eq_some_iff.mp read
    cases same
    rw [List.length_cons, ih following]

/-- The first item of a section is read where the section begins. -/
theorem readMany_cons {α : Type} {reader : Bytes → Option (α × Bytes)} {n : ℕ} {item : α} {items : List α}
    (read : readMany reader n input = some (item :: items, rest)) :
    ∃ behind, reader input = some (item, behind) ∧ readMany reader items.length behind = some (items, rest) := by
  cases n with
  | zero => cases read
  | succ n =>
    obtain ⟨⟨first, behind⟩, here, read⟩ := Option.bind_eq_some_iff.mp read
    obtain ⟨⟨others, after⟩, following, same⟩ := Option.bind_eq_some_iff.mp read
    cases same
    exact ⟨behind, here, by rw [readMany_length following]; exact following⟩

/-- A section without items takes nothing. -/
theorem readMany_nil {α : Type} {reader : Bytes → Option (α × Bytes)} {n : ℕ}
    (read : readMany reader n input = some ([], rest)) : input = rest := by
  cases n with
  | zero =>
    cases read
    rfl
  | succ n => cases (readMany_length read)

theorem readHeader_eq_some {header : Header} (read : readHeader input = some (header, rest)) : input = header.encode ++ rest := by
  obtain ⟨⟨id, i1⟩, first, read⟩ := Option.bind_eq_some_iff.mp read
  obtain ⟨⟨flags0, i2⟩, second, read⟩ := Option.bind_eq_some_iff.mp read
  obtain ⟨⟨flags1, i3⟩, third, read⟩ := Option.bind_eq_some_iff.mp read
  obtain ⟨⟨qdcount, i4⟩, fourth, read⟩ := Option.bind_eq_some_iff.mp read
  obtain ⟨⟨ancount, i5⟩, fifth, read⟩ := Option.bind_eq_some_iff.mp read
  obtain ⟨⟨nscount, i6⟩, sixth, read⟩ := Option.bind_eq_some_iff.mp read
  obtain ⟨⟨arcount, i7⟩, seventh, same⟩ := Option.bind_eq_some_iff.mp read
  cases same
  obtain rfl := read16_eq_some first
  obtain rfl := readByte_eq_some second
  obtain rfl := readByte_eq_some third
  obtain rfl := read16_eq_some fourth
  obtain rfl := read16_eq_some fifth
  obtain rfl := read16_eq_some sixth
  obtain rfl := read16_eq_some seventh
  rfl

/-- How a message was read: section by section behind its header, to the end. -/
structure ReadAs (octets : Bytes) (msg : Message) : Prop where
  header : octets = msg.header.encode ++ octets.drop 12
  sections : ∃ behindQuestions behindAnswers behindAuthority,
    readMany (readQuestion octets) msg.header.qdcount.toNat (octets.drop 12) = some (msg.questions, behindQuestions) ∧
    readMany (readRecord octets) msg.header.ancount.toNat behindQuestions = some (msg.answers, behindAnswers) ∧
    readMany (readRecord octets) msg.header.nscount.toNat behindAnswers = some (msg.authority, behindAuthority) ∧
    readMany (readRecord octets) msg.header.arcount.toNat behindAuthority = some (msg.additional, [])

theorem readAs_of_decode {octets : Bytes} {msg : Message} (decoded : decode octets = some msg) : ReadAs octets msg := by
  obtain ⟨⟨header, body⟩, first, read⟩ := Option.bind_eq_some_iff.mp decoded
  have shape := readHeader_eq_some first
  have behind : octets.drop 12 = body := by rw [shape, ← header.encode_length, List.drop_left]
  obtain ⟨⟨questions, b1⟩, second, read⟩ := Option.bind_eq_some_iff.mp read
  obtain ⟨⟨answers, b2⟩, third, read⟩ := Option.bind_eq_some_iff.mp read
  obtain ⟨⟨authority, b3⟩, fourth, read⟩ := Option.bind_eq_some_iff.mp read
  obtain ⟨⟨additional, b4⟩, fifth, read⟩ := Option.bind_eq_some_iff.mp read
  dsimp only at *
  split at read
  · next all =>
    cases read
    subst all
    rw [← behind] at shape second
    exact ⟨shape, b1, b2, b3, second, third, fourth, fifth⟩
  · cases read

end Dns
