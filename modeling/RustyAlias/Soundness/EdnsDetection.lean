import RustyAlias.Dns.Sections
import RustyAlias.Proofs.StandardQuery

/-! # Which OPT record is found

The client's OPT record is looked for right behind the question. That is where it stands in a message
without answers and authority, but a message may have records before its additional section.
-/

namespace RustyAlias

open Rust Rust.Outcome Dns

/-- The UDP size and the DO bit, if the record is an OPT record of the root. -/
def optFields (r : Record) : Option (ℕ × Bool) :=
  if r.owner = [] ∧ r.rtype = typeOpt then some (max 512 r.rclass.toNat, r.ttl.toNat.testBit 15) else none

/-- What the first additional record says. -/
def clientOpt (msg : Message) : Option (ℕ × Bool) := msg.additional.head?.bind optFields

/-- What the first record of any section says, if its owner is written as a zero octet. -/
def nextOpt (query : Bytes) (msg : Message) : Option (ℕ × Bool) :=
  if query[12 + (msg.questions.flatMap Question.encode).length]? = some 0 then
    (msg.answers ++ msg.authority ++ msg.additional).head?.bind optFields
  else none

section Fields

private theorem testBit_eq (flags : UInt16) : (flags &&& 0x8000 != 0) = flags.toNat.testBit 15 := by
  have high : (0x8000 : UInt16).toNat = 2 ^ 15 := by decide
  have mask : (flags &&& 0x8000).toNat = (flags.toNat.testBit 15).toNat * 2 ^ 15 := by
    rw [UInt16.toNat_and, high, Nat.and_two_pow]
  rw [Bool.eq_iff_iff, bne_iff_ne, ne_eq, ← UInt16.toNat_inj, mask]
  cases flags.toNat.testBit 15 <;> decide

/-- The flags stand in the lower half of the TTL. -/
theorem low_testBit (ttl : UInt32) :
    (fromBe16 (UInt8.ofNat (ttl.toNat / 2 ^ 8)) (UInt8.ofNat ttl.toNat)).toNat.testBit 15 = ttl.toNat.testBit 15 := by
  have low : (fromBe16 (UInt8.ofNat (ttl.toNat / 2 ^ 8)) (UInt8.ofNat ttl.toNat)).toNat = ttl.toNat % 2 ^ 16 := by
    simp only [fromBe16, UInt16.toNat_ofNat', UInt8.toNat_ofNat']
    omega
  rw [low, Nat.testBit_mod_two_pow]
  simp

/-- The fixed offsets hold the fields of a record whose owner is written as a zero octet. -/
theorem fixed_eq_optFields {msg rest left : Bytes} {r : Record} (read : readRecord msg rest = some (r, left)) :
    (if 11 ≤ rest.length ∧ rest.getD 0 0 = 0 ∧ rest.getD 1 0 = 0 ∧ rest.getD 2 0 = 0x29 then
      some (max (fromBe16 (rest.getD 3 0) (rest.getD 4 0)).toNat 512,
        fromBe16 (rest.getD 7 0) (rest.getD 8 0) &&& 0x8000 != 0)
    else none) = if rest.head? = some 0 then optFields r else none := by
  obtain ⟨_, named⟩ := readRecord_eq_some read
  cases rest with
  | nil => exact absurd (readRecord_length read) (by simp)
  | cons b others =>
    by_cases zero : b = 0
    · subst zero
      have root : readName msg (wire [] ++ others) = some ([], others) := readName_wire ⟨by simp, by simp⟩ others
      obtain ⟨owner, rfl⟩ : [] = r.owner ∧ others = r.body ++ left := by simpa using root.symm.trans named
      have typed : (UInt8.ofNat (r.rtype.toNat / 256) = 0 ∧ UInt8.ofNat r.rtype.toNat = 0x29) ↔ r.rtype = typeOpt := by
        constructor
        · rintro ⟨high, low⟩
          rw [← fromBe16_be16 r.rtype, high, low]
          decide
        · intro same
          rw [same]
          decide
      have long : 11 ≤ (0 :: (r.body ++ left)).length := by simp [Record.body]; omega
      simp only [long, true_and, optFields, ← owner, List.head?_cons, if_true]
      simp only [Record.body, be16, be32, List.cons_append, List.nil_append, List.getD_cons_zero,
        List.getD_cons_succ, true_and, typed, fromBe16_be16, testBit_eq, low_testBit, Nat.max_comm]
    · simp [zero]

end Fields

section Records

variable {octets input left : Bytes}

/-- The first record of any section stands behind the question. -/
theorem first_record {msg : Message} {n m k : ℕ} {behindAnswers behindAuthority : Bytes} {r : Record}
    (answers : readMany (readRecord octets) n input = some (msg.answers, behindAnswers))
    (authority : readMany (readRecord octets) m behindAnswers = some (msg.authority, behindAuthority))
    (additional : readMany (readRecord octets) k behindAuthority = some (msg.additional, left))
    (first : (msg.answers ++ msg.authority ++ msg.additional).head? = some r) :
    ∃ behind, readRecord octets input = some (r, behind) := by
  cases one : msg.answers with
  | cons a others =>
    rw [one] at answers first
    obtain rfl : a = r := by simpa using first
    obtain ⟨behind, here, _⟩ := readMany_cons answers
    exact ⟨behind, here⟩
  | nil =>
    rw [one] at answers first
    obtain rfl := readMany_nil answers
    cases two : msg.authority with
    | cons a others =>
      rw [two] at authority first
      obtain rfl : a = r := by simpa using first
      obtain ⟨behind, here, _⟩ := readMany_cons authority
      exact ⟨behind, here⟩
    | nil =>
      rw [two] at authority first
      obtain rfl := readMany_nil authority
      cases three : msg.additional with
      | cons a others =>
        rw [three] at additional first
        obtain rfl : a = r := by simpa using first
        obtain ⟨behind, here, _⟩ := readMany_cons additional
        exact ⟨behind, here⟩
      | nil =>
        rw [three] at first
        cases first

end Records

section Query

variable {query : Slice} {msg : Message} {question : Question} (decoded : decode query.data = some msg)
  (single : msg.questions = [question]) (zeroless : ∀ label ∈ question.name, 0 ∉ label)
include decoded single zeroless

/-- The code finds the first record of any section, if the client announces additional records. -/
theorem parseQueryOpt_decoded :
    parseQueryOpt query = .ok (if msg.additional = [] then none else nextOpt query.data msg) := by
  have read := readAs_of_decode decoded
  obtain ⟨behindQuestions, behindAnswers, behindAuthority, questions, answers, authority, additional⟩ := read.sections
  have count := readMany_length questions
  rw [single, List.length_singleton] at count
  rw [single, ← count] at questions
  obtain ⟨left, first, none⟩ := readMany_cons questions
  obtain rfl := readMany_nil none
  have legal := (readQuestion_eq_some first).1
  have shape := (readQuestion_first (by rw [List.length_drop]; omega) first).symm
  obtain ⟨split, parts, qname, _, _, rest, _⟩ := exists_split_of_question legal zeroless shape.symm
  have header : queryHeader query.data = msg.header := by rw [read.header, queryHeader_encode]
  have announced : fromBe16 (query.data.getD 10 0) (query.data.getD 11 0) = 0 ↔ msg.additional = [] := by
    change (queryHeader query.data).arcount = 0 ↔ _
    rw [header, ← List.length_eq_zero_iff, readMany_length additional, ← UInt16.toNat_inj]
    rfl
  rw [parseQueryOpt_eq, queryOpt?]
  simp only [announced]
  by_cases none : msg.additional = []
  · rw [if_pos none, if_pos none]
  obtain ⟨r, first⟩ : ∃ r, (msg.answers ++ msg.authority ++ msg.additional).head? = some r := by
    cases records : msg.answers ++ msg.authority ++ msg.additional with
    | nil => exact absurd (List.append_eq_nil_iff.mp records).2 none
    | cons r others => exact ⟨r, rfl⟩
  obtain ⟨behind, here⟩ := first_record answers authority additional first
  have next : query.data[12 + (msg.questions.flatMap Question.encode).length]? = left.head? := by
    rw [← List.getElem?_drop, ← shape, single, List.flatMap_cons, List.flatMap_nil, List.append_nil,
      List.getElem?_append_right (Nat.le_refl _), Nat.sub_self, List.head?_eq_getElem?]
  have ends : questionEnd? query.data = some split.stop := by rw [parts, split.questionEnd?_eq]
  have behindQuestion : query.data.drop split.stop = left := by rw [parts, split.drop_stop, rest]
  rw [if_neg none, if_neg none, ends, Option.bind_some, behindQuestion, fixed_eq_optFields here, nextOpt, next, first]
  rfl

end Query

/-- The OPT record that is found is the client's, unless records stand in front of the additional section or the root is
written as a pointer; it may be by chance even then. -/
theorem parseQueryOpt_iff {query : Slice} {msg : Message} {question : Question} (decoded : decode query.data = some msg)
    (single : msg.questions = [question]) (zeroless : ∀ label ∈ question.name, 0 ∉ label) :
    parseQueryOpt query = .ok (clientOpt msg) ↔ msg.additional = [] ∨ nextOpt query.data msg = clientOpt msg := by
  rw [parseQueryOpt_decoded decoded single zeroless]
  by_cases none : msg.additional = []
  · rw [if_pos none]
    refine iff_of_true ?_ (.inl none)
    rw [clientOpt, none]
    rfl
  · rw [if_neg none, Except.ok.injEq, or_iff_right none]

/-- The OPT record of a query with the DO bit, behind a record of the authority section or not. -/
def notifyQuery (records : Bytes) (nscount : UInt16) : Bytes :=
  (Header.encode ⟨7, 1, 0, 1, 0, nscount, 1⟩) ++ [3, 110, 105, 112, 2, 110, 117, 0, 0, 1, 0, 1] ++ records ++
    [0, 0, 41, 4, 208, 0, 0, 128, 0, 0, 0]

theorem plainOpt_found :
    ∃ msg, decode (notifyQuery [] 0) = some msg ∧
      (parseQueryOpt ⟨notifyQuery [] 0, by decide⟩ = .ok (clientOpt msg) ↔
        msg.additional = [] ∨ nextOpt (notifyQuery [] 0) msg = clientOpt msg) := by
  let question : Question := ⟨[[110, 105, 112], [110, 117]], 1, 1⟩
  let msg : Message := ⟨⟨7, 1, 0, 1, 0, 0, 1⟩, [question], [], [], [⟨[], 41, 1232, 0x8000, []⟩]⟩
  have decoded : decode (notifyQuery [] 0) = some msg := by decide +kernel
  exact ⟨msg, decoded, @parseQueryOpt_iff _ msg question decoded rfl (by decide)⟩

/-- Behind an address record in the authority section the OPT record is not found. -/
theorem notifyOpt_missed :
    ∃ msg, decode (notifyQuery [192, 12, 0, 1, 0, 1, 0, 0, 0, 0, 0, 4, 10, 0, 0, 1] 1) = some msg ∧
      msg.header.qdcount = 1 ∧ clientOpt msg = some (1232, true) ∧
      parseQueryOpt ⟨notifyQuery [192, 12, 0, 1, 0, 1, 0, 0, 0, 0, 0, 4, 10, 0, 0, 1] 1, by decide⟩ = .ok none := by
  let name : Name := [[110, 105, 112], [110, 117]]
  refine ⟨⟨⟨7, 1, 0, 1, 0, 1, 1⟩, [⟨name, 1, 1⟩], [], [⟨name, 1, 1, 0, [10, 0, 0, 1]⟩], [⟨[], 41, 1232, 0x8000, []⟩]⟩,
    ?_, rfl, ?_, ?_⟩
  · decide +kernel
  · decide +kernel
  · decide +kernel

end RustyAlias
