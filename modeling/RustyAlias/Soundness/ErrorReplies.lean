import RustyAlias.Dns.Sections
import RustyAlias.Soundness.Amplification

/-! # Errors and truncated replies as messages

A reply without records echoes the question count of the query and the octets up to four behind the
first zero octet. These agree when the query announces one question and carries it as a legal name
without zero octets in its labels, or when it has no question and announces none.
-/

namespace RustyAlias

open Rust Rust.Outcome Dns

/-- The octets decode to questions and OPT records of the root; the counts tell how many there are. -/
structure Consistent (octets : Bytes) (msg : Message) : Prop where
  decoded : decode octets = some msg
  qdcount : msg.header.qdcount.toNat = msg.questions.length
  ancount : msg.header.ancount = 0
  nscount : msg.header.nscount = 0
  arcount : msg.header.arcount.toNat = msg.additional.length
  opts : ∀ rr ∈ msg.additional, rr.owner = [] ∧ rr.rtype = typeOpt

/-- The query announces one question and carries it whole, or has none and announces none. -/
def WholeQuestion (query : Slice) : Prop :=
  (queryHeader query.data).qdcount = 0 ∧ questionSectionEnd query = .ok none ∨
    (queryHeader query.data).qdcount = 1 ∧ ∃ question : Question, Legal question.name ∧
      (∀ label ∈ question.name, 0 ∉ label) ∧ question.encode <+: query.data.drop 12

private theorem question_encode_length (q : Question) : q.encode.length = (encodeLabels q.name).length + 5 := by
  simp [Question.encode, wire]

section Octets

variable {qname : Bytes} (clean : (0 : UInt8) ∉ qname)
include clean

/-- What is cut at a zero octet behind the first one is longer in front. -/
theorem length_lt_of_zero {b x y : Bytes} (same : qname ++ 0 :: x = b ++ 0 :: y) (zero : (0 : UInt8) ∈ b) :
    qname.length < b.length := by
  by_contra short
  obtain ⟨rest, rfl⟩ : b <+: qname :=
    List.prefix_of_prefix_length_le (same ▸ List.prefix_append b (0 :: y)) (List.prefix_append qname (0 :: x)) (by omega)
  exact clean (List.mem_append_left _ zero)

omit clean in
/-- RDLENGTH leaves room for no more than what follows it. -/
theorem rdlength_le {rdata rest left : Bytes} {fields : Bytes} {x0 x1 x2 x3 x4 x5 x6 x7 high low : UInt8}
    (fits : rdata.length ≤ 65535) (width : fields.length = 8)
    (same : x0 :: x1 :: x2 :: x3 :: x4 :: x5 :: x6 :: x7 :: high :: low :: left =
      fields ++ (be16 (UInt16.ofNat rdata.length) ++ (rdata ++ rest))) : high.toNat * 256 ≤ left.length := by
  have split : [x0, x1, x2, x3, x4, x5, x6, x7] ++ high :: low :: left =
      fields ++ (be16 (UInt16.ofNat rdata.length) ++ (rdata ++ rest)) := same
  obtain ⟨_, tail⟩ := List.append_inj split (by simp [width])
  have octet : (UInt16.ofNat rdata.length).toNat = rdata.length := by simp only [UInt16.toNat_ofNat']; omega
  simp only [be16, octet, List.cons_append, List.nil_append, List.cons.injEq] at tail
  obtain ⟨rfl, _, rfl⟩ := tail
  rw [List.length_append, UInt8.toNat_ofNat']
  omega

/-- The echoed question does not read as an OPT record of the root together with the server's OPT record. -/
private theorem question_not_opt {msg rest : Bytes} {t0 t1 c0 c1 : UInt8} {dnssecOk : Bool} {record : Record}
    (read : readRecord msg (qname ++ 0 :: t0 :: t1 :: c0 :: c1 :: optRr dnssecOk) = some (record, rest)) :
    ¬ (record.owner = [] ∧ record.rtype = typeOpt) := by
  rintro ⟨root, opt⟩
  obtain ⟨fits, named⟩ := readRecord_eq_some read
  obtain ⟨high, low, octets⟩ : ∃ high low, optRr dnssecOk = [0, 0, 41, 4, 208, 0, 0, high, low, 0, 0] := by
    cases dnssecOk
    · exact ⟨0, 0, rfl⟩
    · exact ⟨128, 0, rfl⟩
  have body : record.body ++ rest = (0 :: 41 :: (be16 record.rclass ++ be32 record.ttl)) ++
      (be16 (UInt16.ofNat record.rdata.length) ++ (record.rdata ++ rest)) := by
    rw [Record.body, opt]
    simp [be16, typeOpt]
  have width : (0 :: 41 :: (be16 record.rclass ++ be32 record.ttl)).length = 8 := rfl
  rw [root, octets] at named
  have fixed (same : t0 :: t1 :: c0 :: c1 :: [0, 0, 41, 4, 208, 0, 0, high, low, 0, 0] = record.body ++ rest) : False := by
    have room := rdlength_le fits width (same.trans body)
    simp at room
  rcases readName_root named with zero | ⟨first, second, pointer, shape⟩
  · cases qname with
    | nil => exact fixed (List.cons.inj zero).2
    | cons a others =>
      obtain rfl : a = 0 := (List.cons.inj zero).1
      exact clean (List.mem_cons_self ..)
  · rcases qname with _ | ⟨a, _ | ⟨b, _ | ⟨c, others⟩⟩⟩
    · obtain rfl : 0 = first := (List.cons.inj shape).1
      exact absurd pointer (by decide)
    · exact fixed (List.cons.inj (List.cons.inj shape).2).2
    · have room := rdlength_le fits width ((List.cons.inj (List.cons.inj shape).2).2.trans body)
      simp at room
    · obtain rfl : c = 0 := (List.cons.inj ((List.cons.inj (List.cons.inj shape).2).2.trans body)).1
      exact clean (by simp)

end Octets

/-- A message without records, but for the server's OPT record. -/
def bare (header : Header) (question : Bytes) (opt : Option Bool) : Bytes := layout header question ⟨[], [], []⟩ opt

private theorem bare_eq (header : Header) (question : Bytes) (opt : Option Bool) : bare header question opt =
    (withCounts header ⟨[], [], []⟩ opt).encode ++ (question ++ opt.toList.flatMap optRr) := by
  simp [bare, layout, recordOctets]

private theorem bare_drop (header : Header) (question : Bytes) (opt : Option Bool) :
    (bare header question opt).drop 12 = question ++ opt.toList.flatMap optRr := by
  rw [bare_eq, ← Header.encode_length, List.drop_left]

section Bare

variable {header : Header}

/-- One question, written out in full. -/
theorem consistent_question (single : header.qdcount = 1) {question : Question} (legal : Legal question.name)
    (opt : Option Bool) : ∃ msg, Consistent (bare header question.encode opt) msg := by
  have few : opt.toList.length ≤ 1 := by cases opt <;> simp
  have holds := holds_layout single legal (Queues.all_mk (by simp) (by simp) (by simp) : Queues.All Rr.Legible ⟨[], [], []⟩) opt
  have decoded := holds.decode (by simp [message]) (by simp [message]) (by simp [message]) (by simp [message]; omega)
  refine ⟨_, decoded, ?_, rfl, rfl, ?_, ?_⟩
  · simp [message, withCounts, single]
  · simp only [message, withCounts, count, List.map_nil, List.nil_append, List.length_map, List.length_nil, UInt16.toNat_ofNat']
    omega
  · intro rr member
    simp only [message, List.map_nil, List.nil_append] at member
    obtain ⟨dnssecOk, _, rfl⟩ := List.mem_map.mp member
    exact ⟨rfl, rfl⟩

/-- No question, and none announced. -/
theorem consistent_nothing (unasked : header.qdcount = 0) : ∃ msg, Consistent (bare header [] none) msg := by
  refine ⟨⟨withCounts header ⟨[], [], []⟩ none, [], [], [], []⟩, ?_, ?_, rfl, rfl, rfl, by simp⟩
  · rw [bare_eq, Dns.decode, readHeader_encode]
    simp only [withCounts, count, unasked, Option.bind_eq_bind, Option.bind_some]
    rfl
  · change header.qdcount.toNat = 0
    rw [unasked]
    rfl

/-- The header that is read is the header that was written. -/
theorem bare_header {question : Bytes} {opt : Option Bool} {msg : Message} (read : ReadAs (bare header question opt) msg) :
    msg.header = withCounts header ⟨[], [], []⟩ opt := by
  have written := queryHeader_encode msg.header ((bare header question opt).drop 12)
  rw [← read.header, bare_eq, queryHeader_encode] at written
  exact written.symm

/-- Behind the questions of a consistent message its OPT records are read to the end. -/
theorem bare_sections {question : Bytes} {opt : Option Bool} {msg : Message} (consistent : Consistent (bare header question opt) msg) :
    ∃ left, readMany (readQuestion (bare header question opt)) msg.questions.length
        (question ++ opt.toList.flatMap optRr) = some (msg.questions, left) ∧
      readMany (readRecord (bare header question opt)) opt.toList.length left = some (msg.additional, []) := by
  have read := readAs_of_decode consistent.decoded
  have same := bare_header read
  obtain ⟨behindQuestions, behindAnswers, behindAuthority, questions, answers, authority, additional⟩ := read.sections
  rw [consistent.qdcount, bare_drop] at questions
  rw [consistent.ancount] at answers
  rw [consistent.nscount] at authority
  obtain ⟨_, rfl⟩ : [] = msg.answers ∧ behindQuestions = behindAnswers := by simpa [readMany] using answers
  obtain ⟨_, rfl⟩ : [] = msg.authority ∧ behindQuestions = behindAuthority := by simpa [readMany] using authority
  have arcount : msg.header.arcount.toNat = opt.toList.length := by
    rw [same]
    cases opt <;> rfl
  rw [arcount] at additional
  exact ⟨behindQuestions, questions, additional⟩

/-- What is left for as many OPT records is at least as long as these. -/
theorem optRr_length_le {msg left : Bytes} {opt : Option Bool} {records : List Record}
    (read : readMany (readRecord msg) opt.toList.length left = some (records, [])) :
    (opt.toList.flatMap optRr).length ≤ left.length := by
  have size := readMany_size (fun _ _ _ first => readRecord_length first) read
  cases opt with
  | none => exact Nat.zero_le _
  | some dnssecOk =>
    have octets : ((some dnssecOk).toList.flatMap optRr).length = 11 := by simp [optRr_length]
    change 0 + 1 * 11 ≤ left.length at size
    omega

/-- The echoed question is not left to the OPT records. -/
theorem question_not_left {split : Split} {msg left : Bytes} {opt : Option Bool} {records : List Record}
    (opts : ∀ rr ∈ records, rr.owner = [] ∧ rr.rtype = typeOpt)
    (read : readMany (readRecord msg) opt.toList.length left = some (records, [])) :
    split.question ++ opt.toList.flatMap optRr ≠ left := by
  have clean : (0 : UInt8) ∉ split.qname := fun zero => split.nonzero 0 zero rfl
  rintro rfl
  cases opt with
  | none =>
    have length := congrArg (Option.map fun pair => pair.2.length) read
    simp [readMany, split.question_length] at length
  | some dnssecOk =>
    obtain ⟨⟨record, behind⟩, first, others⟩ := Option.bind_eq_some_iff.mp read
    have shape : split.question ++ (some dnssecOk).toList.flatMap optRr = split.qname ++ 0 ::
        UInt8.ofNat (split.qtype.toNat / 256) :: UInt8.ofNat split.qtype.toNat ::
          UInt8.ofNat (split.qclass.toNat / 256) :: UInt8.ofNat split.qclass.toNat :: optRr dnssecOk := by
      simp [Split.question, be16]
    rw [shape] at first
    obtain ⟨rfl, _⟩ : records = [record] ∧ behind = [] := by simpa [readMany, eq_comm] using others
    exact question_not_opt clean first (opts record (List.mem_singleton_self _))

/-- Where a question and as many octets as are written for OPT records fill the message, it is the echoed one. -/
theorem question_only {split : Split} {q : Question} {opts left : Bytes} (shape : split.question ++ opts = q.encode ++ left)
    (room : opts.length ≤ left.length) :
    left.length = opts.length ∧ split.qname = encodeLabels q.name ∧ ∀ label ∈ q.name, 0 ∉ label := by
  have clean : (0 : UInt8) ∉ split.qname := fun zero => split.nonzero 0 zero rfl
  have length := congrArg List.length shape
  simp only [List.length_append, split.question_length, question_encode_length] at length
  have cut : split.qname ++ 0 :: (be16 split.qtype ++ be16 split.qclass ++ opts) =
      encodeLabels q.name ++ 0 :: (be16 q.qtype ++ be16 q.qclass ++ left) := by
    simpa [Split.question, Question.encode, wire] using shape
  have zeroless : (0 : UInt8) ∉ encodeLabels q.name := fun zero => by
    have longer := length_lt_of_zero clean cut zero
    omega
  have named := (first_zero cut clean zeroless).1
  refine ⟨by rw [named] at length; omega, named, fun label member zero => zeroless ?_⟩
  exact List.mem_flatMap.mpr ⟨label, member, List.mem_cons_of_mem _ zero⟩

end Bare

section Reply

variable {query : Slice} {header : Header} (same : header.qdcount = (queryHeader query.data).qdcount) {opt : Option Bool}
include same

/-- A consistent message echoes a whole question or none. -/
theorem wholeQuestion_of_consistent (ends : questionEnd? query.data = none → opt = none) {msg : Message}
    (consistent : Consistent (bare header (questionOf query.data) opt) msg) : WholeQuestion query := by
  have header_eq := bare_header (readAs_of_decode consistent.decoded)
  have count : (queryHeader query.data).qdcount.toNat = msg.questions.length := by
    rw [← consistent.qdcount, header_eq, ← same]
    rfl
  obtain ⟨left, asked, additional⟩ := bare_sections consistent
  have room := optRr_length_le additional
  cases found : questionEnd? query.data with
  | none =>
    rw [ends found, questionOf, found] at asked
    have size := readMany_size (fun _ _ _ read => (readQuestion_eq_some read).2) asked
    have empty : msg.questions.length = 0 := by
      simp only [Option.map_none, Option.getD_none, Option.toList_none, List.flatMap_nil, List.append_nil, List.length_nil] at size
      omega
    rw [empty] at count
    exact .inl ⟨UInt16.toNat_inj.mp count, by rw [questionSectionEnd_eq, found]⟩
  | some stop =>
    obtain ⟨split, parts, rfl⟩ := exists_split found
    rw [questionOf_split parts] at asked additional
    cases questions : msg.questions with
    | nil =>
      rw [questions] at asked
      exact absurd (readMany_nil asked) (question_not_left consistent.opts additional)
    | cons q others =>
      rw [questions] at asked
      obtain ⟨behind, first, more⟩ := readMany_cons asked
      have shape := readQuestion_first (by rw [← bare_drop header, List.length_drop]; omega) first
      have size := readMany_size (fun _ _ _ read => (readQuestion_eq_some read).2) more
      obtain ⟨filled, named, zeroless⟩ := question_only shape (by omega)
      have alone : others.length = 0 := by omega
      refine .inr ⟨UInt16.toNat_inj.mp (by rw [count, questions, List.length_cons, alone]; rfl),
        ⟨q.name, split.qtype, split.qclass⟩, (readQuestion_eq_some first).1, zeroless, ?_⟩
      rw [parts, split.drop_header, Split.question, named]
      exact ⟨split.rest, by simp [Question.encode, wire]⟩

private theorem bare_consistent_iff (ends : questionEnd? query.data = none → opt = none) :
    (∃ msg, Consistent (bare header (questionOf query.data) opt) msg) ↔ WholeQuestion query := by
  constructor
  · rintro ⟨msg, consistent⟩
    exact wholeQuestion_of_consistent same ends consistent
  · rintro (⟨unasked, unread⟩ | ⟨single, question, legal, zeroless, rest, shape⟩)
    · have none : questionEnd? query.data = none := by simpa [questionSectionEnd_eq] using unread
      rw [ends none, questionOf, none]
      exact consistent_nothing (same.trans unasked)
    · obtain ⟨split, parts, _, _, _, _, octets⟩ := exists_split_of_question legal zeroless shape.symm
      have echoed : questionOf query.data = question.encode := by rw [questionOf_split parts, octets]
      rw [echoed]
      exact consistent_question (same.trans single) legal opt

end Reply

/-- An error, and any truncated reply, is a consistent message when the query carries its question whole. -/
theorem replies_consistent_iff (clock : Clock) (query : Slice) (config : Config) :
    ∃ response, handleQueryInternal clock query config = .ok response ∧
      (response ≠ [] → (queryHeader response).rcode = 5 ∨ (queryHeader response).rcode = 4 →
        ((∃ msg, Consistent response msg) ↔ WholeQuestion query)) ∧
      ∃ sent, maybeTruncateUdp response query = .ok sent ∧
        (sent ≠ response → ((∃ msg, Consistent sent msg) ↔ WholeQuestion query)) := by
  refine ⟨_, handleQueryInternal_eq .., ?_⟩
  cases answered : reply query config with
  | none =>
    refine ⟨fun some => absurd rfl some, [], ?_, fun changed => absurd rfl changed⟩
    have short : ([] : Bytes).length ≤ udpLimit query.data := Nat.zero_le _
    rw [maybeTruncateUdp, udpResponseLimit_eq, ok_bind, Option.map_none, Option.getD_none, if_pos short]
    rfl
  | some result =>
    rw [Option.map_some, Option.getD_some]
    constructor
    · intro _ refused
      rw [queryHeader_render] at refused
      obtain ⟨_, ⟨rcode, rfl⟩ | ⟨params, queues, rfl⟩⟩ := reply_shape answered
      · have written : render clock query.data (paramsOf query.data config) (.error rcode) =
            bare (replyHeader query.data false rcode) (questionOf query.data) (optOf query.data false) := rfl
        have echoed : (replyHeader query.data false rcode).qdcount = (queryHeader query.data).qdcount := rfl
        rw [written]
        refine bare_consistent_iff echoed fun none => ?_
        rw [optOf, queryOpt?, none]
        simp
      · have noerror : (replyHeader query.data true rcodeNoerror).rcode = 0 := (replyHeader_rcode query.data true (by decide)).2
        change (replyHeader query.data true rcodeNoerror).rcode = 5 ∨ (replyHeader query.data true rcodeNoerror).rcode = 4 at refused
        rw [noerror] at refused
        omega
    · rw [render_eq, maybeTruncateUdp_eq]
      refine ⟨_, rfl, fun changed => ?_⟩
      split at changed
      · exact absurd rfl changed
      · next cut =>
        rw [if_neg cut, truncate]
        have echoed (h : Header) : (truncatedHeader query.data h).qdcount = (queryHeader query.data).qdcount := rfl
        exact bare_consistent_iff (echoed _) fun none => absurd (.inr none) cut

/-- A header alone, of OPCODE 2, that announces a question. -/
def headerQuery : Slice := ⟨[0, 7, 16, 0, 0, 1, 0, 0, 0, 0, 0, 0], by decide⟩

/-- The reply announces the question, too, and has none. -/
theorem headerQuery_inconsistent :
    ∃ response, handleQueryInternal (fun _ => some 0) headerQuery sampleConfig = .ok response ∧ response ≠ [] ∧
      (queryHeader response).rcode = 4 ∧ decode response = none ∧ ¬ ∃ msg, Consistent response msg := by
  have undecoded : decode [0, 7, 144, 4, 0, 1, 0, 0, 0, 0, 0, 0] = none := by decide
  refine ⟨[0, 7, 144, 4, 0, 1, 0, 0, 0, 0, 0, 0], by decide +kernel, by decide, by decide, undecoded, ?_⟩
  rintro ⟨msg, consistent⟩
  have decoded := consistent.decoded
  rw [undecoded] at decoded
  cases decoded

end RustyAlias
