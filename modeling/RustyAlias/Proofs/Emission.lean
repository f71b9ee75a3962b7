import RustyAlias.Proofs.Records

/-! # The emission loops write what they should

Each loop of `response.rs` is followed on a buffer that consists of an encoded header and a body:
grouping agrees with `rrsets`, a written record bumps one count and extends the body, and a finished
message is the `layout` of its emitted records.
-/

namespace RustyAlias

open Rust Rust.Outcome Dns

theorem ownerEq_iff (a b : Owner) : ownerEq a b = true ↔ ownerKey a = ownerKey b := by
  cases a <;> cases b <;>
    simp [ownerEq, ownerKey, namesEq, Str.eqIgnoreAsciiCase, eqIgnoreCase, trimmed]

/-- Growing the groups record by record gives the RRsets. -/
theorem pushGroup_rrsets (rrs : List Rr) (rr : Rr) : pushGroup (rrsets rrs) rr = .ok (rrsets (rrs ++ [rr])) := by
  rcases List.eq_nil_or_concat (rrsets rrs) with none | ⟨front, last, before⟩
  · have flat := List.runs_flatten Rr.setKey rrs
    obtain rfl : rrs = [] := by rw [← flat]; exact congrArg List.flatten none
    rfl
  · rw [List.concat_eq_append] at before
    have member : last ∈ rrs.runs Rr.setKey := by change last ∈ rrsets rrs; simp [before]
    have some := List.runs_ne_nil member
    obtain ⟨head, rest, rfl⟩ := List.exists_cons_of_ne_nil some
    rw [pushGroup, before]
    simp only [List.getLast?_append, List.getLast?_singleton, Option.some_or, index_cons_zero, ok_bind,
      List.dropLast_concat]
    by_cases same : head.setKey = rr.setKey
    · have owner : ownerEq head.owner rr.owner = true := (ownerEq_iff ..).mpr (congrArg Prod.fst same)
      have typ : head.typ = rr.typ := congrArg Prod.snd same
      rw [if_pos (by simp [owner, typ]), rrsets, List.runs_concat_same before (a := head) (by simp) same]
      rfl
    · rw [if_neg, rrsets, List.runs_concat_other before (a := head) (by simp) same]
      · rw [← before]; rfl
      · intro equal
        simp only [Bool.and_eq_true, ownerEq_iff, beq_iff_eq] at equal
        exact same (Prod.ext equal.1 equal.2)

theorem groupRrs_eq (rrs : List Rr) : groupRrs rrs = .ok (rrsets rrs) := by
  suffices following : ∀ done, rrs.foldlM pushGroup (rrsets done) = .ok (rrsets (done ++ rrs)) from following []
  intro done
  induction rrs generalizing done with
  | nil => rw [List.append_nil]; rfl
  | cons rr rest ih =>
    rw [List.foldlM_cons, pushGroup_rrsets, ok_bind, ih, List.append_assoc]
    rfl

/-- The sections that records are counted in. -/
inductive Section where
  | answer
  | authority
  | additional

namespace Section

def offset : Section → ℕ
  | answer => offsetAncount
  | authority => offsetNscount
  | additional => offsetArcount

/-- The header with `n` more records in the section. -/
def add (s : Section) (n : ℕ) (h : Header) : Header :=
  match s with
  | answer => { h with ancount := count (h.ancount.toNat + n) }
  | authority => { h with nscount := count (h.nscount.toNat + n) }
  | additional => { h with arcount := count (h.arcount.toNat + n) }

end Section

theorem count_toNat (n : ℕ) : (count n).toNat = min n 65535 := by
  simp only [count, UInt16.toNat_ofNat']
  omega

private theorem count_add (n k : ℕ) : count ((count n).toNat + k) = count (n + k) := by
  apply UInt16.toNat_inj.mp
  simp only [count_toNat]
  omega

theorem saturatingSucc_eq (n : UInt16) : saturatingSucc n = count (n.toNat + 1) := by
  have := n.toNat_lt
  apply UInt16.toNat_inj.mp
  rw [count_toNat, saturatingSucc]
  split
  · omega
  · simp only [UInt16.toNat_add, UInt16.reduceToNat]; omega

theorem Section.add_add (s : Section) (m n : ℕ) (h : Header) : s.add n (s.add m h) = s.add (m + n) h := by
  cases s <;> simp [add, count_add, Nat.add_assoc]

theorem Section.add_zero (s : Section) (h : Header) : s.add 0 h = h := by
  have same (n : UInt16) : count n.toNat = n := by
    have := n.toNat_lt
    apply UInt16.toNat_inj.mp
    rw [count_toNat]
    omega
  cases s <;> simp [add, same]

private theorem bumpCount_append (front : Bytes) (n : UInt16) (back : Bytes) :
    bumpCount (front ++ be16 n ++ back) front.length = .ok (front ++ be16 (saturatingSucc n) ++ back) := by
  have first : index (front ++ be16 n ++ back) front.length = .ok (UInt8.ofNat (n.toNat / 256)) := by
    rw [List.append_assoc, be16]
    exact index_append_length ..
  have second : index (front ++ be16 n ++ back) (front.length + 1) = .ok (UInt8.ofNat n.toNat) := by
    rw [index_add, List.append_assoc, List.drop_left, be16]
    rfl
  have width : (front ++ be16 n).length = front.length + 2 := by simp
  rw [bumpCount, first, ok_bind, second, ok_bind, fromBe16_be16, slice_ok (by omega) (by simp), ok_bind,
    ← width, List.drop_left, List.append_assoc front (be16 n) back, List.take_left]
  rfl

/-- One count is bumped and nothing else changes. -/
theorem bumpCount_encode (s : Section) (h : Header) (body : Bytes) :
    bumpCount (h.encode ++ body) s.offset = .ok ((s.add 1 h).encode ++ body) := by
  cases s with
  | answer =>
    have bumped := bumpCount_append (be16 h.id ++ [h.flags0, h.flags1] ++ be16 h.qdcount) h.ancount
      (be16 h.nscount ++ be16 h.arcount ++ body)
    simpa [Header.encode, Section.add, saturatingSucc_eq, Section.offset, offsetAncount] using bumped
  | authority =>
    have bumped := bumpCount_append (be16 h.id ++ [h.flags0, h.flags1] ++ be16 h.qdcount ++ be16 h.ancount) h.nscount
      (be16 h.arcount ++ body)
    simpa [Header.encode, Section.add, saturatingSucc_eq, Section.offset, offsetNscount] using bumped
  | additional =>
    have bumped := bumpCount_append (be16 h.id ++ [h.flags0, h.flags1] ++ be16 h.qdcount ++ be16 h.ancount ++
      be16 h.nscount) h.arcount body
    simpa [Header.encode, Section.add, saturatingSucc_eq, Section.offset, offsetArcount] using bumped

theorem writeRr_eq (buf : Bytes) (rr : Rr) : writeRr buf rr.owner rr.typ rr.ttl rr.rdata = buf ++ rr.encode := by
  simp [writeRr, Rr.encode]

/-- Writing one record and counting it. -/
theorem writeRr_bumpCount (s : Section) (h : Header) (body : Bytes) (rr : Rr) :
    bumpCount (writeRr (h.encode ++ body) rr.owner rr.typ rr.ttl rr.rdata) s.offset =
      .ok ((s.add 1 h).encode ++ (body ++ rr.encode)) := by
  rw [writeRr_eq, List.append_assoc, bumpCount_encode]

private theorem writeRdatas (s : Section) (h : Header) (body : Bytes) (head : Rr) (rdatas : List Bytes) :
    rdatas.foldlM (fun buf rdata => bumpCount (writeRr buf head.owner head.typ head.ttl rdata) s.offset)
      (h.encode ++ body) =
    .ok ((s.add rdatas.length h).encode ++
      (body ++ (rdatas.map fun rdata => { head with rdata := rdata }).flatMap Rr.encode)) := by
  induction rdatas generalizing h body with
  | nil => simp [s.add_zero]
  | cons rdata rest ih =>
    rw [List.foldlM_cons, writeRr_bumpCount s h body { head with rdata := rdata }, ok_bind, ih, s.add_add]
    simp [Nat.add_comm]

section Signed

variable {query : Slice} {split : Split} (parts : query.data = split.query)

include parts

theorem questionSectionEnd_split : questionSectionEnd query = .ok (some split.stop) := by
  rw [questionSectionEnd_eq, parts, split.questionEnd?_eq]

theorem qname_split : slice query.data 12 (split.stop - 4) = .ok (split.qname ++ [0]) := by
  have length := split.query_length
  have stop : split.stop = 12 + split.qname.length + 5 := rfl
  rw [parts, slice_ok (by omega) (by omega), split.qname_slice]

theorem ownerCanonicalWire_question :
    ownerCanonicalWire query true none = .ok (ownerWire (split.qname ++ [0]) .question) := by
  have length := split.query_length
  have small := query.length_le
  rw [parts] at small
  have stop : split.stop = 12 + split.qname.length + 5 := rfl
  have bound : (split.qname ++ [0]).length ≤ isizeMax := by
    rw [List.length_append, List.length_singleton]
    omega
  rw [ownerCanonicalWire, questionSectionEnd_split parts, if_pos rfl, ok_bind, expect_some, ok_bind,
    usub_ok (by omega), ok_bind, qname_split parts, ok_bind]
  exact (lowercaseWireName_returns bound).eq_ok

private theorem ownerWire_length_le {rr : Rr} (inMemory : rr.InMemory) :
    (ownerWire (split.qname ++ [0]) rr.owner).length ≤ 2 ^ 63 + 1 := by
  have length := split.query_length
  have small := query.length_le
  rw [parts] at small
  have stop : split.stop = 12 + split.qname.length + 5 := rfl
  unfold isizeMax at small
  cases owner : rr.owner with
  | question =>
    have bound : (split.qname ++ [0]).length ≤ isizeMax := by
      unfold isizeMax
      rw [List.length_append, List.length_singleton]
      omega
    have same := (lowercaseWireName_returns bound).post_value
    simp only [ownerWire, same]
    unfold isizeMax at bound
    omega
  | name name =>
    have fits := inMemory name owner
    have bound := encodeDomainName_length_le name
    unfold isizeMax at fits
    simp only [ownerWire]
    omega

theorem emitGroup_eq (s : Section) (params : ZoneParams) (h : Header) (body : Bytes) (clock : Clock) {group : List Rr}
    (nonempty : group ≠ []) (inMemory : ∀ rr ∈ group, rr.InMemory) :
    emitGroup s.offset query params (h.encode ++ body, clock) group =
      .ok ((s.add (emitSet params (split.qname ++ [0]) clock.head group).length h).encode ++
        (body ++ (emitSet params (split.qname ++ [0]) clock.head group).flatMap Rr.encode),
        clockAfter params clock group) := by
  obtain ⟨head, rest, rfl⟩ := List.exists_cons_of_ne_nil nonempty
  have short := ownerWire_length_le parts (inMemory head (List.mem_cons_self ..))
  rw [emitGroup]
  dsimp only
  rw [index_cons_zero, ok_bind, writeRdatas, ok_bind]
  unfold emitSet clockAfter ZoneParams.signer
  dsimp only
  generalize ((head :: rest).map (·.rdata)).mergeSort = rdatas
  by_cases rrsig : head.typ = typeRrsig
  · simp [rrsig]
  simp only [ne_eq, rrsig, not_false_eq_true, if_true, if_false]
  cases params.dnssec.filter fun _ => params.doBit with
  | none => simp
  | some key =>
    obtain ⟨owner, typ, ttl, rdata⟩ := head
    obtain ⟨signed, made, _⟩ := signRrsig_returns key clock.head short typ ttl rdatas params.zone
    have written := writeRr_bumpCount s (s.add rdatas.length h)
      (body ++ (rdatas.map fun rdata => (⟨owner, typ, ttl, rdata⟩ : Rr)).flatMap Rr.encode)
      ⟨owner, typeRrsig, ttl, signed⟩
    simp only [s.add_add] at made written
    cases owner with
    | question =>
      simp only [ownerCanonicalWire_question parts, ok_bind, made, written, rrsigRr]
      simp [made]
    | name name =>
      have named : ownerCanonicalWire query false (some name) = .ok (ownerWire (split.qname ++ [0]) (.name name)) := rfl
      simp only [named, ok_bind, made, written, rrsigRr]
      simp [made]

private theorem emitGroups_eq (s : Section) (params : ZoneParams) (h : Header) (body : Bytes) (clock : Clock)
    {groups : List (List Rr)} (nonempty : ∀ group ∈ groups, group ≠ [])
    (inMemory : ∀ group ∈ groups, ∀ rr ∈ group, rr.InMemory) :
    groups.foldlM (emitGroup s.offset query params) (h.encode ++ body, clock) =
      .ok ((s.add (emitSets params (split.qname ++ [0]) clock groups).1.length h).encode ++
        (body ++ (emitSets params (split.qname ++ [0]) clock groups).1.flatMap Rr.encode),
        (emitSets params (split.qname ++ [0]) clock groups).2) := by
  induction groups generalizing h body clock with
  | nil => simp [emitSets, s.add_zero]
  | cons group rest ih =>
    rw [List.foldlM_cons, emitGroup_eq parts s params h body clock (nonempty group (List.mem_cons_self ..))
      (inMemory group (List.mem_cons_self ..)), ok_bind,
      ih _ _ _ (fun other member => nonempty other (List.mem_cons_of_mem _ member))
        (fun other member => inMemory other (List.mem_cons_of_mem _ member)), s.add_add]
    simp [emitSets]

theorem emitSection_eq (s : Section) (params : ZoneParams) (h : Header) (body : Bytes) (clock : Clock) {rrs : List Rr}
    (inMemory : ∀ rr ∈ rrs, rr.InMemory) :
    emitSection (h.encode ++ body, clock) s.offset rrs query params =
      .ok ((s.add (emitSets params (split.qname ++ [0]) clock (rrsets rrs)).1.length h).encode ++
        (body ++ (emitSets params (split.qname ++ [0]) clock (rrsets rrs)).1.flatMap Rr.encode),
        (emitSets params (split.qname ++ [0]) clock (rrsets rrs)).2) := by
  rw [emitSection, groupRrs_eq, ok_bind]
  refine emitGroups_eq parts s params h body clock (fun group => List.runs_ne_nil) fun group member rr inside => ?_
  apply inMemory
  rw [← List.runs_flatten Rr.setKey rrs]
  exact List.mem_flatten.mpr ⟨group, member, inside⟩

end Signed

theorem maybeAppendOpt_eq (query : Slice) (h : Header) (body : Bytes) (dnssecOk : Bool) :
    maybeAppendOpt (h.encode ++ body) query dnssecOk =
      .ok ((Section.additional.add (optOf query.data dnssecOk).toList.length h).encode ++
        (body ++ (optOf query.data dnssecOk).toList.flatMap optRr)) := by
  have long : ¬ (h.encode ++ body).length < 12 := by simp
  have bumped := bumpCount_encode .additional h body
  rw [maybeAppendOpt, queryHasOpt_eq, ok_bind, optOf]
  cases queryOpt? query.data with
  | none => simp [Section.add_zero]
  | some opt =>
    change bumpCount _ offsetArcount = _ at bumped
    simp only [Option.isSome_some, Bool.not_true, decide_eq_false long, Bool.or_false, Bool.false_eq_true, if_false,
      bumped, ok_bind]
    simp [optRr]

/-- A message under construction, finished. -/
theorem finish_eq {query : Slice} {split : Split} (parts : query.data = split.query) (params : ZoneParams) (clock : Clock)
    (h : Header) (fresh : h.ancount = 0 ∧ h.nscount = 0 ∧ h.arcount = 0) (queues : Queues)
    (inMemory : queues.All Rr.InMemory) :
    Msg.finish clock ⟨h.encode ++ split.question, queues.answers, queues.authority, queues.additional⟩ query params =
      .ok (layout h split.question (emitQueues params (split.qname ++ [0]) clock queues)
        (optOf query.data params.sign)) := by
  obtain ⟨an, ns, ar⟩ := fresh
  have first : ∀ rr ∈ queues.answers, rr.InMemory := fun rr member => inMemory rr (by simp [member])
  have second : ∀ rr ∈ queues.authority, rr.InMemory := fun rr member => inMemory rr (by simp [member])
  have third : ∀ rr ∈ queues.additional, rr.InMemory := fun rr member => inMemory rr (by simp [member])
  rw [Msg.finish]
  dsimp only
  rw [show offsetAncount = Section.answer.offset from rfl, emitSection_eq parts .answer params h _ clock first, ok_bind,
    show offsetNscount = Section.authority.offset from rfl,
    emitSection_eq parts .authority params _ _ _ second,
    ok_bind, show offsetArcount = Section.additional.offset from rfl,
    emitSection_eq parts .additional params _ _ _ third,
    ok_bind]
  dsimp only
  rw [maybeAppendOpt_eq, Section.add_add]
  simp [layout, withCounts, recordOctets, emitQueues, Section.add, an, ns, ar]

end RustyAlias
