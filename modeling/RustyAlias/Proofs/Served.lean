import RustyAlias.Proofs.ReplyShape
import RustyAlias.Proofs.Unproved
import RustyAlias.Spec.Served

/-! # A response without proofs shows what the zone has

The reply to a question is made from what the zone has for it. Without the DO bit the octets of the response
differ where that differs.
-/

namespace RustyAlias

open Rust Rust.Outcome Dns

/-- A published text. -/
def textRr (octets : Bytes) : Rr := ⟨.question, typeTxt, ttlRr, UInt8.ofNat octets.length :: octets⟩

/-- The records of addresses. -/
def familyRrs (v4 : Option Ipv4Addr) (v6 : Option Ipv6Addr) : List Rr :=
  (v4.map (aRr .question)).toList ++ (v6.map (aaaaRr .question)).toList

/-- The reply that consists of what the zone has. A denial names the types of the name. -/
def Served.reply (params : ZoneParams) (qname : Bytes) (qtype : UInt16) (types : List UInt16) : Served → Reply
  | .refused => .error rcodeRefused
  | .nothing => .authoritative params (nodataQueues params qname types)
  | .text octets => .authoritative params ⟨[textRr octets], [], []⟩
  | .addresses v4 v6 => .authoritative params ⟨familyRrs v4 v6, [], []⟩
  | .apex => .authoritative params (apexQueues params qname qtype)

/-- The reply without the DO bit. -/
def Served.plain (config : Config) (qname : Bytes) (qtype : UInt16) (served : Served) : Reply :=
  served.reply (zoneParams config false) qname qtype []

section Reply

private theorem txtRr_eq (txt : Str) : txtRr txt = textRr (txt.bytes.take 255) := by
  rw [txtRr, textRr, List.length_take, Nat.min_comm, Str.len]

section Any

variable (config : Config) (params : ZoneParams) (qname : Bytes) (qtype : UInt16)

private theorem servedText_reply (txt : Str) (types : List UInt16) :
    Reply.authoritative params (if qtype = typeTxt ∨ qtype = typeAny then ⟨[txtRr txt], [], []⟩
      else nodataQueues params qname types) = (servedText qtype txt).reply params qname qtype types := by
  rw [txtRr_eq, servedText]
  split <;> rfl

private theorem servedAddresses_reply (ip : Option Ipv4Addr × Option Ipv6Addr) :
    Reply.authoritative params (addressQueues params qname qtype ip) =
      (servedAddresses qtype ip).reply params qname qtype (addressTypes ip) := by
  rw [addressQueues, servedAddresses, addressRrs]
  cases ip.1.filter fun _ => wantsA qtype <;> cases ip.2.filter fun _ => wantsAaaa qtype <;> rfl

private theorem servedApex_reply (doBit : Bool) :
    Reply.authoritative (zoneParams config doBit) (apexQueues (zoneParams config doBit) qname qtype) =
      (servedApex config qtype).reply (zoneParams config doBit) qname qtype (zoneParams config doBit).apexTypes := by
  have keyed (asked : qtype = typeDnskey ∨ qtype = typeCds ∨ qtype = typeCdnskey ∨ qtype = typeNsec) :
      servedApex config qtype = if config.dnssec.isSome then .apex else .nothing := by
    rcases asked with rfl | rfl | rfl | rfl <;> rfl
  by_cases a : qtype = typeA
  · subst a
    change _ = (servedAddresses typeA (some config.glueIp, config.glueIp6)).reply _ qname typeA _
    cases config.glueIp6 <;> rfl
  by_cases aaaa : qtype = typeAaaa
  · subst aaaa
    change Reply.authoritative _ (apexOr (zoneParams config doBit) qname (config.glueIp6.map (aaaaRr .question)).toList) =
      (servedAddresses typeAaaa (some config.glueIp, config.glueIp6)).reply _ qname typeAaaa _
    cases config.glueIp6 <;> rfl
  by_cases txt : qtype = typeTxt
  · subst txt
    change Reply.authoritative _ (apexOr (zoneParams config doBit) qname ((zoneParams config doBit).spf.map txtRr).toList) =
      (if config.spf.isEmpty then Served.nothing else servedText typeTxt config.spf).reply _ _ _ _
    have spf : (zoneParams config doBit).spf = if config.spf.isEmpty then none else some config.spf := rfl
    rw [spf]
    cases config.spf.isEmpty with
    | true => rfl
    | false =>
      change Reply.authoritative _ ⟨[txtRr config.spf], [], []⟩ = _
      rw [txtRr_eq]
      rfl
  by_cases listed : qtype = typeSoa ∨ qtype = typeNs ∨ qtype = typeAny
  · rw [servedApex, if_neg (by tauto), if_neg txt, if_pos listed]
    rfl
  by_cases asked : qtype = typeDnskey ∨ qtype = typeCds ∨ qtype = typeCdnskey ∨ qtype = typeNsec
  · rw [keyed asked]
    cases given : config.dnssec with
    | some key => rfl
    | none =>
      have unkeyed (records : DnssecKey → List Rr) : ((zoneParams config doBit).dnssec.map records).getD [] = [] := by
        change (config.dnssec.map records).getD [] = []
        rw [given]
        rfl
      have denied : apexQueues (zoneParams config doBit) qname qtype =
          nodataQueues (zoneParams config doBit) qname (zoneParams config doBit).apexTypes := by
        rcases asked with rfl | rfl | rfl | rfl
        all_goals
          change apexOr (zoneParams config doBit) qname (((zoneParams config doBit).dnssec.map _).getD []) = _
          rw [unkeyed, apexOr, if_pos rfl]
      rw [denied]
      rfl
  · rw [servedApex, if_neg (by tauto), if_neg txt, if_neg listed, if_neg asked]
    simp only [not_or] at listed asked
    rw [(apexQueues_unknown (by simp [a, aaaa, txt, listed, asked])).2]
    rfl

/-- What is answered is what the zone has. -/
theorem replyTo_served (doBit : Bool) (domain : Str) (qclass : UInt16) :
    replyTo config (zoneParams config doBit) qname domain qtype qclass = (served config domain qtype qclass).reply
      (zoneParams config doBit) qname qtype (servedTypes config (zoneParams config doBit) domain) := by
  unfold replyTo served servedTypes
  by_cases internet : qclass = 1
  · rw [if_neg (not_not.mpr internet), if_neg (not_not.mpr internet)]
    cases version : isVersionQuery domain with
    | true =>
      simp only [Bool.not_true, Bool.and_false, Bool.false_eq_true, if_false, if_true]
      split
      · next asked =>
        rw [txtRr_eq, servedText, if_pos asked]
        rfl
      · split <;> rfl
    | false =>
      cases inside : inZone domain config.glueName with
      | false => rfl
      | true =>
        simp only [Bool.not_true, Bool.not_false, Bool.and_true, Bool.false_eq_true, if_false]
        split
        · exact servedText_reply _ qname qtype config.dmarc [typeTxt]
        split
        · exact servedApex_reply config qname qtype doBit
        split
        · exact servedAddresses_reply _ qname qtype _
        · cases addressOf (domain.split dot) with
          | some ip => exact servedAddresses_reply _ qname qtype ip
          | none => rfl
  · rw [if_pos internet, if_pos internet]
    rfl

/-- Without the DO bit a denial has no NSEC record. -/
private theorem nodataQueues_plain (types : List UInt16) :
    nodataQueues (zoneParams config false) qname types = nodataQueues (zoneParams config false) qname [] := by
  have unsigned : (zoneParams config false).sign = false := Bool.and_false _
  rw [nodataQueues, nodataQueues, unsigned]
  rfl

theorem replyTo_plain (domain : Str) (qclass : UInt16) : replyTo config (zoneParams config false) qname domain qtype qclass =
    (served config domain qtype qclass).plain config qname qtype := by
  rw [replyTo_served, Served.plain]
  cases served config domain qtype qclass with
  | nothing => exact congrArg (Reply.authoritative _) (nodataQueues_plain config qname _)
  | _ => rfl

end Any

/-- What the zone can have of a type. At the apex a type has answers, or it has no SOA record in the Authority section. -/
def Served.Of (config : Config) (qname : Bytes) (qtype : UInt16) : Served → Prop
  | .refused => True
  | .nothing => True
  | .text octets => octets.length ≤ 255 ∧ (qtype = typeTxt ∨ qtype = typeAny)
  | .addresses v4 v6 => familyRrs v4 v6 ≠ [] ∧ (qtype = typeA ∨ qtype = typeAaaa ∨ qtype = typeAny)
  | .apex => qtype ≠ typeTxt ∧ qtype ≠ typeA ∧ qtype ≠ typeAaaa ∧
      ((apexQueues (zoneParams config false) qname qtype).answers ≠ [] ∨
        (apexQueues (zoneParams config false) qname qtype).authority = [])

variable {config : Config} {qname : Bytes} {qtype : UInt16}

private theorem servedText_of (txt : Str) : (servedText qtype txt).Of config qname qtype := by
  unfold servedText
  split
  · next asked => exact ⟨List.length_take_le .., asked⟩
  · trivial

private theorem servedAddresses_of (ip : Option Ipv4Addr × Option Ipv6Addr) :
    (servedAddresses qtype ip).Of config qname qtype := by
  have wanted {v4 : Option Ipv4Addr} {v6 : Option Ipv6Addr} (first : ip.1.filter (fun _ => wantsA qtype) = v4)
      (second : ip.2.filter (fun _ => wantsAaaa qtype) = v6) (some : familyRrs v4 v6 ≠ []) :
      familyRrs v4 v6 ≠ [] ∧ (qtype = typeA ∨ qtype = typeAaaa ∨ qtype = typeAny) := by
    refine ⟨some, ?_⟩
    by_contra other
    simp only [not_or] at other
    have a : wantsA qtype = false := by simp [wantsA, other]
    have aaaa : wantsAaaa qtype = false := by simp [wantsAaaa, other]
    rw [← first, ← second, a, aaaa] at some
    simp [familyRrs] at some
  unfold servedAddresses
  cases first : ip.1.filter fun _ => wantsA qtype <;> cases second : ip.2.filter fun _ => wantsAaaa qtype
  · trivial
  · exact wanted first second (by simp [familyRrs])
  · exact wanted first second (by simp [familyRrs])
  · exact wanted first second (by simp [familyRrs])

private theorem servedApex_of : (servedApex config qtype).Of config qname qtype := by
  unfold servedApex
  split
  · exact servedAddresses_of _
  next address =>
  split
  · split
    · trivial
    · exact servedText_of _
  next txt =>
  have other : qtype ≠ typeTxt ∧ qtype ≠ typeA ∧ qtype ≠ typeAaaa := ⟨txt, fun a => address (.inl a), fun aaaa => address (.inr aaaa)⟩
  split
  · next listed =>
    refine ⟨other.1, other.2.1, other.2.2, ?_⟩
    rcases listed with rfl | rfl | rfl
    · exact .inl (List.cons_ne_nil _ _)
    · exact .inr rfl
    · exact .inl (List.cons_ne_nil _ _)
  split
  · next asked =>
    split
    · next keyed =>
      obtain ⟨key, given⟩ := Option.isSome_iff_exists.mp keyed
      have present {record : DnssecKey → Rr} :
          (apexOr (zoneParams config false) qname (((zoneParams config false).dnssec.map fun key => [record key]).getD [])).answers ≠ [] := by
        have some : ((zoneParams config false).dnssec.map fun key => [record key]).getD [] = [record key] := by
          change ((config.dnssec.map fun key => [record key]).getD []) = _
          rw [given]
          rfl
        rw [some]
        exact List.cons_ne_nil _ _
      refine ⟨other.1, other.2.1, other.2.2, .inl ?_⟩
      rcases asked with rfl | rfl | rfl | rfl <;> exact present
    · trivial
  · trivial

theorem served_of (domain : Str) (qclass : UInt16) :
    (served config domain qtype qclass).Of config qname qtype := by
  unfold served
  split
  · trivial
  split
  · split
    · exact servedText_of _
    · split <;> trivial
  split
  · trivial
  split
  · exact servedText_of _
  split
  · exact servedApex_of
  split
  · exact servedAddresses_of _
  · exact servedAddresses_of _

end Reply

section Octets

private theorem be16_inj {a b : UInt16} (same : be16 a = be16 b) : a = b := by
  rw [be16, be16, List.cons.injEq, List.cons.injEq] at same
  rw [← fromBe16_be16 a, ← fromBe16_be16 b, same.1, same.2.1]

private theorem be32_inj {a b : UInt32} (same : be32 a = be32 b) : a = b := by
  simp only [be32, List.cons.injEq, and_true] at same
  rw [← fromBe32_be32 a, ← fromBe32_be32 b, same.1, same.2.1, same.2.2.1, same.2.2.2]

/-- Records of the question in front of the same octets have one type, and are one record if their lengths can be told. -/
theorem encode_append_inj {a b : Rr} {x y : Bytes} (left : a.owner = .question) (right : b.owner = .question)
    (same : a.encode ++ x = b.encode ++ y) :
    a.typ = b.typ ∧ (a.rdata.length ≤ 65535 → b.rdata.length ≤ 65535 → a = b ∧ x = y) := by
  obtain ⟨owner, typ, ttl, rdata⟩ := a
  obtain ⟨owner', typ', ttl', rdata'⟩ := b
  dsimp only at left right ⊢
  subst left right
  simp only [Rr.encode, writeRr, List.nil_append, List.append_assoc] at same
  obtain ⟨types, behind⟩ := List.append_inj (List.append_cancel_left same) rfl
  obtain ⟨ttls, behind⟩ := List.append_inj (List.append_cancel_left behind) rfl
  obtain ⟨lengths, behind⟩ := List.append_inj behind rfl
  refine ⟨be16_inj types, fun fits fits' => ?_⟩
  have length : rdata.length = rdata'.length := by
    have told := congrArg UInt16.toNat (be16_inj lengths)
    simp only [UInt16.toNat_ofNat'] at told
    omega
  obtain ⟨rfl, rfl⟩ := List.append_inj behind length
  exact ⟨by rw [be16_inj types, be32_inj ttls], rfl⟩

private theorem encodes_inj {as bs : List Rr} {x y : Bytes} (number : as.length = bs.length)
    (told : ∀ rr ∈ as, rr.owner = .question ∧ rr.rdata.length ≤ 65535)
    (told' : ∀ rr ∈ bs, rr.owner = .question ∧ rr.rdata.length ≤ 65535)
    (same : as.flatMap Rr.encode ++ x = bs.flatMap Rr.encode ++ y) : as = bs := by
  induction as generalizing bs with
  | nil => exact (List.length_eq_zero_iff.mp number.symm).symm
  | cons a as ih =>
    cases bs with
    | nil => cases number
    | cons b bs =>
      obtain ⟨left, others⟩ := List.forall_mem_cons.mp told
      obtain ⟨right, others'⟩ := List.forall_mem_cons.mp told'
      rw [List.flatMap_cons, List.flatMap_cons, List.append_assoc, List.append_assoc] at same
      obtain ⟨rfl, rest⟩ := (encode_append_inj left.1 right.1 same).2 left.2 right.2
      rw [ih (Nat.succ.inj number) others others' rest]

/-- A section is written from its first record on. -/
theorem plainRrs_cons (head : Rr) (others : List Rr) :
    ∃ first rest, plainRrs (head :: others) = first :: rest ∧ first.owner = head.owner ∧ first.typ = head.typ := by
  have whole := List.runs_flatten Rr.setKey (head :: others)
  rw [plainRrs, rrsets]
  cases sets : (head :: others).runs Rr.setKey with
  | nil =>
    rw [sets] at whole
    cases whole
  | cons set sets' =>
    obtain ⟨first, set', rfl⟩ := List.exists_cons_of_ne_nil (List.runs_ne_nil (by rw [sets]; exact List.mem_cons_self ..))
    rw [sets, List.flatten_cons] at whole
    obtain rfl : first = head := (List.cons.inj whole).1
    have written : (((first :: set').map (·.rdata)).mergeSort) ≠ [] := by
      rw [← List.length_pos_iff_ne_nil, List.length_mergeSort]
      exact Nat.succ_pos _
    obtain ⟨rdata, rest, sorted⟩ := List.exists_cons_of_ne_nil written
    rw [List.flatMap_cons, plainSet, sorted]
    exact ⟨_, _, rfl, rfl, rfl⟩

private theorem plainRrs_eq_nil_iff (rrs : List Rr) : plainRrs rrs = [] ↔ rrs = [] := by
  have lengths := (plainRrs_perm rrs).length_eq
  rw [List.length_map, List.length_map] at lengths
  rw [← List.length_eq_zero_iff, lengths, List.length_eq_zero_iff]

private theorem count_eq_zero_iff (n : ℕ) : count n = 0 ↔ n = 0 := by
  rw [count, ← UInt16.toNat_inj, UInt16.toNat_ofNat']
  simp only [UInt16.reduceToNat]
  omega

private theorem count_inj {n m : ℕ} (few : n ≤ 65535) (few' : m ≤ 65535) (same : count n = count m) : n = m := by
  have told := congrArg UInt16.toNat same
  simp only [count, UInt16.toNat_ofNat'] at told
  omega

theorem Ipv4Addr.octets_inj {ip ip' : Ipv4Addr} (same : ip.octets = ip'.octets) : ip = ip' := by
  cases ip
  cases ip'
  simpa [Ipv4Addr.octets] using same

theorem Ipv6Addr.octets_inj {ip ip' : Ipv6Addr} (same : ip.octets = ip'.octets) : ip = ip' := by
  have segments {xs ys : List UInt16} (same : xs.flatMap be16 = ys.flatMap be16) : xs = ys := by
    induction xs generalizing ys with
    | nil => cases ys <;> first | rfl | cases same
    | cons v rest ih =>
      cases ys with
      | nil => cases same
      | cons w rest' =>
        obtain ⟨first, behind⟩ := List.append_inj same rfl
        rw [be16_inj first, ih behind]
  obtain ⟨xs, _⟩ := ip
  obtain ⟨ys, _⟩ := ip'
  obtain rfl : xs = ys := segments same
  rfl

/-- What can be told from a layout. -/
theorem layout_inj {h h' : Header} {question : Bytes} {records records' : Queues} {opt : Option Bool}
    (same : layout h question records opt = layout h' question records' opt) :
    withCounts h records opt = withCounts h' records' opt ∧ recordOctets records opt = recordOctets records' opt := by
  obtain ⟨headers, bodies⟩ := List.append_inj same rfl
  have read := queryHeader_encode (withCounts h records opt) []
  rw [List.append_nil, headers, ← List.append_nil (Header.encode _), queryHeader_encode] at read
  exact ⟨read.symm, List.append_cancel_left bodies⟩

variable {config : Config} {query qname question : Bytes} {qtype : UInt16} {opt : Option Bool}

/-- The response that shows what the zone has. -/
def Served.shown (config : Config) (query qname question : Bytes) (qtype : UInt16) (opt : Option Bool) (served : Served) : Bytes :=
  let reply := served.plain config qname qtype
  layout (replyHeader query reply.aa reply.rcode) question reply.queues.plain opt

/-- What two equal responses have in common. -/
structure Served.Alike (config : Config) (qname : Bytes) (qtype : UInt16) (x y : Served) : Prop where
  aa : (x.plain config qname qtype).aa = (y.plain config qname qtype).aa
  answered : (x.plain config qname qtype).queues.answers = [] ↔
    (y.plain config qname qtype).queues.answers = []
  denied : (x.plain config qname qtype).queues.authority = [] ↔
    (y.plain config qname qtype).queues.authority = []
  octets : ∃ rest rest', (plainRrs (x.plain config qname qtype).queues.answers).flatMap Rr.encode ++ rest =
    (plainRrs (y.plain config qname qtype).queues.answers).flatMap Rr.encode ++ rest'
  number : count (plainRrs (x.plain config qname qtype).queues.answers).length =
    count (plainRrs (y.plain config qname qtype).queues.answers).length

namespace Served

variable {x y : Served}

theorem alike_of_shown (same : x.shown config query qname question qtype opt = y.shown config query qname question qtype opt) :
    x.Alike config qname qtype y := by
  obtain ⟨headers, octets⟩ := layout_inj same
  have number : count _ = count _ := congrArg Header.ancount headers
  have denials : count _ = count _ := congrArg Header.nscount headers
  have none {rrs rrs' : List Rr} (same : count (plainRrs rrs).length = count (plainRrs rrs').length) : rrs = [] ↔ rrs' = [] := by
    rw [← plainRrs_eq_nil_iff rrs, ← plainRrs_eq_nil_iff rrs', ← List.length_eq_zero_iff, ← count_eq_zero_iff, same,
      count_eq_zero_iff, List.length_eq_zero_iff]
  have flag (served : Served) (records : Queues) : (withCounts (replyHeader query (served.plain config qname qtype).aa
      (served.plain config qname qtype).rcode) records opt).aa = (served.plain config qname qtype).aa :=
    (replyHeader_flags query (served.plain config qname qtype).aa (served.plain config qname qtype).rcode).2.2.2
  exact ⟨(flag x _).symm.trans ((congrArg Header.aa headers).trans (flag y _)), none number, none denials, ⟨_, _, octets⟩, number⟩

theorem Alike.symm (alike : x.Alike config qname qtype y) : y.Alike config qname qtype x := by
  obtain ⟨aa, answered, denied, ⟨rest, rest', octets⟩, number⟩ := alike
  exact ⟨aa.symm, answered.symm, denied.symm, ⟨rest', rest, octets.symm⟩, number.symm⟩

/-- Answers to two questions begin with records of one type. -/
theorem Alike.typ_eq (alike : x.Alike config qname qtype y) {a b : Rr} {as bs : List Rr}
    (first : (x.plain config qname qtype).queues.answers = a :: as)
    (second : (y.plain config qname qtype).queues.answers = b :: bs)
    (left : a.owner = .question) (right : b.owner = .question) : a.typ = b.typ := by
  obtain ⟨rest, rest', octets⟩ := alike.octets
  obtain ⟨a', as', written, owner, typ⟩ := plainRrs_cons a as
  obtain ⟨b', bs', written', owner', typ'⟩ := plainRrs_cons b bs
  rw [first, second, written, written', List.flatMap_cons, List.flatMap_cons, List.append_assoc, List.append_assoc] at octets
  rw [← typ, ← typ']
  exact (encode_append_inj (owner.trans left) (owner'.trans right) octets).1

private theorem refused_of_alike (alike : refused.Alike config qname qtype y) : y = refused := by
  cases y with
  | refused => rfl
  | _ => cases alike.aa

/-- The records of addresses begin with one of a family. -/
theorem familyRrs_cons {v4 : Option Ipv4Addr} {v6 : Option Ipv6Addr} (some : familyRrs v4 v6 ≠ []) :
    ∃ rr rest, familyRrs v4 v6 = rr :: rest ∧ rr.owner = .question ∧ (rr.typ = typeA ∨ rr.typ = typeAaaa) := by
  cases v4 with
  | some ip => exact ⟨_, _, rfl, rfl, .inl rfl⟩
  | none => cases v6 with
    | some ip => exact ⟨_, _, rfl, rfl, .inr rfl⟩
    | none => exact absurd rfl some

/-- The records of addresses tell these. -/
theorem familyRrs_inj {v4 v4' : Option Ipv4Addr} {v6 v6' : Option Ipv6Addr} (same : familyRrs v4 v6 = familyRrs v4' v6') :
    v4 = v4' ∧ v6 = v6' := by
  have other : typeA ≠ typeAaaa := by decide
  have a {ip ip' : Ipv4Addr} (same : aRr .question ip = aRr .question ip') : ip = ip' :=
    Ipv4Addr.octets_inj (congrArg Rr.rdata same)
  have aaaa {ip ip' : Ipv6Addr} (same : aaaaRr .question ip = aaaaRr .question ip') : ip = ip' :=
    Ipv6Addr.octets_inj (congrArg Rr.rdata same)
  have apart {ip : Ipv4Addr} {ip' : Ipv6Addr} (same : aRr .question ip = aaaaRr .question ip') : False :=
    other (congrArg Rr.typ same)
  cases v4 <;> cases v4' <;> cases v6 <;> cases v6' <;>
    simp only [familyRrs, Option.map_some, Option.map_none, Option.toList_some, Option.toList_none, List.nil_append,
      List.singleton_append, List.append_nil, List.cons.injEq, and_true, reduceCtorEq, and_false] at same
  all_goals first
    | exact ⟨rfl, rfl⟩
    | exact (apart same).elim
    | exact (apart same.symm).elim
    | exact ⟨rfl, by rw [aaaa same]⟩
    | exact ⟨by rw [a same], rfl⟩
    | exact ⟨by rw [a same.1], by rw [aaaa same.2]⟩

private theorem familyRrs_told (v4 : Option Ipv4Addr) (v6 : Option Ipv6Addr) : (familyRrs v4 v6).length ≤ 65535 ∧
    ∀ rr ∈ familyRrs v4 v6, rr.owner = .question ∧ rr.rdata.length ≤ 65535 := by
  cases v4 <;> cases v6 <;> simp [familyRrs, aRr, aaaaRr]

private theorem textRr_told {octets : Bytes} (short : octets.length ≤ 255) :
    ∀ rr ∈ [textRr octets], rr.owner = .question ∧ rr.rdata.length ≤ 65535 := by
  intro rr member
  rw [List.mem_singleton.mp member]
  exact ⟨rfl, by simp only [textRr, List.length_cons]; omega⟩

/-- Answers that are written as they are queued are told by the response. -/
theorem Alike.answers_eq (alike : x.Alike config qname qtype y) {as bs : List Rr}
    (first : plainRrs (x.plain config qname qtype).queues.answers = as)
    (second : plainRrs (y.plain config qname qtype).queues.answers = bs) (few : as.length ≤ 65535) (few' : bs.length ≤ 65535)
    (told : ∀ rr ∈ as, rr.owner = .question ∧ rr.rdata.length ≤ 65535)
    (told' : ∀ rr ∈ bs, rr.owner = .question ∧ rr.rdata.length ≤ 65535) : as = bs := by
  obtain ⟨rest, rest', octets⟩ := alike.octets
  have number := alike.number
  rw [first, second] at octets number
  exact encodes_inj (count_inj few few' number) told told' octets

private theorem apex_of_alike (here : apex.Of config qname qtype) (there : y.Of config qname qtype)
    (alike : apex.Alike config qname qtype y) : y = apex := by
  obtain ⟨txt, a, aaaa, filled⟩ := here
  -- An answer of another kind means that all types are asked for, and then the apex begins with its SOA record.
  have soa (all : qtype = typeAny) {rr : Rr} {rest : List Rr}
      (answers : (y.plain config qname qtype).queues.answers = rr :: rest) (owner : rr.owner = .question) :
      typeSoa = rr.typ := by
    subst all
    exact alike.typ_eq rfl answers rfl owner
  cases y with
  | refused => cases alike.aa
  | nothing =>
    rcases filled with some | none
    · exact absurd (alike.answered.mpr rfl) some
    · exact absurd (alike.denied.mp none) (List.cons_ne_nil _ _)
  | text octets =>
    have typ := soa (there.2.resolve_left txt) rfl rfl
    exact absurd typ (show typeSoa ≠ typeTxt by decide)
  | addresses v4 v6 =>
    obtain ⟨rr, rest, answers, owner, family⟩ := familyRrs_cons there.1
    have typ := soa ((there.2.resolve_left a).resolve_left aaaa) answers owner
    rw [← typ] at family
    exact absurd family (show ¬ (typeSoa = typeA ∨ typeSoa = typeAaaa) by decide)
  | apex => rfl

/-- What is shown tells what the zone has. -/
theorem eq_of_alike (here : x.Of config qname qtype) (there : y.Of config qname qtype) (alike : x.Alike config qname qtype y) :
    x = y := by
  -- Texts and addresses are queued in the order in which they are written.
  have written {v4 : Option Ipv4Addr} {v6 : Option Ipv6Addr} : plainRrs (familyRrs v4 v6) = familyRrs v4 v6 := by
    cases v4 <;> cases v6
    · rfl
    · exact plainRrs_singleton _
    · exact plainRrs_singleton _
    · exact plainRrs_pair (show typeA ≠ typeAaaa by decide)
  have apart {octets : Bytes} {v4 : Option Ipv4Addr} {v6 : Option Ipv6Addr} (some : familyRrs v4 v6 ≠ [])
      (same : (text octets).Alike config qname qtype (addresses v4 v6)) : False := by
    obtain ⟨rr, rest, answers, owner, family⟩ := familyRrs_cons some
    have typ := same.typ_eq rfl answers rfl owner
    rw [← typ] at family
    exact absurd family (show ¬ (typeTxt = typeA ∨ typeTxt = typeAaaa) by decide)
  cases x with
  | refused => exact (refused_of_alike alike).symm
  | apex => exact (apex_of_alike here there alike).symm
  | nothing => cases y with
    | refused => exact refused_of_alike alike.symm
    | apex => exact apex_of_alike there here alike.symm
    | nothing => rfl
    | text octets => exact absurd (alike.answered.mp rfl) (List.cons_ne_nil _ _)
    | addresses v4 v6 => exact absurd (alike.answered.mp rfl) there.1
  | text octets => cases y with
    | refused => exact refused_of_alike alike.symm
    | apex => exact apex_of_alike there here alike.symm
    | nothing => exact absurd (alike.answered.mpr rfl) (List.cons_ne_nil _ _)
    | text octets' =>
      have records := alike.answers_eq (plainRrs_singleton _) (plainRrs_singleton _) (by simp) (by simp) (textRr_told here.1)
        (textRr_told there.1)
      have rdata := congrArg Rr.rdata (List.cons.inj records).1
      rw [(List.cons.inj rdata).2]
    | addresses v4 v6 => exact (apart there.1 alike).elim
  | addresses v4 v6 => cases y with
    | refused => exact refused_of_alike alike.symm
    | apex => exact apex_of_alike there here alike.symm
    | nothing => exact absurd (alike.answered.mpr rfl) here.1
    | text octets => exact (apart here.1 alike.symm).elim
    | addresses v4' v6' =>
      have records := alike.answers_eq written written (familyRrs_told v4 v6).1 (familyRrs_told v4' v6').1
        (familyRrs_told v4 v6).2 (familyRrs_told v4' v6').2
      obtain ⟨rfl, rfl⟩ := familyRrs_inj records
      rfl

end Served

end Octets

end RustyAlias
