import RustyAlias.Soundness.Ipv6Labels
import RustyAlias.Soundness.Transports
import RustyAlias.Soundness.ZoneAddresses

/-! # A name that is made for an address resolves to it

From the notation to the record: an address is written into a name under the zone in any of its notations, a
resolver asks for that name over whichever transport carries the answer, and the one address record that it
gets holds the address.
-/

namespace RustyAlias

open Rust Rust.Outcome Dns

section Names

variable {before labels after : List Str}

/-- An IPv4 address in any notation is found behind labels that are no part of one and before labels that spell none. -/
theorem spelled_spelling {ip : Ipv4Addr} (spelling : Spelling ip labels)
    (front : ∀ label ∈ before, spelledIpv4 label.bytes = none ∧ Ipv4Addr.decimalOctet label.bytes = none)
    (back : ∀ label ∈ after, spelledIpv4 label.bytes = none) :
    ∃ v6, spelled ((before ++ labels ++ after).map Str.bytes) = some (some ip, v6) := by
  have passed {around : List Str} (plain : ∀ label ∈ around, spelledIpv4 label.bytes = none) :
      (around.map Str.bytes).findSome? spelledIpv4 = none := by
    rw [List.findSome?_map]
    exact List.findSome?_eq_none_iff.mpr plain
  have first := passed fun label member => (front label member).1
  refine ⟨_, spelled_ipv4 ?_⟩
  rw [List.map_append, List.map_append, List.append_assoc, List.findSome?_append, first, Option.none_or,
    List.findSome?_append]
  rcases spelling.label_or_octets with ⟨label, rfl, read, _⟩ | octets
  · rw [List.map_singleton, List.findSome?_singleton, read, Option.some_or, Option.some_or]
  · have missing : (decimals ip).findSome? spelledIpv4 = none :=
      List.findSome?_eq_none_iff.mpr fun piece member => by
        obtain ⟨v, _, rfl⟩ := List.mem_map.mp member
        exact spelledIpv4_decimalText v
    have barred : ∀ piece ∈ before.map Str.bytes, ∀ window, piece ∈ window → decimalQuad window = none := by
      intro piece member
      obtain ⟨label, present, rfl⟩ := List.mem_map.mp member
      exact decimalQuad_barred (front label present).2
    rw [octets, missing, passed back, Option.none_or, Option.none_or, firstQuad,
      List.firstWindow_append_of_barred (by decide) barred,
      List.firstWindow_append_of_some (decimals_length ip) (by decide) (decimalQuad_decimals ip)]

/-- An IPv6 label is found behind labels that spell none. -/
theorem spelled_textForm {a : Ipv6Addr} {text : Bytes} {label : Str} (form : TextForm a text)
    (spelling : label.bytes = withHyphens text) (front : ∀ other ∈ before, parseHyphenatedIpv6 other = none) :
    ∃ v4, spelled ((before ++ [label] ++ after).map Str.bytes) = some (v4, some a) := by
  have passed : (before.map Str.bytes).findSome? spelledIpv6 = none := by
    rw [List.findSome?_map, List.findSome?_eq_none_iff]
    exact fun other member => (parseHyphenatedIpv6_eq other).symm.trans (front other member)
  have found : ((before ++ [label] ++ after).map Str.bytes).findSome? spelledIpv6 = some a := by
    rw [List.map_append, List.map_append, List.map_singleton, List.append_assoc, List.findSome?_append, passed,
      Option.none_or, List.singleton_append, List.findSome?_cons, spelling, spelledIpv6_textForm form]
  exact ⟨(((before ++ [label] ++ after).map Str.bytes).findSome? spelledIpv4).or
    (firstQuad ((before ++ [label] ++ after).map Str.bytes)), by rw [spelled, found]; simp⟩

end Names

/-- An address of either family. -/
abbrev Address := Ipv4Addr ⊕ Ipv6Addr

namespace Address

/-- The type of its records. -/
def rtype : Address → UInt16
  | .inl _ => typeA
  | .inr _ => typeAaaa

def octets : Address → Bytes
  | .inl ip => ip.octets
  | .inr ip => ip.octets

end Address

/-- The names that are made for an address: it stands in one of its notations among other labels, of which none
in front of it spells an address of its family or a part of one. -/
inductive MadeFor : Address → List Str → Prop
  | ipv4 {ip : Ipv4Addr} {before labels after : List Str} (spelling : Spelling ip labels)
      (front : ∀ label ∈ before, Addressless label) (back : ∀ label ∈ after, parseLabelIpv4 label = .ok none) :
      MadeFor (.inl ip) (before ++ labels ++ after)
  | ipv6 {a : Ipv6Addr} {text : Bytes} {label : Str} {before after : List Str} (form : TextForm a text)
      (spelling : label.bytes = withHyphens text) (front : ∀ other ∈ before, parseHyphenatedIpv6 other = none) :
      MadeFor (.inr a) (before ++ [label] ++ after)

/-- A name that the server has for nothing else. -/
structure Ordinary (config : Config) (domain : Str) : Prop where
  version : isVersionQuery domain = false
  apex : namesEq domain config.glueName = false
  ns : isConfiguredNs domain config = false
  dmarc : config.dmarc.isEmpty = true ∨ namesEq domain (dmarcOwner config.glueName) = false

/-- The record that answers for an address. -/
def addressRr (address : Address) : Rr := ⟨.question, address.rtype, ttlRr, address.octets⟩

/-- Asking for the type of the address selects it from what the name spells. -/
theorem MadeFor.addressRrs_eq {address : Address} {labels : List Str} (made : MadeFor address labels)
    (small : ∀ label ∈ labels, label.len ≤ isizeMax) :
    addressRrs address.rtype ((spelled (labels.map Str.bytes)).getD (none, none)) = [addressRr address] := by
  cases made with
  | @ipv4 ip before labels after spelling front back =>
    obtain ⟨v6, found⟩ := @spelled_spelling before labels after ip spelling
      (fun label member => ⟨(front label member).spelledIpv4 (small label (by simp [member])), (front label member).decimalOctet⟩)
      (fun label member => (parseLabelIpv4_ok_iff (small label (by simp [member]))).mp (back label member))
    rw [found]
    cases v6 <;> rfl
  | @ipv6 a text label before after form spelling front =>
    obtain ⟨v4, found⟩ := @spelled_textForm before after a text label form spelling front
    rw [found]
    cases v4 <;> rfl

/-- The records of a message other than signatures are those that were written, but for the signatures. -/
theorem filter_records (qname : Name) (rrs : List Rr) :
    (rrs.map (Rr.record qname)).filter (fun record => record.rtype ≠ typeRrsig) = (unsigned rrs).map (Rr.record qname) :=
  List.filter_map

/-- An address written into a name under the zone comes back: whoever asks for the name and the type of the address, over
UDP or over TCP when the answer is truncated, gets one record besides signatures, and it holds the address. -/
theorem resolves (clock : Clock) {query : Slice} {config : Config} {address : Address} {labels : List Str}
    {stream : Connection} (standard : StandardQuery query.data ⟨labels.map Str.bytes, address.rtype, classIn⟩)
    (hosts : config.LegalHosts) (few : config.nsNames.length ≤ 20) (asks : stream.Asks query)
    (made : MadeFor address labels) (dotless : ∀ label ∈ labels, 46 ∉ label.bytes)
    (zoned : fold (hostLabels config.glueName) <:+ fold (labels.map Str.bytes)) (zone : trimmed config.glueName ≠ [])
    (ordinary : Ordinary config (Str.join dot labels)) :
    ∃ datagram frame msg, handleQuery clock query config = .ok (some datagram) ∧
      serveConnection config stream = .ok (.ok frame) ∧
      Exchange.settle ⟨(queryHeader query.data).id, ⟨labels.map Str.bytes, address.rtype, classIn⟩⟩ datagram frame = some msg ∧
      msg.header.rcode = 0 ∧ msg.header.aa = true ∧
      msg.answers.filter (fun record => record.rtype ≠ typeRrsig) =
        [⟨labels.map Str.bytes, address.rtype, classIn, ttlRr, address.octets⟩] := by
  obtain ⟨domain, spelled, parsed, answered⟩ := standard.reply_eq config
  obtain rfl : domain = Str.join dot labels := Str.ext spelled
  have some : labels.map Str.bytes ≠ [] := standard.nonempty
  have free : ∀ label ∈ labels.map Str.bytes, 46 ∉ label := by
    intro octets member
    obtain ⟨label, present, rfl⟩ := List.mem_map.mp member
    exact dotless label present
  have small : ∀ label ∈ labels, label.len ≤ isizeMax := by
    intro label member
    have width := (standard.legal.labels label.bytes (List.mem_map_of_mem member)).2
    exact Nat.le_trans width (by decide)
  have inside : inZone (Str.join dot labels) config.glueName = true :=
    inZone_of_suffix rfl (fun label member => List.ne_nil_of_length_pos (standard.legal.labels label member).1) zone zoned
  have found : addressOf ((Str.join dot labels).split dot) = RustyAlias.spelled (labels.map Str.bytes) := by
    rw [addressOf_split (parseQuery_small parsed)]
    exact congrArg _ (splitOn_text some free)
  -- What is queued is the one record, and what is written of it is that record and perhaps a signature.
  have queued : (replyTo config (paramsOf query.data config) (wire (labels.map Str.bytes)) (Str.join dot labels) address.rtype
      classIn).queues.answers = [addressRr address] := by
    have answers := @replyTo_addresses (paramsOf query.data config) (wire (labels.map Str.bytes)) config (Str.join dot labels)
      address.rtype inside ordinary.version ordinary.apex ordinary.ns ordinary.dmarc
    rw [found, made.addressRrs_eq small] at answers
    exact answers
  obtain ⟨queues, authoritative⟩ : ∃ queues, replyTo config (paramsOf query.data config) (wire (labels.map Str.bytes))
      (Str.join dot labels) address.rtype classIn = .authoritative (paramsOf query.data config) queues :=
    replyTo_inside _ _ address.rtype inside
  dsimp only at answered
  rw [authoritative] at answered queued
  obtain ⟨datagram, frame, reading, _, sent, served, _, _, _, settled⟩ := standard.settle_eq hosts few answered clock asks
  refine ⟨datagram, frame, _, sent, served, settled, ?_, ?_, ?_⟩
  · exact (replyHeader_rcode query.data true (show rcodeNoerror.toNat < 16 by decide)).2
  · exact (replyHeader_flags query.data true rcodeNoerror).2.2.2
  · have other : address.rtype ≠ typeRrsig := by
      cases address with
      | inl ip => exact show typeA ≠ typeRrsig by decide
      | inr ip => exact show typeAaaa ≠ typeRrsig by decide
    change ((emitQueues (paramsOf query.data config) (wire (labels.map Str.bytes)) reading queues).answers.map
      (Rr.record (labels.map Str.bytes))).filter _ = _
    change queues.answers = _ at queued
    have written : unsigned (emitQueues (paramsOf query.data config) (wire (labels.map Str.bytes)) reading queues).answers =
        plainRrs queues.answers := unsigned_section reading fun rr member => by
      rw [queued, List.mem_singleton] at member
      rwa [member]
    rw [filter_records, written, queued, plainRrs_singleton]
    rfl

theorem resolves_sample :
    ∃ datagram frame msg, handleQuery (fun _ => some 9) sampleQuery sampleConfig = .ok (some datagram) ∧
      serveConnection sampleConfig (sampleStream true) = .ok (.ok frame) ∧
      Exchange.settle ⟨(queryHeader sampleQuery.data).id,
        ⟨([.ofString "10-0-0-1", .ofString "nip", .ofString "nu"] : List Str).map Str.bytes, typeA, classIn⟩⟩
        datagram frame = some msg ∧
      msg.header.rcode = 0 ∧ msg.header.aa = true ∧
      msg.answers.filter (fun record => record.rtype ≠ typeRrsig) =
        [⟨([.ofString "10-0-0-1", .ofString "nip", .ofString "nu"] : List Str).map Str.bytes, typeA, classIn, ttlRr,
          [10, 0, 0, 1]⟩] := by
  have question : sampleQuestion =
      ⟨([.ofString "10-0-0-1", .ofString "nip", .ofString "nu"] : List Str).map Str.bytes, typeA, classIn⟩ := by
    decide +kernel
  have made : MadeFor (.inl ⟨10, 0, 0, 1⟩) ([] ++ [.ofString "10-0-0-1"] ++ [.ofString "nip", .ofString "nu"]) :=
    .ipv4 (.hyphens _ (by decide +kernel)) (by simp) (by decide +kernel)
  exact @resolves (fun _ => some 9) sampleQuery sampleConfig (.inl ⟨10, 0, 0, 1⟩)
    [.ofString "10-0-0-1", .ofString "nip", .ofString "nu"] (sampleStream true) (question ▸ sampleQuery_standard)
    sampleConfig_legalHosts (by decide) sampleStream_asks made (by decide +kernel)
    ⟨[lowerAll [49, 48, 45, 48, 45, 48, 45, 49]], by decide +kernel⟩ (by decide +kernel) ⟨by decide +kernel, by decide +kernel, by decide +kernel, .inl (by decide +kernel)⟩

end RustyAlias
