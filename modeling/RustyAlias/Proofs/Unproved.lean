import RustyAlias.Proofs.Plain
import RustyAlias.Proofs.Reply

/-! # Replies with and without the DO bit

The reply to a question does not depend on the DO bit, but for the NSEC record that a denial puts in
the Authority section. What is written of it depends on the bit through the signatures alone.
-/

namespace RustyAlias

open Rust Rust.Outcome Dns

/-- The records that are no NSEC records. -/
def undenied (rrs : List Rr) : List Rr := rrs.filter fun rr => rr.typ ≠ typeNsec

/-- The second queues hold an NSEC record in the Authority section besides the records of the first, at most. -/
structure Queues.Unproved (queues proved : Queues) : Prop where
  answers : queues.answers = proved.answers
  authority : plainRrs queues.authority = undenied (plainRrs proved.authority)
  additional : queues.additional = proved.additional

section Sections

private theorem plainRrs_typ {rrs : List Rr} {rr : Rr} (member : rr ∈ plainRrs rrs) : ∃ source ∈ rrs, source.typ = rr.typ := by
  have keyed : (rr.setKey, rr.rdata) ∈ (plainRrs rrs).map fun rr => (rr.setKey, rr.rdata) := List.mem_map_of_mem member
  rw [(plainRrs_perm rrs).mem_iff] at keyed
  obtain ⟨source, inside, same⟩ := List.mem_map.mp keyed
  exact ⟨source, inside, congrArg (·.1.2) same⟩

/-- Nothing is removed from a section without NSEC records. -/
theorem undenied_plainRrs {rrs : List Rr} (plain : ∀ rr ∈ rrs, rr.typ ≠ typeNsec) : undenied (plainRrs rrs) = plainRrs rrs := by
  refine List.filter_eq_self.mpr fun rr member => ?_
  obtain ⟨source, inside, same⟩ := plainRrs_typ member
  simpa [← same] using plain source inside

theorem plainRrs_singleton (rr : Rr) : plainRrs [rr] = [rr] := by
  simp [plainRrs, rrsets, List.runs_singleton, plainSet]

/-- Two records of different types are two RRsets. -/
theorem plainRrs_pair {first second : Rr} (other : first.typ ≠ second.typ) : plainRrs [first, second] = [first, second] := by
  have apart : first.setKey ≠ second.setKey := fun same => other (congrArg Prod.snd same)
  have opened : [first].runs Rr.setKey = [] ++ [[first]] := rfl
  have sets : rrsets [first, second] = [[first], [second]] := List.runs_concat_other opened rfl apart
  rw [plainRrs, sets]
  simp [plainSet]

end Sections

section Replies

variable {config : Config} {qname : Bytes} {dnssecOk : Bool}

/-- Without NSEC records in the Authority section there is no difference. -/
theorem unproved_of_plain {queues : Queues} (plain : ∀ rr ∈ queues.authority, rr.typ ≠ typeNsec) : queues.Unproved queues :=
  ⟨rfl, (undenied_plainRrs plain).symm, rfl⟩

private theorem unproved_ite {c : Prop} [Decidable c] {first first' second second' : Queues} (yes : first.Unproved first')
    (no : second.Unproved second') : (if c then first else second).Unproved (if c then first' else second') := by
  split
  · exact yes
  · exact no

private theorem nodataQueues_unproved (types : List UInt16) :
    (nodataQueues (zoneParams config false) qname types).Unproved (nodataQueues (zoneParams config dnssecOk) qname types) := by
  refine ⟨rfl, ?_, rfl⟩
  have soa : soaRr (zoneParams config false) (.name (zoneParams config false).zone) =
      soaRr (zoneParams config dnssecOk) (.name (zoneParams config dnssecOk).zone) := rfl
  have other : typeSoa ≠ typeNsec := by decide
  have unsigned : (zoneParams config false).sign = false := Bool.and_false _
  rw [nodataQueues, nodataQueues, unsigned, soa]
  cases (zoneParams config dnssecOk).sign with
  | false =>
    refine (undenied_plainRrs fun rr member => ?_).symm
    obtain rfl := List.mem_singleton.mp member
    exact other
  | true =>
    simp only [Bool.false_eq_true, if_false, if_true]
    rw [plainRrs_pair other, plainRrs_singleton]
    rfl

private theorem apexOr_unproved (records : List Rr) :
    (apexOr (zoneParams config false) qname records).Unproved (apexOr (zoneParams config dnssecOk) qname records) := by
  unfold apexOr
  split
  · exact nodataQueues_unproved _
  · exact unproved_of_plain (by simp)

private theorem apexQueues_unproved (qtype : UInt16) :
    (apexQueues (zoneParams config false) qname qtype).Unproved (apexQueues (zoneParams config dnssecOk) qname qtype) := by
  have ns : ∀ rr ∈ nsRrs (zoneParams config dnssecOk), rr.typ ≠ typeNsec := by
    intro rr member
    obtain ⟨name, _, rfl⟩ := List.mem_map.mp member
    exact show typeNs ≠ typeNsec from by decide
  have plain {answers additional : List Rr} : (Queues.mk answers [] additional).Unproved ⟨answers, [], additional⟩ :=
    unproved_of_plain (by simp)
  unfold apexQueues
  dsimp only
  apply unproved_ite
  · exact unproved_of_plain ns
  apply unproved_ite
  · exact plain
  apply unproved_ite
  · exact plain
  iterate 6 apply unproved_ite (apexOr_unproved _)
  apply unproved_ite
  · exact plain
  · exact nodataQueues_unproved _

private theorem addressQueues_unproved (qtype : UInt16) (ip : Option Ipv4Addr × Option Ipv6Addr) :
    (addressQueues (zoneParams config false) qname qtype ip).Unproved
      (addressQueues (zoneParams config dnssecOk) qname qtype ip) := by
  unfold addressQueues
  split
  · exact nodataQueues_unproved _
  · exact unproved_of_plain (by simp)

/-- The DO bit adds an NSEC record to denials, and nothing else. -/
theorem replyTo_unproved (domain : Str) (qtype qclass : UInt16) :
    (replyTo config (zoneParams config false) qname domain qtype qclass).queues.Unproved
      (replyTo config (zoneParams config dnssecOk) qname domain qtype qclass).queues := by
  have error (rcode : UInt8) : (Reply.error rcode).queues.Unproved (Reply.error rcode).queues := unproved_of_plain (by simp [Reply.error])
  unfold replyTo
  split_ifs
  · exact error _
  · exact error _
  · exact unproved_of_plain (by simp [Reply.authoritative])
  · exact nodataQueues_unproved _
  · exact error _
  · exact unproved_of_plain (by simp [Reply.authoritative])
  · exact nodataQueues_unproved _
  · exact apexQueues_unproved _
  · exact addressQueues_unproved _ _
  · cases addressOf (domain.split dot) with
    | none => exact nodataQueues_unproved _
    | some ip => exact addressQueues_unproved _ ip

/-- The flags of the reply do not depend on the DO bit, and without it the OPT record has none. -/
theorem replyTo_flags (domain : Str) (qtype qclass : UInt16) :
    (replyTo config (zoneParams config false) qname domain qtype qclass).aa =
        (replyTo config (zoneParams config dnssecOk) qname domain qtype qclass).aa ∧
      (replyTo config (zoneParams config false) qname domain qtype qclass).rcode =
        (replyTo config (zoneParams config dnssecOk) qname domain qtype qclass).rcode ∧
      (replyTo config (zoneParams config false) qname domain qtype qclass).doBit = false := by
  have unsigned : (zoneParams config false).sign = false := Bool.and_false _
  unfold replyTo
  split_ifs
  all_goals first
    | exact ⟨rfl, rfl, rfl⟩
    | exact ⟨rfl, rfl, unsigned⟩

end Replies

section Emission

variable {params : ZoneParams} {qname : Bytes}

/-- Without the DO bit nothing is signed. -/
theorem emitSets_plain (unasked : params.doBit = false) (clock : Clock) (sets : List (List Rr)) :
    (emitSets params qname clock sets).1 = sets.flatMap plainSet := by
  have signer (typ : UInt16) : params.signer typ = none := by
    rw [ZoneParams.signer, unasked]
    simp
  induction sets generalizing clock with
  | nil => rfl
  | cons set rest ih =>
    have first : emitSet params qname clock.head set = plainSet set := by
      cases set with
      | nil => rfl
      | cons head rest => rw [emitSet_eq, signer]; exact List.append_nil _
    rw [emitSets, first, ih]
    rfl

theorem emitQueues_plain (unasked : params.doBit = false) (clock : Clock) (queues : Queues) :
    emitQueues params qname clock queues = queues.plain := by
  simp only [emitQueues, emitSets_plain unasked]
  rfl

end Emission

end RustyAlias
