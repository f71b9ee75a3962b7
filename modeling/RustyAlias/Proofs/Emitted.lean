import RustyAlias.Proofs.Decoding

/-! # From queued to emitted records

What holds of the records a reply queues carries over to what is written: a written record has the
owner, type and TTL of the first record of its RRset and the RDATA of one of them, or it is the
signature of the set.
-/

namespace RustyAlias

open Rust Rust.Outcome Dns

section Lifting

variable {params : ZoneParams} {qname : Bytes} {property : Rr → Prop}

/-- What the records of an RRset and its signature all have in common. -/
theorem emitSet_all {reading : ClockReading} {set : List Rr}
    (records : ∀ head ∈ set, ∀ source ∈ set, property { head with rdata := source.rdata })
    (signature : ∀ head ∈ set, ∀ key rdatas, property (rrsigRr params qname key reading head rdatas)) :
    ∀ rr ∈ emitSet params qname reading set, property rr := by
  cases set with
  | nil => simp [emitSet]
  | cons head rest =>
    have first := List.mem_cons_self (a := head) (l := rest)
    intro rr member
    rcases List.mem_append.mp member with member | member
    · obtain ⟨rdata, inside, rfl⟩ := List.mem_map.mp member
      rw [List.mem_mergeSort, List.mem_map] at inside
      obtain ⟨source, present, rfl⟩ := inside
      exact records head first source present
    · obtain ⟨key, _, rfl⟩ := by simpa only [Option.mem_toList, Option.map_eq_some_iff] using member
      exact signature head first key _

theorem emitSets_all {clock : Clock} {sets : List (List Rr)}
    (records : ∀ set ∈ sets, ∀ head ∈ set, ∀ source ∈ set, property { head with rdata := source.rdata })
    (signature : ∀ set ∈ sets, ∀ head ∈ set, ∀ key reading rdatas,
      property (rrsigRr params qname key reading head rdatas)) :
    ∀ rr ∈ (emitSets params qname clock sets).1, property rr := by
  induction sets generalizing clock with
  | nil => simp [emitSets]
  | cons set rest ih =>
    intro rr member
    rcases List.mem_append.mp member with member | member
    · have here := List.mem_cons_self (a := set) (l := rest)
      exact emitSet_all (records set here) (fun head inside key => signature set here head inside key _) rr member
    · exact ih (fun other inside => records other (List.mem_cons_of_mem _ inside))
        (fun other inside => signature other (List.mem_cons_of_mem _ inside)) rr member

/-- A property of all records of the queues is one of all written records, if the RDATA of a record may be that of
another one of its RRset and signatures have it too. -/
theorem emitQueues_all_sets {clock : Clock} {queues : Queues} {queued : Rr → Prop} (all : queues.All queued)
    (records : ∀ head source, queued head → queued source → head.setKey = source.setKey → property { head with rdata := source.rdata })
    (signature : ∀ head, queued head → ∀ key reading rdatas, property (rrsigRr params qname key reading head rdatas)) :
    (emitQueues params qname clock queues).All property := by
  have section_ (clock : Clock) {rrs : List Rr} (each : ∀ rr ∈ rrs, queued rr) :
      ∀ rr ∈ (emitSets params qname clock (rrsets rrs)).1, property rr := by
    have inside {set : List Rr} (member : set ∈ rrsets rrs) {rr : Rr} (present : rr ∈ set) : queued rr := by
      apply each
      rw [← List.runs_flatten Rr.setKey rrs]
      exact List.mem_flatten.mpr ⟨set, member, present⟩
    refine emitSets_all (fun set member head first source second => ?_)
      fun set member head first => signature head (inside member first)
    obtain ⟨_, uniform⟩ := List.exists_uniform member
    exact records _ _ (inside member first) (inside member second) ((uniform head first).trans (uniform source second).symm)
  exact Queues.all_mk (section_ _ fun rr member => all rr (by simp [member]))
    (section_ _ fun rr member => all rr (by simp [member])) (section_ _ fun rr member => all rr (by simp [member]))

/-- The same for a property that does not look at whose RDATA a record has. -/
theorem emitQueues_all {clock : Clock} {queues : Queues} {queued : Rr → Prop} (all : queues.All queued)
    (records : ∀ head source, queued head → queued source → property { head with rdata := source.rdata })
    (signature : ∀ head, queued head → ∀ key reading rdatas, property (rrsigRr params qname key reading head rdatas)) :
    (emitQueues params qname clock queues).All property :=
  emitQueues_all_sets all (fun head source first second _ => records head source first second) signature

/-- At most one signature is written for an RRset. -/
theorem emitSets_length_le (clock : Clock) {sets : List (List Rr)} (nonempty : ∀ set ∈ sets, set ≠ []) :
    (emitSets params qname clock sets).1.length ≤ 2 * sets.flatten.length := by
  induction sets generalizing clock with
  | nil => simp [emitSets]
  | cons set rest ih =>
    obtain ⟨head, others, rfl⟩ := List.exists_cons_of_ne_nil (nonempty set (List.mem_cons_self ..))
    have later := ih (clockAfter params clock (head :: others)) fun other member => nonempty other (List.mem_cons_of_mem _ member)
    have signatures : ((params.signer head.typ).map fun key =>
        rrsigRr params qname key clock.head head ((head :: others).map (·.rdata)).mergeSort).toList.length ≤ 1 := by
      cases params.signer head.typ <;> simp
    simp only [emitSets, emitSet, List.flatten_cons, List.length_append, List.length_map, List.length_mergeSort,
      List.length_cons] at later signatures ⊢
    omega

theorem emitQueues_length_le (clock : Clock) (queues : Queues) :
    let records := emitQueues params qname clock queues
    records.answers.length ≤ 2 * queues.answers.length ∧ records.authority.length ≤ 2 * queues.authority.length ∧
      records.additional.length ≤ 2 * queues.additional.length := by
  have each (clock : Clock) (rrs : List Rr) : (emitSets params qname clock (rrsets rrs)).1.length ≤ 2 * rrs.length := by
    have flat : (rrsets rrs).flatten.length = rrs.length := congrArg List.length (List.runs_flatten Rr.setKey rrs)
    rw [← flat]
    exact emitSets_length_le clock fun set => List.runs_ne_nil
  exact ⟨each _ _, each _ _, each _ _⟩

end Lifting

variable {params : ZoneParams} {qname : Bytes}

theorem ownerWire_short {rr : Rr} (legible : rr.Legible) (short : qname.length ≤ 255) :
    (ownerWire qname rr.owner).length ≤ 255 := by
  cases owner : rr.owner with
  | question =>
    have small : qname.length ≤ isizeMax := by unfold isizeMax; omega
    have same := (lowercaseWireName_returns small).post_value
    simpa only [ownerWire, same] using short
  | name host => exact (legible.owner host owner).encodeDomainName_length_le

/-- Signatures can be read back, too. -/
theorem rrsigRr_legible {head : Rr} (legible : head.Legible) (zone : LegalHost params.zone) (short : qname.length ≤ 255)
    (key : DnssecKey) (reading : ClockReading) (rdatas : List Bytes) :
    (rrsigRr params qname key reading head rdatas).Legible := by
  have owner := ownerWire_short legible short
  have length := (signRrsig_returns key reading (show (ownerWire qname head.owner).length ≤ 2 ^ 63 + 1 by omega) head.typ
    head.ttl rdatas params.zone).post_value
  have signer := zone.encodeDomainName_length_le
  exact ⟨legible.owner, by rw [rrsigRr, length]; omega⟩

theorem emitQueues_legible {queues : Queues} (queued : queues.All (Queued params qname)) (hosts : params.LegalHosts)
    (short : qname.length ≤ 255) (clock : Clock) : (emitQueues params qname clock queues).All Rr.Legible :=
  emitQueues_all (queued.mono fun _ queued => queued.legible hosts short)
    (fun _ _ head source => ⟨head.owner, source.fits⟩)
    fun _ head key reading rdatas => rrsigRr_legible head (hosts params.zone (by simp)) short key reading rdatas

theorem emitQueues_typ_ne_opt {queues : Queues} (queued : queues.All (Queued params qname)) (clock : Clock) :
    (emitQueues params qname clock queues).All fun rr => rr.typ ≠ typeOpt :=
  emitQueues_all queued (fun _ _ head _ => head.typ_ne.2) fun _ _ _ _ _ => by simp [rrsigRr]; decide

/-- No reply contains an OPT record of its own. -/
theorem replyTo_typ_ne_opt (config : Config) (params : ZoneParams) (qname : Bytes) (domain : Str) (qtype qclass : UInt16)
    (clock : Clock) :
    (emitQueues params qname clock (replyTo config params qname domain qtype qclass).queues).All
      fun rr => rr.typ ≠ typeOpt :=
  emitQueues_typ_ne_opt (replyTo_queued config domain qtype qclass) clock

end RustyAlias
