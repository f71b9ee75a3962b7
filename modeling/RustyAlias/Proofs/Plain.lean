import RustyAlias.Proofs.Emitted

/-! # The records of a response without their signatures

Without signatures, what is written does not depend on the key, the DO bit or the clock: every RRset
in turn, its RDATA sorted. The types and RDATA that are written are those that were queued.
-/

namespace RustyAlias

open Rust Rust.Outcome Dns

/-- What is written of an RRset without its signature. -/
def plainSet : List Rr → List Rr
  | [] => []
  | head :: rest => ((head :: rest).map (·.rdata)).mergeSort.map fun rdata => { head with rdata := rdata }

/-- What is written of a section without signatures. -/
def plainRrs (rrs : List Rr) : List Rr := (rrsets rrs).flatMap plainSet

/-- What is written in reply without signatures. -/
def Queues.plain (queues : Queues) : Queues :=
  ⟨plainRrs queues.answers, plainRrs queues.authority, plainRrs queues.additional⟩

/-- The records that are no signatures. -/
def unsigned (rrs : List Rr) : List Rr := rrs.filter fun rr => rr.typ ≠ typeRrsig

section Emission

variable {params : ZoneParams} {qname : Bytes}

theorem emitSet_eq (reading : ClockReading) (head : Rr) (rest : List Rr) :
    emitSet params qname reading (head :: rest) = plainSet (head :: rest) ++
      ((params.signer head.typ).map fun key =>
        rrsigRr params qname key reading head ((head :: rest).map (·.rdata)).mergeSort).toList := rfl

theorem plainSet_typ {head : Rr} {rest : List Rr} : ∀ rr ∈ plainSet (head :: rest), rr.typ = head.typ := by
  intro rr member
  obtain ⟨rdata, _, rfl⟩ := List.mem_map.mp member
  rfl

private theorem unsigned_emitSet (reading : ClockReading) {set : List Rr} (plain : ∀ rr ∈ set, rr.typ ≠ typeRrsig) :
    unsigned (emitSet params qname reading set) = plainSet set := by
  cases set with
  | nil => rfl
  | cons head rest =>
    have here := plain head (List.mem_cons_self ..)
    have kept : unsigned (plainSet (head :: rest)) = plainSet (head :: rest) := by
      refine List.filter_eq_self.mpr fun rr member => ?_
      rw [plainSet_typ rr member]
      simpa using here
    rw [emitSet_eq, unsigned, List.filter_append]
    change unsigned _ ++ _ = _
    rw [kept]
    cases params.signer head.typ <;> simp [rrsigRr]

private theorem unsigned_emitSets (clock : Clock) {sets : List (List Rr)} (plain : ∀ set ∈ sets, ∀ rr ∈ set, rr.typ ≠ typeRrsig) :
    unsigned (emitSets params qname clock sets).1 = sets.flatMap plainSet := by
  induction sets generalizing clock with
  | nil => rfl
  | cons set rest ih =>
    have following := ih (clockAfter params clock set) fun other member => plain other (List.mem_cons_of_mem _ member)
    have first : unsigned (emitSet params qname clock.head set) = plainSet set :=
      unsigned_emitSet clock.head (plain set (List.mem_cons_self ..))
    rw [List.flatMap_cons, ← first, ← following]
    exact List.filter_append ..

/-- Sorting the RDATA of an RRset changes their order only. -/
theorem plainSet_perm {set : List Rr} {k : Option Bytes × UInt16} (uniform : List.Uniform Rr.setKey k set) :
    ((plainSet set).map fun rr => (rr.setKey, rr.rdata)).Perm (set.map fun rr => (rr.setKey, rr.rdata)) := by
  cases set with
  | nil => exact List.Perm.nil
  | cons head rest =>
    have keyed : (head :: rest).map (fun rr => (rr.setKey, rr.rdata)) =
        ((head :: rest).map (·.rdata)).map fun rdata => (head.setKey, rdata) := by
      rw [List.map_map]
      refine List.map_congr_left fun rr member => ?_
      rw [uniform rr member, ← uniform head (List.mem_cons_self ..)]
      rfl
    rw [keyed, plainSet, List.map_map]
    exact (List.mergeSort_perm _ _).map _

/-- What is written of a section belongs to the RRsets of its records and has their RDATA. -/
theorem plainRrs_perm (rrs : List Rr) :
    ((plainRrs rrs).map fun rr => (rr.setKey, rr.rdata)).Perm (rrs.map fun rr => (rr.setKey, rr.rdata)) := by
  have sets (sets : List (List Rr)) (uniform : ∀ set ∈ sets, ∃ k, List.Uniform Rr.setKey k set) :
      ((sets.flatMap plainSet).map fun rr => (rr.setKey, rr.rdata)).Perm (sets.flatten.map fun rr => (rr.setKey, rr.rdata)) := by
    induction sets with
    | nil => exact List.Perm.nil
    | cons set others ih =>
      obtain ⟨k, same⟩ := uniform set (List.mem_cons_self ..)
      rw [List.flatMap_cons, List.flatten_cons, List.map_append, List.map_append]
      exact (plainSet_perm same).append (ih fun other member => uniform other (List.mem_cons_of_mem _ member))
  have whole := sets (rrsets rrs) fun set member => List.exists_uniform member
  rwa [rrsets, List.runs_flatten] at whole

/-- Where the records of an RRset differ in their RDATA only, a section is written as it is queued, but for the order. -/
theorem plainRrs_perm_self {rrs : List Rr}
    (uniform : ∀ a ∈ rrs, ∀ b ∈ rrs, a.setKey = b.setKey → a.owner = b.owner ∧ a.ttl = b.ttl) : (plainRrs rrs).Perm rrs := by
  have each : ∀ set ∈ rrsets rrs, (plainSet set).Perm set := by
    intro set member
    cases set with
    | nil => exact List.Perm.nil
    | cons head rest =>
      have inside {rr : Rr} (present : rr ∈ head :: rest) : rr ∈ rrs := by
        rw [← List.runs_flatten Rr.setKey rrs]
        exact List.mem_flatten.mpr ⟨_, member, present⟩
      obtain ⟨k, same⟩ := List.exists_uniform member
      have here := List.mem_cons_self (a := head) (l := rest)
      have rebuilt : (head :: rest).map (fun rr => { head with rdata := rr.rdata }) = head :: rest := by
        refine (List.map_congr_left fun rr present => ?_).trans (List.map_id _)
        have key : rr.setKey = head.setKey := (same rr present).trans (same head here).symm
        obtain ⟨owner, ttl⟩ := uniform rr (inside present) head (inside here) key
        have typ : rr.typ = head.typ := congrArg Prod.snd key
        rw [← owner, ← typ, ← ttl]
        rfl
      have sorted := (List.mergeSort_perm ((head :: rest).map (·.rdata)) (· ≤ ·)).map fun rdata => { head with rdata := rdata }
      rw [List.map_map] at sorted
      change (plainSet (head :: rest)).Perm ((head :: rest).map fun rr => { head with rdata := rr.rdata }) at sorted
      rwa [rebuilt] at sorted
  have whole : (plainRrs rrs).Perm ((rrsets rrs).flatMap id) := List.Perm.flatMap_left _ each
  rwa [List.flatMap_id, rrsets, List.runs_flatten] at whole

theorem unsigned_section (clock : Clock) {rrs : List Rr} (plain : ∀ rr ∈ rrs, rr.typ ≠ typeRrsig) :
    unsigned (emitSets params qname clock (rrsets rrs)).1 = plainRrs rrs := by
  refine unsigned_emitSets clock fun set member rr inside => plain rr ?_
  rw [← List.runs_flatten Rr.setKey rrs]
  exact List.mem_flatten.mpr ⟨set, member, inside⟩

/-- A record other than a signature is written exactly when it is queued, its TTL and the spelling of its owner apart. -/
theorem mem_section_key_iff (clock : Clock) {rrs : List Rr} (plain : ∀ rr ∈ rrs, rr.typ ≠ typeRrsig)
    {key : Option Bytes × UInt16} (other : key.2 ≠ typeRrsig) (rdata : Bytes) :
    (∃ rr ∈ (emitSets params qname clock (rrsets rrs)).1, rr.setKey = key ∧ rr.rdata = rdata) ↔
      ∃ rr ∈ rrs, rr.setKey = key ∧ rr.rdata = rdata := by
  have member (rrs : List Rr) : (key, rdata) ∈ rrs.map (fun rr => (rr.setKey, rr.rdata)) ↔
      ∃ rr ∈ rrs, rr.setKey = key ∧ rr.rdata = rdata := by simp
  have written : unsigned (emitSets params qname clock (rrsets rrs)).1 = plainRrs rrs := unsigned_section clock plain
  rw [← member rrs, ← (plainRrs_perm rrs).mem_iff, ← written, member]
  constructor
  · rintro ⟨rr, inside, rfl, rfl⟩
    exact ⟨rr, List.mem_filter.mpr ⟨inside, by simpa [Rr.setKey] using other⟩, rfl, rfl⟩
  · rintro ⟨rr, inside, same⟩
    exact ⟨rr, List.mem_of_mem_filter inside, same⟩

/-- The same whatever the owner. -/
theorem mem_section_iff (clock : Clock) {rrs : List Rr} (plain : ∀ rr ∈ rrs, rr.typ ≠ typeRrsig) {typ : UInt16}
    (other : typ ≠ typeRrsig) (rdata : Bytes) :
    (∃ rr ∈ (emitSets params qname clock (rrsets rrs)).1, rr.typ = typ ∧ rr.rdata = rdata) ↔
      ∃ rr ∈ rrs, rr.typ = typ ∧ rr.rdata = rdata := by
  have owners (rrs : List Rr) : (∃ rr ∈ rrs, rr.typ = typ ∧ rr.rdata = rdata) ↔
      ∃ owner, ∃ rr ∈ rrs, rr.setKey = (owner, typ) ∧ rr.rdata = rdata := by
    simp only [Rr.setKey, Prod.mk.injEq]
    tauto
  rw [owners, owners]
  exact exists_congr fun owner => mem_section_key_iff clock plain other rdata

/-- The same over all sections. -/
theorem mem_emitQueues_iff (clock : Clock) {queues : Queues} (plain : queues.All fun rr => rr.typ ≠ typeRrsig) {typ : UInt16}
    (other : typ ≠ typeRrsig) (rdata : Bytes) :
    (∃ rr ∈ (emitQueues params qname clock queues).answers ++ (emitQueues params qname clock queues).authority ++
        (emitQueues params qname clock queues).additional, rr.typ = typ ∧ rr.rdata = rdata) ↔
      ∃ rr ∈ queues.answers ++ queues.authority ++ queues.additional, rr.typ = typ ∧ rr.rdata = rdata := by
  obtain ⟨⟨answers, authority⟩, additional⟩ := by simpa only [Queues.All, List.mem_append, or_imp, forall_and] using plain
  simp only [List.mem_append, or_and_right, exists_or]
  exact or_congr (or_congr (mem_section_iff _ answers other rdata) (mem_section_iff _ authority other rdata))
    (mem_section_iff _ additional other rdata)

theorem section_eq_nil_iff (clock : Clock) {rrs : List Rr} (plain : ∀ rr ∈ rrs, rr.typ ≠ typeRrsig) :
    (emitSets params qname clock (rrsets rrs)).1 = [] ↔ rrs = [] := by
  constructor
  · intro nothing
    rw [List.eq_nil_iff_forall_not_mem]
    intro rr inside
    obtain ⟨other, member, _⟩ := (mem_section_iff clock plain (plain rr inside) rr.rdata).mpr ⟨rr, inside, rfl, rfl⟩
    rw [nothing] at member
    cases member
  · rintro rfl
    rfl

/-- What is written of records of the question is what is queued, but for the order and the signatures. -/
theorem unsigned_perm (clock : Clock) {rrs : List Rr} (owned : ∀ rr ∈ rrs, rr.owner = .question)
    (queued : ∀ rr ∈ rrs, Queued params qname rr) : (unsigned (emitSets params qname clock (rrsets rrs)).1).Perm rrs := by
  rw [unsigned_section clock fun rr member => (queued rr member).typ_ne.1]
  refine plainRrs_perm_self fun a first b second same => ?_
  rw [owned a first, owned b second, (queued a first).ttl_eq, (queued b second).ttl_eq]
  exact ⟨rfl, congrArg (ttlOf params) (congrArg Prod.snd same)⟩

theorem unsigned_eq_nil_iff (clock : Clock) {rrs : List Rr} (plain : ∀ rr ∈ rrs, rr.typ ≠ typeRrsig) :
    unsigned (emitSets params qname clock (rrsets rrs)).1 = [] ↔ (emitSets params qname clock (rrsets rrs)).1 = [] := by
  have lengths := (plainRrs_perm rrs).length_eq
  rw [List.length_map, List.length_map] at lengths
  rw [unsigned_section clock plain, section_eq_nil_iff clock plain, ← List.length_eq_zero_iff, lengths, List.length_eq_zero_iff]

end Emission

end RustyAlias
