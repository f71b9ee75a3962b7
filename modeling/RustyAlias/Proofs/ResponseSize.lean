import RustyAlias.Proofs.Dispatch
import RustyAlias.Proofs.Emitted

/-! # The size of a response

How many octets a reply is rendered in: the header, the question, each queued record with its owner and ten
octets in front of its RDATA, a signature for each RRset that is signed, and the OPT record.
-/

namespace RustyAlias

open Rust Rust.Outcome Dns

/-- The octets of an owner. The name of the question is a pointer. -/
def ownerSize : Owner → ℕ
  | .question => 2
  | .name name => (encodeDomainName name).length

/-- The octets of a signature: owner and fixed fields, 18 octets of RRSIG fields, the signer and 64 octets. -/
def signatureSize (params : ZoneParams) (owner : Owner) : ℕ :=
  ownerSize owner + 10 + (82 + (encodeDomainName params.zone).length)

/-- The octets of an RRset with its signature. -/
def setSize (params : ZoneParams) : List Rr → ℕ
  | [] => 0
  | head :: rest => ((head :: rest).map fun rr => ownerSize head.owner + 10 + rr.rdata.length).sum +
      if (params.signer head.typ).isSome then signatureSize params head.owner else 0

def sectionSize (params : ZoneParams) (rrs : List Rr) : ℕ := ((rrsets rrs).map (setSize params)).sum

def Queues.size (params : ZoneParams) (queues : Queues) : ℕ :=
  sectionSize params queues.answers + sectionSize params queues.authority + sectionSize params queues.additional

/-- The octets of the response to a query. -/
def responseSize (query : Slice) (config : Config) : ℕ :=
  match reply query config with
  | none => 0
  | some result => 12 + (questionOf query.data).length + result.queues.size (paramsOf query.data config) +
      11 * (optOf query.data result.doBit).toList.length

section Sizes

variable {params : ZoneParams} {qname : Bytes}

theorem encode_length (rr : Rr) : rr.encode.length = ownerSize rr.owner + 10 + rr.rdata.length := by
  unfold Rr.encode writeRr ownerSize
  cases rr.owner <;> simp <;> omega

private theorem flatMap_encode_length (rrs : List Rr) :
    (rrs.flatMap Rr.encode).length = (rrs.map fun rr => ownerSize rr.owner + 10 + rr.rdata.length).sum := by
  rw [List.length_flatMap]
  exact congrArg List.sum (List.map_congr_left fun rr _ => encode_length rr)

private theorem emitSet_length (reading : ClockReading) {set : List Rr}
    (small : ∀ rr ∈ set, (ownerWire qname rr.owner).length ≤ 2 ^ 63 + 1) :
    ((emitSet params qname reading set).flatMap Rr.encode).length = setSize params set := by
  cases set with
  | nil => rfl
  | cons head rest =>
    have sorted : ((((head :: rest).map (·.rdata)).mergeSort.map fun rdata => { head with rdata := rdata }).map fun rr =>
        ownerSize rr.owner + 10 + rr.rdata.length).sum =
        ((head :: rest).map fun rr => ownerSize head.owner + 10 + rr.rdata.length).sum := by
      have each : (head :: rest).map (fun rr => ownerSize head.owner + 10 + rr.rdata.length) =
          ((head :: rest).map (·.rdata)).map fun rdata => ownerSize head.owner + 10 + rdata.length := by
        rw [List.map_map]
        rfl
      rw [List.map_map, each]
      exact ((List.mergeSort_perm _ _).map _).sum_eq
    have signature (key : DnssecKey) (rdatas : List Bytes) :
        (rrsigRr params qname key reading head rdatas).encode.length = signatureSize params head.owner := by
      have length := (signRrsig_returns key reading (small head (List.mem_cons_self ..)) head.typ head.ttl rdatas
        params.zone).post_value
      rw [encode_length, rrsigRr, length]
      rfl
    rw [emitSet, List.flatMap_append, List.length_append, flatMap_encode_length, sorted, setSize]
    cases params.signer head.typ with
    | none => simp
    | some key => simp [signature]

private theorem emitSets_length (clock : Clock) {sets : List (List Rr)}
    (small : ∀ set ∈ sets, ∀ rr ∈ set, (ownerWire qname rr.owner).length ≤ 2 ^ 63 + 1) :
    ((emitSets params qname clock sets).1.flatMap Rr.encode).length = (sets.map (setSize params)).sum := by
  induction sets generalizing clock with
  | nil => rfl
  | cons set rest ih =>
    have first : ((emitSet params qname clock.head set).flatMap Rr.encode).length = setSize params set :=
      emitSet_length clock.head (small set (List.mem_cons_self ..))
    have following := ih (clockAfter params clock set) fun other member => small other (List.mem_cons_of_mem _ member)
    rw [List.map_cons, List.sum_cons, ← first, ← following, ← List.length_append, ← List.flatMap_append]
    rfl

private theorem emitQueues_length {queues : Queues} (small : queues.All fun rr => (ownerWire qname rr.owner).length ≤ 2 ^ 63 + 1)
    (clock : Clock) (opt : Option Bool) :
    (recordOctets (emitQueues params qname clock queues) opt).length = queues.size params + 11 * opt.toList.length := by
  have each (clock : Clock) {rrs : List Rr} (small : ∀ rr ∈ rrs, (ownerWire qname rr.owner).length ≤ 2 ^ 63 + 1) :
      ((emitSets params qname clock (rrsets rrs)).1.flatMap Rr.encode).length = sectionSize params rrs := by
    refine emitSets_length clock fun set member rr inside => small rr ?_
    rw [← List.runs_flatten Rr.setKey rrs]
    exact List.mem_flatten.mpr ⟨set, member, inside⟩
  obtain ⟨⟨answers, authority⟩, additional⟩ := by simpa only [Queues.All, List.mem_append, or_imp, forall_and] using small
  have opts : (opt.toList.flatMap optRr).length = 11 * opt.toList.length := by
    cases opt <;> simp [optRr]
  rw [recordOctets]
  simp only [List.length_append, opts, emitQueues, each _ answers, each _ authority, each _ additional, Queues.size]
  omega

end Sizes

/-- The records of every reply have owners that can be signed. -/
theorem reply_inMemory {query : Slice} {config : Config} {result : Reply} (answered : reply query config = some result) :
    result.queues.All Rr.InMemory := by
  rcases reply_eq_some answered with rfl | ⟨domain, qtype, qclass, rfl⟩
  · exact Queues.all_mk (by simp) (by simp) (by simp)
  · have queued : (replyTo config (paramsOf query.data config) (qnameOf query.data) domain qtype qclass).queues.All
        (Queued (paramsOf query.data config) (qnameOf query.data)) := replyTo_queued config domain qtype qclass
    exact queued.inMemory

/-- The handler returns as many octets as the size tells. -/
theorem handleQueryInternal_length (clock : Clock) (query : Slice) (config : Config) :
    ∃ response, handleQueryInternal clock query config = .ok response ∧ response.length = responseSize query config := by
  refine ⟨_, handleQueryInternal_eq clock query config, ?_⟩
  unfold responseSize
  cases answered : reply query config with
  | none => rfl
  | some result =>
    have small : result.queues.All fun rr => (ownerWire (qnameOf query.data) rr.owner).length ≤ 2 ^ 63 + 1 :=
      (reply_inMemory answered).mono fun _ inMemory => ownerWire_qnameOf_le query inMemory
    have records : (recordOctets (emitQueues (paramsOf query.data config) (qnameOf query.data) clock result.queues)
        (optOf query.data result.doBit)).length = result.queues.size (paramsOf query.data config) +
          11 * (optOf query.data result.doBit).toList.length := emitQueues_length small clock _
    rw [Option.map_some, Option.getD_some, render, layout, List.length_append, List.length_append, records, Header.encode_length]
    dsimp only
    omega

end RustyAlias
