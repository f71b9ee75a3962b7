import RustyAlias.Dns.Signing
import RustyAlias.Proofs.Decoding
import RustyAlias.Proofs.NameSets

/-! # The RRsets of a reply

Every section of a reply is queued RRset by RRset: the records of one owner and one type stand
together. So the runs that emission cuts a section into are its RRsets, also under the names that
the decoded records have.
-/

namespace RustyAlias

open Rust Rust.Outcome Dns

/-- The key of the record that is read for a written one. -/
def Rr.nameKey (qname : Name) (rr : Rr) : Name × UInt16 := (rr.record qname).key

theorem Rr.nameKey_eq (qname : Name) (rr : Rr) : rr.nameKey qname = (fold (ownerName qname rr.owner), rr.typ) := rfl

/-- Owners that the server takes for one are read as one name. -/
theorem Rr.nameKey_of_setKey {a b : Rr} (same : a.setKey = b.setKey) (qname : Name) : a.nameKey qname = b.nameKey qname := by
  obtain ⟨owner, typ⟩ := Prod.mk.inj same
  rw [nameKey_eq, nameKey_eq, typ]
  revert owner
  cases a.owner with
  | question =>
    cases b.owner with
    | question => simp
    | name host => simp [ownerKey]
  | name host =>
    cases b.owner with
    | question => simp [ownerKey]
    | name host' =>
      intro owner
      have names : lowerAll (trimmed host) = lowerAll (trimmed host') := by simpa [ownerKey] using owner
      simp only [ownerName, fold_fold, (fold_hostLabels_eq_iff host host').mpr names]

/-- The records of a section stand together by owner and type. -/
def SetWise (qname : Name) (rrs : List Rr) : Prop := List.Grouped Rr.setKey (Rr.nameKey qname) rrs

structure Queues.SetWise (qname : Name) (queues : Queues) : Prop where
  answers : RustyAlias.SetWise qname queues.answers
  authority : RustyAlias.SetWise qname queues.authority
  additional : RustyAlias.SetWise qname queues.additional

theorem SetWise.rrsets {qname : Name} {rrs : List Rr} (setWise : SetWise qname rrs) :
    (rrsets rrs).Pairwise (List.Apart (Rr.nameKey qname)) :=
  setWise.runs fun _ _ same => Rr.nameKey_of_setKey same qname

section Shapes

variable {params : ZoneParams} {octets : Bytes} {qname : Name}

private theorem apart_of_typ {a b : List Rr} {typ typ' : UInt16} (first : ∀ rr ∈ a, rr.typ = typ) (second : ∀ rr ∈ b, rr.typ = typ')
    (differ : typ ≠ typ') : List.Apart (Rr.nameKey qname) a b := by
  intro x inside y inside' same
  have types : x.typ = y.typ := congrArg Prod.snd same
  rw [first x inside, second y inside'] at types
  exact differ types

/-- Pieces of one owner and one type each, no type twice. -/
theorem setWise_of_pieces {pieces : List (UInt16 × List Rr)} (distinct : (pieces.map Prod.fst).Nodup)
    (each : ∀ piece ∈ pieces, ∃ owner, ∀ rr ∈ piece.2, rr.owner = owner ∧ rr.typ = piece.1) :
    SetWise qname (pieces.flatMap Prod.snd) := by
  induction pieces with
  | nil => exact List.grouped_nil
  | cons piece rest ih =>
    rw [List.map_cons, List.nodup_cons] at distinct
    obtain ⟨owner, records⟩ := each piece (List.mem_cons_self ..)
    have uniform : List.Uniform Rr.setKey (ownerKey owner, piece.1) piece.2 := by
      intro rr inside
      rw [Rr.setKey, (records rr inside).1, (records rr inside).2]
    rw [List.flatMap_cons]
    refine uniform.grouped.append (ih distinct.2 fun other inside => each other (List.mem_cons_of_mem _ inside)) ?_
    intro x first y second
    obtain ⟨other, inside, second⟩ := List.mem_flatMap.mp second
    obtain ⟨_, records'⟩ := each other (List.mem_cons_of_mem _ inside)
    refine apart_of_typ (fun rr inside => (records rr inside).2) (fun rr inside => (records' rr inside).2) ?_ x first y second
    intro same
    exact distinct.1 (same ▸ List.mem_map_of_mem inside)

theorem SortedSets.setWise {sets : List (UInt16 × List Rr)} (sorted : SortedSets sets) :
    SetWise qname (sets.flatMap Prod.snd) :=
  setWise_of_pieces sorted.distinct fun piece member => ⟨.question, sorted.owned piece member⟩

private theorem setWise_one (rr : Rr) : SetWise qname [rr] := List.Uniform.grouped (k := rr.setKey) (by simp [List.Uniform])

/-- No two nameservers are equal up to case and trailing dots. -/
def DistinctHosts (names : List Str) : Prop := names.Pairwise fun a b => lowerAll (trimmed a) ≠ lowerAll (trimmed b)

theorem glueRrs_owner {names : List Str} {rr : Rr} (member : rr ∈ names.flatMap (glueOf params)) :
    ∃ name ∈ names, rr.owner = .name name := by
  obtain ⟨name, inside, member⟩ := List.mem_flatMap.mp member
  refine ⟨name, inside, ?_⟩
  unfold glueOf at member
  split at member
  · rcases List.mem_cons.mp member with rfl | member
    · rfl
    · obtain ⟨_, _, rfl⟩ := by simpa using member
      rfl
  · cases member

private theorem glueOf_setWise (name : Str) : SetWise qname (glueOf params name) := by
  unfold glueOf
  split
  · let pieces := [(typeA, [aRr (.name name) params.glueIp]), (typeAaaa, (params.glueIp6.map (aaaaRr (.name name))).toList)]
    have distinct : (pieces.map Prod.fst).Nodup := show [typeA, typeAaaa].Nodup by decide
    have each : ∀ piece ∈ pieces, ∃ owner, ∀ rr ∈ piece.2, rr.owner = owner ∧ rr.typ = piece.1 := by
      intro piece member
      refine ⟨.name name, ?_⟩
      simp only [pieces, List.mem_cons, List.not_mem_nil, or_false] at member
      rcases member with rfl | rfl <;> simp +contextual [aRr, aaaaRr]
    simpa [pieces] using setWise_of_pieces distinct each
  · exact List.grouped_nil

private theorem glueRrs_setWise {names : List Str} (distinct : DistinctHosts names) :
    SetWise qname (names.flatMap (glueOf params)) := by
  induction names with
  | nil => exact List.grouped_nil
  | cons name rest ih =>
    obtain ⟨first, others⟩ := List.pairwise_cons.mp distinct
    rw [List.flatMap_cons]
    refine (glueOf_setWise name).append (ih others) ?_
    intro x inside y inside' same
    obtain ⟨host, only, owner⟩ := glueRrs_owner (show x ∈ [name].flatMap (glueOf params) by simpa using inside)
    obtain ⟨host', member, owner'⟩ := glueRrs_owner inside'
    obtain rfl := List.mem_singleton.mp only
    rw [Rr.nameKey_eq, Rr.nameKey_eq, owner, owner'] at same
    have names := (Prod.mk.inj same).1
    simp only [ownerName, fold_fold, fold_hostLabels_eq_iff] at names
    exact first host' member names

private theorem answers_setWise {rrs : List Rr} (setWise : SetWise qname rrs) : Queues.SetWise qname ⟨rrs, [], []⟩ :=
  ⟨setWise, List.grouped_nil, List.grouped_nil⟩

/-- Records of the question's owner and of one type are one RRset. -/
theorem setWise_of_typ {rrs : List Rr} {typ : UInt16} (each : ∀ rr ∈ rrs, rr.owner = .question ∧ rr.typ = typ) :
    SetWise qname rrs := by
  have uniform : List.Uniform Rr.setKey (ownerKey .question, typ) rrs := by
    intro rr member
    rw [Rr.setKey, (each rr member).1, (each rr member).2]
  exact uniform.grouped

private theorem nodataQueues_setWise (types : List UInt16) : (nodataQueues params octets types).SetWise qname := by
  refine ⟨List.grouped_nil, ?_, List.grouped_nil⟩
  unfold nodataQueues
  cases params.sign with
  | false => exact setWise_one _
  | true =>
    have apart : List.Apart (Rr.nameKey qname) [soaRr params (.name params.zone)] [nsecRr params octets types] :=
      apart_of_typ (by simp [soaRr]) (by simp [nsecRr]) (show typeSoa ≠ typeNsec by decide)
    exact (setWise_one _).append (setWise_one _) apart

private theorem apexOr_setWise {rrs : List Rr} (setWise : SetWise qname rrs) : (apexOr params octets rrs).SetWise qname := by
  unfold apexOr
  split
  · exact nodataQueues_setWise _
  · exact answers_setWise setWise

private theorem optional_setWise {α : Type} (value : Option α) (record : α → Rr) :
    SetWise qname (value.map record).toList := by
  cases value with
  | none => exact List.grouped_nil
  | some value => exact setWise_one _

private theorem keyed_setWise (key : Option DnssecKey) (record : DnssecKey → Rr) :
    SetWise qname ((key.map fun key => [record key]).getD []) := by
  cases key with
  | none => exact List.grouped_nil
  | some key => exact setWise_one _

private theorem apexQueues_setWise (qtype : UInt16)
    (distinct : qtype = typeSoa ∨ qtype = typeNs ∨ qtype = typeAny → DistinctHosts params.nsNames) :
    (apexQueues params octets qtype).SetWise qname := by
  have ns : SetWise qname (nsRrs params) := setWise_of_typ nsRrs_typ
  have glue (distinct : DistinctHosts params.nsNames) : SetWise qname (glueRrs params) := glueRrs_setWise distinct
  have any : SetWise qname (apexQueues params octets typeAny).answers := by
    rw [apexQueues_any]
    exact apexSets_sorted.setWise
  unfold apexQueues
  dsimp only
  split_ifs with soa nameservers _ _ _ _ _ _ _ all
  · exact ⟨setWise_one _, ns, glue (distinct (.inl soa))⟩
  · exact ⟨ns, List.grouped_nil, glue (distinct (.inr (.inl nameservers)))⟩
  · exact answers_setWise (setWise_one _)
  · exact apexOr_setWise (optional_setWise ..)
  · exact apexOr_setWise (optional_setWise ..)
  · exact apexOr_setWise (keyed_setWise ..)
  · exact apexOr_setWise (keyed_setWise ..)
  · exact apexOr_setWise (keyed_setWise ..)
  · exact apexOr_setWise (keyed_setWise ..)
  · exact ⟨any, List.grouped_nil, glue (distinct (.inr (.inr all)))⟩
  · exact nodataQueues_setWise _

private theorem addressQueues_setWise (qtype : UInt16) (ip : Option Ipv4Addr × Option Ipv6Addr) :
    (addressQueues params octets qtype ip).SetWise qname := by
  unfold addressQueues
  split
  · exact nodataQueues_setWise _
  · refine answers_setWise ((optional_setWise ..).append (optional_setWise ..) ?_)
    exact apart_of_typ (optional_typ _ fun _ => rfl) (optional_typ _ fun _ => rfl) (show typeA ≠ typeAaaa by decide)

/-- Every reply queues its sections RRset by RRset. -/
theorem replyTo_setWise (config : Config) (domain : Str) (qtype qclass : UInt16)
    (distinct : ListsNs config domain qtype qclass → DistinctHosts params.nsNames) :
    (replyTo config params octets domain qtype qclass).queues.SetWise qname := by
  have refused : (Reply.error rcodeRefused).queues.SetWise qname := ⟨List.grouped_nil, List.grouped_nil, List.grouped_nil⟩
  unfold replyTo
  split_ifs with _ outside version _ _ _ _ apex
  · exact refused
  · exact refused
  · exact answers_setWise (setWise_one _)
  · exact nodataQueues_setWise _
  · exact refused
  · exact answers_setWise (setWise_one _)
  · exact nodataQueues_setWise _
  · refine apexQueues_setWise qtype fun asked => distinct ⟨by_contra ‹_›, ?_, by simpa using version, apex, asked⟩
    simpa [version] using outside
  · exact addressQueues_setWise qtype _
  · cases addressOf (domain.split dot) with
    | none => exact nodataQueues_setWise _
    | some ip => exact addressQueues_setWise qtype ip

end Shapes

end RustyAlias
