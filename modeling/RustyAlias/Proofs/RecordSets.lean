import RustyAlias.Proofs.ServedTypes
import RustyAlias.Soundness.Signatures

/-! # RRsets as sets

Where the RRsets of a section have different owners or types and no RDATA twice, no record is written
twice, and each RRset that is signed has one signature. A record or signature tells the RRset that it
belongs to, so whatever is written for two RRsets differs.
-/

namespace RustyAlias

open Rust Rust.Outcome Dns

/-- The type of a record, or the type that a signature covers. -/
def coveredType (rr : Rr) : UInt16 :=
  if rr.typ = typeRrsig then fromBe16 (rr.rdata.getD 0 0) (rr.rdata.getD 1 0) else rr.typ

section Written

variable (qname : Bytes)

/-- Owner and type, the owner without its case. -/
def wireKey (rr : Rr) : Bytes × UInt16 := (ownerWire qname rr.owner, rr.typ)

/-- The RRset that a record belongs to or a signature covers. -/
def setOf (rr : Rr) : Bytes × UInt16 := (ownerWire qname rr.owner, coveredType rr)

/-- No two records have the same owner, type and RDATA. -/
def Unrepeated (rrs : List Rr) : Prop := rrs.Pairwise fun a b => ¬ (wireKey qname a = wireKey qname b ∧ a.rdata = b.rdata)

/-- A signature over the RRset of a record. -/
def Covers (sig rr : Rr) : Prop := sig.typ = typeRrsig ∧ setOf qname sig = wireKey qname rr

instance (sig rr : Rr) : Decidable (Covers qname sig rr) := inferInstanceAs (Decidable (_ ∧ _))

/-- Every RRset has one signature. -/
def SignedOnce (rrs : List Rr) : Prop := ∀ rr ∈ rrs, rr.typ ≠ typeRrsig → (rrs.filter (Covers qname · rr)).length = 1

/-- RRsets that differ in owner or type, none with an RDATA twice. -/
structure Separate (sets : List (List Rr)) : Prop where
  uniform : ∀ set ∈ sets, ∃ k, ∀ rr ∈ set, wireKey qname rr = k
  apart : sets.Pairwise (List.Apart (wireKey qname))
  distinct : ∀ set ∈ sets, (set.map (·.rdata)).Nodup
  plain : ∀ set ∈ sets, ∀ rr ∈ set, rr.typ ≠ typeRrsig
  small : ∀ set ∈ sets, ∀ rr ∈ set, (ownerWire qname rr.owner).length ≤ 2 ^ 63 + 1

end Written

section Emission

variable {params : ZoneParams} {qname : Bytes}

private theorem setOf_eq_of_wireKey {a b : Rr} (same : wireKey qname a = wireKey qname b) (rdata : a.rdata = b.rdata) :
    setOf qname a = setOf qname b := by
  obtain ⟨owner, typ⟩ := Prod.mk.inj same
  rw [setOf, setOf, owner, coveredType, coveredType, typ, rdata]

/-- A signature begins with the type that it covers. -/
theorem coveredType_rrsigRr {head : Rr} (small : (ownerWire qname head.owner).length ≤ 2 ^ 63 + 1) (key : DnssecKey)
    (reading : ClockReading) (rdatas : List Bytes) : coveredType (rrsigRr params qname key reading head rdatas) = head.typ := by
  obtain ⟨labels, signed⟩ := signRrsig_eq key reading small head.typ head.ttl rdatas params.zone
  have typ : (rrsigRr params qname key reading head rdatas).typ = typeRrsig := rfl
  have rdata : ∃ rest, (rrsigRr params qname key reading head rdatas).rdata =
      UInt8.ofNat (head.typ.toNat / 256) :: UInt8.ofNat head.typ.toNat :: rest := ⟨_, signed⟩
  obtain ⟨rest, rdata⟩ := rdata
  rw [coveredType, if_pos typ, rdata]
  exact fromBe16_be16 head.typ

/-- What is written of an RRset belongs to it. -/
theorem emitSet_setOf {reading : ClockReading} {set : List Rr} {k : Bytes × UInt16}
    (uniform : ∀ rr ∈ set, wireKey qname rr = k) (plain : ∀ rr ∈ set, rr.typ ≠ typeRrsig)
    (small : ∀ rr ∈ set, (ownerWire qname rr.owner).length ≤ 2 ^ 63 + 1) :
    ∀ rr ∈ emitSet params qname reading set, setOf qname rr = k := by
  refine emitSet_all (fun head member source _ => ?_) fun head member key rdatas => ?_
  · rw [← uniform head member, setOf, wireKey, coveredType]
    exact congrArg (Prod.mk _) (if_neg (plain head member))
  · rw [← uniform head member, setOf, coveredType_rrsigRr (small head member)]
    rfl

private theorem emitSets_setOf {clock : Clock} {sets : List (List Rr)} (separate : Separate qname sets) :
    ∀ rr ∈ (emitSets params qname clock sets).1, ∃ set ∈ sets, ∃ source ∈ set, setOf qname rr = wireKey qname source := by
  refine emitSets_all (fun set member head inside source _ => ?_) fun set member head inside key reading rdatas => ?_
  · refine ⟨set, member, head, inside, ?_⟩
    rw [setOf, wireKey, coveredType]
    exact congrArg (Prod.mk _) (if_neg (separate.plain set member head inside))
  · refine ⟨set, member, head, inside, ?_⟩
    rw [setOf, coveredType_rrsigRr (separate.small set member head inside)]
    rfl

/-- An RRset without an RDATA twice is written without a record twice. -/
theorem emitSet_unrepeated {reading : ClockReading} {set : List Rr} (distinct : (set.map (·.rdata)).Nodup)
    (plain : ∀ rr ∈ set, rr.typ ≠ typeRrsig) : Unrepeated qname (emitSet params qname reading set) := by
  cases set with
  | nil => exact List.Pairwise.nil
  | cons head rest =>
    rw [emitSet_eq, Unrepeated, List.pairwise_append]
    refine ⟨?_, ?_, ?_⟩
    · have sorted : (((head :: rest).map (·.rdata)).mergeSort (· ≤ ·)).Nodup := (List.mergeSort_perm _ _).nodup_iff.mpr distinct
      exact List.pairwise_map.mpr (sorted.imp fun differ same => differ same.2)
    · cases params.signer head.typ with
      | none => exact List.Pairwise.nil
      | some key => exact List.pairwise_singleton ..
    · intro rr first sig second same
      obtain ⟨key, _, rfl⟩ := by simpa only [Option.mem_toList, Option.map_eq_some_iff] using second
      have typ : rr.typ = typeRrsig := congrArg Prod.snd same.1
      rw [plainSet_typ rr first] at typ
      exact plain head (List.mem_cons_self ..) typ

theorem Separate.tail {set : List Rr} {rest : List (List Rr)} (separate : Separate qname (set :: rest)) :
    Separate qname rest where
  uniform other member := separate.uniform other (List.mem_cons_of_mem _ member)
  apart := separate.apart.tail
  distinct other member := separate.distinct other (List.mem_cons_of_mem _ member)
  plain other member := separate.plain other (List.mem_cons_of_mem _ member)
  small other member := separate.small other (List.mem_cons_of_mem _ member)

/-- What is written of the first RRset and what is written of the others belong to different RRsets. -/
theorem Separate.setOf_ne {clock : Clock} {reading : ClockReading} {set : List Rr} {rest : List (List Rr)}
    (separate : Separate qname (set :: rest)) {a b : Rr} (first : a ∈ emitSet params qname reading set)
    (second : b ∈ (emitSets params qname clock rest).1) : setOf qname a ≠ setOf qname b := by
  have here := List.mem_cons_self (a := set) (l := rest)
  obtain ⟨k, uniform⟩ := separate.uniform set here
  obtain ⟨other, member, source, inside, same⟩ := emitSets_setOf separate.tail b second
  have filled : set ≠ [] := by
    rintro rfl
    cases first
  obtain ⟨head, present⟩ := List.exists_mem_of_ne_nil set filled
  rw [emitSet_setOf uniform (separate.plain set here) (separate.small set here) a first, same, ← uniform head present]
  exact (List.pairwise_cons.mp separate.apart).1 other member head present source inside

/-- Separate RRsets are written without a record twice. -/
theorem emitSets_unrepeated {clock : Clock} {sets : List (List Rr)} (separate : Separate qname sets) :
    Unrepeated qname (emitSets params qname clock sets).1 := by
  induction sets generalizing clock with
  | nil => exact List.Pairwise.nil
  | cons set rest ih =>
    have here := List.mem_cons_self (a := set) (l := rest)
    refine List.pairwise_append.mpr ⟨emitSet_unrepeated (separate.distinct set here) (separate.plain set here),
      ih separate.tail, ?_⟩
    intro a first b second same
    exact separate.setOf_ne first second (setOf_eq_of_wireKey same.1 same.2)

private theorem setOf_of_plain {rr : Rr} (plain : rr.typ ≠ typeRrsig) : setOf qname rr = wireKey qname rr :=
  congrArg (Prod.mk _) (if_neg plain)

/-- An RRset that is signed has one signature. -/
theorem emitSet_signedOnce {reading : ClockReading} {head : Rr} {rest : List Rr} {k : Bytes × UInt16}
    (uniform : ∀ rr ∈ head :: rest, wireKey qname rr = k) (plain : ∀ rr ∈ head :: rest, rr.typ ≠ typeRrsig)
    (small : ∀ rr ∈ head :: rest, (ownerWire qname rr.owner).length ≤ 2 ^ 63 + 1) {key : DnssecKey}
    (signed : params.signer head.typ = some key) {rr : Rr} (same : wireKey qname rr = k) :
    ((emitSet params qname reading (head :: rest)).filter (Covers qname · rr)).length = 1 := by
  have here := List.mem_cons_self (a := head) (l := rest)
  have whole : emitSet params qname reading (head :: rest) = _ := emitSet_eq reading head rest
  rw [signed, Option.map_some, Option.toList_some] at whole
  have none : (plainSet (head :: rest)).filter (Covers qname · rr) = [] := by
    refine List.filter_eq_nil_iff.mpr fun record member => ?_
    rw [decide_eq_true_iff]
    intro covers
    have typ := covers.1
    rw [plainSet_typ record member] at typ
    exact plain head here typ
  have covers : Covers qname (rrsigRr params qname key reading head ((head :: rest).map (·.rdata)).mergeSort) rr := by
    refine ⟨rfl, ?_⟩
    rw [same]
    exact emitSet_setOf uniform plain small _ (whole ▸ List.mem_append_right _ (List.mem_singleton_self _))
  rw [whole, List.filter_append, none, List.nil_append, List.filter_cons_of_pos (by simpa using covers)]
  rfl

/-- Where every RRset is signed, each has one signature. -/
theorem emitSets_signedOnce {clock : Clock} {sets : List (List Rr)} (separate : Separate qname sets)
    (signed : ∀ typ, typ ≠ typeRrsig → ∃ key, params.signer typ = some key) :
    SignedOnce qname (emitSets params qname clock sets).1 := by
  induction sets generalizing clock with
  | nil => exact fun rr member => absurd member List.not_mem_nil
  | cons set rest ih =>
    have here := List.mem_cons_self (a := set) (l := rest)
    obtain ⟨k, uniform⟩ := separate.uniform set here
    intro rr member plain
    change ((emitSet params qname clock.head set ++ (emitSets params qname (clockAfter params clock set) rest).1).filter
      (Covers qname · rr)).length = 1
    rw [List.filter_append, List.length_append]
    rcases List.mem_append.mp member with first | later
    · have others : (emitSets params qname (clockAfter params clock set) rest).1.filter (Covers qname · rr) = [] := by
        refine List.filter_eq_nil_iff.mpr fun sig second => ?_
        rw [decide_eq_true_iff]
        intro covers
        exact separate.setOf_ne first second ((setOf_of_plain plain).trans covers.2.symm)
      cases set with
      | nil => cases first
      | cons head others' =>
        obtain ⟨key, signer⟩ := signed head.typ (separate.plain _ here head (List.mem_cons_self ..))
        have same := (setOf_of_plain plain).symm.trans (emitSet_setOf uniform (separate.plain _ here) (separate.small _ here) rr first)
        rw [others, emitSet_signedOnce uniform (separate.plain _ here) (separate.small _ here) signer same]
        rfl
    · have first : (emitSet params qname clock.head set).filter (Covers qname · rr) = [] := by
        refine List.filter_eq_nil_iff.mpr fun sig first => ?_
        rw [decide_eq_true_iff]
        intro covers
        exact separate.setOf_ne first later (covers.2.trans (setOf_of_plain plain).symm)
      rw [first, ih separate.tail rr later plain]
      rfl

end Emission

section Queued

variable {params : ZoneParams} {octets qname : Bytes}

/-- Records of one owner and one type are known as such before they are written, and differ in their RDATA. -/
def Crisp (qname : Bytes) (rrs : List Rr) : Prop :=
  rrs.Pairwise fun a b => wireKey qname a = wireKey qname b → a.setKey = b.setKey ∧ a.rdata ≠ b.rdata

private theorem wireKey_of_setKey {a b : Rr} (same : a.setKey = b.setKey) (qname : Bytes) :
    wireKey qname a = wireKey qname b := by
  obtain ⟨owner, typ⟩ := Prod.mk.inj same
  rw [wireKey, wireKey, typ]
  revert owner
  cases a.owner with
  | question =>
    cases b.owner with
    | question => intro _; rfl
    | name host => simp [ownerKey]
  | name host =>
    cases b.owner with
    | question => simp [ownerKey]
    | name host' =>
      intro owner
      have names : lowerAll (trimmed host) = lowerAll (trimmed host') := by simpa [ownerKey] using owner
      rw [ownerWire, ownerWire, encodeDomainName_eq, encodeDomainName_eq, (fold_hostLabels_eq_iff host host').mpr names]

/-- The RRsets of such a section are separate. -/
theorem Crisp.separate {rrs : List Rr} (crisp : Crisp qname rrs) {name : Name} (setWise : SetWise name rrs)
    (plain : ∀ rr ∈ rrs, rr.typ ≠ typeRrsig) (small : ∀ rr ∈ rrs, (ownerWire qname rr.owner).length ≤ 2 ^ 63 + 1) :
    Separate qname (rrsets rrs) := by
  have part {set : List Rr} (member : set ∈ rrsets rrs) : set.Sublist rrs := by
    have flat : (rrsets rrs).flatten = rrs := List.runs_flatten Rr.setKey rrs
    rw [← flat]
    exact List.sublist_flatten_of_mem member
  have decided : ∀ a ∈ rrs, ∀ b ∈ rrs, wireKey qname a = wireKey qname b → a.setKey = b.setKey :=
    fun a first b second => List.Pairwise.forall_of_forall_of_flip (fun _ _ _ => rfl) (crisp.imp fun differ same => (differ same).1)
      (crisp.imp fun differ same => (differ same.symm).1.symm) first second
  refine ⟨?_, ?_, ?_, ?_, ?_⟩
  · intro set member
    obtain ⟨head, rest, rfl⟩ := List.exists_cons_of_ne_nil (List.runs_ne_nil member)
    obtain ⟨k, uniform⟩ := List.exists_uniform member
    refine ⟨wireKey qname head, fun rr inside => wireKey_of_setKey ?_ qname⟩
    exact (uniform rr inside).trans (uniform head (List.mem_cons_self ..)).symm
  · refine setWise.rrsets.imp_of_mem fun first second apart a inside b inside' same => ?_
    have set := decided a ((part first).subset inside) b ((part second).subset inside') same
    exact apart a inside b inside' (Rr.nameKey_of_setKey set name)
  · intro set member
    obtain ⟨k, uniform⟩ := List.exists_uniform member
    refine List.pairwise_map.mpr ((crisp.sublist (part member)).imp_of_mem fun first second differ => ?_)
    exact (differ (wireKey_of_setKey ((uniform _ first).trans (uniform _ second).symm) qname)).2
  · exact fun set member rr inside => plain rr ((part member).subset inside)
  · exact fun set member rr inside => small rr ((part member).subset inside)

private theorem crisp_nil : Crisp qname [] := List.Pairwise.nil

private theorem crisp_one (rr : Rr) : Crisp qname [rr] := List.pairwise_singleton ..

private theorem crisp_optional {α : Type} (value : Option α) (record : α → Rr) : Crisp qname (value.map record).toList := by
  cases value with
  | none => exact crisp_nil
  | some value => exact crisp_one _

private theorem crisp_keyed (key : Option DnssecKey) (record : DnssecKey → Rr) :
    Crisp qname ((key.map fun key => [record key]).getD []) := by
  cases key with
  | none => exact crisp_nil
  | some key => exact crisp_one _

/-- The wire forms of the nameservers are different. -/
def DistinctWires (names : List Str) : Prop := (names.map encodeDomainName).Nodup

theorem DistinctWires.distinctHosts {names : List Str} (distinct : DistinctWires names) : DistinctHosts names := by
  refine (List.pairwise_map.mp distinct).imp fun {a b} differ same => differ ?_
  rw [encodeDomainName_eq, encodeDomainName_eq, (fold_hostLabels_eq_iff a b).mpr same]

private theorem nsRrs_crisp (distinct : DistinctWires params.nsNames) : Crisp qname (nsRrs params) :=
  List.pairwise_map.mpr ((List.pairwise_map.mp distinct).imp fun differ _ => ⟨rfl, differ⟩)

/-- Types in different pieces, and within a piece what is crisp. -/
theorem SortedSets.crisp {sets : List (UInt16 × List Rr)} (sorted : SortedSets sets) (each : ∀ set ∈ sets, Crisp qname set.2) :
    Crisp qname (sets.flatMap Prod.snd) := by
  refine List.pairwise_flatMap.mpr ⟨each, ?_⟩
  refine (List.pairwise_map.mp sorted.distinct).imp_of_mem fun first second differ x inside y inside' same => ?_
  have types : x.typ = y.typ := congrArg Prod.snd same
  rw [(sorted.owned _ first x inside).2, (sorted.owned _ second y inside').2] at types
  exact absurd types differ

private theorem apexSets_crisp (distinct : DistinctWires params.nsNames) : ∀ set ∈ apexSets params, Crisp qname set.2 := by
  simp only [apexSets, List.forall_mem_cons]
  exact ⟨crisp_one _, nsRrs_crisp distinct, crisp_one _, crisp_optional .., crisp_optional .., crisp_keyed .., crisp_keyed ..,
    crisp_keyed .., List.forall_mem_nil _⟩

private theorem glueOf_crisp (name : Str) : Crisp qname (glueOf params name) := by
  unfold glueOf
  split
  · refine List.pairwise_cons.mpr ⟨fun rr member same => ?_, crisp_optional ..⟩
    have types : typeA = rr.typ := congrArg Prod.snd same
    rw [optional_typ _ (aaaaRr_typ (.name name)) rr member] at types
    exact absurd types (by decide)
  · exact crisp_nil

/-- The addresses of different nameservers have different owners. -/
theorem glueRrs_crisp (distinct : DistinctWires params.nsNames) : Crisp qname (glueRrs params) := by
  refine List.pairwise_flatMap.mpr ⟨fun name _ => glueOf_crisp name, ?_⟩
  refine (List.pairwise_map.mp distinct).imp fun {a b} differ x inside y inside' same => ?_
  obtain ⟨host, only, owner⟩ := glueRrs_owner (show x ∈ [a].flatMap (glueOf params) by simpa using inside)
  obtain ⟨host', only', owner'⟩ := glueRrs_owner (show y ∈ [b].flatMap (glueOf params) by simpa using inside')
  obtain rfl := List.mem_singleton.mp only
  obtain rfl := List.mem_singleton.mp only'
  have wires : ownerWire qname x.owner = ownerWire qname y.owner := congrArg Prod.fst same
  rw [owner, owner'] at wires
  exact absurd wires differ

/-- Every section is crisp. -/
structure Queues.Crisp (qname : Bytes) (queues : Queues) : Prop where
  answers : RustyAlias.Crisp qname queues.answers
  authority : RustyAlias.Crisp qname queues.authority
  additional : RustyAlias.Crisp qname queues.additional

private theorem answers_crisp {rrs : List Rr} (crisp : Crisp qname rrs) : Queues.Crisp qname ⟨rrs, [], []⟩ :=
  ⟨crisp, crisp_nil, crisp_nil⟩

private theorem nodataQueues_crisp (types : List UInt16) : (nodataQueues params octets types).Crisp qname := by
  refine ⟨crisp_nil, ?_, crisp_nil⟩
  unfold nodataQueues
  cases params.sign with
  | false => exact crisp_one _
  | true =>
    refine List.pairwise_cons.mpr ⟨fun rr member same => ?_, crisp_one _⟩
    have types : typeSoa = rr.typ := congrArg Prod.snd same
    rw [List.mem_singleton.mp member] at types
    exact absurd types (show typeSoa ≠ typeNsec by decide)

private theorem apexOr_crisp {rrs : List Rr} (crisp : Crisp qname rrs) : (apexOr params octets rrs).Crisp qname := by
  unfold apexOr
  split
  · exact nodataQueues_crisp _
  · exact answers_crisp crisp

private theorem apexQueues_crisp (qtype : UInt16)
    (distinct : qtype = typeSoa ∨ qtype = typeNs ∨ qtype = typeAny → DistinctWires params.nsNames) :
    (apexQueues params octets qtype).Crisp qname := by
  have any (distinct : DistinctWires params.nsNames) : Crisp qname (apexQueues params octets typeAny).answers := by
    rw [apexQueues_any]
    exact apexSets_sorted.crisp (apexSets_crisp distinct)
  unfold apexQueues
  dsimp only
  split_ifs with soa nameservers _ _ _ _ _ _ _ all
  · exact ⟨crisp_one _, nsRrs_crisp (distinct (.inl soa)), glueRrs_crisp (distinct (.inl soa))⟩
  · have listed := distinct (.inr (.inl nameservers))
    exact ⟨nsRrs_crisp listed, crisp_nil, glueRrs_crisp listed⟩
  · exact answers_crisp (crisp_one _)
  · exact apexOr_crisp (crisp_optional ..)
  · exact apexOr_crisp (crisp_optional ..)
  · exact apexOr_crisp (crisp_keyed ..)
  · exact apexOr_crisp (crisp_keyed ..)
  · exact apexOr_crisp (crisp_keyed ..)
  · exact apexOr_crisp (crisp_keyed ..)
  · have listed := distinct (.inr (.inr all))
    exact ⟨any listed, crisp_nil, glueRrs_crisp listed⟩
  · exact nodataQueues_crisp _

private theorem addressQueues_crisp (qtype : UInt16) (ip : Option Ipv4Addr × Option Ipv6Addr) :
    (addressQueues params octets qtype ip).Crisp qname := by
  unfold addressQueues
  split
  · exact nodataQueues_crisp _
  · refine answers_crisp (List.pairwise_append.mpr ⟨crisp_optional .., crisp_optional .., fun a first b second same => ?_⟩)
    have types : a.typ = b.typ := congrArg Prod.snd same
    rw [optional_typ _ (aRr_typ .question) a first, optional_typ _ (aaaaRr_typ .question) b second] at types
    exact absurd types (by decide)

/-- Every section of a reply is crisp, unless it lists nameservers of one wire form. -/
theorem replyTo_crisp (config : Config) (domain : Str) (qtype qclass : UInt16)
    (distinct : ListsNs config domain qtype qclass → DistinctWires params.nsNames) :
    (replyTo config params octets domain qtype qclass).queues.Crisp qname := by
  have refused : (Reply.error rcodeRefused).queues.Crisp qname := ⟨crisp_nil, crisp_nil, crisp_nil⟩
  unfold replyTo
  split_ifs with _ outside version _ _ _ _ apex
  · exact refused
  · exact refused
  · exact answers_crisp (crisp_one _)
  · exact nodataQueues_crisp _
  · exact refused
  · exact answers_crisp (crisp_one _)
  · exact nodataQueues_crisp _
  · refine apexQueues_crisp qtype fun asked => distinct ⟨by_contra ‹_›, ?_, by simpa using version, apex, asked⟩
    simpa [version] using outside
  · exact addressQueues_crisp qtype _
  · cases addressOf (domain.split dot) with
    | none => exact nodataQueues_crisp _
    | some ip => exact addressQueues_crisp qtype ip

/-- Where no record is written twice, none is queued twice. -/
theorem unrepeated_of_written {rrs : List Rr} (clock : Clock) (owned : ∀ rr ∈ rrs, rr.owner = .question)
    (queued : ∀ rr ∈ rrs, Queued params octets rr)
    (written : Unrepeated qname (emitSets params octets clock (rrsets rrs)).1) : Unrepeated qname rrs := by
  have kept : Unrepeated qname (unsigned (emitSets params octets clock (rrsets rrs)).1) :=
    List.Pairwise.sublist List.filter_sublist written
  exact (unsigned_perm clock owned queued).pairwise kept fun differ same => differ ⟨same.1.symm, same.2.symm⟩

theorem distinctWires_of_unrepeated (unrepeated : Unrepeated qname (nsRrs params)) : DistinctWires params.nsNames :=
  List.pairwise_map.mpr ((List.pairwise_map.mp unrepeated).imp fun differ same => differ ⟨rfl, same⟩)

end Queued

end RustyAlias
