import RustyAlias.Proofs.Dispatch
import RustyAlias.Proofs.ServedTypes
import RustyAlias.Proofs.StandardQuery

/-! # ANY is the union of the types

An ANY query about a name in the zone is answered with the records that queries for the single types
are answered with, each as often as there, with its TTL and RDATA. Signatures are left out, and so are
the NSEC records of the apex, which are made for the question.
-/

namespace RustyAlias

open Rust Rust.Outcome Dns

/-- Every type but ANY, NSEC and RRSIG. -/
def singleTypes : List UInt16 :=
  ((List.range 65536).map UInt16.ofNat).filter fun t => t ≠ typeAny ∧ t ≠ typeNsec ∧ t ≠ typeRrsig

private theorem mem_singleTypes {t : UInt16} : t ∈ singleTypes ↔ t ≠ typeAny ∧ t ≠ typeNsec ∧ t ≠ typeRrsig := by
  have every : t ∈ (List.range 65536).map UInt16.ofNat :=
    List.mem_map.mpr ⟨t.toNat, List.mem_range.mpr t.toNat_lt, UInt16.ofNat_toNat⟩
  rw [singleTypes, List.mem_filter, decide_eq_true_iff, and_iff_right every]

private theorem singleTypes_nodup : singleTypes.Nodup := by
  refine List.Nodup.filter _ (List.Nodup.map_on ?_ List.nodup_range)
  intro a first b second same
  rw [List.mem_range] at first second
  have values := congrArg UInt16.toNat same
  rwa [UInt16.toNat_ofNat', UInt16.toNat_ofNat', Nat.mod_eq_of_lt first, Nat.mod_eq_of_lt second] at values

section Sections

variable {params : ZoneParams} {qname : Bytes} {config : Config} {domain : Str} {t : UInt16}

private theorem nameSets_types (config : Config) (params : ZoneParams) (domain : Str) :
    ∀ set ∈ nameSets config params domain, set.1 ∈ singleTypes := by
  have known (ip : Option Ipv4Addr × Option Ipv6Addr) : ∀ set ∈ addressSets ip, set.1 ∈ singleTypes := by
    simp only [addressSets, List.forall_mem_cons, mem_singleTypes]
    decide
  unfold nameSets
  split_ifs
  · simp only [List.forall_mem_singleton, mem_singleTypes]
    decide
  · simp only [List.forall_mem_singleton, mem_singleTypes]
    decide
  · simp only [apexSets, List.forall_mem_cons, mem_singleTypes]
    decide
  · exact known _
  · cases addressOf (domain.split dot) with
    | none => exact List.forall_mem_nil _
    | some ip => exact known ip

/-- The DO bit does not decide what a name has. -/
theorem nameSets_paramsOf (query : Bytes) (config : Config) (domain : Str) :
    nameSets config (paramsOf query config) domain = nameSets config (zoneParams config false) domain := by
  unfold nameSets
  rfl

end Sections

section Records

variable {config : Config} {domain : Str} {query : Slice} {t : UInt16}

/-- The records of the response to a question about the name. -/
def recordsOf (clock : Clock) (query : Slice) (config : Config) (domain : Str) (t : UInt16) : Queues :=
  (contentsOf clock query.data (paramsOf query.data config)
    (replyTo config (paramsOf query.data config) (qnameOf query.data) domain t 1)).records

private theorem recordsOf_carried (clock : Clock) (standard : opcode query = 0) (parsed : parseQuery query = .ok (some domain))
    (typed : parseQtypeQclass query = .ok (some (t, classIn))) : Carries clock query config (recordsOf clock query config domain t) :=
  .inr ⟨_, rfl, contents_of_question standard parsed typed clock config⟩

/-- Its answers are those that are queued, when the question owns them. -/
theorem recordsOf_perm (clock : Clock) {rrs : List Rr}
    (answers : (replyTo config (paramsOf query.data config) (qnameOf query.data) domain t 1).queues.answers = rrs)
    (owned : ∀ rr ∈ rrs, rr.owner = .question) : (unsigned (recordsOf clock query config domain t).answers).Perm rrs := by
  subst answers
  exact unsigned_perm clock owned fun rr member =>
    replyTo_queued config domain t 1 rr (List.mem_append_left _ (List.mem_append_left _ member))

/-- The answer to an ANY query is everything that the name has. -/
theorem recordsOf_any (clock : Clock) (inside : inZone domain config.glueName = true) :
    (unsigned (recordsOf clock query config domain typeAny).answers).Perm
      ((nameSets config (zoneParams config false) domain).flatMap Prod.snd) := by
  refine recordsOf_perm clock ?_ fun rr member => ((nameSets_sorted config domain).mem member).1
  rw [replyTo_any inside, nameSets_paramsOf]

theorem mem_of_lookup {sets : List (UInt16 × List Rr)} {entries : List Rr} (found : sets.lookup t = some entries) :
    (t, entries) ∈ sets := by
  obtain ⟨before, after, rfl, _⟩ := List.lookup_eq_some_iff.mp found
  simp

/-- The answer to a query for one type is what the name has of it. -/
theorem recordsOf_single (clock : Clock) (inside : inZone domain config.glueName = true) (single : t ∈ singleTypes) :
    (unsigned (recordsOf clock query config domain t).answers).Perm
      (((nameSets config (zoneParams config false) domain).lookup t).getD []) := by
  rw [mem_singleTypes] at single
  refine recordsOf_perm clock (by rw [replyTo_lookup inside single.1 single.2.1, nameSets_paramsOf]) fun rr member => ?_
  cases found : (nameSets config (zoneParams config false) domain).lookup t with
  | none =>
    rw [found] at member
    cases member
  | some entries =>
    rw [found] at member
    exact ((nameSets_sorted config domain).owned (t, entries) (mem_of_lookup found) rr member).1

private theorem recordsOf_eq_nil_iff (clock : Clock) :
    (recordsOf clock query config domain t).answers = [] ↔ unsigned (recordsOf clock query config domain t).answers = [] := by
  have plain : ∀ rr ∈ (replyTo config (paramsOf query.data config) (qnameOf query.data) domain t 1).queues.answers,
      rr.typ ≠ typeRrsig := fun rr member =>
    (replyTo_queued config domain t 1 rr (List.mem_append_left _ (List.mem_append_left _ member))).typ_ne.1
  exact (unsigned_eq_nil_iff clock plain).symm

end Records

/-- The records that answer an ANY query are, signatures apart, those that answer the queries for the single types. -/
theorem any_union {config : Config} {domain : Str} {query : UInt16 → Slice} (clock : UInt16 → Clock)
    (standard : ∀ t, opcode (query t) = 0) (parsed : ∀ t, parseQuery (query t) = .ok (some domain))
    (typed : ∀ t, parseQtypeQclass (query t) = .ok (some (t, classIn))) (inside : isInZone domain config.glueName = .ok true) :
    ∃ records : UInt16 → Queues, (∀ t, Carries (clock t) (query t) config (records t)) ∧
      (unsigned (records typeAny).answers).Perm (singleTypes.flatMap fun t => unsigned (records t).answers) ∧
      ((records typeAny).answers = [] ↔ ∀ t ∈ singleTypes, (records t).answers = []) := by
  have zone : inZone domain config.glueName = true :=
    Except.ok.inj ((isInZone_config config domain).symm.trans inside)
  have union : (unsigned (recordsOf (clock typeAny) (query typeAny) config domain typeAny).answers).Perm
      (singleTypes.flatMap fun t => unsigned (recordsOf (clock t) (query t) config domain t).answers) := by
    have collected := List.flatMap_lookup_perm singleTypes_nodup (nameSets_sorted config domain).distinct
      (nameSets_types config (zoneParams config false) domain)
    have single (t : UInt16) (member : t ∈ singleTypes) :
        (unsigned (recordsOf (clock t) (query t) config domain t).answers).Perm
          (((nameSets config (zoneParams config false) domain).lookup t).getD []) := recordsOf_single (clock t) zone member
    have singles := List.Perm.flatMap_left singleTypes single
    exact (recordsOf_any (clock typeAny) zone).trans (collected.symm.trans singles.symm)
  refine ⟨fun t => recordsOf (clock t) (query t) config domain t,
    fun t => recordsOf_carried (clock t) (standard t) (parsed t) (typed t), union, ?_⟩
  rw [recordsOf_eq_nil_iff, ← List.length_eq_zero_iff, union.length_eq, List.length_eq_zero_iff, List.flatMap_eq_nil_iff]
  exact forall₂_congr fun t _ => (recordsOf_eq_nil_iff (clock t)).symm

/-- A query about `nip.nu`. -/
def apexTyped (t : UInt16) : Slice where
  data := [0, 7, 1, 0, 0, 1, 0, 0, 0, 0, 0, 0] ++ [3, 110, 105, 112, 2, 110, 117, 0] ++ be16 t ++ be16 classIn
  length_le := by
    change 24 ≤ isizeMax
    decide +kernel

theorem apexTyped_standard (t : UInt16) :
    StandardQuery (apexTyped t).data ⟨[[110, 105, 112], [110, 117]], t, classIn⟩ where
  opcode := by simp [apexTyped, queryHeader, Header.opcode]
  qdcount := by simp [apexTyped, queryHeader, fromBe16]
  octets := ⟨[], by simp [apexTyped, Question.encode, wire, encodeLabels]⟩
  legal := show Legal [[110, 105, 112], [110, 117]] by decide +kernel
  nonempty := List.cons_ne_nil _ _
  utf8 := show ∀ label ∈ [[110, 105, 112], [110, 117]], Utf8.Valid label by decide +kernel
  free := show ∀ label ∈ [[110, 105, 112], [110, 117]], 0 ∉ label by decide +kernel

theorem apexTyped_union :
    ∃ records : UInt16 → Queues, (∀ t, Carries (fun _ => some 0) (apexTyped t) sampleConfig (records t)) ∧
      (unsigned (records typeAny).answers).Perm (singleTypes.flatMap fun t => unsigned (records t).answers) ∧
      ((records typeAny).answers = [] ↔ ∀ t ∈ singleTypes, (records t).answers = []) := by
  have parsed (t : UInt16) : parseQuery (apexTyped t) = .ok (some (.ofString "nip.nu")) := by
    obtain ⟨domain, parsed, spelled⟩ := (apexTyped_standard t).parseQuery_eq
    rw [parsed, Str.ext (spelled.trans (show text [[110, 105, 112], [110, 117]] = (Str.ofString "nip.nu").bytes by decide +kernel))]
  have typed (t : UInt16) : parseQtypeQclass (apexTyped t) = .ok (some (t, classIn)) := by
    obtain ⟨rest, behind⟩ := (apexTyped_standard t).octets
    exact (qnameOf_question (apexTyped_standard t).legal (apexTyped_standard t).free behind).2
  have standard (t : UInt16) : opcode (apexTyped t) = 0 := by
    change (1 : UInt8) >>> 3 &&& 0x0f = 0
    decide
  exact any_union (fun _ _ => some 0) standard parsed typed (by decide +kernel)

end RustyAlias
