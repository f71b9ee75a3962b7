import RustyAlias.Dns.Validation
import RustyAlias.Soundness.Signatures

/-! # When signatures are in force

A signature is made at a reading of the clock and lives from an hour before it to a week behind it. The
times are 32 bits wide, truncated from the clock and saturated at their ends, while a validator compares
them as serial numbers. Both together leave exactly that window, cut at the ends of an era of 2^32 seconds.
-/

namespace RustyAlias

open Rust Rust.Outcome Dns

/-- At a time, the signatures made at a reading of the clock are in force. -/
def Timely (now : UInt32) (reading : ClockReading) : Prop :=
  SerialLe (signatureTimes reading).1 now ∧ SerialLe now (signatureTimes reading).2

/-- Times of one era, the second at most an hour before the first and at most a week behind it. -/
def InWindow (signed time : ℕ) : Prop :=
  time / 2 ^ 32 = signed / 2 ^ 32 ∧ signed ≤ time + 3600 ∧ time ≤ signed + 7 * 24 * 3600

/-- A reading less than 68 years from a time. -/
def Near (time : ℕ) (reading : ClockReading) : Prop :=
  ∃ t, reading = some t ∧ time + 3600 < t.toNat + 2 ^ 31 ∧ t.toNat < time + 2 ^ 31

section Times

private theorem serialLe_iff (a b : UInt32) : SerialLe a b ↔ (2 ^ 32 - a.toNat + b.toNat) % 2 ^ 32 < 2 ^ 31 := by
  rw [SerialLe, UInt32.toNat_sub]

private theorem signatureTimes_toNat (t : UInt64) :
    (signatureTimes (some t)).1.toNat = t.toNat % 2 ^ 32 - 3600 ∧
      (signatureTimes (some t)).2.toNat = min (t.toNat % 2 ^ 32 + 604800) (2 ^ 32 - 1) := by
  have now : t.toUInt32.toNat = t.toNat % 2 ^ 32 := UInt64.toNat_toUInt32 t
  have skew : inceptionSkewSecs.toNat = 3600 := rfl
  have validity : signatureValiditySecs.toNat = 604800 := rfl
  simp only [signatureTimes, Option.map_some, Option.getD_some, UInt32.lt_iff_toNat_lt, now, skew, validity]
  constructor
  · split
    · rw [UInt32.toNat_zero]
      omega
    · rw [UInt32.toNat_sub_of_le, now, skew]
      rw [UInt32.le_iff_toNat_le]
      omega
  · split
    · rw [UInt32.toNat_add, now, validity]
      omega
    · rw [UInt32.toNat_ofNat']
      omega

/-- Within 68 years of the reading, no comparison of serial numbers goes wrong. -/
theorem timely_iff (t : UInt64) {time : ℕ} (ahead : time + 3600 < t.toNat + 2 ^ 31) (behind : t.toNat < time + 2 ^ 31) :
    Timely (UInt32.ofNat time) (some t) ↔ InWindow t.toNat time := by
  obtain ⟨inception, expiration⟩ := signatureTimes_toNat t
  have now : (UInt32.ofNat time).toNat = time % 2 ^ 32 := UInt32.toNat_ofNat'
  rw [Timely, serialLe_iff, serialLe_iff, inception, expiration, now, InWindow]
  omega

end Times

section Readings

variable {params : ZoneParams} {qname : Bytes} {P : ClockReading → Prop}

/-- Every signature that is written is made at a reading of the clock, for a record that is queued. -/
theorem emitSets_readings {clock : Clock} (all : clock.All P) {sets : List (List Rr)}
    (plain : ∀ set ∈ sets, ∀ rr ∈ set, rr.typ ≠ typeRrsig) :
    (emitSets params qname clock sets).2.All P ∧ ∀ rr ∈ (emitSets params qname clock sets).1, rr.typ = typeRrsig →
      ∃ set ∈ sets, ∃ head ∈ set, ∃ key reading rdatas, P reading ∧ params.signer head.typ = some key ∧
        rr = rrsigRr params qname key reading head rdatas := by
  induction sets generalizing clock with
  | nil => exact ⟨all, by simp [emitSets]⟩
  | cons set rest ih =>
    have later : (clockAfter params clock set).All P := by
      unfold clockAfter
      split
      · exact all
      · split
        · exact fun n => all (n + 1)
        · exact all
    obtain ⟨remaining, others⟩ := ih later fun other member => plain other (List.mem_cons_of_mem _ member)
    refine ⟨remaining, fun rr member signature => ?_⟩
    rcases List.mem_append.mp member with member | member
    · cases set with
      | nil => cases member
      | cons head tail =>
        rcases List.mem_append.mp member with member | member
        · obtain ⟨rdata, _, rfl⟩ := List.mem_map.mp member
          exact absurd signature (plain _ (List.mem_cons_self ..) head (List.mem_cons_self ..))
        · obtain ⟨key, signer, rfl⟩ := by simpa only [Option.mem_toList, Option.map_eq_some_iff] using member
          exact ⟨_, List.mem_cons_self .., head, List.mem_cons_self .., key, _, _, all 0, signer, rfl⟩
    · obtain ⟨other, inside, rest⟩ := others rr member signature
      exact ⟨other, List.mem_cons_of_mem _ inside, rest⟩

theorem emitQueues_readings {clock : Clock} (all : clock.All P) {queues : Queues}
    (plain : queues.All fun rr => rr.typ ≠ typeRrsig) :
    (emitQueues params qname clock queues).All fun rr => rr.typ = typeRrsig →
      ∃ head ∈ queues.answers ++ queues.authority ++ queues.additional, ∃ key reading rdatas, P reading ∧
        params.signer head.typ = some key ∧ rr = rrsigRr params qname key reading head rdatas := by
  have inside {rrs : List Rr} {set : List Rr} (member : set ∈ rrsets rrs) {rr : Rr} (present : rr ∈ set) : rr ∈ rrs := by
    rw [← List.runs_flatten Rr.setKey rrs]
    exact List.mem_flatten.mpr ⟨set, member, present⟩
  have section_ {clock : Clock} (all : clock.All P) (rrs : List Rr)
      (sub : ∀ rr ∈ rrs, rr ∈ queues.answers ++ queues.authority ++ queues.additional) :
      (emitSets params qname clock (rrsets rrs)).2.All P ∧ ∀ rr ∈ (emitSets params qname clock (rrsets rrs)).1, rr.typ = typeRrsig →
        ∃ head ∈ queues.answers ++ queues.authority ++ queues.additional, ∃ key reading rdatas, P reading ∧
          params.signer head.typ = some key ∧ rr = rrsigRr params qname key reading head rdatas := by
    obtain ⟨remaining, each⟩ := @emitSets_readings params qname P clock all (rrsets rrs)
      fun set member rr present => plain rr (sub rr (inside member present))
    refine ⟨remaining, fun rr member signature => ?_⟩
    obtain ⟨set, there, head, present, rest⟩ := each rr member signature
    exact ⟨head, sub head (inside there present), rest⟩
  obtain ⟨afterAnswers, answers⟩ := section_ all queues.answers fun rr member => by simp [member]
  obtain ⟨afterAuthority, authority⟩ := section_ afterAnswers queues.authority fun rr member => by simp [member]
  obtain ⟨_, additional⟩ := section_ afterAuthority queues.additional fun rr member => by simp [member]
  exact Queues.all_mk answers authority additional

/-- The fields of a written signature, with the count of all labels of its owner. -/
theorem rrsigRr_reads {labels owner : Name} {head : Rr} (wired : ownerWire (wire labels) head.owner = wire (fold owner))
    (legal : Legal owner) (zone : LegalHost params.zone) (key : DnssecKey) (reading : ClockReading) (rdatas : List Bytes) :
    ∃ signature, readRrsig (rrsigRr params (wire labels) key reading head rdatas).rdata =
      some (key.rrsig reading (UInt8.ofNat owner.length) head.typ head.ttl params.zone signature) := by
  have octets : ∀ label ∈ fold owner, 1 ≤ label.length ∧ label.length ≤ 255 := fun label member =>
    have ⟨low, high⟩ := legal.fold.labels label member
    ⟨low, by omega⟩
  have total := legal.fold.total
  have few := legal.length_le
  have counted := labelCount_wire octets (show (wire (fold owner)).length ≤ 2 ^ 63 + 1 by omega)
  have length : (fold owner).length = owner.length := List.length_map _
  rw [rrsigRr, wired, DnssecKey.signRrsig, counted, ok_bind, length, Nat.min_eq_left (by omega)]
  exact ⟨_, readRrsig_rrsig key reading _ head.typ head.ttl zone _⟩

/-- What a legible record has for an owner, as the signature covers it. -/
theorem ownerWire_legible {labels : Name} (readable : ∀ label ∈ labels, Readable label) (legal : Legal labels) {rr : Rr}
    (legible : rr.Legible) :
    ownerWire (wire labels) rr.owner = wire (fold (ownerName labels rr.owner)) ∧ Legal (ownerName labels rr.owner) := by
  refine ⟨ownerWire_eq readable legal.total rr.owner, ?_⟩
  cases owner : rr.owner with
  | question => exact legal
  | name host => exact (legible.owner host owner).legal.fold

end Readings

/-- A record that is read in a section is the OPT record or one that is written. -/
theorem mem_message {header : Header} {question : Question} {records : Queues} {opt : Option Bool} {r : Record}
    (member : r ∈ (message header question records opt).answers ++ (message header question records opt).authority ++
      (message header question records opt).additional) :
    r.rtype = typeOpt ∨ ∃ rr ∈ records.answers ++ records.authority ++ records.additional, rr.record question.name = r := by
  simp only [message, List.mem_append, List.mem_map] at member ⊢
  rcases member with (⟨rr, member, same⟩ | ⟨rr, member, same⟩) | ⟨rr, member, same⟩ | ⟨_, _, rfl⟩
  · exact .inr ⟨rr, .inl (.inl member), same⟩
  · exact .inr ⟨rr, .inl (.inr member), same⟩
  · exact .inr ⟨rr, .inr member, same⟩
  · exact .inl rfl

/-- Every signature in the response to a well-formed query is made at a reading of the clock, and of all times near this
reading it is in force exactly in the window around it. -/
theorem signatures_window (clock : Clock) {query : Slice} {config : Config} {question : Question}
    (standard : StandardQuery query.data question) (hosts : config.LegalHosts) :
    ∃ response msg, handleQueryInternal clock query config = .ok response ∧ Holds response msg ∧
      ∀ r ∈ msg.answers ++ msg.authority ++ msg.additional, r.rtype = typeRrsig →
        ∃ rrsig n, readRrsig r.rdata = some rrsig ∧ (rrsig.inception, rrsig.expiration) = signatureTimes (clock.get n) ∧
          ∀ time, Near time (clock.get n) → ∃ t, clock.get n = some t ∧
            (SerialLe rrsig.inception (UInt32.ofNat time) ∧ SerialLe (UInt32.ofNat time) rrsig.expiration ↔
              InWindow t.toNat time) := by
  obtain ⟨domain, _, _, answered⟩ := standard.reply_eq config
  have short : (wire question.name).length ≤ 255 := standard.legal.total
  have legible := standard.emitQueues_legible hosts domain clock
  have legal : (paramsOf query.data config).LegalHosts := hosts
  have queued : (replyTo config (paramsOf query.data config) (wire question.name) domain question.qtype
      question.qclass).queues.All (Queued (paramsOf query.data config) (wire question.name)) :=
    replyTo_queued config domain question.qtype question.qclass
  refine ⟨_, _, standard.handleQueryInternal_eq answered clock,
    holds_layout (standard.replyHeader_qdcount ..) standard.legal legible _, ?_⟩
  generalize replyTo config (paramsOf query.data config) (wire question.name) domain question.qtype question.qclass = result
    at queued
  intro r member signature
  rcases mem_message member with opt | ⟨rr, written, rfl⟩
  · rw [opt] at signature
    exact absurd signature (by decide)
  · have made : clock.All fun reading => ∃ n, reading = clock.get n := fun n => ⟨n, rfl⟩
    have plain : result.queues.All fun rr => rr.typ ≠ typeRrsig := fun rr member => (queued rr member).typ_ne.1
    obtain ⟨head, there, key, reading, rdatas, ⟨n, same⟩, _, rfl⟩ := emitQueues_readings made plain rr written signature
    obtain ⟨wired, named⟩ := ownerWire_legible standard.readable standard.legal ((queued head there).legible legal short)
    have zone : LegalHost (paramsOf query.data config).zone := legal _ (by simp)
    obtain ⟨octets, read⟩ := rrsigRr_reads wired named zone key reading rdatas
    refine ⟨_, n, read, by simp only [DnssecKey.rrsig, same, Prod.mk.eta], fun time near => ?_⟩
    obtain ⟨t, present, ahead, behind⟩ := near
    have timely : Timely (UInt32.ofNat time) reading ↔ InWindow t.toNat time := by
      rw [same, present]
      exact timely_iff t ahead behind
    refine ⟨t, present, ?_⟩
    simp only [DnssecKey.rrsig]
    exact timely

/-- A clock that stands at a moment in 2023. -/
def sampleClock : Clock := Stream'.const (some 1700000000)

theorem sampleClock_near : sampleClock.All (Near 1700000060) := by
  intro n
  have value : (1700000000 : UInt64).toNat = 1700000000 := by decide
  refine ⟨1700000000, Stream'.get_const n _, ?_, ?_⟩
  · rw [value]
    omega
  · rw [value]
    omega

theorem sampleSignatures_window :
    ∃ response msg, handleQueryInternal sampleClock sampleQuery sampleSignedConfig = .ok response ∧ Holds response msg ∧
      ∀ r ∈ msg.answers ++ msg.authority ++ msg.additional, r.rtype = typeRrsig →
        ∃ rrsig, readRrsig r.rdata = some rrsig ∧
          (SerialLe rrsig.inception (UInt32.ofNat 1700000060) ∧ SerialLe (UInt32.ofNat 1700000060) rrsig.expiration ↔
            InWindow 1700000000 1700000060) := by
  obtain ⟨response, msg, answered, holds, signed⟩ :=
    @signatures_window sampleClock sampleQuery sampleSignedConfig sampleQuestion sampleQuery_standard sampleConfig_legalHosts
  refine ⟨response, msg, answered, holds, fun r member signature => ?_⟩
  obtain ⟨rrsig, n, read, _, window⟩ := signed r member signature
  obtain ⟨t, reading, inside⟩ := window 1700000060 (sampleClock_near n)
  obtain rfl : (1700000000 : UInt64) = t := Option.some.inj reading
  have value : (1700000000 : UInt64).toNat = 1700000000 := by decide
  rw [value] at inside
  exact ⟨rrsig, read, inside⟩

end RustyAlias
