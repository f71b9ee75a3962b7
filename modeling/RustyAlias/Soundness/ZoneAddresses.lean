import RustyAlias.Proofs.ServedTypes
import RustyAlias.Proofs.Unproved
import RustyAlias.Soundness.Notations
import RustyAlias.Soundness.ZoneBoundary
import RustyAlias.Spec.Contents

/-! # The labels that an address comes from

The server looks for addresses among all labels of a name, those of the zone included. The labels in
front of the zone decide alone exactly when the labels of the zone spell nothing, not even together with
labels in front of them.
-/

namespace RustyAlias

open Rust Rust.Outcome Dns

/-- Whatever labels stand in front of the zone, they spell what they spell by themselves. -/
def FrontDecides (zone : List Str) : Prop :=
  ∀ front : List Str, front ≠ [] → (Str.join dot (front ++ zone)).len ≤ isizeMax →
    interpretIp (Str.join dot (front ++ zone)) = interpretIp (Str.join dot front)

/-- No label is an address, no four labels are one, and the first label is no octet of one. -/
structure Silent (zone : List Str) : Prop where
  ipv4 : ∀ label ∈ zone, parseLabelIpv4 label = .ok none
  ipv6 : ∀ label ∈ zone, parseHyphenatedIpv6 label = none
  dotted : parseDottedIpv4 zone = .ok none
  octet : ∀ label ∈ zone.head?, Ipv4Addr.decimalOctet label.bytes = none

section Spelled

variable {zone : List Bytes}

/-- The labels of a zone that spells nothing may follow any labels. -/
theorem spelled_append (ipv4 : zone.findSome? spelledIpv4 = none) (ipv6 : zone.findSome? spelledIpv6 = none)
    (dotted : firstQuad zone = none) (octet : ∀ label ∈ zone.head?, Ipv4Addr.decimalOctet label = none) (front : List Bytes) :
    spelled (front ++ zone) = spelled front := by
  have quad : firstQuad (front ++ zone) = firstQuad front := by
    cases zone with
    | nil => rw [List.append_nil]
    | cons label rest =>
      have barred := decimalQuad_barred (octet label rfl)
      rw [firstQuad, List.firstWindow_cons_barred (by decide) barred] at dotted
      rw [firstQuad, List.firstWindow_append_cons (by decide) barred, dotted, Option.or_none]
      rfl
  simp only [spelled, List.findSome?_append, ipv4, ipv6, Option.or_none, quad]

/-- Two labels in front that spell nothing, and three that are octets, tell whether the zone spells something. -/
theorem silent_of_spelled (plain : spelled ([120] :: zone) = none) (octets : spelled ([49] :: [50] :: [51] :: zone) = none) :
    zone.findSome? spelledIpv4 = none ∧ zone.findSome? spelledIpv6 = none ∧ firstQuad zone = none ∧
      ∀ label ∈ zone.head?, Ipv4Addr.decimalOctet label = none := by
  have nothing (labels : List Bytes) (none : spelled labels = none) :
      labels.findSome? spelledIpv4 = Option.none ∧ firstQuad labels = Option.none ∧ labels.findSome? spelledIpv6 = Option.none := by
    rw [spelled] at none
    split at none
    · next missing =>
      rw [Bool.and_eq_true, Option.isNone_iff_eq_none, Option.isNone_iff_eq_none, Option.or_eq_none_iff] at missing
      exact ⟨missing.1.1, missing.1.2, missing.2⟩
    · cases none
  obtain ⟨ipv4, dotted, ipv6⟩ := nothing _ plain
  have letter : Ipv4Addr.decimalOctet [120] = none := by decide +kernel
  rw [List.findSome?_cons_of_isNone (by decide +kernel)] at ipv4 ipv6
  rw [firstQuad, List.firstWindow_cons_barred (by decide) (decimalQuad_barred letter)] at dotted
  refine ⟨ipv4, ipv6, dotted, fun label first => ?_⟩
  obtain ⟨rest, rfl⟩ : ∃ rest, zone = label :: rest := by
    cases zone with
    | nil => cases first
    | cons other rest => exact ⟨rest, by rw [Option.mem_some_iff.mp first]⟩
  have window := (nothing _ octets).2.1
  rw [firstQuad, List.firstWindow_cons (by simp), Option.or_eq_none_iff] at window
  cases octet : Ipv4Addr.decimalOctet label with
  | none => rfl
  | some v =>
    have found : decimalQuad [[49], [50], [51], label] = some ⟨1, 2, 3, v⟩ := by
      have one : Ipv4Addr.decimalOctet [49] = some 1 := by decide +kernel
      have two : Ipv4Addr.decimalOctet [50] = some 2 := by decide +kernel
      have three : Ipv4Addr.decimalOctet [51] = some 3 := by decide +kernel
      simp [decimalQuad, one, two, three, octet]
    rw [show (_ : List Bytes).take 4 = [[49], [50], [51], label] from rfl, found] at window
    cases window.1

end Spelled

section Zone

variable {zone : List Str}

/-- Labels without dots are split off behind any others. -/
theorem splitOn_join (free : ∀ label ∈ zone, 46 ∉ label.bytes) {front : List Str} (some : front ≠ []) :
    (Str.join dot (front ++ zone)).bytes.splitOn 46 = (Str.join dot front).bytes.splitOn 46 ++ zone.map Str.bytes := by
  by_cases empty : zone = []
  · rw [empty, List.append_nil, List.map_nil, List.append_nil]
  · have labels : ∀ label ∈ zone.map Str.bytes, 46 ∉ label := by
      intro label member
      obtain ⟨part, present, rfl⟩ := List.mem_map.mp member
      exact free part present
    change (text ((front ++ zone).map Str.bytes)).splitOn 46 = _
    rw [List.map_append, text_append (by simpa using some) (by simpa using empty), List.splitOn_append_cons_self,
      splitOn_text (by simpa using empty) labels]
    rfl

private theorem length_le_join (parts : List Str) : parts.length ≤ (Str.join dot parts).len + 1 := by
  have length := Str.length_intercalate dot (parts.map Str.bytes)
  rw [List.length_map] at length
  change (Str.join dot parts).len + 1 = _ at length
  omega

private theorem len_join_append {front : List Str} (some : front ≠ []) :
    (Str.join dot front).len ≤ (Str.join dot (front ++ zone)).len ∧
      (Str.join dot (front ++ zone)).len ≤ (Str.join dot front).len + 1 + (Str.join dot zone).len := by
  by_cases empty : zone = []
  · rw [empty, List.append_nil]
    omega
  · have whole : (Str.join dot (front ++ zone)).bytes = (Str.join dot front).bytes ++ 46 :: (Str.join dot zone).bytes := by
      change text ((front ++ zone).map Str.bytes) = _
      rw [List.map_append, text_append (by simpa using some) (by simpa using empty)]
      rfl
    simp only [Str.len, whole, List.length_append, List.length_cons]
    omega

/-- The labels of the zone spell nothing, on octets. -/
theorem silent_iff (free : ∀ label ∈ zone, 46 ∉ label.bytes) (small : (Str.join dot zone).len ≤ isizeMax) :
    Silent zone ↔ (zone.map Str.bytes).findSome? spelledIpv4 = none ∧ (zone.map Str.bytes).findSome? spelledIpv6 = none ∧
      firstQuad (zone.map Str.bytes) = none ∧ ∀ label ∈ (zone.map Str.bytes).head?, Ipv4Addr.decimalOctet label = none := by
  have few : zone.length ≤ usizeMax := by
    have := length_le_join zone
    unfold isizeMax at small
    unfold usizeMax
    omega
  have each (label : Str) (member : label ∈ zone) : parseLabelIpv4 label = .ok (spelledIpv4 label.bytes) :=
    parseLabelIpv4_eq (Nat.le_trans (len_le_join dot member) small)
  have octet : (∀ label ∈ (zone.map Str.bytes).head?, Ipv4Addr.decimalOctet label = none) ↔
      ∀ label ∈ zone.head?, Ipv4Addr.decimalOctet label.bytes = none := by
    cases zone <;> simp
  rw [octet, List.findSome?_map, List.findSome?_map, List.findSome?_eq_none_iff, List.findSome?_eq_none_iff]
  constructor
  · intro silent
    refine ⟨fun label member => ?_, fun label member => ?_, ?_, silent.octet⟩
    · exact Except.ok.inj ((each label member).symm.trans (silent.ipv4 label member))
    · exact (parseHyphenatedIpv6_eq label).symm.trans (silent.ipv6 label member)
    · exact Except.ok.inj ((parseDottedIpv4_eq few free).symm.trans silent.dotted)
  · rintro ⟨ipv4, ipv6, dotted, octet⟩
    exact {
      ipv4 := fun label member => (each label member).trans (congrArg Except.ok (ipv4 label member))
      ipv6 := fun label member => (parseHyphenatedIpv6_eq label).trans (ipv6 label member)
      dotted := (parseDottedIpv4_eq few free).trans (congrArg Except.ok dotted)
      octet }

/-- The labels in front decide alone exactly when the zone is silent. -/
theorem frontDecides_iff (free : ∀ label ∈ zone, 46 ∉ label.bytes) (small : (Str.join dot zone).len + 6 ≤ isizeMax) :
    FrontDecides zone ↔ Silent zone := by
  rw [silent_iff free (by omega)]
  constructor
  · intro decides
    have alone (front : List Str) (some : front ≠ []) (short : (Str.join dot (front ++ zone)).len ≤ isizeMax)
        (short' : (Str.join dot front).len ≤ isizeMax) :
        spelled ((Str.join dot front).bytes.splitOn 46 ++ zone.map Str.bytes) = spelled ((Str.join dot front).bytes.splitOn 46) := by
      have same := decides front some short
      rw [interpretIp_spelled short, interpretIp_spelled short', splitOn_join free some] at same
      exact Except.ok.inj same
    have letter := alone [.ofString "x"] (by simp)
    have numbers := alone [.ofString "1", .ofString "2", .ofString "3"] (by simp)
    have first : (Str.join dot [.ofString "x"]).len = 1 := by decide +kernel
    have second : (Str.join dot [.ofString "1", .ofString "2", .ofString "3"]).len = 5 := by decide +kernel
    have bound := (@len_join_append zone [.ofString "x"] (by simp)).2
    have bound' := (@len_join_append zone [.ofString "1", .ofString "2", .ofString "3"] (by simp)).2
    refine silent_of_spelled ?_ ?_
    · exact (letter (by omega) (by omega)).trans (by decide +kernel)
    · exact (numbers (by omega) (by omega)).trans (by decide +kernel)
  · rintro ⟨ipv4, ipv6, dotted, octet⟩ front some short
    have short' : (Str.join dot front).len ≤ isizeMax := Nat.le_trans (len_join_append some).1 short
    rw [interpretIp_spelled short, interpretIp_spelled short', splitOn_join free some,
      spelled_append ipv4 ipv6 dotted octet]

end Zone

section Answers

variable {params : ZoneParams} {qname : Bytes}

private theorem plainRrs_addressRrs (qtype : UInt16) (addresses : Option Ipv4Addr × Option Ipv6Addr) :
    plainRrs (addressRrs qtype addresses) = addressRrs qtype addresses := by
  have other : typeA ≠ typeAaaa := by decide
  unfold addressRrs
  cases addresses.1.filter fun _ => wantsA qtype with
  | none =>
    cases addresses.2.filter fun _ => wantsAaaa qtype with
    | none => rfl
    | some v6 => exact plainRrs_singleton _
  | some v4 =>
    cases addresses.2.filter fun _ => wantsAaaa qtype with
    | none => exact plainRrs_singleton _
    | some v6 => exact plainRrs_pair other

/-- A name of no other kind has the address records of what it spells. -/
theorem replyTo_addresses {config : Config} {domain : Str} {qtype : UInt16} (inside : inZone domain config.glueName = true)
    (version : isVersionQuery domain = false) (apex : namesEq domain config.glueName = false)
    (ns : isConfiguredNs domain config = false)
    (dmarc : config.dmarc.isEmpty = true ∨ namesEq domain (dmarcOwner config.glueName) = false) :
    (replyTo config params qname domain qtype 1).queues.answers =
      addressRrs qtype ((addressOf (domain.split dot)).getD (none, none)) := by
  have owner : (!config.dmarc.isEmpty && namesEq domain (dmarcOwner config.glueName)) = false := by
    rcases dmarc with empty | other
    · rw [empty]
      rfl
    · rw [other, Bool.and_false]
  unfold replyTo
  rw [if_neg (not_not.mpr rfl), inside, version, owner, apex, ns]
  simp only [Bool.not_true, Bool.false_and, Bool.false_eq_true, if_false, Reply.authoritative]
  cases addressOf (domain.split dot) with
  | none => rfl
  | some addresses => exact addressQueues_answers addresses

end Answers

/-- An address query for a name that is made of labels in front of the zone's is answered with the addresses that all of
these labels spell; the labels in front decide alone exactly when the zone is silent. -/
theorem addresses_iff (clock : Clock) {query : Slice} {config : Config} {domain : Str} {front zone : List Str} {qtype : UInt16}
    (standard : opcode query = 0) (parsed : parseQuery query = .ok (some domain))
    (typed : parseQtypeQclass query = .ok (some (qtype, classIn)))
    (named : questionLabels query.data = (front ++ zone).map Str.bytes) (some : front ≠ [])
    (zoned : fold (zone.map Str.bytes) = fold (hostLabels config.glueName)) (nonempty : zone ≠ [])
    (version : isVersionQuery domain = false) (apex : namesEq domain config.glueName = false)
    (ns : isConfiguredNs domain config = false)
    (dmarc : config.dmarc.isEmpty = true ∨ namesEq domain (dmarcOwner config.glueName) = false) :
    domain = Str.join dot (front ++ zone) ∧
    (∃ contents addresses, handleQueryInternal clock query config = .ok (Contents.response contents query.data) ∧
      interpretIp (Str.join dot (front ++ zone)) = .ok addresses ∧ contents.header.rcode = 0 ∧
      unsigned contents.records.answers = addressRrs qtype (addresses.getD (none, none)) ∧
      (addressRrs qtype (addresses.getD (none, none)) = [] → contents.records.answers = [])) ∧
    (FrontDecides zone ↔ Silent zone) := by
  obtain ⟨_, labels, left, _, walked, _, spelled, _⟩ := parseQuery_walk parsed
  have read : questionLabels query.data = labels := by rw [questionLabels, walked]; rfl
  obtain ⟨shape, readable, _⟩ := encode_of_walkLabels? walked
  rw [read] at named
  subst named
  have whole : domain = Str.join dot (front ++ zone) := Str.ext spelled
  have bound : 12 + (encodeLabels ((front ++ zone).map Str.bytes)).length ≤ isizeMax := by
    have lengths := congrArg List.length shape
    have small := query.length_le
    rw [List.length_drop, List.length_append] at lengths
    have long := (parseQuery_walk parsed).1
    unfold Slice.len at long
    omega
  refine ⟨whole, ?_, ?_⟩
  · have small := parseQuery_small parsed
    have octets : ∀ label ∈ (front ++ zone).map Str.bytes, label ≠ [] := by
      rintro label member rfl
      exact absurd (readable _ member).nonempty (by simp)
    have zone' : trimmed config.glueName ≠ [] := by
      intro none
      rw [hostLabels, if_pos none] at zoned
      exact nonempty (List.map_eq_nil_iff.mp (List.map_eq_nil_iff.mp zoned))
    have inside : inZone domain config.glueName = true := by
      refine inZone_of_suffix spelled octets zone' ⟨fold (front.map Str.bytes), ?_⟩
      rw [← zoned, fold, fold, fold, ← List.map_append, ← List.map_append]
    have answers : (replyTo config (paramsOf query.data config) (qnameOf query.data) domain qtype classIn).queues.answers = _ :=
      replyTo_addresses inside version apex ns dmarc
    have queued : (replyTo config (paramsOf query.data config) (qnameOf query.data) domain qtype classIn).queues.All
        (Queued (paramsOf query.data config) (qnameOf query.data)) := replyTo_queued config domain qtype classIn
    have plain : ∀ rr ∈ (replyTo config (paramsOf query.data config) (qnameOf query.data) domain qtype classIn).queues.answers,
        rr.typ ≠ typeRrsig := fun rr member => (queued rr (List.mem_append_left _ (List.mem_append_left _ member))).typ_ne.1
    obtain ⟨queues, authoritative⟩ : ∃ queues, replyTo config (paramsOf query.data config) (qnameOf query.data) domain qtype
      classIn = .authoritative (paramsOf query.data config) queues := replyTo_inside _ _ qtype inside
    refine ⟨_, addressOf (domain.split dot), contents_of_question standard parsed typed clock config, ?_, ?_, ?_, ?_⟩
    · rw [← whole, interpretIp_eq small]
    · have noerror : (replyHeader query.data true rcodeNoerror).rcode = 0 := (replyHeader_rcode query.data true (by decide)).2
      rw [authoritative]
      exact noerror
    · refine (unsigned_section clock plain).trans ?_
      rw [answers, plainRrs_addressRrs]
    · intro none
      refine (section_eq_nil_iff clock plain).mpr ?_
      rw [answers, none]
  · refine frontDecides_iff ?_ ?_
    · intro label member dotted
      have source : lowerAll label.bytes ∈ fold (hostLabels config.glueName) := by
        rw [← zoned]
        exact List.mem_map_of_mem (List.mem_map_of_mem member)
      obtain ⟨other, present, same⟩ := List.mem_map.mp source
      rw [← mem_lowerAll_dot, ← same, mem_lowerAll_dot] at dotted
      exact dot_notMem_hostLabels other present dotted
    · obtain ⟨label, rest, rfl⟩ := List.exists_cons_of_ne_nil some
      have first := (readable label.bytes (by simp)).nonempty
      have width := text_length_le (zone.map Str.bytes)
      rw [List.map_append, encodeLabels, List.flatMap_append, List.length_append, List.map_cons, List.flatMap_cons,
        List.length_append, List.length_cons] at bound
      change (text (zone.map Str.bytes)).length + 6 ≤ isizeMax
      change (text (zone.map Str.bytes)).length ≤ (List.flatMap _ (zone.map Str.bytes)).length at width
      omega

theorem addresses_sample :
    Str.ofString "10-0-0-1.nip.nu" = Str.join dot ([.ofString "10-0-0-1"] ++ [.ofString "nip", .ofString "nu"]) ∧
    (∃ contents addresses, handleQueryInternal (fun _ => some 0) sampleQuery sampleConfig =
        .ok (Contents.response contents sampleQuery.data) ∧
      interpretIp (Str.join dot ([.ofString "10-0-0-1"] ++ [.ofString "nip", .ofString "nu"])) = .ok addresses ∧
      contents.header.rcode = 0 ∧ unsigned contents.records.answers = addressRrs typeA (addresses.getD (none, none)) ∧
      (addressRrs typeA (addresses.getD (none, none)) = [] → contents.records.answers = [])) ∧
    (FrontDecides [.ofString "nip", .ofString "nu"] ↔ Silent [.ofString "nip", .ofString "nu"]) :=
  have parsed : parseQuery sampleQuery = .ok (some (.ofString "10-0-0-1.nip.nu")) := by decide +kernel
  have typed : parseQtypeQclass sampleQuery = .ok (some (typeA, classIn)) := by decide +kernel
  have named : questionLabels sampleQuery.data =
      ([.ofString "10-0-0-1"] ++ [.ofString "nip", .ofString "nu"] : List Str).map Str.bytes := by decide +kernel
  addresses_iff _ (by decide +kernel) parsed typed named (List.cons_ne_nil _ _) (by decide +kernel) (List.cons_ne_nil _ _)
    (by decide +kernel) (by decide +kernel) (by decide +kernel) (.inl (by decide +kernel))

/-- The zone `4.com`. -/
def numberedConfig : Config := { sampleConfig with
  glueName := .ofString "4.com"
  inMemory := by decide +kernel }

/-- An A query for `1.2.3.4.com`. -/
def numberedQuery : Slice where
  data := [0, 7, 1, 0, 0, 1, 0, 0, 0, 0, 0, 0] ++ [1, 49, 1, 50, 1, 51, 1, 52, 3, 99, 111, 109, 0] ++ be16 typeA ++ be16 classIn
  length_le := by decide +kernel

/-- The labels 1, 2 and 3 spell no address, and in front of the zone `4.com` they are answered with one. -/
theorem numberedQuery_answered :
    questionLabels numberedQuery.data =
      ([.ofString "1", .ofString "2", .ofString "3"] ++ [.ofString "4", .ofString "com"] : List Str).map Str.bytes ∧
    hostLabels numberedConfig.glueName = ([.ofString "4", .ofString "com"] : List Str).map Str.bytes ∧
    isVersionQuery (.ofString "1.2.3.4.com") = false ∧ namesEq (.ofString "1.2.3.4.com") numberedConfig.glueName = false ∧
    isConfiguredNs (.ofString "1.2.3.4.com") numberedConfig = false ∧ numberedConfig.dmarc.isEmpty = true ∧
    interpretIp (Str.join dot [.ofString "1", .ofString "2", .ofString "3"]) = .ok none ∧
    (handleQueryInternal (fun _ => some 0) numberedQuery numberedConfig).map
      (fun response => (((decode response).map fun msg => msg.answers.map (·.rdata)))) = .ok (some [[1, 2, 3, 4]]) := by
  decide +kernel

end RustyAlias
