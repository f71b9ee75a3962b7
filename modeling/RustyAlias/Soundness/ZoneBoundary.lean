import RustyAlias.Proofs.Dispatch
import RustyAlias.Soundness.QuestionReadings
import RustyAlias.Soundness.WellFormed

/-! # The boundary of the zone

Whether a name lies in the zone is decided on its dotted text. On labels that hold no dot the text
tells what the labels tell. A dot inside a label passes for a boundary between two, so the text of a
name can lie in the zone when its labels do not.
-/

namespace RustyAlias

open Rust Rust.Outcome Dns

section Text

private theorem trimmed_of_last {domain : Str} {labels : Name} (spelled : domain.bytes = text labels) {front : Name} {last : Label}
    (shape : labels = front ++ [last]) (nonempty : last ≠ []) (free : 46 ∉ last) : trimmed domain = text labels := by
  rw [trimmed, Str.bytes_trimEndMatches, spelled]
  exact rdropWhile_text shape nonempty free

/-- The labels of a string do not end in an empty one. -/
theorem hostLabels_last {zone : Str} (some : trimmed zone ≠ []) :
    ∃ front last, hostLabels zone = front ++ [last] ∧ last ≠ [] ∧ 46 ∉ last := by
  have labels : hostLabels zone = (trimmed zone).splitOn 46 := if_neg some
  have nonempty : hostLabels zone ≠ [] := labels ▸ List.splitOn_ne_nil _ _
  have shape := (List.dropLast_append_getLast nonempty).symm
  have last := List.getLast_mem nonempty
  generalize (hostLabels zone).dropLast = front at shape
  generalize (hostLabels zone).getLast nonempty = final at shape last
  refine ⟨front, final, shape, ?_, notMem_of_mem_splitOn (labels ▸ last)⟩
  rintro rfl
  have spelled := text_hostLabels zone
  rw [shape] at spelled
  by_cases alone : front = []
  · subst alone
    exact some (spelled.symm.trans rfl)
  · rw [text_append alone (List.cons_ne_nil _ _), text_singleton] at spelled
    have bare : (trimmed zone).getLast some ≠ 46 := by
      have kept := List.rdropWhile_last_not (· == 46) zone.bytes some
      exact fun same => kept (beq_iff_eq.mpr same)
    exact bare (by simp [← spelled])

/-- A name lies in the zone when the labels between its dots end with those of the zone, the octet in front of them
being no dot that the name starts with. -/
theorem inZone_iff (domain zone : Str) : inZone domain zone = true ↔
    trimmed zone ≠ [] ∧ ∃ front, front ≠ [[]] ∧ fold (hostLabels domain) = front ++ fold (hostLabels zone) := by
  rw [inZone, decide_eq_true_iff]
  refine and_congr_right fun some => ?_
  have zoneText : text (fold (hostLabels zone)) = lowerAll (trimmed zone) := by rw [← lowerAll_text, text_hostLabels]
  have zoneLabels : fold (hostLabels zone) = (lowerAll (trimmed zone)).splitOn 46 := by
    rw [fold_hostLabels, if_neg (by simpa [lowerAll] using some)]
  constructor
  · rintro (same | ⟨longer, front, same⟩)
    · exact ⟨[], by simp, (fold_hostLabels_eq_iff domain zone).mpr same⟩
    · have present : lowerAll (trimmed domain) ≠ [] := by simp [← same]
      refine ⟨front.splitOn 46, ?_, ?_⟩
      · intro bare
        have nothing : front = [] := (List.intercalate_splitOn 46).symm.trans (congrArg text bare)
        have length := congrArg List.length same
        simp only [nothing, List.nil_append, List.length_cons, lowerAll_length] at length
        omega
      · rw [fold_hostLabels, if_neg present, ← same, List.splitOn_append_cons_self, zoneLabels]
  · rintro ⟨front, proper, labels⟩
    by_cases alone : front = []
    · exact .inl ((fold_hostLabels_eq_iff domain zone).mp (by rw [labels, alone, List.nil_append]))
    · right
      have behind : fold (hostLabels zone) ≠ [] := zoneLabels ▸ List.splitOn_ne_nil _ _
      have whole : lowerAll (trimmed domain) = text front ++ 46 :: lowerAll (trimmed zone) := by
        rw [← text_hostLabels domain, lowerAll_text, labels, text_append alone behind, zoneText]
      have some : text front ≠ [] := fun none => (eq_of_text_eq_nil none).elim alone proper
      have length := congrArg List.length whole
      have first := List.length_pos_of_ne_nil some
      simp only [List.length_append, List.length_cons, lowerAll_length] at length
      exact ⟨by omega, whole ▸ List.suffix_append ..⟩

variable {domain zone : Str} {labels : Name} (spelled : domain.bytes = text labels)
  (nonempty : ∀ label ∈ labels, label ≠ []) (some : trimmed zone ≠ [])

include spelled nonempty some

/-- A name whose labels end with those of the zone lies in the zone. -/
theorem inZone_of_suffix (suffix : fold (hostLabels zone) <:+ fold labels) : inZone domain zone = true := by
  obtain ⟨front, whole⟩ := suffix
  obtain ⟨before, behind, shape, rfl, same⟩ := List.map_eq_append_iff.mp whole.symm
  change fold behind = fold (hostLabels zone) at same
  obtain ⟨zoneFront, zoneLast, ends, _, dotless⟩ := hostLabels_last some
  have split : fold behind = fold zoneFront ++ [lowerAll zoneLast] := by rw [same, ends]; simp [fold]
  obtain ⟨init, lasts, rfl, _, final⟩ := List.map_eq_append_iff.mp split
  obtain ⟨last, rfl, folded⟩ := List.map_eq_singleton_iff.mp final
  have plain : trimmed domain = text labels := by
    have shape : labels = (before ++ init) ++ [last] := by rw [shape, List.append_assoc]
    refine trimmed_of_last spelled shape (nonempty last (by simp [shape])) ?_
    rwa [← mem_lowerAll_dot, folded, mem_lowerAll_dot]
  have zoneText : lowerAll (trimmed zone) = text (fold (hostLabels zone)) := by rw [← text_hostLabels, lowerAll_text]
  have nameText : lowerAll (trimmed domain) = text (fold before ++ fold (hostLabels zone)) := by
    rw [plain, lowerAll_text, ← same, shape]
    simp [fold]
  rw [inZone, decide_eq_true_iff]
  refine ⟨some, ?_⟩
  by_cases alone : before = []
  · left
    rw [nameText, zoneText, alone]
    rfl
  · right
    have zoneLabels : fold (hostLabels zone) ≠ [] := by simp [fold, ends]
    rw [text_append (by simpa [fold] using alone) zoneLabels] at nameText
    have length := congrArg List.length nameText
    have first : (text (fold before)).length ≠ 0 := by
      rw [← lowerAll_text, lowerAll_length, ne_eq, List.length_eq_zero_iff,
        text_eq_nil_iff fun label member => nonempty label (by simp [shape, member])]
      exact alone
    rw [lowerAll_length, List.length_append, List.length_cons, ← zoneText, lowerAll_length] at length
    exact ⟨by omega, by rw [nameText, zoneText]; exact List.suffix_append ..⟩

/-- A name that lies in the zone ends with the labels of the zone, unless a dot stands inside a label there. -/
theorem suffix_of_inZone (inside : inZone domain zone = true)
    (free : ∀ label ∈ labels.drop (labels.length - (hostLabels zone).length), 46 ∉ label) :
    fold (hostLabels zone) <:+ fold labels := by
  rw [inZone, decide_eq_true_iff] at inside
  have below := inside.2
  have zoneSplit : fold (hostLabels zone) = (lowerAll (trimmed zone)).splitOn 46 := by
    rw [fold_hostLabels, if_neg (by simpa [lowerAll] using some)]
  have positive : 0 < (hostLabels zone).length := by
    obtain ⟨_, _, ends, _⟩ := hostLabels_last some
    simp [ends]
  have present : labels ≠ [] := by
    rintro rfl
    have empty : trimmed domain = [] := by rw [trimmed, Str.bytes_trimEndMatches, spelled]; rfl
    rw [empty] at below
    rcases below with same | ⟨longer, _⟩
    · exact some (by simpa [lowerAll] using same.symm)
    · simp at longer
  have length := List.length_pos_of_ne_nil present
  have behind : labels.drop (labels.length - (hostLabels zone).length) ≠ [] := by
    rw [ne_eq, List.drop_eq_nil_iff]
    omega
  have plain : trimmed domain = text labels := by
    have member := List.getLast_mem behind
    rw [List.getLast_drop] at member
    exact trimmed_of_last spelled (List.dropLast_append_getLast present).symm (nonempty _ (List.getLast_mem present))
      (free _ member)
  have zoneSuffix : fold (hostLabels zone) <:+ (lowerAll (trimmed domain)).splitOn 46 := by
    rcases below with same | ⟨_, front, same⟩
    · rw [same, zoneSplit]
    · rw [← same, List.splitOn_append_cons_self, ← zoneSplit]
      exact List.suffix_append ..
  have pieces : ∀ label ∈ fold (labels.drop (labels.length - (hostLabels zone).length)), 46 ∉ label := by
    intro label member
    obtain ⟨source, inside, rfl⟩ := List.mem_map.mp member
    rw [mem_lowerAll_dot]
    exact free source inside
  have whole := List.take_append_drop (labels.length - (hostLabels zone).length) labels
  have width : (labels.drop (labels.length - (hostLabels zone).length)).length =
      labels.length - (labels.length - (hostLabels zone).length) := List.length_drop
  have most : (labels.take (labels.length - (hostLabels zone).length)).length ≤ labels.length - (hostLabels zone).length :=
    List.length_take_le ..
  generalize labels.drop (labels.length - (hostLabels zone).length) = last at pieces whole width behind
  generalize labels.take (labels.length - (hostLabels zone).length) = front at whole most
  rw [plain, lowerAll_text, ← whole] at zoneSuffix
  rw [← whole]
  have split : fold (front ++ last) = fold front ++ fold last := List.map_append
  have lastSplit : (text (fold last)).splitOn 46 = fold last := splitOn_text (by simpa [fold] using behind) pieces
  by_cases alone : front = []
  · subst alone
    rwa [List.nil_append, lastSplit] at zoneSuffix
  · rw [split, text_append (by simpa [fold] using alone) (by simpa [fold] using behind), List.splitOn_append_cons_self,
      lastSplit] at zoneSuffix
    have first := List.length_pos_of_ne_nil alone
    rw [split]
    refine (List.suffix_of_suffix_length_le zoneSuffix (List.suffix_append ..) ?_).trans (List.suffix_append ..)
    simp only [fold, List.length_map]
    omega

end Text

/-- The labels between the dots of the text of a name, without those behind it. -/
def dottedLabels (labels : Name) : Name :=
  if (text labels).rdropWhile (· == 46) = [] then [] else ((text labels).rdropWhile (· == 46)).splitOn 46

/-- Read at its dots the text of the name ends with the labels of the zone, and one of these dots stands inside one of
the labels in their place. -/
def DottedInto (zone labels : Name) : Prop :=
  (∃ front, front ≠ [[]] ∧ fold (dottedLabels labels) = front ++ fold zone) ∧
    ∃ label ∈ labels.drop (labels.length - zone.length), 46 ∈ label

private theorem hostLabels_eq_dottedLabels {domain : Str} {labels : Name} (spelled : domain.bytes = text labels) :
    hostLabels domain = dottedLabels labels := by
  rw [hostLabels, dottedLabels, trimmed, Str.bytes_trimEndMatches, spelled]
  rfl

/-- The answer that the labels of a name call for: authority over the names that end with the labels of the zone, and
refusal of all others. -/
def ZoneLaw (zone labels : Name) (response : Bytes) : Prop :=
  if fold zone <:+ fold labels then (queryHeader response).rcode = 0 ∧ (queryHeader response).aa = true
  else (queryHeader response).rcode = 5

/-- The zone boundary is that of the labels, unless a dot inside a label takes the name into the zone. -/
theorem zoneLaw_iff (clock : Clock) {query : Slice} {config : Config} {domain : Str} {qtype : UInt16}
    (standard : opcode query = 0) (parsed : parseQuery query = .ok (some domain))
    (typed : parseQtypeQclass query = .ok (some (qtype, classIn))) (plain : isVersionQuery domain = false)
    (some : hostLabels config.glueName ≠ []) :
    (∃ response, handleQueryInternal clock query config = .ok response ∧
      ZoneLaw (hostLabels config.glueName) (questionLabels query.data) response) ↔
    ¬ DottedInto (hostLabels config.glueName) (questionLabels query.data) := by
  obtain ⟨_, labels, left, _, walked, _, spelled, _⟩ := parseQuery_walk parsed
  have read : questionLabels query.data = labels := by rw [questionLabels, walked]; rfl
  have readable := (encode_of_walkLabels? walked).2.1
  have nonempty : ∀ label ∈ labels, label ≠ [] := by
    rintro label member rfl
    exact absurd (readable _ member).nonempty (by simp)
  have zone : trimmed config.glueName ≠ [] := fun none => some (if_pos none)
  have boundary := inZone_iff domain config.glueName
  rw [hostLabels_eq_dottedLabels spelled] at boundary
  have returned := handleQueryInternal_of_question standard parsed typed clock config
  rw [read, returned]
  simp only [Except.ok.injEq, exists_eq_left', ZoneLaw, queryHeader_render]
  have noerror : (replyHeader query.data true rcodeNoerror).rcode = 0 := (replyHeader_rcode query.data true (by decide)).2
  have refused : (replyHeader query.data false rcodeRefused).rcode = 5 := (replyHeader_rcode query.data false (by decide)).2
  by_cases suffix : fold (hostLabels config.glueName) <:+ fold labels
  · obtain ⟨queues, answer⟩ := replyTo_inside (paramsOf query.data config) (qnameOf query.data) qtype
      (inZone_of_suffix spelled nonempty zone suffix)
    have free : ∀ label ∈ labels.drop (labels.length - (hostLabels config.glueName).length), 46 ∉ label := by
      intro label member
      rw [List.suffix_iff_eq_drop] at suffix
      have source : lowerAll label ∈ fold (hostLabels config.glueName) := by
        rw [suffix, fold, fold, List.length_map, List.length_map, ← List.map_drop]
        exact List.mem_map_of_mem member
      obtain ⟨other, inside, same⟩ := List.mem_map.mp source
      rw [← mem_lowerAll_dot, ← same, mem_lowerAll_dot]
      exact dot_notMem_hostLabels other inside
    refine iff_of_true ?_ ?_
    · rw [if_pos suffix, classIn, answer]
      exact ⟨noerror, (replyHeader_flags query.data true rcodeNoerror).2.2.2⟩
    · rintro ⟨_, label, member, dotted⟩
      exact free label member dotted
  · rw [if_neg suffix]
    cases inside : inZone domain config.glueName with
    | true =>
      obtain ⟨queues, answer⟩ := replyTo_inside (paramsOf query.data config) (qnameOf query.data) qtype inside
      refine iff_of_false ?_ (not_not.mpr ⟨(boundary.mp inside).2, ?_⟩)
      · rw [classIn, answer]
        change (replyHeader query.data true rcodeNoerror).rcode ≠ 5
        rw [noerror]
        decide
      · by_contra free
        push Not at free
        exact suffix (suffix_of_inZone spelled nonempty zone inside free)
    | false =>
      refine iff_of_true ?_ ?_
      · rw [classIn, replyTo_refused inside (by simp [plain])]
        exact refused
      · rintro ⟨dotted, _⟩
        rw [boundary.mpr ⟨zone, dotted⟩] at inside
        cases inside

/-- An A query for a name of two labels, the first of which holds a dot. -/
def dottedQuery : Slice where
  data := [0, 7, 1, 0, 0, 1, 0, 0, 0, 0, 0, 0] ++ [8, 101, 118, 105, 108, 46, 110, 105, 112, 2, 110, 117, 0] ++ be16 typeA ++
    be16 classIn
  length_le := by decide +kernel

theorem zoneLaw_dotted :
    (∃ response, handleQueryInternal (fun _ => none) sampleQuery sampleConfig = .ok response ∧
      ZoneLaw (hostLabels sampleConfig.glueName) (questionLabels sampleQuery.data) response) ↔
    ¬ DottedInto (hostLabels sampleConfig.glueName) (questionLabels sampleQuery.data) :=
  have parsed : parseQuery sampleQuery = .ok (some (.ofString "10-0-0-1.nip.nu")) := by decide +kernel
  have typed : parseQtypeQclass sampleQuery = .ok (some (typeA, classIn)) := by decide +kernel
  zoneLaw_iff _ (by decide +kernel) parsed typed (by decide +kernel) (by decide +kernel)

/-- The labels `evil.nip` and `nu` do not end with `nip` and `nu`, and yet the server claims authority. -/
theorem dottedQuery_breaks_zoneLaw :
    opcode dottedQuery = 0 ∧ (∃ domain, parseQuery dottedQuery = .ok (some domain) ∧ isVersionQuery domain = false) ∧
      parseQtypeQclass dottedQuery = .ok (some (typeA, classIn)) ∧ hostLabels sampleConfig.glueName ≠ [] ∧
      ¬ ∃ response, handleQueryInternal (fun _ => none) dottedQuery sampleConfig = .ok response ∧
        ZoneLaw (hostLabels sampleConfig.glueName) (questionLabels dottedQuery.data) response := by
  refine ⟨by decide +kernel, ⟨.ofString "evil.nip.nu", by decide +kernel, by decide +kernel⟩, by decide +kernel, by decide +kernel, ?_⟩
  rintro ⟨response, returned, law⟩
  have header : (handleQueryInternal (fun _ => none) dottedQuery sampleConfig).map (fun r => (queryHeader r).rcode) =
      .ok 0 := by decide +kernel
  rw [returned] at header
  have rcode : (queryHeader response).rcode = 0 := by injection header
  rw [ZoneLaw, if_neg (by decide +kernel), rcode] at law
  cases law

end RustyAlias
