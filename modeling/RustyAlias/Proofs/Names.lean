import RustyAlias.Dns.Name
import RustyAlias.Model.Names
import RustyAlias.Rust.Returns

/-! # Names as octets and as labels

The suffix tests of the source return, and decide one relation on octet strings: equality up to
case, or a proper extension to the left of a dot. A host name of the configuration that spells a
legal name is encoded as the folded labels of that name.
-/

namespace RustyAlias

open Rust Rust.Outcome Dns

/-- Equal to `zone` up to case, or strictly below it at a dot. -/
def Below (name zone : Bytes) : Prop :=
  lowerAll name = lowerAll zone ∨ zone.length + 1 < name.length ∧ (46 :: lowerAll zone) <:+ lowerAll name

instance (name zone : Bytes) : Decidable (Below name zone) := inferInstanceAs (Decidable (_ ∨ _))

/-- The octets of a name without its trailing dots. -/
def trimmed (name : Str) : Bytes := (name.trimEndMatches dot).bytes

private theorem trimmed_length_le (name : Str) : (trimmed name).length ≤ name.len := (List.rdropWhile_prefix _ _).length_le

/-- The suffix test of the source, octet by octet. -/
theorem dot_suffix_iff {name zone : Bytes} (longer : zone.length + 1 < name.length) :
    (46 :: lowerAll zone) <:+ lowerAll name ↔
      name[name.length - zone.length - 1]? = some 46 ∧ lowerAll (name.drop (name.length - zone.length)) = lowerAll zone := by
  have inside : name.length - zone.length - 1 < name.length := by omega
  rw [List.suffix_iff_eq_drop, List.length_cons, lowerAll_length, lowerAll_length,
    show name.length - (zone.length + 1) = name.length - zone.length - 1 by omega, lowerAll, lowerAll, ← List.map_drop,
    List.drop_eq_getElem_cons inside, List.map_cons, List.cons.injEq, eq_comm (a := (46 : UInt8)),
    toLower_eq_iff (by decide), List.getElem?_eq_getElem inside, Option.some.injEq,
    show name.length - zone.length - 1 + 1 = name.length - zone.length by omega, eq_comm (a := zone.map toLower)]
  rfl

/-- What the two suffix tests read from a name longer than the zone: the octet in front of the suffix,
and, where that is a dot, the suffix, which then starts at a character boundary. -/
theorem suffixTest_ok {name zone : Str} (longer : zone.len + 1 < name.len) :
    ∃ before, index name.bytes (name.len - zone.len - 1) = .ok before ∧
      (before ≠ dot.1 → ¬ (46 :: lowerAll zone.bytes) <:+ lowerAll name.bytes) ∧
      (before = dot.1 → ∃ suffix : Str, name.sliceFrom (name.len - zone.len) = .ok suffix ∧
        suffix.eqIgnoreAsciiCase zone = decide ((46 :: lowerAll zone.bytes) <:+ lowerAll name.bytes)) := by
  unfold Str.len at *
  have inside : name.bytes.length - zone.bytes.length - 1 < name.bytes.length := by omega
  have suffix := dot_suffix_iff longer
  rw [List.getElem?_eq_getElem inside, Option.some.injEq] at suffix
  refine ⟨_, index_of_lt inside, ?_, ?_⟩
  · intro other found
    exact other (suffix.mp found).1
  · intro before
    have boundary := Str.isCharBoundary_after_ascii (s := name) dot.2 (before ▸ List.getElem?_eq_getElem inside)
    rw [Nat.sub_add_cancel (by omega)] at boundary
    refine ⟨_, Str.sliceFrom_ok boundary, ?_⟩
    rw [Str.eqIgnoreAsciiCase, Bool.eq_iff_iff, eqIgnoreCase_iff, decide_eq_true_iff, suffix]
    exact ⟨fun equal => ⟨before, equal⟩, And.right⟩

theorem isInZone_eq (domain : Str) {zone : Str} (inMemory : zone.len ≤ isizeMax) :
    isInZone domain zone = .ok (decide (trimmed zone ≠ [] ∧ Below (trimmed domain) (trimmed zone))) := by
  have bound := trimmed_length_le zone
  unfold isizeMax at inMemory
  unfold isInZone Below trimmed at *
  generalize domain.trimEndMatches dot = d at *
  generalize zone.trimEndMatches dot = z at *
  change z.len ≤ _ at bound
  change _ = Except.ok (decide (_ ∧ (_ ∨ z.len + 1 < d.len ∧ _)))
  simp only [Str.isEmpty, List.isEmpty_iff]
  by_cases empty : z.bytes = []
  · simp [empty]
  rw [if_neg empty]
  by_cases equal : lowerAll d.bytes = lowerAll z.bytes
  · simp [equal, empty, Str.eqIgnoreAsciiCase, eqIgnoreCase]
  rw [if_neg (by simpa [Str.eqIgnoreAsciiCase, eqIgnoreCase] using equal), uadd_ok (by unfold usizeMax; omega), ok_bind]
  by_cases short : d.len ≤ z.len + 1
  · simp [short, equal, show ¬ z.len + 1 < d.len by omega]
  obtain ⟨before, read, miss, hit⟩ := suffixTest_ok (show z.len + 1 < d.len by omega)
  rw [if_neg short, usub_ok (by omega), ok_bind, usub_ok (by omega), ok_bind, read, ok_bind]
  by_cases same : before = dot.1
  · obtain ⟨suffix, sliced, decides⟩ := hit same
    simp [same, sliced, decides, empty, equal, show z.len + 1 < d.len by omega]
  · simp [same, miss same, equal]

theorem nameInBailiwick_eq (name : Str) {zone : Str} (inMemory : zone.len ≤ isizeMax) :
    nameInBailiwick name zone = .ok (decide (Below (trimmed name) (trimmed zone))) := by
  have bound := trimmed_length_le zone
  unfold isizeMax at inMemory
  unfold nameInBailiwick Below trimmed at *
  generalize name.trimEndMatches dot = d at *
  generalize zone.trimEndMatches dot = z at *
  change z.len ≤ _ at bound
  change _ = Except.ok (decide (_ ∨ z.len + 1 < d.len ∧ _))
  by_cases equal : lowerAll d.bytes = lowerAll z.bytes
  · simp [equal, Str.eqIgnoreAsciiCase, eqIgnoreCase]
  rw [if_neg (by simpa [Str.eqIgnoreAsciiCase, eqIgnoreCase] using equal), uadd_ok (by unfold usizeMax; omega), ok_bind]
  by_cases longer : z.len + 1 < d.len
  · obtain ⟨before, read, miss, hit⟩ := suffixTest_ok longer
    rw [if_pos longer, usub_ok (by omega), ok_bind, usub_ok (by omega), ok_bind, read, ok_bind]
    by_cases same : before = dot.1
    · obtain ⟨suffix, sliced, decides⟩ := hit same
      simp [same, sliced, decides, equal, longer]
    · simp [same, miss same, equal]
  · simp [longer, equal]

/-- The labels that a host name is encoded by. -/
def hostLabels (name : Str) : Name := if trimmed name = [] then [] else (trimmed name).splitOn 46

theorem encodeDomainName_eq (name : Str) : encodeDomainName name = wire (fold (hostLabels name)) := by
  have parts : (if (name.trimEndMatches dot).isEmpty then [] else (name.trimEndMatches dot).split dot).map Str.bytes =
      hostLabels name := by
    have octets : (name.trimEndMatches dot).bytes = trimmed name := rfl
    unfold hostLabels Str.isEmpty
    rw [octets]
    by_cases none : trimmed name = []
    · simp [none]
    · rw [if_neg (by simpa using none), if_neg none, Str.split_bytes]
      rfl
  rw [encodeDomainName, wire, fold, encodeLabels, ← parts, List.map_map, List.flatMap_map]
  simp [Str.len, Str.toAsciiLowercase]

/-- The labels of a string hold no dot. -/
theorem dot_notMem_hostLabels {name : Str} : ∀ label ∈ hostLabels name, (46 : UInt8) ∉ label := by
  intro label member
  unfold hostLabels at member
  split at member
  · cases member
  · exact notMem_of_mem_splitOn member

theorem text_hostLabels (name : Str) : text (hostLabels name) = trimmed name := by
  unfold hostLabels
  split
  · next none => rw [none]; rfl
  · exact List.intercalate_splitOn 46

theorem fold_hostLabels (name : Str) :
    fold (hostLabels name) = if lowerAll (trimmed name) = [] then [] else (lowerAll (trimmed name)).splitOn 46 := by
  have same : lowerAll (trimmed name) = [] ↔ trimmed name = [] := by simp [lowerAll]
  simp only [hostLabels, same, ← fold_splitOn]
  split <;> rfl

/-- The labels of two strings are one name when the strings are equal up to case and trailing dots. -/
theorem fold_hostLabels_eq_iff (a b : Str) :
    fold (hostLabels a) = fold (hostLabels b) ↔ lowerAll (trimmed a) = lowerAll (trimmed b) := by
  constructor
  · intro same
    rw [← text_hostLabels a, ← text_hostLabels b, lowerAll_text, lowerAll_text, same]
  · intro same
    rw [fold_hostLabels, fold_hostLabels, same]

theorem encodeDomainName_length_le (name : Str) : (encodeDomainName name).length ≤ name.len + 2 := by
  have bound := trimmed_length_le name
  have length := wire_length_le (hostLabels name)
  rw [text_hostLabels] at length
  rw [encodeDomainName_eq, wire_fold_length]
  omega

/-- Dots behind a name are trimmed. -/
theorem rdropWhile_dots (octets : Bytes) (n : ℕ) :
    (octets ++ List.replicate n 46).rdropWhile (· == 46) = octets.rdropWhile (· == 46) := by
  induction n with
  | zero => rw [List.replicate_zero, List.append_nil]
  | succ n ih => rw [List.replicate_succ', ← List.append_assoc, List.rdropWhile_concat_pos _ _ _ (by simp), ih]

/-- The text of a name whose last label does not end in a dot is not trimmed. -/
theorem rdropWhile_text {labels front : Name} {last : Label} (shape : labels = front ++ [last]) (nonempty : last ≠ [])
    (free : 46 ∉ last) : (text labels).rdropWhile (· == 46) = text labels := by
  rw [List.rdropWhile_eq_self_iff]
  intro some ends
  have suffix : last <:+ text labels := by
    simpa using text_isSuffix (shape ▸ List.suffix_append front [last]) (List.cons_ne_nil _ [])
  rw [beq_iff_eq, ← suffix.getLast nonempty] at ends
  have inside := List.getLast_mem nonempty
  rw [ends] at inside
  exact free inside

section Text

variable {name : Str} {labels : Name} (nonempty : ∀ label ∈ labels, label ≠ []) (dotless : ∀ label ∈ labels, 46 ∉ label)
  {n : ℕ} (spelled : name.bytes = text labels ++ List.replicate n 46)
include nonempty dotless spelled

/-- Exactly the dots behind the text of a name are trimmed. -/
theorem trimmed_text : trimmed name = text labels := by
  rw [trimmed, Str.bytes_trimEndMatches, spelled]
  refine (rdropWhile_dots (text labels) n).trans ?_
  by_cases root : labels = []
  · rw [root]
    rfl
  · have last := List.getLast_mem root
    exact rdropWhile_text (List.dropLast_append_getLast root).symm (nonempty _ last) (dotless _ last)

/-- The text of a name, with dots behind it, is encoded by the labels of the name. -/
theorem hostLabels_text : hostLabels name = labels := by
  rw [hostLabels, trimmed_text nonempty dotless spelled]
  simp only [text_eq_nil_iff nonempty]
  split
  · next none => exact none.symm
  · next some => exact splitOn_text some dotless

end Text

/-- The labels of a host name are free of dots, legal, and spelled with any number of dots behind. -/
structure Spells (name : Str) (labels : Name) : Prop where
  legal : Legal labels
  dotless : ∀ label ∈ labels, 46 ∉ label
  spelled : ∃ n, name.bytes = text labels ++ List.replicate n 46

/-- A string that is a legal domain name. -/
def LegalHost (name : Str) : Prop := ∃ labels, Spells name labels

theorem Spells.nonempty {name : Str} {labels : Name} (spells : Spells name labels) : ∀ label ∈ labels, label ≠ [] := by
  rintro label member rfl
  simpa using (spells.legal.labels [] member).1

theorem Spells.hostLabels_eq {name : Str} {labels : Name} (spells : Spells name labels) : hostLabels name = labels := by
  obtain ⟨_, octets⟩ := spells.spelled
  exact hostLabels_text spells.nonempty spells.dotless octets

private theorem exists_trimmed (name : Str) : ∃ n, name.bytes = trimmed name ++ List.replicate n 46 := by
  refine ⟨(name.bytes.rtakeWhile (· == 46)).length, ?_⟩
  have dots : name.bytes.rtakeWhile (· == 46) = List.replicate (name.bytes.rtakeWhile (· == 46)).length 46 :=
    List.eq_replicate_length.mpr fun b member => by simpa using List.mem_rtakeWhile_imp member
  rw [trimmed, Str.bytes_trimEndMatches, ← dots]
  exact (List.rdropWhile_append_rtakeWhile ..).symm

/-- A string is a legal host name when the labels that it is encoded by are a legal name. -/
theorem legalHost_iff (name : Str) : LegalHost name ↔ Legal (hostLabels name) := by
  constructor
  · rintro ⟨labels, spells⟩
    exact spells.hostLabels_eq ▸ spells.legal
  · intro legal
    refine ⟨hostLabels name, legal, dot_notMem_hostLabels, ?_⟩
    rw [text_hostLabels]
    exact exists_trimmed name

theorem LegalHost.legal {name : Str} (host : LegalHost name) : Legal (hostLabels name) := (legalHost_iff name).mp host

instance (name : Str) : Decidable (LegalHost name) := decidable_of_iff _ (legalHost_iff name).symm

end RustyAlias
