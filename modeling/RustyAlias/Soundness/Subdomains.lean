import RustyAlias.Proofs.Folding

/-! # The two tests for subdomains

`is_in_zone` decides authority and `name_in_bailiwick` decides glue. For a zone that is not empty they
are one relation on names, which ignores case and trailing dots.
-/

namespace RustyAlias

open Rust Rust.Outcome Dns

/-- Behind its trailing dots the name is the zone up to case, or something, a dot and the zone up to case. -/
def Within (name zone : Str) : Prop :=
  (name.trimEndMatches dot).eqIgnoreAsciiCase (zone.trimEndMatches dot) = true ∨
    ∃ front z : Str, front.isEmpty = false ∧ name.trimEndMatches dot = front ++ .ofAscii dot ++ z ∧
      z.eqIgnoreAsciiCase (zone.trimEndMatches dot) = true

/-- The strings are equal up to case once dots are added to their ends. -/
def Respelled (a b : Str) : Prop :=
  ∃ m n, lowerAll a.bytes ++ List.replicate m 46 = lowerAll b.bytes ++ List.replicate n 46

section Octets

private theorem below_refl (name : Bytes) : Below name name := .inl rfl

theorem below_trans {a b c : Bytes} (first : Below a b) (second : Below b c) : Below a c := by
  rcases first with same | ⟨longer, front, whole⟩
  · rcases second with same' | ⟨longer', suffix⟩
    · exact .inl (same.trans same')
    · have length := congrArg List.length same
      rw [lowerAll_length, lowerAll_length] at length
      exact .inr ⟨by omega, same ▸ suffix⟩
  · have length := congrArg List.length whole
    rw [List.length_append, List.length_cons, lowerAll_length, lowerAll_length] at length
    rcases second with same | ⟨longer', suffix⟩
    · have length' := congrArg List.length same
      rw [lowerAll_length, lowerAll_length] at length'
      exact .inr ⟨by omega, front, same ▸ whole⟩
    · refine .inr ⟨by omega, ?_⟩
      rw [← whole]
      exact suffix.trans ((List.suffix_cons ..).trans (List.suffix_append ..))

end Octets

section Names

private theorem within_iff (name zone : Str) : Within name zone ↔ Below (trimmed name) (trimmed zone) := by
  have equal (s : Str) : s.eqIgnoreAsciiCase (zone.trimEndMatches dot) = true ↔ lowerAll s.bytes = lowerAll (trimmed zone) :=
    eqIgnoreCase_iff
  refine or_congr (equal _) ?_
  constructor
  · rintro ⟨front, z, some, shape, same⟩
    have octets : trimmed name = front.bytes ++ 46 :: z.bytes := by
      rw [trimmed, shape]
      simp [Str.ofAscii, dot]
    have length := congrArg List.length ((equal z).mp same)
    have first : 0 < front.bytes.length := List.length_pos_of_ne_nil (by simpa [Str.isEmpty] using some)
    rw [lowerAll_length, lowerAll_length] at length
    rw [octets]
    refine ⟨by rw [List.length_append, List.length_cons]; omega, lowerAll front.bytes, ?_⟩
    rw [← (equal z).mp same, lowerAll, lowerAll, lowerAll, List.map_append, List.map_cons]
    rfl
  · rintro ⟨longer, front, whole⟩
    obtain ⟨first, rest, octets, _, suffix⟩ := List.map_eq_append_iff.mp whole.symm
    obtain ⟨b, z, rfl, low, same⟩ := List.map_eq_cons_iff.mp suffix
    obtain rfl : b = 46 := (toLower_eq_iff (by decide) b).mp low
    have utf8 := (name.trimEndMatches dot).utf8
    change Utf8.Valid (trimmed name) at utf8
    rw [octets, Utf8.valid_around_ascii (by decide)] at utf8
    refine ⟨⟨first, utf8.1⟩, ⟨z, utf8.2⟩, ?_, ?_, (equal _).mpr same⟩
    · have length := congrArg List.length octets
      have length' := congrArg List.length same
      rw [List.length_append, List.length_cons] at length
      rw [List.length_map, lowerAll_length] at length'
      have some : first ≠ [] := by
        rintro rfl
        rw [List.length_nil] at length
        omega
      simpa [Str.isEmpty] using some
    · exact Str.ext (octets.trans (by simp [Str.ofAscii, dot]))

/-- Dots at the end and the case of letters do not count. -/
theorem Respelled.trimmed {a b : Str} (same : Respelled a b) : lowerAll (trimmed a) = lowerAll (trimmed b) := by
  obtain ⟨m, n, whole⟩ := same
  rw [lowerAll_trimmed, lowerAll_trimmed, ← rdropWhile_dots _ m, whole, rdropWhile_dots]

private theorem below_respelled {name name' zone zone' : Str} (same : Respelled name name') (same' : Respelled zone zone') :
    Below (trimmed name) (trimmed zone) ↔ Below (trimmed name') (trimmed zone') := by
  have length := congrArg List.length same.trimmed
  have length' := congrArg List.length same'.trimmed
  simp only [lowerAll_length] at length length'
  rw [Below, Below, same.trimmed, same'.trimmed, length, length']

end Names

/-- Both tests decide whether a name is the zone or lies below it at a dot. The relation is reflexive and transitive, and
ignores case and trailing dots. -/
theorem isInZone_eq_bailiwick {name zone : Str} (some : (zone.trimEndMatches dot).isEmpty = false)
    (inMemory : zone.len ≤ isizeMax) :
    (∃ answer, isInZone name zone = .ok answer ∧ nameInBailiwick name zone = .ok answer ∧ (answer = true ↔ Within name zone)) ∧
      isInZone zone zone = .ok true ∧
      (∀ outer : Str, (outer.trimEndMatches dot).isEmpty = false → outer.len ≤ isizeMax →
        isInZone name zone = .ok true → isInZone zone outer = .ok true → isInZone name outer = .ok true) ∧
      ∀ name' zone' : Str, Respelled name name' → Respelled zone zone' → zone'.len ≤ isizeMax →
        isInZone name zone = isInZone name' zone' := by
  have nonempty {zone : Str} (some : (zone.trimEndMatches dot).isEmpty = false) : trimmed zone ≠ [] := by
    simpa [Str.isEmpty, trimmed] using some
  have decides {zone : Str} (some : (zone.trimEndMatches dot).isEmpty = false) (inMemory : zone.len ≤ isizeMax) (name : Str) :
      isInZone name zone = .ok (decide (Below (trimmed name) (trimmed zone))) := by
    rw [isInZone_eq name inMemory]
    simp only [nonempty some, ne_eq, not_false_eq_true, true_and]
  refine ⟨⟨_, decides some inMemory name, nameInBailiwick_eq name inMemory, ?_⟩, ?_, ?_, ?_⟩
  · rw [decide_eq_true_iff, within_iff]
  · rw [decides some inMemory, decide_eq_true (below_refl _)]
  · intro outer some' inMemory' first second
    rw [decides some inMemory] at first
    rw [decides some' inMemory'] at second
    have first : Below (trimmed name) (trimmed zone) := of_decide_eq_true (Except.ok.inj first)
    have second : Below (trimmed zone) (trimmed outer) := of_decide_eq_true (Except.ok.inj second)
    rw [decides some' inMemory', decide_eq_true (below_trans first second)]
  · intro name' zone' same same' inMemory'
    have some' : (zone'.trimEndMatches dot).isEmpty = false := by
      have length := congrArg List.length same'.trimmed
      have present := List.length_pos_of_ne_nil (nonempty some)
      rw [lowerAll_length, lowerAll_length] at length
      have behind : trimmed zone' ≠ [] := List.ne_nil_of_length_pos (by omega)
      simpa [Str.isEmpty, trimmed] using behind
    rw [decides some inMemory, decides some' inMemory', decide_eq_decide.mpr (below_respelled same same')]

theorem isInZone_eq_bailiwick_sample :
    (∃ answer, isInZone (.ofString "A.Addr.se.") (.ofString "addr.se") = .ok answer ∧
      nameInBailiwick (.ofString "A.Addr.se.") (.ofString "addr.se") = .ok answer ∧
      (answer = true ↔ Within (.ofString "A.Addr.se.") (.ofString "addr.se"))) ∧
      isInZone (.ofString "addr.se") (.ofString "addr.se") = .ok true ∧
      (∀ outer : Str, (outer.trimEndMatches dot).isEmpty = false → outer.len ≤ isizeMax →
        isInZone (.ofString "A.Addr.se.") (.ofString "addr.se") = .ok true →
        isInZone (.ofString "addr.se") outer = .ok true → isInZone (.ofString "A.Addr.se.") outer = .ok true) ∧
      ∀ name' zone' : Str, Respelled (.ofString "A.Addr.se.") name' → Respelled (.ofString "addr.se") zone' →
        zone'.len ≤ isizeMax → isInZone (.ofString "A.Addr.se.") (.ofString "addr.se") = isInZone name' zone' :=
  isInZone_eq_bailiwick (by decide +kernel) (by decide +kernel)

end RustyAlias
