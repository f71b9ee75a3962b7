import RustyAlias.Rust.Bytes
import RustyAlias.ToMathlib.SplitOn

/-! # Domain names

A domain name is its sequence of labels, leftmost first, without the root. `encodeLabels` is the
uncompressed wire form without the closing root label and `text` the presentation form, both
without escapes. A label is any octet string; `Legal` adds the length limits of RFC 1035. Names
compare by the ASCII case folding of their octets.
-/

namespace Dns

open Rust

abbrev Label := Bytes

abbrev Name := List Label

/-- Length-prefixed labels. -/
def encodeLabels (name : Name) : Bytes := name.flatMap fun label => UInt8.ofNat label.length :: label

/-- The uncompressed wire form. -/
def wire (name : Name) : Bytes := encodeLabels name ++ [0]

/-- Labels separated by dots. -/
def text (name : Name) : Bytes := [46].intercalate name

/-- The case-folded name, which is also its canonical form in DNSSEC. -/
def fold (name : Name) : Name := name.map lowerAll

/-- RFC 1035 limits: labels of 1 to 63 octets and a wire form of at most 255. -/
structure Legal (name : Name) : Prop where
  labels : ∀ label ∈ name, 1 ≤ label.length ∧ label.length ≤ 63
  total : (wire name).length ≤ 255

@[simp] theorem encodeLabels_nil : encodeLabels [] = [] := rfl

@[simp] theorem encodeLabels_cons (label : Label) (rest : Name) :
    encodeLabels (label :: rest) = UInt8.ofNat label.length :: (label ++ encodeLabels rest) := rfl

@[simp] theorem encodeLabels_append (a b : Name) : encodeLabels (a ++ b) = encodeLabels a ++ encodeLabels b :=
  List.flatMap_append

@[simp] theorem wire_nil : wire [] = [0] := rfl

@[simp] theorem wire_cons (label : Label) (rest : Name) :
    wire (label :: rest) = UInt8.ofNat label.length :: (label ++ wire rest) := by simp [wire]

theorem length_octet {label : Label} (high : label.length ≤ 255) : (UInt8.ofNat label.length).toNat = label.length := by
  simp only [UInt8.toNat_ofNat']
  omega

theorem length_octet_ne_zero {label : Label} (low : 1 ≤ label.length) (high : label.length ≤ 255) :
    UInt8.ofNat label.length ≠ 0 := by
  rw [ne_eq, ← UInt8.toNat_inj, length_octet high]
  simp only [UInt8.reduceToNat]
  omega

/-- Labels without zero octets are encoded without any. -/
theorem zero_notMem_encodeLabels {labels : Name} (octets : ∀ label ∈ labels, 1 ≤ label.length ∧ label.length ≤ 255)
    (free : ∀ label ∈ labels, 0 ∉ label) : 0 ∉ encodeLabels labels := by
  rw [encodeLabels, List.mem_flatMap]
  rintro ⟨label, member, zero⟩
  rcases List.mem_cons.mp zero with octet | zero
  · obtain ⟨low, high⟩ := octets label member
    exact length_octet_ne_zero low high octet.symm
  · exact free label member zero

theorem length_le_encodeLabels (name : Name) : name.length ≤ (encodeLabels name).length := by
  induction name with
  | nil => simp
  | cons label rest ih => simp only [encodeLabels_cons, List.length_cons, List.length_append]; omega

theorem Legal.length_le {name : Name} (legal : Legal name) : name.length ≤ 254 := by
  have bound := length_le_encodeLabels name
  have total := legal.total
  simp only [wire, List.length_append, List.length_singleton] at total
  omega

@[simp] theorem fold_cons (label : Label) (rest : Name) : fold (label :: rest) = lowerAll label :: fold rest := rfl

@[simp] theorem fold_fold (name : Name) : fold (fold name) = fold name := by
  simp [fold, Function.comp_def]

/-- Folding keeps the lengths of labels. -/
theorem octets_fold {name : Name} (octets : ∀ label ∈ name, 1 ≤ label.length ∧ label.length ≤ 255) :
    ∀ label ∈ fold name, 1 ≤ label.length ∧ label.length ≤ 255 := by
  intro label member
  obtain ⟨source, present, rfl⟩ := List.mem_map.mp member
  rw [lowerAll_length]
  exact octets source present

theorem encodeLabels_fold_length (name : Name) : (encodeLabels (fold name)).length = (encodeLabels name).length := by
  induction name with
  | nil => rfl
  | cons label rest ih => simp [ih]

theorem wire_fold_length (name : Name) : (wire (fold name)).length = (wire name).length := by
  simp [wire, encodeLabels_fold_length]

theorem legal_iff (name : Name) :
    Legal name ↔ (∀ label ∈ name, 1 ≤ label.length ∧ label.length ≤ 63) ∧ (wire name).length ≤ 255 :=
  ⟨fun legal => ⟨legal.labels, legal.total⟩, fun ⟨labels, total⟩ => ⟨labels, total⟩⟩

instance (name : Name) : Decidable (Legal name) := decidable_of_iff _ (legal_iff name).symm

/-- Folding moves no label boundary. -/
theorem Legal.fold {name : Name} (legal : Legal name) : Legal (fold name) where
  labels label member := by
    obtain ⟨source, present, rfl⟩ := List.mem_map.mp member
    simpa using legal.labels source present
  total := wire_fold_length name ▸ legal.total

theorem Legal.of_fold {name : Name} (legal : Legal (Dns.fold name)) : Legal name where
  labels label member := by simpa using legal.labels _ (List.mem_map_of_mem member)
  total := wire_fold_length name ▸ legal.total

@[simp] theorem text_singleton (label : Label) : text [label] = label := List.intercalate_singleton

theorem text_cons_of_ne_nil {label : Label} {rest : Name} (nonempty : rest ≠ []) :
    text (label :: rest) = label ++ 46 :: text rest := by
  simp [text, List.intercalate_cons_of_ne_nil nonempty]

theorem text_length_le (name : Name) : (text name).length ≤ (encodeLabels name).length := by
  induction name with
  | nil => simp [text]
  | cons label rest ih =>
    by_cases last : rest = []
    · simp [last]
    · rw [text_cons_of_ne_nil last]
      simp only [encodeLabels_cons, List.length_cons, List.length_append]
      omega

theorem wire_length_le (name : Name) : (wire name).length ≤ (text name).length + 2 := by
  induction name with
  | nil => simp
  | cons label rest ih =>
    by_cases last : rest = []
    · simp [last]
    · rw [text_cons_of_ne_nil last]
      simp only [wire_cons, List.length_cons, List.length_append] at *
      omega

/-- The text of two adjoining names. -/
theorem text_append {a b : Name} (left : a ≠ []) (right : b ≠ []) : text (a ++ b) = text a ++ 46 :: text b := by
  induction a with
  | nil => contradiction
  | cons label rest ih =>
    by_cases last : rest = []
    · subst last
      simpa using text_cons_of_ne_nil right
    · rw [List.cons_append, text_cons_of_ne_nil (by simp [last]), ih last, text_cons_of_ne_nil last]
      simp

theorem text_isSuffix {a b : Name} (suffix : b <:+ a) (nonempty : b ≠ []) : text b <:+ text a := by
  obtain ⟨front, rfl⟩ := suffix
  by_cases whole : front = []
  · subst whole; exact List.suffix_refl _
  · rw [text_append whole nonempty, ← List.singleton_append, ← List.append_assoc]
    exact List.suffix_append ..

theorem text_eq_nil_iff {name : Name} (nonempty : ∀ label ∈ name, label ≠ []) : text name = [] ↔ name = [] := by
  cases name with
  | nil => simp [text]
  | cons label rest =>
    have first := nonempty label (List.mem_cons_self ..)
    by_cases last : rest = []
    · simp [last, first]
    · simp [text_cons_of_ne_nil last]

theorem eq_of_text_eq_nil {name : Name} (empty : text name = []) : name = [] ∨ name = [[]] := by
  cases name with
  | nil => exact .inl rfl
  | cons label rest =>
    by_cases last : rest = []
    · exact .inr (by simpa [last] using empty)
    · simp [text_cons_of_ne_nil last] at empty

theorem lowerAll_text (name : Name) : lowerAll (text name) = text (fold name) := by
  induction name with
  | nil => rfl
  | cons label rest ih =>
    by_cases last : rest = []
    · subst last
      simp [fold]
    · rw [text_cons_of_ne_nil last, fold_cons, text_cons_of_ne_nil (by simpa [fold] using last), ← ih]
      simp [toLower]

/-- Splitting the text at its dots gives back labels that hold none. -/
theorem splitOn_text {name : Name} (nonempty : name ≠ []) (free : ∀ label ∈ name, 46 ∉ label) :
    (text name).splitOn 46 = name := List.splitOn_intercalate 46 free nonempty

/-- What stands between two dots holds none. -/
theorem notMem_of_mem_splitOn {octets part : Bytes} (member : part ∈ octets.splitOn 46) : (46 : UInt8) ∉ part :=
  List.notMem_of_mem_splitOn member

theorem mem_lowerAll_dot (octets : Bytes) : (46 : UInt8) ∈ lowerAll octets ↔ 46 ∈ octets := by
  simp [lowerAll, toLower_eq_iff]

/-- Folding moves no dot. -/
theorem fold_splitOn (octets : Bytes) : fold (octets.splitOn 46) = (lowerAll octets).splitOn 46 :=
  (List.splitOn_map fun b _ => toLower_eq_iff (by decide) b).symm

end Dns
