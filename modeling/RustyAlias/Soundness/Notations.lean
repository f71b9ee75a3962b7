import RustyAlias.Proofs.Folding

/-! # Every notation is read as the address that it spells

An IPv4 address in any of its five notations is found among labels that spell no other, and of a
dual-stack name both addresses are found in whatever order its labels stand.
-/

namespace RustyAlias

open Rust Rust.Outcome

/-- A hexadecimal digit in lower case. -/
def hexDigit (n : ℕ) : UInt8 := UInt8.ofNat (if n < 10 then 48 + n else 87 + n)

/-- Eight hexadecimal digits, two for each octet. -/
def hexText (ip : Ipv4Addr) : Bytes := ip.octets.flatMap fun v => [hexDigit (v.toNat / 16), hexDigit (v.toNat % 16)]

/-- An octet in decimal without leading zeros. -/
def decimalText (v : UInt8) : Bytes :=
  (if 100 ≤ v.toNat then [UInt8.ofNat (48 + v.toNat / 100)] else []) ++
    (if 10 ≤ v.toNat then [UInt8.ofNat (48 + v.toNat / 10 % 10)] else []) ++ [UInt8.ofNat (48 + v.toNat % 10)]

/-- The four octets in decimal. -/
def decimals (ip : Ipv4Addr) : List Bytes := ip.octets.map decimalText

/-- A label that the parsers do not take for an address or a part of one. -/
structure Addressless (label : Str) : Prop where
  dotless : 46 ∉ label.bytes
  ipv4 : parseLabelIpv4 label = .ok none
  octet : parseU8 label = none

instance (label : Str) : Decidable (Addressless label) :=
  decidable_of_iff (46 ∉ label.bytes ∧ parseLabelIpv4 label = .ok none ∧ parseU8 label = none)
    ⟨fun ⟨dotless, ipv4, octet⟩ => ⟨dotless, ipv4, octet⟩, fun plain => ⟨plain.dotless, plain.ipv4, plain.octet⟩⟩

/-- A non-empty name of tokens that are neither decimal octets nor eight hexadecimal digits. -/
structure HyphenName (name : Str) : Prop where
  nonempty : name.bytes ≠ []
  dotless : 46 ∉ name.bytes
  octet : ∀ token ∈ name.split hyphen, parseU8 token = none
  hexadecimal : ∀ token ∈ name.split hyphen, ¬ (token.len = 8 ∧ token.bytes.all isAsciiHexdigit = true)

/-- The labels by which an IPv4 address is written. -/
inductive Spelling (ip : Ipv4Addr) : List Str → Prop
  | hex (label : Str) (octets : lowerAll label.bytes = hexText ip) : Spelling ip [label]
  | namedHex (name label : Str) (named : HyphenName name) (digits : Bytes) (octets : lowerAll digits = hexText ip)
      (joined : label.bytes = name.bytes ++ hyphen.1 :: digits) : Spelling ip [label]
  | hyphens (label : Str) (octets : label.bytes = [hyphen.1].intercalate (decimals ip)) : Spelling ip [label]
  | namedHyphens (name label : Str) (named : HyphenName name)
      (joined : label.bytes = name.bytes ++ hyphen.1 :: [hyphen.1].intercalate (decimals ip)) : Spelling ip [label]
  | dots (labels : List Str) (octets : labels.map Str.bytes = decimals ip) : Spelling ip labels

section Digits

private theorem decimalOctet_decimalText : ∀ v, Ipv4Addr.decimalOctet (decimalText v) = some v := by decide +kernel

private theorem decimalText_digits : ∀ v, ∀ b ∈ decimalText v, (toDigit 10 b).isSome := fun v =>
  (decimalOctet_digits (decimalOctet_decimalText v)).2

theorem decimals_length (ip : Ipv4Addr) : (decimals ip).length = 4 := rfl

theorem decimalQuad_decimals (ip : Ipv4Addr) : decimalQuad (decimals ip) = some ip :=
  decimalQuad_eq_some_iff.mpr ⟨_, _, _, _, rfl, decimalOctet_decimalText _, decimalOctet_decimalText _,
    decimalOctet_decimalText _, decimalOctet_decimalText _⟩

private theorem hexOctet_hexDigit : ∀ v : UInt8, hexOctet (hexDigit (v.toNat / 16)) (hexDigit (v.toNat % 16)) = some v := by
  decide +kernel

private theorem hexQuad_hexText {ip : Ipv4Addr} {digits : Bytes} (octets : lowerAll digits = hexText ip) :
    hexQuad digits = some ip := by
  rw [← hexQuad_lowerAll, octets]
  simp [hexText, Ipv4Addr.octets, hexQuad, hexOctet_hexDigit]

theorem spelledIpv4_decimalText : ∀ v, spelledIpv4 (decimalText v) = none := by decide +kernel

end Digits

section Labels

theorem hexQuad_hyphened {label : Bytes} (hyphened : hyphen.1 ∈ label) : hexQuad label = none := by
  by_contra found
  obtain ⟨ip, found⟩ := Option.ne_none_iff_exists'.mp found
  have digit := List.all_eq_true.mp (hexQuad_digits found).2 _ hyphened
  revert digit
  decide

theorem HyphenName.tokens {name : Str} (named : HyphenName name) : ∀ token ∈ name.bytes.splitOn hyphen.1,
    Ipv4Addr.decimalOctet token = none ∧ hexQuad token = none := by
  intro token member
  rw [← Str.split_bytes] at member
  obtain ⟨part, present, rfl⟩ := List.mem_map.mp member
  constructor
  · by_contra read
    obtain ⟨v, read⟩ := Option.ne_none_iff_exists'.mp read
    have none := named.octet part present
    rw [parseU8, u8_of_decimalOctet read] at none
    cases none
  · by_contra found
    obtain ⟨ip, found⟩ := Option.ne_none_iff_exists'.mp found
    exact named.hexadecimal part present (hexQuad_digits found)

private theorem decimals_free {ip : Ipv4Addr} {c : UInt8} (other : ¬ (toDigit 10 c).isSome) :
    ∀ piece ∈ decimals ip, c ∉ piece := by
  intro piece member inside
  obtain ⟨v, _, rfl⟩ := List.mem_map.mp member
  exact other (decimalText_digits v c inside)

private theorem splitOn_hyphens (ip : Ipv4Addr) : ([hyphen.1].intercalate (decimals ip)).splitOn hyphen.1 = decimals ip :=
  List.splitOn_intercalate _ (decimals_free (by decide)) (by simp [decimals, Ipv4Addr.octets])

private theorem hyphen_mem_hyphens (ip : Ipv4Addr) : hyphen.1 ∈ [hyphen.1].intercalate (decimals ip) := by
  simp [decimals, Ipv4Addr.octets, List.intercalate_cons_cons]

/-- Tokens in front that are parts of no address are passed over. -/
theorem spelledIpv4_named {name : Str} (named : HyphenName name) (rest : Bytes) :
    spelledIpv4 (name.bytes ++ hyphen.1 :: rest) =
      (firstQuad (rest.splitOn hyphen.1)).or ((rest.splitOn hyphen.1).findSome? hexQuad) := by
  have front : (name.bytes.splitOn hyphen.1).findSome? hexQuad = none :=
    List.findSome?_eq_none_iff.mpr fun token member => (named.tokens token member).2
  rw [spelledIpv4, hexQuad_hyphened (by simp), Option.none_or, List.splitOn_append_cons_self, firstQuad, firstQuad,
    List.firstWindow_append_of_barred (by decide) fun token member => decimalQuad_barred (named.tokens token member).1,
    List.findSome?_append, front, Option.none_or]

private theorem spelledIpv4_hyphens (ip : Ipv4Addr) : spelledIpv4 ([hyphen.1].intercalate (decimals ip)) = some ip := by
  rw [spelledIpv4, hexQuad_hyphened (hyphen_mem_hyphens ip), Option.none_or, splitOn_hyphens, firstQuad,
    List.firstWindow_self (by decide) (decimals_length ip), decimalQuad_decimals, Option.some_or]

/-- A spelling is one label that spells the address, or its four octets. -/
theorem Spelling.label_or_octets {ip : Ipv4Addr} {labels : List Str} (spelling : Spelling ip labels) :
    (∃ label, labels = [label] ∧ spelledIpv4 label.bytes = some ip ∧ 46 ∉ label.bytes) ∨
      labels.map Str.bytes = decimals ip := by
  have digitless {digits : Bytes} (octets : lowerAll digits = hexText ip) {c : UInt8} (other : isAsciiHexdigit c = false) :
      c ∉ digits := by
    intro inside
    have digit := List.all_eq_true.mp (hexQuad_digits (hexQuad_hexText octets)).2 c inside
    rw [other] at digit
    cases digit
  have dotless : 46 ∉ [hyphen.1].intercalate (decimals ip) := by
    have free : ∀ v, 46 ∉ decimalText v := by decide +kernel
    simp [decimals, Ipv4Addr.octets, List.intercalate_cons_cons, free, hyphen]
  cases spelling with
  | hex label octets =>
    exact .inl ⟨label, rfl, by rw [spelledIpv4, hexQuad_hexText octets, Option.some_or], digitless octets (by decide)⟩
  | namedHex name label named digits octets joined =>
    refine .inl ⟨label, rfl, ?_, ?_⟩
    · rw [joined, spelledIpv4_named named, List.splitOn_eq_singleton (digitless octets (by decide)), firstQuad,
        List.firstWindow_of_short (by simp), Option.none_or, List.findSome?_singleton, hexQuad_hexText octets]
    · rw [joined, List.mem_append, List.mem_cons, not_or, not_or]
      exact ⟨named.dotless, by decide, digitless octets (by decide)⟩
  | hyphens label octets => exact .inl ⟨label, rfl, by rw [octets, spelledIpv4_hyphens], octets ▸ dotless⟩
  | namedHyphens name label named joined =>
    refine .inl ⟨label, rfl, ?_, ?_⟩
    · have whole := spelledIpv4_hyphens ip
      rw [spelledIpv4, hexQuad_hyphened (hyphen_mem_hyphens ip), Option.none_or] at whole
      rw [joined, spelledIpv4_named named, whole]
    · rw [joined, List.mem_append, List.mem_cons, not_or, not_or]
      exact ⟨named.dotless, by decide, dotless⟩
  | dots labels octets => exact .inr octets

end Labels

theorem Addressless.spelledIpv4 {label : Str} (plain : Addressless label) (small : label.len ≤ isizeMax) :
    RustyAlias.spelledIpv4 label.bytes = none := by
  have read := parseLabelIpv4_eq small
  rw [plain.ipv4] at read
  exact (Except.ok.inj read).symm

theorem Addressless.decimalOctet {label : Str} (plain : Addressless label) : Ipv4Addr.decimalOctet label.bytes = none := by
  by_contra read
  obtain ⟨v, read⟩ := Option.ne_none_iff_exists'.mp read
  have none := plain.octet
  rw [parseU8, u8_of_decimalOctet read] at none
  cases none

/-- Whichever notation an IPv4 address is written in, and whatever plain labels stand around it, it is the IPv4 address
that the name is read as. -/
theorem interpretIp_spelling {ip : Ipv4Addr} {before labels after : List Str} (spelling : Spelling ip labels)
    (front : ∀ label ∈ before, Addressless label) (back : ∀ label ∈ after, Addressless label)
    (small : (Str.join dot (before ++ labels ++ after)).len ≤ isizeMax) :
    ∃ v6, interpretIp (Str.join dot (before ++ labels ++ after)) = .ok (some (some ip, v6)) := by
  have parts (label : Str) (member : label ∈ before ++ labels ++ after) : label.len ≤ isizeMax :=
    Nat.le_trans (len_le_join dot member) small
  have passed {around : List Str} (plain : ∀ label ∈ around, Addressless label) (inside : ∀ label ∈ around, label ∈ before ++ labels ++ after) :
      (around.map Str.bytes).findSome? spelledIpv4 = none := by
    rw [List.findSome?_eq_none_iff]
    intro octets member
    obtain ⟨label, present, rfl⟩ := List.mem_map.mp member
    exact (plain label present).spelledIpv4 (parts label (inside label present))
  have barred : ∀ piece ∈ before.map Str.bytes, ∀ window, piece ∈ window → decimalQuad window = none := by
    intro piece member
    obtain ⟨label, present, rfl⟩ := List.mem_map.mp member
    exact decimalQuad_barred (front label present).decimalOctet
  have first := passed front (by simp +contextual)
  have last := passed back (by simp +contextual)
  have found : (((before ++ labels ++ after).map Str.bytes).findSome? spelledIpv4).or
      (firstQuad ((before ++ labels ++ after).map Str.bytes)) = some ip := by
    rw [List.map_append, List.map_append, List.findSome?_append, List.findSome?_append, first, last, Option.none_or,
      Option.or_none]
    rcases spelling.label_or_octets with ⟨label, rfl, read, _⟩ | octets
    · rw [List.map_singleton, List.findSome?_singleton, read, Option.some_or]
    · have none : (decimals ip).findSome? spelledIpv4 = none :=
        List.findSome?_eq_none_iff.mpr fun piece member => by
          obtain ⟨v, _, rfl⟩ := List.mem_map.mp member
          exact spelledIpv4_decimalText v
      rw [octets, none, Option.none_or, firstQuad, List.append_assoc,
        List.firstWindow_append_of_barred (by decide) barred,
        List.firstWindow_append_of_some (decimals_length ip) (by decide) (decimalQuad_decimals ip)]
  have free : ∀ label ∈ before ++ labels ++ after, 46 ∉ label.bytes := by
    intro label member
    simp only [List.mem_append] at member
    rcases member with (member | member) | member
    · exact (front label member).dotless
    · rcases spelling.label_or_octets with ⟨other, rfl, _, dotless⟩ | octets
      · rwa [List.mem_singleton.mp member]
      · exact decimals_free (by decide) _ (octets ▸ List.mem_map_of_mem member)
    · exact (back label member).dotless
  have some : before ++ labels ++ after ≠ [] := by
    intro none
    rw [none] at found
    cases found
  exact ⟨_, by rw [interpretIp_join some free small, spelled_ipv4 found]⟩

theorem interpretIp_spelling_hyphens :
    ∃ v6, interpretIp (Str.join dot ([.ofString "app"] ++ [.ofString "10-0-0-1"] ++ [.ofString "nip", .ofString "nu"])) =
      .ok (some (some ⟨10, 0, 0, 1⟩, v6)) :=
  interpretIp_spelling (.hyphens _ (by decide +kernel)) (by decide +kernel) (by decide +kernel) (by decide +kernel)

/-- One label spells an IPv4 address, one other spells an IPv6 address, and the remaining labels spell neither. -/
structure TwoLabels (v4 : Ipv4Addr) (v6 : Ipv6Addr) (first second : Str) (rest : List Str) : Prop where
  dotless : ∀ label ∈ first :: second :: rest, 46 ∉ label.bytes
  ipv4 : parseLabelIpv4 first = .ok (some v4)
  ipv6 : parseHyphenatedIpv6 second = some v6
  noOther4 : ∀ label ∈ second :: rest, parseLabelIpv4 label = .ok none
  noOther6 : ∀ label ∈ first :: rest, parseHyphenatedIpv6 label = none

/-- Four labels are the decimal octets of an IPv4 address, one other label spells an IPv6 address, and the remaining
labels are no octets and spell neither. -/
structure QuadAndLabel (v4 : Ipv4Addr) (v6 : Ipv6Addr) (quad : List Str) (second : Str) (rest : List Str) : Prop where
  dotless : ∀ label ∈ second :: rest, 46 ∉ label.bytes
  octets : decimalQuad (quad.map Str.bytes) = some v4
  ipv6 : parseHyphenatedIpv6 second = some v6
  no4 : ∀ label ∈ second :: rest, parseLabelIpv4 label = .ok none
  noOctet : ∀ label ∈ second :: rest, Ipv4Addr.decimalOctet label.bytes = none
  noOther6 : ∀ label ∈ rest, parseHyphenatedIpv6 label = none

theorem parseLabelIpv4_ok_iff {label : Str} (small : label.len ≤ isizeMax) {found : Option Ipv4Addr} :
    parseLabelIpv4 label = .ok found ↔ spelledIpv4 label.bytes = found := by
  rw [parseLabelIpv4_eq small, Except.ok.injEq]

/-- A decimal octet by itself spells no address. -/
theorem spelled_decimalOctet {s : Bytes} {v : UInt8} (read : Ipv4Addr.decimalOctet s = some v) :
    spelledIpv4 s = none ∧ spelledIpv6 s = none ∧ 46 ∉ s := by
  have digits := (decimalOctet_digits read).2
  have short : s.length ≤ 3 := by
    unfold Ipv4Addr.decimalOctet at read
    split at read
    · cases read
    · next shape => omega
  have plain : hyphen.1 ∉ s := by
    intro inside
    have digit := digits _ inside
    revert digit
    decide
  have hexadecimal : hexQuad s = none := by
    by_contra found
    obtain ⟨ip, found⟩ := Option.ne_none_iff_exists'.mp found
    have eight := (hexQuad_digits found).1
    omega
  refine ⟨?_, if_neg plain, dot_notMem_of_decimalOctet read⟩
  rw [spelledIpv4, hexadecimal, List.splitOn_eq_singleton plain, firstQuad, List.firstWindow_of_short (by simp),
    List.findSome?_singleton, hexadecimal]
  rfl

section Orders

variable {v4 : Ipv4Addr} {v6 : Ipv6Addr} {second : Str} {rest : List Str}

theorem TwoLabels.interpretIp_eq {first : Str} (labels : TwoLabels v4 v6 first second rest) {order : List Str}
    (perm : order.Perm (first :: second :: rest)) (small : (Str.join dot order).len ≤ isizeMax) :
    interpretIp (Str.join dot order) = .ok (some (some v4, some v6)) := by
  have parts (label : Str) (member : label ∈ order) : label.len ≤ isizeMax := Nat.le_trans (len_le_join dot member) small
  have here : first ∈ order ∧ second ∈ order := by simp [perm.mem_iff]
  have ipv4 : (order.map Str.bytes).findSome? spelledIpv4 = some v4 := by
    rw [List.findSome?_map]
    refine List.findSome?_eq_some_of_forall ⟨first, here.1, (parseLabelIpv4_ok_iff (parts first here.1)).mp labels.ipv4⟩ ?_
    intro label member c accepted
    have read := (parseLabelIpv4_ok_iff (parts label member)).mpr accepted
    rcases List.mem_cons.mp (perm.mem_iff.mp member) with rfl | other
    · rw [labels.ipv4] at read
      exact (Option.some.inj (Except.ok.inj read)).symm
    · rw [labels.noOther4 label other] at read
      cases read
  have ipv6 : (order.map Str.bytes).findSome? spelledIpv6 = some v6 := by
    rw [List.findSome?_map]
    refine List.findSome?_eq_some_of_forall ⟨second, here.2, (parseHyphenatedIpv6_eq second).symm.trans labels.ipv6⟩ ?_
    intro label member c accepted
    have read := (parseHyphenatedIpv6_eq label).trans accepted
    by_cases same : label = second
    · rw [same, labels.ipv6] at read
      exact (Option.some.inj read).symm
    · have other : label ∈ first :: rest := by
        have inside := perm.mem_iff.mp member
        simp only [List.mem_cons, same, false_or] at inside ⊢
        exact inside
      rw [labels.noOther6 label other] at read
      cases read
  rw [interpretIp_join (List.ne_nil_of_mem here.1) (fun label member => labels.dotless label (perm.mem_iff.mp member)) small,
    spelled_ipv4 (by rw [ipv4, Option.some_or]), ipv6]

theorem QuadAndLabel.interpretIp_eq {quad : List Str} (labels : QuadAndLabel v4 v6 quad second rest)
    {before after : List Str} (perm : (before ++ after).Perm (second :: rest))
    (small : (Str.join dot (before ++ quad ++ after)).len ≤ isizeMax) :
    interpretIp (Str.join dot (before ++ quad ++ after)) = .ok (some (some v4, some v6)) := by
  have octet (label : Str) (member : label ∈ quad) : ∃ v, Ipv4Addr.decimalOctet label.bytes = some v :=
    decimalOctet_of_decimalQuad labels.octets _ (List.mem_map_of_mem member)
  have cases (label : Str) (member : label ∈ before ++ quad ++ after) : label ∈ quad ∨ label ∈ second :: rest := by
    rw [← perm.mem_iff, List.mem_append]
    simp only [List.mem_append] at member
    tauto
  have here : second ∈ before ++ quad ++ after := by
    have inside : second ∈ before ++ after := perm.mem_iff.mpr (List.mem_cons_self ..)
    simp only [List.mem_append] at inside ⊢
    tauto
  have none4 : ((before ++ quad ++ after).map Str.bytes).findSome? spelledIpv4 = none := by
    rw [List.findSome?_map, List.findSome?_eq_none_iff]
    intro label member
    rcases cases label member with inside | other
    · obtain ⟨v, read⟩ := octet label inside
      exact (spelled_decimalOctet read).1
    · exact (parseLabelIpv4_ok_iff (Nat.le_trans (len_le_join dot member) small)).mp (labels.no4 label other)
  have ipv4 : firstQuad ((before ++ quad ++ after).map Str.bytes) = some v4 := by
    have barred : ∀ piece ∈ before.map Str.bytes, ∀ window, piece ∈ window → decimalQuad window = none := by
      intro piece member
      obtain ⟨label, present, rfl⟩ := List.mem_map.mp member
      exact decimalQuad_barred (labels.noOctet label (perm.mem_iff.mp (List.mem_append_left _ present)))
    obtain ⟨w, x, y, z, four, _⟩ := decimalQuad_eq_some_iff.mp labels.octets
    rw [firstQuad, List.append_assoc, List.map_append, List.map_append,
      List.firstWindow_append_of_barred (by decide) barred,
      List.firstWindow_append_of_some (by rw [four]; rfl) (by decide) labels.octets]
  have ipv6 : ((before ++ quad ++ after).map Str.bytes).findSome? spelledIpv6 = some v6 := by
    rw [List.findSome?_map]
    refine List.findSome?_eq_some_of_forall ⟨second, here, (parseHyphenatedIpv6_eq second).symm.trans labels.ipv6⟩ ?_
    intro label member c accepted
    have read := (parseHyphenatedIpv6_eq label).trans accepted
    rcases cases label member with inside | other
    · obtain ⟨v, octet⟩ := octet label inside
      rw [Function.comp_apply, (spelled_decimalOctet octet).2.1] at accepted
      cases accepted
    · rcases List.mem_cons.mp other with rfl | other
      · rw [labels.ipv6] at read
        exact (Option.some.inj read).symm
      · rw [labels.noOther6 label other] at read
        cases read
  have free : ∀ label ∈ before ++ quad ++ after, 46 ∉ label.bytes := by
    intro label member
    rcases cases label member with inside | other
    · obtain ⟨v, read⟩ := octet label inside
      exact (spelled_decimalOctet read).2.2
    · exact labels.dotless label other
  rw [interpretIp_join (List.ne_nil_of_mem here) free small, spelled_ipv4 (by rw [none4, Option.none_or, ipv4]), ipv6]

end Orders

/-- The addresses of a name do not depend on the order of its labels. -/
theorem interpretIp_dualStack {v4 : Ipv4Addr} {v6 : Ipv6Addr} :
    (∀ first second rest, TwoLabels v4 v6 first second rest → ∀ order : List Str, order.Perm (first :: second :: rest) →
      (Str.join dot order).len ≤ isizeMax → interpretIp (Str.join dot order) = .ok (some (some v4, some v6))) ∧
    ∀ quad second rest, QuadAndLabel v4 v6 quad second rest → ∀ before after : List Str,
      (before ++ after).Perm (second :: rest) → (Str.join dot (before ++ quad ++ after)).len ≤ isizeMax →
        interpretIp (Str.join dot (before ++ quad ++ after)) = .ok (some (some v4, some v6)) :=
  ⟨fun _ _ _ labels _ perm small => labels.interpretIp_eq perm small,
    fun _ _ _ labels _ _ perm small => labels.interpretIp_eq perm small⟩

/-- `127-0-0-1` and `2a04-4e42-200--201`, and the same with `127.0.0.1`. -/
theorem interpretIp_dualStack_local :
    let v4 : Ipv4Addr := ⟨127, 0, 0, 1⟩
    let v6 : Ipv6Addr := ⟨[0x2a04, 0x4e42, 0x200, 0, 0, 0, 0, 0x201], rfl⟩
    interpretIp (Str.join dot [.ofString "2a04-4e42-200--201", .ofString "app", .ofString "127-0-0-1"]) =
        .ok (some (some v4, some v6)) ∧
      interpretIp (Str.join dot ([.ofString "app"] ++
        [.ofString "127", .ofString "0", .ofString "0", .ofString "1"] ++ [.ofString "2a04-4e42-200--201"])) =
        .ok (some (some v4, some v6)) :=
  ⟨interpretIp_dualStack.1 (.ofString "127-0-0-1") (.ofString "2a04-4e42-200--201") [.ofString "app"]
      ⟨by decide +kernel, by decide +kernel, by decide +kernel, by decide +kernel, by decide +kernel⟩ _
      (by decide +kernel) (by decide +kernel),
    interpretIp_dualStack.2 _ (.ofString "2a04-4e42-200--201") [.ofString "app"]
      ⟨by decide +kernel, by decide +kernel, by decide +kernel, by decide +kernel, by decide +kernel, by decide +kernel⟩ _ _
      (by decide +kernel) (by decide +kernel)⟩

end RustyAlias
