import RustyAlias.Soundness.Notations

/-! # A label that spells an IPv6 address

With hyphens for its colons an IPv6 address is one label, and it is read as that address. The search
for an IPv4 address between hyphens goes through the same label, and finds one as soon as four groups
in a row can be read as decimal octets.
-/

namespace RustyAlias

open Rust Rust.Outcome

/-- The text forms of an IPv6 address that are made of hexadecimal groups, with at most one `::`. -/
inductive TextForm (a : Ipv6Addr) : Bytes → Prop
  | full (groups : List Bytes) (values : groups.mapM Ipv6Addr.hexGroup = some a.segments) :
      TextForm a ([colon.1].intercalate groups)
  | compressed (front back : List Bytes) (head tail : List UInt16) (zeros : ℕ) (positive : 0 < zeros)
      (first : front.mapM Ipv6Addr.hexGroup = some head) (last : back.mapM Ipv6Addr.hexGroup = some tail)
      (whole : a.segments = head ++ List.replicate zeros 0 ++ tail) :
      TextForm a ([colon.1].intercalate front ++ colon.1 :: colon.1 :: [colon.1].intercalate back)

/-- Labels that spell no address, neither one by one nor four in a row. -/
structure Aside (labels : List Str) : Prop where
  dotless : ∀ label ∈ labels, 46 ∉ label.bytes
  ipv4 : ∀ label ∈ labels, parseLabelIpv4 label = .ok none
  ipv6 : ∀ label ∈ labels, parseHyphenatedIpv6 label = none
  quads : ∀ window, window <:+: labels → window.length = 4 → Ipv4Addr.fromStr (Str.join dot window) = none

/-- Fewer than four labels have no four in a row. -/
theorem aside_of_short {labels : List Str} (short : labels.length < 4)
    (each : ∀ label ∈ labels, 46 ∉ label.bytes ∧ parseLabelIpv4 label = .ok none ∧ parseHyphenatedIpv6 label = none) :
    Aside labels where
  dotless label member := (each label member).1
  ipv4 label member := (each label member).2.1
  ipv6 label member := (each label member).2.2
  quads window inside four := by
    have bound := inside.length_le
    omega

section Groups

private theorem mem_of_mapM {α β : Type} {f : α → Option β} {xs : List α} {ys : List β} (read : xs.mapM f = some ys) :
    xs.length = ys.length ∧ ∀ x ∈ xs, ∃ y, f x = some y := by
  induction xs generalizing ys with
  | nil =>
    cases read
    simp
  | cons x rest ih =>
    rw [List.mapM_cons] at read
    obtain ⟨y, here, read⟩ := Option.bind_eq_some_iff.mp read
    obtain ⟨later, following, same⟩ := Option.bind_eq_some_iff.mp read
    cases same
    obtain ⟨length, each⟩ := ih following
    refine ⟨by simp [length], ?_⟩
    intro z member
    rcases List.mem_cons.mp member with rfl | member
    · exact ⟨y, here⟩
    · exact each z member

/-- One to four hexadecimal digits. -/
structure IsGroup (g : Bytes) : Prop where
  nonempty : g ≠ []
  short : g.length ≤ 4
  digits : ∀ b ∈ g, isAsciiHexdigit b = true

private theorem isGroup_of_hexGroup {g : Bytes} {v : UInt16} (read : Ipv6Addr.hexGroup g = some v) : IsGroup g := by
  unfold Ipv6Addr.hexGroup at read
  split at read
  · cases read
  · next shape =>
    obtain ⟨n, value, _⟩ := Option.map_eq_some_iff.mp read
    exact ⟨(not_or.mp shape).1, by omega, digitsValue_digits value⟩

private theorem isGroup_of_mapM {groups : List Bytes} {values : List UInt16} (read : groups.mapM Ipv6Addr.hexGroup = some values) :
    ∀ g ∈ groups, IsGroup g := by
  intro g member
  obtain ⟨v, read⟩ := (mem_of_mapM read).2 g member
  exact isGroup_of_hexGroup read

theorem IsGroup.notMem {g : Bytes} (group : IsGroup g) {c : UInt8} (other : isAsciiHexdigit c = false) : c ∉ g := by
  intro inside
  have digit := group.digits c inside
  rw [other] at digit
  cases digit

/-- Groups between colons are taken apart again. -/
theorem groups_intercalate {groups : List Bytes} {values : List UInt16} (quad : Bool)
    (read : groups.mapM Ipv6Addr.hexGroup = some values) :
    Ipv6Addr.groups quad ([colon.1].intercalate groups) = some values := by
  by_cases none : groups = []
  · subst none
    cases read
    rfl
  have shape := isGroup_of_mapM read
  have pieces : ([colon.1].intercalate groups).splitOn colon.1 = groups :=
    List.splitOn_intercalate _ (fun g member => (shape g member).notMem (by decide)) none
  have nonempty : [colon.1].intercalate groups ≠ [] := by
    intro empty
    rw [empty, List.splitOn_nil] at pieces
    exact (shape [] (pieces ▸ List.mem_singleton_self _)).nonempty rfl
  rw [Ipv6Addr.groups, if_neg nonempty, pieces]
  dsimp only
  rw [read]

private theorem splitDoubleColon_cons {a : UInt8} (other : a ≠ colon.1) (rest : Bytes) :
    Ipv6Addr.splitDoubleColon (a :: rest) = (Ipv6Addr.splitDoubleColon rest).map fun (front, back) => (a :: front, back) := by
  cases rest with
  | nil => rfl
  | cons b rest => rw [Ipv6Addr.splitDoubleColon, if_neg fun both => other both.1]

private theorem splitDoubleColon_colon {b : UInt8} (other : b ≠ colon.1) (rest : Bytes) :
    Ipv6Addr.splitDoubleColon (colon.1 :: b :: rest) =
      (Ipv6Addr.splitDoubleColon (b :: rest)).map fun (front, back) => (colon.1 :: front, back) := by
  rw [Ipv6Addr.splitDoubleColon, if_neg fun both => other both.2]

private theorem splitDoubleColon_append {g : Bytes} (free : colon.1 ∉ g) (rest : Bytes) :
    Ipv6Addr.splitDoubleColon (g ++ rest) = (Ipv6Addr.splitDoubleColon rest).map fun (front, back) => (g ++ front, back) := by
  induction g with
  | nil => simp
  | cons a g ih =>
    rw [List.mem_cons, not_or] at free
    rw [List.cons_append, splitDoubleColon_cons (Ne.symm free.1), ih free.2, Option.map_map]
    rfl

private theorem splitDoubleColon_intercalate {groups : List Bytes} (shape : ∀ g ∈ groups, IsGroup g) :
    Ipv6Addr.splitDoubleColon ([colon.1].intercalate groups) = none ∧ ∀ back,
      Ipv6Addr.splitDoubleColon ([colon.1].intercalate groups ++ colon.1 :: colon.1 :: back) =
        some ([colon.1].intercalate groups, back) := by
  induction groups with
  | nil => exact ⟨rfl, fun back => by simp [Ipv6Addr.splitDoubleColon]⟩
  | cons g rest ih =>
    have free := (shape g (List.mem_cons_self ..)).notMem (c := colon.1) (by decide)
    obtain ⟨none, found⟩ := ih fun other member => shape other (List.mem_cons_of_mem _ member)
    cases rest with
    | nil =>
      have alone := splitDoubleColon_append free []
      rw [List.append_nil] at alone
      refine ⟨by rw [List.intercalate_singleton, alone]; rfl, fun back => ?_⟩
      rw [List.intercalate_singleton, splitDoubleColon_append free, Ipv6Addr.splitDoubleColon, if_pos ⟨rfl, rfl⟩]
      simp
    | cons next rest =>
      have group := shape next (by simp)
      obtain ⟨b, more, begins, other⟩ : ∃ b more, [colon.1].intercalate (next :: rest) = b :: more ∧ b ≠ colon.1 := by
        obtain ⟨b, tail, rfl⟩ := List.exists_cons_of_ne_nil group.nonempty
        have other : b ≠ colon.1 := fun same => group.notMem (c := colon.1) (by decide) (same ▸ List.mem_cons_self ..)
        cases rest <;> exact ⟨b, _, rfl, other⟩
      rw [begins] at none found
      rw [List.intercalate_cons_cons, List.append_assoc, begins, List.singleton_append]
      constructor
      · rw [splitDoubleColon_append free, splitDoubleColon_colon other, none]
        rfl
      · intro back
        have found := found back
        rw [List.cons_append] at found
        rw [List.append_assoc, splitDoubleColon_append free, List.cons_append, List.cons_append,
          splitDoubleColon_colon other, found]
        rfl

private theorem ofSegments_segments (a : Ipv6Addr) : Ipv6Addr.ofSegments a.segments = some a := dif_pos a.length_eq

/-- Every text form is parsed as its address. -/
theorem ipv6OfText_textForm {a : Ipv6Addr} {text : Bytes} (form : TextForm a text) : ipv6OfText text = some a := by
  have eight := a.length_eq
  cases form with
  | full groups values =>
    have shape := isGroup_of_mapM values
    have some : [colon.1].intercalate groups ≠ [] := by
      intro empty
      have read := groups_intercalate true values
      rw [empty] at read
      have none : [] = a.segments := Option.some.inj read
      rw [← none] at eight
      cases eight
    rw [ipv6OfText, (splitDoubleColon_intercalate shape).1]
    dsimp only
    rw [if_neg some, groups_intercalate true values, Option.bind_some, ofSegments_segments]
  | compressed front back head tail zeros positive first last whole =>
    rw [whole, List.length_append, List.length_append, List.length_replicate] at eight
    rw [ipv6OfText, (splitDoubleColon_intercalate (isGroup_of_mapM first)).2]
    dsimp only
    rw [groups_intercalate false first, groups_intercalate true last]
    simp only [Option.bind_eq_bind, Option.bind_some]
    rw [if_pos (by omega), show 8 - head.length - tail.length = zeros by omega, ← whole, ofSegments_segments]

/-- What stands between the colons of a text form. -/
theorem TextForm.pieces {a : Ipv6Addr} {text : Bytes} (form : TextForm a text) :
    colon.1 ∈ text ∧ ∀ piece ∈ text.splitOn colon.1, piece.length ≤ 4 ∧ ∀ b ∈ piece, isAsciiHexdigit b = true := by
  have eight := a.length_eq
  have apart {groups : List Bytes} (shape : ∀ g ∈ groups, IsGroup g) :
      ∀ piece ∈ ([colon.1].intercalate groups).splitOn colon.1, piece.length ≤ 4 ∧ ∀ b ∈ piece, isAsciiHexdigit b = true := by
    intro piece member
    by_cases none : groups = []
    · subst none
      obtain rfl : piece = [] := by simpa using member
      simp
    · rw [List.splitOn_intercalate _ (fun g inside => (shape g inside).notMem (by decide)) none] at member
      exact ⟨(shape piece member).short, (shape piece member).digits⟩
  cases form with
  | full groups values =>
    refine ⟨?_, apart (isGroup_of_mapM values)⟩
    match groups, (mem_of_mapM values).1.trans eight with
    | g :: next :: rest, _ => simp [List.intercalate_cons_cons]
  | compressed front back head tail zeros positive first last whole =>
    refine ⟨by simp, fun piece member => ?_⟩
    have behind : (colon.1 :: [colon.1].intercalate back).splitOn colon.1 =
        [] :: ([colon.1].intercalate back).splitOn colon.1 := List.splitOn_append_cons_self [] _
    rw [List.splitOn_append_cons_self, behind] at member
    rw [List.mem_append, List.mem_cons] at member
    rcases member with member | rfl | member
    · exact apart (isGroup_of_mapM first) piece member
    · simp
    · exact apart (isGroup_of_mapM last) piece member

end Groups

section Label

variable {a : Ipv6Addr} {text : Bytes} {label : Str}

/-- The text with a hyphen for every colon. -/
def withHyphens (text : Bytes) : Bytes := text.map fun b => if b = colon.1 then hyphen.1 else b

private theorem mem_of_mem_intercalate {b c : UInt8} {parts : List Bytes} (inside : b ∈ [c].intercalate parts) :
    b = c ∨ ∃ part ∈ parts, b ∈ part := by
  induction parts with
  | nil => simp at inside
  | cons part rest ih =>
    cases rest with
    | nil => exact .inr ⟨part, List.mem_cons_self .., by simpa using inside⟩
    | cons next rest =>
      rw [List.intercalate_cons_cons, List.append_assoc, List.mem_append, List.mem_append, List.mem_singleton] at inside
      rcases inside with inside | same | inside
      · exact .inr ⟨part, List.mem_cons_self .., inside⟩
      · exact .inl same
      · refine (ih inside).imp_right ?_
        rintro ⟨other, member, inside⟩
        exact ⟨other, List.mem_cons_of_mem _ member, inside⟩

/-- A text form consists of colons and hexadecimal digits. -/
theorem TextForm.mem (form : TextForm a text) : ∀ b ∈ text, b = colon.1 ∨ isAsciiHexdigit b = true := by
  intro b inside
  have joined : [colon.1].intercalate (text.splitOn colon.1) = text := List.intercalate_splitOn colon.1
  rw [← joined] at inside
  refine (mem_of_mem_intercalate inside).imp_right ?_
  rintro ⟨piece, member, inside⟩
  exact (form.pieces.2 piece member).2 b inside

theorem TextForm.hyphen_notMem (form : TextForm a text) : hyphen.1 ∉ text := fun inside =>
  absurd (form.mem _ inside) (by decide)

theorem TextForm.dot_notMem (form : TextForm a text) : 46 ∉ withHyphens text := by
  intro inside
  obtain ⟨b, member, same⟩ := List.mem_map.mp inside
  split at same
  · revert same
    decide
  · next other =>
    have digit := (form.mem b member).resolve_left other
    rw [same] at digit
    revert digit
    decide

private theorem withColons_withHyphens (free : hyphen.1 ∉ text) : withColons (withHyphens text) = text := by
  rw [withColons, withHyphens, List.map_map]
  refine (List.map_congr_left fun b member => ?_).trans (List.map_id _)
  have other : b ≠ hyphen.1 := fun same => free (same ▸ member)
  by_cases same : b = colon.1 <;> simp [same, other]

/-- Between the hyphens stand the groups. -/
theorem splitOn_withHyphens (form : TextForm a text) : (withHyphens text).splitOn hyphen.1 = text.splitOn colon.1 := by
  have free := form.hyphen_notMem
  have moved : ∀ b ∈ text, (if b = colon.1 then hyphen.1 else b) = hyphen.1 ↔ b = colon.1 := by
    intro b member
    have other : b ≠ hyphen.1 := fun same => free (same ▸ member)
    by_cases same : b = colon.1 <;> simp [same, other]
  rw [withHyphens, List.splitOn_map moved]
  refine (List.map_congr_left fun piece member => ?_).trans (List.map_id _)
  refine (List.map_congr_left fun b inside => if_neg ?_).trans (List.map_id _)
  rintro rfl
  exact List.notMem_of_mem_splitOn member inside

theorem spelledIpv6_textForm (form : TextForm a text) : spelledIpv6 (withHyphens text) = some a := by
  have hyphened : hyphen.1 ∈ withHyphens text := List.mem_map.mpr ⟨colon.1, form.pieces.1, rfl⟩
  rw [spelledIpv6, if_pos hyphened, withColons_withHyphens form.hyphen_notMem, ipv6OfText_textForm form]

/-- The IPv4 address of such a label is that of its first four groups in a row that are decimal octets. -/
theorem spelledIpv4_textForm (form : TextForm a text) : spelledIpv4 (withHyphens text) = firstQuad (text.splitOn colon.1) := by
  have hyphened : hyphen.1 ∈ withHyphens text := List.mem_map.mpr ⟨colon.1, form.pieces.1, rfl⟩
  have short : (text.splitOn colon.1).findSome? hexQuad = none := by
    rw [List.findSome?_eq_none_iff]
    intro piece member
    by_contra found
    obtain ⟨ip, found⟩ := Option.ne_none_iff_exists'.mp found
    have eight := (hexQuad_digits found).1
    have four := (form.pieces.2 piece member).1
    omega
  rw [spelledIpv4, hexQuad_hyphened hyphened, splitOn_withHyphens form, short, Option.none_or, Option.or_none]

/-- Four pieces are no quad when one of them is no decimal octet. -/
theorem decimalQuad_eq_none_iff {window : List Bytes} (four : window.length = 4) :
    decimalQuad window = none ↔ ∃ piece ∈ window, Ipv4Addr.decimalOctet piece = none := by
  constructor
  · intro none
    by_contra each
    push Not at each
    match window, four with
    | [w, x, y, z], _ =>
      obtain ⟨a, first⟩ := Option.ne_none_iff_exists'.mp (each w (by simp))
      obtain ⟨b, second⟩ := Option.ne_none_iff_exists'.mp (each x (by simp))
      obtain ⟨c, third⟩ := Option.ne_none_iff_exists'.mp (each y (by simp))
      obtain ⟨d, fourth⟩ := Option.ne_none_iff_exists'.mp (each z (by simp))
      simp [decimalQuad, first, second, third, fourth] at none
  · rintro ⟨piece, member, other⟩
    exact decimalQuad_barred other window member

theorem Aside.firstQuad {labels : List Str} (aside : Aside labels) : RustyAlias.firstQuad (labels.map Str.bytes) = none := by
  rw [RustyAlias.firstQuad, List.firstWindow_map, List.firstWindow_eq_none_iff (by decide)]
  intro window inside four
  rw [← aside.quads window inside four]
  refine (parseOctets_text (by rw [List.length_map, four]) ?_).symm
  intro piece member
  obtain ⟨label, present, rfl⟩ := List.mem_map.mp member
  exact aside.dotless label (inside.subset present)

/-- The label is read as its IPv6 address and nothing else, except when four groups in a row are decimal octets: then
the name has an IPv4 address too. -/
theorem interpretIp_ipv6Label_iff {before after : List Str} (form : TextForm a text) (spelling : label.bytes = withHyphens text)
    (front : Aside before) (back : Aside after) (small : (Str.join dot (before ++ [label] ++ after)).len ≤ isizeMax) :
    interpretIp (Str.join dot (before ++ [label] ++ after)) = .ok (some (none, some a)) ↔
      ∀ window, window <:+: text.splitOn colon.1 → window.length = 4 →
        ∃ piece ∈ window, Ipv4Addr.decimalOctet piece = none := by
  have parts (other : Str) (member : other ∈ before ++ [label] ++ after) : other.len ≤ isizeMax :=
    Nat.le_trans (len_le_join dot member) small
  have hyphened : hyphen.1 ∈ label.bytes := spelling ▸ List.mem_map.mpr ⟨colon.1, form.pieces.1, rfl⟩
  have none4 {around : List Str} (aside : Aside around) (inside : ∀ other ∈ around, other ∈ before ++ [label] ++ after) :
      (around.map Str.bytes).findSome? spelledIpv4 = none := by
    rw [List.findSome?_map, List.findSome?_eq_none_iff]
    exact fun other member => (parseLabelIpv4_ok_iff (parts other (inside other member))).mp (aside.ipv4 other member)
  have none6 {around : List Str} (aside : Aside around) : (around.map Str.bytes).findSome? spelledIpv6 = none := by
    rw [List.findSome?_map, List.findSome?_eq_none_iff]
    exact fun other member => (parseHyphenatedIpv6_eq other).symm.trans (aside.ipv6 other member)
  have noOctet : Ipv4Addr.decimalOctet label.bytes = none := by
    by_contra read
    obtain ⟨v, read⟩ := Option.ne_none_iff_exists'.mp read
    have digit := (decimalOctet_digits read).2 _ hyphened
    revert digit
    decide
  have shape : (before ++ [label] ++ after).map Str.bytes =
      before.map Str.bytes ++ label.bytes :: after.map Str.bytes := by simp
  have ipv4 : ((before ++ [label] ++ after).map Str.bytes).findSome? spelledIpv4 = firstQuad (text.splitOn colon.1) := by
    rw [shape, List.findSome?_append, List.findSome?_cons, none4 front (by simp +contextual), none4 back (by simp +contextual),
      spelling, spelledIpv4_textForm form, Option.none_or]
    cases firstQuad (text.splitOn colon.1) <;> rfl
  have dotted : firstQuad ((before ++ [label] ++ after).map Str.bytes) = none := by
    have apart := List.firstWindow_append_cons (show 0 < 4 by decide) (decimalQuad_barred noOctet) (before.map Str.bytes)
      (after.map Str.bytes)
    rw [shape]
    exact apart.trans (by
      change (firstQuad _).or (firstQuad _) = none
      rw [front.firstQuad, back.firstQuad]
      rfl)
  have ipv6 : ((before ++ [label] ++ after).map Str.bytes).findSome? spelledIpv6 = some a := by
    rw [shape, List.findSome?_append, List.findSome?_cons, none6 front, spelling, spelledIpv6_textForm form]
    rfl
  have free : ∀ other ∈ before ++ [label] ++ after, 46 ∉ other.bytes := by
    intro other member
    simp only [List.mem_append, List.mem_singleton] at member
    rcases member with (member | rfl) | member
    · exact front.dotless other member
    · exact spelling ▸ form.dot_notMem
    · exact back.dotless other member
  have read : interpretIp (Str.join dot (before ++ [label] ++ after)) =
      .ok (some (firstQuad (text.splitOn colon.1), some a)) := by
    rw [interpretIp_join (by simp) free small, spelled, ipv4, dotted, ipv6, Option.or_none]
    simp
  rw [read, Except.ok.injEq, Option.some.injEq, Prod.mk.injEq, and_iff_left rfl, firstQuad,
    List.firstWindow_eq_none_iff (by decide)]
  exact forall_congr' fun window => forall_congr' fun _ => forall_congr' fun four => decimalQuad_eq_none_iff four

end Label

/-- `2001:db8::1` between two labels. -/
theorem interpretIp_ipv6Label_compressed :
    interpretIp (Str.join dot ([.ofString "app"] ++ [.ofString "2001-db8--1"] ++ [.ofString "nip", .ofString "nu"])) =
        .ok (some (none, some ⟨[0x2001, 0xdb8, 0, 0, 0, 0, 0, 1], rfl⟩)) ↔
      ∀ window, window <:+: (Str.ofString "2001:db8::1").bytes.splitOn colon.1 → window.length = 4 →
        ∃ piece ∈ window, Ipv4Addr.decimalOctet piece = none :=
  interpretIp_ipv6Label_iff
    (.compressed [[50, 48, 48, 49], [100, 98, 56]] [[49]] [0x2001, 0xdb8] [1] 5 (by decide) (by decide +kernel)
      (by decide +kernel) rfl)
    (by decide +kernel) (aside_of_short (by decide) (by decide +kernel)) (aside_of_short (by decide) (by decide +kernel))
    (by decide +kernel)

/-- `1:2:3:4:5:6:7:8` is a text form, and the name of its label has the address 1.2.3.4 too. -/
theorem decimalGroups_spell_ipv4 :
    TextForm ⟨[1, 2, 3, 4, 5, 6, 7, 8], rfl⟩ (Str.ofString "1:2:3:4:5:6:7:8").bytes ∧
      (Str.ofString "1-2-3-4-5-6-7-8").bytes = withHyphens (Str.ofString "1:2:3:4:5:6:7:8").bytes ∧
      Aside [.ofString "nip", .ofString "nu"] ∧
      interpretIp (Str.join dot [.ofString "1-2-3-4-5-6-7-8", .ofString "nip", .ofString "nu"]) =
        .ok (some (some ⟨1, 2, 3, 4⟩, some ⟨[1, 2, 3, 4, 5, 6, 7, 8], rfl⟩)) ∧
      interpretIp (Str.join dot [.ofString "1-2-3-4-5-6-7-8", .ofString "nip", .ofString "nu"]) ≠
        .ok (some (none, some ⟨[1, 2, 3, 4, 5, 6, 7, 8], rfl⟩)) :=
  ⟨.full [[49], [50], [51], [52], [53], [54], [55], [56]] (by decide +kernel), by decide +kernel,
    aside_of_short (by decide) (by decide +kernel), by decide +kernel, by decide +kernel⟩

end RustyAlias
