import RustyAlias.Dns.Name
import RustyAlias.Proofs.IpParser
import RustyAlias.Spec.Addresses

/-! # The parsers find what names spell

Each parser of `ip_parser.rs` is the plain function of `Spec.Addresses` on the octets of its
argument: the loops over indices are first windows, and the two replacements of `-` put a colon
for every hyphen.
-/

namespace RustyAlias

open Rust Rust.Outcome Dns

section Windows

variable {β : Type} {parts : List Str}

/-- The loop over the start indices of four parts is the search through their windows. -/
theorem findSomeM?_windows (four : 4 ≤ parts.length) (small : parts.length ≤ usizeMax) (probe : List Str → Option β) :
    ((List.range (parts.length - 4 + 1)).findSomeM? fun i => do
      let window ← slice parts i (← uadd i 4)
      pure (probe window)) = .ok (parts.firstWindow 4 probe) := by
  suffices from_ : ∀ remaining start, start + remaining = parts.length - 4 + 1 →
      ((List.range' start remaining).findSomeM? fun i => do
        let window ← slice parts i (← uadd i 4)
        pure (probe window)) = .ok ((parts.drop start).firstWindow 4 probe) by
    rw [List.range_eq_range', from_ _ 0 (by omega), List.drop_zero]
  intro remaining
  induction remaining with
  | zero =>
    intro start ends
    rw [List.firstWindow_of_short (by rw [List.length_drop]; omega)]
    rfl
  | succ remaining ih =>
    intro start ends
    have inside : start < parts.length := by omega
    have step := List.drop_eq_getElem_cons inside
    have window : (parts.take (start + 4)).drop start = (parts.drop start).take 4 := by
      rw [List.drop_take, Nat.add_sub_cancel_left]
    have long : 4 ≤ (parts.drop start).length := by rw [List.length_drop]; omega
    rw [List.range'_succ, List.findSomeM?, uadd_ok (by omega), ok_bind, slice_ok (by omega) (by omega), ok_bind, window]
    rw [step] at long ⊢
    rw [List.firstWindow_cons long, pure_eq_ok, ok_bind]
    cases probe ((parts[start] :: parts.drop (start + 1)).take 4) with
    | some b => rfl
    | none => rw [Option.none_or]; exact ih (start + 1) (by omega)

end Windows

section Digits

theorem digitsValue_concat (radix : ℕ) (digits : Bytes) (b : UInt8) :
    digitsValue radix (digits ++ [b]) =
      (digitsValue radix digits).bind fun value => (toDigit radix b).map (value * radix + ·) := by
  simp [digitsValue, List.foldlM_append]

theorem digitsValue_digits {radix n : ℕ} {digits : Bytes} (read : digitsValue radix digits = some n) :
    ∀ b ∈ digits, (toDigit radix b).isSome := by
  induction digits using List.reverseRecOn generalizing n with
  | nil => simp
  | append_singleton rest b ih =>
    rw [digitsValue_concat] at read
    obtain ⟨value, front, read⟩ := Option.bind_eq_some_iff.mp read
    obtain ⟨digit, last, _⟩ := Option.map_eq_some_iff.mp read
    intro c member
    rcases List.mem_append.mp member with member | member
    · exact ih front c member
    · rw [List.mem_singleton.mp member, last]
      rfl

theorem decimalOctet_digits {s : Bytes} {v : UInt8} (read : Ipv4Addr.decimalOctet s = some v) :
    s ≠ [] ∧ ∀ b ∈ s, (toDigit 10 b).isSome := by
  unfold Ipv4Addr.decimalOctet at read
  split at read
  · cases read
  · next shape =>
    obtain ⟨n, value, _⟩ := Option.bind_eq_some_iff.mp read
    exact ⟨(not_or.mp shape).1, digitsValue_digits value⟩

/-- Behind an optional sign. -/
theorem u8FromStrRadix_eq (s : Bytes) (radix : ℕ) : ∃ digits, (s = digits ∨ s = 43 :: digits) ∧
    (s.head? ≠ some 43 → s = digits) ∧ u8FromStrRadix s radix =
      if digits = [] then none
      else (digitsValue radix digits).bind fun n => if n ≤ 255 then some (UInt8.ofNat n) else none := by
  by_cases plus : s.head? = some 43
  · obtain ⟨rest, rfl⟩ := List.head?_eq_some_iff.mp plus
    exact ⟨rest, .inr rfl, fun unsigned => absurd plus unsigned, rfl⟩
  · refine ⟨s, .inl rfl, fun _ => rfl, ?_⟩
    rw [u8FromStrRadix, if_neg plus]

/-- A decimal octet of a dotted quad is a `u8`. -/
theorem u8_of_decimalOctet {s : Bytes} {v : UInt8} (read : Ipv4Addr.decimalOctet s = some v) :
    u8FromStrRadix s 10 = some v := by
  obtain ⟨nonempty, decimal⟩ := decimalOctet_digits read
  have unsigned : s.head? ≠ some 43 := by
    intro plus
    have digit := decimal 43 (List.mem_of_mem_head? plus)
    revert digit
    decide
  obtain ⟨digits, _, whole, reads⟩ := u8FromStrRadix_eq s 10
  obtain rfl := whole unsigned
  unfold Ipv4Addr.decimalOctet at read
  split at read
  · cases read
  · rwa [reads, if_neg nonempty]

private theorem dot_notMem_of_u8 {s : Bytes} {v : UInt8} (read : u8FromStrRadix s 10 = some v) : (46 : UInt8) ∉ s := by
  have digitless : ¬ (toDigit 10 46).isSome := by decide
  obtain ⟨digits, shape, _, reads⟩ := u8FromStrRadix_eq s 10
  rw [reads] at read
  split at read
  · cases read
  · obtain ⟨n, value, _⟩ := Option.bind_eq_some_iff.mp read
    intro inside
    apply digitless
    rcases shape with rfl | rfl
    · exact digitsValue_digits value 46 inside
    · exact digitsValue_digits value 46 (by simpa using inside)

theorem dot_notMem_of_decimalOctet {s : Bytes} {v : UInt8} (read : Ipv4Addr.decimalOctet s = some v) : (46 : UInt8) ∉ s :=
  dot_notMem_of_u8 (u8_of_decimalOctet read)

theorem decimalQuad_eq_some_iff {pieces : List Bytes} {ip : Ipv4Addr} :
    decimalQuad pieces = some ip ↔ ∃ w x y z, pieces = [w, x, y, z] ∧ Ipv4Addr.decimalOctet w = some ip.a ∧
      Ipv4Addr.decimalOctet x = some ip.b ∧ Ipv4Addr.decimalOctet y = some ip.c ∧ Ipv4Addr.decimalOctet z = some ip.d := by
  constructor
  · intro found
    unfold decimalQuad at found
    split at found
    · next w x y z =>
      simp only [Option.bind_eq_bind, Option.bind_eq_some_iff, Option.pure_def, Option.some.injEq] at found
      obtain ⟨a, first, b, second, c, third, d, fourth, rfl⟩ := found
      exact ⟨w, x, y, z, rfl, first, second, third, fourth⟩
    · cases found
  · rintro ⟨w, x, y, z, rfl, first, second, third, fourth⟩
    simp [decimalQuad, first, second, third, fourth]

/-- Every piece of a quad is a decimal octet. -/
theorem decimalOctet_of_decimalQuad {pieces : List Bytes} {ip : Ipv4Addr} (found : decimalQuad pieces = some ip) :
    ∀ piece ∈ pieces, ∃ v, Ipv4Addr.decimalOctet piece = some v := by
  obtain ⟨w, x, y, z, rfl, first, second, third, fourth⟩ := decimalQuad_eq_some_iff.mp found
  intro piece member
  simp only [List.mem_cons, List.not_mem_nil, or_false] at member
  rcases member with rfl | rfl | rfl | rfl
  · exact ⟨_, first⟩
  · exact ⟨_, second⟩
  · exact ⟨_, third⟩
  · exact ⟨_, fourth⟩

/-- A piece that is no decimal octet is in no quad. -/
theorem decimalQuad_barred {piece : Bytes} (other : Ipv4Addr.decimalOctet piece = none) :
    ∀ pieces, piece ∈ pieces → decimalQuad pieces = none := by
  intro pieces member
  by_contra found
  obtain ⟨ip, found⟩ := Option.ne_none_iff_exists'.mp found
  obtain ⟨v, read⟩ := decimalOctet_of_decimalQuad found piece member
  rw [other] at read
  cases read

theorem parseOctets_text {pieces : List Bytes} (four : pieces.length = 4) (free : ∀ piece ∈ pieces, 46 ∉ piece) :
    Ipv4Addr.parseOctets (text pieces) = decimalQuad pieces := by
  have nonempty : pieces ≠ [] := by
    rintro rfl
    cases four
  rw [Ipv4Addr.parseOctets, show dot.1 = 46 from rfl, splitOn_text nonempty free]
  rfl

/-- The test of the source on four parts, which first checks that each is a `u8`. -/
theorem allU8_fromStr (parts : List Str) (four : parts.length = 4) :
    (if allU8 parts then Ipv4Addr.fromStr (Str.join dot parts) else none) = decimalQuad (parts.map Str.bytes) := by
  have width : (parts.map Str.bytes).length = 4 := by rw [List.length_map, four]
  by_cases free : ∀ piece ∈ parts.map Str.bytes, 46 ∉ piece
  · have whole : Ipv4Addr.fromStr (Str.join dot parts) = decimalQuad (parts.map Str.bytes) := parseOctets_text width free
    rw [whole]
    split
    · rfl
    · next other =>
      cases found : decimalQuad (parts.map Str.bytes) with
      | none => rfl
      | some ip =>
        refine absurd (List.all_eq_true.mpr fun part member => ?_) other
        obtain ⟨v, read⟩ := decimalOctet_of_decimalQuad found part.bytes (List.mem_map_of_mem member)
        rw [parseU8, u8_of_decimalOctet read]
        rfl
  · push Not at free
    obtain ⟨piece, member, dotted⟩ := free
    have other : Ipv4Addr.decimalOctet piece = none := by
      cases read : Ipv4Addr.decimalOctet piece with
      | none => rfl
      | some v => exact absurd dotted (dot_notMem_of_decimalOctet read)
    rw [decimalQuad_barred other _ member, if_neg]
    intro all
    obtain ⟨part, present, rfl⟩ := List.mem_map.mp member
    have accepted := List.all_eq_true.mp all part present
    obtain ⟨v, read⟩ := Option.isSome_iff_exists.mp accepted
    exact dot_notMem_of_u8 read dotted

end Digits

section Hexadecimal

theorem hexOctet_eq {high low : UInt8} (first : isAsciiHexdigit high = true) :
    u8FromStrRadix [high, low] 16 = hexOctet high low := by
  have bound : ∀ b v, toDigit 16 b = some v → v < 16 := by
    intro b v read
    have inside := (Option.filter_eq_some_iff.mp read).2
    simpa using inside
  have unsigned : ¬ [high, low].head? = some 43 := by
    rw [List.head?_cons, Option.some.injEq]
    rintro rfl
    revert first
    decide
  rw [u8FromStrRadix, if_neg unsigned, if_neg (by simp), hexOctet]
  simp only [digitsValue, List.foldlM_cons, List.foldlM_nil, Option.pure_def, Option.bind_eq_bind]
  cases high' : toDigit 16 high with
  | none => rfl
  | some x =>
    cases low' : toDigit 16 low with
    | none => rfl
    | some y =>
      have := bound high x high'
      have := bound low y low'
      simp only [Option.map_some, Option.bind_some, Nat.zero_mul, Nat.zero_add]
      rw [if_pos (by omega)]

/-- Eight octets that are no eight hexadecimal digits spell nothing. -/
theorem hexQuad_digits {s : Bytes} {ip : Ipv4Addr} (found : hexQuad s = some ip) :
    s.length = 8 ∧ s.all isAsciiHexdigit = true := by
  unfold hexQuad at found
  split at found
  · have digit {b c v : UInt8} (read : hexOctet b c = some v) : isAsciiHexdigit b = true ∧ isAsciiHexdigit c = true := by
      simp only [hexOctet, Option.bind_eq_bind, Option.bind_eq_some_iff] at read
      obtain ⟨x, first, y, second, _⟩ := read
      simp [isAsciiHexdigit, first, second]
    simp only [Option.bind_eq_bind, Option.bind_eq_some_iff] at found
    obtain ⟨_, first, _, second, _, third, _, fourth, _⟩ := found
    simp [digit first, digit second, digit third, digit fourth]
  · cases found

private theorem exists_eight {xs : Bytes} (eight : xs.length = 8) : ∃ a b c d e f g h, xs = [a, b, c, d, e, f, g, h] := by
  match xs, eight with
  | [a, b, c, d, e, f, g, h], _ => exact ⟨a, b, c, d, e, f, g, h, rfl⟩

private theorem parseHexadecimalIpLoop_cons {s pair : Str} {i : ℕ} (small : i < 4) (sliced : s.slice (2 * i) (2 * i + 2) = .ok pair)
    (rest : List ℕ) (octets : Bytes) :
    parseHexadecimalIpLoop s (i :: rest) octets = match u8FromStrRadix pair.bytes 16 with
      | none => pure none
      | some octet => parseHexadecimalIpLoop s rest (octets ++ [octet]) := by
  rw [parseHexadecimalIpLoop, umul_ok (by unfold usizeMax; omega), ok_bind, uadd_ok (by unfold usizeMax; omega), ok_bind, sliced]
  rfl

theorem parseHexadecimalIp_eq (s : Str) : parseHexadecimalIp s = .ok (hexQuad s.bytes) := by
  have other (refused : ¬ (s.len = 8 ∧ s.bytes.all isAsciiHexdigit = true)) : hexQuad s.bytes = none := by
    by_contra found
    obtain ⟨ip, found⟩ := Option.ne_none_iff_exists'.mp found
    exact refused (hexQuad_digits found)
  unfold parseHexadecimalIp
  by_cases eight : s.len = 8
  · rw [if_neg (not_not.mpr eight)]
    cases digits : s.bytes.all isAsciiHexdigit with
    | false => rw [other (by simp [digits])]; rfl
    | true =>
      have ascii : ∀ b ∈ s.bytes, b < 0x80 := fun b member =>
        ascii_of_isAsciiHexdigit (List.all_eq_true.mp digits b member)
      have octet (i : ℕ) (small : i < 4) : ∃ pair : Str, s.slice (2 * i) (2 * i + 2) = .ok pair ∧
          pair.bytes = (s.bytes.take (2 * i + 2)).drop (2 * i) :=
        Str.slice_ok (by omega) (Str.isCharBoundary_of_ascii ascii (by omega)) (Str.isCharBoundary_of_ascii ascii (by omega))
      obtain ⟨p0, first, b0⟩ := octet 0 (by omega)
      obtain ⟨p1, second, b1⟩ := octet 1 (by omega)
      obtain ⟨p2, third, b2⟩ := octet 2 (by omega)
      obtain ⟨p3, fourth, b3⟩ := octet 3 (by omega)
      obtain ⟨a, b, c, d, e, f, g, h, shape⟩ := exists_eight (show s.bytes.length = 8 from eight)
      rw [shape] at b0 b1 b2 b3 digits ⊢
      simp only [List.all_cons, List.all_nil, Bool.and_true, Bool.and_eq_true] at digits
      have h0 : u8FromStrRadix p0.bytes 16 = hexOctet a b := b0 ▸ hexOctet_eq digits.1
      have h1 : u8FromStrRadix p1.bytes 16 = hexOctet c d := b1 ▸ hexOctet_eq digits.2.2.1
      have h2 : u8FromStrRadix p2.bytes 16 = hexOctet e f := b2 ▸ hexOctet_eq digits.2.2.2.2.1
      have h3 : u8FromStrRadix p3.bytes 16 = hexOctet g h := b3 ▸ hexOctet_eq digits.2.2.2.2.2.2.1
      have range : List.range 4 = [0, 1, 2, 3] := rfl
      rw [if_neg (by simp), range, parseHexadecimalIpLoop_cons (by omega) first, h0, hexQuad]
      cases hexOctet a b with
      | none => rfl
      | some v0 =>
        dsimp only
        rw [parseHexadecimalIpLoop_cons (by omega) second, h1]
        cases hexOctet c d with
        | none => rfl
        | some v1 =>
          dsimp only
          rw [parseHexadecimalIpLoop_cons (by omega) third, h2]
          cases hexOctet e f with
          | none => rfl
          | some v2 =>
            dsimp only
            rw [parseHexadecimalIpLoop_cons (by omega) fourth, h3]
            cases hexOctet g h <;> rfl
  · rw [if_pos eight, other (fun shape => eight shape.1)]
    rfl

end Hexadecimal

section Labels

private theorem findSomeM?_eq {α β : Type} {xs : List α} {probe : α → Outcome (Option β)} {found : α → Option β}
    (each : ∀ x ∈ xs, probe x = .ok (found x)) : xs.findSomeM? probe = .ok (xs.findSome? found) := by
  induction xs with
  | nil => rfl
  | cons x rest ih =>
    rw [List.findSomeM?, each x (List.mem_cons_self ..), ok_bind, List.findSome?_cons]
    cases found x with
    | some b => rfl
    | none => exact ih fun y member => each y (List.mem_cons_of_mem _ member)

private theorem findSome?_filter_eight (pieces : List Str) :
    (pieces.filter fun p => p.len == 8).findSome? (fun p => hexQuad p.bytes) = (pieces.map Str.bytes).findSome? hexQuad := by
  induction pieces with
  | nil => rfl
  | cons piece rest ih =>
    rw [List.map_cons, List.findSome?_cons, ← ih, List.filter_cons]
    split
    · rw [List.findSome?_cons]
    · next other =>
      cases found : hexQuad piece.bytes with
      | none => rfl
      | some ip => exact absurd (hexQuad_digits found).1 (by simpa [Str.len] using other)

theorem parseHyphenatedIp_eq {s : Str} (small : s.len ≤ isizeMax) :
    parseHyphenatedIp s = .ok ((firstQuad (s.bytes.splitOn hyphen.1)).or ((s.bytes.splitOn hyphen.1).findSome? hexQuad)) := by
  have count := Str.length_split_le hyphen s
  unfold isizeMax at small
  have hex : ((s.split hyphen).filter fun p => p.len == 8).findSomeM? parseHexadecimalIp =
      .ok ((s.bytes.splitOn hyphen.1).findSome? hexQuad) := by
    rw [findSomeM?_eq fun piece _ => parseHexadecimalIp_eq piece, findSome?_filter_eight, Str.split_bytes]
  have quads : firstQuad (s.bytes.splitOn hyphen.1) = (s.split hyphen).firstWindow 4 fun four =>
      if allU8 four then Ipv4Addr.fromStr (Str.join dot four) else none := by
    rw [firstQuad, ← Str.split_bytes, List.firstWindow_map]
    exact List.firstWindow_congr fun window _ four => (allU8_fromStr window four).symm
  rw [quads, parseHyphenatedIp]
  dsimp only
  by_cases more : 4 < (s.split hyphen).length
  · rw [if_neg (by omega), if_pos more, usub_ok (by omega), ok_bind]
    have windows := findSomeM?_windows (show 4 ≤ (s.split hyphen).length by omega) (by unfold usizeMax; omega) fun four =>
      if allU8 four then Ipv4Addr.fromStr (Str.join dot four) else none
    rw [windows, ok_bind]
    cases List.firstWindow 4 _ (s.split hyphen) with
    | none => rw [Option.none_or]; exact hex
    | some ip => rfl
  by_cases four : (s.split hyphen).length = 4
  · rw [List.firstWindow_self (by omega) four, if_neg more]
    by_cases all : allU8 (s.split hyphen) = true
    · rw [if_pos ⟨four, all⟩, if_pos all]
      cases Ipv4Addr.fromStr (Str.join dot (s.split hyphen)) with
      | none => rw [Option.none_or]; exact hex
      | some ip => rfl
    · rw [if_neg (fun both => all both.2), if_neg all, Option.none_or]
      exact hex
  · rw [if_neg (fun both => four both.1), if_neg more, List.firstWindow_of_short (by omega), Option.none_or]
    exact hex

theorem parseLabelIpv4_eq {label : Str} (small : label.len ≤ isizeMax) :
    parseLabelIpv4 label = .ok (spelledIpv4 label.bytes) := by
  have following : parseHyphenatedIp label = .ok (spelledIpv4 label.bytes) ∨ ∃ ip, hexQuad label.bytes = some ip := by
    cases found : hexQuad label.bytes with
    | some ip => exact .inr ⟨ip, rfl⟩
    | none => rw [spelledIpv4, found, Option.none_or]; exact .inl (parseHyphenatedIp_eq small)
  rw [parseLabelIpv4]
  dsimp only
  split
  · rw [parseHexadecimalIp_eq, ok_bind]
    cases found : hexQuad label.bytes with
    | some ip => rw [spelledIpv4, found]; rfl
    | none => exact following.resolve_right (by simp [found])
  · next other =>
    refine following.resolve_right ?_
    rintro ⟨ip, found⟩
    exact other (hexQuad_digits found).1

/-- The windows of four labels, none of which holds a dot. -/
theorem parseDottedIpv4_eq {parts : List Str} (small : parts.length ≤ usizeMax) (free : ∀ part ∈ parts, 46 ∉ part.bytes) :
    parseDottedIpv4 parts = .ok (firstQuad (parts.map Str.bytes)) := by
  have windows : firstQuad (parts.map Str.bytes) =
      parts.firstWindow 4 fun four => Ipv4Addr.fromStr (Str.join dot four) := by
    rw [firstQuad, List.firstWindow_map]
    refine List.firstWindow_congr fun window inside four => ?_
    refine (parseOctets_text (by rw [List.length_map, four]) ?_).symm
    intro piece member
    obtain ⟨part, present, rfl⟩ := List.mem_map.mp member
    exact free part (inside.subset present)
  rw [parseDottedIpv4, windows]
  split
  · rw [List.firstWindow_of_short (by omega)]
    rfl
  · rw [usub_ok (by omega), ok_bind]
    exact findSomeM?_windows (by omega) small _

end Labels

section Colons

/-- Replacing pairs of hyphens first and single ones afterwards replaces every hyphen. -/
theorem replaceBytes_hyphens (label : Bytes) :
    Str.replaceBytes 45 [] [58] (Str.replaceBytes 45 [45] [58, 58] label) = withColons label := by
  have single (b : UInt8) (rest : Bytes) : Str.replaceBytes 45 [] [58] (b :: rest) =
      (if b = 45 then 58 else b) :: Str.replaceBytes 45 [] [58] rest := by
    rw [Str.replaceBytes]
    by_cases same : b = 45 <;> simp [same]
  induction label using Str.replaceBytes.induct 45 [45] with
  | case1 => simp [Str.replaceBytes, withColons]
  | case2 b rest found ih =>
    obtain ⟨rfl, suffix, rfl⟩ := found
    rw [List.drop_left] at ih
    rw [Str.replaceBytes, if_pos ⟨rfl, List.prefix_append ..⟩, List.drop_left]
    simp only [List.cons_append, List.nil_append, single, ih]
    rfl
  | case3 b rest other ih =>
    rw [Str.replaceBytes, if_neg other, single, ih]
    rfl

theorem ipv6OfText_eq (s : Str) : Ipv6Addr.fromStr s = ipv6OfText s.bytes := by
  rw [Ipv6Addr.fromStr, ipv6OfText, Str.isEmpty]
  cases s.bytes <;> rfl

theorem parseHyphenatedIpv6_eq (s : Str) : parseHyphenatedIpv6 s = spelledIpv6 s.bytes := by
  have colons : ((s.replace hyphen [hyphen] (.ofString "::")).replace hyphen [] (.ofString ":")).bytes =
      withColons s.bytes := replaceBytes_hyphens s.bytes
  rw [parseHyphenatedIpv6, spelledIpv6, Str.contains]
  dsimp only
  rw [ipv6OfText_eq, colons]
  by_cases hyphened : hyphen.1 ∈ s.bytes <;> simp [hyphened]

end Colons

section Names

theorem len_le_join (c : Ascii) {parts : List Str} {part : Str} (member : part ∈ parts) : part.len ≤ (Str.join c parts).len := by
  have length := Str.length_intercalate c (parts.map Str.bytes)
  have inside : part.len ∈ (parts.map Str.bytes).map List.length := by
    rw [List.map_map]
    exact List.mem_map_of_mem member
  have part := List.single_le_sum (by simp) _ inside
  have some := List.length_pos_of_mem member
  rw [List.length_map] at length
  unfold Str.join Str.len at *
  dsimp only
  split at length <;> omega

private theorem mem_splitOn_free {domain : Str} : ∀ part ∈ domain.split dot, (46 : UInt8) ∉ part.bytes := by
  intro part member
  have inside : part.bytes ∈ domain.bytes.splitOn dot.1 := by
    rw [← Str.split_bytes]
    exact List.mem_map_of_mem member
  exact notMem_of_mem_splitOn inside

/-- What is found among the labels of a name is what they spell. -/
theorem addressOf_split {domain : Str} (small : domain.len ≤ isizeMax) :
    addressOf (domain.split dot) = spelled (domain.bytes.splitOn 46) := by
  have count := Str.length_split_le dot domain
  have few : (domain.split dot).length ≤ usizeMax := by unfold isizeMax at small; unfold usizeMax; omega
  have ipv4 : (domain.split dot).findSome? labelIpv4 = (domain.bytes.splitOn 46).findSome? spelledIpv4 := by
    change _ = (domain.bytes.splitOn dot.1).findSome? spelledIpv4
    rw [← Str.split_bytes, List.findSome?_map]
    refine List.findSome?_congr fun part member => ?_
    rw [labelIpv4, parseLabelIpv4_eq (Nat.le_trans (Str.len_of_mem_split dot member) small), value_ok]
    rfl
  have ipv6 : (domain.split dot).findSome? parseHyphenatedIpv6 = (domain.bytes.splitOn 46).findSome? spelledIpv6 := by
    change _ = (domain.bytes.splitOn dot.1).findSome? spelledIpv6
    rw [← Str.split_bytes, List.findSome?_map]
    exact List.findSome?_congr fun part _ => parseHyphenatedIpv6_eq part
  have dotted : dottedIpv4 (domain.split dot) = firstQuad (domain.bytes.splitOn 46) := by
    rw [dottedIpv4, parseDottedIpv4_eq few mem_splitOn_free, Str.split_bytes]
    rfl
  rw [addressOf, spelled, ipv4, ipv6, dotted]

theorem interpretIp_spelled {domain : Str} (small : domain.len ≤ isizeMax) :
    interpretIp domain = .ok (spelled (domain.bytes.splitOn 46)) := by
  rw [interpretIp_eq small, addressOf_split small]

theorem spelled_ipv4 {labels : List Bytes} {v4 : Ipv4Addr} (found : (labels.findSome? spelledIpv4).or (firstQuad labels) = some v4) :
    spelled labels = some (some v4, labels.findSome? spelledIpv6) := by
  rw [spelled, found]
  simp

/-- The name that labels without dots are joined to. -/
theorem interpretIp_join {labels : List Str} (some : labels ≠ []) (free : ∀ label ∈ labels, 46 ∉ label.bytes)
    (small : (Str.join dot labels).len ≤ isizeMax) :
    interpretIp (Str.join dot labels) = .ok (spelled (labels.map Str.bytes)) := by
  have parts : (Str.join dot labels).bytes.splitOn 46 = labels.map Str.bytes := by
    refine splitOn_text (by simpa using some) ?_
    intro label member
    obtain ⟨part, present, rfl⟩ := List.mem_map.mp member
    exact free part present
  rw [interpretIp_spelled small, parts]

end Names

end RustyAlias
