import RustyAlias.Proofs.Addresses
import RustyAlias.Spec.Reply

/-! # What case does not change

Names are compared, and addresses are read from them, by the folded octets alone, and all that a
reply takes from the QNAME is its folded wire form. So a question asked in another case has the same
reply.
-/

namespace RustyAlias

open Rust Rust.Outcome Dns

section Digits

private theorem toDigit_toLower (radix : ℕ) (b : UInt8) : toDigit radix (toLower b) = toDigit radix b := by
  have value : ∀ b : UInt8, (if 48 ≤ toLower b ∧ toLower b ≤ 57 then some ((toLower b).toNat - 48)
      else if 97 ≤ toLower b ∧ toLower b ≤ 122 then some ((toLower b).toNat - 87)
      else if 65 ≤ toLower b ∧ toLower b ≤ 90 then some ((toLower b).toNat - 55) else none) =
      if 48 ≤ b ∧ b ≤ 57 then some (b.toNat - 48)
      else if 97 ≤ b ∧ b ≤ 122 then some (b.toNat - 87)
      else if 65 ≤ b ∧ b ≤ 90 then some (b.toNat - 55) else none := by decide +kernel
  rw [toDigit, toDigit, value b]

private theorem hexOctet_toLower (high low : UInt8) : hexOctet (toLower high) (toLower low) = hexOctet high low := by
  rw [hexOctet, hexOctet, toDigit_toLower, toDigit_toLower]

theorem hexQuad_lowerAll (label : Bytes) : hexQuad (lowerAll label) = hexQuad label := by
  match label with
  | [a, b, c, d, e, f, g, h] => simp [hexQuad, hexOctet_toLower]
  | [] | [_] | [_, _] | [_, _, _] | [_, _, _, _] | [_, _, _, _, _] | [_, _, _, _, _, _] | [_, _, _, _, _, _, _]
  | _ :: _ :: _ :: _ :: _ :: _ :: _ :: _ :: _ :: _ => rfl

private theorem digitsValue_lowerAll (radix : ℕ) (digits : Bytes) :
    digitsValue radix (lowerAll digits) = digitsValue radix digits := by
  simp only [digitsValue, lowerAll, List.foldlM_map, toDigit_toLower]

theorem lowerAll_eq_nil_iff {octets : Bytes} : lowerAll octets = [] ↔ octets = [] := List.map_eq_nil_iff

private theorem decimalOctet_lowerAll (part : Bytes) : Ipv4Addr.decimalOctet (lowerAll part) = Ipv4Addr.decimalOctet part := by
  have first : (lowerAll part).head? = some 48 ↔ part.head? = some 48 := by
    cases part with
    | nil => rfl
    | cons b rest => simp [toLower_eq_iff]
  simp only [Ipv4Addr.decimalOctet, lowerAll_eq_nil_iff, lowerAll_length, first, digitsValue_lowerAll]

private theorem decimalQuad_lowerAll (parts : List Bytes) : decimalQuad (parts.map lowerAll) = decimalQuad parts := by
  match parts with
  | [w, x, y, z] => simp [decimalQuad, decimalOctet_lowerAll]
  | [] | [_] | [_, _] | [_, _, _] | _ :: _ :: _ :: _ :: _ :: _ => rfl

private theorem splitOn_lowerAll {c : UInt8} (small : c.toNat < 65) (octets : Bytes) :
    (lowerAll octets).splitOn c = (octets.splitOn c).map lowerAll :=
  List.splitOn_map fun b _ => toLower_eq_iff small b

private theorem firstQuad_lowerAll (parts : List Bytes) : firstQuad (parts.map lowerAll) = firstQuad parts := by
  simp only [firstQuad, List.firstWindow_map, decimalQuad_lowerAll]

private theorem spelledIpv4_lowerAll (label : Bytes) : spelledIpv4 (lowerAll label) = spelledIpv4 label := by
  rw [spelledIpv4, splitOn_lowerAll (by decide), hexQuad_lowerAll, firstQuad_lowerAll, List.findSome?_map, spelledIpv4]
  congr 3
  funext part
  exact hexQuad_lowerAll part

private theorem parseOctets_lowerAll (octets : Bytes) : Ipv4Addr.parseOctets (lowerAll octets) = Ipv4Addr.parseOctets octets := by
  rw [Ipv4Addr.parseOctets, splitOn_lowerAll (by decide), Ipv4Addr.parseOctets]
  exact decimalQuad_lowerAll (octets.splitOn dot.1)

private theorem hexGroup_lowerAll (piece : Bytes) : Ipv6Addr.hexGroup (lowerAll piece) = Ipv6Addr.hexGroup piece := by
  simp only [Ipv6Addr.hexGroup, lowerAll_eq_nil_iff, lowerAll_length, digitsValue_lowerAll]

private theorem groups_lowerAll (quad : Bool) (octets : Bytes) :
    Ipv6Addr.groups quad (lowerAll octets) = Ipv6Addr.groups quad octets := by
  have pieces (parts : List Bytes) : (parts.map lowerAll).mapM Ipv6Addr.hexGroup = parts.mapM Ipv6Addr.hexGroup := by
    rw [List.mapM_map]
    congr 1
    funext piece
    exact hexGroup_lowerAll piece
  have last (parts : List Bytes) : (parts.map lowerAll).getLast?.bind Ipv4Addr.parseOctets =
      parts.getLast?.bind Ipv4Addr.parseOctets := by
    rw [List.getLast?_map]
    cases parts.getLast? with
    | none => rfl
    | some piece => exact parseOctets_lowerAll piece
  rw [Ipv6Addr.groups, Ipv6Addr.groups, splitOn_lowerAll (by decide)]
  simp only [lowerAll_eq_nil_iff, pieces, ← List.map_dropLast, last]

private theorem splitDoubleColon_lowerAll (octets : Bytes) : Ipv6Addr.splitDoubleColon (lowerAll octets) =
    (Ipv6Addr.splitDoubleColon octets).map fun (front, back) => (lowerAll front, lowerAll back) := by
  fun_induction Ipv6Addr.splitDoubleColon octets with
  | case1 a b rest colons => simp [Ipv6Addr.splitDoubleColon, colons.1, colons.2]; decide
  | case2 a b rest other ih =>
    have colons : ¬ (toLower a = colon.1 ∧ toLower b = colon.1) := by
      rwa [toLower_eq_iff (by decide), toLower_eq_iff (by decide)]
    rw [lowerAll_cons, lowerAll_cons, Ipv6Addr.splitDoubleColon, if_neg colons]
    rw [lowerAll_cons] at ih
    rw [ih]
    cases Ipv6Addr.splitDoubleColon (b :: rest) <;> rfl
  | case3 octets short =>
    match octets, short with
    | [], _ => rfl
    | [_], _ => rfl
    | a :: b :: rest, short => exact absurd rfl (short a b rest)

private theorem ipv6OfText_lowerAll (octets : Bytes) : ipv6OfText (lowerAll octets) = ipv6OfText octets := by
  rw [ipv6OfText, splitDoubleColon_lowerAll, ipv6OfText]
  cases Ipv6Addr.splitDoubleColon octets with
  | none => simp only [Option.map_none, lowerAll_eq_nil_iff, groups_lowerAll]
  | some pair => simp only [Option.map_some, groups_lowerAll]

private theorem withColons_lowerAll (label : Bytes) : withColons (lowerAll label) = lowerAll (withColons label) := by
  simp only [withColons, lowerAll, List.map_map]
  refine List.map_congr_left fun b _ => ?_
  simp only [Function.comp_apply, toLower_eq_iff (show hyphen.1.toNat < 65 by decide)]
  split
  · rfl
  · rfl

private theorem spelledIpv6_lowerAll (label : Bytes) : spelledIpv6 (lowerAll label) = spelledIpv6 label := by
  have hyphened : hyphen.1 ∈ lowerAll label ↔ hyphen.1 ∈ label := by
    simp [lowerAll, toLower_eq_iff (show hyphen.1.toNat < 65 by decide)]
  simp only [spelledIpv6, hyphened, withColons_lowerAll, ipv6OfText_lowerAll]

/-- The addresses that labels spell are spelled in any case. -/
theorem spelled_fold (labels : List Bytes) : spelled (fold labels) = spelled labels := by
  have ipv4 : (fold labels).findSome? spelledIpv4 = labels.findSome? spelledIpv4 := by
    rw [fold, List.findSome?_map]
    exact List.findSome?_congr fun label _ => spelledIpv4_lowerAll label
  have ipv6 : (fold labels).findSome? spelledIpv6 = labels.findSome? spelledIpv6 := by
    rw [fold, List.findSome?_map]
    exact List.findSome?_congr fun label _ => spelledIpv6_lowerAll label
  rw [spelled, ipv4, ipv6, fold, firstQuad_lowerAll, spelled]

end Digits

section Names

theorem lowerAll_trimmed (name : Str) : lowerAll (trimmed name) = (lowerAll name.bytes).rdropWhile (· == 46) := by
  have dot (b : UInt8) : (toLower b == 46) = (b == 46) := by
    rw [Bool.eq_iff_iff, beq_iff_eq, beq_iff_eq, toLower_eq_iff (by decide)]
  rw [trimmed, Str.bytes_trimEndMatches, List.rdropWhile, List.rdropWhile, lowerAll, lowerAll, List.map_reverse,
    ← List.map_reverse (f := toLower) (l := name.bytes), List.dropWhile_map]
  congr 3
  funext b
  exact (dot b).symm

variable {a b : Str} (same : lowerAll a.bytes = lowerAll b.bytes)

include same

private theorem trimmed_congr : lowerAll (trimmed a) = lowerAll (trimmed b) := by rw [lowerAll_trimmed, lowerAll_trimmed, same]

theorem inZone_congr (zone : Str) : inZone a zone = inZone b zone := by
  have folded := trimmed_congr same
  have length := congrArg List.length folded
  rw [lowerAll_length, lowerAll_length] at length
  have below : Below (trimmed a) (trimmed zone) ↔ Below (trimmed b) (trimmed zone) := by rw [Below, Below, folded, length]
  exact decide_eq_decide.mpr (and_congr_right fun _ => below)

theorem eqIgnoreAsciiCase_congr (other : Str) : a.eqIgnoreAsciiCase other = b.eqIgnoreAsciiCase other := by
  rw [Str.eqIgnoreAsciiCase, Str.eqIgnoreAsciiCase, eqIgnoreCase, eqIgnoreCase, same]

theorem isVersionQuery_congr : isVersionQuery a = isVersionQuery b := by
  simp only [isVersionQuery, eqIgnoreAsciiCase_congr same]

theorem namesEq_congr (other : Str) : namesEq a other = namesEq b other := by
  have folded : lowerAll (a.trimEndMatches dot).bytes = lowerAll (b.trimEndMatches dot).bytes := trimmed_congr same
  exact eqIgnoreAsciiCase_congr folded _

theorem isConfiguredNs_congr (config : Config) : isConfiguredNs a config = isConfiguredNs b config := by
  simp only [isConfiguredNs, namesEq_congr same]

theorem addressOf_congr (small : a.len ≤ isizeMax) (small' : b.len ≤ isizeMax) :
    addressOf (a.split dot) = addressOf (b.split dot) := by
  rw [addressOf_split small, addressOf_split small', ← spelled_fold, fold_splitOn, same, ← fold_splitOn, spelled_fold]

end Names

section Replies

variable {params : ZoneParams} {qname qname' : Bytes} (lower : lowercaseWireName qname = lowercaseWireName qname')

include lower

private theorem nsecRr_congr (types : List UInt16) : nsecRr params qname types = nsecRr params qname' types := by
  rw [nsecRr, nsecRr, nsecRdata, nsecRdata, lower]

private theorem nodataQueues_congr (types : List UInt16) :
    nodataQueues params qname types = nodataQueues params qname' types := by
  rw [nodataQueues, nodataQueues, nsecRr_congr lower]

private theorem apexQueues_congr (qtype : UInt16) : apexQueues params qname qtype = apexQueues params qname' qtype := by
  simp only [apexQueues, apexOr, nodataQueues_congr lower, nsecRr_congr lower]

private theorem addressQueues_congr (qtype : UInt16) (ip : Option Ipv4Addr × Option Ipv6Addr) :
    addressQueues params qname qtype ip = addressQueues params qname' qtype ip := by
  simp only [addressQueues, nodataQueues_congr lower]

/-- The reply depends on the folded name alone. -/
theorem replyTo_congr (config : Config) {domain domain' : Str} (same : lowerAll domain.bytes = lowerAll domain'.bytes)
    (small : domain.len ≤ isizeMax) (small' : domain'.len ≤ isizeMax) (qtype qclass : UInt16) :
    replyTo config params qname domain qtype qclass = replyTo config params qname' domain' qtype qclass := by
  simp only [replyTo, inZone_congr same, isVersionQuery_congr same, namesEq_congr same, isConfiguredNs_congr same,
    addressOf_congr same small small', nodataQueues_congr lower, apexQueues_congr lower, addressQueues_congr lower]

private theorem ownerWire_congr (owner : Owner) : ownerWire qname owner = ownerWire qname' owner := by
  cases owner with
  | question => rw [ownerWire, ownerWire, lower]
  | name host => rfl

private theorem emitSet_congr (reading : ClockReading) (set : List Rr) :
    emitSet params qname reading set = emitSet params qname' reading set := by
  cases set with
  | nil => rfl
  | cons head rest => simp only [emitSet, rrsigRr, ownerWire_congr lower]

private theorem emitSets_congr (clock : Clock) (sets : List (List Rr)) :
    emitSets params qname clock sets = emitSets params qname' clock sets := by
  induction sets generalizing clock with
  | nil => rfl
  | cons set rest ih => rw [emitSets, emitSets, ih, emitSet_congr lower]

/-- So does what is written for it. -/
theorem emitQueues_congr (clock : Clock) (queues : Queues) :
    emitQueues params qname clock queues = emitQueues params qname' clock queues := by
  simp only [emitQueues, emitSets_congr lower]

end Replies

end RustyAlias
