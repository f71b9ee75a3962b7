import RustyAlias.Model.IpParser
import RustyAlias.Rust.Returns

/-! # Reading addresses never panics

The string slices of `parse_hexadecimal_ip` lie between ASCII octets and the windows of four parts
lie inside the parts, whatever the name is.
-/

namespace RustyAlias

open Rust Rust.Outcome

theorem ascii_of_isAsciiHexdigit {b : UInt8} (digit : isAsciiHexdigit b = true) : b < 0x80 := by
  revert b
  decide +kernel

theorem parseHexadecimalIpLoop_returns {s : Str} (eight : s.len = 8) (ascii : ∀ b ∈ s.bytes, b < 0x80)
    {indices : List ℕ} (bound : ∀ i ∈ indices, i < 4) (octets : Bytes) :
    Returns (parseHexadecimalIpLoop s indices octets) fun _ => True := by
  induction indices generalizing octets with
  | nil => exact returns_pure trivial
  | cons i rest ih =>
    have small := bound i (List.mem_cons_self ..)
    obtain ⟨pair, sliced, _⟩ := Str.slice_ok (show 2 * i ≤ 2 * i + 2 by omega)
      (Str.isCharBoundary_of_ascii ascii (by omega)) (Str.isCharBoundary_of_ascii ascii (by omega))
    rw [parseHexadecimalIpLoop, umul_ok (by unfold usizeMax; omega), ok_bind, uadd_ok (by unfold usizeMax; omega),
      ok_bind, sliced, ok_bind]
    cases u8FromStrRadix pair.bytes 16 with
    | none => exact returns_pure trivial
    | some octet => exact ih (fun j member => bound j (List.mem_cons_of_mem _ member)) _

theorem parseHexadecimalIp_returns (s : Str) : Returns (parseHexadecimalIp s) fun _ => True := by
  unfold parseHexadecimalIp
  by_cases eight : s.len = 8
  · rw [if_neg (not_not.mpr eight)]
    cases digits : s.bytes.all isAsciiHexdigit with
    | false => exact returns_pure trivial
    | true =>
      have ascii : ∀ b ∈ s.bytes, b < 0x80 := fun b member =>
        ascii_of_isAsciiHexdigit (List.all_eq_true.mp digits b member)
      refine (parseHexadecimalIpLoop_returns eight ascii (by simp) []).bind fun octets _ => ?_
      split <;> exact returns_pure trivial
  · rw [if_pos eight]; exact returns_pure trivial

/-- The windows of four among parts whose indices fit `usize`. -/
theorem windows_returns {β : Type} {parts : List Str} (four : 4 ≤ parts.length) (small : parts.length ≤ usizeMax)
    (probe : List Str → Outcome (Option β)) (each : ∀ window, Returns (probe window) fun _ => True) :
    Returns ((List.range (parts.length - 4 + 1)).findSomeM? fun i => do probe (← slice parts i (← uadd i 4)))
      fun _ => True := by
  apply Returns.findSomeM?
  intro i member
  rw [List.mem_range] at member
  rw [uadd_ok (by omega), ok_bind, slice_ok (by omega) (by omega), ok_bind]
  exact each _

theorem parseHyphenatedIp_returns {s : Str} (small : s.len ≤ isizeMax) : Returns (parseHyphenatedIp s) fun _ => True := by
  have count := Str.length_split_le hyphen s
  unfold isizeMax at small
  have hex : Returns (((s.split hyphen).filter fun p => p.len == 8).findSomeM? parseHexadecimalIp) fun _ => True :=
    Returns.findSomeM? fun part _ => parseHexadecimalIp_returns part
  unfold parseHyphenatedIp
  dsimp only
  split
  · rw [pure_eq_ok, ok_bind]
    cases Ipv4Addr.fromStr (Str.join dot (s.split hyphen)) with
    | none => exact hex
    | some ip => exact returns_pure trivial
  split
  · next more =>
    rw [usub_ok (by omega), ok_bind]
    refine (windows_returns (by omega) (by unfold usizeMax; omega) (fun four => pure (if allU8 four then
      Ipv4Addr.fromStr (Str.join dot four) else none)) fun _ => returns_pure trivial).bind fun first _ => ?_
    cases first with
    | none => exact hex
    | some ip => exact returns_pure trivial
  · exact hex

theorem parseLabelIpv4_returns {label : Str} (small : label.len ≤ isizeMax) :
    Returns (parseLabelIpv4 label) fun _ => True := by
  unfold parseLabelIpv4
  dsimp only
  split
  · refine (parseHexadecimalIp_returns label).bind fun whole _ => ?_
    cases whole with
    | none => exact parseHyphenatedIp_returns small
    | some ip => exact returns_pure trivial
  · exact parseHyphenatedIp_returns small

theorem parseDottedIpv4_returns {parts : List Str} (small : parts.length ≤ usizeMax) :
    Returns (parseDottedIpv4 parts) fun _ => True := by
  unfold parseDottedIpv4
  split
  · exact returns_pure trivial
  · rw [usub_ok (by omega), ok_bind]
    exact windows_returns (by omega) small (fun four => pure (Ipv4Addr.fromStr (Str.join dot four)))
      fun _ => returns_pure trivial

/-- The address that one label spells. -/
def labelIpv4 (label : Str) : Option Ipv4Addr := (parseLabelIpv4 label).value

/-- The first window of four labels that is a dotted quad. -/
def dottedIpv4 (parts : List Str) : Option Ipv4Addr := (parseDottedIpv4 parts).value

/-- Each accumulator of the loop is a search; leaving the loop early loses nothing. -/
theorem interpretIpLoop_eq {parts : List Str} (small : ∀ part ∈ parts, part.len ≤ isizeMax) (ipv4 : Option Ipv4Addr)
    (ipv6 : Option Ipv6Addr) :
    interpretIpLoop parts ipv4 ipv6 =
      .ok (ipv4.or (parts.findSome? labelIpv4), ipv6.or (parts.findSome? parseHyphenatedIpv6)) := by
  induction parts generalizing ipv4 ipv6 with
  | nil => simp [interpretIpLoop]
  | cons part rest ih =>
    have following := ih fun other member => small other (List.mem_cons_of_mem _ member)
    have label : parseLabelIpv4 part = .ok (labelIpv4 part) :=
      (parseLabelIpv4_returns (small part (List.mem_cons_self ..))).eq_ok
    rw [interpretIpLoop, label, List.findSome?_cons, List.findSome?_cons]
    cases ipv4 <;> cases ipv6 <;> cases labelIpv4 part <;> cases parseHyphenatedIpv6 part <;> simp [following]

/-- What `interpret_ip` finds among the labels of a name. -/
def addressOf (parts : List Str) : Option (Option Ipv4Addr × Option Ipv6Addr) :=
  let ipv4 := (parts.findSome? labelIpv4).or (dottedIpv4 parts)
  let ipv6 := parts.findSome? parseHyphenatedIpv6
  if ipv4.isNone && ipv6.isNone then none else some (ipv4, ipv6)

theorem interpretIp_eq {domain : Str} (small : domain.len ≤ isizeMax) :
    interpretIp domain = .ok (addressOf (domain.split dot)) := by
  have parts : ∀ part ∈ domain.split dot, part.len ≤ isizeMax := fun part member =>
    Nat.le_trans (Str.len_of_mem_split dot member) small
  have count := Str.length_split_le dot domain
  have few : (domain.split dot).length ≤ usizeMax := by unfold isizeMax at small; unfold usizeMax; omega
  have dotted := (parseDottedIpv4_returns few).eq_ok
  rw [interpretIp]
  dsimp only
  rw [interpretIpLoop_eq parts, ok_bind, dotted, addressOf]
  cases found : (domain.split dot).findSome? labelIpv4 with
  | none => simp [dottedIpv4]; split <;> rfl
  | some ip => simp

end RustyAlias
