import RustyAlias.Rust.Bytes

/-! # Character strings

TXT RDATA is a sequence of character strings (section 3.3.14 of RFC 1035), each an octet with its length
and that many octets.
-/

namespace Dns

open Rust

/-- The character strings that fill the octets. -/
def readStrings : Bytes → Option (List Bytes)
  | [] => some []
  | len :: rest =>
    if len.toNat ≤ rest.length then (readStrings (rest.drop len.toNat)).map (rest.take len.toNat :: ·) else none
termination_by octets => octets.length
decreasing_by simp only [List.length_drop, List.length_cons]; omega

theorem readStrings_nil : readStrings [] = some [] := by rw [readStrings]

theorem readStrings_string {string : Bytes} (short : string.length ≤ 255) (rest : Bytes) :
    readStrings (UInt8.ofNat string.length :: (string ++ rest)) = (readStrings rest).map (string :: ·) := by
  have octet : (UInt8.ofNat string.length).toNat = string.length := by simp only [UInt8.toNat_ofNat']; omega
  rw [readStrings, octet, if_pos (by simp), List.take_left, List.drop_left]

end Dns
