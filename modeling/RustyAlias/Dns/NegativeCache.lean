import RustyAlias.Dns.Canonical
import RustyAlias.Dns.Message
import RustyAlias.Dns.Nsec

/-! # Aggressive use of denials

A validating resolver may keep the NSEC records that it has been sent and answer from them: that a name lacks a type,
when the record at the name does not list it, and that a name does not exist, when it falls between an owner and the
next name (RFC 8198).
-/

namespace Dns

open Rust

/-- What an NSEC record says. -/
structure Denial where
  owner : Name
  next : Name
  types : List UInt16
deriving DecidableEq

def Denial.Denies (denial : Denial) (name : Name) (rtype : UInt16) : Prop :=
  fold denial.owner = fold name ∧ rtype ∉ denial.types ∨ Precedes denial.owner name ∧ Precedes name denial.next

def nsecType : UInt16 := 47

def readDenial (record : Record) : Option Denial :=
  if record.rtype = nsecType then do
    let (next, bitmap) ← readName [] record.rdata
    let types ← readTypes bitmap
    return ⟨record.owner, next, types⟩
  else none

def Message.denials (msg : Message) : List Denial := (msg.answers ++ msg.authority ++ msg.additional).filterMap readDenial

/-- What the resolver knows after these messages. -/
def negativeCache (msgs : List Message) : List Denial := msgs.flatMap Message.denials

theorem readDenial_eq_some {record : Record} {denial : Denial} (read : readDenial record = some denial) :
    record.rtype = nsecType ∧ denial.owner = record.owner ∧ ∃ bitmap, readName [] record.rdata = some (denial.next, bitmap) ∧
      readTypes bitmap = some denial.types := by
  unfold readDenial at read
  split at read
  · next nsec =>
    obtain ⟨⟨next, bitmap⟩, name, read⟩ := Option.bind_eq_some_iff.mp read
    obtain ⟨types, listed, same⟩ := Option.bind_eq_some_iff.mp read
    cases same
    exact ⟨nsec, rfl, bitmap, name, listed⟩
  · cases read

/-- A name in front is read as it is, or not at all. -/
theorem readName_wire_eq_some {msg rest tail : Bytes} {name other : Name}
    (octets : ∀ label ∈ name, 1 ≤ label.length ∧ label.length ≤ 63) (short : name.length < 512)
    (read : readName msg (wire name ++ rest) = some (other, tail)) : other = name ∧ tail = rest := by
  rw [readName, readLabels_wire octets short] at read
  obtain ⟨same, _⟩ := Option.filter_eq_some_iff.mp read
  cases same
  exact ⟨rfl, rfl⟩

theorem mem_negativeCache {msgs : List Message} {denial : Denial} (member : denial ∈ negativeCache msgs) :
    ∃ msg ∈ msgs, ∃ record ∈ msg.answers ++ msg.authority ++ msg.additional, readDenial record = some denial := by
  obtain ⟨msg, inside, member⟩ := List.mem_flatMap.mp member
  obtain ⟨record, present, read⟩ := List.mem_filterMap.mp member
  exact ⟨msg, inside, record, present, read⟩

end Dns
