import RustyAlias.Dns.Message

/-! # Zones and what their servers say

A zone has entries under the names at or below its apex, by type, and the apex has one SOA record. A server
with authority for it answers with all that the zone has of the type in the question, or of every type, and
with nothing else; the SOA record stands for an empty answer (section 4.3.2 of RFC 1034 and section 2.2 of
RFC 2308). What a server makes for one message is not part of the zone: OPT, RRSIG and NSEC records.
-/

namespace Dns

open Rust

/-- A record without its owner, type and class. -/
structure Entry where
  ttl : UInt32
  rdata : Bytes
deriving DecidableEq

def soaType : UInt16 := 6

def anyType : UInt16 := 255

/-- OPT, RRSIG and NSEC. -/
def madeTypes : List UInt16 := [optType, 46, 47]

structure Zone where
  apex : Name
  data : Name → UInt16 → List Entry
  data_fold : ∀ {a b : Name}, fold a = fold b → data a = data b
  soa : ∃ entry, data apex soaType = [entry]

namespace Zone

variable (zone : Zone)

def Contains (name : Name) : Prop := fold zone.apex <:+ fold name

instance (name : Name) : Decidable (zone.Contains name) := inferInstanceAs (Decidable (_ <:+ _))

/-- A record of the zone. -/
structure Has (record : Record) : Prop where
  inside : zone.Contains record.owner
  internet : record.rclass = 1
  entry : ⟨record.ttl, record.rdata⟩ ∈ zone.data record.owner record.rtype

/-- The records of a type under a name, in the letters of the name. -/
def records (name : Name) (rtype : UInt16) : List Record :=
  (zone.data name rtype).map fun entry => ⟨name, rtype, 1, entry.ttl, entry.rdata⟩

/-- The message of a server for the zone to a question about a name of it. -/
structure Answers (question : Question) (msg : Message) : Prop where
  questions : msg.questions = [question]
  rcode : msg.header.rcode = 0
  aa : msg.header.aa = true
  answers : ∀ t ∉ madeTypes, (msg.answers.filter fun record => record.rtype = t).Perm
    (if question.qtype = t ∨ question.qtype = anyType then zone.records question.name t else [])
  sound : ∀ record ∈ msg.answers ++ msg.authority ++ msg.additional, record.rtype ∉ madeTypes → zone.Has record
  negative : msg.answers = [] → ∃ soa ∈ msg.authority, soa.rtype = soaType ∧ fold soa.owner = fold zone.apex

/-- The message to any other question. It has no records but OPT. -/
structure Refuses (question : Question) (msg : Message) : Prop where
  questions : msg.questions = [question]
  rcode : msg.header.rcode = 5
  aa : msg.header.aa = false
  nothing : ∀ record ∈ msg.answers ++ msg.authority ++ msg.additional, record.rtype = optType

/-- A message as a server for the zone sends it. -/
def Speaks (question : Question) (msg : Message) : Prop :=
  if question.qclass = 1 ∧ zone.Contains question.name then zone.Answers question msg else Refuses question msg

variable {zone}

/-- A name is in the zone in any case of its letters, with the same entries. -/
theorem Has.congr {a b : Name} (same : fold a = fold b) {rtype rclass : UInt16} {entry : Entry}
    (has : zone.Has ⟨a, rtype, rclass, entry.ttl, entry.rdata⟩) : zone.Has ⟨b, rtype, rclass, entry.ttl, entry.rdata⟩ where
  inside := show _ <:+ fold b from same ▸ has.inside
  internet := has.internet
  entry := show _ ∈ zone.data b rtype from zone.data_fold same ▸ has.entry

end Zone

end Dns
