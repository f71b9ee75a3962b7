import RustyAlias.Dns.Message
import RustyAlias.Model.Response
import RustyAlias.Proofs.Names
import RustyAlias.Proofs.Question
import RustyAlias.Rust.Returns
import RustyAlias.ToMathlib.ListRuns

/-! # What is written for queued records

Emission without buffers and counters: each section is cut into RRsets, an RRset is written with its
RDATA sorted and its signature behind it, and a message is its header, the question, the records
of three sections and at most one OPT record. The readings of the clock go to the signatures in the
order in which these are made.
-/

namespace RustyAlias

open Rust Rust.Outcome Dns

/-- Records queued or written, by section. -/
structure Queues where
  answers : List Rr
  authority : List Rr
  additional : List Rr

/-- Owners of one key are one name. -/
def ownerKey : Owner → Option Bytes
  | .question => none
  | .name name => some (lowerAll (trimmed name))

/-- Records of one key belong to one RRset. -/
def Rr.setKey (rr : Rr) : Option Bytes × UInt16 := (ownerKey rr.owner, rr.typ)

/-- The RRsets of a section. -/
def rrsets (rrs : List Rr) : List (List Rr) := rrs.runs Rr.setKey

/-- The key that signs records of a type, if they are signed at all. -/
def ZoneParams.signer (params : ZoneParams) (typ : UInt16) : Option DnssecKey :=
  if typ = typeRrsig then none else params.dnssec.filter fun _ => params.doBit

/-- The owner as it is signed; `qname` is the QNAME of the query in wire form. -/
def ownerWire (qname : Bytes) : Owner → Bytes
  | .question => (lowercaseWireName qname).value
  | .name name => encodeDomainName name

section Emission

variable (params : ZoneParams) (qname : Bytes)

def rrsigRr (key : DnssecKey) (reading : ClockReading) (head : Rr) (rdatas : List Bytes) : Rr :=
  ⟨head.owner, typeRrsig, head.ttl,
    (key.signRrsig reading (ownerWire qname head.owner) head.typ head.ttl rdatas params.zone).value⟩

def emitSet (reading : ClockReading) : List Rr → List Rr
  | [] => []
  | head :: rest =>
    let rdatas := ((head :: rest).map (·.rdata)).mergeSort
    rdatas.map (fun rdata => { head with rdata := rdata }) ++
      ((params.signer head.typ).map fun key => rrsigRr params qname key reading head rdatas).toList

def clockAfter (clock : Clock) : List Rr → Clock
  | [] => clock
  | head :: _ => if (params.signer head.typ).isSome then clock.tail else clock

def emitSets : Clock → List (List Rr) → List Rr × Clock
  | clock, [] => ([], clock)
  | clock, set :: rest =>
    let later := emitSets (clockAfter params clock set) rest
    (emitSet params qname clock.head set ++ later.1, later.2)

def emitQueues (clock : Clock) (queues : Queues) : Queues :=
  let answers := emitSets params qname clock (rrsets queues.answers)
  let authority := emitSets params qname answers.2 (rrsets queues.authority)
  let additional := emitSets params qname authority.2 (rrsets queues.additional)
  ⟨answers.1, authority.1, additional.1⟩

end Emission

/-- One record on the wire. -/
def Rr.encode (rr : Rr) : Bytes := writeRr [] rr.owner rr.typ rr.ttl rr.rdata

/-- The server's OPT record. -/
def optRr (dnssecOk : Bool) : Bytes :=
  [0] ++ be16 typeOpt ++ be16 ednsUdpSize ++ [0, 0] ++ be16 (if dnssecOk then 0x8000 else 0) ++ be16 0

/-- The OPT record to be appended: whether the query has one, and the DO bit that is echoed. -/
def optOf (query : Bytes) (dnssecOk : Bool) : Option Bool := (queryOpt? query).map fun _ => dnssecOk

/-- A count that saturates. -/
def count (n : ℕ) : UInt16 := UInt16.ofNat (min n 65535)

/-- The header of the query, counts included. -/
def queryHeader (query : Bytes) : Header where
  id := fromBe16 (query.getD 0 0) (query.getD 1 0)
  flags0 := query.getD 2 0
  flags1 := query.getD 3 0
  qdcount := fromBe16 (query.getD 4 0) (query.getD 5 0)
  ancount := fromBe16 (query.getD 6 0) (query.getD 7 0)
  nscount := fromBe16 (query.getD 8 0) (query.getD 9 0)
  arcount := fromBe16 (query.getD 10 0) (query.getD 11 0)

/-- The header of a response without records: ID, OPCODE, RD and QDCOUNT come from the query. -/
def replyHeader (query : Bytes) (aa : Bool) (rcode : UInt8) : Header where
  id := (queryHeader query).id
  flags0 := 0b10000000 ||| (query.getD 2 0 &&& 0b01111000) ||| (if aa then 0b00000100 else 0) |||
    (query.getD 2 0 &&& 0b00000001)
  flags1 := rcode &&& 0x0f
  qdcount := (queryHeader query).qdcount
  ancount := 0
  nscount := 0
  arcount := 0

/-- A header with the counts of the records that follow it. -/
def withCounts (header : Header) (records : Queues) (opt : Option Bool) : Header :=
  { header with
    ancount := count records.answers.length
    nscount := count records.authority.length
    arcount := count (records.additional.length + opt.toList.length) }

/-- The octets of all records, the OPT record last. -/
def recordOctets (records : Queues) (opt : Option Bool) : Bytes :=
  records.answers.flatMap Rr.encode ++ (records.authority.flatMap Rr.encode ++
    (records.additional.flatMap Rr.encode ++ opt.toList.flatMap optRr))

/-- A response: header, question, records. -/
def layout (header : Header) (question : Bytes) (records : Queues) (opt : Option Bool) : Bytes :=
  (withCounts header records opt).encode ++ (question ++ recordOctets records opt)

end RustyAlias
