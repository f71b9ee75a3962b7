import RustyAlias.Model.Handler
import RustyAlias.Proofs.IpParser
import RustyAlias.Spec.Emission

/-! # The reply to a query

The decision tree of the handler as a plain function: which reply a query gets, if any, and which
records it queues. Nothing is read twice, nothing can fail, and no octet is written.
-/

namespace RustyAlias

open Rust Rust.Outcome Dns

structure Reply where
  aa : Bool
  rcode : UInt8
  /-- The DO bit of the reply's OPT record. -/
  doBit : Bool
  queues : Queues

namespace Reply

def error (rcode : UInt8) : Reply := ⟨false, rcode, false, ⟨[], [], []⟩⟩

def authoritative (params : ZoneParams) (queues : Queues) : Reply := ⟨true, rcodeNoerror, params.sign, queues⟩

end Reply

section Records

def soaRr (params : ZoneParams) (owner : Owner) : Rr :=
  ⟨owner, typeSoa, ttlSoa, encodeDomainName params.nsName ++ encodeDomainName params.hostmaster ++ be32 params.serial ++
    be32 params.refresh ++ be32 params.retry ++ be32 params.expire ++ be32 params.minimum⟩

def nsRrs (params : ZoneParams) : List Rr :=
  params.nsNames.map fun name => ⟨.question, typeNs, ttlRr, encodeDomainName name⟩

def aRr (owner : Owner) (ip : Ipv4Addr) : Rr := ⟨owner, typeA, ttlRr, ip.octets⟩

def aaaaRr (owner : Owner) (ip : Ipv6Addr) : Rr := ⟨owner, typeAaaa, ttlRr, ip.octets⟩

/-- One character string of at most 255 octets. -/
def txtRr (txt : Str) : Rr := ⟨.question, typeTxt, ttlRr, UInt8.ofNat (min txt.len 255) :: txt.bytes.take 255⟩

def dnskeyRr (key : DnssecKey) : Rr := ⟨.question, typeDnskey, ttlSoa, key.dnskeyRdata⟩

def cdsRr (key : DnssecKey) (zone : Str) : Rr := ⟨.question, typeCds, ttlSoa, key.dsRdata zone⟩

def cdnskeyRr (key : DnssecKey) : Rr := ⟨.question, typeCdnskey, ttlSoa, key.dnskeyRdata⟩

def nsecRr (params : ZoneParams) (qname : Bytes) (types : List UInt16) : Rr :=
  ⟨.question, typeNsec, params.minimum, (nsecRdata qname (nsecTypes types)).value⟩

/-- The addresses of a nameserver, if it lies inside the zone. -/
def glueOf (params : ZoneParams) (name : Str) : List Rr :=
  if Below (trimmed name) (trimmed params.zone) then
    aRr (.name name) params.glueIp :: (params.glueIp6.map (aaaaRr (.name name))).toList
  else []

def glueRrs (params : ZoneParams) : List Rr := params.nsNames.flatMap (glueOf params)

end Records

section Answers

variable (params : ZoneParams) (qname : Bytes) (qtype : UInt16)

def nodataQueues (types : List UInt16) : Queues :=
  ⟨[], soaRr params (.name params.zone) :: (if params.sign then [nsecRr params qname types] else []), []⟩

/-- The records of a type that may be missing at the apex. -/
def apexOr (records : List Rr) : Queues :=
  if records = [] then nodataQueues params qname params.apexTypes else ⟨records, [], []⟩

def apexQueues : Queues :=
  let keyed (records : DnssecKey → List Rr) := (params.dnssec.map records).getD []
  if qtype = typeSoa then ⟨[soaRr params .question], nsRrs params, glueRrs params⟩
  else if qtype = typeNs then ⟨nsRrs params, [], glueRrs params⟩
  else if qtype = typeA then ⟨[aRr .question params.glueIp], [], []⟩
  else if qtype = typeAaaa then apexOr params qname (params.glueIp6.map (aaaaRr .question)).toList
  else if qtype = typeTxt then apexOr params qname (params.spf.map txtRr).toList
  else if qtype = typeDnskey then apexOr params qname (keyed fun key => [dnskeyRr key])
  else if qtype = typeCds then apexOr params qname (keyed fun key => [cdsRr key params.zone])
  else if qtype = typeCdnskey then apexOr params qname (keyed fun key => [cdnskeyRr key])
  else if qtype = typeNsec then apexOr params qname (keyed fun _ => [nsecRr params qname params.apexTypes])
  else if qtype = typeAny then
    ⟨[soaRr params .question] ++ nsRrs params ++ [aRr .question params.glueIp] ++
      (params.glueIp6.map (aaaaRr .question)).toList ++ (params.spf.map txtRr).toList ++
      keyed (fun key => [dnskeyRr key, cdsRr key params.zone, cdnskeyRr key]), [], glueRrs params⟩
  else nodataQueues params qname params.apexTypes

def wantsA : Bool := qtype == typeA || qtype == typeAny

def wantsAaaa : Bool := qtype == typeAaaa || qtype == typeAny

/-- The address records that a query type asks for. -/
def addressRrs (ip : Option Ipv4Addr × Option Ipv6Addr) : List Rr :=
  ((ip.1.filter fun _ => wantsA qtype).map (aRr .question)).toList ++
    ((ip.2.filter fun _ => wantsAaaa qtype).map (aaaaRr .question)).toList

def addressQueues (ip : Option Ipv4Addr × Option Ipv6Addr) : Queues :=
  if addressRrs qtype ip = [] then nodataQueues params qname (addressTypes ip) else ⟨addressRrs qtype ip, [], []⟩

end Answers

/-- The suffix test that places a name in the zone. -/
def inZone (domain zone : Str) : Bool := decide (trimmed zone ≠ [] ∧ Below (trimmed domain) (trimmed zone))

/-- The reply to a question. -/
def replyTo (config : Config) (params : ZoneParams) (qname : Bytes) (domain : Str) (qtype qclass : UInt16) : Reply :=
  if qclass ≠ 1 then .error rcodeRefused
  else if !inZone domain config.glueName && !isVersionQuery domain then .error rcodeRefused
  else if isVersionQuery domain then
    if qtype = typeTxt ∨ qtype = typeAny then
      .authoritative params ⟨[txtRr (.ofString "RustyAlias v" ++ config.version)], [], []⟩
    else if inZone domain config.glueName then .authoritative params (nodataQueues params qname [typeTxt])
    else .error rcodeRefused
  else if !config.dmarc.isEmpty && namesEq domain (dmarcOwner config.glueName) then
    .authoritative params (if qtype = typeTxt ∨ qtype = typeAny then ⟨[txtRr config.dmarc], [], []⟩
      else nodataQueues params qname [typeTxt])
  else if namesEq domain config.glueName then .authoritative params (apexQueues params qname qtype)
  else if isConfiguredNs domain config && inZone domain config.glueName then
    .authoritative params (addressQueues params qname qtype (some config.glueIp, config.glueIp6))
  else .authoritative params (match addressOf (domain.split dot) with
    | some ip => addressQueues params qname qtype ip
    | none => nodataQueues params qname [])

/-- The question of a query, as it is echoed. -/
def questionOf (query : Bytes) : Bytes := ((questionEnd? query).map fun stop => (query.take stop).drop 12).getD []

/-- The QNAME of a query in wire form. -/
def qnameOf (query : Bytes) : Bytes := ((questionEnd? query).map fun stop => (query.take (stop - 4)).drop 12).getD []

/-- What the reply is built from. -/
def paramsOf (query : Bytes) (config : Config) : ZoneParams := zoneParams config ((queryOpt? query).any Prod.snd)

/-- The reply to a query; some queries get none. -/
def reply (query : Slice) (config : Config) : Option Reply :=
  if opcode query ≠ 0 then (if query.len < 12 then none else some (.error rcodeNotimp))
  else match (parseQuery query).value, qtypeQclass? query.data with
    | some domain, some (qtype, qclass) =>
      some (replyTo config (paramsOf query.data config) (qnameOf query.data) domain qtype qclass)
    | _, _ => none

/-- A reply on the wire. -/
def render (clock : Clock) (query : Bytes) (params : ZoneParams) (reply : Reply) : Bytes :=
  layout (replyHeader query reply.aa reply.rcode) (questionOf query)
    (emitQueues params (qnameOf query) clock reply.queues) (optOf query reply.doBit)

end RustyAlias
