import RustyAlias.Model.Dnssec

/-! # Building responses

`response.rs`: records are queued per section, regrouped into RRsets, sorted, signed when a key is
configured and the query has the DO bit, and written behind the echoed question while the counts of
the header are bumped one by one.
-/

namespace RustyAlias

open Rust

def rcodeNoerror : UInt8 := 0
def rcodeNotimp : UInt8 := 4
def rcodeRefused : UInt8 := 5
def ttlSoa : UInt32 := 3600
def ttlRr : UInt32 := 60

def offsetAncount : ℕ := 6
def offsetNscount : ℕ := 8
def offsetArcount : ℕ := 10

structure ZoneParams where
  zone : Str
  /-- SOA MNAME (primary nameserver). -/
  nsName : Str
  /-- Full NS RRset advertised at the apex. -/
  nsNames : List Str
  glueIp : Ipv4Addr
  glueIp6 : Option Ipv6Addr
  hostmaster : Str
  serial : UInt32
  refresh : UInt32
  retry : UInt32
  expire : UInt32
  minimum : UInt32
  /-- Apex SPF TXT value, if published. -/
  spf : Option Str
  dnssec : Option DnssecKey
  /-- EDNS DO bit from the query. -/
  doBit : Bool
  /-- Host names are strings in memory. -/
  inMemory : ∀ name ∈ zone :: nsName :: hostmaster :: nsNames, name.len ≤ isizeMax

namespace ZoneParams

def sign (params : ZoneParams) : Bool := params.dnssec.isSome && params.doBit

def apexTypes (params : ZoneParams) : List UInt16 :=
  [typeSoa, typeNs, typeA] ++
    (if params.glueIp6.isSome then [typeAaaa] else []) ++
    (if params.spf.isSome then [typeTxt] else []) ++
    (if params.dnssec.isSome then [typeDnskey, typeCds, typeCdnskey] else [])

end ZoneParams

inductive Owner where
  /-- Compression pointer to the QNAME at offset 12. -/
  | question
  | name (name : Str)
deriving DecidableEq

structure Rr where
  owner : Owner
  typ : UInt16
  ttl : UInt32
  rdata : Bytes
deriving DecidableEq

structure Msg where
  buf : Bytes
  answers : List Rr
  authority : List Rr
  additional : List Rr

def bumpCount (buf : Bytes) (offset : ℕ) : Outcome Bytes := do
  let n := saturatingSucc (fromBe16 (← index buf offset) (← index buf (offset + 1)))
  let _ ← slice buf offset (offset + 2)
  pure (buf.take offset ++ be16 n ++ buf.drop (offset + 2))

def maybeAppendOpt (response : Bytes) (query : Slice) (dnssecOk : Bool) : Outcome Bytes := do
  if !(← queryHasOpt query) || response.length < 12 then pure response
  else do
    let response ← bumpCount response offsetArcount
    let flags : UInt16 := if dnssecOk then 0x8000 else 0
    pure (response ++ [0] ++ be16 typeOpt ++ be16 ednsUdpSize ++ [0, 0] ++ be16 flags ++ be16 0)

/-- If `response` exceeds the UDP limit, set TC and keep only header + question (+ OPT). -/
def maybeTruncateUdp (response : Bytes) (query : Slice) : Outcome Bytes := do
  let limit ← udpResponseLimit query
  if response.length ≤ limit then pure response
  else do
    match ← questionSectionEnd query with
    | none => pure response
    | some qend => do
      let _ ← uadd qend 16
      let id ← slice response 0 2
      let flags0 := response[2]?.getD 0 ||| 0b00000010
      let flags1 := response[3]?.getD 0
      let qdcount ← slice query.data 4 6
      let question ← slice query.data 12 qend
      let truncated := id ++ [flags0, flags1] ++ qdcount ++ [0, 0, 0, 0, 0, 0] ++ question
      let truncated ← maybeAppendOpt truncated query false
      if limit < truncated.length then do
        let keep ← uadd 12 (← usub qend 12)
        let truncated ← setIndex (truncated.take keep) offsetArcount 0
        setIndex truncated (offsetArcount + 1) 0
      else pure truncated

namespace Msg

def withQuestion (query : Slice) (aa : Bool) (rcode : UInt8) : Outcome (Option Msg) := do
  match ← questionSectionEnd query with
  | none => pure none
  | some stop => do
    let id ← slice query.data 0 2
    let qdcount ← slice query.data 4 6
    let question ← slice query.data 12 stop
    let buf := id ++ responseFlags query aa rcode ++ qdcount ++ [0, 0, 0, 0, 0, 0] ++ question
    pure (some ⟨buf, [], [], []⟩)

def addRr (msg : Msg) (countOffset : ℕ) (owner : Owner) (typ : UInt16) (ttl : UInt32) (rdata : Bytes) : Msg :=
  let rr : Rr := ⟨owner, typ, ttl, rdata⟩
  if countOffset = offsetNscount then { msg with authority := msg.authority ++ [rr] }
  else if countOffset = offsetArcount then { msg with additional := msg.additional ++ [rr] }
  else { msg with answers := msg.answers ++ [rr] }

def addSoa (msg : Msg) (countOffset : ℕ) (owner : Owner) (params : ZoneParams) : Msg :=
  let rdata := encodeDomainName params.nsName ++ encodeDomainName params.hostmaster ++ be32 params.serial ++
    be32 params.refresh ++ be32 params.retry ++ be32 params.expire ++ be32 params.minimum
  msg.addRr countOffset owner typeSoa ttlSoa rdata

def addNs (msg : Msg) (countOffset : ℕ) (owner : Owner) (nsName : Str) : Msg :=
  msg.addRr countOffset owner typeNs ttlRr (encodeDomainName nsName)

def addNsSet (msg : Msg) (countOffset : ℕ) (params : ZoneParams) : Msg :=
  params.nsNames.foldl (fun msg name => msg.addNs countOffset .question name) msg

def addA (msg : Msg) (countOffset : ℕ) (owner : Owner) (ip : Ipv4Addr) : Msg :=
  msg.addRr countOffset owner typeA ttlRr ip.octets

def addAaaa (msg : Msg) (countOffset : ℕ) (owner : Owner) (ip : Ipv6Addr) : Msg :=
  msg.addRr countOffset owner typeAaaa ttlRr ip.octets

def addTxt (msg : Msg) (txt : Str) : Outcome Msg := do
  let len := min txt.bytes.length 255
  let rdata := UInt8.ofNat len :: (← slice txt.bytes 0 len)
  pure (msg.addRr offsetAncount .question typeTxt ttlRr rdata)

def addDnskey (msg : Msg) (params : ZoneParams) : Msg :=
  match params.dnssec with
  | none => msg
  | some key => msg.addRr offsetAncount .question typeDnskey ttlSoa key.dnskeyRdata

def addCds (msg : Msg) (params : ZoneParams) : Msg :=
  match params.dnssec with
  | none => msg
  | some key => msg.addRr offsetAncount .question typeCds ttlSoa (key.dsRdata params.zone)

def addCdnskey (msg : Msg) (params : ZoneParams) : Msg :=
  match params.dnssec with
  | none => msg
  | some key => msg.addRr offsetAncount .question typeCdnskey ttlSoa key.dnskeyRdata

/-- The loop body of `add_in_bailiwick_glue`. -/
def addGlue (params : ZoneParams) (msg : Msg) (name : Str) : Outcome Msg := do
  if ← nameInBailiwick name params.zone then do
    let msg := msg.addA offsetArcount (.name name) params.glueIp
    match params.glueIp6 with
    | some ip6 => pure (msg.addAaaa offsetArcount (.name name) ip6)
    | none => pure msg
  else pure msg

def addInBailiwickGlue (msg : Msg) (params : ZoneParams) : Outcome Msg := params.nsNames.foldlM (addGlue params) msg

end Msg

def ownerEq : Owner → Owner → Bool
  | .question, .question => true
  | .name x, .name y => namesEq x y
  | _, _ => false

def writeRr (buf : Bytes) (owner : Owner) (typ : UInt16) (ttl : UInt32) (rdata : Bytes) : Bytes :=
  buf ++
    (match owner with
      | .question => [0xC0, 0x0C]
      | .name name => encodeDomainName name) ++
    be16 typ ++ be16 classIn ++ be32 ttl ++ be16 (UInt16.ofNat rdata.length) ++ rdata

/-- The body of the grouping loop: only the last group can take another record. -/
def pushGroup (groups : List (List Rr)) (rr : Rr) : Outcome (List (List Rr)) :=
  match groups.getLast? with
  | some last => do
    let head ← index last 0
    if ownerEq head.owner rr.owner && head.typ == rr.typ then pure (groups.dropLast ++ [last ++ [rr]])
    else pure (groups ++ [[rr]])
  | none => pure (groups ++ [[rr]])

def groupRrs (rrs : List Rr) : Outcome (List (List Rr)) := rrs.foldlM pushGroup []

/-- One pass of the emission loop, with the clock readings still to come. -/
def emitGroup (countOffset : ℕ) (query : Slice) (params : ZoneParams) (state : Bytes × Clock) (group : List Rr) :
    Outcome (Bytes × Clock) := do
  let (buf, clock) := state
  let head ← index group 0
  let rdatas := (group.map (·.rdata)).mergeSort
  let buf ← rdatas.foldlM
    (fun buf rdata => bumpCount (writeRr buf head.owner head.typ head.ttl rdata) countOffset) buf
  if head.typ ≠ typeRrsig then
    match params.dnssec.filter fun _ => params.doBit with
    | some key => do
      let ownerWire ← match head.owner with
        | .question => ownerCanonicalWire query true none
        | .name name => ownerCanonicalWire query false (some name)
      let rrsig ← key.signRrsig clock.head ownerWire head.typ head.ttl rdatas params.zone
      let buf ← bumpCount (writeRr buf head.owner typeRrsig head.ttl rrsig) countOffset
      pure (buf, clock.tail)
    | none => pure (buf, clock)
  else pure (buf, clock)

def emitSection (state : Bytes × Clock) (countOffset : ℕ) (rrs : List Rr) (query : Slice) (params : ZoneParams) :
    Outcome (Bytes × Clock) := do
  (← groupRrs rrs).foldlM (emitGroup countOffset query params) state

def Msg.finish (clock : Clock) (msg : Msg) (query : Slice) (params : ZoneParams) : Outcome Bytes := do
  let state ← emitSection (msg.buf, clock) offsetAncount msg.answers query params
  let state ← emitSection state offsetNscount msg.authority query params
  let (buf, _) ← emitSection state offsetArcount msg.additional query params
  maybeAppendOpt buf query params.sign

def errorResponse (query : Slice) (rcode : UInt8) : Outcome Bytes :=
  if query.len < 12 then pure []
  else do
    let id ← slice query.data 0 2
    let qdcount ← slice query.data 4 6
    let buf := id ++ responseFlags query false rcode ++ qdcount ++ [0, 0, 0, 0, 0, 0]
    let buf ← match ← questionSectionEnd query with
      | some stop => do pure (buf ++ (← slice query.data 12 stop))
      | none => pure buf
    maybeAppendOpt buf query false

def buildRefusedResponse (query : Slice) : Outcome Bytes := errorResponse query rcodeRefused

def buildNotimpResponse (query : Slice) : Outcome Bytes := errorResponse query rcodeNotimp

/-- RFC 2308: negative TTL is the SOA minimum; owner is the zone apex, not QNAME. -/
def nodata (clock : Clock) (query : Slice) (params : ZoneParams) (existingTypes : List UInt16) : Outcome Bytes := do
  match ← Msg.withQuestion query true rcodeNoerror with
  | none => pure []
  | some msg => do
    let msg := msg.addSoa offsetNscount (.name params.zone) params
    if params.sign then do
      match ← questionSectionEnd query with
      | none => msg.finish clock query params
      | some stop => do
        let qname ← slice query.data 12 (← usub stop 4)
        let rdata ← nsecRdata qname (nsecTypes existingTypes)
        (msg.addRr offsetNscount .question typeNsec params.minimum rdata).finish clock query params
    else msg.finish clock query params

def buildNodataResponse (clock : Clock) (query : Slice) (params : ZoneParams) (existingTypes : List UInt16) :
    Outcome Bytes := nodata clock query params existingTypes

def buildTxtResponse (clock : Clock) (query : Slice) (txtData : Str) (params : ZoneParams) : Outcome Bytes := do
  match ← Msg.withQuestion query true rcodeNoerror with
  | none => pure []
  | some msg => do (← msg.addTxt txtData).finish clock query params

def buildApexResponse (clock : Clock) (query : Slice) (qtype : UInt16) (params : ZoneParams) : Outcome Bytes := do
  match ← Msg.withQuestion query true rcodeNoerror with
  | none => pure []
  | some msg =>
    if qtype = typeSoa then do
      let msg := msg.addSoa offsetAncount .question params
      let msg := msg.addNsSet offsetNscount params
      (← msg.addInBailiwickGlue params).finish clock query params
    else if qtype = typeNs then do
      let msg := msg.addNsSet offsetAncount params
      (← msg.addInBailiwickGlue params).finish clock query params
    else if qtype = typeA then
      (msg.addA offsetAncount .question params.glueIp).finish clock query params
    else if qtype = typeAaaa then
      match params.glueIp6 with
      | none => nodata clock query params params.apexTypes
      | some ip6 => (msg.addAaaa offsetAncount .question ip6).finish clock query params
    else if qtype = typeTxt then
      match params.spf with
      | none => nodata clock query params params.apexTypes
      | some spf => do (← msg.addTxt spf).finish clock query params
    else if qtype = typeDnskey then
      if params.dnssec.isNone then nodata clock query params params.apexTypes
      else (msg.addDnskey params).finish clock query params
    else if qtype = typeCds then
      if params.dnssec.isNone then nodata clock query params params.apexTypes
      else (msg.addCds params).finish clock query params
    else if qtype = typeCdnskey then
      if params.dnssec.isNone then nodata clock query params params.apexTypes
      else (msg.addCdnskey params).finish clock query params
    else if qtype = typeNsec then
      if params.dnssec.isNone then nodata clock query params params.apexTypes
      else do
        match ← questionSectionEnd query with
        | none => pure []
        | some stop => do
          let qname ← slice query.data 12 (← usub stop 4)
          let rdata ← nsecRdata qname (nsecTypes params.apexTypes)
          (msg.addRr offsetAncount .question typeNsec params.minimum rdata).finish clock query params
    else if qtype = typeAny then do
      let msg := msg.addSoa offsetAncount .question params
      let msg := msg.addNsSet offsetAncount params
      let msg := msg.addA offsetAncount .question params.glueIp
      let msg := match params.glueIp6 with
        | some ip6 => msg.addAaaa offsetAncount .question ip6
        | none => msg
      let msg ← match params.spf with
        | some spf => msg.addTxt spf
        | none => pure msg
      let msg := if params.dnssec.isSome then ((msg.addDnskey params).addCds params).addCdnskey params else msg
      (← msg.addInBailiwickGlue params).finish clock query params
    else nodata clock query params params.apexTypes

def addressTypes (ip : Option Ipv4Addr × Option Ipv6Addr) : List UInt16 :=
  (if ip.1.isSome then [typeA] else []) ++ (if ip.2.isSome then [typeAaaa] else [])

def buildAddressResponse (clock : Clock) (query : Slice) (qtype : UInt16) (ip : Option Ipv4Addr × Option Ipv6Addr)
    (params : ZoneParams) : Outcome Bytes := do
  let wantA := qtype == typeA || qtype == typeAny
  let wantAaaa := qtype == typeAaaa || qtype == typeAny
  let v4 := ip.1.filter fun _ => wantA
  let v6 := ip.2.filter fun _ => wantAaaa
  if v4.isNone && v6.isNone then nodata clock query params (addressTypes ip)
  else do
    match ← Msg.withQuestion query true rcodeNoerror with
    | none => pure []
    | some msg =>
      let msg := match v4 with
        | some ip => msg.addA offsetAncount .question ip
        | none => msg
      let msg := match v6 with
        | some ip => msg.addAaaa offsetAncount .question ip
        | none => msg
      msg.finish clock query params

end RustyAlias
