import RustyAlias.Rust.Str

/-! # Reading a query

What `response.rs` and `query.rs` read from the octets of a query. The question is read twice: once
by its first zero octet (`questionSectionEnd`, on which QTYPE, QCLASS, the echoed question and the
OPT record rest) and once by its length octets (`parseQuery`, on which the dispatch rests).
-/

namespace RustyAlias

open Rust

/-- `opcode` of `query.rs`. -/
def opcode (query : Slice) : UInt8 :=
  (query.data[2]?.map fun b : UInt8 => (b >>> 3) &&& 0x0f).getD 0

/-- QR=1, OPCODE copied, AA as requested, TC=0, RD copied, RA=0, RCODE as requested. -/
def responseFlags (query : Slice) (aa : Bool) (rcode : UInt8) : Bytes :=
  let q2 := query.data[2]?.getD 0
  let opcode := q2 &&& 0b01111000
  let rd := q2 &&& 0b00000001
  let aaBit := if aa then 0b00000100 else 0
  [0b10000000 ||| opcode ||| aaBit ||| rd, rcode &&& 0x0f]

def questionSectionEnd (query : Slice) : Outcome (Option ℕ) :=
  if query.len < 12 then pure none
  else do
    let tail ← sliceFrom query.data 12
    match tail.findIdx? (· == 0) with
    | none => pure none
    | some nullOffset => do
      let stop ← uadd (← uadd 12 nullOffset) 5
      pure (if stop ≤ query.len then some stop else none)

def parseQtypeQclass (query : Slice) : Outcome (Option (UInt16 × UInt16)) := do
  match ← questionSectionEnd query with
  | none => pure none
  | some stop => do
    let t0 ← index query.data (← usub stop 4)
    let t1 ← index query.data (← usub stop 3)
    let c0 ← index query.data (← usub stop 2)
    let c1 ← index query.data (← usub stop 1)
    pure (some (fromBe16 t0 t1, fromBe16 c0 c1))

/-- Client OPT RR at the start of Additional, if present: (udp_size, do_bit). -/
def parseQueryOpt (query : Slice) : Outcome (Option (ℕ × Bool)) :=
  if query.len < 12 then pure none
  else do
    let arcount := fromBe16 (← index query.data 10) (← index query.data 11)
    if arcount = 0 then pure none
    else do
      match ← questionSectionEnd query with
      | none => pure none
      | some stop => do
        let rest ← sliceFrom query.data stop
        if 11 ≤ rest.length then do
          if (← index rest 0) == 0 && (← index rest 1) == 0 && (← index rest 2) == 0x29 then do
            let size := fromBe16 (← index rest 3) (← index rest 4)
            let flags := fromBe16 (← index rest 7) (← index rest 8)
            pure (some (max size.toNat 512, flags &&& 0x8000 != 0))
          else pure none
        else pure none

/-- Client's advertised UDP payload size from OPT CLASS, if present. -/
def optUdpPayloadSize (query : Slice) : Outcome (Option ℕ) := do
  pure ((← parseQueryOpt query).map fun (size, _) => size)

def queryHasOpt (query : Slice) : Outcome Bool := do
  pure (← optUdpPayloadSize query).isSome

/-- True when the query OPT has the DNSSEC OK (DO) bit set. -/
def queryDnssecOk (query : Slice) : Outcome Bool := do
  pure ((← parseQueryOpt query).any fun (_, doBit) => doBit)

def defaultUdpSize : ℕ := 512
def ednsUdpSize : UInt16 := 1232

/-- Maximum UDP response size for this query (512 without EDNS). -/
def udpResponseLimit (query : Slice) : Outcome ℕ := do
  pure (min ((← optUdpPayloadSize query).getD defaultUdpSize) ednsUdpSize.toNat)

/-- The `while` loop of `parse_query`: the offset at which it stops and the name read so far. -/
def parseQueryLoop (query : Slice) (pos : ℕ) (domain : Str) : Outcome (Option (ℕ × Str)) :=
  if _inside : pos < query.len then do
    let len ← index query.data pos
    if len = 0 then pure (some (pos, domain))
    else do
      let _ ← uadd pos 1
      let _ ← uadd (pos + 1) len.toNat
      if query.len < pos + 1 + len.toNat then pure none
      else do
        let domain := if domain.isEmpty then domain else domain ++ .ofAscii dot
        match Str.fromUtf8 (← slice query.data (pos + 1) (pos + 1 + len.toNat)) with
        | none => pure none
        | some label => parseQueryLoop query (pos + 1 + len.toNat) (domain ++ label)
  else pure (some (pos, domain))
termination_by query.len - pos

def parseQuery (query : Slice) : Outcome (Option Str) :=
  if query.len < 12 then pure none
  else do
    let qdcount := fromBe16 (← index query.data 4) (← index query.data 5)
    if qdcount ≠ 1 then pure none
    else do
      match ← parseQueryLoop query 12 .empty with
      | none => pure none
      | some (_, domain) => pure (if domain.isEmpty then none else some domain)

end RustyAlias
