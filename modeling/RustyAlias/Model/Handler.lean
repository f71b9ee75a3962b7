import RustyAlias.Model.IpParser
import RustyAlias.Model.Response

/-! # The query handler

`query.rs`: the dispatch from a query to a response, and the UDP wrapper that sends it. Logging is
left out, and so is the `io::Result` around a response, which is never an error.
-/

namespace RustyAlias

open Rust

def zoneParams (config : Config) (doBit : Bool) : ZoneParams where
  zone := config.glueName
  nsName := config.soaName
  nsNames := config.nsNames
  glueIp := config.glueIp
  glueIp6 := config.glueIp6
  hostmaster := config.hostmaster
  serial := config.serial
  refresh := config.refresh
  retry := config.retry
  expire := config.expire
  minimum := config.minimum
  spf := if config.spf.isEmpty then none else some config.spf
  dnssec := config.dnssec
  doBit := doBit
  inMemory := config.inMemory

def handleQueryInternal (clock : Clock) (query : Slice) (config : Config) : Outcome Bytes :=
  if opcode query ≠ 0 then buildNotimpResponse query
  else do
    match ← parseQuery query with
    | none => pure []
    | some domain =>
      match ← parseQtypeQclass query with
      | none => pure []
      | some (qtype, qclass) =>
        if qclass ≠ 1 then buildRefusedResponse query
        else do
          if !(← isInZone domain config.glueName) && !isVersionQuery domain then buildRefusedResponse query
          else do
            let params := zoneParams config (← queryDnssecOk query)
            if isVersionQuery domain then
              if qtype = typeTxt ∨ qtype = typeAny then
                buildTxtResponse clock query (.ofString "RustyAlias v" ++ config.version) params
              else do
                if ← isInZone domain config.glueName then buildNodataResponse clock query params [typeTxt]
                else buildRefusedResponse query
            else if !config.dmarc.isEmpty && namesEq domain (dmarcOwner config.glueName) then
              if qtype = typeTxt ∨ qtype = typeAny then buildTxtResponse clock query config.dmarc params
              else buildNodataResponse clock query params [typeTxt]
            else if namesEq domain config.glueName then buildApexResponse clock query qtype params
            else do
              if isConfiguredNs domain config && (← isInZone domain config.glueName) then
                buildAddressResponse clock query qtype (some config.glueIp, config.glueIp6) params
              else do
                match ← interpretIp domain with
                | some ip => buildAddressResponse clock query qtype ip params
                | none => buildNodataResponse clock query params []

/-- The datagram handed to `send_to`, if any. -/
def handleQuery (clock : Clock) (query : Slice) (config : Config) : Outcome (Option Bytes) := do
  let response ← handleQueryInternal clock query config
  if response.isEmpty then pure none
  else do
    pure (some (← maybeTruncateUdp response query))

end RustyAlias
