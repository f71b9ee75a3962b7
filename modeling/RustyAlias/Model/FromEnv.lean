import RustyAlias.Model.Config
import RustyAlias.Model.Environment
import RustyAlias.Model.PrivateKey
import RustyAlias.Rust.Numbers

/-! # Reading the environment

`Config::from_env` and `DnssecKey::from_env`. The environment gives the values of `std::env::var`,
without its error. What `expect` says when it stops `main` is the error of the result; the panics
that the language itself knows are those of `Outcome`.
-/

namespace RustyAlias

open Rust

/-- A text that a variable can hold: it fits in memory, and no NUL octet ends it early. -/
structure IsValue (text : Str) : Prop where
  inMemory : text.len ≤ isizeMax
  noNul : 0 ∉ text.bytes

instance (text : Str) : Decidable (IsValue text) :=
  decidable_of_iff (text.len ≤ isizeMax ∧ 0 ∉ text.bytes) ⟨fun ⟨fits, free⟩ => ⟨fits, free⟩, fun value => ⟨value.1, value.2⟩⟩

/-- The variables with a Unicode value. -/
structure Environment where
  var : String → Option Str
  isValue : ∀ {name text}, var name = some text → IsValue text

namespace Environment

/-- `env::var(name).unwrap_or_else(|_| default)`. -/
def varOr (env : Environment) (name default : String) : Str := (env.var name).getD (.ofString default)

/-- `parse().expect(message)` behind it. -/
def parsed {β : Type} (env : Environment) (parse : Str → Option β) (name default message : String) : Except Str β :=
  match parse (env.varOr name default) with
  | some value => .ok value
  | none => .error (.ofString message)

/-- The arm for `GLUE_IP6`. -/
def glueIp6 (env : Environment) : Except Str (Option Ipv6Addr) :=
  match env.var "GLUE_IP6" with
  | some s =>
    if s.trim.isEmpty then .ok none
    else match Ipv6Addr.fromStr s with
      | some ip => .ok (some ip)
      | none => .error (.ofString "Invalid GLUE_IP6")
  | none => .ok none

def soaName (env : Environment) : Str := env.varOr "SOA_NAME" "ns.example.com"
def nsNames (env : Environment) : List Str := parseNsNames (env.var "NS_NAMES") env.soaName
def glueName (env : Environment) : Str := env.varOr "GLUE_NAME" "ns.example.com"
def hostmaster (env : Environment) : Str := env.varOr "HOSTMASTER" "hostmaster.example.com"

theorem varOr_isValue (env : Environment) (name : String) {default : String} (value : IsValue (.ofString default)) :
    IsValue (env.varOr name default) := by
  unfold varOr
  cases given : env.var name with
  | none => exact value
  | some text => exact env.isValue given

theorem soaName_isValue (env : Environment) : IsValue env.soaName := env.varOr_isValue "SOA_NAME" (by decide +kernel)
theorem glueName_isValue (env : Environment) : IsValue env.glueName := env.varOr_isValue "GLUE_NAME" (by decide +kernel)
theorem hostmaster_isValue (env : Environment) : IsValue env.hostmaster := env.varOr_isValue "HOSTMASTER" (by decide +kernel)

theorem nsNames_inMemory (env : Environment) : ∀ name ∈ env.nsNames, name.len ≤ isizeMax := by
  have raw : ((env.var "NS_NAMES").getD .empty).len ≤ isizeMax := by
    cases given : env.var "NS_NAMES" with
    | none => exact Nat.zero_le _
    | some text => exact (env.isValue given).inMemory
  intro name member
  unfold nsNames parseNsNames at member
  dsimp only at member
  split at member
  · rw [List.mem_singleton.mp member]
    exact env.soaName_isValue.inMemory
  · obtain ⟨inside, _⟩ := List.mem_filter.mp member
    obtain ⟨piece, there, rfl⟩ := List.mem_map.mp inside
    exact (Str.trim_sublist piece).length_le.trans ((Str.len_of_mem_split comma there).trans raw)

theorem hosts_inMemory (env : Environment) :
    ∀ name ∈ env.glueName :: env.soaName :: env.hostmaster :: env.nsNames, name.len ≤ isizeMax := by
  intro name member
  simp only [List.mem_cons] at member
  rcases member with rfl | rfl | rfl | member
  · exact env.glueName_isValue.inMemory
  · exact env.soaName_isValue.inMemory
  · exact env.hostmaster_isValue.inMemory
  · exact env.nsNames_inMemory name member

end Environment

/-- `DnssecKey::from_env`. -/
def DnssecKey.fromEnv (p256 : P256) (env : Environment) : Outcome (Except Str (Option DnssecKey)) :=
  match env.var "DNSSEC_PRIVATE_KEY" with
  | none => pure (.ok none)
  | some raw =>
    if raw.trim.isEmpty then pure (.ok none)
    else do
      match ← DnssecKey.fromPrivateKeyStr p256 raw with
      | .ok key => pure (.ok (some key))
      | .error _ =>
        pure (.error (.ofString "Invalid DNSSEC_PRIVATE_KEY: expected PKCS#8 PEM, SEC1 PEM, or 64-char hex"))

/-- `CARGO_PKG_VERSION`. -/
def cargoPkgVersion : Str := .ofString "1.8.1"

namespace Config

/-- The fields in front of the key, in the order of the source. -/
def keyless (env : Environment) : Except Str (Option DnssecKey → Config) := do
  let glueIp ← env.parsed Ipv4Addr.fromStr "GLUE_IP" "127.0.0.1" "Invalid GLUE_IP"
  let glueIp6 ← env.glueIp6
  let serial ← env.parsed parseU32 "SERIAL" "1" "Invalid SERIAL"
  let refresh ← env.parsed parseU32 "REFRESH" "3600" "Invalid REFRESH"
  let retry ← env.parsed parseU32 "RETRY" "1800" "Invalid RETRY"
  let expire ← env.parsed parseU32 "EXPIRE" "604800" "Invalid EXPIRE"
  let minimum ← env.parsed parseU32 "MINIMUM" "3600" "Invalid MINIMUM"
  let rateLimitSeconds ← env.parsed parseU64 "RATE_LIMIT_SECONDS" "0" "Invalid RATE_LIMIT_SECONDS"
  let rateLimitRequests ← env.parsed parseU32 "RATE_LIMIT_REQUESTS" "0" "Invalid RATE_LIMIT_REQUESTS"
  return fun dnssec =>
    { glueName := env.glueName
      glueIp := glueIp
      glueIp6 := glueIp6
      soaName := env.soaName
      nsNames := env.nsNames
      hostmaster := env.hostmaster
      serial := serial
      refresh := refresh
      retry := retry
      expire := expire
      minimum := minimum
      spf := env.varOr "SPF" "v=spf1 -all"
      dmarc := env.varOr "DMARC" "v=DMARC1; p=reject;"
      version := cargoPkgVersion
      rateLimitSeconds := rateLimitSeconds
      rateLimitRequests := rateLimitRequests
      dnssec := dnssec
      inMemory := env.hosts_inMemory }

def fromEnv (p256 : P256) (env : Environment) : Outcome (Except Str Config) :=
  match keyless env with
  | .error message => pure (.error message)
  | .ok withKey => do
    match ← DnssecKey.fromEnv p256 env with
    | .error message => pure (.error message)
    | .ok dnssec => pure (.ok (withKey dnssec))

end Config

end RustyAlias
