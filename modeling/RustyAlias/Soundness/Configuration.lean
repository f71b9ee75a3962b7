import RustyAlias.Model.FromEnv
import RustyAlias.Proofs.PrivateKey
import RustyAlias.Soundness.Ipv6Labels
import RustyAlias.ToMathlib.SplitOn

/-! # The configurations that an environment can give

Every number and every address can be written in a variable, and any text. What is not free is the
list of nameservers: it is never empty, and its names are trimmed and hold no comma, unless the list
is the name of the primary one.
-/

namespace RustyAlias

open Rust Rust.Outcome

section Names

private theorem noNul_join {c : Ascii} (visible : c.1 ≠ 0) {parts : List Str} (each : ∀ part ∈ parts, 0 ∉ part.bytes) :
    0 ∉ (Str.join c parts).bytes := by
  intro zero
  rcases (Str.mem_intercalate c).mp zero with ⟨_, member, inside⟩ | ⟨separator, _⟩
  · obtain ⟨part, there, rfl⟩ := List.mem_map.mp member
    exact each part there inside
  · exact visible separator.symm

/-- A nameserver as it comes out of a list. -/
structure Listed (name : Str) : Prop where
  nonempty : name.isEmpty = false
  trimmed : name.trim = name
  free : comma.1 ∉ name.bytes

private theorem listed_of_mem {raw piece : Str} (member : piece ∈ raw.split comma) (nonempty : piece.trim.isEmpty = false) :
    Listed piece.trim where
  nonempty := nonempty
  trimmed := piece.trim_trim
  free inside := by
    have part : piece.bytes ∈ raw.bytes.splitOn comma.1 := by
      rw [← Str.split_bytes]
      exact List.mem_map_of_mem member
    exact List.notMem_of_mem_splitOn part (piece.trim_sublist.subset inside)

/-- A list that is written with commas is read back. -/
theorem parseNsNames_join {names : List Str} (some : names ≠ []) (listed : ∀ name ∈ names, Listed name) (soaName : Str) :
    parseNsNames (.some (Str.join comma names)) soaName = names := by
  have pieces : (Str.join comma names).split comma = names := by
    apply List.map_injective_iff.mpr fun s t same => Str.ext same
    rw [Str.split_bytes]
    apply List.splitOn_intercalate _ _ (by simpa using some)
    intro part member
    obtain ⟨name, inside, rfl⟩ := List.mem_map.mp member
    exact (listed name inside).free
  have trimmed : names.map Str.trim = names := by
    rw [List.map_congr_left fun name member => (listed name member).trimmed, List.map_id']
  have kept : names.filter (!·.isEmpty) = names := by
    apply List.filter_eq_self.mpr
    intro name member
    rw [(listed name member).nonempty]
    rfl
  rw [parseNsNames, Option.getD_some, pieces, trimmed, kept]
  cases names with
  | nil => contradiction
  | cons name rest => rfl

/-- Leaving names out and making others shorter makes no list longer. -/
theorem length_join_filter {pieces : List Str} (some : (pieces.map Str.trim).filter (!·.isEmpty) ≠ []) :
    (Str.join comma ((pieces.map Str.trim).filter (!·.isEmpty))).len ≤ (Str.join comma pieces).len := by
  have before := Str.length_intercalate comma (pieces.map Str.bytes)
  have behind := Str.length_intercalate comma (((pieces.map Str.trim).filter (!·.isEmpty)).map Str.bytes)
  have fewer : ((pieces.map Str.trim).filter (!·.isEmpty)).length ≤ pieces.length := by
    simpa using List.length_filter_le (!·.isEmpty) (pieces.map Str.trim)
  have sum : ((((pieces.map Str.trim).filter (!·.isEmpty)).map Str.bytes).map List.length).sum ≤
      ((pieces.map Str.bytes).map List.length).sum := by
    calc ((((pieces.map Str.trim).filter (!·.isEmpty)).map Str.bytes).map List.length).sum
        ≤ (((pieces.map Str.trim).map Str.bytes).map List.length).sum :=
          ((List.filter_sublist.map _).map _).sum_le_sum fun _ _ => Nat.zero_le _
      _ ≤ ((pieces.map Str.bytes).map List.length).sum := by
          simp only [List.map_map]
          exact List.sum_le_sum fun piece _ => piece.trim_sublist.length_le
  rw [if_neg (by simpa using some)] at behind
  rw [List.length_map] at before behind
  change ([comma.1].intercalate _).length ≤ ([comma.1].intercalate _).length
  split at before <;> omega

/-- What `parse_ns_names` gives. -/
theorem parseNsNames_cases {raw : Option Str} (values : ∀ text, raw = some text → IsValue text) (soaName : Str) :
    parseNsNames raw soaName = [soaName] ∨
      parseNsNames raw soaName ≠ [] ∧ (∀ name ∈ parseNsNames raw soaName, Listed name) ∧
        IsValue (Str.join comma (parseNsNames raw soaName)) := by
  have value : IsValue (raw.getD .empty) := by
    cases raw with
    | none => exact ⟨Nat.zero_le _, List.not_mem_nil⟩
    | some text => exact values text rfl
  have whole : Str.join comma ((raw.getD .empty).split comma) = raw.getD .empty := by
    apply Str.ext
    change [comma.1].intercalate (((raw.getD .empty).split comma).map Str.bytes) = _
    rw [Str.split_bytes, List.intercalate_splitOn]
  unfold parseNsNames
  dsimp only
  split
  · exact .inl rfl
  · next some =>
    have some : (((raw.getD .empty).split comma).map Str.trim).filter (!·.isEmpty) ≠ [] := fun none => some (by rw [none]; rfl)
    have short := length_join_filter some
    rw [whole] at short
    refine .inr ⟨some, fun name member => ?_, short.trans value.inMemory, ?_⟩
    · obtain ⟨inside, nonempty⟩ := List.mem_filter.mp member
      obtain ⟨piece, there, rfl⟩ := List.mem_map.mp inside
      exact listed_of_mem there (by simpa using nonempty)
    · apply noNul_join (by decide)
      intro name member zero
      obtain ⟨piece, there, rfl⟩ := List.mem_map.mp (List.mem_filter.mp member).1
      exact value.noNul (Str.mem_of_mem_split comma there (piece.trim_sublist.subset zero))

end Names

section Addresses

private theorem hexGroup_inRadix (v : UInt16) : Ipv6Addr.hexGroup (inRadix 16 v.toNat).bytes = some v := by
  have small := v.toNat_lt
  have short : (inRadix 16 v.toNat).bytes.length ≤ 4 := length_inRadix_le (by decide) (by decide) (by decide) (by omega)
  rw [Ipv6Addr.hexGroup, if_neg (not_or.mpr ⟨inRadix_ne_nil (by decide) (by decide) _, by omega⟩),
    digitsValue_inRadix (by decide) (by decide), Option.map_some, UInt16.ofNat_toNat]

/-- Eight groups between colons. -/
def ipv6Text (ip : Ipv6Addr) : Str := Str.join colon (ip.segments.map fun v => inRadix 16 v.toNat)

private theorem fromStr_ipv6Text (ip : Ipv6Addr) : Ipv6Addr.fromStr (ipv6Text ip) = some ip := by
  have values : ((ip.segments.map fun v => inRadix 16 v.toNat).map Str.bytes).mapM Ipv6Addr.hexGroup = some ip.segments := by
    induction ip.segments with
    | nil => rfl
    | cons v rest ih =>
      rw [List.map_cons, List.map_cons, List.mapM_cons, hexGroup_inRadix, ih]
      rfl
  rw [ipv6OfText_eq]
  exact ipv6OfText_textForm (.full _ values)

/-- A text with a character that is not whitespace is not blank. -/
theorem trim_nonempty {s : Str} {b : UInt8} (member : b ∈ s.bytes) (ascii : b.toNat < 0x80)
    (black : ∀ c : Char, c.toNat = b.toNat → isWhitespace c = false) : s.trim.isEmpty = false := by
  rw [← s.encode_chars] at member
  obtain ⟨c, inside, same⟩ := Utf8.mem_encode_ascii member ascii
  by_contra blank
  have empty : s.trim.bytes = [] := List.isEmpty_iff.mp (by simpa [Str.isEmpty] using blank)
  have white : s.trim.chars = [] := by
    rw [Str.chars, empty]
    rfl
  rw [Str.trim, Str.chars_ofChars, List.rdropWhile_eq_nil_iff] at white
  have all : isWhitespace c = true := by
    rw [← List.takeWhile_append_dropWhile (p := isWhitespace) (l := s.chars)] at inside
    rcases List.mem_append.mp inside with front | back
    · exact List.mem_takeWhile_imp front
    · exact white c back
  rw [black c same] at all
  cases all

private theorem ipv6Text_trim (ip : Ipv6Addr) : (ipv6Text ip).trim.isEmpty = false := by
  apply trim_nonempty (b := colon.1) _ (by decide) (fun c same => by simp [isWhitespace, same, colon])
  change colon.1 ∈ [colon.1].intercalate _
  obtain ⟨a, b, rest, shape⟩ : ∃ a b rest, ip.segments = a :: b :: rest := by
    have eight := ip.length_eq
    match shape : ip.segments with
    | a :: b :: rest => exact ⟨a, b, rest, rfl⟩
    | [a] => simp [shape] at eight
    | [] => simp [shape] at eight
  simp [shape, List.intercalate_cons_cons]

end Addresses

namespace Environment

private theorem parsed_eq_ok {β : Type} {env : Environment} {parse : Str → Option β} {name default message : String} {text : Str}
    {value : β} (given : env.var name = some text) (read : parse text = some value) :
    env.parsed parse name default message = .ok value := by
  rw [parsed, varOr, given, Option.getD_some, read]

end Environment

/-- The key of a configuration comes from a text that is accepted. -/
def FromText (p256 : P256) (dnssec : Option DnssecKey) : Prop :=
  dnssec = none ∨ ∃ raw key, dnssec = some key ∧ IsValue raw ∧ raw.trim.isEmpty = false ∧
    DnssecKey.fromPrivateKeyStr p256 raw = .ok (.ok key)

private theorem fromEnv_fromText {p256 : P256} {env : Environment} {dnssec : Option DnssecKey}
    (read : DnssecKey.fromEnv p256 env = .ok (.ok dnssec)) : FromText p256 dnssec := by
  unfold DnssecKey.fromEnv at read
  cases given : env.var "DNSSEC_PRIVATE_KEY" with
  | none =>
    rw [given] at read
    cases read
    exact .inl rfl
  | some raw =>
    rw [given] at read
    dsimp only at read
    split at read
    · cases read
      exact .inl rfl
    · next text =>
      obtain ⟨result, parsed, read⟩ := bind_eq_ok_iff.mp read
      cases result with
      | error message => cases read
      | ok key =>
        cases read
        exact .inr ⟨raw, key, rfl, env.isValue given, by simpa using text, parsed⟩

/-- What the fields of a configuration are to the environment, as far as they are free. -/
theorem keyless_eq_ok {env : Environment} {withKey : Option DnssecKey → Config} (read : Config.keyless env = .ok withKey)
    (dnssec : Option DnssecKey) : (withKey dnssec).glueName = env.glueName ∧ (withKey dnssec).nsNames = env.nsNames ∧
      (withKey dnssec).soaName = env.soaName ∧ (withKey dnssec).hostmaster = env.hostmaster ∧
      (withKey dnssec).version = cargoPkgVersion ∧ (withKey dnssec).spf = env.varOr "SPF" "v=spf1 -all" ∧
      (withKey dnssec).dmarc = env.varOr "DMARC" "v=DMARC1; p=reject;" ∧ (withKey dnssec).dnssec = dnssec := by
  unfold Config.keyless at read
  simp only [bind, Except.bind] at read
  repeat' (split at read; · cases read)
  cases read
  exact ⟨rfl, rfl, rfl, rfl, rfl, rfl, rfl, rfl⟩

/-- The variables for a configuration. -/
def entriesOf (config : Config) (nsNames key : Option Str) : List (String × Option Str) :=
  [("SOA_NAME", some config.soaName), ("NS_NAMES", nsNames), ("GLUE_NAME", some config.glueName),
    ("GLUE_IP", some config.glueIp.toStr), ("GLUE_IP6", config.glueIp6.map ipv6Text), ("HOSTMASTER", some config.hostmaster),
    ("SERIAL", some (decimal config.serial.toNat)), ("REFRESH", some (decimal config.refresh.toNat)),
    ("RETRY", some (decimal config.retry.toNat)), ("EXPIRE", some (decimal config.expire.toNat)),
    ("MINIMUM", some (decimal config.minimum.toNat)), ("SPF", some config.spf), ("DMARC", some config.dmarc),
    ("RATE_LIMIT_SECONDS", some (decimal config.rateLimitSeconds.toNat)),
    ("RATE_LIMIT_REQUESTS", some (decimal config.rateLimitRequests.toNat)), ("DNSSEC_PRIVATE_KEY", key)]

/-- The texts are values. -/
def AreValues (entries : List (String × Option Str)) : Prop := ∀ entry ∈ entries, ∀ text, entry.2 = some text → IsValue text

/-- The environment with these variables. -/
def Environment.ofEntries (entries : List (String × Option Str)) (values : AreValues entries) : Environment where
  var name := (entries.lookup name).join
  isValue {name text} given := by
    cases found : entries.lookup name with
    | none => simp [found] at given
    | some entry =>
      obtain ⟨front, back, same, _⟩ := List.lookup_eq_some_iff.mp found
      rw [found] at given
      exact values (name, entry) (by simp [same]) text given

section Values

private theorem noNul_inRadix {radix : ℕ} (two : 1 < radix) (sixteen : radix ≤ 16) (n : ℕ) : 0 ∉ (inRadix radix n).bytes := by
  intro zero
  have digit := inRadix_digits two sixteen zero
  have none : toDigit radix 0 = none := rfl
  rw [none] at digit
  cases digit

private theorem decimal_isValue {n : ℕ} (bound : n < 2 ^ 64) : IsValue (decimal n) where
  inMemory := by
    have short : (decimal n).bytes.length ≤ 20 :=
      length_inRadix_le (by decide) (by decide) (by decide) (bound.trans (by decide))
    unfold Str.len isizeMax
    omega
  noNul := noNul_inRadix (by decide) (by decide) n

private theorem len_join_le (c : Ascii) {parts : List Str} {bound : ℕ} (each : ∀ part ∈ parts, part.len ≤ bound) :
    (Str.join c parts).len ≤ parts.length * bound + parts.length := by
  have whole := Str.length_intercalate c (parts.map Str.bytes)
  have sum : ((parts.map Str.bytes).map List.length).sum ≤ parts.length * bound := by
    rw [List.map_map]
    simpa using List.sum_le_card_nsmul (parts.map (List.length ∘ Str.bytes)) bound (by simpa [Str.len] using each)
  rw [List.length_map] at whole
  change ([c.1].intercalate _).length ≤ _
  split at whole <;> omega

/-- The numbers of an address with separators between them. -/
theorem join_isValue {radix : ℕ} (two : 1 < radix) (sixteen : radix ≤ 16) {c : Ascii} (visible : c.1 ≠ 0) {numbers : List ℕ}
    (few : numbers.length ≤ 8) (small : ∀ n ∈ numbers, n < radix ^ 20) : IsValue (Str.join c (numbers.map (inRadix radix))) where
  inMemory := by
    have short : (Str.join c (numbers.map (inRadix radix))).len ≤
        (numbers.map (inRadix radix)).length * 20 + (numbers.map (inRadix radix)).length := by
      apply len_join_le
      intro part member
      obtain ⟨n, inside, rfl⟩ := List.mem_map.mp member
      exact length_inRadix_le two sixteen (by decide) (small n inside)
    rw [List.length_map] at short
    unfold isizeMax
    omega
  noNul := by
    apply noNul_join visible
    intro part member
    obtain ⟨n, _, rfl⟩ := List.mem_map.mp member
    exact noNul_inRadix two sixteen n

private theorem ipv4_isValue (ip : Ipv4Addr) : IsValue ip.toStr := by
  have small : ∀ n ∈ ip.octets.map UInt8.toNat, n < 10 ^ 20 := List.forall_mem_map.mpr fun v _ => v.toNat_lt.trans (by decide)
  have value : IsValue (Str.join dot ((ip.octets.map UInt8.toNat).map (inRadix 10))) :=
    join_isValue (by decide) (by decide) (by decide) (by simp) small
  rwa [List.map_map] at value

private theorem ipv6_isValue (ip : Ipv6Addr) : IsValue (ipv6Text ip) := by
  have small : ∀ n ∈ ip.segments.map UInt16.toNat, n < 16 ^ 20 := List.forall_mem_map.mpr fun v _ => v.toNat_lt.trans (by decide)
  have value : IsValue (Str.join colon ((ip.segments.map UInt16.toNat).map (inRadix 16))) :=
    join_isValue (by decide) (by decide) (by decide) (by simp [ip.length_eq]) small
  rwa [List.map_map] at value

end Values

variable {p256 : P256} {config : Config} {nsNames key : Option Str}

private theorem keyless_ofEntries (values : AreValues (entriesOf config nsNames key))
    (names : parseNsNames nsNames config.soaName = config.nsNames) (version : config.version = cargoPkgVersion) :
    ∃ withKey, Config.keyless (.ofEntries _ values) = .ok withKey ∧ withKey config.dnssec = config := by
  let env : Environment := .ofEntries _ values
  have glueIp : env.parsed Ipv4Addr.fromStr "GLUE_IP" "127.0.0.1" "Invalid GLUE_IP" = .ok config.glueIp :=
    Environment.parsed_eq_ok rfl (Ipv4Addr.fromStr_toStr _)
  have glueIp6 : env.glueIp6 = .ok config.glueIp6 := by
    have given : env.var "GLUE_IP6" = config.glueIp6.map ipv6Text := rfl
    unfold Environment.glueIp6
    rw [given]
    cases config.glueIp6 with
    | none => rfl
    | some ip =>
      rw [Option.map_some]
      dsimp only
      rw [if_neg (by rw [ipv6Text_trim]; decide), fromStr_ipv6Text]
  have serial : env.parsed parseU32 "SERIAL" "1" "Invalid SERIAL" = .ok config.serial :=
    Environment.parsed_eq_ok rfl (parseU32_decimal _)
  have refresh : env.parsed parseU32 "REFRESH" "3600" "Invalid REFRESH" = .ok config.refresh :=
    Environment.parsed_eq_ok rfl (parseU32_decimal _)
  have retry : env.parsed parseU32 "RETRY" "1800" "Invalid RETRY" = .ok config.retry :=
    Environment.parsed_eq_ok rfl (parseU32_decimal _)
  have expire : env.parsed parseU32 "EXPIRE" "604800" "Invalid EXPIRE" = .ok config.expire :=
    Environment.parsed_eq_ok rfl (parseU32_decimal _)
  have minimum : env.parsed parseU32 "MINIMUM" "3600" "Invalid MINIMUM" = .ok config.minimum :=
    Environment.parsed_eq_ok rfl (parseU32_decimal _)
  have seconds : env.parsed parseU64 "RATE_LIMIT_SECONDS" "0" "Invalid RATE_LIMIT_SECONDS" = .ok config.rateLimitSeconds :=
    Environment.parsed_eq_ok rfl (parseU64_decimal _)
  have requests : env.parsed parseU32 "RATE_LIMIT_REQUESTS" "0" "Invalid RATE_LIMIT_REQUESTS" = .ok config.rateLimitRequests :=
    Environment.parsed_eq_ok rfl (parseU32_decimal _)
  change ∃ withKey, Config.keyless env = .ok withKey ∧ withKey config.dnssec = config
  unfold Config.keyless
  rw [glueIp, glueIp6, serial, refresh, retry, expire, minimum, seconds, requests]
  refine ⟨_, rfl, ?_⟩
  obtain ⟨⟩ := config
  dsimp only at names version
  subst names version
  rfl

/-- The texts of a configuration. -/
def textsOf (config : Config) : List Str := [config.glueName, config.soaName, config.hostmaster, config.spf, config.dmarc]

/-- The texts for addresses and numbers are values. -/
theorem values_entriesOf (texts : ∀ text ∈ textsOf config, IsValue text) (names : ∀ text, nsNames = some text → IsValue text)
    (secret : ∀ text, key = some text → IsValue text) : AreValues (entriesOf config nsNames key) := by
  have number (n : UInt32) : IsValue (decimal n.toNat) := decimal_isValue (n.toNat_lt.trans (by decide))
  have seconds := decimal_isValue config.rateLimitSeconds.toNat_lt
  have text {t : Str} (member : t ∈ textsOf config) : IsValue t := texts t member
  unfold entriesOf AreValues
  simp only [List.forall_mem_cons, Option.some.injEq, forall_eq', Option.map_eq_some_iff]
  refine ⟨text (by simp [textsOf]), names, text (by simp [textsOf]), ipv4_isValue _, ?_, text (by simp [textsOf]), number _,
    number _, number _, number _, number _, text (by simp [textsOf]), text (by simp [textsOf]), seconds, number _, secret, by simp⟩
  rintro _ ⟨ip, _, rfl⟩
  exact ipv6_isValue ip

/-- The parts of a configuration that is read. -/
theorem fromEnv_eq_ok {env : Environment} (read : Config.fromEnv p256 env = .ok (.ok config)) :
    ∃ withKey, Config.keyless env = .ok withKey ∧ DnssecKey.fromEnv p256 env = .ok (.ok config.dnssec) ∧
      withKey config.dnssec = config := by
  unfold Config.fromEnv at read
  cases plain : Config.keyless env with
  | error message =>
    rw [plain] at read
    cases read
  | ok withKey =>
    rw [plain] at read
    obtain ⟨result, keyed, read⟩ := bind_eq_ok_iff.mp read
    cases result with
    | error message => cases read
    | ok dnssec =>
      cases read
      obtain ⟨_, _, _, _, _, _, _, same⟩ := keyless_eq_ok plain dnssec
      exact ⟨withKey, rfl, by rw [same]; exact keyed, by rw [same]⟩

/-- Which configurations can be read from an environment. -/
theorem exists_fromEnv_iff (p256 : P256) (config : Config) :
    (∃ env, Config.fromEnv p256 env = .ok (.ok config)) ↔
      config.version = cargoPkgVersion ∧ (∀ text ∈ textsOf config, IsValue text) ∧
        (config.nsNames = [config.soaName] ∨ config.nsNames ≠ [] ∧ (∀ name ∈ config.nsNames, Listed name) ∧
          IsValue (Str.join comma config.nsNames)) ∧ FromText p256 config.dnssec := by
  constructor
  · rintro ⟨env, read⟩
    obtain ⟨withKey, plain, keyed, whole⟩ := fromEnv_eq_ok read
    obtain ⟨glueName, nsNames, soaName, hostmaster, version, spf, dmarc, _⟩ := keyless_eq_ok plain config.dnssec
    rw [whole] at glueName nsNames soaName hostmaster version spf dmarc
    refine ⟨version, ?_, ?_, fromEnv_fromText keyed⟩
    · simp only [textsOf, glueName, soaName, hostmaster, spf, dmarc, List.forall_mem_cons]
      exact ⟨env.glueName_isValue, env.soaName_isValue, env.hostmaster_isValue, env.varOr_isValue "SPF" (by decide +kernel),
        env.varOr_isValue "DMARC" (by decide +kernel), by simp⟩
    · rw [nsNames, soaName]
      exact parseNsNames_cases (fun text given => env.isValue given) _
  · rintro ⟨version, texts, names, text⟩
    obtain ⟨nsNames, parsed, list⟩ : ∃ nsNames, parseNsNames nsNames config.soaName = config.nsNames ∧
        ∀ text, nsNames = some text → IsValue text := by
      rcases names with single | ⟨filled, listed, value⟩
      · exact ⟨none, by rw [single]; rfl, by simp⟩
      · exact ⟨some _, parseNsNames_join filled listed config.soaName, by simpa using value⟩
    obtain ⟨key, keyed, secret⟩ : ∃ key : Option Str, (∀ env : Environment, env.var "DNSSEC_PRIVATE_KEY" = key →
        DnssecKey.fromEnv p256 env = .ok (.ok config.dnssec)) ∧ ∀ text, key = some text → IsValue text := by
      rcases text with none | ⟨raw, key, found, value, nonblank, read⟩
      · refine ⟨.none, fun env given => ?_, by simp⟩
        rw [DnssecKey.fromEnv, given, none]
        rfl
      · refine ⟨some raw, fun env given => ?_, by simpa using value⟩
        rw [DnssecKey.fromEnv, given, found]
        dsimp only
        rw [if_neg (by simp [nonblank]), read]
        rfl
    have values := values_entriesOf texts list secret
    obtain ⟨withKey, plain, whole⟩ := keyless_ofEntries values parsed version
    refine ⟨.ofEntries _ values, ?_⟩
    rw [Config.fromEnv, plain]
    dsimp only
    rw [keyed (.ofEntries _ values) rfl, ok_bind]
    dsimp only
    rw [whole, pure_eq_ok]

/-- The message names a variable that is set. -/
def Blames (env : Environment) (message : Str) : Prop :=
  ∃ name more : String, (env.var name).isSome = true ∧ message = .ofString ("Invalid " ++ name ++ more)

section Startup

variable {env : Environment}

private theorem bind_blames {α β : Type} {x : Except Str α} {f : α → Except Str β}
    (first : ∀ message, x = .error message → Blames env message) (next : ∀ a message, f a = .error message → Blames env message) :
    ∀ message, x >>= f = .error message → Blames env message := by
  intro message failed
  cases x with
  | error text =>
    obtain rfl : text = message := Except.error.inj failed
    exact first text rfl
  | ok a => exact next a message failed

/-- A default passes its own check. -/
private theorem parsed_blames {β : Type} {parse : Str → Option β} {name default message : String}
    (fits : (parse (.ofString default)).isSome = true) (named : message = "Invalid " ++ name) :
    ∀ text, env.parsed parse name default message = .error text → Blames env text := by
  intro text failed
  unfold Environment.parsed Environment.varOr at failed
  cases given : env.var name with
  | none =>
    obtain ⟨value, read⟩ := Option.isSome_iff_exists.mp fits
    rw [given, Option.getD_none, read] at failed
    cases failed
  | some raw =>
    refine ⟨name, "", by simp [given], ?_⟩
    split at failed
    · cases failed
    · rw [← Except.error.inj failed, named, String.append_empty]

private theorem glueIp6_blames : ∀ text, env.glueIp6 = .error text → Blames env text := by
  intro text failed
  unfold Environment.glueIp6 at failed
  cases given : env.var "GLUE_IP6" with
  | none =>
    rw [given] at failed
    cases failed
  | some raw =>
    refine ⟨"GLUE_IP6", "", by simp [given], ?_⟩
    rw [given] at failed
    dsimp only at failed
    split at failed
    · cases failed
    · split at failed
      · cases failed
      · exact (Except.error.inj failed).symm

theorem keyless_blames : ∀ message, Config.keyless env = .error message → Blames env message := by
  unfold Config.keyless
  refine bind_blames (parsed_blames (by decide +kernel) rfl) fun _ => ?_
  refine bind_blames glueIp6_blames fun _ => ?_
  refine bind_blames (parsed_blames (by decide +kernel) rfl) fun _ => ?_
  refine bind_blames (parsed_blames (by decide +kernel) rfl) fun _ => ?_
  refine bind_blames (parsed_blames (by decide +kernel) rfl) fun _ => ?_
  refine bind_blames (parsed_blames (by decide +kernel) rfl) fun _ => ?_
  refine bind_blames (parsed_blames (by decide +kernel) rfl) fun _ => ?_
  refine bind_blames (parsed_blames (by decide +kernel) rfl) fun _ => ?_
  refine bind_blames (parsed_blames (by decide +kernel) rfl) fun _ => ?_
  intro message failed
  cases failed

/-- Whatever the environment, it gives a configuration, or a message that names a variable in it. -/
theorem fromEnv_ends (p256 : P256) (env : Environment) :
    (∃ config, Config.fromEnv p256 env = .ok (.ok config)) ∨
      ∃ message, Config.fromEnv p256 env = .ok (.error message) ∧ Blames env message := by
  unfold Config.fromEnv
  cases plain : Config.keyless env with
  | error message => exact .inr ⟨message, rfl, keyless_blames message plain⟩
  | ok withKey =>
    dsimp only
    unfold DnssecKey.fromEnv
    cases given : env.var "DNSSEC_PRIVATE_KEY" with
    | none => exact .inl ⟨_, rfl⟩
    | some raw =>
      dsimp only
      split
      · exact .inl ⟨_, rfl⟩
      · obtain ⟨result, read⟩ := fromPrivateKeyStr_returns p256 raw
        rw [read, ok_bind]
        cases result with
        | ok key => exact .inl ⟨_, rfl⟩
        | error text =>
          exact .inr ⟨_, rfl, "DNSSEC_PRIVATE_KEY", ": expected PKCS#8 PEM, SEC1 PEM, or 64-char hex", by simp [given], rfl⟩

end Startup

end RustyAlias
