import RustyAlias.Proofs.ResponseSize
import RustyAlias.Proofs.Served
import RustyAlias.Soundness.WellFormed

/-! # Room for the records of a response

What the zone has for a question tells the octets that its records take: a text, addresses, a record about the
key, the apex with its nameservers, or a denial, whose NSEC record holds the name of the question again.
-/

namespace RustyAlias

open Rust Rust.Outcome Dns

section Lengths

variable (params : ZoneParams)

/-- The octets of an RRset with its signature, from those of the owner and of each RDATA. -/
def setRoom (owner : ℕ) (rdatas : List ℕ) : ℕ :=
  if rdatas = [] then 0
  else (rdatas.map (owner + 10 + ·)).sum + if params.sign then owner + 92 + (encodeDomainName params.zone).length else 0

/-- The octets of SOA RDATA. -/
def soaRoom : ℕ := (encodeDomainName params.nsName).length + (encodeDomainName params.hostmaster).length + 20

/-- A denial: an SOA record of the zone, and with the DO bit and a key an NSEC record. -/
def denialRoom (nsec : ℕ) : ℕ :=
  setRoom params (encodeDomainName params.zone).length [soaRoom params] + if params.sign then setRoom params 2 [nsec] else 0

/-- The A records of nameservers in a row that are one up to case. -/
def hostRoom : List Str → ℕ
  | [] => 0
  | name :: others => setRoom params (encodeDomainName name).length ((name :: others).map fun _ => 4)

/-- The addresses of the nameservers inside the zone. -/
def glueRoom : ℕ :=
  let hosts := params.nsNames.filter fun name => Below (trimmed name) (trimmed params.zone)
  if params.glueIp6.isSome then
    (hosts.map fun name => setRoom params (encodeDomainName name).length [4] + setRoom params (encodeDomainName name).length [16]).sum
  else ((hosts.runs fun name => lowerAll (trimmed name)).map (hostRoom params)).sum

/-- The records of the apex with the addresses of its nameservers. -/
def apexRoom (qtype : UInt16) : ℕ :=
  let soa := setRoom params 2 [soaRoom params]
  let ns := setRoom params 2 (params.nsNames.map fun name => (encodeDomainName name).length)
  let v6 := if params.glueIp6.isSome then setRoom params 2 [16] else 0
  let spf := (params.spf.map fun txt => setRoom params 2 [min txt.len 255 + 1]).getD 0
  let key := if params.dnssec.isSome then setRoom params 2 [68] + setRoom params 2 [36] + setRoom params 2 [68] else 0
  if qtype = typeSoa then soa + ns + glueRoom params
  else if qtype = typeNs then ns + glueRoom params
  else soa + ns + setRoom params 2 [4] + v6 + spf + key + glueRoom params

/-- The NSEC record for a name of so many octets. The apex, which has an SOA record, lists more types. -/
def nsecRoom (config : Config) (domain : Str) (name : ℕ) : ℕ :=
  name + if typeSoa ∈ servedTypes config params domain then 12 else 10

/-- The records that answer a question about a name of so many octets. -/
def recordRoom (config : Config) (domain : Str) (qtype : UInt16) (name : ℕ) : ℕ :=
  match served config domain qtype classIn with
  | .refused => 0
  | .nothing => denialRoom params (nsecRoom params config domain name)
  | .text octets => setRoom params 2 [octets.length + 1]
  | .addresses v4 v6 => (if v4.isSome then setRoom params 2 [4] else 0) + if v6.isSome then setRoom params 2 [16] else 0
  | .apex =>
    if Glued qtype then apexRoom params qtype
    else setRoom params 2 [if qtype = typeNsec then nsecRoom params config domain name else if qtype = typeCds then 36 else 68]

end Lengths

section Sets

variable {params : ZoneParams} {qname : Bytes} {types : List UInt16}

private theorem sectionSize_nil : sectionSize params [] = 0 := rfl

private theorem sectionSize_append {a b : List Rr} (apart : ∀ x ∈ a.getLast?, ∀ y ∈ b.head?, x.typ ≠ y.typ) :
    sectionSize params (a ++ b) = sectionSize params a + sectionSize params b := by
  have cut : rrsets (a ++ b) = rrsets a ++ rrsets b :=
    List.runs_append fun x last y first same => apart x last y first (congrArg Prod.snd same)
  rw [sectionSize, cut, List.map_append, List.sum_append]
  rfl

/-- An RRset is written with the owner of its first record. -/
private theorem setSize_cons (head : Rr) (rest : List Rr) (plain : head.typ ≠ typeRrsig) : setSize params (head :: rest) =
    setRoom params (ownerSize head.owner) ((head :: rest).map (·.rdata.length)) := by
  have key : (params.signer head.typ).isSome = params.sign := by
    rw [ZoneParams.signer, if_neg plain, ZoneParams.sign]
    cases params.dnssec <;> cases params.doBit <;> rfl
  have some : (head :: rest).map (·.rdata.length) ≠ [] := List.cons_ne_nil _ _
  rw [setSize, key, setRoom, if_neg some, List.map_map]
  unfold signatureSize
  congr 1
  split <;> omega

/-- Records of one owner and one type. -/
private theorem set_size {set : List Rr} {owner : Owner} {typ : UInt16} (uniform : ∀ rr ∈ set, rr.owner = owner ∧ rr.typ = typ)
    (plain : typ ≠ typeRrsig) : sectionSize params set = setRoom params (ownerSize owner) (set.map (·.rdata.length)) := by
  cases set with
  | nil => rfl
  | cons head rest =>
    have cut : rrsets (head :: rest) = [head :: rest] :=
      List.runs_uniform_self (k := (ownerKey owner, typ)) (List.cons_ne_nil _ _) fun rr member => by
        obtain ⟨owner, typ⟩ := uniform rr member
        rw [Rr.setKey, owner, typ]
    obtain ⟨sameOwner, sameTyp⟩ := uniform head (List.mem_cons_self ..)
    rw [sectionSize, cut, List.map_singleton, List.sum_singleton, setSize_cons head rest (sameTyp ▸ plain), sameOwner]

private theorem one_size {rr : Rr} (plain : rr.typ ≠ typeRrsig) :
    sectionSize params [rr] = setRoom params (ownerSize rr.owner) [rr.rdata.length] :=
  set_size (by simp) plain

private theorem answer_size {rr : Rr} (owner : rr.owner = .question) (plain : rr.typ ≠ typeRrsig) :
    Queues.size params ⟨[rr], [], []⟩ = setRoom params 2 [rr.rdata.length] := by
  rw [Queues.size, one_size plain, owner]
  rfl

/-- Types that are listed once are RRsets of their own. -/
private theorem sets_size {sets : List (UInt16 × List Rr)} (sorted : SortedSets sets) (plain : typeRrsig ∉ sets.map Prod.fst) :
    sectionSize params (sets.flatMap Prod.snd) =
      (sets.map fun set => setRoom params 2 (set.2.map (·.rdata.length))).sum := by
  induction sets with
  | nil => rfl
  | cons set rest ih =>
    have distinct := List.nodup_cons.mp sorted.distinct
    rw [List.map_cons, List.mem_cons, not_or] at plain
    have rest' : SortedSets rest := ⟨distinct.2, fun set member => sorted.owned set (List.mem_cons_of_mem _ member)⟩
    have first := sorted.owned set (List.mem_cons_self ..)
    rw [List.flatMap_cons, List.map_cons, List.sum_cons, sectionSize_append, set_size first (Ne.symm plain.1), ih rest' plain.2]
    · rfl
    · intro x last y head same
      have inside := (rest'.mem (List.mem_of_mem_head? head)).2
      rw [← same, (first x (List.mem_of_mem_getLast? last)).2] at inside
      exact distinct.1 inside

private theorem families_size (v4 : Option Ipv4Addr) (v6 : Option Ipv6Addr) : Queues.size params ⟨familyRrs v4 v6, [], []⟩ =
    (if v4.isSome then setRoom params 2 [4] else 0) + if v6.isSome then setRoom params 2 [16] else 0 := by
  have a (ip : Ipv4Addr) : sectionSize params [aRr .question ip] = setRoom params 2 [4] :=
    one_size (show typeA ≠ typeRrsig by decide)
  have aaaa (ip : Ipv6Addr) : sectionSize params [aaaaRr .question ip] = setRoom params 2 [16] := by
    rw [one_size (show typeAaaa ≠ typeRrsig by decide)]
    simp [aaaaRr, ownerSize]
  have both (ip : Ipv4Addr) (ip' : Ipv6Addr) : sectionSize params [aRr .question ip, aaaaRr .question ip'] =
      setRoom params 2 [4] + setRoom params 2 [16] := by
    rw [← a ip, ← aaaa ip', ← sectionSize_append (by simp [aRr, aaaaRr, typeA, typeAaaa]), List.singleton_append]
  cases v4 <;> cases v6 <;> simp [familyRrs, Queues.size, sectionSize_nil, a, aaaa, both]

private theorem soaRr_rdata_length (owner : Owner) : (soaRr params owner).rdata.length = soaRoom params := by
  simp [soaRr, soaRoom, Nat.add_assoc]

private theorem denial_size {n : ℕ} (nsec : params.sign = true → (nsecRr params qname types).rdata.length = n) :
    (nodataQueues params qname types).size params = denialRoom params n := by
  have soa : sectionSize params [soaRr params (.name params.zone)] =
      setRoom params (encodeDomainName params.zone).length [soaRoom params] := by
    rw [one_size (show typeSoa ≠ typeRrsig by decide), soaRr_rdata_length]
    rfl
  have proof (sign : params.sign = true) : sectionSize params [nsecRr params qname types] = setRoom params 2 [n] := by
    rw [one_size (show typeNsec ≠ typeRrsig by decide), nsec sign]
    rfl
  have both (sign : params.sign = true) : sectionSize params [soaRr params (.name params.zone), nsecRr params qname types] =
      setRoom params (encodeDomainName params.zone).length [soaRoom params] + setRoom params 2 [n] := by
    rw [← soa, ← proof sign, ← sectionSize_append (by simp [soaRr, nsecRr, typeSoa, typeNsec]), List.singleton_append]
  unfold nodataQueues denialRoom Queues.size
  cases sign : params.sign with
  | false => simp [sectionSize_nil, soa]
  | true => simp [sectionSize_nil, both sign]

private theorem host_size (run : List Str) :
    setSize params (run.map fun name => aRr (.name name) params.glueIp) = hostRoom params run := by
  cases run with
  | nil => rfl
  | cons name others =>
    rw [List.map_cons, setSize_cons _ _ (show typeA ≠ typeRrsig by decide), List.map_cons, List.map_map]
    rfl

private theorem pairs_size (ip : Ipv4Addr) (ip6 : Ipv6Addr) (hosts : List Str) :
    sectionSize params (hosts.flatMap fun name => [aRr (.name name) ip, aaaaRr (.name name) ip6]) =
      (hosts.map fun name => setRoom params (encodeDomainName name).length [4] +
        setRoom params (encodeDomainName name).length [16]).sum := by
  have a (name : Str) : sectionSize params [aRr (.name name) ip] = setRoom params (encodeDomainName name).length [4] :=
    one_size (show typeA ≠ typeRrsig by decide)
  have aaaa (name : Str) : sectionSize params [aaaaRr (.name name) ip6] = setRoom params (encodeDomainName name).length [16] := by
    rw [one_size (show typeAaaa ≠ typeRrsig by decide)]
    simp [aaaaRr, ownerSize]
  induction hosts with
  | nil => rfl
  | cons name rest ih =>
    rw [List.flatMap_cons, List.map_cons, List.sum_cons, sectionSize_append, ih, ← a name, ← aaaa name,
      ← sectionSize_append (by simp [aRr, aaaaRr, typeA, typeAaaa]), List.singleton_append]
    -- The next host begins with an A record.
    intro x last y head
    obtain rfl : aaaaRr (.name name) ip6 = x := by simpa using last
    cases rest with
    | nil => cases head
    | cons next rest =>
      obtain rfl : aRr (.name next) ip = y := by simpa using head
      exact show typeAaaa ≠ typeA by decide

private theorem glue_size : sectionSize params (glueRrs params) = glueRoom params := by
  have inside (names : List Str) : names.flatMap (glueOf params) =
      (names.filter fun name => Below (trimmed name) (trimmed params.zone)).flatMap fun name =>
        aRr (.name name) params.glueIp :: (params.glueIp6.map (aaaaRr (.name name))).toList := by
    induction names with
    | nil => rfl
    | cons name rest ih =>
      rw [List.flatMap_cons, ih, glueOf, List.filter_cons]
      split <;> simp_all
  rw [glueRrs, inside, glueRoom]
  generalize params.nsNames.filter _ = hosts
  cases v6 : params.glueIp6 with
  | some ip6 => exact pairs_size params.glueIp ip6 hosts
  | none =>
    have rows : (hosts.flatMap fun name => aRr (.name name) params.glueIp :: ((none : Option Ipv6Addr).map (aaaaRr (.name name))).toList) =
        hosts.map fun name => aRr (.name name) params.glueIp := List.flatMap_pure_eq_map ..
    have keys (a b : Str) : (aRr (.name a) params.glueIp).setKey = (aRr (.name b) params.glueIp).setKey ↔
        lowerAll (trimmed a) = lowerAll (trimmed b) := by
      simp [Rr.setKey, aRr, ownerKey]
    rw [rows, sectionSize, rrsets, List.runs_map, List.runs_congr keys, List.map_map]
    exact congrArg List.sum (List.map_congr_left fun run _ => host_size run)

/-- The records of the apex beside its nameservers. -/
private theorem apexQueues_size {qtype : UInt16} (lists : Glued qtype) :
    (apexQueues params qname qtype).size params = apexRoom params qtype := by
  have soa : sectionSize params [soaRr params .question] = setRoom params 2 [soaRoom params] := by
    rw [one_size (show typeSoa ≠ typeRrsig by decide), soaRr_rdata_length]
    rfl
  have ns : sectionSize params (nsRrs params) = setRoom params 2 (params.nsNames.map fun name => (encodeDomainName name).length) := by
    rw [set_size nsRrs_typ (by decide), nsRrs, List.map_map]
    rfl
  rcases lists with rfl | rfl | rfl
  · change sectionSize params [soaRr params .question] + sectionSize params (nsRrs params) + sectionSize params (glueRrs params) = _
    rw [soa, ns, glue_size]
    rfl
  · change sectionSize params (nsRrs params) + 0 + sectionSize params (glueRrs params) = _
    rw [ns, glue_size]
    rfl
  · have any : sectionSize params ((apexSets params).flatMap Prod.snd) =
        ((apexSets params).map fun set => setRoom params 2 (set.2.map (·.rdata.length))).sum :=
      sets_size apexSets_sorted
        (show typeRrsig ∉ [typeSoa, typeNs, typeA, typeAaaa, typeTxt, typeDnskey, typeCds, typeCdnskey] by decide)
    have nsOctets : (nsRrs params).map (·.rdata.length) = params.nsNames.map fun name => (encodeDomainName name).length := by
      rw [nsRrs, List.map_map]
      rfl
    change sectionSize params (apexQueues params qname typeAny).answers + 0 + sectionSize params (glueRrs params) = _
    rw [apexQueues_any, any, glue_size, apexRoom, if_neg (by decide), if_neg (by decide)]
    have txt (txt : Str) : (txtRr txt).rdata.length = min txt.len 255 + 1 := by
      simp [txtRr, Str.len, Nat.min_comm]
    have dnskey (key : DnssecKey) : (dnskeyRr key).rdata.length = 68 := key.rdata_length
    have cdnskey (key : DnssecKey) : (cdnskeyRr key).rdata.length = 68 := key.rdata_length
    have cds (key : DnssecKey) (zone : Str) : (cdsRr key zone).rdata.length = 36 := by simp [cdsRr, DnssecKey.dsRdata]
    have none : setRoom params 2 [] = 0 := rfl
    simp only [apexSets, List.map_cons, List.map_nil, List.sum_cons, List.sum_nil, soaRr_rdata_length, nsOctets]
    cases params.glueIp6 <;> cases params.spf <;> cases params.dnssec <;>
      simp [none, txt, dnskey, cdnskey, cds, aRr, aaaaRr] <;> omega

end Sets

section Bitmaps

variable {config : Config} {params : ZoneParams} {qname : Bytes} {domain : Str} {types : List UInt16}

private theorem nsecTypes_rising (rising : List UInt16) (rises : rising.Pairwise (· < ·))
    (same : ∀ t, t ∈ rising ↔ t ∈ types ∨ t = typeNsec ∨ t = typeRrsig) : (nsecTypes types).mergeSort.eraseReps = rising :=
  (sortedTypes_pairwise (nsecTypes types)).eq_of_mem_iff rises fun t => by
    rw [List.mem_eraseReps, List.mem_mergeSort, mem_nsecTypes, same]

/-- Addresses, texts, NSEC and RRSIG are types of the first six octets of the first window. -/
private theorem hostBitmap_length (host : types = [typeTxt] ∨ ∃ ip, types = addressTypes ip) :
    ∃ bitmap, typeBitmap (nsecTypes types) = .ok bitmap ∧ bitmap.length = 8 := by
  rcases host with rfl | ⟨⟨v4, v6⟩, rfl⟩
  · have listed := @nsecTypes_rising [typeTxt] [16, 46, 47] (by decide) fun t => by simp [typeTxt, typeNsec, typeRrsig]; tauto
    exact ⟨_, by rw [typeBitmap, listed]; rfl, rfl⟩
  have sorted (rising : List UInt16) (rises : rising.Pairwise (· < ·)) (same : ∀ t, t ∈ rising ↔
      (t = 1 ∧ v4.isSome = true ∨ t = 28 ∧ v6.isSome = true) ∨ t = 47 ∨ t = 46) :
      (nsecTypes (addressTypes (v4, v6))).mergeSort.eraseReps = rising :=
    nsecTypes_rising rising rises fun t => by
      rw [same]
      cases v4 <;> cases v6 <;> simp [addressTypes, typeA, typeAaaa, typeNsec, typeRrsig]
  cases v4 <;> cases v6
  · have listed := sorted [46, 47] (by decide) fun t => by simp; tauto
    exact ⟨_, by rw [typeBitmap, listed]; rfl, rfl⟩
  · have listed := sorted [28, 46, 47] (by decide) fun t => by simp; tauto
    exact ⟨_, by rw [typeBitmap, listed]; rfl, rfl⟩
  · have listed := sorted [1, 46, 47] (by decide) fun t => by simp; tauto
    exact ⟨_, by rw [typeBitmap, listed]; rfl, rfl⟩
  · have listed := sorted [1, 28, 46, 47] (by decide) fun t => by simp; tauto
    exact ⟨_, by rw [typeBitmap, listed]; rfl, rfl⟩

/-- The types of the key are in the eighth octet. -/
private theorem apexBitmap_length (keyed : params.dnssec.isSome = true) :
    ∃ bitmap, typeBitmap (nsecTypes params.apexTypes) = .ok bitmap ∧ bitmap.length = 10 := by
  have types (v6 spf : Bool) (rising : List UInt16) (first : params.glueIp6.isSome = v6) (second : params.spf.isSome = spf)
      (rises : rising.Pairwise (· < ·)) (same : ∀ t, t ∈ rising ↔ (t = 6 ∨ t = 2 ∨ t = 1 ∨ t = 28 ∧ v6 = true ∨
        t = 16 ∧ spf = true ∨ t = 48 ∨ t = 59 ∨ t = 60) ∨ t = 47 ∨ t = 46) :
      (nsecTypes params.apexTypes).mergeSort.eraseReps = rising :=
    nsecTypes_rising rising rises fun t => by
      rw [mem_apexTypes, first, second, keyed, same]
      simp [typeSoa, typeNs, typeA, typeAaaa, typeTxt, typeDnskey, typeCds, typeCdnskey, typeNsec, typeRrsig]
  cases v6 : params.glueIp6.isSome <;> cases spf : params.spf.isSome
  · have listed := types false false [1, 2, 6, 46, 47, 48, 59, 60] v6 spf (by decide) fun t => by simp; tauto
    exact ⟨_, by rw [typeBitmap, listed]; rfl, rfl⟩
  · have listed := types false true [1, 2, 6, 16, 46, 47, 48, 59, 60] v6 spf (by decide) fun t => by simp; tauto
    exact ⟨_, by rw [typeBitmap, listed]; rfl, rfl⟩
  · have listed := types true false [1, 2, 6, 28, 46, 47, 48, 59, 60] v6 spf (by decide) fun t => by simp; tauto
    exact ⟨_, by rw [typeBitmap, listed]; rfl, rfl⟩
  · have listed := types true true [1, 2, 6, 16, 28, 46, 47, 48, 59, 60] v6 spf (by decide) fun t => by simp; tauto
    exact ⟨_, by rw [typeBitmap, listed]; rfl, rfl⟩

/-- A name has the types of the apex, or a text or addresses only. -/
private theorem servedTypes_cases (config : Config) (params : ZoneParams) (domain : Str) :
    servedTypes config params domain = params.apexTypes ∨
      servedTypes config params domain = [typeTxt] ∨ ∃ ip, servedTypes config params domain = addressTypes ip := by
  unfold servedTypes
  split_ifs
  · exact .inr (.inl rfl)
  · exact .inr (.inl rfl)
  · exact .inl rfl
  · exact .inr (.inr ⟨_, rfl⟩)
  · cases addressOf (domain.split dot) with
    | none => exact .inr (.inr ⟨(none, none), rfl⟩)
    | some ip => exact .inr (.inr ⟨ip, rfl⟩)

private theorem nsecRr_rdata_length (keyed : params.dnssec.isSome = true) (small : qname.length ≤ isizeMax) :
    (nsecRr params qname (servedTypes config params domain)).rdata.length = nsecRoom params config domain qname.length := by
  have written {types : List UInt16} {n : ℕ}
      (listed : ∃ bitmap, typeBitmap (nsecTypes types) = .ok bitmap ∧ bitmap.length = n) :
      (nsecRr params qname types).rdata.length = qname.length + (n + 2) := by
    obtain ⟨bitmap, listed, length⟩ := listed
    obtain ⟨lower, lowered, same⟩ := lowercaseWireName_returns small
    simp only [nsecRr, nsecRdata, lowered, listed, ok_bind, pure_eq_ok, value_ok, List.length_append, List.length_cons,
      List.length_nil, same, length]
    omega
  unfold nsecRoom
  rcases servedTypes_cases config params domain with types | host
  · rw [types, if_pos (mem_apexTypes.mpr (.inl rfl)), written (apexBitmap_length keyed)]
  · have plain : typeSoa ∉ servedTypes config params domain := by
      rcases host with types | ⟨⟨v4, v6⟩, types⟩ <;> rw [types]
      · decide
      · cases v4 <;> cases v6 <;> simp [addressTypes, typeSoa, typeA, typeAaaa]
    rw [if_neg plain, written (hostBitmap_length host)]

end Bitmaps

section Room

variable {config : Config} {qname : Bytes} {domain : Str} {qtype : UInt16} {doBit : Bool}

/-- Records of the apex are those beside its nameservers and those about its key. -/
private theorem served_apex (apex : served config domain qtype classIn = .apex) :
    (∀ params, servedTypes config params domain = params.apexTypes) ∧ (Glued qtype ∨
      (qtype = typeDnskey ∨ qtype = typeCds ∨ qtype = typeCdnskey ∨ qtype = typeNsec) ∧ config.dnssec.isSome = true) := by
  have text (txt : Str) : servedText qtype txt ≠ .apex := by
    unfold servedText
    split <;> simp
  have addresses (ip : Option Ipv4Addr × Option Ipv6Addr) : servedAddresses qtype ip ≠ .apex := by
    unfold servedAddresses
    split <;> simp
  have here (apex : servedApex config qtype = .apex) : Glued qtype ∨
      (qtype = typeDnskey ∨ qtype = typeCds ∨ qtype = typeCdnskey ∨ qtype = typeNsec) ∧ config.dnssec.isSome = true := by
    unfold servedApex at apex
    split_ifs at apex with address txt spf listed key keyed
    · exact absurd apex (addresses _)
    · exact absurd apex (text _)
    · exact .inl listed
    · exact .inr ⟨key, keyed⟩
  unfold served at apex
  split_ifs at apex with internet version asked inside outside dmarc named host
  · exact absurd apex (text _)
  · exact absurd apex (text _)
  · refine ⟨fun params => ?_, here apex⟩
    rw [servedTypes, if_neg version, if_neg dmarc, if_pos named]
  · exact absurd apex (addresses _)
  · exact absurd apex (addresses _)

/-- A record about the key, which a zone with a key has. -/
private theorem keyed_size (keyed : config.dnssec.isSome = true)
    (asked : qtype = typeDnskey ∨ qtype = typeCds ∨ qtype = typeCdnskey ∨ qtype = typeNsec) :
    (apexQueues (zoneParams config doBit) qname qtype).size (zoneParams config doBit) =
      setRoom (zoneParams config doBit) 2 [if qtype = typeNsec then
          (nsecRr (zoneParams config doBit) qname (zoneParams config doBit).apexTypes).rdata.length
        else if qtype = typeCds then 36 else 68] := by
  obtain ⟨key, given⟩ := Option.isSome_iff_exists.mp keyed
  have one (record : DnssecKey → Rr) (owner : (record key).owner = .question) (plain : (record key).typ ≠ typeRrsig) :
      (apexOr (zoneParams config doBit) qname (((zoneParams config doBit).dnssec.map fun key => [record key]).getD [])).size
        (zoneParams config doBit) = setRoom (zoneParams config doBit) 2 [(record key).rdata.length] := by
    have records : ((zoneParams config doBit).dnssec.map fun key => [record key]).getD [] = [record key] := by
      change (config.dnssec.map fun key => [record key]).getD [] = _
      rw [given]
      rfl
    rw [records, apexOr, if_neg (List.cons_ne_nil _ _)]
    exact answer_size owner plain
  rcases asked with rfl | rfl | rfl | rfl
  · exact (one dnskeyRr rfl (show typeDnskey ≠ typeRrsig by decide)).trans (congrArg (setRoom _ 2 [·]) key.rdata_length)
  · refine (one (cdsRr · (zoneParams config doBit).zone) rfl (show typeCds ≠ typeRrsig by decide)).trans (congrArg (setRoom _ 2 [·]) ?_)
    simp [cdsRr, DnssecKey.dsRdata, typeCds, typeNsec]
  · exact (one cdnskeyRr rfl (show typeCdnskey ≠ typeRrsig by decide)).trans (congrArg (setRoom _ 2 [·]) key.rdata_length)
  · exact one (fun _ => nsecRr (zoneParams config doBit) qname (zoneParams config doBit).apexTypes) rfl
      (show typeNsec ≠ typeRrsig by decide)

/-- The records that answer a question take this room. -/
theorem replyTo_size (small : qname.length ≤ isizeMax) :
    (replyTo config (zoneParams config doBit) qname domain qtype classIn).queues.size (zoneParams config doBit) =
      recordRoom (zoneParams config doBit) config domain qtype qname.length := by
  rw [replyTo_served, recordRoom]
  cases answer : served config domain qtype classIn with
  | refused => rfl
  | nothing => exact denial_size fun sign => nsecRr_rdata_length (Bool.and_eq_true_iff.mp sign).1 small
  | text octets => exact answer_size rfl (show typeTxt ≠ typeRrsig by decide)
  | addresses v4 v6 => exact families_size v4 v6
  | apex =>
    obtain ⟨types, listed | ⟨asked, keyed⟩⟩ := served_apex answer
    · exact (apexQueues_size listed).trans (if_pos listed).symm
    · have nsec : (nsecRr (zoneParams config doBit) qname (servedTypes config (zoneParams config doBit) domain)).rdata.length =
          nsecRoom (zoneParams config doBit) config domain qname.length := nsecRr_rdata_length keyed small
      have unlisted : ¬ Glued qtype := by
        rcases asked with rfl | rfl | rfl | rfl <;> decide
      rw [types] at nsec
      dsimp only
      rw [if_neg unlisted, ← nsec]
      exact keyed_size keyed asked

end Room

section Bounds

variable {params : ZoneParams} {config : Config} {domain : Str} {qtype : UInt16}

private theorem setRoom_le {o n : ℕ} {rdatas : List ℕ} (zone : (encodeDomainName params.zone).length ≤ 255)
    (each : ∀ r ∈ rdatas, r ≤ n) : setRoom params o rdatas ≤ rdatas.length * (2 * o + n + 357) := by
  unfold setRoom
  split
  · exact Nat.zero_le _
  · next some =>
    have records : (rdatas.map (o + 10 + ·)).sum ≤ rdatas.length * (o + 10 + n) := by
      refine (List.sum_le_card_nsmul _ (o + 10 + n) fun size member => ?_).trans_eq (by simp)
      obtain ⟨r, inside, rfl⟩ := List.mem_map.mp member
      have bound := each r inside
      omega
    have signature : (if params.sign then o + 92 + (encodeDomainName params.zone).length else 0) ≤ o + 347 := by
      split <;> omega
    have one : o + 347 ≤ rdatas.length * (o + 347) := Nat.le_mul_of_pos_left _ (List.length_pos_iff.mpr some)
    have width : (o + 10 + n) + (o + 347) = 2 * o + n + 357 := by omega
    calc _ ≤ rdatas.length * (o + 10 + n) + rdatas.length * (o + 347) := Nat.add_le_add records (signature.trans one)
      _ = rdatas.length * (2 * o + n + 357) := by rw [← Nat.mul_add, width]

private theorem one_le {o r : ℕ} (zone : (encodeDomainName params.zone).length ≤ 255) : setRoom params o [r] ≤ 2 * o + r + 357 :=
  (setRoom_le zone (n := r) (by simp)).trans_eq (Nat.one_mul _)

section Hosts

variable (hosts : params.LegalHosts) (few : params.nsNames.length ≤ 20)
include hosts

private theorem rows_le {runs : List (List Str)} (listed : ∀ name ∈ runs.flatten, name ∈ params.nsNames) :
    (runs.map (hostRoom params)).sum ≤ runs.flatten.length * 871 := by
  have zone := (hosts params.zone (by simp)).encodeDomainName_length_le
  induction runs with
  | nil => exact Nat.zero_le _
  | cons run rest ih =>
    rw [List.flatten_cons] at listed
    have first : hostRoom params run ≤ run.length * 871 := by
      cases run with
      | nil => exact Nat.zero_le _
      | cons name others =>
        have known : name ∈ params.nsNames := listed name (by simp)
        have owner := (hosts name (by simp [known])).encodeDomainName_length_le
        have room : hostRoom params (name :: others) ≤ _ := setRoom_le (n := 4) zone (by simp)
        rw [List.length_map] at room
        exact room.trans (Nat.mul_le_mul_left _ (by omega))
    have behind := ih fun name member => listed name (List.mem_append_right _ member)
    rw [List.map_cons, List.sum_cons, List.flatten_cons, List.length_append, Nat.add_mul]
    exact Nat.add_le_add first behind

include few

private theorem glueRoom_le : glueRoom params ≤ 36000 := by
  have zone := (hosts params.zone (by simp)).encodeDomainName_length_le
  have inside : (params.nsNames.filter fun name => Below (trimmed name) (trimmed params.zone)).length ≤ 20 :=
    (List.length_filter_le ..).trans few
  have listed : ∀ name ∈ params.nsNames.filter fun name => Below (trimmed name) (trimmed params.zone), name ∈ params.nsNames :=
    fun name member => (List.mem_filter.mp member).1
  rw [glueRoom]
  generalize params.nsNames.filter _ = names at inside listed ⊢
  split
  · have each : ∀ size ∈ names.map fun name => setRoom params (encodeDomainName name).length [4] +
        setRoom params (encodeDomainName name).length [16], size ≤ 1760 := by
      intro size member
      obtain ⟨name, row, rfl⟩ := List.mem_map.mp member
      have known := listed name row
      have owner := (hosts name (by simp [known])).encodeDomainName_length_le
      have a := one_le (o := (encodeDomainName name).length) (r := 4) zone
      have aaaa := one_le (o := (encodeDomainName name).length) (r := 16) zone
      omega
    have total := List.sum_le_card_nsmul _ 1760 each
    rw [List.length_map, smul_eq_mul] at total
    omega
  · have rows : ∀ name ∈ (names.runs fun name => lowerAll (trimmed name)).flatten, name ∈ params.nsNames := by
      rwa [List.runs_flatten]
    have total := rows_le hosts rows
    rw [List.runs_flatten] at total
    omega

private theorem apexRoom_le : apexRoom params qtype ≤ 60000 := by
  have zone := (hosts params.zone (by simp)).encodeDomainName_length_le
  have primary := (hosts params.nsName (by simp)).encodeDomainName_length_le
  have hostmaster := (hosts params.hostmaster (by simp)).encodeDomainName_length_le
  have glue := glueRoom_le hosts few
  have one (r : ℕ) : setRoom params 2 [r] ≤ r + 361 := (one_le zone).trans (by omega)
  have soa := one (soaRoom params)
  have octets : soaRoom params ≤ 530 := by
    unfold soaRoom
    omega
  have ns : setRoom params 2 (params.nsNames.map fun name => (encodeDomainName name).length) ≤ 20 * 616 := by
    have each : ∀ r ∈ params.nsNames.map fun name => (encodeDomainName name).length, r ≤ 255 := by
      intro r member
      obtain ⟨name, known, rfl⟩ := List.mem_map.mp member
      exact (hosts name (by simp [known])).encodeDomainName_length_le
    have room := setRoom_le (o := 2) zone each
    rw [List.length_map] at room
    exact room.trans (Nat.mul_le_mul_right _ few)
  have a := one 4
  have aaaa := one 16
  have dnskey := one 68
  have cds := one 36
  have spf : (params.spf.map fun txt => setRoom params 2 [min txt.len 255 + 1]).getD 0 ≤ 617 := by
    cases params.spf with
    | none => exact Nat.zero_le _
    | some txt => exact (one _).trans (by omega)
  unfold apexRoom
  dsimp only
  split_ifs <;> omega

end Hosts

/-- There is room beside every short question. -/
theorem recordRoom_le (hosts : params.LegalHosts) (few : params.nsNames.length ≤ 20) {name : ℕ} (short : name ≤ 5600) :
    recordRoom params config domain qtype name ≤ 60000 := by
  have zone := (hosts params.zone (by simp)).encodeDomainName_length_le
  have primary := (hosts params.nsName (by simp)).encodeDomainName_length_le
  have hostmaster := (hosts params.hostmaster (by simp)).encodeDomainName_length_le
  have one (r : ℕ) : setRoom params 2 [r] ≤ r + 361 := (one_le zone).trans (by omega)
  have nsec : nsecRoom params config domain name ≤ 5700 := by
    unfold nsecRoom
    split <;> omega
  have told : (served config domain qtype classIn).Of config [] qtype := served_of domain classIn
  unfold recordRoom
  cases answer : served config domain qtype classIn with
  | refused => exact Nat.zero_le _
  | nothing =>
    have soa := one_le (o := (encodeDomainName params.zone).length) (r := soaRoom params) zone
    have proof := one (nsecRoom params config domain name)
    dsimp only [denialRoom]
    unfold soaRoom at soa ⊢
    split <;> omega
  | text octets =>
    rw [answer] at told
    exact (one _).trans (by have := told.1; omega)
  | addresses v4 v6 =>
    have a := one 4
    have aaaa := one 16
    dsimp only
    split_ifs <;> omega
  | apex =>
    dsimp only
    split
    · exact apexRoom_le hosts few
    · exact (one _).trans (by split_ifs <;> omega)

end Bounds

end RustyAlias
