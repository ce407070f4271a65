import Mathlib.Data.List.Dedup
import Reqx.Library.Checks
import Reqx.Core.Error
import Reqx.Core.Proxy

/-!
# DNS overrides

Names whose addresses the caller fixes. The builder keeps one list of addresses
for a normalized name, the client looks a name up in it, and the resolvers of the
two transports ask the system only for names that are not there.
-/

namespace Reqx.Dns

structure SocketAddr where
  ip : IpAddr
  port : ℕ
  deriving DecidableEq, Repr

def SocketAddr.setPort (address : SocketAddr) (port : ℕ) : SocketAddr := { address with port }

/-- `url::Host`, with the domain as `Host::parse` gives it: in ASCII. -/
inductive Host where
  | domain (ascii : Text)
  | address (ip : IpAddr)
  deriving DecidableEq, Repr

def maxAddresses : ℕ := 16

/-- The calls of `resolve_to_addrs` in their order. -/
abbrev Calls := List (Text × List SocketAddr)

section Overrides

variable (parseHost : Text → Option Host)

/-! ## Names -/

def reservedCharacters : Text := "/:?#@\\%*[]".toList

-- Lengths are in bytes. What passes has only one-byte characters.
def validLabel (label : Text) : Bool :=
  !label.isEmpty && label.length ≤ 63 && label.head? ≠ some '-' && label.getLast? ≠ some '-' &&
    label.all fun c ↦ c.isAlphanum || c = '-'

def normalizeDomain (domain : Text) : Option Text :=
  if domain.isEmpty || domain.any Text.isWhitespace ||
      domain.any fun c ↦ Text.contains c reservedCharacters then none
  else
    match parseHost domain with
    | some (.domain ascii) =>
      let normalized := Text.toAsciiLowercase ((ascii.dropSuffix? ".".toList).getD ascii)
      if normalized.isEmpty || 253 < normalized.length then none
      else if (Text.split '.' normalized).all validLabel then some normalized
      else none
    | _ => none

/-! ## The map -/

structure DnsOverridesBuilder where
  entries : Std.TreeMap Text (List SocketAddr) := ∅

structure DnsOverrides where
  entries : Std.TreeMap Text (List SocketAddr)

def pushUnique (unique : List SocketAddr) (address : SocketAddr) : List SocketAddr :=
  if address ∈ unique then unique else unique ++ [address]

def uniqueAddresses (addresses : List SocketAddr) : List SocketAddr :=
  addresses.foldl pushUnique []

namespace DnsOverridesBuilder

def insert (config : DnsOverridesBuilder) (domain : Text) (addresses : List SocketAddr) :
    Except Error DnsOverridesBuilder :=
  match normalizeDomain parseHost domain with
  | none =>
    .error (.invalidDnsOverrideConfig
      "override key must be a valid DNS hostname, not a URL or IP literal")
  | some domain =>
    if addresses.isEmpty || addresses.length > maxAddresses then
      .error (.invalidDnsOverrideConfig
        "each DNS override must contain between 1 and 16 addresses")
    else .ok ⟨config.entries.insert domain (uniqueAddresses addresses)⟩

def build (config : DnsOverridesBuilder) (hasProxy : Bool) : Except Error DnsOverrides :=
  if hasProxy && !config.entries.isEmpty then
    .error (.invalidDnsOverrideConfig
      "DNS overrides cannot be combined with http_proxy, even with no_proxy rules")
  else .ok ⟨config.entries⟩

end DnsOverridesBuilder

def DnsOverrides.lookup (overrides : DnsOverrides) (domain : Text) : Option (List SocketAddr) :=
  (normalizeDomain parseHost domain).bind fun domain ↦ overrides.entries[domain]?

/-! ## The resolvers -/

/-- Where a resolver has its addresses from. -/
inductive Resolution where
  | pinned (addresses : List SocketAddr)
  | fallback
  deriving DecidableEq, Repr

/-- `call` of the async resolver. -/
def asyncResolve (overrides : DnsOverrides) (name : Text) : Resolution :=
  match overrides.lookup parseHost name with
  | some addresses => .pinned addresses
  | none => .fallback

def portFor (uri : Uri) (address : SocketAddr) : SocketAddr :=
  match uri.portU16 with
  | some port => address.setPort port
  | none =>
    if address.port = 0 then
      address.setPort (if uri.schemeStr = some "https".toList then 443 else 80)
    else address

/-- `ResolvedSocketAddrs::push` of `ureq`; no result is a panic. -/
abbrev Push := List SocketAddr → SocketAddr → Option (List SocketAddr)

/-- What `ureq` documents: there is room for 16 addresses. -/
def Push.HasRoom (push : Push) : Prop :=
  ∀ resolved address, resolved.length < 16 → push resolved address = some (resolved ++ [address])

variable (push : Push)

/-- `resolve` of the blocking resolver. -/
def blockingResolve (overrides : DnsOverrides) (uri : Uri) : Option Resolution :=
  match uri.host.bind (overrides.lookup parseHost) with
  | some addresses =>
    (addresses.foldlM (fun resolved address ↦ push resolved (portFor uri address)) []).map .pinned
  | none => some .fallback

/-! ## What a chain of calls leaves -/

def insertAll (calls : Calls) : Except Error DnsOverridesBuilder :=
  calls.foldlM (fun config call ↦ config.insert parseHost call.1 call.2) {}

/-- The last call that names the same host. -/
def lastFor (calls : Calls) (name : Text) : Option (List SocketAddr) :=
  (normalizeDomain parseHost name).bind fun key ↦
    (calls.reverse.find? fun call ↦ normalizeDomain parseHost call.1 = some key).map Prod.snd

theorem uniqueAddresses_eq (addresses : List SocketAddr) :
    uniqueAddresses addresses = addresses.reverse.dedup.reverse := by
  induction addresses using List.reverseRecOn with
  | nil => rfl
  | append_singleton addresses address ih =>
    rw [uniqueAddresses, List.foldl_concat, ← uniqueAddresses, ih, pushUnique,
      List.reverse_concat]
    by_cases h : address ∈ addresses
    · simp [h]
    · simp [h]

theorem uniqueAddresses_sublist (addresses : List SocketAddr) :
    (uniqueAddresses addresses).Sublist addresses := by
  rw [uniqueAddresses_eq]
  simpa using (List.dedup_sublist addresses.reverse).reverse

theorem nodup_uniqueAddresses (addresses : List SocketAddr) :
    (uniqueAddresses addresses).Nodup := by
  rw [uniqueAddresses_eq]
  exact List.nodup_reverse.mpr (List.nodup_dedup _)

variable {addresses : List SocketAddr}

theorem mem_uniqueAddresses {address : SocketAddr} :
    address ∈ uniqueAddresses addresses ↔ address ∈ addresses := by
  simp [uniqueAddresses_eq]

variable {push}

/-- With room for all of them, every address is pushed. -/
theorem Push.HasRoom.foldlM_push (ureq : push.HasRoom) (f : SocketAddr → SocketAddr)
    (resolved : List SocketAddr)
    (hroom : resolved.length + addresses.length ≤ maxAddresses) :
    addresses.foldlM (fun resolved address ↦ push resolved (f address)) resolved =
      some (resolved ++ addresses.map f) := by
  induction addresses generalizing resolved with
  | nil => simp
  | cons address addresses ih =>
    rw [List.length_cons] at hroom
    have hpush := ureq resolved (f address) (by unfold maxAddresses at hroom; omega)
    have hrest : (resolved ++ [f address]).length + addresses.length ≤ maxAddresses := by
      rw [List.length_append, List.length_singleton]
      omega
    rw [List.foldlM_cons, hpush]
    simpa using ih _ hrest

variable {parseHost}

theorem insert_eq_ok_iff {config config' : DnsOverridesBuilder} {domain : Text}
    :
    config.insert parseHost domain addresses = .ok config' ↔
      ∃ key, normalizeDomain parseHost domain = some key ∧ addresses ≠ [] ∧
        addresses.length ≤ maxAddresses ∧
        config' = ⟨config.entries.insert key (uniqueAddresses addresses)⟩ := by
  rw [DnsOverridesBuilder.insert]
  cases normalizeDomain parseHost domain with
  | none => simp
  | some key => simp [ite_error_eq_ok, and_assoc, eq_comm (a := config')]

variable {calls : Calls} {config : DnsOverridesBuilder}

/-- A call with the same name replaces the list, any other call leaves it. -/
theorem getElem?_insertAll (h : insertAll parseHost calls = .ok config) (key : Text) :
    config.entries[key]? =
      (calls.reverse.find? fun call ↦ normalizeDomain parseHost call.1 = some key).map
        fun call ↦ uniqueAddresses call.2 := by
  refine Checks.foldlM_induction (p := fun calls config ↦ config.entries[key]? =
    (calls.reverse.find? fun call ↦ normalizeDomain parseHost call.1 = some key).map
      fun call ↦ uniqueAddresses call.2) (by simp) ?_ h
  intro done config call config' ih hinsert
  obtain ⟨key', hkey', -, -, rfl⟩ := insert_eq_ok_iff.mp hinsert
  rw [List.reverse_concat, List.find?_cons, Std.TreeMap.getElem?_insert]
  by_cases hsame : key' = key
  · simp [hkey', hsame]
  · simp [hkey', hsame, ih]

theorem calls_of_insertAll (h : insertAll parseHost calls = .ok config) :
    ∀ call ∈ calls, (normalizeDomain parseHost call.1).isSome ∧ call.2 ≠ [] ∧
      call.2.length ≤ maxAddresses := by
  refine Checks.foldlM_induction (p := fun calls _ ↦ ∀ call ∈ calls,
    (normalizeDomain parseHost call.1).isSome ∧ call.2 ≠ [] ∧ call.2.length ≤ maxAddresses)
    (by simp) ?_ h
  intro done config call config' ih hinsert
  obtain ⟨key, hkey, hsome, hfew, -⟩ := insert_eq_ok_iff.mp hinsert
  rw [List.forall_mem_append, List.forall_mem_singleton]
  exact ⟨ih, by simp [hkey], hsome, hfew⟩

theorem lookup_of_insertAll (h : insertAll parseHost calls = .ok config) (name : Text) :
    (DnsOverrides.mk config.entries).lookup parseHost name =
      (lastFor parseHost calls name).map uniqueAddresses := by
  simp [DnsOverrides.lookup, lastFor, getElem?_insertAll h, Option.map_bind, Function.comp_def]

theorem exists_of_lastFor {name : Text} (h : lastFor parseHost calls name = some addresses) :
    ∃ call ∈ calls, normalizeDomain parseHost call.1 = normalizeDomain parseHost name ∧
      call.2 = addresses := by
  obtain ⟨key, hkey, hfind⟩ := Option.bind_eq_some_iff.mp h
  obtain ⟨call, hcall, rfl⟩ := Option.map_eq_some_iff.mp hfind
  have hmem := List.mem_of_find?_eq_some hcall
  have hname := List.find?_some hcall
  exact ⟨call, List.mem_reverse.mp hmem, by simpa [hkey] using hname, rfl⟩

theorem isEmpty_of_insertAll (h : insertAll parseHost calls = .ok config)
    (hempty : config.entries.isEmpty) : calls = [] := by
  rw [List.eq_nil_iff_forall_not_mem]
  intro call hcall
  obtain ⟨key, hkey⟩ := Option.isSome_iff_exists.mp (calls_of_insertAll h call hcall).1
  have hnone : config.entries[key]? = none := by
    simp [Std.TreeMap.getElem?_of_isEmpty hempty]
  rw [getElem?_insertAll h, Option.map_eq_none_iff, List.find?_eq_none] at hnone
  exact hnone call (List.mem_reverse.mpr hcall) (by simpa using hkey)

/-- A name the caller fixed is answered from the last list given for it and never by the
system, and the blocking resolver has room for the list. -/
theorem resolvers_keep_to_overrides {hasProxy : Bool} {overrides : DnsOverrides}
    (ureq : push.HasRoom) (h : insertAll parseHost calls = .ok config)
    (hbuild : config.build hasProxy = .ok overrides) :
    (hasProxy = true → calls = []) ∧
      ∀ (uri : Uri) (host : Text), uri.host = some host →
        (∀ addresses, lastFor parseHost calls host = some addresses →
          asyncResolve parseHost overrides host = .pinned (uniqueAddresses addresses) ∧
          blockingResolve parseHost push overrides uri =
            some (.pinned ((uniqueAddresses addresses).map (portFor uri))) ∧
          (uniqueAddresses addresses).Nodup ∧ uniqueAddresses addresses ≠ [] ∧
          (uniqueAddresses addresses).length ≤ maxAddresses ∧
          ∀ address, address ∈ uniqueAddresses addresses ↔ address ∈ addresses) ∧
        (lastFor parseHost calls host = none →
          asyncResolve parseHost overrides host = .fallback ∧
          blockingResolve parseHost push overrides uri = some .fallback) := by
  rw [DnsOverridesBuilder.build, ite_error_eq_ok] at hbuild
  obtain ⟨hproxy, hentries⟩ := hbuild
  obtain rfl : DnsOverrides.mk config.entries = overrides := by injection hentries
  refine ⟨fun hhas ↦ isEmpty_of_insertAll h (by simpa [hhas] using hproxy), ?_⟩
  intro uri host hhost
  have hlookup := lookup_of_insertAll h host
  constructor
  · intro addresses hlast
    rw [hlast, Option.map_some] at hlookup
    obtain ⟨call, hcall, -, rfl⟩ := exists_of_lastFor hlast
    obtain ⟨-, hsome, hfew⟩ := calls_of_insertAll h call hcall
    have hroom : (uniqueAddresses call.2).length ≤ maxAddresses :=
      (uniqueAddresses_sublist call.2).length_le.trans hfew
    have hpinned := ureq.foldlM_push (portFor uri) []
      (by simpa using hroom : [].length + (uniqueAddresses call.2).length ≤ maxAddresses)
    refine ⟨?_, ?_, nodup_uniqueAddresses _, ?_, hroom, fun _ ↦ mem_uniqueAddresses⟩
    · rw [asyncResolve, hlookup]
    · rw [blockingResolve, hhost, Option.bind_some, hlookup]
      simp [hpinned]
    · obtain ⟨address, haddress⟩ := List.exists_mem_of_ne_nil _ hsome
      exact List.ne_nil_of_mem (mem_uniqueAddresses.mpr haddress)
  · intro hlast
    rw [hlast, Option.map_none] at hlookup
    constructor
    · rw [asyncResolve, hlookup]
    · rw [blockingResolve, hhost, Option.bind_some, hlookup]

end Overrides

namespace Sample

/-- The last call names the host of the first one in another spelling. -/
def overrideCalls : Calls :=
  [("api.example.".toList, [⟨.v4 1, 0⟩]), ("other.example".toList, [⟨.v4 2, 0⟩]),
    ("API.example".toList, [⟨.v4 3, 0⟩, ⟨.v4 3, 0⟩, ⟨.v4 4, 8080⟩])]

def overridesConfig : DnsOverridesBuilder where
  entries :=
    (((∅ : Std.TreeMap Text (List SocketAddr)).insert "api.example".toList [⟨.v4 1, 0⟩]).insert
      "other.example".toList [⟨.v4 2, 0⟩]).insert "api.example".toList [⟨.v4 3, 0⟩, ⟨.v4 4, 8080⟩]

def push : Push := fun resolved address ↦
  if resolved.length < 16 then some (resolved ++ [address]) else none

def overriddenUri : Uri :=
  ⟨some "https".toList, some "Api.Example".toList, some "Api.Example".toList, none,
    "https://Api.Example/".toList⟩

end Sample

theorem resolvers_keep_to_overrides_replaced :
    blockingResolve (fun t ↦ some (.domain t)) Sample.push ⟨Sample.overridesConfig.entries⟩
        Sample.overriddenUri =
      some (.pinned [⟨.v4 3, 443⟩, ⟨.v4 4, 8080⟩]) := by
  have hinsert : insertAll (fun t ↦ some (.domain t)) Sample.overrideCalls =
      .ok Sample.overridesConfig := rfl
  have hbuild : Sample.overridesConfig.build false = .ok ⟨Sample.overridesConfig.entries⟩ := rfl
  have hpush : Sample.push.HasRoom := fun _ _ hroom ↦ if_pos hroom
  have hkeep := (resolvers_keep_to_overrides hpush hinsert hbuild).2 Sample.overriddenUri
    "Api.Example".toList rfl
  exact (hkeep.1 [⟨.v4 3, 0⟩, ⟨.v4 3, 0⟩, ⟨.v4 4, 8080⟩] (by decide +kernel)).2.1.trans
    (by decide +kernel)

end Reqx.Dns
