import Reqx.Library.ByteOffsets
import Reqx.Library.Checks
import Reqx.Tls.Pem

/-!
# TLS configuration

How the two transports turn the TLS options of a builder into a configuration:
which roots a connection trusts, which identity it shows and which versions it
speaks. Whatever backend is chosen, a configuration that is built trusts the roots
the options name and no others, and speaks the versions between their bounds.
-/

namespace Reqx.Tls

open Checks

/-! ## Options -/

inductive TlsVersion where
  | v12 | v13
  deriving DecidableEq, Repr

namespace TlsVersion

def asStr : TlsVersion → Text
  | v12 => "TLS1.2".toList
  | v13 => "TLS1.3".toList

/-- The derived order: an older version is less than a newer one. -/
def le : TlsVersion → TlsVersion → Bool
  | v13, v12 => false
  | _, _ => true

end TlsVersion

inductive TlsRootStore where
  | backendDefault | webPki | system | specific
  deriving DecidableEq, Repr

inductive TlsRootCertificate where
  | pem (pem : Bytes)
  | der (der : Bytes)
  deriving DecidableEq

inductive TlsClientIdentity where
  | pem (certChainPem privateKeyPem : Bytes)
  | pkcs12 (identityDer : Bytes) (password : Text)
  deriving DecidableEq

structure TlsOptions where
  rootStore : TlsRootStore := .backendDefault
  rootCertificates : List TlsRootCertificate := []
  clientIdentity : Option TlsClientIdentity := none
  minProtocolVersion : Option TlsVersion := none
  maxProtocolVersion : Option TlsVersion := none
  deriving DecidableEq

structure TlsVersionBounds where
  min : Option TlsVersion
  max : Option TlsVersion
  deriving DecidableEq

def TlsVersionBounds.contains (bounds : TlsVersionBounds) (version : TlsVersion) : Bool :=
  bounds.min.all (TlsVersion.le · version) && bounds.max.all (TlsVersion.le version)

/-! ## What is built -/

/-- What a library is told of the versions it may speak: all of them, or the ends. -/
inductive TlsVersions where
  | listed (versions : List TlsVersion)
  | bounded (bounds : TlsVersionBounds)
  deriving DecidableEq

def TlsVersions.allows : TlsVersions → TlsVersion → Bool
  | listed versions, version => versions.contains version
  | bounded bounds, version => bounds.contains version

inductive TlsIdentity where
  | chain (certificates : List Bytes) (privateKey : Bytes)
  | pkcs8 (certChainPem privateKeyPem : Bytes)
  | pkcs12 (identityDer : Bytes) (password : Text)
  deriving DecidableEq

/-- `platformRoots` leaves the trust in a peer to the platform; `roots` are trusted besides. -/
structure TlsConfig where
  platformRoots : Bool
  roots : List Bytes
  versions : TlsVersions
  identity : Option TlsIdentity
  deriving DecidableEq

/-- The libraries that read certificates and keys for a backend. -/
inductive TlsLibrary where
  | rustls | nativeTls | ureq
  deriving DecidableEq, Repr

/-- What the TLS libraries, the compiled features and the machine answer. A certificate is its
DER encoding. -/
structure TlsStack where
  asyncAvailable : TlsBackend → Bool
  blockingAvailable : TlsBackend → Bool
  providerInstalled : Bool
  withProtocolVersions : TlsBackend → List TlsVersion → Except Text Unit
  webpkiRoots : List Bytes
  nativeCerts : List Bytes
  nativeCertErrors : ℕ
  certificateFromPem : TlsLibrary → Bytes → Except Text Bytes
  acceptsRoot : TlsLibrary → Bytes → Except Text Unit
  privateKeyFromPem : TlsLibrary → Bytes → Except Text Bytes
  withClientAuthCert : List Bytes → Bytes → Except Text Unit
  identityFromPkcs8 : Bytes → Bytes → Except Text Unit
  identityFromPkcs12 : Bytes → Text → Except Text Unit
  buildConnector : TlsConfig → Except Text Unit

/-- `map_err` to a configuration error with a text in front of the source's. -/
def describe {α : Type} (backend : TlsBackend) (message : String) (answer : Except Text α) :
    Except Error α :=
  answer.mapError fun source ↦ tlsConfigError backend (message.toList ++ source)

def initError {α : Type} (backend : TlsBackend) (answer : Except Text α) : Except Error α :=
  answer.mapError (.tlsBackendInit backend.asStr)

def refuse {α : Type} (backend : TlsBackend) (message : String) : Except Error α :=
  .error (tlsConfigError backend message.toList)

/-- The parser returns on every bundle. -/
theorem isSome_parsePemCertificateBlocks (backend : TlsBackend) (pemBundle : Bytes)
    (context : Text) : (parsePemCertificateBlocks backend pemBundle context).isSome := by
  obtain ⟨outcome, hrun⟩ := exists_pemRun backend context pemBundle []
  rw [hrun.parse_eq]
  rfl

def pemBlocks (backend : TlsBackend) (pemBundle : Bytes) (context : String) :
    Except Error (List Bytes) :=
  (parsePemCertificateBlocks backend pemBundle context.toList).get
    (isSome_parsePemCertificateBlocks backend pemBundle context.toList)

section Build

variable (stack : TlsStack) (backend : TlsBackend) (options : TlsOptions)

def tlsVersionBounds : Except Error TlsVersionBounds :=
  match options.minProtocolVersion, options.maxProtocolVersion with
  | some min, some max =>
    if !min.le max then
      .error (tlsConfigError backend ("invalid TLS version range: min version ".toList ++
        min.asStr ++ " is greater than max version ".toList ++ max.asStr))
    else .ok ⟨some min, some max⟩
  | min, max => .ok ⟨min, max⟩

def customRootsMessage : String :=
  "custom root CAs require tls_root_store(TlsRootStore::WebPki), " ++
    "tls_root_store(TlsRootStore::System), or tls_root_store(TlsRootStore::Specific)"

def specificRootsMessage : String :=
  "tls_root_store(TlsRootStore::Specific) requires at least one root CA"

def systemRootsMessage : String := "failed to load system root certificates"

def TlsRootStore.takesCustomRoots : TlsRootStore → Bool
  | .webPki | .system | .specific => true
  | .backendDefault => false

def rustlsCryptoProvider : Except Error Unit :=
  match backend with
  | .rustlsNoProvider =>
    if stack.providerInstalled then .ok ()
    else
      .error (.tlsBackendInit backend.asStr
        ("no rustls CryptoProvider is installed as the process-wide default; call " ++
          "CryptoProvider::install_default() before building a rustls-no-provider client").toList)
  | .nativeTls => .error (.tlsBackendUnavailable backend.asStr)
  | .rustlsRing | .rustlsAwsLcRs | .rustlsGraviola =>
    if stack.asyncAvailable backend || stack.blockingAvailable backend then .ok ()
    else .error (.tlsBackendUnavailable backend.asStr)

def pkcs12Message (reason : String) (identityDer : Bytes) (password : Text) : Text :=
  reason.toList ++ "; use PEM cert+key (pkcs12_bytes=".toList ++
    Nat.toDigits 10 identityDer.length ++ ", password_len=".toList ++
    Nat.toDigits 10 (Text.len password) ++ ")".toList

/-! ## Async, rustls -/

def rustlsRootsOf : TlsRootCertificate → Except Error (List Bytes)
  | .pem pem => do
    let blocks ← pemBlocks backend pem "root certificate"
    collect (fun block ↦ do
      let certificate ← describe backend "failed to parse PEM root certificate: "
        (stack.certificateFromPem .rustls block)
      describe backend "failed to add PEM root certificate: "
        (stack.acceptsRoot .rustls certificate)
      return [certificate]) [] blocks
  | .der der => do
    describe backend "failed to add DER root certificate: " (stack.acceptsRoot .rustls der)
    return [der]

/-- `RootCertStore::add` appends, so the certificates it takes are those collected here. -/
def addCustomRustlsRootCertificates : Except Error (List Bytes) :=
  collect (rustlsRootsOf stack backend) [] options.rootCertificates

def isParsableRoot (certificate : Bytes) : Bool := (stack.acceptsRoot .rustls certificate).isOk

def customRustlsRoots : Except Error (List Bytes) :=
  if options.rootStore.takesCustomRoots && !options.rootCertificates.isEmpty then
    addCustomRustlsRootCertificates stack backend options
  else .ok []

def buildRustlsRootStore : Except Error (List Bytes) :=
  if !options.rootCertificates.isEmpty && !options.rootStore.takesCustomRoots then
    refuse backend customRootsMessage
  else
    let bundled :=
      match options.rootStore with
      | .backendDefault | .webPki => stack.webpkiRoots
      | .system | .specific => []
    if options.rootStore = .specific && options.rootCertificates.isEmpty then
      refuse backend specificRootsMessage
    else do
      let systemRoots :=
        if options.rootStore = .system then stack.nativeCerts.filter (isParsableRoot stack) else []
      let custom ← customRustlsRoots stack backend options
      if options.rootStore = .system && systemRoots.length + custom.length = 0 then
        refuse backend systemRootsMessage
      else .ok (bundled ++ systemRoots ++ custom)

def configuredRustlsProtocolVersions : Except Error (List TlsVersion) := do
  let bounds ← tlsVersionBounds backend options
  return [.v13, .v12].filter bounds.contains

def rustlsIdentity : Except Error (Option TlsIdentity) :=
  match options.clientIdentity with
  | none => .ok none
  | some (.pem certChainPem privateKeyPem) => do
    let blocks ← pemBlocks backend certChainPem "mTLS certificate chain"
    let certChain ← collect (fun block ↦ do
      let certificate ← describe backend "failed to parse mTLS certificate chain PEM: "
        (stack.certificateFromPem .rustls block)
      return [certificate]) [] blocks
    let privateKey ← describe backend "failed to parse mTLS private key PEM: "
      (stack.privateKeyFromPem .rustls privateKeyPem)
    describe backend "failed to configure mTLS identity: "
      (stack.withClientAuthCert certChain privateKey)
    return some (.chain certChain privateKey)
  | some (.pkcs12 identityDer password) =>
    .error (tlsConfigError backend (pkcs12Message
      "PKCS#12 identity is unsupported for rustls backends" identityDer password))

def buildRustlsTlsConfig : Except Error TlsConfig := do
  let roots ← buildRustlsRootStore stack backend options
  let protocolVersions ← configuredRustlsProtocolVersions backend options
  initError backend (stack.withProtocolVersions backend protocolVersions)
  let identity ← rustlsIdentity stack backend options
  return ⟨false, roots, .listed protocolVersions, identity⟩

/-! ## Async, native-tls -/

def nativeRootsOf : TlsRootCertificate → Except Error (List Bytes)
  | .pem pem => do
    let blocks ← pemBlocks .nativeTls pem "root certificate"
    collect (fun block ↦ do
      let certificate ← describe .nativeTls "failed to parse PEM root certificate: "
        (stack.certificateFromPem .nativeTls block)
      return [certificate]) [] blocks
  | .der der => do
    describe .nativeTls "failed to parse DER root certificate: "
      (stack.acceptsRoot .nativeTls der)
    return [der]

def nativeIdentity : Except Error (Option TlsIdentity) :=
  match options.clientIdentity with
  | none => .ok none
  | some (.pem certChainPem privateKeyPem) => do
    describe .nativeTls "failed to parse PKCS#8 mTLS identity: "
      (stack.identityFromPkcs8 certChainPem privateKeyPem)
    return some (.pkcs8 certChainPem privateKeyPem)
  | some (.pkcs12 identityDer password) => do
    describe .nativeTls "failed to parse PKCS#12 mTLS identity: "
      (stack.identityFromPkcs12 identityDer password)
    return some (.pkcs12 identityDer password)

/-- Whether the connector keeps its built-in roots. -/
def nativeBuiltInRoots : Except Error Bool :=
  match options.rootStore with
  | .backendDefault | .system => .ok true
  | .specific =>
    if options.rootCertificates.isEmpty then refuse .nativeTls specificRootsMessage
    else .ok false
  | .webPki =>
    refuse .nativeTls ("tls_root_store(TlsRootStore::WebPki) is unsupported for " ++
      "native-tls backend; use System or Specific")

def buildNativeTlsConnector : Except Error TlsConfig :=
  if !options.rootCertificates.isEmpty && !options.rootStore.takesCustomRoots then
    refuse .nativeTls customRootsMessage
  else do
    let platformRoots ← nativeBuiltInRoots options
    let roots ← collect (nativeRootsOf stack) [] options.rootCertificates
    let identity ← nativeIdentity stack options
    let bounds ← tlsVersionBounds .nativeTls options
    let config : TlsConfig := ⟨platformRoots, roots, .bounded bounds, identity⟩
    initError .nativeTls (stack.buildConnector config)
    return config

/-- `build_transport_client` of the async client. -/
def buildTransportClient : Except Error TlsConfig :=
  if !stack.asyncAvailable backend then .error (.tlsBackendUnavailable backend.asStr)
  else
    match backend with
    | .nativeTls => buildNativeTlsConnector stack options
    | .rustlsRing | .rustlsAwsLcRs | .rustlsGraviola | .rustlsNoProvider => do
      rustlsCryptoProvider stack backend
      buildRustlsTlsConfig stack backend options

/-! ## Blocking -/

def parsePemCertificates (pemBundle : Bytes) (context : String) : Except Error (List Bytes) := do
  let blocks ← pemBlocks backend pemBundle context
  collect (fun block ↦ do
    let certificate ← describe backend ("failed to parse PEM " ++ context ++ ": ")
      (stack.certificateFromPem .ureq block)
    return [certificate]) [] blocks

def ureqRootsOf : TlsRootCertificate → Except Error (List Bytes)
  | .pem pem => parsePemCertificates stack backend pem "root certificate"
  | .der der => .ok [der]

def loadSystemRootCertificates : Except Error (List Bytes) :=
  if stack.nativeCerts.isEmpty && stack.nativeCertErrors ≠ 0 then
    refuse backend systemRootsMessage
  else .ok stack.nativeCerts

def backendLibrary : TlsLibrary :=
  match backend with
  | .nativeTls => .nativeTls
  | .rustlsRing | .rustlsAwsLcRs | .rustlsGraviola | .rustlsNoProvider => .rustls

/-- The two functions that validate custom roots differ in the library they ask. -/
def validateCustomRootCertificates (roots : List Bytes) : Except Error Unit :=
  roots.forM fun root ↦ describe backend "failed to parse custom root certificate: "
    (stack.acceptsRoot (backendLibrary backend) root)

def blockingRustlsCompiled : Bool :=
  stack.blockingAvailable .rustlsRing || stack.blockingAvailable .rustlsAwsLcRs ||
    stack.blockingAvailable .rustlsGraviola || stack.blockingAvailable .rustlsNoProvider

/-- `RootCerts`: the platform's verifier, or the certificates a peer is checked against. -/
def blockingRootCerts (roots : List Bytes) : Except Error (Bool × List Bytes) :=
  match options.rootStore with
  | .backendDefault =>
    if backend ≠ .nativeTls then .ok (false, stack.webpkiRoots) else .ok (true, [])
  | .webPki =>
    if blockingRustlsCompiled stack then
      if roots.isEmpty then .ok (false, stack.webpkiRoots)
      else .ok (false, stack.webpkiRoots ++ roots)
    else .error (.tlsBackendUnavailable backend.asStr)
  | .system =>
    if roots.isEmpty then .ok (true, [])
    else if blockingRustlsCompiled stack then do
      let systemRoots ← loadSystemRootCertificates stack backend
      if (systemRoots ++ roots).isEmpty then refuse backend systemRootsMessage
      else .ok (false, systemRoots ++ roots)
    else .error (.tlsBackendUnavailable backend.asStr)
  | .specific => .ok (false, roots)

def ureqIdentity : Except Error (Option TlsIdentity) :=
  match options.clientIdentity with
  | none => .ok none
  | some (.pem certChainPem privateKeyPem) => do
    let certChain ← parsePemCertificates stack backend certChainPem "mTLS certificate chain"
    let privateKey ← describe backend "failed to parse mTLS private key PEM: "
      (stack.privateKeyFromPem .ureq privateKeyPem)
    return some (.chain certChain privateKey)
  | some (.pkcs12 identityDer password) =>
    .error (tlsConfigError backend (pkcs12Message
      "PKCS#12 identity is unsupported in sync ureq transport" identityDer password))

def blockingProvider : Except Error Unit :=
  if backend = .nativeTls then .ok ()
  else do
    rustlsCryptoProvider stack backend
    -- The other providers are this crate's own and are not tried out here.
    if backend = .rustlsNoProvider then
      initError backend (stack.withProtocolVersions backend [.v13, .v12])
    else .ok ()

def buildSyncTlsConfig : Except Error TlsConfig :=
  if !stack.blockingAvailable backend then .error (.tlsBackendUnavailable backend.asStr)
  else do
    let bounds ← tlsVersionBounds backend options
    if bounds.min.isSome || bounds.max.isSome then
      refuse backend ("TLS version bounds are unsupported for blocking ureq transport; protocol " ++
        "version overrides are currently available only for async backends")
    else if !options.rootCertificates.isEmpty && !options.rootStore.takesCustomRoots then
      refuse backend customRootsMessage
    else if backend = .nativeTls && options.rootStore = .webPki then
      refuse backend ("tls_root_store(TlsRootStore::WebPki) is unsupported for native-tls " ++
        "backend; use BackendDefault, System, or Specific")
    else if backend = .nativeTls && options.rootStore = .system &&
        !options.rootCertificates.isEmpty then
      refuse backend ("blocking native-tls backend cannot combine system roots with custom root " ++
        "CAs; use tls_root_store(TlsRootStore::Specific) to trust only explicit roots")
    else if options.rootStore = .specific && options.rootCertificates.isEmpty then
      refuse backend specificRootsMessage
    else do
      let custom ← collect (ureqRootsOf stack backend) [] options.rootCertificates
      validateCustomRootCertificates stack backend custom
      let (platformRoots, roots) ← blockingRootCerts stack backend options custom
      let identity ← ureqIdentity stack backend options
      blockingProvider stack backend
      return ⟨platformRoots, roots, .bounded bounds, identity⟩

end Build

/-! ## What the options ask for -/

section Honours

variable (stack : TlsStack) (library : TlsLibrary) (backend : TlsBackend) (options : TlsOptions)

/-- The bundle is made of these certificates and white space. -/
def PemDecodes (pem : Bytes) (certificates : List Bytes) : Prop :=
  ∃ lead pieces, PemLayout pem lead pieces ∧ pieces ≠ [] ∧
    pieces.Forall₂ (fun piece certificate ↦
      stack.certificateFromPem library piece.block = .ok certificate) certificates

def Decodes : TlsRootCertificate → List Bytes → Prop
  | .pem pem, certificates => PemDecodes stack library pem certificates
  | .der der, certificates => certificates = [der]

/-- Every root the caller added, each once and in order. -/
def CustomRoots (custom : List Bytes) : Prop :=
  ∃ parts, options.rootCertificates.Forall₂ (Decodes stack library) parts ∧
    custom = parts.flatten

/-- The machine's roots: rustls leaves out those it cannot parse. -/
def systemRoots : List Bytes :=
  match library with
  | .rustls => stack.nativeCerts.filter (isParsableRoot stack)
  | .nativeTls | .ureq => stack.nativeCerts

/-- Whether the system's store is the platform's verifier, which names no roots. -/
def asksPlatform (custom : List Bytes) : Bool :=
  match library with
  | .rustls => false
  | .nativeTls => true
  | .ureq => custom.isEmpty

def TrustsOnly (custom : List Bytes) (platformRoots : Bool) (roots : List Bytes) : Prop :=
  match options.rootStore with
  | .backendDefault =>
    custom = [] ∧ platformRoots = decide (backend = .nativeTls) ∧
      roots = if backend = .nativeTls then [] else stack.webpkiRoots
  | .webPki =>
    backend ≠ .nativeTls ∧ platformRoots = false ∧ roots = stack.webpkiRoots ++ custom
  | .system =>
    platformRoots = asksPlatform library custom ∧
      roots = (if platformRoots then [] else systemRoots stack library) ++ custom ∧
      (platformRoots = false → roots ≠ [])
  | .specific => platformRoots = false ∧ roots = custom ∧ custom ≠ []

def ShowsIdentity (identity : Option TlsIdentity) : Prop :=
  match options.clientIdentity with
  | none => identity = none
  | some (.pem certChainPem privateKeyPem) =>
    (∃ certificates privateKey, PemDecodes stack library certChainPem certificates ∧
      stack.privateKeyFromPem library privateKeyPem = .ok privateKey ∧
      identity = some (.chain certificates privateKey)) ∨
    library = .nativeTls ∧ identity = some (.pkcs8 certChainPem privateKeyPem)
  | some (.pkcs12 identityDer password) =>
    library = .nativeTls ∧ identity = some (.pkcs12 identityDer password)

/-- The versions from the smallest the options allow to the largest, and at least one. -/
def Speaks (versions : TlsVersions) : Prop :=
  (∀ version, versions.allows version ↔
    (∀ min ∈ options.minProtocolVersion, min.le version) ∧
      ∀ max ∈ options.maxProtocolVersion, version.le max) ∧
  ∃ version, versions.allows version

structure Honours (config : TlsConfig) : Prop where
  roots : ∃ custom, CustomRoots stack library options custom ∧
    TrustsOnly stack library backend options custom config.platformRoots config.roots
  identity : ShowsIdentity stack library options config.identity
  versions : Speaks options config.versions

end Honours

/-! ## Answers of the libraries -/

section Answers

variable {α : Type} {backend : TlsBackend}

theorem describe_eq_ok_iff {message : String} {answer : Except Text α} {a : α} :
    describe backend message answer = .ok a ↔ answer = .ok a := by
  cases answer <;> simp [describe, Except.mapError]

theorem refuse_ne_ok {message : String} {a : α} : refuse backend message ≠ .ok a := by
  simp [refuse]

theorem exists_of_pemBlocks {pem : Bytes} {context : String} {blocks : List Bytes}
    (h : pemBlocks backend pem context = .ok blocks) :
    ∃ lead pieces, PemLayout pem lead pieces ∧ pieces ≠ [] ∧
      blocks = pieces.map PemPiece.block := by
  obtain ⟨outcome, hrun⟩ := exists_pemRun backend context.toList pem []
  have houtcome : outcome = .ok blocks := by
    rw [← h, pemBlocks]
    simp [hrun.parse_eq]
  obtain ⟨lead, pieces, hlayout, hblocks, hne⟩ := hrun.layout houtcome
  rw [List.nil_append] at hblocks
  refine ⟨lead, pieces, hlayout, ?_, hblocks⟩
  rintro rfl
  exact hne hblocks

end Answers

section Proofs

variable {stack : TlsStack} {backend : TlsBackend} {options : TlsOptions} {config : TlsConfig}

variable {library : TlsLibrary}

/-- The loops over the blocks of a bundle, whatever else they check of a certificate. -/
theorem pemDecodes_of_collect {pem : Bytes} {context : String} {blocks certificates : List Bytes}
    {f : Bytes → Except Error (List Bytes)} (hblocks : pemBlocks backend pem context = .ok blocks)
    (hf : ∀ block part, f block = .ok part →
      ∃ certificate, stack.certificateFromPem library block = .ok certificate ∧
        part = [certificate]) (h : collect f [] blocks = .ok certificates) :
    PemDecodes stack library pem certificates := by
  obtain ⟨lead, pieces, hlayout, hne, rfl⟩ := exists_of_pemBlocks hblocks
  exact ⟨lead, pieces, hlayout, hne, List.forall₂_map_left_iff.mp (collect_singletons hf h)⟩

/-- The same for a loop that checks nothing else. -/
theorem pemDecodes_of_described {pem : Bytes} {context message : String}
    {blocks certificates : List Bytes} (hblocks : pemBlocks backend pem context = .ok blocks)
    (h : collect (fun block ↦ do
      let certificate ← describe backend message (stack.certificateFromPem library block)
      return [certificate]) [] blocks = .ok certificates) :
    PemDecodes stack library pem certificates := by
  refine pemDecodes_of_collect hblocks ?_ h
  intro block part hpart
  obtain ⟨certificate, hcertificate, hpart⟩ := bind_eq_ok.mp hpart
  exact ⟨certificate, describe_eq_ok_iff.mp hcertificate, (Except.ok.inj hpart).symm⟩

theorem customRoots_of_collect {custom : List Bytes}
    {f : TlsRootCertificate → Except Error (List Bytes)}
    (hf : ∀ certificate part, f certificate = .ok part → Decodes stack library certificate part)
    (h : collect f [] options.rootCertificates = .ok custom) :
    CustomRoots stack library options custom := by
  obtain ⟨parts, hparts, rfl⟩ := collect_eq_ok_iff.mp h
  exact ⟨parts, hparts.imp hf, rfl⟩

variable {certificate : TlsRootCertificate} {part : List Bytes}

theorem decodes_of_rustlsRootsOf (h : rustlsRootsOf stack backend certificate = .ok part) :
    Decodes stack .rustls certificate part := by
  cases certificate with
  | pem pem =>
    obtain ⟨blocks, hblocks, hcollect⟩ := bind_eq_ok.mp h
    refine pemDecodes_of_collect hblocks ?_ hcollect
    intro block part hpart
    obtain ⟨certificate, hcertificate, hpart⟩ := bind_eq_ok.mp hpart
    obtain ⟨-, -, hpart⟩ := bind_eq_ok.mp hpart
    exact ⟨certificate, describe_eq_ok_iff.mp hcertificate, (Except.ok.inj hpart).symm⟩
  | der der =>
    obtain ⟨-, -, hpart⟩ := bind_eq_ok.mp h
    exact (Except.ok.inj hpart).symm

theorem decodes_of_nativeRootsOf (h : nativeRootsOf stack certificate = .ok part) :
    Decodes stack .nativeTls certificate part := by
  cases certificate with
  | pem pem =>
    obtain ⟨blocks, hblocks, hcollect⟩ := bind_eq_ok.mp h
    exact pemDecodes_of_described hblocks hcollect
  | der der =>
    obtain ⟨-, -, hpart⟩ := bind_eq_ok.mp h
    exact (Except.ok.inj hpart).symm

theorem pemDecodes_of_parsePemCertificates {pem : Bytes} {context : String}
    {certificates : List Bytes}
    (h : parsePemCertificates stack backend pem context = .ok certificates) :
    PemDecodes stack .ureq pem certificates := by
  obtain ⟨blocks, hblocks, hcollect⟩ := bind_eq_ok.mp h
  exact pemDecodes_of_described hblocks hcollect

theorem decodes_of_ureqRootsOf (h : ureqRootsOf stack backend certificate = .ok part) :
    Decodes stack .ureq certificate part := by
  cases certificate with
  | pem pem => exact pemDecodes_of_parsePemCertificates h
  | der der => exact (Except.ok.inj h).symm

variable {bounds : TlsVersionBounds}

theorem TlsVersionBounds.contains_iff {version : TlsVersion} :
    bounds.contains version ↔
      (∀ min ∈ bounds.min, min.le version) ∧ ∀ max ∈ bounds.max, version.le max := by
  simp [contains, Option.all_eq_true]

theorem tlsVersionBounds_eq_ok (h : tlsVersionBounds backend options = .ok bounds) :
    bounds = ⟨options.minProtocolVersion, options.maxProtocolVersion⟩ ∧
      ∃ version, bounds.contains version := by
  unfold tlsVersionBounds at h
  split at h
  next min max hmin hmax =>
    obtain ⟨hle, hbounds⟩ := ite_error_eq_ok.mp h
    obtain rfl := Except.ok.inj hbounds
    refine ⟨by rw [hmin, hmax], min, ?_⟩
    revert hle
    cases min <;> cases max <;> decide
  next min max hnot =>
    obtain rfl := Except.ok.inj h
    refine ⟨rfl, ?_⟩
    rcases hmin : options.minProtocolVersion with _ | min <;>
      rcases hmax : options.maxProtocolVersion with _ | max
    · exact ⟨.v12, rfl⟩
    · exact ⟨max, by cases max <;> rfl⟩
    · exact ⟨min, by cases min <;> rfl⟩
    · exact absurd hmax (hnot min max hmin)

theorem speaks_of_tlsVersionBounds {versions : TlsVersions}
    (h : tlsVersionBounds backend options = .ok bounds)
    (hallows : ∀ version, versions.allows version = bounds.contains version) :
    Speaks options versions := by
  obtain ⟨rfl, hsome⟩ := tlsVersionBounds_eq_ok h
  simp only [Speaks, hallows]
  exact ⟨fun _ ↦ TlsVersionBounds.contains_iff, hsome⟩

theorem speaks_of_configuredRustlsProtocolVersions {versions : List TlsVersion}
    (h : configuredRustlsProtocolVersions backend options = .ok versions) :
    Speaks options (.listed versions) := by
  obtain ⟨bounds, hbounds, h⟩ := bind_eq_ok.mp h
  obtain rfl := Except.ok.inj h
  refine speaks_of_tlsVersionBounds hbounds fun version ↦ ?_
  -- Both versions there are stand in the list that is filtered.
  have hall : version ∈ [TlsVersion.v13, .v12] := by cases version <;> decide
  rw [Bool.eq_iff_iff]
  exact List.contains_iff_mem.trans (List.mem_filter.trans (and_iff_right hall))

theorem Decodes.ne_nil (h : Decodes stack library certificate part) : part ≠ [] := by
  cases certificate with
  | pem pem =>
    obtain ⟨lead, pieces, -, hne, hpieces⟩ := h
    rintro rfl
    exact hne (List.forall₂_nil_right_iff.mp hpieces)
  | der der =>
    obtain rfl : part = [der] := h
    simp

theorem CustomRoots.eq_nil_iff {custom : List Bytes}
    (h : CustomRoots stack library options custom) :
    custom = [] ↔ options.rootCertificates = [] := by
  obtain ⟨parts, hparts, rfl⟩ := h
  generalize options.rootCertificates = certificates at hparts
  cases hparts with
  | nil => simp
  | cons hpart _ => simp [hpart.ne_nil]

theorem roots_of_buildRustlsRootStore {roots : List Bytes} (hbackend : backend ≠ .nativeTls)
    (h : buildRustlsRootStore stack backend options = .ok roots) :
    ∃ custom, CustomRoots stack .rustls options custom ∧
      TrustsOnly stack .rustls backend options custom false roots := by
  unfold buildRustlsRootStore at h
  obtain ⟨htaken, h⟩ := ite_error_eq_ok.mp h
  obtain ⟨hspecific, h⟩ := ite_error_eq_ok.mp h
  obtain ⟨custom, hcustom, h⟩ := bind_eq_ok.mp h
  obtain ⟨hsystem, h⟩ := ite_error_eq_ok.mp h
  obtain rfl := Except.ok.inj h
  have hroots : CustomRoots stack .rustls options custom := by
    by_cases hgiven : options.rootCertificates = []
    · obtain rfl : [] = custom := by simpa [customRustlsRoots, hgiven] using hcustom
      exact ⟨[], by simp [hgiven], rfl⟩
    · have htakes : options.rootStore.takesCustomRoots = true := by simpa [hgiven] using htaken
      rw [customRustlsRoots, if_pos (by simp [htakes, hgiven])] at hcustom
      exact customRoots_of_collect (fun _ _ ↦ decodes_of_rustlsRootsOf) hcustom
  refine ⟨custom, hroots, ?_⟩
  cases hstore : options.rootStore with
  | backendDefault =>
    have hnone : custom = [] := hroots.eq_nil_iff.mpr
      (by simpa [hstore, TlsRootStore.takesCustomRoots] using htaken)
    simp [TrustsOnly, hstore, hbackend, hnone]
  | webPki => simp [TrustsOnly, hstore, hbackend]
  | system =>
    simp only [TrustsOnly, hstore]
    refine ⟨rfl, rfl, fun _ ↦ ?_⟩
    simpa [hstore] using hsystem
  | specific =>
    have hsome : custom ≠ [] := fun hnil ↦ by
      simp [hstore, hroots.eq_nil_iff.mp hnil] at hspecific
    simp [TrustsOnly, hstore, hsome]

variable {identity : Option TlsIdentity}

theorem identity_of_rustlsIdentity (h : rustlsIdentity stack backend options = .ok identity) :
    ShowsIdentity stack .rustls options identity := by
  unfold rustlsIdentity at h
  unfold ShowsIdentity
  rcases hidentity : options.clientIdentity with _ | pem | pkcs12 <;> rw [hidentity] at h
  · exact (Except.ok.inj h).symm
  · obtain ⟨blocks, hblocks, h⟩ := bind_eq_ok.mp h
    obtain ⟨certChain, hchain, h⟩ := bind_eq_ok.mp h
    obtain ⟨privateKey, hkey, h⟩ := bind_eq_ok.mp h
    obtain ⟨-, -, h⟩ := bind_eq_ok.mp h
    exact .inl ⟨certChain, privateKey, pemDecodes_of_described hblocks hchain,
      describe_eq_ok_iff.mp hkey, (Except.ok.inj h).symm⟩
  · cases h

theorem identity_of_nativeIdentity (h : nativeIdentity stack options = .ok identity) :
    ShowsIdentity stack .nativeTls options identity := by
  unfold nativeIdentity at h
  unfold ShowsIdentity
  rcases hidentity : options.clientIdentity with _ | pem | pkcs12 <;> rw [hidentity] at h
  · exact (Except.ok.inj h).symm
  · obtain ⟨-, -, h⟩ := bind_eq_ok.mp h
    exact .inr ⟨rfl, (Except.ok.inj h).symm⟩
  · obtain ⟨-, -, h⟩ := bind_eq_ok.mp h
    exact ⟨rfl, (Except.ok.inj h).symm⟩

theorem identity_of_ureqIdentity (h : ureqIdentity stack backend options = .ok identity) :
    ShowsIdentity stack .ureq options identity := by
  unfold ureqIdentity at h
  unfold ShowsIdentity
  rcases hidentity : options.clientIdentity with _ | pem | pkcs12 <;> rw [hidentity] at h
  · exact (Except.ok.inj h).symm
  · obtain ⟨certChain, hchain, h⟩ := bind_eq_ok.mp h
    obtain ⟨privateKey, hkey, h⟩ := bind_eq_ok.mp h
    exact .inl ⟨certChain, privateKey, pemDecodes_of_parsePemCertificates hchain,
      describe_eq_ok_iff.mp hkey, (Except.ok.inj h).symm⟩
  · cases h

theorem honours_of_buildRustlsTlsConfig (hbackend : backend ≠ .nativeTls)
    (h : buildRustlsTlsConfig stack backend options = .ok config) :
    Honours stack .rustls backend options config := by
  obtain ⟨roots, hroots, h⟩ := bind_eq_ok.mp h
  obtain ⟨versions, hversions, h⟩ := bind_eq_ok.mp h
  obtain ⟨-, -, h⟩ := bind_eq_ok.mp h
  obtain ⟨identity, hidentity, h⟩ := bind_eq_ok.mp h
  obtain rfl := Except.ok.inj h
  exact ⟨roots_of_buildRustlsRootStore hbackend hroots, identity_of_rustlsIdentity hidentity,
    speaks_of_configuredRustlsProtocolVersions hversions⟩

theorem honours_of_buildNativeTlsConnector
    (h : buildNativeTlsConnector stack options = .ok config) :
    Honours stack .nativeTls .nativeTls options config := by
  obtain ⟨htaken, h⟩ := ite_error_eq_ok.mp h
  obtain ⟨platformRoots, hplatform, h⟩ := bind_eq_ok.mp h
  obtain ⟨roots, hcollect, h⟩ := bind_eq_ok.mp h
  obtain ⟨identity, hidentity, h⟩ := bind_eq_ok.mp h
  obtain ⟨bounds, hbounds, h⟩ := bind_eq_ok.mp h
  obtain ⟨-, -, h⟩ := bind_eq_ok.mp h
  obtain rfl := Except.ok.inj h
  have hroots : CustomRoots stack .nativeTls options roots :=
    customRoots_of_collect (fun _ _ ↦ decodes_of_nativeRootsOf) hcollect
  refine ⟨⟨roots, hroots, ?_⟩, identity_of_nativeIdentity hidentity,
    speaks_of_tlsVersionBounds hbounds fun _ ↦ rfl⟩
  unfold nativeBuiltInRoots at hplatform
  cases hstore : options.rootStore with
  | backendDefault =>
    have hnone : roots = [] := hroots.eq_nil_iff.mpr
      (by simpa [hstore, TlsRootStore.takesCustomRoots] using htaken)
    rw [hstore] at hplatform
    simp [TrustsOnly, hstore, hnone, ← Except.ok.inj hplatform]
  | webPki =>
    rw [hstore] at hplatform
    exact absurd hplatform refuse_ne_ok
  | system =>
    rw [hstore] at hplatform
    simp [TrustsOnly, asksPlatform, hstore, ← Except.ok.inj hplatform]
  | specific =>
    rw [hstore] at hplatform
    obtain ⟨hgiven, hplatform⟩ := ite_error_eq_ok.mp hplatform
    have hsome : roots ≠ [] := fun hnil ↦ hgiven (by simp [hroots.eq_nil_iff.mp hnil])
    simp [TrustsOnly, hstore, hsome, ← Except.ok.inj hplatform]

theorem roots_of_blockingRootCerts {custom roots : List Bytes} {platformRoots : Bool}
    (hroots : CustomRoots stack .ureq options custom)
    (htaken : options.rootCertificates = [] ∨ options.rootStore.takesCustomRoots = true)
    (hwebpki : ¬ (backend = .nativeTls ∧ options.rootStore = .webPki))
    (hspecific : ¬ (options.rootStore = .specific ∧ options.rootCertificates = []))
    (h : blockingRootCerts stack backend options custom = .ok (platformRoots, roots)) :
    TrustsOnly stack .ureq backend options custom platformRoots roots := by
  unfold blockingRootCerts at h
  cases hstore : options.rootStore with
  | backendDefault =>
    have hnone : custom = [] := hroots.eq_nil_iff.mpr
      (htaken.resolve_right (by simp [hstore, TlsRootStore.takesCustomRoots]))
    simp only [hstore] at h
    by_cases hbackend : backend = .nativeTls
    · rw [if_neg (not_not.mpr hbackend)] at h
      obtain ⟨rfl, rfl⟩ := Prod.mk.inj (Except.ok.inj h)
      simp [TrustsOnly, hstore, hnone, hbackend]
    · rw [if_pos hbackend] at h
      obtain ⟨rfl, rfl⟩ := Prod.mk.inj (Except.ok.inj h)
      simp [TrustsOnly, hstore, hnone, hbackend]
  | webPki =>
    have hbackend : backend ≠ .nativeTls := fun heq ↦ hwebpki ⟨heq, hstore⟩
    have hroots : (platformRoots, roots) = (false, stack.webpkiRoots ++ custom) := by
      simp only [hstore] at h
      split at h
      next =>
        split at h
        next hempty => simpa [List.isEmpty_iff.mp hempty] using (Except.ok.inj h).symm
        next => exact (Except.ok.inj h).symm
      next => cases h
    obtain ⟨rfl, rfl⟩ := Prod.mk.inj hroots
    simp [TrustsOnly, hstore, hbackend]
  | system =>
    simp only [hstore] at h
    simp only [TrustsOnly, hstore]
    split at h
    next hempty =>
      obtain ⟨rfl, rfl⟩ := Prod.mk.inj (Except.ok.inj h)
      simp [asksPlatform, List.isEmpty_iff.mp hempty]
    next hgiven =>
      split at h
      next =>
        obtain ⟨systemRoots, hsystem, h⟩ := bind_eq_ok.mp h
        obtain ⟨hsome, h⟩ := ite_error_eq_ok.mp h
        obtain ⟨-, hsystem⟩ := ite_error_eq_ok.mp hsystem
        obtain rfl := Except.ok.inj hsystem
        obtain ⟨rfl, rfl⟩ := Prod.mk.inj (Except.ok.inj h)
        exact ⟨(Bool.eq_false_of_not_eq_true hgiven).symm, rfl,
          fun _ hnil ↦ hsome (List.isEmpty_iff.mpr hnil)⟩
      next => cases h
  | specific =>
    have hsome : custom ≠ [] := fun hnil ↦ hspecific ⟨hstore, hroots.eq_nil_iff.mp hnil⟩
    simp only [hstore] at h
    obtain ⟨rfl, rfl⟩ := Prod.mk.inj (Except.ok.inj h)
    simp [TrustsOnly, hstore, hsome]

theorem honours_of_buildSyncTlsConfig (h : buildSyncTlsConfig stack backend options = .ok config) :
    Honours stack .ureq backend options config := by
  obtain ⟨-, h⟩ := ite_error_eq_ok.mp h
  obtain ⟨bounds, hbounds, h⟩ := bind_eq_ok.mp h
  obtain ⟨-, h⟩ := ite_error_eq_ok.mp h
  obtain ⟨htaken, h⟩ := ite_error_eq_ok.mp h
  obtain ⟨hwebpki, h⟩ := ite_error_eq_ok.mp h
  obtain ⟨-, h⟩ := ite_error_eq_ok.mp h
  obtain ⟨hspecific, h⟩ := ite_error_eq_ok.mp h
  obtain ⟨custom, hcollect, h⟩ := bind_eq_ok.mp h
  obtain ⟨-, -, h⟩ := bind_eq_ok.mp h
  obtain ⟨⟨platformRoots, roots⟩, hcerts, h⟩ := bind_eq_ok.mp h
  obtain ⟨identity, hidentity, h⟩ := bind_eq_ok.mp h
  obtain ⟨-, -, h⟩ := bind_eq_ok.mp h
  obtain rfl := Except.ok.inj h
  have hroots : CustomRoots stack .ureq options custom :=
    customRoots_of_collect (fun _ _ ↦ decodes_of_ureqRootsOf) hcollect
  refine ⟨⟨custom, hroots, ?_⟩, identity_of_ureqIdentity hidentity,
    speaks_of_tlsVersionBounds hbounds fun _ ↦ rfl⟩
  refine roots_of_blockingRootCerts hroots ?_ ?_ ?_ hcerts
  · simpa [or_iff_not_imp_left] using htaken
  · simpa using hwebpki
  · simpa using hspecific

theorem honours_of_buildTransportClient
    (h : buildTransportClient stack backend options = .ok config) :
    Honours stack (backendLibrary backend) backend options config := by
  obtain ⟨-, h⟩ := ite_error_eq_ok.mp h
  cases backend with
  | nativeTls => exact honours_of_buildNativeTlsConnector h
  | rustlsRing | rustlsAwsLcRs | rustlsGraviola | rustlsNoProvider =>
    obtain ⟨-, -, h⟩ := bind_eq_ok.mp h
    exact honours_of_buildRustlsTlsConfig (by decide) h

end Proofs

/-- A connection trusts the roots of the chosen store and all the roots the caller added, and
no others, whichever backend and transport it is made with. -/
theorem built_tls_honours_options (stack : TlsStack) (backend : TlsBackend) (options : TlsOptions)
    (config : TlsConfig) :
    (buildTransportClient stack backend options = .ok config →
      Honours stack (backendLibrary backend) backend options config) ∧
    (buildSyncTlsConfig stack backend options = .ok config →
      Honours stack .ureq backend options config) :=
  ⟨honours_of_buildTransportClient, honours_of_buildSyncTlsConfig⟩

/-- Libraries that accept what they are given. -/
def Sample.tlsStack : TlsStack where
  asyncAvailable _ := true
  blockingAvailable _ := true
  providerInstalled := true
  withProtocolVersions _ _ := .ok ()
  webpkiRoots := [[1], [2]]
  nativeCerts := [[3]]
  nativeCertErrors := 0
  certificateFromPem _ block := .ok block
  acceptsRoot _ _ := .ok ()
  privateKeyFromPem _ key := .ok key
  withClientAuthCert _ _ := .ok ()
  identityFromPkcs8 _ _ := .ok ()
  identityFromPkcs12 _ _ := .ok ()
  buildConnector _ := .ok ()

theorem built_tls_honours_options_specific :
    Honours Sample.tlsStack .rustls .rustlsRing
        ⟨.specific, [.der [7], .der [8]], none, some .v12, none⟩
        ⟨false, [[7], [8]], .listed [.v13, .v12], none⟩ ∧
      Honours Sample.tlsStack .ureq .nativeTls ⟨.specific, [.der [7]], none, none, none⟩
        ⟨false, [[7]], .bounded ⟨none, none⟩, none⟩ :=
  ⟨(built_tls_honours_options Sample.tlsStack .rustlsRing _ _).1 rfl,
    (built_tls_honours_options Sample.tlsStack .nativeTls _ _).2 rfl⟩

end Reqx.Tls
