import ShieldWard.Control.Watch
import ShieldWard.Lib.System

/-!
# The identity of the edge

`cmd/shieldwardd/tls_reload.go` with its use in `cmd/shieldwardd/serve.go`: the listener takes its
certificate and the authorities of its clients from files that are read again while it runs, and
the configuration is for one client only. Handshakes, requests and reloads come in any order, and
what every reload has read is kept as history.
-/

namespace ShieldWard.Control

open Bytes

/-! ## The platform -/

/-- What `url.Parse` tells of an identity. -/
structure IdentityUrl where
  scheme : String
  host : String
  path : String
  rawQuery : String
  fragment : String
  hasUser : Bool
deriving DecidableEq

/-- What the listener uses of `net`, `crypto/tls` and `crypto/x509`. -/
structure TlsPlatform where
  Certificate : Type
  CertPool : Type
  /-- `net.SplitHostPort`: the host. -/
  splitHostPort : String → Except String String
  /-- `net.ParseIP` gives an address, and it is a loopback address. -/
  isLoopbackAddress : String → Bool
  parseIdentity : String → Option IdentityUrl
  /-- `tls.X509KeyPair`: the chain of the certificate that the key belongs to. -/
  x509KeyPair : Bytes → Bytes → Except String (List Bytes)
  parseCertificate : Bytes → Except String Certificate
  notBefore : Certificate → ℤ
  notAfter : Certificate → ℤ
  /-- The texts of the URIs that the certificate names. -/
  uris : Certificate → List String
  /-- A pool with `AppendCertsFromPEM`; `none` when the text holds no certificate. -/
  certsFromPEM : Bytes → Option CertPool
  sha256 : Bytes → Bytes
  /-- The chains of a client's certificates that end in the pool; `none` when they do not verify. -/
  verifyChains : CertPool → List Certificate → Option (List (List Certificate))

/-! ## The material -/

def maxTLSMaterialFileBytes : ℕ := 1024 * 1024

/-- What `os.Stat` and `os.ReadFile` say of a file. -/
structure MaterialFile where
  stat : Except String ℕ
  contents : Except String Bytes

def readTLSMaterialFile (file : MaterialFile) (description : String) : Except String Bytes := do
  let size ← wrap s!"stat TLS {description} file" file.stat
  if size = 0 then .error s!"TLS {description} file must not be empty"
  else if maxTLSMaterialFileBytes < size then
    .error s!"TLS {description} file exceeds {maxTLSMaterialFileBytes} bytes"
  else wrap s!"read TLS {description} file" file.contents

/-- The flags of `serve` that the listener reads. -/
structure ServeFlags where
  listen : String
  tlsCert : String
  tlsKey : String
  clientCA : String
  clientIdentity : String
  /-- In nanoseconds. -/
  tlsReloadInterval : ℤ

/-- `strings.TrimSpace`. -/
def trimmed (text : String) : String := String.ofList (trimSpace text.toList)

structure ServerTLSMaterial (T : TlsPlatform) where
  certificate : List Bytes
  leaf : T.Certificate
  clientCAs : Option T.CertPool
  fingerprint : Bytes

/-- The files when they are loaded, and the time. -/
structure MaterialFiles where
  certificate : MaterialFile
  privateKey : MaterialFile
  clientCA : MaterialFile
  now : ℤ

/-- The authorities of the clients, with the text that they were read from. -/
def loadClientCAs (T : TlsPlatform) (flags : ServeFlags) (file : MaterialFile) :
    Except String (Bytes × Option T.CertPool) :=
  if trimmed flags.clientCA = "" then .ok ([], none)
  else do
    let clientCAPEM ← readTLSMaterialFile file "client certificate authority"
    match T.certsFromPEM clientCAPEM with
    | none => .error "TLS client certificate authority file contains no certificates"
    | some pool => .ok (clientCAPEM, some pool)

/-- The certificate that the listener presents is currently valid. -/
def loadLeaf (T : TlsPlatform) (certificate : List Bytes) (now : ℤ) :
    Except String T.Certificate :=
  match certificate with
  | [] => .error "TLS certificate chain is empty"
  | der :: _ => do
    let leaf ← wrap "parse TLS certificate" (T.parseCertificate der)
    if now < T.notBefore leaf ∨ T.notAfter leaf < now then
      .error "TLS certificate is not currently valid"
    else .ok leaf

def fingerprintInput (certificatePEM privateKeyPEM clientCAPEM : Bytes) : Bytes :=
  certificatePEM ++ 0 :: privateKeyPEM ++ 0 :: clientCAPEM

/-- `load` of the reloader. -/
def loadMaterial (T : TlsPlatform) (flags : ServeFlags) (files : MaterialFiles) :
    Except String (ServerTLSMaterial T) := do
  let certificatePEM ← readTLSMaterialFile files.certificate "certificate"
  let privateKeyPEM ← readTLSMaterialFile files.privateKey "private key"
  let certificate ← wrap "load TLS certificate and key" (T.x509KeyPair certificatePEM privateKeyPEM)
  let leaf ← loadLeaf T certificate files.now
  let (clientCAPEM, clientCAs) ← loadClientCAs T flags files.clientCA
  .ok { certificate, leaf, clientCAs,
        fingerprint := T.sha256 (fingerprintInput certificatePEM privateKeyPEM clientCAPEM) }

/-! ## The configuration -/

def isLoopbackListenHost (T : TlsPlatform) (host : String) : Bool :=
  let withoutDot :=
    if host.toList.getLast? = some '.' then host.toList.dropLast else host.toList
  equalFoldLocalhost withoutDot || T.isLoopbackAddress host

def validateServeTransport (T : TlsPlatform) (flags : ServeFlags) : Except String Bool :=
  let certificateConfigured := trimmed flags.tlsCert ≠ ""
  let privateKeyConfigured := trimmed flags.tlsKey ≠ ""
  if certificateConfigured ≠ privateKeyConfigured then
    .error "tls-cert and tls-key must be configured together"
  else if certificateConfigured then .ok true
  else do
    let host ← wrap "parse listen address" (T.splitHostPort (trimmed flags.listen))
    if isLoopbackListenHost T host then .ok false
    else
      .error "TLS certificate and key are required when listening on a non-loopback address"

/-- An absolute SPIFFE URI without credentials, query, or fragment. -/
def isServiceIdentity (identity : IdentityUrl) : Bool :=
  identity.scheme = "spiffe" && identity.host ≠ "" && identity.path ≠ "" &&
    identity.rawQuery = "" && identity.fragment = "" && !identity.hasUser

def validateMutualTLS (T : TlsPlatform) (tlsEnabled : Bool) (flags : ServeFlags) :
    Except String Unit :=
  let clientCAConfigured := trimmed flags.clientCA ≠ ""
  let identityConfigured := trimmed flags.clientIdentity ≠ ""
  if clientCAConfigured ≠ identityConfigured then
    .error "client-ca and client-identity must be configured together"
  else if !clientCAConfigured then .ok ()
  else if !tlsEnabled then .error "client certificate authentication requires TLS"
  else if (T.parseIdentity (trimmed flags.clientIdentity)).any isServiceIdentity then .ok ()
  else
    .error ("client-identity must be an absolute SPIFFE URI without credentials, query, " ++
      "or fragment")

def second : ℤ := 1000000000

/-- The checks of `runServe` on how it listens: whether TLS is enabled. -/
def validateListener (T : TlsPlatform) (flags : ServeFlags) : Except String Bool := do
  let tlsEnabled ← validateServeTransport T flags
  validateMutualTLS T tlsEnabled flags
  if flags.tlsReloadInterval < second ∨ 600 * second < flags.tlsReloadInterval then
    .error "tls-reload-interval must be between 1s and 10m"
  else .ok tlsEnabled

/-! ## The listener -/

/-- The state of a connection that `verifyClientIdentity` and the handler see. -/
structure ConnectionState (T : TlsPlatform) where
  /-- The material of the configuration that the handshake got. -/
  material : ServerTLSMaterial T
  peerCertificates : List T.Certificate
  verifiedChains : List (List T.Certificate)

def verifyClientIdentity (T : TlsPlatform) (verifiedChains : List (List T.Certificate))
    (expectedIdentity : String) : Except String Unit :=
  match verifiedChains with
  | (leaf :: _) :: _ =>
    if expectedIdentity ∈ T.uris leaf then .ok ()
    else .error "client certificate identity is not authorized"
  | _ => .error "client certificate was not verified"

/-- `VerifyConnection` of the configuration. -/
def verifyConnection {T : TlsPlatform} (flags : ServeFlags) (state : ConnectionState T) :
    Except String Unit :=
  if state.material.clientCAs.isNone || state.peerCertificates.isEmpty then .ok ()
  else verifyClientIdentity T state.verifiedChains (trimmed flags.clientIdentity)

/-- The handlers of the `ServeMux`, by their patterns. -/
inductive Endpoint
  | healthz
  | readyz
  | metrics
  | bundle
  | events
deriving DecidableEq

def Endpoint.path : Endpoint → String
  | .healthz => "/healthz"
  | .readyz => "/readyz"
  | .metrics => "/metrics"
  | .bundle => "/v1/bundle"
  | .events => "/v1/events"

/-- The handler of a request: the pattern of a GET is its path. Other paths are redirected or not
found. -/
def serveMux (method path : String) : Option Endpoint :=
  if method = "GET" ∨ method = "HEAD" then
    [Endpoint.healthz, .readyz, .metrics, .bundle, .events].find? fun e => e.path = path
  else none

/-- What a request gets. -/
inductive ServeOutcome
  | unauthorized
  | handled (endpoint : Option Endpoint)
deriving DecidableEq

/-- `requireServiceIdentity` refuses a request for the configuration without a verified chain. -/
def serveHTTP {T : TlsPlatform} (flags : ServeFlags) (tls : Option (ConnectionState T))
    (method path : String) : ServeOutcome :=
  let refused :=
    "/v1/".toList.isPrefixOf path.toList && tls.all fun state => state.verifiedChains.isEmpty
  if trimmed flags.clientCA ≠ "" ∧ refused = true then .unauthorized
  else .handled (serveMux method path)

structure ServedRequest where
  connection : ℕ
  method : String
  path : String
  outcome : ServeOutcome

structure Listener (T : TlsPlatform) where
  /-- The material of the reloader, when TLS is enabled. -/
  material : Option (ServerTLSMaterial T)
  /-- What was loaded: the files, and the result. -/
  loads : List (MaterialFiles × Except String (ServerTLSMaterial T))
  /-- The connections, without a state when TLS is not enabled. -/
  connections : List (Option (ConnectionState T))
  requests : List ServedRequest
  onReload : ℕ
  onError : List String

inductive ListenerAction (T : TlsPlatform)
  /-- The ticker of `Run` fires. -/
  | tick (files : MaterialFiles)
  /-- A client connects; the certificates that it sends. -/
  | connect (peerCertificates : List T.Certificate)
  /-- A client resumes the session of a connection. -/
  | resume (connection : ℕ)
  | request (connection : ℕ) (method path : String)

namespace Listener

variable {T : TlsPlatform}

/-- `Reload`, with the callback that `Run` makes. -/
def reload (flags : ServeFlags) (s : Listener T) (current : ServerTLSMaterial T)
    (files : MaterialFiles) : Listener T :=
  let loaded := loadMaterial T flags files
  let s := { s with loads := s.loads ++ [(files, loaded)] }
  match loaded with
  | .error error => { s with onError := s.onError ++ [error] }
  | .ok material =>
    if current.fingerprint = material.fingerprint then s
    else { s with material := some material, onReload := s.onReload + 1 }

/-- The chains of a client that connects, with `VerifyClientCertIfGiven` when there are
authorities; `none` when the handshake fails. -/
def handshake (material : ServerTLSMaterial T) (peerCertificates : List T.Certificate) :
    Option (ConnectionState T) :=
  match material.clientCAs with
  -- no certificate is asked for
  | none => some { material, peerCertificates := [], verifiedChains := [] }
  | some pool =>
    if peerCertificates.isEmpty then
      some { material, peerCertificates := [], verifiedChains := [] }
    else (T.verifyChains pool peerCertificates).map fun verifiedChains =>
      { material, peerCertificates, verifiedChains }

/-- The connection stands if `VerifyConnection` accepts it. -/
def accept (flags : ServeFlags) (s : Listener T) (state : ConnectionState T) :
    Option (Listener T) :=
  match verifyConnection flags state with
  | .error _ => none
  | .ok () => some { s with connections := s.connections ++ [some state] }

def step (flags : ServeFlags) (s : Listener T) : ListenerAction T → Option (Listener T)
  | .tick files => s.material.map fun current => s.reload flags current files
  | .connect peerCertificates =>
    match s.material with
    | none => some { s with connections := s.connections ++ [none] }
    | some material => (handshake material peerCertificates).bind (s.accept flags)
  | .resume connection =>
    match s.material, s.connections[connection]? with
    -- the session carries the certificates and the chains of its client
    | some material, some (some session) => s.accept flags { session with material }
    | _, _ => none
  | .request connection method path =>
    s.connections[connection]?.map fun tls =>
      let outcome := serveHTTP flags tls method path
      { s with requests := s.requests ++ [{ connection, method, path, outcome }] }

/-- The start of `runServe`, up to listening. -/
def start (T : TlsPlatform) (flags : ServeFlags) (files : MaterialFiles) :
    Except String (Listener T) := do
  let tlsEnabled ← validateListener T flags
  if tlsEnabled then
    let material ← loadMaterial T flags files
    .ok { material := some material, loads := [(files, .ok material)], connections := [],
          requests := [], onReload := 0, onError := [] }
  else
    .ok { material := none, loads := [], connections := [], requests := [], onReload := 0,
          onError := [] }

def machine (T : TlsPlatform) (flags : ServeFlags) :
    System.Machine (Listener T) (ListenerAction T) where
  init s := ∃ files, start T flags files = .ok s
  step := step flags

end Listener

/-! ## What is loaded -/

variable {T : TlsPlatform} {flags : ServeFlags}

/-- The material is what the files hold: a key with its certificate, which is valid at the time,
and the authorities if they are configured. -/
structure Loaded (T : TlsPlatform) (flags : ServeFlags) (files : MaterialFiles)
    (material : ServerTLSMaterial T) : Prop where
  certificate : ∃ certificatePEM privateKeyPEM, files.certificate.contents = .ok certificatePEM ∧
    files.privateKey.contents = .ok privateKeyPEM ∧
    T.x509KeyPair certificatePEM privateKeyPEM = .ok material.certificate
  leaf : ∃ der ders, material.certificate = der :: ders ∧
    T.parseCertificate der = .ok material.leaf
  valid : T.notBefore material.leaf ≤ files.now ∧ files.now ≤ T.notAfter material.leaf
  clientCAs : trimmed flags.clientCA ≠ "" → ∃ clientCAPEM pool,
    files.clientCA.contents = .ok clientCAPEM ∧ T.certsFromPEM clientCAPEM = some pool ∧
      material.clientCAs = some pool

theorem wrap_ok_iff {α : Type} {context : String} {result : Except String α} {a : α} :
    wrap context result = .ok a ↔ result = .ok a := Except.mapError_eq_ok_iff

theorem readTLSMaterialFile_ok {file : MaterialFile} {description : String} {contents : Bytes}
    (h : readTLSMaterialFile file description = .ok contents) : file.contents = .ok contents := by
  unfold readTLSMaterialFile at h
  obtain ⟨size, _, hread⟩ := Except.bind_eq_ok_iff.mp h
  split_ifs at hread
  exact wrap_ok_iff.mp hread

theorem loadLeaf_ok {certificate : List Bytes} {now : ℤ} {leaf : T.Certificate}
    (h : loadLeaf T certificate now = .ok leaf) :
    (∃ der ders, certificate = der :: ders ∧ T.parseCertificate der = .ok leaf) ∧
      T.notBefore leaf ≤ now ∧ now ≤ T.notAfter leaf := by
  cases certificate with
  | nil => cases h
  | cons der ders =>
    obtain ⟨parsed, hparsed, hvalid⟩ := Except.bind_eq_ok_iff.mp h
    split_ifs at hvalid with hinvalid
    rw [← Except.ok.inj hvalid]
    push Not at hinvalid
    exact ⟨⟨der, ders, rfl, wrap_ok_iff.mp hparsed⟩, hinvalid⟩

theorem loadClientCAs_ok {file : MaterialFile} {loaded : Bytes × Option T.CertPool}
    (h : loadClientCAs T flags file = .ok loaded) (hconfigured : trimmed flags.clientCA ≠ "") :
    ∃ clientCAPEM pool, file.contents = .ok clientCAPEM ∧
      T.certsFromPEM clientCAPEM = some pool ∧ loaded.2 = some pool := by
  unfold loadClientCAs at h
  rw [if_neg hconfigured] at h
  obtain ⟨clientCAPEM, hread, hpool⟩ := Except.bind_eq_ok_iff.mp h
  split at hpool
  · cases hpool
  · next pool hcerts =>
    rw [← Except.ok.inj hpool]
    exact ⟨clientCAPEM, pool, readTLSMaterialFile_ok hread, hcerts, rfl⟩

theorem loadMaterial_ok {files : MaterialFiles} {material : ServerTLSMaterial T}
    (h : loadMaterial T flags files = .ok material) : Loaded T flags files material := by
  unfold loadMaterial at h
  obtain ⟨certificatePEM, hcertificate, h⟩ := Except.bind_eq_ok_iff.mp h
  obtain ⟨privateKeyPEM, hprivateKey, h⟩ := Except.bind_eq_ok_iff.mp h
  obtain ⟨certificate, hpair, h⟩ := Except.bind_eq_ok_iff.mp h
  obtain ⟨leaf, hleaf, h⟩ := Except.bind_eq_ok_iff.mp h
  obtain ⟨loaded, hclientCAs, h⟩ := Except.bind_eq_ok_iff.mp h
  obtain ⟨hparsed, hvalid⟩ := loadLeaf_ok hleaf
  rw [← Except.ok.inj h]
  constructor
  case certificate =>
    exact ⟨certificatePEM, privateKeyPEM, readTLSMaterialFile_ok hcertificate,
      readTLSMaterialFile_ok hprivateKey, wrap_ok_iff.mp hpair⟩
  case leaf => exact hparsed
  case valid => exact hvalid
  case clientCAs => exact fun hconfigured => loadClientCAs_ok hclientCAs hconfigured

/-! ## Runs -/

namespace Listener

variable {s s' : Listener T}

/-- A client that has sent certificates was verified by the authorities of some load. -/
def Verified (loads : List (MaterialFiles × Except String (ServerTLSMaterial T)))
    (state : ConnectionState T) : Prop :=
  ∃ files material pool, (files, .ok material) ∈ loads ∧ material.clientCAs = some pool ∧
    T.verifyChains pool state.peerCertificates = some state.verifiedChains

/-- What the handshake of a connection has established. -/
structure Authentic (flags : ServeFlags)
    (loads : List (MaterialFiles × Except String (ServerTLSMaterial T)))
    (state : ConnectionState T) : Prop where
  accepted : verifyConnection flags state = .ok ()
  material : ∃ files, (files, .ok state.material) ∈ loads
  client : state.verifiedChains = [] ∨ state.peerCertificates ≠ [] ∧ Verified loads state

/-- The results of the loads that were successful. -/
def successes (loads : List (MaterialFiles × Except String (ServerTLSMaterial T))) :
    List (ServerTLSMaterial T) :=
  loads.filterMap fun load => load.2.toOption

/-- The errors of the loads that were not. -/
def failures (loads : List (MaterialFiles × Except String (ServerTLSMaterial T))) : List String :=
  loads.filterMap fun load =>
    match load.2 with
    | .error error => some error
    | .ok _ => none

structure Secure (flags : ServeFlags) (s : Listener T) : Prop where
  configured : validateListener T flags = .ok s.material.isSome
  loads : ∀ load ∈ s.loads, loadMaterial T flags load.1 = load.2
  material : ∀ material, s.material = some material →
    (∃ files, (files, .ok material) ∈ s.loads) ∧
      (successes s.loads).getLast?.map (·.fingerprint) = some material.fingerprint
  connections : ∀ state, some state ∈ s.connections → Authentic flags s.loads state
  plain : none ∈ s.connections → s.material = none
  requests : ∀ request ∈ s.requests, ∃ tls, s.connections[request.connection]? = some tls ∧
    request.outcome = serveHTTP flags tls request.method request.path
  reported : s.onError = failures s.loads

theorem Authentic.mono {loads loads' : List (MaterialFiles × Except String (ServerTLSMaterial T))}
    {state : ConnectionState T} (h : Authentic flags loads state) (hsub : loads ⊆ loads') :
    Authentic flags loads' state where
  accepted := h.accepted
  material := by
    obtain ⟨files, hmem⟩ := h.material
    exact ⟨files, hsub hmem⟩
  client := by
    apply h.client.imp_right
    rintro ⟨hpeers, files, material, pool, hmem, hverified⟩
    exact ⟨hpeers, files, material, pool, hsub hmem, hverified⟩

theorem secure_start {files : MaterialFiles} (h : start T flags files = .ok s) :
    Secure flags s := by
  unfold start at h
  obtain ⟨tlsEnabled, hvalid, h⟩ := Except.bind_eq_ok_iff.mp h
  cases tlsEnabled with
  | false =>
    rw [← Except.ok.inj h]
    exact ⟨hvalid, by simp, by simp, by simp, by simp, by simp, rfl⟩
  | true =>
    obtain ⟨material, hmaterial, h⟩ := Except.bind_eq_ok_iff.mp h
    rw [← Except.ok.inj h]
    refine ⟨hvalid, ?_, ?_, by simp, by simp, by simp, rfl⟩
    · intro load hload
      rw [List.mem_singleton.mp hload]
      exact hmaterial
    · intro current hcurrent
      rw [← Option.some.inj hcurrent]
      exact ⟨⟨files, List.mem_singleton_self _⟩, rfl⟩

theorem Secure.tick (h : Secure flags s) {current : ServerTLSMaterial T}
    (hcurrent : s.material = some current) (files : MaterialFiles) :
    Secure flags (s.reload flags current files) := by
  have hsub : ∀ load, s.loads ⊆ s.loads ++ [load] := fun _ => List.subset_append_left _ _
  have hconfigured := h.configured
  rw [hcurrent] at hconfigured
  have hloads : ∀ load ∈ s.loads ++ [(files, loadMaterial T flags files)],
      loadMaterial T flags load.1 = load.2 := by
    intro load hload
    rcases List.mem_append.mp hload with hold | hnew
    · exact h.loads load hold
    · rw [List.mem_singleton.mp hnew]
  have hplain : none ∉ s.connections := by
    intro hnone
    rw [h.plain hnone] at hcurrent
    cases hcurrent
  unfold reload
  cases hloaded : loadMaterial T flags files with
  | error error =>
    rw [hloaded] at hloads
    -- the material stays, and the error is reported
    refine ⟨hcurrent ▸ hconfigured, hloads, ?_, fun state hstate => ?_,
      fun hnone => absurd hnone hplain, h.requests, ?_⟩
    · intro material hmaterial
      obtain ⟨⟨before, hmem⟩, hlatest⟩ := h.material material hmaterial
      refine ⟨⟨before, hsub _ hmem⟩, ?_⟩
      have hsame : successes (s.loads ++ [(files, .error error)]) = successes s.loads := by
        rw [successes, List.filterMap_append]
        exact List.append_nil _
      show (successes (s.loads ++ [(files, .error error)])).getLast?.map _ = _
      rw [hsame]
      exact hlatest
    · exact (h.connections state hstate).mono (hsub _)
    · show s.onError ++ [error] = failures (s.loads ++ [(files, .error error)])
      rw [h.reported, failures, failures, List.filterMap_append]
      rfl
  | ok material =>
    rw [hloaded] at hloads
    have hlatest : (successes (s.loads ++ [(files, .ok material)])).getLast? = some material := by
      rw [successes, List.filterMap_append]
      exact List.getLast?_concat
    have hreported : s.onError = failures (s.loads ++ [(files, .ok material)]) := by
      rw [h.reported, failures, failures, List.filterMap_append]
      exact (List.append_nil _).symm
    dsimp only
    split
    · next hsame =>
      refine ⟨hcurrent ▸ hconfigured, hloads, ?_, fun state hstate => ?_,
        fun hnone => absurd hnone hplain, h.requests, hreported⟩
      · intro kept hkept
        obtain ⟨⟨before, hmem⟩, _⟩ := h.material kept hkept
        have heq : current = kept := Option.some.inj (hcurrent.symm.trans hkept)
        refine ⟨⟨before, hsub _ hmem⟩, ?_⟩
        show (successes (s.loads ++ [(files, .ok material)])).getLast?.map _ = _
        rw [hlatest, ← heq, Option.map_some, hsame]
      · exact (h.connections state hstate).mono (hsub _)
    · refine ⟨hconfigured, hloads, ?_, fun state hstate => ?_,
        fun hnone => absurd hnone hplain, h.requests, hreported⟩
      · intro next hnext
        have heq : material = next := Option.some.inj hnext
        rw [← heq]
        refine ⟨⟨files, List.mem_append_right _ (List.mem_singleton_self _)⟩, ?_⟩
        show (successes (s.loads ++ [(files, .ok material)])).getLast?.map _ = _
        rw [hlatest]
        rfl
      · exact (h.connections state hstate).mono (hsub _)

/-- A connection joins. -/
theorem Secure.joins (h : Secure flags s) {tls : Option (ConnectionState T)}
    (hstate : ∀ state, tls = some state → Authentic flags s.loads state)
    (hplain : tls = none → s.material = none) :
    Secure flags { s with connections := s.connections ++ [tls] } := by
  refine ⟨h.configured, h.loads, h.material, fun state hmem => ?_, fun hmem => ?_, ?_, h.reported⟩
  · rcases List.mem_append.mp hmem with hold | hnew
    · exact h.connections state hold
    · exact hstate state (List.mem_singleton.mp hnew).symm
  · rcases List.mem_append.mp hmem with hold | hnew
    · exact h.plain hold
    · exact hplain (List.mem_singleton.mp hnew).symm
  · intro request hrequest
    obtain ⟨tls', hget, houtcome⟩ := h.requests request hrequest
    have hlt := (List.getElem?_eq_some_iff.mp hget).1
    refine ⟨tls', ?_, houtcome⟩
    show (s.connections ++ [tls])[request.connection]? = some tls'
    rw [List.getElem?_append_left hlt, hget]

theorem Secure.accept (h : Secure flags s) {state : ConnectionState T}
    (hmaterial : s.material = some state.material)
    (hclient : state.verifiedChains = [] ∨ state.peerCertificates ≠ [] ∧ Verified s.loads state)
    (haccept : s.accept flags state = some s') : Secure flags s' := by
  unfold Listener.accept at haccept
  split at haccept
  · cases haccept
  · next haccepted =>
    rw [← Option.some.inj haccept]
    apply h.joins
    · intro other heq
      rw [← Option.some.inj heq]
      exact ⟨haccepted, (h.material _ hmaterial).1, hclient⟩
    · exact fun heq => by cases heq

/-- The chains of a handshake are empty, or they end in the pool of its material. -/
theorem handshake_some {material : ServerTLSMaterial T} {peerCertificates : List T.Certificate}
    {state : ConnectionState T} (h : handshake material peerCertificates = some state) :
    state.material = material ∧ (state.verifiedChains = [] ∨ state.peerCertificates ≠ [] ∧
      ∃ pool, material.clientCAs = some pool ∧
        T.verifyChains pool state.peerCertificates = some state.verifiedChains) := by
  unfold handshake at h
  split at h
  · rw [← Option.some.inj h]
    exact ⟨rfl, .inl rfl⟩
  · next pool hpool =>
    split at h
    · rw [← Option.some.inj h]
      exact ⟨rfl, .inl rfl⟩
    · next hpeers =>
      obtain ⟨verifiedChains, hchains, heq⟩ := Option.map_eq_some_iff.mp h
      rw [← heq]
      exact ⟨rfl, .inr ⟨by simpa using hpeers, pool, hpool, hchains⟩⟩

theorem Secure.step (h : Secure flags s) {a : ListenerAction T}
    (hstep : step flags s a = some s') : Secure flags s' := by
  cases a with
  | tick files =>
    obtain ⟨current, hcurrent, heq⟩ := Option.map_eq_some_iff.mp hstep
    rw [← heq]
    exact h.tick hcurrent files
  | connect peerCertificates =>
    unfold Listener.step at hstep
    simp only at hstep
    split at hstep
    · next hplain =>
      rw [← Option.some.inj hstep]
      exact h.joins (fun _ heq => by cases heq) fun _ => hplain
    · next material hmaterial =>
      obtain ⟨state, hstate, haccept⟩ := Option.bind_eq_some_iff.mp hstep
      obtain ⟨heq, hclient⟩ := handshake_some hstate
      rw [← heq] at hmaterial hclient
      apply h.accept hmaterial (hclient.imp_right ?_) haccept
      rintro ⟨hpeers, pool, hpool, hchains⟩
      obtain ⟨files, hmem⟩ := (h.material _ hmaterial).1
      exact ⟨hpeers, files, state.material, pool, hmem, hpool, hchains⟩
  | resume connection =>
    unfold Listener.step at hstep
    simp only at hstep
    split at hstep
    · next material session hmaterial hsession =>
      -- the chains were verified when the session began
      have hclient := (h.connections session (List.mem_of_getElem? hsession)).client
      have hresumed : s.material = some { session with material }.material := hmaterial
      exact h.accept hresumed hclient hstep
    · cases hstep
  | request connection method path =>
    obtain ⟨tls, htls, heq⟩ := Option.map_eq_some_iff.mp hstep
    rw [← heq]
    refine ⟨h.configured, h.loads, h.material, h.connections, h.plain, ?_, h.reported⟩
    intro request hrequest
    rcases List.mem_append.mp hrequest with hold | hnew
    · exact h.requests request hold
    · rw [List.mem_singleton.mp hnew]
      exact ⟨tls, htls, rfl⟩

theorem secure_of_reachable (h : (machine T flags).Reachable s) : Secure flags s := by
  refine h.invariant (I := Secure flags) (fun s hinit => ?_) fun s a s' hI hstep => ?_
  · obtain ⟨files, hstart⟩ := hinit
    exact secure_start hstart
  · exact hI.step hstep

/-- The handlers of the configuration are found at their paths only. -/
theorem serveMux_configuration {method path : String} {endpoint : Endpoint}
    (h : serveMux method path = some endpoint) : endpoint.path = path := by
  unfold serveMux at h
  split at h
  · simpa using List.find?_some h
  · cases h

/-- A request for the configuration that is handled has come on a connection with a verified
chain. -/
theorem chains_of_served (hconfigured : trimmed flags.clientCA ≠ "")
    {tls : Option (ConnectionState T)} {method path : String}
    (h : serveHTTP flags tls method path = .handled (some .bundle) ∨
      serveHTTP flags tls method path = .handled (some .events)) :
    ∃ state, tls = some state ∧ state.verifiedChains ≠ [] := by
  have hendpoint : ∀ endpoint : Endpoint, "/v1/".toList.isPrefixOf endpoint.path.toList = true →
      serveHTTP flags tls method path = .handled (some endpoint) →
      ∃ state, tls = some state ∧ state.verifiedChains ≠ [] := by
    intro endpoint hbehind hserved
    unfold serveHTTP at hserved
    dsimp only at hserved
    split at hserved
    · cases hserved
    · next hpassed =>
      have hpath := serveMux_configuration (ServeOutcome.handled.inj hserved)
      rw [← hpath, hbehind, Bool.true_and] at hpassed
      -- no state, or no chain, would have been refused
      cases tls with
      | none => exact absurd ⟨hconfigured, rfl⟩ hpassed
      | some state =>
        refine ⟨state, rfl, fun hnone => hpassed ⟨hconfigured, ?_⟩⟩
        show state.verifiedChains.isEmpty = true
        rw [hnone]
        rfl
  rcases h with hbundle | hevents
  · exact hendpoint .bundle (by decide) hbundle
  · exact hendpoint .events (by decide) hevents

/-- A connection whose client has sent certificates is that of the expected identity. -/
theorem Authentic.identity (hconfigured : trimmed flags.clientCA ≠ "")
    {loads : List (MaterialFiles × Except String (ServerTLSMaterial T))}
    (hloads : ∀ load ∈ loads, loadMaterial T flags load.1 = load.2)
    {state : ConnectionState T} (h : Authentic flags loads state)
    (hchains : state.verifiedChains ≠ []) :
    Verified loads state ∧ ∃ leaf rest chains,
      state.verifiedChains = (leaf :: rest) :: chains ∧
        trimmed flags.clientIdentity ∈ T.uris leaf := by
  obtain ⟨hpeers, hverified⟩ := h.client.resolve_left hchains
  obtain ⟨files, hmem⟩ := h.material
  obtain ⟨_, pool, _, _, hpool⟩ := (loadMaterial_ok (hloads _ hmem)).clientCAs hconfigured
  have haccepted := h.accepted
  unfold verifyConnection at haccepted
  rw [if_neg (by simp [hpool, hpeers])] at haccepted
  unfold verifyClientIdentity at haccepted
  split at haccepted
  · next leaf rest chains heq =>
    split at haccepted
    · next hidentity => exact ⟨hverified, leaf, rest, chains, heq, hidentity⟩
    · cases haccepted
  · cases haccepted

/-- With client authorities configured, the bundle and the events are served only on connections
whose client has a verified chain for the configured identity, and the chain was verified by the
authorities of material that was loaded. Every handshake presents a certificate with its key and
asks for the authorities of one load, in which the certificate was valid. The material is that of
the latest load that was successful, up to its fingerprint, and every other load is reported. -/
theorem service_identity (h : (machine T flags).Reachable s) :
    (trimmed flags.clientCA ≠ "" → ∀ request ∈ s.requests,
      request.outcome = .handled (some .bundle) ∨ request.outcome = .handled (some .events) →
        ∃ state, s.connections[request.connection]? = some (some state) ∧
          Verified s.loads state ∧ ∃ leaf rest chains,
            state.verifiedChains = (leaf :: rest) :: chains ∧
              trimmed flags.clientIdentity ∈ T.uris leaf) ∧
      (∀ state, some state ∈ s.connections → ∃ files, (files, .ok state.material) ∈ s.loads ∧
        Loaded T flags files state.material) ∧
      (∀ material, s.material = some material →
        (successes s.loads).getLast?.map (·.fingerprint) = some material.fingerprint) ∧
      s.onError = failures s.loads := by
  have hsecure := secure_of_reachable h
  refine ⟨?_, ?_, fun material hmaterial => (hsecure.material material hmaterial).2,
    hsecure.reported⟩
  · intro hconfigured request hrequest hserved
    obtain ⟨tls, htls, houtcome⟩ := hsecure.requests request hrequest
    obtain ⟨state, rfl, hchains⟩ := chains_of_served hconfigured (houtcome ▸ hserved)
    obtain ⟨hverified, hidentity⟩ :=
      (hsecure.connections state (List.mem_of_getElem? htls)).identity hconfigured hsecure.loads
        hchains
    exact ⟨state, htls, hverified, hidentity⟩
  · intro state hstate
    obtain ⟨files, hmem⟩ := (hsecure.connections state hstate).material
    exact ⟨files, hmem, loadMaterial_ok (hsecure.loads _ hmem)⟩

/-! ## A rotation -/

namespace Rotation

/-- A platform on which a certificate is one byte, which its key repeats. The authority 7 vouches
for the client 9, which is the edge, and the client 8. -/
def platform : TlsPlatform where
  Certificate := UInt8
  CertPool := Bytes
  splitHostPort _ := .ok "0.0.0.0"
  isLoopbackAddress _ := false
  parseIdentity text :=
    if text = "spiffe://shieldward.local/edge" then
      some { scheme := "spiffe", host := "shieldward.local", path := "/edge", rawQuery := "",
             fragment := "", hasUser := false }
    else none
  x509KeyPair certificate key :=
    if certificate = key then .ok [certificate]
    else .error "tls: private key does not match public key"
  parseCertificate der := .ok (der.headD 0)
  notBefore _ := 0
  notAfter _ := 1000
  uris certificate := if certificate = 9 then ["spiffe://shieldward.local/edge"] else []
  certsFromPEM text := some text
  sha256 := id
  verifyChains pool certificates :=
    if pool = [7] ∧ (certificates = [9] ∨ certificates = [8]) then some [certificates ++ [7]]
    else none

def serveFlags : ServeFlags where
  listen := "0.0.0.0:8443"
  tlsCert := "tls.crt"
  tlsKey := "tls.key"
  clientCA := "clients.crt"
  clientIdentity := "spiffe://shieldward.local/edge"
  tlsReloadInterval := 30 * second

/-- Files with a certificate, a key and an authority. -/
def files (certificate key clientCA : UInt8) : MaterialFiles :=
  let file := fun byte : UInt8 => { stat := .ok 1, contents := .ok [byte] : MaterialFile }
  { certificate := file certificate, privateKey := file key, clientCA := file clientCA, now := 10 }

/-- The edge connects and asks for the bundle, and a client without a certificate does so too. A
reload finds a key that does not belong to its certificate, the next one finds new material, and
the edge resumes its session. -/
def rotating : List (ListenerAction platform) :=
  [.connect [(9 : UInt8)], .request 0 "GET" "/v1/bundle", .connect [], .request 1 "GET" "/v1/bundle",
    .tick (files 2 1 7), .tick (files 2 2 6), .resume 0, .request 2 "GET" "/v1/events"]

/-- What the requests got, and how often the material was replaced and a load was refused. -/
def summary (s : Listener platform) : List ServeOutcome × ℕ × ℕ :=
  (s.requests.map (·.outcome), s.onReload, s.onError.length)

theorem service_identity_rotating :
    ∃ s₀ s, start platform serveFlags (files 1 1 7) = .ok s₀ ∧
      (machine platform serveFlags).run s₀ rotating = some s ∧
      summary s = ([.handled (some .bundle), .unauthorized, .handled (some .events)], 1, 1) ∧
      ∀ request ∈ s.requests,
        request.outcome = .handled (some .bundle) ∨ request.outcome = .handled (some .events) →
          ∃ state, s.connections[request.connection]? = some (some state) ∧
            Verified s.loads state ∧ ∃ leaf rest chains,
              state.verifiedChains = (leaf :: rest) :: chains ∧
                trimmed serveFlags.clientIdentity ∈ platform.uris leaf := by
  have hruns : ((start platform serveFlags (files 1 1 7)).toOption.bind fun s₀ =>
      ((machine platform serveFlags).run s₀ rotating).map summary) =
        some ([.handled (some .bundle), .unauthorized, .handled (some .events)], 1, 1) := by
    decide +kernel
  obtain ⟨s₀, hstart, hrun⟩ := Option.bind_eq_some_iff.mp hruns
  obtain ⟨s, hs, hsummary⟩ := Option.map_eq_some_iff.mp hrun
  have hok : start platform serveFlags (files 1 1 7) = .ok s₀ := by
    cases hresult : start platform serveFlags (files 1 1 7) with
    | error error =>
      rw [hresult] at hstart
      cases hstart
    | ok started =>
      rw [hresult] at hstart
      rw [Option.some.inj hstart]
  have hreachable : (machine platform serveFlags).Reachable s :=
    System.Machine.Reachable.of_run rotating (.init ⟨_, hok⟩) hs
  have hconfigured : trimmed serveFlags.clientCA ≠ "" := by decide
  exact ⟨s₀, s, hok, hs, hsummary, (service_identity hreachable).1 hconfigured⟩

end Rotation
end Listener
end ShieldWard.Control
