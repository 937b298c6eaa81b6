import ShieldWard.Control.Handler

/-!
# The policy watcher

`watchPolicy` of `cmd/shieldwardd/reload.go`, with the loading of a policy file and of a
private key. The disk changes while the watcher runs, and the `Stat`, the load and the publish
of one tick are separate steps. What `Stat` and the loads have found, and whether the policy file
has changed since a tick, are kept as history: no decision of the watcher depends on it.
-/

namespace ShieldWard.Control

open Bytes

/-! ## The disk -/

/-- The decoders of the libraries. -/
structure Decoders where
  /-- `strings.ToLower`. -/
  toLower : String → String
  /-- `yaml.Load` of all documents, with known fields only. -/
  loadYAML : Bytes → Except String (List Document)
  /-- A TOML decoder that disallows unknown fields. -/
  decodeTOML : Bytes → Except String Document
  /-- `pem.Decode`: the type and the bytes of the first block, and the rest. -/
  decodePEM : Bytes → Option (String × Bytes × Bytes)
  /-- `x509.ParsePKCS8PrivateKey`; `none` for a key that is not an Ed25519 key. -/
  parsePKCS8PrivateKey : Bytes → Except String (Option Bytes)

structure PolicyFile where
  content : Bytes
  size : ℤ
  modifiedUnixNano : ℤ
deriving DecidableEq

/-- What the watcher finds when it looks now. An error is what the operation fails with. -/
structure Disk where
  policy : PolicyFile
  isRegular : Bool
  statError : Option String
  /-- The error of `LoadFile` when the policy file cannot be opened or read. -/
  policyError : Option String
  /-- The private-key file, or the error when it cannot be opened or read. -/
  privateKey : Except String Bytes

structure ObservedPolicyFile where
  size : ℤ
  modifiedUnixNano : ℤ
  errorText : String
deriving DecidableEq

def observePolicyFile (G : GoPlatform) (path : String) (disk : Disk) : ObservedPolicyFile :=
  match disk.statError with
  | some e => { size := 0, modifiedUnixNano := 0, errorText := e }
  | none =>
    if !disk.isRegular then
      let quoted := quote G path
      { size := 0, modifiedUnixNano := 0, errorText := s!"{quoted} is not a regular file" }
    else
      { size := disk.policy.size, modifiedUnixNano := disk.policy.modifiedUnixNano,
        errorText := "" }

/-! ## Loading a policy -/

def MaxDocumentBytes : ℕ := 1 <<< 20

/-- `filepath.Ext`: from the last dot of the last element of the path. -/
def ext (path : String) : String :=
  let name := path.toList.reverse.takeWhile (· ≠ '/')
  if '.' ∈ name then String.ofList ((name.takeWhile (· ≠ '.')).reverse.cons '.') else ""

def parseYAML (D : Decoders) (data : Bytes) : Except String Document :=
  match D.loadYAML data with
  | .error e => .error s!"decode YAML policy: {e}"
  | .ok [document] => .ok document
  | .ok _ => .error "YAML policy must contain exactly one document"

def parseTOML (D : Decoders) (data : Bytes) : Except String Document :=
  match D.decodeTOML data with
  | .error e => .error s!"decode TOML policy: {e}"
  | .ok document => .ok document

/-- `strings.TrimPrefix` of a dot. -/
def trimDot (text : String) : String :=
  if text.toList.head? = some '.' then String.ofList text.toList.tail else text

/-- The decoder of a normalized format, with the error of any other. -/
def decode (G : GoPlatform) (D : Decoders) (data : Bytes) (format : String) :
    Except String Document :=
  if format = "yaml" ∨ format = "yml" then parseYAML D data
  else if format = "toml" then parseTOML D data
  else
    let quoted := quote G format
    .error s!"unsupported policy format {quoted}"

def parse (G : GoPlatform) (D : Decoders) (data : Bytes) (format : String) :
    Except String Document := do
  if MaxDocumentBytes < data.length then
    .error s!"policy exceeds maximum size of {MaxDocumentBytes} bytes"
  else
    let normalizedFormat := trimDot (D.toLower (String.ofList (trimSpace format.toList)))
    let document ← decode G D data normalizedFormat
    match validate G document with
    | .error e => .error s!"validate policy: {e}"
    | .ok () => .ok document

/-- `LoadFile` once the file is open: the reader stops after one byte too many. -/
def readDocument (G : GoPlatform) (D : Decoders) (path : String) (content : Bytes) :
    Except String Document :=
  let data := content.take (MaxDocumentBytes + 1)
  if MaxDocumentBytes < data.length then
    .error s!"policy exceeds maximum size of {MaxDocumentBytes} bytes"
  else parse G D data (ext path)

def loadFile (G : GoPlatform) (D : Decoders) (path : String) (disk : Disk) :
    Except String Document :=
  match disk.policyError with
  | some e => .error e
  | none => readDocument G D path disk.policy.content

/-! ## Loading a key -/

def MaxKeyFileBytes : ℕ := 16 <<< 10

def readLimitedKeyFile (disk : Disk) : Except String Bytes := do
  let file ← disk.privateKey
  let data := file.take (MaxKeyFileBytes + 1)
  if MaxKeyFileBytes < data.length then
    .error s!"key file exceeds maximum size of {MaxKeyFileBytes} bytes"
  else .ok data

/-- `len(bytes.TrimSpace(data)) == 0`: the UTF-8 forms of white space and nothing else. -/
def isBlank : Bytes → Bool
  | [] => true
  | 0xc2 :: b :: rest => (b = 0x85 || b = 0xa0) && isBlank rest
  | 0xe1 :: b :: c :: rest => (b = 0x9a && c = 0x80) && isBlank rest
  | 0xe2 :: 0x80 :: c :: rest =>
    ((0x80 ≤ c && c ≤ 0x8a) || c = 0xa8 || c = 0xa9 || c = 0xaf) && isBlank rest
  | 0xe2 :: b :: c :: rest => (b = 0x81 && c = 0x9f) && isBlank rest
  | 0xe3 :: b :: c :: rest => (b = 0x80 && c = 0x80) && isBlank rest
  | b :: rest => ((0x09 ≤ b && b ≤ 0x0d) || b = 0x20) && isBlank rest

def parsePrivateKeyPEM (D : Decoders) (data : Bytes) : Except String Bytes :=
  match D.decodePEM data with
  | none => .error "expected a PRIVATE KEY PEM block"
  | some (type, der, rest) =>
    if type ≠ "PRIVATE KEY" then .error "expected a PRIVATE KEY PEM block"
    else if !isBlank rest then .error "private key contains trailing data"
    else
      match D.parsePKCS8PrivateKey der with
      | .error e => .error s!"parse PKCS#8 private key: {e}"
      | .ok none => .error "private key is not Ed25519"
      | .ok (some privateKey) =>
        if privateKey.length ≠ PrivateKeySize then .error "private key is not Ed25519"
        else .ok privateKey

def loadPrivateKeyFile (D : Decoders) (disk : Disk) : Except String Bytes := do
  let data ← readLimitedKeyFile disk
  parsePrivateKeyPEM D data

/-! ## `loadSignedEnvelope` -/

/-- `fmt.Errorf` with a context before the error. -/
def wrap {α : Type} (context : String) (result : Except String α) : Except String α :=
  result.mapError fun e => s!"{context}: {e}"

def loadSignedEnvelope (G : GoPlatform) (D : Decoders) (policyPath : String) (disk : Disk) :
    Except String Envelope := do
  let document ← wrap "load policy" (loadFile G D policyPath disk)
  let bundle ← wrap "compile policy" (compile G document)
  let privateKey ← wrap "load private key" (loadPrivateKeyFile D disk)
  wrap "sign bundle" (sign G bundle privateKey)

/-- The bundle of the policy that a content is. -/
def compileContent (G : GoPlatform) (D : Decoders) (policyPath : String) (content : Bytes) :
    Except String Bundle := do
  let document ← readDocument G D policyPath content
  compile G document

/-! ## `watchPolicy` -/

inductive PolicyReload
  | updated
  | rejected
deriving DecidableEq

namespace Watch

/-- Where the watcher stands. -/
inductive Position
  /-- Before its first observation. -/
  | starting
  /-- At the head of the loop. -/
  | waiting
  /-- Before `loadSignedEnvelope`. -/
  | loading
  /-- After a load that has succeeded, with the content that it has read. -/
  | loaded (envelope : Envelope) (content : Bytes)

structure State where
  disk : Disk
  position : Position
  lastObservation : ObservedPolicyFile
  firstCheck : Bool
  /-- The snapshot of the store. -/
  current : Option Snapshot
  reloads : List PolicyReload
  stdout : List String
  stderr : List String
  /-- The policy file has not changed since the `Stat` of the latest tick. -/
  quiet : Bool
  /-- The policy file has not changed since the `Stat` of the tick before it. -/
  stable : Bool
  /-- What `Stat` has found at the tick before, `none` before the first tick. -/
  lastStat : Option ObservedPolicyFile
  /-- The policy file at the last tick whose `Stat` has succeeded and found a change. -/
  found : Option PolicyFile
  /-- The load of that change is over, and no load so far has read the content of that change: it has
  failed, or it has read what another edit had put there. -/
  missed : Bool
  /-- The content that the last load that succeeded has read. -/
  loadedContent : Option Bytes

/-- A policy reload that leaves the store alone, and the way back to the head of the loop. -/
def State.reject (s : State) (line : String) : State :=
  { s with position := .waiting, reloads := s.reloads ++ [.rejected],
           stderr := s.stderr ++ [line] }

/-- A tick does nothing when the file looks as it did at the last tick. -/
def isUnchanged (s : State) (observation : ObservedPolicyFile) : Bool :=
  !s.firstCheck && observation = s.lastObservation

/-- `Stat` succeeds and does not find what it has found at the tick before. -/
def findsChange (G : GoPlatform) (policyPath : String) (s : State) : Bool :=
  let observation := observePolicyFile G policyPath s.disk
  observation.errorText = "" && s.lastStat ≠ some observation

/-- The history of a tick. -/
def State.observed (s : State) (G : GoPlatform) (policyPath : String) : State :=
  let change := findsChange G policyPath s
  { s with stable := s.quiet, quiet := true
           lastStat := some (observePolicyFile G policyPath s.disk)
           found := if change then some s.disk.policy else s.found
           missed := !change && s.missed }

/-- A tick up to the load. -/
def tick (G : GoPlatform) (policyPath : String) (s : State) : State :=
  let observation := observePolicyFile G policyPath s.disk
  let s := s.observed G policyPath
  if isUnchanged s observation then s
  else
    let s := { s with firstCheck := false, lastObservation := observation }
    if observation.errorText ≠ "" then
      let errorText := observation.errorText
      s.reject s!"policy reload skipped: {errorText}\n"
    else { s with position := .loading }

def load (G : GoPlatform) (D : Decoders) (policyPath : String) (s : State) : State :=
  match loadSignedEnvelope G D policyPath s.disk with
  | .error e =>
    let missed := decide (s.loadedContent ≠ s.found.map (·.content))
    { s with missed }.reject s!"policy reload rejected: {e}\n"
  | .ok envelope =>
    let missed := decide (some s.disk.policy.content ≠ s.found.map (·.content))
    { s with missed, position := .loaded envelope s.disk.policy.content }

/-- The comparison with the store and the publish. -/
def publish (G : GoPlatform) (s : State) (envelope : Envelope) (content : Bytes) : State :=
  let s := { s with position := .waiting, loadedContent := some content }
  if s.current.map (·.version) = some envelope.bundle.version then s
  else
    match newSnapshot G envelope with
    | .error e => s.reject s!"policy reload publish failed: {e}\n"
    | .ok snapshot =>
      let policy := quote G envelope.bundle.policyName
      let version := quote G envelope.bundle.version
      { s with current := some snapshot, reloads := s.reloads ++ [.updated],
               stdout := s.stdout ++ [s!"reloaded policy={policy} version={version}\n"] }

/-- The content of a policy file changes only together with its size or modification time. -/
def Edits (before after : PolicyFile) : Prop :=
  before.content ≠ after.content →
    (before.size, before.modifiedUnixNano) ≠ (after.size, after.modifiedUnixNano)

instance (before after : PolicyFile) : Decidable (Edits before after) :=
  inferInstanceAs (Decidable (_ → _))

inductive Action
  /-- Anything on the disk changes, or an operation on it starts or stops failing. -/
  | change (disk : Disk)
  /-- The observation before the loop. -/
  | start
  | tick
  | load
  | publish

def step (G : GoPlatform) (D : Decoders) (policyPath : String) (s : State) :
    Action → Option State
  | .change disk =>
    if Edits s.disk.policy disk.policy then
      let same := decide (disk.policy = s.disk.policy)
      some { s with disk, quiet := s.quiet && same, stable := s.stable && same }
    else none
  | .start =>
    match s.position with
    | .starting =>
      some { s with position := .waiting, quiet := true, stable := false, firstCheck := true,
                    lastObservation := observePolicyFile G policyPath s.disk }
    | _ => none
  | .tick =>
    match s.position with
    | .waiting => some (tick G policyPath s)
    | _ => none
  | .load =>
    match s.position with
    | .loading => some (load G D policyPath s)
    | _ => none
  | .publish =>
    match s.position with
    | .loaded envelope content => some (publish G s envelope content)
    | _ => none

/-- The store holds the version of the content. -/
def Holds (G : GoPlatform) (D : Decoders) (policyPath : String) (s : State) (content : Bytes) :
    Prop :=
  ∃ bundle, compileContent G D policyPath content = .ok bundle ∧
    s.current.map (·.version) = some bundle.version

/-- The watcher starts with any disk and any store. What the store holds may be what a load
before the start has found and read. -/
def machine (G : GoPlatform) (D : Decoders) (policyPath : String) :
    System.Machine State Action where
  init s := (match s.position with | .starting => True | _ => False) ∧ s.lastStat = none ∧
    (∀ content, s.loadedContent = some content → Holds G D policyPath s content) ∧
    (s.missed = false → ∀ file, s.found = some file → Holds G D policyPath s file.content)
  step := step G D policyPath

end Watch
end ShieldWard.Control
