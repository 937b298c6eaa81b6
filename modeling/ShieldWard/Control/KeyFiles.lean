import ShieldWard.Control.Signing
import ShieldWard.Lib.Files

/-!
# Key files

`internal/signing/keyfile.go`: what `shieldwardd keygen` does to the file system, call by call.
The derivation of a public key from its seed is an operation of a `KeyPlatform`.
-/

namespace ShieldWard.Control

open Bytes Files

structure KeyPlatform where
  /-- The public half of `ed25519.NewKeyFromSeed`. -/
  publicOfSeed : Bytes → Bytes
  length_publicOfSeed : ∀ seed, (publicOfSeed seed).length = PublicKeySize

/-- What `ed25519.GenerateKey` takes from its random source. -/
abbrev Seed := { bytes : Bytes // bytes.length = 32 }

/-- `ed25519.NewKeyFromSeed`. -/
def KeyPlatform.newKeyFromSeed (K : KeyPlatform) (seed : Bytes) : Bytes :=
  seed ++ K.publicOfSeed seed

/-! ## Paths -/

/-- An element of a path after the cleaned ones before it, the last of them first. -/
def cleanElement (rooted : Bool) (before : List String) (element : String) : List String :=
  if element = "" ∨ element = "." then before
  else if element = ".." then
    match before with
    | [] => if rooted then [] else [".."]
    | last :: rest => if last = ".." then ".." :: before else rest
  else element :: before

/-- `filepath.Clean`. -/
def clean (path : String) : String :=
  let rooted := path.toList.head? = some '/'
  let elements := (path.toList.splitOn '/').map String.ofList
  let text := "/".intercalate (elements.foldl (cleanElement rooted) []).reverse
  if rooted then "/" ++ text else if text = "" then "." else text

/-! ## The files of a key pair -/

/-- `pem.EncodeToMemory` of a block without headers. -/
def encodePEM (type : String) (der : Bytes) : String :=
  let body := Base64.encode der
  "-----BEGIN " ++ type ++ "-----\n" ++ String.ofList (pemLines body.length body) ++
    "-----END " ++ type ++ "-----\n"

/-- What stands before the seed in the PKCS #8 form of an Ed25519 key. -/
def ed25519PrivateHeader : Bytes :=
  [0x30, 0x2e, 0x02, 0x01, 0x00, 0x30, 0x05, 0x06, 0x03, 0x2b, 0x65, 0x70, 0x04, 0x22, 0x04, 0x20]

/-- `x509.MarshalPKCS8PrivateKey`: the seed is the first half of the key. -/
def marshalPKCS8PrivateKey (privateKey : Bytes) : Bytes :=
  ed25519PrivateHeader ++ privateKey.take 32

def encodePrivateKey (privateKey : Bytes) : Except String Bytes :=
  if privateKey.length ≠ PrivateKeySize then .error "private key must contain 64 bytes"
  else .ok (utf8 (encodePEM "PRIVATE KEY" (marshalPKCS8PrivateKey privateKey)))

def encodePublicKey (publicKey : Bytes) : Except String Bytes :=
  if publicKey.length ≠ PublicKeySize then .error "public key must contain 32 bytes"
  else .ok (utf8 (encodePublicKeyPEM publicKey))

/-! ## Writing -/

/-- The function `cleanup` of `writeExclusive`. -/
def cleanup (path : String) (file : ℕ) : Program Unit := do
  let _ ← Program.request (.close file)
  let _ ← Program.request (.remove path)
  return ()

def writeExclusive (path : String) (data : Bytes) (permissions : Mode) :
    Program (Except String Unit) := do
  match ← Program.request (.openExclusive path permissions) with
  | .error err => return .error err
  | .ok file =>
    match ← Program.request (.write file data) with
    | .error err =>
      cleanup path file
      return .error err
    | .ok _ =>
      match ← Program.request (.sync file) with
      | .error err =>
        cleanup path file
        return .error err
      | .ok _ =>
        match ← Program.request (.close file) with
        | .error err =>
          let _ ← Program.request (.remove path)
          return .error err
        | .ok _ => return .ok ()

/-- The part of `GenerateAndWriteKeyPair` that touches files. -/
def writeKeyPair (G : GoPlatform) (privatePath publicPath : String) (publicKey privatePEM
    publicPEM : Bytes) : Program (Except String String) := do
  match ← writeExclusive publicPath publicPEM 0o644 with
  | .error err => return .error ("write public key: " ++ err)
  | .ok _ =>
    match ← writeExclusive privatePath privatePEM 0o600 with
    | .error err =>
      match ← Program.request (.remove publicPath) with
      | .error cleanupErr =>
        return .error ("write private key: " ++ err ++ "; remove incomplete public key: " ++
          cleanupErr)
      | .ok _ => return .error ("write private key: " ++ err)
    | .ok _ => return publicKeyID G publicKey

def generateAndWriteKeyPair (G : GoPlatform) (K : KeyPlatform) (privatePath publicPath : String)
    (generated : Except String Seed) : Program (Except String String) :=
  if clean privatePath = clean publicPath then
    return .error "private and public key paths must differ"
  else
    match generated with
    | .error err => return .error ("generate Ed25519 key pair: " ++ err)
    | .ok seed =>
      match encodePrivateKey (K.newKeyFromSeed seed) with
      | .error err => return .error err
      | .ok privatePEM =>
        match encodePublicKey (publicKey (K.newKeyFromSeed seed)) with
        | .error err => return .error err
        | .ok publicPEM =>
          writeKeyPair G privatePath publicPath (publicKey (K.newKeyFromSeed seed)) privatePEM
            publicPEM

/-! ## What writing leaves behind -/

section Writing

variable {Entry : Type} [DecidableEq Entry] {σ : Setting Entry} {always : Holding Entry → Prop}
  {held : Holding Entry} {unremoved : List String} {path : String} {data : Bytes}
  {permissions : Mode}

/-- What `writeExclusive` has done when it returns: all of it, nothing, or a part that it could
not remove. -/
def Written (σ : Setting Entry) (path : String) (data : Bytes) (permissions : Mode)
    (held : Holding Entry) (unremoved : List String) (result : Except String Unit)
    (held' : Holding Entry) (unremoved' : List String) : Prop :=
  match result with
  | .ok _ => held (σ.entry path) = none ∧ unremoved' = unremoved ∧ ∃ number,
      held' = Function.update held (σ.entry path) (some (number, ⟨data, σ.mode permissions⟩))
  | .error _ => (held' = held ∧ unremoved' = unremoved) ∨
      (held (σ.entry path) = none ∧ unremoved' = path :: unremoved ∧ ∃ number count,
        held' = Function.update held (σ.entry path)
          (some (number, ⟨data.take count, σ.mode permissions⟩)))

/-- What comes after the file has been opened, written in part and found to fail: the
removal, which may fail in its turn. -/
theorem removal_safe (unremoved : List String) (number count : ℕ) (err : String)
    (hfree : held (σ.entry path) = none) (hheld : always held)
    (halways : ∀ number count, always (Function.update held (σ.entry path)
      (some (number, ⟨data.take count, σ.mode permissions⟩)))) :
    Safe σ always (Written σ path data permissions held unremoved)
      (.call (.remove path) fun _ => .done (.error err))
      (Function.update held (σ.entry path)
        (some (number, ⟨data.take count, σ.mode permissions⟩))) unremoved := by
  refine ⟨halways _ _, ?_, ?_, ?_⟩
  · rw [Function.update_self]
    exact Option.some_ne_none _
  · intro message
    exact ⟨halways _ _, .inr ⟨hfree, rfl, number, count, rfl⟩⟩
  · -- Removing what was made under a free entry gives the holding of before.
    have hback : Function.update held (σ.entry path) none = held := by
      rw [← hfree, Function.update_eq_self]
    rw [Function.update_idem, hback]
    exact ⟨hheld, .inl ⟨rfl, rfl⟩⟩

theorem writeExclusive_safe (hheld : always held)
    (halways : held (σ.entry path) = none → ∀ number count, always (Function.update held
      (σ.entry path) (some (number, ⟨data.take count, σ.mode permissions⟩)))) :
    Safe σ always (Written σ path data permissions held unremoved)
      (writeExclusive path data permissions) held unremoved := by
  refine ⟨hheld, fun message => ⟨hheld, .inl ⟨rfl, rfl⟩⟩, fun hfree number => ?_⟩
  have hpart := halways hfree
  have hwhole := hpart number data.length
  rw [List.take_length] at hwhole
  refine ⟨σ.entry path, _, Function.update_self .., ?_, ?_, ?_⟩
  · intro count
    rw [Function.update_idem]
    exact hpart number count
  · -- The write fails: close, then remove what is there.
    intro count message
    rw [Function.update_idem]
    exact ⟨hpart number count, fun _ =>
      removal_safe unremoved number count message hfree hheld hpart⟩
  · rw [Function.update_idem]
    show Safe _ _ _ (.call (.sync number) _) _ _
    refine ⟨hwhole, fun answer => ?_⟩
    have hremoval : ∀ err, Safe σ always (Written σ path data permissions held unremoved)
        (.call (.remove path) fun _ => .done (.error err)) (Function.update held (σ.entry path)
          (some (number, ⟨data, σ.mode permissions⟩))) unremoved := by
      intro err
      have h := removal_safe unremoved number data.length err hfree hheld hpart
      rwa [List.take_length] at h
    cases answer with
    | error err => exact ⟨hwhole, fun _ => hremoval err⟩
    | ok _ =>
      refine ⟨hwhole, fun answer => ?_⟩
      cases answer with
      | error err => exact hremoval err
      | ok _ => exact ⟨hwhole, hfree, rfl, number, rfl⟩

end Writing

/-! ## One run of keygen -/

/-- What one run of `shieldwardd keygen` gets: its paths and what its random source gave. -/
structure Keygen where
  privatePath : String
  publicPath : String
  generated : Except String Seed

namespace Keygen

/-- The whole text of the private key file. -/
def privateText (seed : Seed) : Bytes :=
  utf8 (encodePEM "PRIVATE KEY" (ed25519PrivateHeader ++ seed.val))

def publicText (K : KeyPlatform) (seed : Seed) : Bytes :=
  utf8 (encodePublicKeyPEM (K.publicOfSeed seed.val))

def program (G : GoPlatform) (K : KeyPlatform) (run : Keygen) : Program (Except String String) :=
  generateAndWriteKeyPair G K run.privatePath run.publicPath run.generated

variable {Entry : Type} [DecidableEq Entry]

/-- The bounds of a run: a beginning of the public text under the public name, and a beginning
of the private text under the private name, for its owner only. -/
def Within (K : KeyPlatform) (σ : Setting Entry) (run : Keygen) (held : Holding Entry) : Prop :=
  ∀ entry number file, held entry = some (number, file) → ∃ seed, run.generated = .ok seed ∧
    ((entry = σ.entry run.publicPath ∧ file.content <+: publicText K seed) ∨
      (entry = σ.entry run.privatePath ∧ file.content <+: privateText seed ∧
        file.mode &&& 0o077 = 0))

/-- What a run has made when it returns: both files in full under two names, or only what it
could not remove. -/
def Ends (G : GoPlatform) (K : KeyPlatform) (σ : Setting Entry) (run : Keygen)
    (result : Except String String) (held : Holding Entry) (unremoved : List String) : Prop :=
  match result with
  | .ok keyID => ∃ seed m n, run.generated = .ok seed ∧
      keyID = sha256Text G (K.publicOfSeed seed.val) ∧
      σ.entry run.publicPath ≠ σ.entry run.privatePath ∧
      held (σ.entry run.publicPath) = some (m, ⟨publicText K seed, σ.mode 0o644⟩) ∧
      held (σ.entry run.privatePath) = some (n, ⟨privateText seed, σ.mode 0o600⟩)
  | .error _ => ∀ entry made, held entry = some made → ∃ path ∈ unremoved, σ.entry path = entry

section Safe

variable {G : GoPlatform} {K : KeyPlatform} {σ : Setting Entry} {run : Keygen} {seed : Seed}

theorem Within.update {held : Holding Entry} (h : Within K σ run held)
    (hseed : run.generated = .ok seed) {entry : Entry} {number : ℕ} {file : File}
    (hfile : (entry = σ.entry run.publicPath ∧ file.content <+: publicText K seed) ∨
      (entry = σ.entry run.privatePath ∧ file.content <+: privateText seed ∧
        file.mode &&& 0o077 = 0)) :
    Within K σ run (Function.update held entry (some (number, file))) := by
  intro e number' file' he
  by_cases hentry : e = entry
  · rw [hentry, Function.update_self] at he
    cases he
    exact ⟨seed, hseed, hentry ▸ hfile⟩
  · rw [Function.update_of_ne hentry] at he
    exact h e number' file' he

/-- The writing of a key pair keeps the bounds and ends with both files or with nothing but
what it could not remove. -/
theorem writeKeyPair_safe (hseed : run.generated = .ok seed) :
    Safe σ (Within K σ run) (Ends G K σ run)
      (writeKeyPair G run.privatePath run.publicPath (K.publicOfSeed seed.val)
        (privateText seed) (publicText K seed)) (fun _ => none) [] := by
  have hnone : Within K σ run fun _ => none := by
    intro entry number file h
    cases h
  unfold writeKeyPair
  refine Safe.bind (writeExclusive_safe hnone fun _ number count => ?_) ?_
  · exact hnone.update hseed (.inl ⟨rfl, List.take_prefix ..⟩)
  intro result held unremoved hwithin hwritten
  cases result with
  | error err =>
    refine ⟨hwithin, ?_⟩
    rintro entry made hmade
    rcases hwritten with ⟨rfl, _⟩ | ⟨_, rfl, number, count, rfl⟩
    · cases hmade
    · by_cases hentry : entry = σ.entry run.publicPath
      · exact ⟨run.publicPath, List.mem_cons_self .., hentry.symm⟩
      · rw [Function.update_of_ne hentry] at hmade
        cases hmade
  | ok _ =>
    obtain ⟨_, rfl, m, rfl⟩ := hwritten
    refine Safe.bind (writeExclusive_safe hwithin fun _ number count => ?_) ?_
    · refine hwithin.update hseed (.inr ⟨rfl, List.take_prefix .., ?_⟩)
      exact σ.mode_and (by decide)
    intro result held unremoved hwithin' hwritten'
    cases result with
    | ok _ =>
      obtain ⟨hfree, rfl, n, rfl⟩ := hwritten'
      have hne : σ.entry run.publicPath ≠ σ.entry run.privatePath := by
        intro heq
        rw [← heq, Function.update_self] at hfree
        cases hfree
      have hkey : publicKeyID G (K.publicOfSeed seed.val) =
          .ok (sha256Text G (K.publicOfSeed seed.val)) :=
        if_neg (not_not.mpr (K.length_publicOfSeed _))
      show Safe _ _ _ (.done (publicKeyID G (K.publicOfSeed seed.val))) _ _
      rw [hkey]
      refine ⟨hwithin', seed, m, n, hseed, rfl, hne, ?_, Function.update_self ..⟩
      rw [Function.update_of_ne hne, Function.update_self]
    | error err =>
      -- The private key is not written: the public key file is removed, if this succeeds.
      have hpublic : held (σ.entry run.publicPath) ≠ none := by
        rcases hwritten' with ⟨rfl, _⟩ | ⟨hfree, _, number, count, rfl⟩
        · rw [Function.update_self]
          exact Option.some_ne_none _
        · by_cases heq : σ.entry run.publicPath = σ.entry run.privatePath
          · rw [heq, Function.update_self]
            exact Option.some_ne_none _
          · rw [Function.update_of_ne heq, Function.update_self]
            exact Option.some_ne_none _
      have hleft : ∀ entry made, held entry = some made →
          entry = σ.entry run.publicPath ∨ ∃ path ∈ unremoved, σ.entry path = entry := by
        intro entry made hmade
        by_cases hentry : entry = σ.entry run.publicPath
        · exact .inl hentry
        refine .inr ?_
        rcases hwritten' with ⟨rfl, _⟩ | ⟨_, rfl, number, count, rfl⟩
        · rw [Function.update_of_ne hentry] at hmade
          cases hmade
        · by_cases hprivate : entry = σ.entry run.privatePath
          · exact ⟨run.privatePath, List.mem_cons_self .., hprivate.symm⟩
          · rw [Function.update_of_ne hprivate, Function.update_of_ne hentry] at hmade
            cases hmade
      refine ⟨hwithin', hpublic, fun message => ⟨hwithin', ?_⟩, ?_, ?_⟩
      · rintro entry made hmade
        rcases hleft entry made hmade with rfl | ⟨path, hpath, rfl⟩
        · exact ⟨run.publicPath, List.mem_cons_self .., rfl⟩
        · exact ⟨path, List.mem_cons_of_mem _ hpath, rfl⟩
      · intro entry number file he
        by_cases hentry : entry = σ.entry run.publicPath
        · rw [hentry, Function.update_self] at he
          cases he
        · rw [Function.update_of_ne hentry] at he
          exact hwithin' entry number file he
      · rintro entry made hmade
        by_cases hentry : entry = σ.entry run.publicPath
        · rw [hentry, Function.update_self] at hmade
          cases hmade
        · rw [Function.update_of_ne hentry] at hmade
          exact (hleft entry made hmade).resolve_left hentry

/-- A run of keygen keeps its bounds, whatever fails and whatever stands under its paths. -/
theorem program_safe (G : GoPlatform) (K : KeyPlatform) (σ : Setting Entry) (run : Keygen) :
    Safe σ (Within K σ run) (Ends G K σ run) (run.program G K) (fun _ => none) [] := by
  have hnone : Within K σ run fun _ => none := by
    intro entry number file h
    cases h
  have hempty : ∀ message, Ends G K σ run (.error message) (fun _ => none) [] := by
    intro message entry made h
    cases h
  unfold program generateAndWriteKeyPair
  by_cases hclean : clean run.privatePath = clean run.publicPath
  · rw [if_pos hclean]
    exact ⟨hnone, hempty _⟩
  · rw [if_neg hclean]
    cases hseed : run.generated with
    | error err => exact ⟨hnone, hempty _⟩
    | ok seed =>
      have hlength := K.length_publicOfSeed seed.val
      have hpublic : publicKey (K.newKeyFromSeed seed.val) = K.publicOfSeed seed.val := by
        rw [publicKey, KeyPlatform.newKeyFromSeed, List.drop_left' seed.property]
      have hprivateText : encodePrivateKey (K.newKeyFromSeed seed.val) =
          .ok (privateText seed) := by
        rw [encodePrivateKey, if_neg, marshalPKCS8PrivateKey, KeyPlatform.newKeyFromSeed,
          List.take_left' seed.property, privateText]
        rw [KeyPlatform.newKeyFromSeed, List.length_append, seed.property, hlength]
        decide
      have hpublicText : encodePublicKey (K.publicOfSeed seed.val) = .ok (publicText K seed) :=
        if_neg (not_not.mpr hlength)
      simp only [hprivateText, hpublic, hpublicText]
      exact writeKeyPair_safe hseed

end Safe

end Keygen

end ShieldWard.Control
