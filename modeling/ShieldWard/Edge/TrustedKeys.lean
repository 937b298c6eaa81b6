import ShieldWard.Edge.Verify

/-!
# The trusted keyring

`edge/src/trusted-keys.ts`: the key ID of a public key in PEM form and the keyring of a list of
them. `node:crypto` reads the key, apart from the web platform that verifies with it.
-/

namespace ShieldWard.Edge

open Ecma Bytes

def ED25519_PUBLIC_KEY_BYTES : ℕ := 32

/-- What the keyring reads of a `KeyObject`. -/
structure KeyObject where
  asymmetricKeyType : String
  /-- The field `x` of the exported JWK: `none` when the export throws, `some none` when the
  field is no text. -/
  jwk : Option (Option String)
deriving DecidableEq, Repr

structure NodePlatform where
  /-- `createPublicKey(pem)`, `none` when it throws. -/
  createPublicKey : String → Option KeyObject
  /-- `buffer.toString('utf8')`. -/
  bufferToString : Bytes → String

/-- `Buffer.from(text, 'base64url')`: characters outside the alphabet are skipped. -/
def bufferFromBase64url (text : String) : Bytes :=
  Base64.octets ((text.toList.takeWhile (· ≠ '=')).filterMap fun c =>
    Base64.value (fromUrlSafe c))

/-- The test of `/^-----BEGIN PUBLIC KEY-----[\s\S]+-----END PUBLIC KEY-----$/`. -/
def isPublicKeyBlock (text : List Char) : Bool :=
  pemHeader.isPrefixOf text && pemFooter.isSuffixOf (text.drop pemHeader.length) &&
    pemHeader.length + pemFooter.length < text.length

/-- An error of the result is the message of a `TrustedKeyError`. -/
def calculatePublicKeyId (N : NodePlatform) (P : Platform) (publicKeyPem : String) :
    Except String String :=
  if !isPublicKeyBlock (trim publicKeyPem).toList then
    .error "trusted key must contain one PUBLIC KEY PEM block"
  else
    match N.createPublicKey publicKeyPem with
    | none => .error "trusted public key is invalid"
    | some publicKey =>
      if publicKey.asymmetricKeyType ≠ "ed25519" then .error "trusted public key must use Ed25519"
      else
        match publicKey.jwk with
        | none => .error "trusted public key is invalid"
        | some none => .error "trusted Ed25519 public key has no public value"
        | some (some x) =>
          if (bufferFromBase64url x).length ≠ ED25519_PUBLIC_KEY_BYTES then
            .error "trusted Ed25519 public key must contain 32 bytes"
          else .ok (sha256Text P (bufferFromBase64url x))

/-- The body of the loop over the keys. -/
def addTrustedKey (N : NodePlatform) (P : Platform) (keyring : TrustedKeyring)
    (publicKeyPem : String) : Except String TrustedKeyring := do
  let keyId ← calculatePublicKeyId N P publicKeyPem
  if keyring.has keyId then .error ("duplicate trusted public key " ++ keyId)
  else .ok (keyring.set keyId publicKeyPem)

def createTrustedKeyring (N : NodePlatform) (P : Platform) (publicKeyPems : List String) :
    Except String TrustedKeyring :=
  if publicKeyPems.length = 0 then .error "at least one trusted public key is required"
  else publicKeyPems.foldlM (addTrustedKey N P) .empty

def MAX_PUBLIC_KEY_FILE_BYTES : ℕ := 16 * 1024

/-- `loadPublicKey` of `edge/src/index.ts`. -/
def loadPublicKey (N : NodePlatform) (path : String) (file : Except String Bytes) :
    Except String String :=
  match file with
  | .error message => .error ("load trusted public key \"" ++ path ++ "\": " ++ message)
  | .ok contents =>
    if MAX_PUBLIC_KEY_FILE_BYTES < contents.length then
      .error "trusted public key file exceeds 16384 bytes"
    else .ok (N.bufferToString contents)

/-! ## The entries of a keyring -/

section Entries

variable {N : NodePlatform} {P : Platform}

theorem addTrustedKey_ok_iff {keyring keyring' : TrustedKeyring} {pem : String} :
    addTrustedKey N P keyring pem = .ok keyring' ↔
      ∃ keyId, calculatePublicKeyId N P pem = .ok keyId ∧ keyring.get keyId = none ∧
        keyring' = keyring.set keyId pem := by
  unfold addTrustedKey
  rw [Except.bind_eq_ok_iff]
  apply exists_congr
  intro keyId
  apply and_congr_right
  intro _
  by_cases hhas : keyring.has keyId = true
  · have hget : keyring.get keyId ≠ none := Option.ne_none_iff_isSome.mpr hhas
    simp [hhas, hget]
  · have hget : keyring.get keyId = none := by
      simpa [OrderedMap.has] using hhas
    rw [if_neg hhas, Except.ok.injEq]
    simp [hget, eq_comm]

/-- The key that the loop sets for a text, `""` when there is none. -/
def keyIdOf (N : NodePlatform) (P : Platform) (pem : String) : String :=
  (calculatePublicKeyId N P pem).toOption.getD ""

theorem keyIdOf_eq {pem keyId : String} (h : calculatePublicKeyId N P pem = .ok keyId) :
    keyIdOf N P pem = keyId := by
  rw [keyIdOf, h]
  rfl

/-- Keys with different key IDs make a keyring, and it holds each of them under its key ID and
nothing else. -/
theorem createTrustedKeyring_of_distinct {pems : List String} (hne : pems ≠ [])
    (hid : ∀ pem ∈ pems, ∃ keyId, calculatePublicKeyId N P pem = .ok keyId)
    (hnodup : (pems.map (keyIdOf N P)).Nodup) :
    ∃ keyring, createTrustedKeyring N P pems = .ok keyring ∧ ∀ keyId pem,
      keyring.get keyId = some pem ↔
        pem ∈ pems ∧ calculatePublicKeyId N P pem = .ok keyId := by
  have hstep : ∀ (m : TrustedKeyring) pem, m.get (keyIdOf N P pem) = none →
      ∀ m', addTrustedKey N P m pem = .ok m' ↔
        ∃ v, ((calculatePublicKeyId N P pem).toOption.map fun _ => pem) = some v ∧
          m' = m.set (keyIdOf N P pem) v := by
    intro m pem hfree m'
    rw [addTrustedKey_ok_iff]
    cases hpem : calculatePublicKeyId N P pem with
    | error message => simp [Except.toOption]
    | ok id =>
      rw [keyIdOf_eq hpem] at hfree ⊢
      simp [Except.toOption, hfree]
  have hfresh : ∀ pem ∈ pems,
      (OrderedMap.empty : TrustedKeyring).get (keyIdOf N P pem) = none := fun _ _ => rfl
  obtain ⟨keyring, hkeyring⟩ := (OrderedMap.foldlM_ok_iff _ _ hstep hnodup hfresh).mpr <| by
    intro pem hpem
    obtain ⟨keyId, hkeyId⟩ := hid pem hpem
    rw [hkeyId]
    rfl
  refine ⟨keyring, ?_, ?_⟩
  · rw [createTrustedKeyring, if_neg (List.length_eq_zero_iff.not.mpr hne)]
    exact hkeyring
  · intro keyId pem
    rw [OrderedMap.get_foldlM _ _ hstep hnodup hfresh hkeyring]
    refine ⟨fun h => ?_, fun h => ?_⟩
    · rcases h with h | ⟨x, hx, hkey, hvalue⟩
      · cases h
      · obtain ⟨id, hcalculated⟩ := hid x hx
        rw [hcalculated] at hvalue
        obtain rfl : x = pem := Option.some.inj hvalue
        rw [keyIdOf_eq hcalculated] at hkey
        exact ⟨hx, hkey ▸ hcalculated⟩
    · exact .inr ⟨pem, h.1, keyIdOf_eq h.2, by rw [h.2]; rfl⟩

end Entries

end ShieldWard.Edge
