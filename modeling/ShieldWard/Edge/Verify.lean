import ShieldWard.Edge.BundleParser
import ShieldWard.Lib.Base64
import ShieldWard.Lib.OrderedMap

/-!
# Verification of a signed bundle

`edge/src/verify.ts`. The steps are those of the source in their order; each await is of an
operation of the platform, so the whole is a function of the value and the keyring.
-/

namespace ShieldWard.Edge

open Ecma Bytes

def ED25519_SIGNATURE_BYTES : ℕ := 64

/-- Public keys in PEM form by their key ID. -/
abbrev TrustedKeyring := OrderedMap String String

def refuse {α : Type} (message : String) : Checked α := .error (.verification message)

/-! ## Base64 and PEM -/

def decodeBase64 (value : List Char) : Checked Bytes :=
  match Base64.atob value with
  | none => refuse "value is not valid base64 data"
  | some bytes => .ok bytes

/-- The character of the standard alphabet for one of the URL-safe alphabet. -/
def fromUrlSafe (c : Char) : Char := if c = '-' then '+' else if c = '_' then '/' else c

def decodeBase64Url (value : String) : Checked Bytes :=
  decodeBase64 (Base64.pad (value.toList.map fromUrlSafe))

def pemHeader : List Char := "-----BEGIN PUBLIC KEY-----".toList

def pemFooter : List Char := "-----END PUBLIC KEY-----".toList

/-- `[A-Za-z0-9+/=\s]`. -/
def isPemCharacter (c : Char) : Bool :=
  ('A' ≤ c && c ≤ 'Z') || ('a' ≤ c && c ≤ 'z') || ('0' ≤ c && c ≤ '9') ||
    c = '+' || c = '/' || c = '=' || isWhiteSpace c

/-- The text between the boundaries. The pattern of the source lets white space be taken by
the group or by what stands around it; it is removed from the group afterwards. -/
def pemBody (pem : String) : Option (List Char) :=
  let text := (trim pem).toList
  let rest := text.drop pemHeader.length
  let body := rest.take (rest.length - pemFooter.length)
  if pemHeader.isPrefixOf text && pemFooter.isSuffixOf rest && body ≠ [] &&
      body.all isPemCharacter then
    some body
  else none

def decodePublicKeyPem (pem : String) : Checked Bytes :=
  match pemBody pem with
  | none => refuse "trusted public key must use PUBLIC KEY PEM format"
  | some body => decodeBase64 (body.filter fun c => !isWhiteSpace c)

/-! ## Verification -/

/-- `sha256:` and the digest in hexadecimal. -/
def sha256Text (P : Platform) (bytes : Bytes) : String := "sha256:" ++ hex (P.crypto.sha256 bytes)

/-- `canonicalBytes`. The canonical form of an object is never `undefined`. -/
def canonicalBytes (P : Platform) (value : Json) : Bytes :=
  utf8 (value.canonicalize P.numberText)

def importTrustedPublicKey (P : Platform) (pem expectedKeyId : String) :
    Checked P.crypto.CryptoKey := do
  let spki ← decodePublicKeyPem pem
  match P.crypto.importSpki spki with
  | none => refuse "trusted public key is not a valid Ed25519 SPKI key"
  | some publicKey =>
    match P.crypto.exportRaw publicKey with
    | none => refuse "trusted Ed25519 public key could not be exported"
    | some rawPublicKey =>
      if constantTimeEqual (sha256Text P rawPublicKey) expectedKeyId then .ok publicKey
      else refuse "trusted public key does not match the envelope key ID"

def verifyBundleVersion (P : Platform) (bundle : Bundle) : Checked Unit :=
  let expectedVersion := sha256Text P (canonicalBytes P bundle.toUnversionedBundle.toJson)
  if constantTimeEqual bundle.version expectedVersion then .ok ()
  else refuse "bundle version does not match its content"

def verifyBundleEnvelope (P : Platform) (value : Json) (trustedKeys : TrustedKeyring) :
    Checked SignedBundleEnvelope := do
  let envelope ← parseBundleEnvelope P value
  match trustedKeys.get envelope.keyId with
  | none => refuse ("unknown signing key " ++ envelope.keyId)
  | some publicKeyPem =>
    let publicKey ← importTrustedPublicKey P publicKeyPem envelope.keyId
    let signature ← decodeBase64Url envelope.signature
    if signature.length ≠ ED25519_SIGNATURE_BYTES then refuse "signature must contain 64 bytes"
    else
      match P.crypto.verify publicKey signature (canonicalBytes P envelope.bundle.toJson) with
      | none => refuse "Ed25519 signature verification could not be completed"
      | some false => refuse "bundle signature verification failed"
      | some true =>
        verifyBundleVersion P envelope.bundle
        .ok envelope

end ShieldWard.Edge
