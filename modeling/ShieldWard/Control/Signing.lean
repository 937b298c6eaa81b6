import ShieldWard.Control.Compiler
import ShieldWard.Lib.Base64

/-!
# Signing

`internal/signing`: the envelope, `Sign`, and the PEM form of a public key.
-/

namespace ShieldWard.Control

open Bytes

def AlgorithmEd25519 : String := "Ed25519"

def PrivateKeySize : ℕ := 64

def PublicKeySize : ℕ := 32

structure Envelope where
  algorithm : String
  keyID : String
  bundle : Bundle
  signature : String
deriving DecidableEq, Repr

def Envelope.toJson (envelope : Envelope) : Json :=
  .object [("algorithm", .string envelope.algorithm), ("keyId", .string envelope.keyID),
    ("bundle", envelope.bundle.toJson), ("signature", .string envelope.signature)]

/-- `privateKey.Public()`: the second half of the private key. -/
def publicKey (privateKey : Bytes) : Bytes := privateKey.drop 32

def publicKeyID (G : GoPlatform) (key : Bytes) : Except String String :=
  if key.length ≠ PublicKeySize then .error "public key must contain 32 bytes"
  else .ok (sha256Text G key)

def validateBundleVersion (G : GoPlatform) (bundle : Bundle) : Except String Unit :=
  if bundle.version = "" then .error "bundle version must not be empty"
  else if bundle.version ≠ sha256Text G (canonicalMarshal G { bundle with version := "" }.toJson)
    then .error "bundle version does not match its content"
  else .ok ()

/-- `base64.RawURLEncoding.EncodeToString`. -/
def encodeRawURL (bytes : Bytes) : String := String.ofList (Base64.encodeRaw '-' '_' bytes)

def sign (G : GoPlatform) (bundle : Bundle) (privateKey : Bytes) : Except String Envelope := do
  if privateKey.length ≠ PrivateKeySize then .error "private key must contain 64 bytes"
  else
    validateBundleVersion G bundle
    let keyID ← publicKeyID G (publicKey privateKey)
    let payload := canonicalMarshal G bundle.toJson
    let signature := G.sign privateKey payload
    .ok { algorithm := AlgorithmEd25519, keyID, bundle, signature := encodeRawURL signature }

/-! ## The PEM form of a public key -/

/-- What stands before the key in its DER form: the `SubjectPublicKeyInfo` of RFC 8410. -/
def ed25519Header : Bytes := [0x30, 0x2a, 0x30, 0x05, 0x06, 0x03, 0x2b, 0x65, 0x70, 0x03, 0x21, 0x00]

/-- `x509.MarshalPKIXPublicKey`. -/
def marshalPKIXPublicKey (key : Bytes) : Bytes := ed25519Header ++ key

/-- Lines of 64 characters, each with its line feed. Every line takes a character, so `fuel`
may be the length of the text. -/
def pemLines : ℕ → List Char → List Char
  | _, [] => []
  | 0, _ :: _ => []
  | fuel + 1, text => text.take 64 ++ '\n' :: pemLines fuel (text.drop 64)

/-- `EncodePublicKeyPEM`, for a key of the right length. -/
def encodePublicKeyPEM (key : Bytes) : String :=
  let body := Base64.encode (marshalPKIXPublicKey key)
  "-----BEGIN PUBLIC KEY-----\n" ++ String.ofList (pemLines body.length body) ++
    "-----END PUBLIC KEY-----\n"

end ShieldWard.Control
