import ShieldWard.Edge.BundleParserTheorems
import ShieldWard.Edge.Verify

/-!
# What verification establishes

A value is accepted exactly when it parses and the checks of `verifyBundleEnvelope` hold of
what was parsed.
-/

namespace ShieldWard.Edge

open Bytes

@[simp] theorem refuse_ne_ok {α : Type} {message : String} {a : α} :
    (refuse message : Checked α) = .ok a ↔ False := by
  simp [refuse]

theorem importTrustedPublicKey_ok_iff {P : Platform} {pem expectedKeyId : String}
    {key : P.crypto.CryptoKey} :
    importTrustedPublicKey P pem expectedKeyId = .ok key ↔
      ∃ spki raw, decodePublicKeyPem pem = .ok spki ∧ P.crypto.importSpki spki = some key ∧
        P.crypto.exportRaw key = some raw ∧ sha256Text P raw = expectedKeyId := by
  unfold importTrustedPublicKey
  rw [Except.bind_eq_ok_iff]
  refine ⟨fun h => ?_, fun h => ?_⟩
  · rcases h with ⟨spki, hspki, h⟩
    split at h
    · exact absurd h (by simp)
    · next publicKey hpublic =>
      split at h
      · exact absurd h (by simp)
      · next raw hraw =>
        split at h
        · next hequal =>
          have hkey : publicKey = key := Except.ok.inj h
          subst hkey
          exact ⟨spki, raw, hspki, hpublic, hraw, constantTimeEqual_iff.mp hequal⟩
        · exact absurd h (by simp)
  · rcases h with ⟨spki, raw, hspki, hkey, hraw, hid⟩
    refine ⟨spki, hspki, ?_⟩
    simp only [hkey, hraw]
    rw [if_pos (constantTimeEqual_iff.mpr hid)]

theorem verifyBundleVersion_ok_iff {P : Platform} {bundle : Bundle} :
    verifyBundleVersion P bundle = .ok () ↔
      bundle.version = sha256Text P (canonicalBytes P bundle.toUnversionedBundle.toJson) := by
  unfold verifyBundleVersion
  simp only
  split
  · next h => simpa using constantTimeEqual_iff.mp h
  · next h =>
    simp only [refuse_ne_ok, false_iff]
    intro heq
    exact h (constantTimeEqual_iff.mpr heq)

/-- The checks made of a parsed envelope. -/
structure Trusted (P : Platform) (keys : TrustedKeyring) (envelope : SignedBundleEnvelope)
    (key : P.crypto.CryptoKey) (signature : Bytes) : Prop where
  trusted : ∃ pem, keys.get envelope.keyId = some pem ∧
    importTrustedPublicKey P pem envelope.keyId = .ok key
  decoded : decodeBase64Url envelope.signature = .ok signature
  length : signature.length = ED25519_SIGNATURE_BYTES
  signed : P.crypto.verify key signature (canonicalBytes P envelope.bundle.toJson) = some true
  version : envelope.bundle.version =
    sha256Text P (canonicalBytes P envelope.bundle.toUnversionedBundle.toJson)

theorem verifyBundleEnvelope_ok_iff {P : Platform} {value : Json} {keys : TrustedKeyring}
    {envelope : SignedBundleEnvelope} :
    verifyBundleEnvelope P value keys = .ok envelope ↔
      parseBundleEnvelope P value = .ok envelope ∧
        ∃ key signature, Trusted P keys envelope key signature := by
  unfold verifyBundleEnvelope
  rw [Except.bind_eq_ok_iff]
  refine ⟨fun h => ?_, fun h => ?_⟩
  · rcases h with ⟨parsed, hparsed, h⟩
    split at h
    · exact absurd h (by simp)
    · next pem hpem =>
      rw [Except.bind_eq_ok_iff] at h
      rcases h with ⟨key, hkey, h⟩
      rw [Except.bind_eq_ok_iff] at h
      rcases h with ⟨signature, hsignature, h⟩
      split at h
      · exact absurd h (by simp)
      · next hlength =>
        split at h
        · exact absurd h (by simp)
        · exact absurd h (by simp)
        · next hverify =>
          rw [Except.bind_eq_ok_iff] at h
          rcases h with ⟨_, hversion, h⟩
          have heq : parsed = envelope := Except.ok.inj h
          subst heq
          exact ⟨hparsed, key, signature, ⟨⟨pem, hpem, hkey⟩, hsignature,
            not_not.mp hlength, hverify, verifyBundleVersion_ok_iff.mp hversion⟩⟩
  · rcases h with ⟨hparsed, key, signature, htrusted⟩
    rcases htrusted.trusted with ⟨pem, hpem, hkey⟩
    refine ⟨envelope, hparsed, ?_⟩
    simp only [hpem, Except.bind_eq_ok_iff]
    refine ⟨key, hkey, signature, htrusted.decoded, ?_⟩
    rw [if_neg (not_not.mpr htrusted.length)]
    simp only [htrusted.signed, Except.bind_eq_ok_iff]
    exact ⟨(), verifyBundleVersion_ok_iff.mpr htrusted.version, trivial⟩

/-- An accepted envelope is valid. -/
theorem verifyBundleEnvelope_valid {P : Platform} {value : Json} {keys : TrustedKeyring}
    {envelope : SignedBundleEnvelope} (h : verifyBundleEnvelope P value keys = .ok envelope) :
    envelope.Valid P :=
  (parseBundleEnvelope_ok_iff.mp (verifyBundleEnvelope_ok_iff.mp h).1).2

/-! ## Versions -/

/-- The request counts of the bundles are written in decimal digits, and the digest of no two of
their canonical forms is the same. -/
structure Distinguished (P : Platform) (bundles : List Bundle) : Prop where
  decimal : ∀ bundle ∈ bundles, ∀ route ∈ bundle.routes, ∀ rateLimit,
    route.rateLimit = some rateLimit → ∀ n : ℕ, rateLimit.requests = n →
      P.numberText n = toString n
  digest : ∀ bundle ∈ bundles, ∀ bundle' ∈ bundles,
    P.crypto.sha256 (canonicalBytes P bundle.toUnversionedBundle.toJson) =
        P.crypto.sha256 (canonicalBytes P bundle'.toUnversionedBundle.toJson) →
      canonicalBytes P bundle.toUnversionedBundle.toJson =
        canonicalBytes P bundle'.toUnversionedBundle.toJson

/-- A request count that is written in decimal digits. -/
def IsDecimal (P : Platform) (n : Ecma.Number) : Prop :=
  ∃ k : ℕ, n = k ∧ P.numberText n = toString k

theorem numerals_isDecimal (P : Platform) : Json.Numerals P.numberText (IsDecimal P) where
  nonempty := by
    rintro n ⟨k, _, htext⟩
    rw [htext]
    exact Nat.repr_ne_empty
  digits := by
    rintro n ⟨k, _, htext⟩ c hc
    rw [htext] at hc
    exact Nat.isDigit_of_mem_toDigits (by decide) (by decide) (Nat.toList_repr ▸ hc)
  injective := by
    rintro m n ⟨j, hm, hj⟩ ⟨k, hn, hk⟩ h
    rw [hj, hk, Nat.toString_eq_repr, Nat.toString_eq_repr] at h
    rw [hm, hn, Json.eq_of_repr_eq h]

/-- What the bundle is without its version, and its version, is all that it is. -/
theorem Bundle.eq_of_equiv {P : Platform} {bundle bundle' : Bundle} (hvalid : bundle.Valid P)
    (hvalid' : bundle'.Valid P) (hversion : bundle.version = bundle'.version)
    (h : Json.Equiv bundle.toUnversionedBundle.toJson bundle'.toUnversionedBundle.toJson) :
    bundle = bundle' := by
  have hfull : Json.Equiv bundle.toJson bundle'.toJson := by
    have happend := h.append "version" (.string bundle.version)
    unfold Bundle.toJson
    rwa [← hversion]
  have hself : Json.Equiv bundle'.toJson bundle'.toJson := by
    have hlegible : Json.Legible (fun _ => True) bundle'.toUnversionedBundle.toJson :=
      UnversionedBundle.legible_toJson fun _ _ _ _ => trivial
    exact (Json.Equiv.refl hlegible).append "version" (.string bundle'.version)
  -- one value parses to both
  have hparse : parseBundle P (some bundle'.toJson) = .ok bundle :=
    parseBundle_ok_iff.mpr ⟨Json.sameField_some_some.mpr hfull, hvalid⟩
  have hparse' : parseBundle P (some bundle'.toJson) = .ok bundle' :=
    parseBundle_ok_iff.mpr ⟨Json.sameField_some_some.mpr hself, hvalid'⟩
  exact Except.ok.inj (hparse.symm.trans hparse')

/-- Verified bundles of one version are one bundle. -/
theorem Distinguished.eq_of_version {P : Platform} {bundles : List Bundle}
    (h : Distinguished P bundles)
    (hverified : ∀ bundle ∈ bundles, bundle.Valid P ∧ verifyBundleVersion P bundle = .ok ())
    {bundle bundle' : Bundle} (hbundle : bundle ∈ bundles) (hbundle' : bundle' ∈ bundles)
    (hversion : bundle.version = bundle'.version) : bundle = bundle' := by
  have hlegible : ∀ b ∈ bundles, Json.Legible (IsDecimal P) b.toUnversionedBundle.toJson := by
    intro b hb
    refine UnversionedBundle.legible_toJson fun route hroute rateLimit hlimit => ?_
    have hroute' := (hverified b hb).1.routes.2 route hroute
    have hrequests := (hroute'.rateLimit rateLimit hlimit).requests
    have hcount := Ecma.natCast_toNat_num (x := rateLimit.requests) (by
      simpa [hrequests.1] using hrequests.2)
    refine ⟨rateLimit.requests.num.toNat, hcount.symm, ?_⟩
    have hdecimal := h.decimal b hb route hroute rateLimit hlimit _ hcount.symm
    rwa [hcount] at hdecimal
  have hsame : sha256Text P (canonicalBytes P bundle.toUnversionedBundle.toJson) =
      sha256Text P (canonicalBytes P bundle'.toUnversionedBundle.toJson) := by
    rw [← verifyBundleVersion_ok_iff.mp (hverified bundle hbundle).2, hversion]
    exact verifyBundleVersion_ok_iff.mp (hverified bundle' hbundle').2
  have hdigest := hex_injective (String.append_right_inj _ |>.mp hsame)
  have htext := utf8_injective (h.digest bundle hbundle bundle' hbundle' hdigest)
  exact Bundle.eq_of_equiv (hverified bundle hbundle).1 (hverified bundle' hbundle').1 hversion
    (.of_canonicalize_eq (numerals_isDecimal P) (hlegible bundle hbundle)
      (hlegible bundle' hbundle') htext)

end ShieldWard.Edge
