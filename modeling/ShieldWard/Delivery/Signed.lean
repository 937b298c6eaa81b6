import ShieldWard.Control.Store
import ShieldWard.Edge.VerifyTheorems

/-!
# What is signed is what is enforced

The control plane signs the canonical form of a bundle; the edge checks the signature over
the canonical form of what it parsed. An accepted value is the JSON form of the parsed
envelope up to the order of fields, and the canonical form does not see that order, so both
speak of the bundle that travelled.
-/

namespace ShieldWard.Delivery

open Json Bytes

/-! ## Base64 and PEM across the languages -/

theorem fromUrlSafe_digit :
    ∀ n < 64, Edge.fromUrlSafe (Base64.digit '-' '_' n) = Base64.digit '+' '/' n := by decide

/-- The edge decodes what the control plane encodes. -/
theorem decodeBase64Url_encodeRawURL (bytes : Bytes) :
    Edge.decodeBase64Url (Control.encodeRawURL bytes) = .ok bytes := by
  have hmap : (Base64.encodeRaw '-' '_' bytes).map Edge.fromUrlSafe =
      Base64.encodeRaw '+' '/' bytes := by
    rw [Base64.encodeRaw, Base64.encodeRaw, List.map_map]
    apply List.map_congr_left
    intro n hn
    exact fromUrlSafe_digit n (Base64.sextets_lt hn)
  have hatob := Base64.atob_encode bytes
  unfold Base64.encode at hatob
  unfold Edge.decodeBase64Url Edge.decodeBase64 Control.encodeRawURL
  rw [String.toList_ofList, hmap, hatob]

/-- The characters of padded base64 text. -/
theorem mem_encode {bytes : Bytes} {c : Char} (h : c ∈ Base64.encode bytes) :
    c = '=' ∨ ∃ n < 64, c = Base64.digit '+' '/' n := by
  rw [Base64.encode, Base64.pad, List.mem_append] at h
  rcases h with h | h
  · rcases List.mem_map.mp h with ⟨n, hn, rfl⟩
    exact .inr ⟨n, Base64.sextets_lt hn, rfl⟩
  · exact .inl (List.eq_of_mem_replicate h)

theorem not_isWhiteSpace_digit :
    ∀ n < 64, Ecma.isWhiteSpace (Base64.digit '+' '/' n) = false := by decide

theorem isPemCharacter_digit :
    ∀ n < 64, Edge.isPemCharacter (Base64.digit '+' '/' n) = true := by decide

theorem not_isWhiteSpace_of_mem_encode {bytes : Bytes} {c : Char}
    (h : c ∈ Base64.encode bytes) : Ecma.isWhiteSpace c = false := by
  rcases mem_encode h with rfl | ⟨n, hn, rfl⟩
  · decide
  · exact not_isWhiteSpace_digit n hn

theorem isPemCharacter_of_mem_encode {bytes : Bytes} {c : Char}
    (h : c ∈ Base64.encode bytes) : Edge.isPemCharacter c = true := by
  rcases mem_encode h with rfl | ⟨n, hn, rfl⟩
  · decide
  · exact isPemCharacter_digit n hn

/-- The lines hold the characters of the text and line feeds. -/
theorem mem_pemLines {fuel : ℕ} {text : List Char} {c : Char}
    (h : c ∈ Control.pemLines fuel text) : c = '\n' ∨ c ∈ text := by
  induction fuel generalizing text with
  | zero => cases text <;> simp [Control.pemLines] at h
  | succ fuel ih =>
    cases text with
    | nil => simp [Control.pemLines] at h
    | cons d ds =>
      rw [Control.pemLines, List.mem_append, List.mem_cons] at h
      · rcases h with h | h | h
        · exact .inr (List.mem_of_mem_take h)
        · exact .inl h
        · rcases ih h with h | h
          · exact .inl h
          · exact .inr (List.mem_of_mem_drop h)
      · simp

/-- Removing the white space of the lines gives the text back. -/
theorem filter_pemLines {fuel : ℕ} {text : List Char} (hfuel : text.length ≤ fuel)
    (htext : ∀ c ∈ text, Ecma.isWhiteSpace c = false) :
    (Control.pemLines fuel text).filter (fun c => !Ecma.isWhiteSpace c) = text := by
  induction fuel generalizing text with
  | zero =>
    have hnil : text = [] := List.length_eq_zero_iff.mp (by omega)
    simp [hnil, Control.pemLines]
  | succ fuel ih =>
    cases text with
    | nil => simp [Control.pemLines]
    | cons d ds =>
      have htake : ((d :: ds).take 64).filter (fun c => !Ecma.isWhiteSpace c) =
          (d :: ds).take 64 := by
        apply List.filter_eq_self.mpr
        intro c hc
        rw [htext c (List.mem_of_mem_take hc)]
        rfl
      have hlength : ((d :: ds).drop 64).length ≤ fuel := by
        simp only [List.length_drop, List.length_cons] at hfuel ⊢
        omega
      have hdrop := ih hlength fun c hc => htext c (List.mem_of_mem_drop hc)
      have hnewline : Ecma.isWhiteSpace '\n' = true := by decide
      rw [Control.pemLines, List.filter_append, List.filter_cons, htake, hdrop, hnewline]
      · simp
      · simp

/-- Trimming a text that starts and ends with a visible character and a line feed after it. -/
theorem trim_line {a b : Char} {cs : List Char} (ha : Ecma.isWhiteSpace a = false)
    (hb : Ecma.isWhiteSpace b = false) :
    (Ecma.trim (String.ofList (a :: cs ++ [b] ++ ['\n']))).toList = a :: cs ++ [b] := by
  have hnewline : Ecma.isWhiteSpace '\n' = true := by decide
  rw [Ecma.trim, String.toList_ofList, String.toList_ofList]
  have hdrop : (a :: cs ++ [b] ++ ['\n']).dropWhile Ecma.isWhiteSpace =
      a :: cs ++ [b] ++ ['\n'] := by
    simp [ha]
  rw [hdrop, List.rdropWhile_concat_pos _ _ _ hnewline,
    List.rdropWhile_concat_neg _ _ _ (by simp [hb])]

/-- The characters of a PEM file around its lines. -/
theorem toList_encodePublicKeyPEM (key : Bytes) :
    (Control.encodePublicKeyPEM key).toList =
      Edge.pemHeader ++ '\n' :: Control.pemLines (Base64.encode
        (Control.marshalPKIXPublicKey key)).length (Base64.encode
        (Control.marshalPKIXPublicKey key)) ++ Edge.pemFooter ++ ['\n'] := by
  have hheader : "-----BEGIN PUBLIC KEY-----\n".toList = Edge.pemHeader ++ ['\n'] := by decide
  have hfooter : "-----END PUBLIC KEY-----\n".toList = Edge.pemFooter ++ ['\n'] := by decide
  unfold Control.encodePublicKeyPEM
  rw [String.toList_append, String.toList_append, hheader, hfooter, String.toList_ofList]
  simp only [List.append_assoc, List.cons_append, List.nil_append]

/-- The edge reads back the key that the control plane writes in PEM form. -/
theorem decodePublicKeyPem_encode (key : Bytes) :
    Edge.decodePublicKeyPem (Control.encodePublicKeyPEM key) =
      .ok (Control.marshalPKIXPublicKey key) := by
  let body := Base64.encode (Control.marshalPKIXPublicKey key)
  let block := '\n' :: Control.pemLines body.length body
  have htext : (Ecma.trim (Control.encodePublicKeyPEM key)).toList =
      Edge.pemHeader ++ block ++ Edge.pemFooter := by
    have hheader : Edge.pemHeader = '-' :: Edge.pemHeader.tail := by decide
    have hfooter : Edge.pemFooter = Edge.pemFooter.dropLast ++ ['-'] := by decide
    have hchars : Control.encodePublicKeyPEM key = String.ofList
        ('-' :: (Edge.pemHeader.tail ++ block ++ Edge.pemFooter.dropLast) ++ ['-'] ++ ['\n']) := by
      apply String.toList_inj.mp
      rw [toList_encodePublicKeyPEM, String.toList_ofList]
      nth_rewrite 1 [hheader, hfooter]
      simp only [List.append_assoc, List.cons_append]
      rfl
    rw [hchars, trim_line (by decide) (by decide)]
    nth_rewrite 2 [hheader, hfooter]
    simp only [List.append_assoc, List.cons_append]
  have hpem : block.all Edge.isPemCharacter = true := by
    rw [List.all_eq_true]
    intro c hc
    rcases List.mem_cons.mp hc with rfl | hc
    · decide
    · rcases mem_pemLines hc with rfl | hc
      · decide
      · exact isPemCharacter_of_mem_encode hc
  have hbody : Edge.pemBody (Control.encodePublicKeyPEM key) = some block := by
    have hrest : (Edge.pemHeader ++ block ++ Edge.pemFooter).drop Edge.pemHeader.length =
        block ++ Edge.pemFooter := by
      rw [List.append_assoc, List.drop_left]
    have htake : (block ++ Edge.pemFooter).take
        ((block ++ Edge.pemFooter).length - Edge.pemFooter.length) = block := by
      rw [List.length_append, Nat.add_sub_cancel, List.take_left]
    unfold Edge.pemBody
    simp only [htext, hrest, htake]
    rw [if_pos]
    simp [hpem, List.append_assoc, block]
  have hfilter : block.filter (fun c => !Ecma.isWhiteSpace c) = body := by
    have hnewline : Ecma.isWhiteSpace '\n' = true := by decide
    rw [List.filter_cons, hnewline, filter_pemLines (Nat.le_refl _)]
    · simp
    · exact fun c hc => not_isWhiteSpace_of_mem_encode hc
  unfold Edge.decodePublicKeyPem Edge.decodeBase64
  simp only [hbody, hfilter]
  rw [Base64.atob_encode]

/-! ## The bundle inside an accepted value -/

/-- The bundle of the received value is the bundle that was parsed. -/
theorem lookup_bundle {envelope : Edge.SignedBundleEnvelope} {value : Json}
    (h : Equiv envelope.toJson value) :
    ∃ fields bundleFields, value = .object fields ∧
      fields.lookup "bundle" = some (.object bundleFields) ∧
      Equiv envelope.bundle.toJson (.object bundleFields) := by
  rcases equiv_object_iff.mp h with ⟨fields, hvalue, hsame⟩
  have hbundle := hsame "bundle"
  simp [List.lookup_cons] at hbundle
  rcases sameField_some_iff.mp hbundle with ⟨y, hy, heq⟩
  rcases equiv_object_iff.mp heq with ⟨bundleFields, rfl, _⟩
  exact ⟨fields, bundleFields, hvalue, hy, heq⟩

/-- Without its version the parsed bundle is what remains of the received one. -/
theorem equiv_unversioned {bundle : Edge.Bundle} {bundleFields : Fields}
    (h : Equiv bundle.toJson (.object bundleFields)) :
    Equiv bundle.toUnversionedBundle.toJson
      (.object (bundleFields.filter fun f => f.1 ≠ "version")) := by
  have herase := h.erase "version"
  have hfields : List.filter (fun f => decide (f.1 ≠ "version"))
      (bundle.toUnversionedBundle.fields ++ [("version", Json.string bundle.version)]) =
        bundle.toUnversionedBundle.fields := by
    simp [Edge.UnversionedBundle.fields]
  rwa [hfields] at herase

/-- What the edge hashes and checks the signature over is the canonical form of the bundle
that it received. -/
theorem canonicalBytes_eq {P : Edge.Platform} {bundle : Edge.Bundle} {bundleFields : Fields}
    (h : Equiv bundle.toJson (.object bundleFields)) (hwf : WellFormed (.object bundleFields)) :
    Edge.canonicalBytes P bundle.toJson =
        utf8 ((Json.object bundleFields).canonicalize P.numberText) ∧
      Edge.canonicalBytes P bundle.toUnversionedBundle.toJson =
        utf8 ((Json.object (bundleFields.filter fun f => f.1 ≠ "version")).canonicalize
          P.numberText) := by
  have hfull : bundle.toJson.canonicalize P.numberText = _ :=
    h.canonicalize_eq bundle.wellFormed_toJson hwf
  have hrest : bundle.toUnversionedBundle.toJson.canonicalize P.numberText = _ :=
    (equiv_unversioned h).canonicalize_eq bundle.toUnversionedBundle.wellFormed_toJson (hwf.erase "version")
  unfold Edge.canonicalBytes
  rw [hfull, hrest]
  exact ⟨rfl, rfl⟩

/-! ## The two sides agree -/

/-- What the two sides assume of each other's platform: one canonicalizer, one hash, and a
verifier that accepts the signatures of the private key under its public key. -/
structure Agree (P : Edge.Platform) (G : Control.GoPlatform) (privateKey : Bytes) : Prop where
  numberText : G.numberText = P.numberText
  sha256 : G.sha256 = P.crypto.sha256
  signature_length : ∀ message, (G.sign privateKey message).length = 64
  verifies : ∃ key,
    P.crypto.importSpki (Control.marshalPKIXPublicKey (Control.publicKey privateKey)) = some key ∧
      P.crypto.exportRaw key = some (Control.publicKey privateKey) ∧
      ∀ message, P.crypto.verify key (G.sign privateKey message) message = some true

/-- What a successful `Sign` puts in the envelope. -/
theorem sign_ok {G : Control.GoPlatform} {bundle : Control.Bundle} {privateKey : Bytes}
    {envelope : Control.Envelope} (h : Control.sign G bundle privateKey = .ok envelope) :
    bundle.version ≠ "" ∧
      bundle.version = Control.sha256Text G
        (Control.canonicalMarshal G { bundle with version := "" }.toJson) ∧
      envelope = {
        algorithm := Control.AlgorithmEd25519
        keyID := Control.sha256Text G (Control.publicKey privateKey)
        bundle := bundle
        signature := Control.encodeRawURL
          (G.sign privateKey (Control.canonicalMarshal G bundle.toJson)) } := by
  unfold Control.sign at h
  split at h
  · cases h
  · simp only [Except.bind_eq_ok_iff] at h
    rcases h with ⟨_, hversion, keyID, hkeyID, h⟩
    unfold Control.validateBundleVersion at hversion
    split_ifs at hversion with hempty hhash
    unfold Control.publicKeyID at hkeyID
    split_ifs at hkeyID
    have hid := Except.ok.inj hkeyID
    have henvelope := Except.ok.inj h
    rw [← hid] at henvelope
    exact ⟨hempty, not_not.mp hhash, henvelope.symm⟩

/-- The fields of the JSON form of a bundle with a version. -/
theorem toJson_versioned {bundle : Control.Bundle} (h : bundle.version ≠ "") :
    ∃ fields, bundle.toJson = .object fields ∧
      fields.lookup "version" = some (.string bundle.version) ∧
      { bundle with version := "" }.toJson =
        .object (fields.filter fun f => f.1 ≠ "version") := by
  refine ⟨_, rfl, ?_, ?_⟩
  · simp [Control.omitEmpty, h, List.lookup_cons]
  · simp [Control.Bundle.toJson, Control.omitEmpty, h]

/-- What the edge reads of a signed envelope passes its checks. -/
theorem trusted_of_sign {P : Edge.Platform} {G : Control.GoPlatform} {privateKey : Bytes}
    (hagree : Agree P G privateKey) {bundle : Control.Bundle} {envelope : Control.Envelope}
    (hsign : Control.sign G bundle privateKey = .ok envelope) {keys : Edge.TrustedKeyring}
    (hkeys : keys.get envelope.keyID =
      some (Control.encodePublicKeyPEM (Control.publicKey privateKey)))
    {parsed : Edge.SignedBundleEnvelope} (hparsed : Equiv parsed.toJson envelope.toJson) :
    ∃ key signature, Edge.Trusted P keys parsed key signature := by
  have ⟨hversion, hhash, henvelope⟩ := sign_ok hsign
  have ⟨key, himport, hexport, hverify⟩ := hagree.verifies
  have ⟨fields, bundleFields, hobject, hbundle, hequiv⟩ := lookup_bundle hparsed
  have ⟨_, hfields, hsame⟩ := equiv_object_iff.mp hparsed
  have hkeyID : parsed.keyId = envelope.keyID := by
    have hlookup := hsame "keyId"
    rw [← Json.object.inj hfields] at hlookup
    simpa [List.lookup_cons, eq_comm] using hlookup
  have hsignature : parsed.signature = envelope.signature := by
    have hlookup := hsame "signature"
    rw [← Json.object.inj hfields] at hlookup
    simpa [List.lookup_cons, eq_comm] using hlookup
  have hbundleFields : Json.object bundleFields = bundle.toJson := by
    have hlookup : fields.lookup "bundle" = some envelope.bundle.toJson := by
      rw [← Json.object.inj hobject]
      simp [List.lookup_cons]
    rw [hbundle, henvelope] at hlookup
    exact Option.some.inj hlookup
  have ⟨versionedFields, hversioned, hlookup, hunversioned⟩ := toJson_versioned hversion
  have hsameFields : bundleFields = versionedFields :=
    Json.object.inj (hbundleFields.trans hversioned)
  have hwf : WellFormed (.object bundleFields) := hbundleFields ▸ bundle.wellFormed_toJson
  have ⟨hbytes, hrest⟩ := canonicalBytes_eq (P := P) hequiv hwf
  have hpayload : Edge.canonicalBytes P parsed.bundle.toJson =
      Control.canonicalMarshal G bundle.toJson := by
    rw [hbytes, hbundleFields, Control.canonicalMarshal, hagree.numberText]
  refine ⟨key, G.sign privateKey (Control.canonicalMarshal G bundle.toJson), ?_, ?_, ?_, ?_, ?_⟩
  · refine ⟨_, hkeyID ▸ hkeys, Edge.importTrustedPublicKey_ok_iff.mpr
      ⟨_, _, decodePublicKeyPem_encode _, himport, hexport, ?_⟩⟩
    rw [hkeyID, henvelope, Edge.sha256Text, Control.sha256Text, hagree.sha256]
  · rw [hsignature, henvelope]
    exact decodeBase64Url_encodeRawURL _
  · exact hagree.signature_length _
  · rw [hpayload]
    exact hverify _
  · have hparsedVersion : parsed.bundle.version = bundle.version := by
      rcases equiv_object_iff.mp hequiv with ⟨_, hzs, hsameBundle⟩
      have hfield := hsameBundle "version"
      rw [← Json.object.inj hzs, hsameFields, hlookup] at hfield
      simpa [Edge.UnversionedBundle.fields, List.lookup_cons, eq_comm] using hfield
    rw [hparsedVersion, hhash, hrest, hsameFields, hunversioned, Edge.sha256Text,
      Control.sha256Text, Control.canonicalMarshal, hagree.sha256, hagree.numberText]

/-! ## Both directions -/

/-- What an accepted value says: the parsed envelope is the value, field for field, and the
signature and the version were checked over the canonical form of the bundle inside it. -/
structure Enforced (P : Edge.Platform) (keys : Edge.TrustedKeyring) (value : Json)
    (envelope : Edge.SignedBundleEnvelope) : Prop where
  same : Equiv envelope.toJson value
  checked : ∃ fields bundleFields key signature, value = .object fields ∧
    fields.lookup "bundle" = some (.object bundleFields) ∧
    (∃ pem, keys.get envelope.keyId = some pem ∧
      Edge.importTrustedPublicKey P pem envelope.keyId = .ok key) ∧
    Edge.decodeBase64Url envelope.signature = .ok signature ∧
    P.crypto.verify key signature
      (utf8 ((Json.object bundleFields).canonicalize P.numberText)) = some true ∧
    envelope.bundle.version = Edge.sha256Text P
      (utf8 ((Json.object (bundleFields.filter fun f => f.1 ≠ "version")).canonicalize
        P.numberText))

theorem enforced_of_verified {P : Edge.Platform} {keys : Edge.TrustedKeyring} {value : Json}
    {envelope : Edge.SignedBundleEnvelope} (hwf : WellFormed value)
    (h : Edge.verifyBundleEnvelope P value keys = .ok envelope) :
    Enforced P keys value envelope := by
  have ⟨hparsed, key, signature, htrusted⟩ := Edge.verifyBundleEnvelope_ok_iff.mp h
  have hsame := (Edge.parseBundleEnvelope_ok_iff.mp hparsed).1
  have ⟨fields, bundleFields, hvalue, hbundle, hequiv⟩ := lookup_bundle hsame
  have hwfBundle : WellFormed (.object bundleFields) := (hvalue ▸ hwf).of_lookup hbundle
  have ⟨hbytes, hrest⟩ := canonicalBytes_eq (P := P) hequiv hwfBundle
  refine ⟨hsame, fields, bundleFields, key, signature, hvalue, hbundle, htrusted.trusted,
    htrusted.decoded, ?_, ?_⟩
  · rw [← hbytes]
    exact htrusted.signed
  · rw [← hrest]
    exact htrusted.version

/-- Signing and publishing a compiled bundle succeed. -/
theorem publish_compiled {G : Control.GoPlatform} {document : Control.Document}
    {bundle : Control.Bundle} {privateKey : Bytes}
    (hcompile : Control.compile G document = .ok bundle)
    (hlength : privateKey.length = Control.PrivateKeySize)
    (hsignature : ∀ message, (G.sign privateKey message).length = 64) :
    ∃ envelope snapshot, Control.sign G bundle privateKey = .ok envelope ∧
      Control.newSnapshot G envelope = .ok snapshot ∧ snapshot.body = envelope.toJson := by
  have htext : ∀ bytes, Control.sha256Text G bytes ≠ "" := by
    intro bytes h
    have hlist := congrArg String.toList h
    simp [Control.sha256Text] at hlist
  -- the compiler sets the version that `Sign` checks
  have ⟨hversion, hhash⟩ : bundle.version ≠ "" ∧ bundle.version = Control.sha256Text G
      (Control.canonicalMarshal G { bundle with version := "" }.toJson) := by
    unfold Control.compile at hcompile
    split at hcompile
    · cases hcompile
    · rcases Except.bind_eq_ok_iff.mp hcompile with ⟨matchers, _, h⟩
      rw [← Except.ok.inj h]
      exact ⟨htext _, rfl⟩
  have hkey : (Control.publicKey privateKey).length = Control.PublicKeySize := by
    rw [Control.publicKey, List.length_drop, hlength]
    rfl
  let envelope : Control.Envelope := {
    algorithm := Control.AlgorithmEd25519
    keyID := Control.sha256Text G (Control.publicKey privateKey)
    bundle := bundle
    signature := Control.encodeRawURL
      (G.sign privateKey (Control.canonicalMarshal G bundle.toJson)) }
  have hsign : Control.sign G bundle privateKey = .ok envelope := by
    unfold Control.sign
    rw [if_neg (not_not.mpr hlength)]
    refine Except.bind_eq_ok_iff.mpr ⟨(), ?_, Except.bind_eq_ok_iff.mpr ⟨_, ?_, rfl⟩⟩
    · unfold Control.validateBundleVersion
      rw [if_neg hversion, if_neg (not_not.mpr hhash)]
    · unfold Control.publicKeyID
      rw [if_neg (not_not.mpr hkey)]
  -- 64 bytes do not encode to an empty text
  have hsig : envelope.signature ≠ "" := by
    intro h
    have hlist := congrArg String.toList h
    have hlen := Base64.length_encodeRaw '-' '_'
      (G.sign privateKey (Control.canonicalMarshal G bundle.toJson))
    rw [hsignature] at hlen
    have hnil : Base64.encodeRaw '-' '_'
        (G.sign privateKey (Control.canonicalMarshal G bundle.toJson)) = [] := by
      simpa [envelope, Control.encodeRawURL] using hlist
    rw [hnil] at hlen
    simp at hlen
  refine ⟨envelope, ⟨envelope.toJson, Control.quote G envelope.bundle.version,
    envelope.bundle.version⟩, hsign, ?_, rfl⟩
  have halgorithm : Control.AlgorithmEd25519 ≠ "" := by decide
  unfold Control.newSnapshot
  rw [if_neg halgorithm, if_neg (htext _), if_neg hversion, if_neg hsig]

/-- What is signed is what is enforced: every accepted value is the enforced envelope, with
the signature and the version over its canonical form, and every compiled bundle that is
signed and served is accepted under its key once its shape is. -/
theorem signed_is_enforced (P : Edge.Platform) :
    (∀ keys value envelope, WellFormed value →
        Edge.verifyBundleEnvelope P value keys = .ok envelope →
          Enforced P keys value envelope) ∧
      ∀ (G : Control.GoPlatform) (privateKey : Bytes), Agree P G privateKey →
        privateKey.length = Control.PrivateKeySize →
          ∀ document bundle, Control.compile G document = .ok bundle →
            ∃ envelope snapshot, Control.sign G bundle privateKey = .ok envelope ∧
              Control.newSnapshot G envelope = .ok snapshot ∧
              ∀ keys : Edge.TrustedKeyring,
                keys.get envelope.keyID =
                    some (Control.encodePublicKeyPEM (Control.publicKey privateKey)) →
                  ∀ parsed, Edge.parseBundleEnvelope P snapshot.body = .ok parsed →
                    Edge.verifyBundleEnvelope P snapshot.body keys = .ok parsed := by
  refine ⟨fun keys value envelope hwf h => enforced_of_verified hwf h, ?_⟩
  intro G privateKey hagree hlength document bundle hcompile
  have ⟨envelope, snapshot, hsign, hsnapshot, hbody⟩ :=
    publish_compiled hcompile hlength hagree.signature_length
  refine ⟨envelope, snapshot, hsign, hsnapshot, fun keys hkeys parsed hparsed => ?_⟩
  rw [hbody] at hparsed ⊢
  have hequiv := (Edge.parseBundleEnvelope_ok_iff.mp hparsed).1
  exact Edge.verifyBundleEnvelope_ok_iff.mpr
    ⟨hparsed, trusted_of_sign hagree hsign hkeys hequiv⟩

/-! ## A published policy -/

namespace Orders

/-- The public key of the seed whose bytes are all 7. -/
def publicKey : Bytes :=
  [234, 74, 108, 99, 226, 156, 82, 10, 190, 245, 80, 123, 19, 46, 197, 249, 149, 71, 118, 174,
   190, 190, 123, 146, 66, 30, 234, 105, 20, 70, 210, 44]

def privateKey : Bytes := List.replicate 32 7 ++ publicKey

/-- The SHA-256 digest of the public key. -/
def keyDigest : Bytes :=
  [254, 129, 44, 18, 243, 171, 76, 230, 172, 93, 182, 154, 195, 82, 249, 6, 203, 27, 17, 239, 67,
   251, 51, 226, 82, 239, 127, 245, 82, 38, 56, 137]

/-- The digest of the public key of the seed whose bytes are all 8. -/
def nextKeyDigest : Bytes :=
  [92, 41, 183, 143, 16, 163, 90, 73, 166, 35, 29, 8, 238, 132, 10, 4, 188, 195, 163, 122, 79, 157,
   70, 223, 50, 125, 236, 86, 184, 169, 183, 201]

/-- The SHA-256 digest of the canonical form of the bundle without its version. -/
def bundleDigest : Bytes :=
  [185, 152, 244, 75, 4, 218, 26, 74, 124, 62, 223, 105, 160, 109, 228, 135, 59, 28, 25, 176, 27,
   21, 195, 165, 146, 155, 124, 182, 234, 172, 252, 232]

/-- The Ed25519 signature of the canonical form of the bundle. -/
def signature : Bytes :=
  [109, 112, 202, 96, 60, 128, 2, 139, 40, 86, 137, 93, 83, 2, 47, 150, 131, 158, 82, 71, 172,
   146, 112, 222, 216, 124, 165, 196, 39, 50, 147, 60, 121, 157, 38, 216, 204, 82, 160, 221, 69,
   10, 226, 93, 78, 152, 236, 249, 182, 87, 31, 98, 239, 224, 81, 174, 114, 20, 21, 142, 244, 190,
   112, 0]

/-- The SHA-256 digest and the signature of the revised bundle. -/
def revisedDigest : Bytes :=
  [90, 140, 67, 96, 234, 110, 239, 224, 176, 169, 179, 123, 5, 79, 8, 41, 105, 225, 16, 22, 85,
   118, 46, 179, 29, 171, 218, 82, 145, 187, 31, 244]

def revisedSignature : Bytes :=
  [120, 232, 66, 212, 108, 81, 95, 214, 159, 85, 97, 106, 70, 219, 97, 193, 191, 154, 212, 230,
   135, 101, 42, 197, 26, 185, 158, 190, 31, 49, 195, 127, 187, 165, 114, 251, 253, 45, 203, 25,
   53, 107, 12, 214, 106, 158, 156, 200, 146, 79, 52, 173, 188, 212, 36, 88, 230, 206, 251, 178,
   196, 98, 93, 2]

/-- The SHA-256 digest and the signature of the bundle with the rule that no engine takes. -/
def repeatedDigest : Bytes :=
  [93, 10, 108, 67, 2, 147, 109, 32, 200, 63, 94, 249, 171, 19, 165, 40, 96, 19, 93, 191, 146,
   39, 37, 151, 41, 112, 192, 36, 149, 250, 239, 198]

def repeatedSignature : Bytes :=
  [56, 78, 201, 67, 67, 179, 158, 176, 73, 211, 77, 89, 174, 92, 15, 210, 150, 165, 70, 129, 219,
   205, 75, 154, 206, 37, 244, 247, 186, 85, 183, 89, 140, 131, 177, 235, 105, 138, 31, 164, 64,
   70, 133, 89, 69, 137, 62, 18, 16, 202, 243, 8, 25, 6, 213, 46, 230, 176, 70, 235, 176, 90,
   142, 4]

def numberText (n : Ecma.Number) : String := if n = 100 then "100" else ""

/-- The policy with one of its WAF patterns. -/
def documentWith (pattern : String) : Control.Document where
  apiVersion := Control.APIVersionV1Alpha1
  kind := Control.KindSecurityPolicy
  metadata := { name := "orders-api" }
  spec :=
    { defaultDecision := Control.DecisionDeny
      routes := [{
        id := "orders-read"
        routeMatch := { methods := ["GET"], path := "/v1/orders/:id" }
        upstream := "https://orders.internal"
        jwt := some {
          required := true, issuer := "https://identity.example.com/", audience := ["orders-api"],
          jwksURL := "https://identity.example.com/jwks.json" }
        rateLimit := some { requests := 100, window := "1m", key := "jwt.sub" }
        waf := [
          { id := "no-traversal", target := "path", pattern, flags := "", action := "block" },
          { id := "no-script", target := "query", pattern := "<script", flags := "i",
            action := "log" }] }] }

def document : Control.Document := documentWith "\\.\\./"

def bundle : Control.Bundle where
  schemaVersion := Control.BundleSchemaVersion
  policyName := "orders-api"
  defaultDecision := "deny"
  matchers := [{ method := "GET", regex := "^(?:(/v1/orders/[^/]+))$", routeIDs := ["orders-read"] }]
  routes := document.spec.routes.map Control.cloneRoute
  version := "sha256:b998f44b04da1a4a7c3edf69a06de4873b1c19b01b15c3a5929b7cb6eaacfce8"

/-- The same policy under its next name. -/
def revisedDocument : Control.Document := { document with metadata := { name := "orders-api-v2" } }

def revised : Control.Bundle :=
  { bundle with
    policyName := "orders-api-v2"
    version := "sha256:5a8c4360ea6eefe0b0a9b37b054f082969e1101655762eb31dabda5291bb1ff4" }

/-- The same policy with the pattern `^*`, which Go compiles and ECMAScript refuses. -/
def repeatedDocument : Control.Document := documentWith "^*"

def repeated : Control.Bundle :=
  { bundle with
    routes := repeatedDocument.spec.routes.map Control.cloneRoute
    version := "sha256:5d0a6c4302936d20c83f5ef9ab13a52860135dbf922725972970c02495faefc6" }

/-- The digests of the public keys, which differ in their first byte, and of the canonical forms of
the bundles without their versions. The inputs differ in length. -/
def sha256 (message : Bytes) : Bytes :=
  if message.length = 32 then if message.head? = some 19 then nextKeyDigest else keyDigest
  else if message.length = 680 then revisedDigest
  else if message.length = 672 then repeatedDigest
  else bundleDigest

/-- The signatures of the canonical forms of the bundles. -/
def sign (message : Bytes) : Bytes :=
  if message.length = 764 then revisedSignature
  else if message.length = 756 then repeatedSignature
  else signature

def goPlatform : Control.GoPlatform where
  parseUrl text := List.lookup text
    [("https://orders.internal", ⟨"https", "orders.internal", "orders.internal", false⟩),
      ("https://identity.example.com/",
        ⟨"https", "identity.example.com", "identity.example.com", false⟩),
      ("https://identity.example.com/jwks.json",
        ⟨"https", "identity.example.com", "identity.example.com", false⟩)]
  isLoopbackAddress _ := false
  compileRegexp _ := .ok ()
  isPrint _ := false
  toUpper text := text
  sha256 := sha256
  sign _ message := sign message
  numberText := numberText

def edgePlatform : Edge.Platform where
  parseUrl text := List.lookup text
    [("https://orders.internal",
        ⟨"https:", "", "", "orders.internal", "", "/", "", "", Edge.printable_root⟩),
      ("https://identity.example.com/",
        ⟨"https:", "", "", "identity.example.com", "", "/", "", "", Edge.printable_root⟩),
      ("https://identity.example.com/jwks.json",
        ⟨"https:", "", "", "identity.example.com", "", "/jwks.json", "", "",
          Edge.printable_of_all (by decide)⟩)]
  pathnameOf _ := ⟨"/", Edge.printable_root⟩
  searchOf text := text
  decodeText _ := ""
  regExp :=
    { RegExp := String
      construct := fun pattern _ => if pattern = "^*" then none else some pattern
      exec := fun _ _ => none }
  crypto :=
    { CryptoKey := Bytes
      importSpki := fun der => if der.length = 44 then some (der.drop 12) else none
      exportRaw := some
      sha256 := sha256
      verify := fun _ sent message => some (sent = sign message) }
  toUpperCase text := text
  numberText := numberText

def keyring : Edge.TrustedKeyring :=
  OrderedMap.empty.set
    "sha256:fe812c12f3ab4ce6ac5db69ac352f906cb1b11ef43fb33e252ef7ff552263889"
    (Control.encodePublicKeyPEM publicKey)

/-- What the control plane serves. -/
def envelope : Control.Envelope where
  algorithm := Control.AlgorithmEd25519
  keyID := "sha256:fe812c12f3ab4ce6ac5db69ac352f906cb1b11ef43fb33e252ef7ff552263889"
  bundle := bundle
  signature :=
    "bXDKYDyAAosoVoldUwIvloOeUkesknDe2HylxCcykzx5nSbYzFKg3UUK4l1OmOz5tlcfYu_gUa5yFBWO9L5wAA"

def revisedEnvelope : Control.Envelope :=
  { envelope with
    bundle := revised
    signature :=
      "eOhC1GxRX9afVWFqRtthwb-a1OaHZSrFGrmevh8xw3-7pXL7_S3LGTVrDNZqnpzIkk80rbzUJFjmzvuyxGJdAg" }

def repeatedEnvelope : Control.Envelope :=
  { envelope with
    bundle := repeated
    signature :=
      "OE7JQ0OznrBJ001ZrlwP0palRoHbzUuaziX097pVt1mMg7HraYofpEBGhVlFiT4SEMrzCBkG1S7msEbrsFqOBA" }

/-- What the edge reads. -/
def received : Edge.SignedBundleEnvelope where
  keyId := envelope.keyID
  bundle :=
    { policyName := "orders-api"
      defaultDecision := .deny
      matchers :=
        [{ method := "GET", regex := "^(?:(/v1/orders/[^/]+))$", routeIds := ["orders-read"] }]
      routes := [{
        id := "orders-read"
        routeMatch := { methods := ["GET"], path := "/v1/orders/:id" }
        upstream := "https://orders.internal"
        jwt := some {
          issuer := "https://identity.example.com/", audience := ["orders-api"],
          jwksUrl := "https://identity.example.com/jwks.json" }
        rateLimit := some { requests := 100, window := "1m", key := .jwtSub }
        waf := some [
          { id := "no-traversal", target := .path, pattern := "\\.\\./", flags := none,
            action := .block },
          { id := "no-script", target := .query, pattern := "<script", flags := some .i,
            action := .log }] }]
      version := bundle.version }
  signature := envelope.signature

/-- What the compiler, the signer, the parser and the keyring make of the policies. -/
theorem evaluations :
    Control.compile goPlatform document = .ok bundle ∧
      Control.sign goPlatform bundle privateKey = .ok envelope ∧
      Control.sign goPlatform revised privateKey = .ok revisedEnvelope ∧
      Edge.parseBundleEnvelope edgePlatform envelope.toJson = .ok received ∧
      keyring.get envelope.keyID =
        some (Control.encodePublicKeyPEM (Control.publicKey privateKey)) := by
  refine ⟨?_, ?_, ?_, ?_, ?_⟩ <;> decide +kernel

theorem compile_document : Control.compile goPlatform document = .ok bundle := evaluations.1

theorem sign_bundle : Control.sign goPlatform bundle privateKey = .ok envelope := evaluations.2.1

theorem sign_revised : Control.sign goPlatform revised privateKey = .ok revisedEnvelope :=
  evaluations.2.2.1

theorem parse_envelope : Edge.parseBundleEnvelope edgePlatform envelope.toJson = .ok received :=
  evaluations.2.2.2.1

theorem agree : Agree edgePlatform goPlatform privateKey where
  numberText := rfl
  sha256 := rfl
  signature_length message := by
    show (sign message).length = 64
    unfold sign
    split_ifs <;> rfl
  verifies := ⟨publicKey, rfl, rfl, fun _ => by simp [edgePlatform, goPlatform]⟩

theorem trusts_key :
    keyring.get envelope.keyID =
      some (Control.encodePublicKeyPEM (Control.publicKey privateKey)) :=
  evaluations.2.2.2.2

theorem verify_envelope :
    Edge.verifyBundleEnvelope edgePlatform envelope.toJson keyring = .ok received := by
  have hequiv := (Edge.parseBundleEnvelope_ok_iff.mp parse_envelope).1
  exact Edge.verifyBundleEnvelope_ok_iff.mpr
    ⟨parse_envelope, trusted_of_sign agree sign_bundle trusts_key hequiv⟩

end Orders

theorem signed_is_enforced_orders :
    ∃ snapshot, Control.newSnapshot Orders.goPlatform Orders.envelope = .ok snapshot ∧
      Edge.verifyBundleEnvelope Orders.edgePlatform snapshot.body Orders.keyring =
        .ok Orders.received ∧
      Enforced Orders.edgePlatform Orders.keyring snapshot.body Orders.received := by
  have ⟨henforced, hserved⟩ := signed_is_enforced Orders.edgePlatform
  have ⟨envelope, snapshot, hsign, hsnapshot, hverified⟩ := hserved Orders.goPlatform
    Orders.privateKey Orders.agree rfl Orders.document Orders.bundle Orders.compile_document
  have hsame : envelope = Orders.envelope :=
    Except.ok.inj (hsign.symm.trans Orders.sign_bundle)
  rw [hsame] at hsnapshot hverified
  have hbody : snapshot.body = Orders.envelope.toJson := by
    rw [← Except.ok.inj hsnapshot]
  have haccepted := hverified Orders.keyring Orders.trusts_key Orders.received
    (by rw [hbody]; exact Orders.parse_envelope)
  refine ⟨snapshot, hsnapshot, haccepted, henforced _ _ _ ?_ haccepted⟩
  rw [hbody]
  refine .object (by simp) ?_
  simp [WellFormed.string, Control.Bundle.wellFormed_toJson]

end ShieldWard.Delivery
