import ShieldWard.Control.KeyFiles
import ShieldWard.Control.Watch
import ShieldWard.Delivery.Signed
import ShieldWard.Edge.TrustedKeys

/-!
# Where the keys come from

Any number of runs of `shieldwardd keygen` on one file system, and what the control plane and
the edge make of the files that they leave: the key that signs is the key that is trusted.
-/

namespace ShieldWard.Delivery

open Bytes Files Control Control.Keygen

/-! ## The files of every interleaving -/

section Files

variable {ι Entry : Type} [DecidableEq ι] [DecidableEq Entry]

/-- What the file system and the runs agree on. -/
structure Ceremony (G : GoPlatform) (K : KeyPlatform) (σ : Setting Entry)
    (start : FileSystem Entry) (runs : ι → Keygen) (s : State ι Entry (Except String String)) :
    Prop where
  /-- Every file that was there is there, under its name and as it was. -/
  untouched : ∀ entry number, start.directory entry = some number →
    s.files.directory entry = some number ∧ s.files.files number = start.files number
  /-- Every other file is a beginning of a text that some run writes, and no one but its owner
  has permission for a private one. A run that has failed left only what it could not remove. -/
  accounted : ∀ entry number, s.files.directory entry = some number →
    start.directory entry = some number ∨ ∃ p seed, (runs p).generated = .ok seed ∧
      ((entry = σ.entry (runs p).publicPath ∧
          (s.files.files number).content <+: publicText K seed) ∨
        (entry = σ.entry (runs p).privatePath ∧
          (s.files.files number).content <+: privateText seed ∧
          (s.files.files number).mode &&& 0o077 = 0)) ∧
      ∀ message, (s.process p).program = .done (.error message) →
        ∃ path ∈ (s.process p).unremoved, σ.entry path = entry
  /-- A run that has returned a key ID has both files in full, under names of their own. -/
  published : ∀ p keyID, (s.process p).program = .done (.ok keyID) →
    ∃ seed m n, (runs p).generated = .ok seed ∧
      keyID = sha256Text G (K.publicOfSeed seed.val) ∧
      s.files.directory (σ.entry (runs p).publicPath) = some m ∧
      s.files.directory (σ.entry (runs p).privatePath) = some n ∧
      s.files.files m = ⟨publicText K seed, σ.mode 0o644⟩ ∧
      s.files.files n = ⟨privateText seed, σ.mode 0o600⟩ ∧ m ≠ n
  /-- Two runs that have both returned a key ID share no name. -/
  apart : ∀ p q keyID keyID', (s.process p).program = .done (.ok keyID) →
    (s.process q).program = .done (.ok keyID') → p ≠ q →
      ∀ path ∈ [(runs p).publicPath, (runs p).privatePath],
        ∀ path' ∈ [(runs q).publicPath, (runs q).privatePath], σ.entry path ≠ σ.entry path'

/-- Whatever the runs of keygen do at the same time, whichever of their calls fail and
whenever they are killed. -/
theorem key_files (G : GoPlatform) (K : KeyPlatform) (σ : Setting Entry)
    (start : FileSystem Entry) (runs : ι → Keygen) :
    ∀ s, (machine σ start fun p => (runs p).program G K).Reachable s →
      Ceremony G K σ start runs s := by
  intro s hs
  obtain ⟨held, howns⟩ := Owns.run (fun p => program_safe G K σ (runs p)) hs
  refine ⟨?_, ?_, ?_, ?_⟩
  · intro entry number hstart
    exact ⟨howns.shares.old_name entry number hstart,
      howns.shares.old_file number (start.lt_next entry number hstart)⟩
  · intro entry number hname
    rcases howns.shares.named entry number hname with hstart | ⟨p, file, hp⟩
    · exact .inl hstart
    · have hfile := (howns.shares.made p entry number file hp).2.1
      obtain ⟨seed, hseed, htext⟩ := (howns.safe p).now entry number file hp
      refine .inr ⟨p, seed, hseed, ?_, fun message hdone => howns.ends hdone entry _ hp⟩
      rw [hfile]
      exact htext
  · intro p keyID hdone
    obtain ⟨seed, m, n, hseed, hkey, hne, hpublic, hprivate⟩ := howns.ends hdone
    have hm := howns.shares.made p _ m _ hpublic
    have hn := howns.shares.made p _ n _ hprivate
    refine ⟨seed, m, n, hseed, hkey, hm.1, hn.1, hm.2.1, hn.2.1, ?_⟩
    rintro rfl
    exact hne (howns.shares.single _ _ m hm.2.2 hm.1 hn.1)
  · intro p q keyID keyID' hp hq hne path hpath path' hpath' heq
    -- a run that is done still owns both of its names
    have hheld : ∀ {p keyID path}, (s.process p).program = .done (.ok keyID) →
        path ∈ [(runs p).publicPath, (runs p).privatePath] →
        ∃ made, held p (σ.entry path) = some made := by
      intro p keyID path hdone hpath
      obtain ⟨seed, m, n, _, _, _, hpublic, hprivate⟩ := howns.ends hdone
      simp only [List.mem_cons, List.not_mem_nil, or_false] at hpath
      rcases hpath with rfl | rfl
      · exact ⟨_, hpublic⟩
      · exact ⟨_, hprivate⟩
    obtain ⟨made, hmade⟩ := hheld hp hpath
    obtain ⟨made', hmade'⟩ := hheld hq hpath'
    rw [← heq] at hmade'
    exact hne (howns.shares.apart p q _ made made' hmade hmade')

end Files

/-- What the file under a path holds. -/
def contents {ι Entry : Type} (σ : Setting Entry) (s : State ι Entry (Except String String))
    (path : String) : Option Bytes :=
  (s.files.directory (σ.entry path)).map fun number => (s.files.files number).content

/-- A run that has returned a key ID has left both texts of one seed. -/
theorem contents_of_done {ι Entry : Type} [DecidableEq ι] [DecidableEq Entry] {G : GoPlatform}
    {K : KeyPlatform} {σ : Setting Entry} {start : FileSystem Entry} {runs : ι → Keygen}
    {s : State ι Entry (Except String String)}
    (hs : (machine σ start fun p => (runs p).program G K).Reachable s) {p : ι} {keyID : String}
    (hdone : (s.process p).program = .done (.ok keyID)) :
    ∃ seed, (runs p).generated = .ok seed ∧
      keyID = Control.sha256Text G (K.publicOfSeed seed.val) ∧
      contents σ s (runs p).publicPath = some (publicText K seed) ∧
      contents σ s (runs p).privatePath = some (privateText seed) := by
  obtain ⟨held, howns⟩ := Owns.run (fun p => program_safe G K σ (runs p)) hs
  obtain ⟨seed, m, n, hseed, hkey, _, hpublic, hprivate⟩ := howns.ends hdone
  obtain ⟨hm, hmfile, _⟩ := howns.shares.made p _ m _ hpublic
  obtain ⟨hn, hnfile, _⟩ := howns.shares.made p _ n _ hprivate
  refine ⟨seed, hseed, hkey, ?_, ?_⟩
  · rw [contents, hm, Option.map_some, hmfile]
  · rw [contents, hn, Option.map_some, hnfile]

/-! ## Two runs for one public key -/

namespace Orders

/-- The public key of the seed whose bytes are all 8. -/
def otherPublicKey : Bytes :=
  [19, 152, 246, 44, 109, 26, 69, 124, 81, 186, 106, 75, 95, 61, 189, 47, 105, 252, 169, 50, 22,
   33, 141, 200, 153, 126, 65, 107, 209, 125, 147, 202]

def keyPlatform : KeyPlatform where
  publicOfSeed seed := if seed = List.replicate 32 7 then publicKey else otherPublicKey
  length_publicOfSeed seed := by
    split_ifs <;> rfl

def seed : Seed := ⟨List.replicate 32 7, List.length_replicate ..⟩

def otherSeed : Seed := ⟨List.replicate 32 8, List.length_replicate ..⟩

/-- Both runs write the same public key file; the private key file of the second is there. -/
def keygens : Bool → Keygen
  | false => ⟨"keys/private.pem", "keys/public.pem", .ok seed⟩
  | true => ⟨"old/private.pem", "keys/public.pem", .ok otherSeed⟩

def setting : Setting String where
  entry path := path
  umask := 0o022

def files : FileSystem String where
  directory path := if path = "old/private.pem" then some 0 else none
  files _ := ⟨[], 0o600⟩
  next := 1
  lt_next path number h := by
    split_ifs at h
    cases h
    exact Nat.one_pos

/-- The first run makes the public key file while the second finds it there. -/
def race : List (Act Bool) :=
  [.succeed false, .fail true "file exists", .progress false 40, .succeed false, .succeed false,
    .succeed false, .succeed false, .succeed false, .succeed false, .succeed false]

def racing : System.Machine (State Bool String (Except String String)) (Act Bool) :=
  machine setting files fun p => (keygens p).program goPlatform keyPlatform

theorem race_results :
    (racing.run (.initial files fun p => (keygens p).program goPlatform keyPlatform) race).map
        (fun s => ((s.process false).program.result, (s.process true).program.result,
          contents setting s "keys/private.pem", contents setting s "keys/public.pem")) =
      some (some (.ok envelope.keyID), some (.error "write public key: file exists"),
        some (privateText seed), some (publicText keyPlatform seed)) := by
  decide +kernel

theorem race_reachable : ∃ s, racing.Reachable s ∧
    (s.process false).program = .done (.ok envelope.keyID) ∧
    (s.process true).program = .done (.error "write public key: file exists") ∧
    contents setting s "keys/private.pem" = some (privateText seed) ∧
    contents setting s "keys/public.pem" = some (publicText keyPlatform seed) := by
  obtain ⟨s, hrun, hresults⟩ := Option.map_eq_some_iff.mp race_results
  simp only [Prod.mk.injEq, Program.result_eq_some] at hresults
  exact ⟨s, .of_run race (.init rfl) hrun, hresults⟩

end Orders

theorem key_files_racing : ∃ s,
    Ceremony Orders.goPlatform Orders.keyPlatform Orders.setting Orders.files Orders.keygens s ∧
      (s.process false).program = .done (.ok Orders.envelope.keyID) ∧
      (s.process true).program = .done (.error "write public key: file exists") := by
  obtain ⟨s, hs, hwon, hlost, _⟩ := Orders.race_reachable
  exact ⟨s, key_files _ _ _ _ _ s hs, hwon, hlost⟩

/-! ## Reading the files back -/

/-- A text of `n` characters has at most `4 * n` bytes. -/
theorem length_utf8_le (text : String) : (utf8 text).length ≤ 4 * text.toList.length := by
  have hlist : ∀ cs : List Char, (cs.utf8Encode).size ≤ 4 * cs.length := by
    intro cs
    induction cs with
    | nil => simp
    | cons c cs ih =>
      have hc := c.utf8Size_le_four
      rw [List.utf8Encode_cons, ByteArray.size_append, List.utf8Encode_singleton,
        List.size_toByteArray, String.length_utf8EncodeChar, List.length_cons]
      omega
  have htext := hlist text.toList
  rwa [String.utf8Encode_toList] at htext

/-- Every line of 64 characters brings one line feed. -/
theorem length_pemLines_le (fuel : ℕ) (text : List Char) :
    (pemLines fuel text).length ≤ text.length + fuel := by
  induction fuel generalizing text with
  | zero => cases text <;> simp [pemLines]
  | succ fuel ih =>
    cases text with
    | nil => simp [pemLines]
    | cons c cs =>
      have hrest := ih ((c :: cs).drop 64)
      rw [pemLines, List.length_append, List.length_cons]
      · simp only [List.length_take, List.length_drop] at hrest ⊢
        omega
      · simp

theorem length_encode_le (bytes : Bytes) : (Base64.encode bytes).length ≤ 2 * bytes.length + 4 := by
  rw [Base64.encode, Base64.pad, List.length_append, List.length_replicate,
    Base64.length_encodeRaw]
  omega

/-- The text of a short key is far from the limit of a key file. -/
theorem length_encodePEM_le {type : String} {der : Bytes} (htype : type.length ≤ 32)
    (hder : der.length ≤ 64) : (utf8 (encodePEM type der)).length ≤ 4096 := by
  have hutf8 := length_utf8_le (encodePEM type der)
  have hlines := length_pemLines_le (Base64.encode der).length (Base64.encode der)
  have hencode := length_encode_le der
  have htext : (encodePEM type der).toList.length ≤ 1000 := by
    unfold encodePEM
    simp only [String.toList_append, String.toList_ofList, List.length_append,
      String.length_toList] at htype ⊢
    have hbegin : "-----BEGIN ".length = 11 := rfl
    have hend : "-----END ".length = 9 := rfl
    have hdashes : "-----\n".length = 6 := rfl
    omega
  omega

theorem encodePublicKeyPEM_eq (key : Bytes) :
    encodePublicKeyPEM key = encodePEM "PUBLIC KEY" (marshalPKIXPublicKey key) := by
  have hbegin : "-----BEGIN PUBLIC KEY-----\n" = "-----BEGIN " ++ "PUBLIC KEY" ++ "-----\n" := by
    decide
  have hend : "-----END PUBLIC KEY-----\n" = "-----END " ++ "PUBLIC KEY" ++ "-----\n" := by
    decide
  unfold encodePublicKeyPEM encodePEM
  simp only [hbegin, hend, String.append_assoc]

/-- A text that the verifier takes for a key is one that the keyring takes for a block. -/
theorem isPublicKeyBlock_of_decode {pem : String} {spki : Bytes}
    (h : Edge.decodePublicKeyPem pem = .ok spki) :
    Edge.isPublicKeyBlock (Ecma.trim pem).toList = true := by
  unfold Edge.decodePublicKeyPem at h
  cases hbody : Edge.pemBody pem with
  | none => rw [hbody] at h; cases h
  | some body =>
    unfold Edge.pemBody at hbody
    simp only [Option.ite_none_right_eq_some, Bool.and_eq_true, decide_eq_true_eq] at hbody
    obtain ⟨⟨⟨⟨hheader, hfooter⟩, hne⟩, _⟩, _⟩ := hbody
    have hlength : Edge.pemHeader.length + Edge.pemFooter.length <
        (Ecma.trim pem).toList.length := by
      have hpos := List.length_pos_of_ne_nil hne
      rw [List.length_take, List.length_drop] at hpos
      omega
    rw [Edge.isPublicKeyBlock, hheader, hfooter, decide_eq_true hlength]
    rfl

/-- The bytes of the JWK form of a key. -/
theorem bufferFromBase64url_encodeRawURL (bytes : Bytes) :
    Edge.bufferFromBase64url (encodeRawURL bytes) = bytes := by
  have hfree : ∀ n < 64, Base64.digit '-' '_' n ≠ '=' := by decide
  have hvalue : ∀ n < 64,
      Base64.value (Edge.fromUrlSafe (Base64.digit '-' '_' n)) = some n := by decide
  have hall : ∀ c ∈ Base64.encodeRaw '-' '_' bytes, decide (c ≠ '=') = true := by
    intro c hc
    obtain ⟨n, hn, rfl⟩ := List.mem_map.mp hc
    exact decide_eq_true (hfree n (Base64.sextets_lt hn))
  have hread : (Base64.encodeRaw '-' '_' bytes).filterMap
      (fun c => Base64.value (Edge.fromUrlSafe c)) = Base64.sextets bytes := by
    rw [Base64.encodeRaw, List.filterMap_map]
    calc (Base64.sextets bytes).filterMap
          ((fun c => Base64.value (Edge.fromUrlSafe c)) ∘ Base64.digit '-' '_')
        = (Base64.sextets bytes).filterMap some := by
          apply List.filterMap_congr
          intro n hn
          exact hvalue n (Base64.sextets_lt hn)
      _ = Base64.sextets bytes := List.filterMap_some
  unfold Edge.bufferFromBase64url encodeRawURL
  rw [String.toList_ofList, List.takeWhile_eq_self_iff.mpr hall, hread, Base64.octets_sextets]

/-! ## The key that signs is the key that is trusted -/

/-- The decoders read back the private key of a seed, which is documented of them. -/
structure ReadsPrivate (D : Decoders) (K : KeyPlatform) (seed : Seed) : Prop where
  decodePEM : D.decodePEM (privateText seed) =
    some ("PRIVATE KEY", ed25519PrivateHeader ++ seed.val, [])
  parse : D.parsePKCS8PrivateKey (ed25519PrivateHeader ++ seed.val) =
    .ok (some (K.newKeyFromSeed seed.val))

/-- `node:crypto` reads the public key of a seed, and its text from a buffer. -/
structure ReadsPublic (N : Edge.NodePlatform) (K : KeyPlatform) (seed : Seed) : Prop where
  text : N.bufferToString (publicText K seed) = encodePublicKeyPEM (K.publicOfSeed seed.val)
  key : N.createPublicKey (encodePublicKeyPEM (K.publicOfSeed seed.val)) =
    some ⟨"ed25519", some (some (encodeRawURL (K.publicOfSeed seed.val)))⟩

section Trust

variable {D : Decoders} {K : KeyPlatform} {N : Edge.NodePlatform} {P : Edge.Platform} {seed : Seed}

theorem publicKey_newKeyFromSeed (K : KeyPlatform) (seed : Seed) :
    publicKey (K.newKeyFromSeed seed.val) = K.publicOfSeed seed.val := by
  rw [publicKey, KeyPlatform.newKeyFromSeed, List.drop_left' seed.property]

theorem readLimitedKeyFile_ok {disk : Disk} {data : Bytes} (hdisk : disk.privateKey = .ok data)
    (hlength : data.length ≤ MaxKeyFileBytes) : readLimitedKeyFile disk = .ok data := by
  have htake : data.take (MaxKeyFileBytes + 1) = data :=
    List.take_of_length_le (Nat.le_succ_of_le hlength)
  rw [readLimitedKeyFile, Except.bind_eq_ok_iff]
  refine ⟨data, hdisk, ?_⟩
  simp only [htake, if_neg (Nat.not_lt.mpr hlength)]

theorem loadPrivateKeyFile_privateText (h : ReadsPrivate D K seed) {disk : Disk}
    (hdisk : disk.privateKey = .ok (privateText seed)) :
    loadPrivateKeyFile D disk = .ok (K.newKeyFromSeed seed.val) := by
  have hlength : (privateText seed).length ≤ 4096 := by
    apply length_encodePEM_le (by decide)
    rw [List.length_append, seed.property]
    decide
  have hread := readLimitedKeyFile_ok hdisk (hlength.trans (by decide))
  have hkey : (K.newKeyFromSeed seed.val).length = PrivateKeySize := by
    rw [KeyPlatform.newKeyFromSeed, List.length_append, seed.property, K.length_publicOfSeed]
    rfl
  have hparse : parsePrivateKeyPEM D (privateText seed) = .ok (K.newKeyFromSeed seed.val) := by
    simp [parsePrivateKeyPEM, h.decodePEM, h.parse, isBlank, hkey]
  rw [loadPrivateKeyFile, hread]
  exact hparse

theorem loadPublicKey_publicText (h : ReadsPublic N K seed) (path : String) :
    Edge.loadPublicKey N path (.ok (publicText K seed)) =
      .ok (encodePublicKeyPEM (K.publicOfSeed seed.val)) := by
  have hlength : (publicText K seed).length ≤ 4096 := by
    rw [publicText, encodePublicKeyPEM_eq]
    apply length_encodePEM_le (by decide)
    rw [marshalPKIXPublicKey, List.length_append, K.length_publicOfSeed]
    decide
  have hsmall : ¬Edge.MAX_PUBLIC_KEY_FILE_BYTES < (publicText K seed).length := by
    unfold Edge.MAX_PUBLIC_KEY_FILE_BYTES
    omega
  rw [Edge.loadPublicKey, if_neg hsmall, h.text]

/-- Both sides give a public key the same key ID. -/
theorem calculatePublicKeyId_publicText (h : ReadsPublic N K seed) :
    Edge.calculatePublicKeyId N P (encodePublicKeyPEM (K.publicOfSeed seed.val)) =
      .ok (Edge.sha256Text P (K.publicOfSeed seed.val)) := by
  have hblock := isPublicKeyBlock_of_decode (decodePublicKeyPem_encode (K.publicOfSeed seed.val))
  have hlength := K.length_publicOfSeed seed.val
  rw [Edge.calculatePublicKeyId, hblock]
  simp only [h.key, bufferFromBase64url_encodeRawURL]
  rw [hlength]
  rfl

/-- The keyring of the public keys that some runs of keygen have left takes what is signed with
the private keys that they have left, under the key IDs that they have printed, and nothing
under another key ID. -/
theorem keys_trusted {ι Entry : Type} [DecidableEq ι] [DecidableEq Entry] (G : GoPlatform)
    (K : KeyPlatform) (D : Decoders) (N : Edge.NodePlatform) (P : Edge.Platform)
    (σ : Setting Entry) (start : FileSystem Entry) (runs : ι → Keygen)
    {s : State ι Entry (Except String String)}
    (hs : (machine σ start fun p => (runs p).program G K).Reachable s) (ps : List ι)
    (hps : ps ≠ []) (keyID : ι → String)
    (hdone : ∀ p ∈ ps, (s.process p).program = .done (.ok (keyID p)))
    (hdistinct : (ps.map keyID).Nodup)
    (hreads : ∀ p ∈ ps, ∀ seed, (runs p).generated = .ok seed →
      ReadsPrivate D K seed ∧ ReadsPublic N K seed ∧ Agree P G (K.newKeyFromSeed seed.val)) :
    ∃ (pem : ι → String) (keyring : Edge.TrustedKeyring),
      (∀ p ∈ ps, ∃ content, contents σ s (runs p).publicPath = some content ∧
        Edge.loadPublicKey N (runs p).publicPath (.ok content) = .ok (pem p)) ∧
      Edge.createTrustedKeyring N P (ps.map pem) = .ok keyring ∧
      (∀ p ∈ ps, ∃ content, contents σ s (runs p).privatePath = some content ∧
        ∀ disk : Disk, disk.privateKey = .ok content → ∃ privateKey,
          loadPrivateKeyFile D disk = .ok privateKey ∧
          ∀ bundle envelope, sign G bundle privateKey = .ok envelope →
            envelope.keyID = keyID p ∧
              ∀ parsed, Edge.parseBundleEnvelope P envelope.toJson = .ok parsed →
                Edge.verifyBundleEnvelope P envelope.toJson keyring = .ok parsed) ∧
      ∀ value parsed, Edge.verifyBundleEnvelope P value keyring = .ok parsed →
        ∃ p ∈ ps, parsed.keyId = keyID p := by
  have hleft := fun p hp => contents_of_done hs (hdone p hp)
  have : Nonempty Seed := ⟨⟨List.replicate 32 0, List.length_replicate ..⟩⟩
  choose! seed hseed hkey hpublic hprivate using hleft
  have hreads' := fun p hp => hreads p hp (seed p) (hseed p hp)
  obtain ⟨pem, hpem⟩ : ∃ pem : ι → String,
      ∀ p, pem p = encodePublicKeyPEM (K.publicOfSeed (seed p).val) := ⟨_, fun _ => rfl⟩
  -- the edge and keygen derive the same ID from a public key
  have hcalculated : ∀ p ∈ ps, Edge.calculatePublicKeyId N P (pem p) = .ok (keyID p) := by
    intro p hp
    obtain ⟨_, hnode, hagree⟩ := hreads' p hp
    rw [hpem, calculatePublicKeyId_publicText hnode, hkey p hp, Edge.sha256Text,
      Control.sha256Text, hagree.sha256]
  have hids : (ps.map pem).map (Edge.keyIdOf N P) = ps.map keyID := by
    rw [List.map_map]
    apply List.map_congr_left
    intro p hp
    rw [Function.comp_apply, Edge.keyIdOf_eq (hcalculated p hp)]
  have hcalculable : ∀ x ∈ ps.map pem, ∃ keyId, Edge.calculatePublicKeyId N P x = .ok keyId := by
    intro x hx
    obtain ⟨p, hp, rfl⟩ := List.mem_map.mp hx
    exact ⟨_, hcalculated p hp⟩
  -- IDs that are distinct make the keyring, which finds each key under its own
  obtain ⟨keyring, hkeyring, hget⟩ := Edge.createTrustedKeyring_of_distinct
    (List.map_eq_nil_iff.not.mpr hps) hcalculable (hids ▸ hdistinct)
  refine ⟨pem, keyring, ?_, hkeyring, ?_, ?_⟩
  · intro p hp
    rw [hpem]
    exact ⟨_, hpublic p hp, loadPublicKey_publicText (hreads' p hp).2.1 _⟩
  · intro p hp
    obtain ⟨hread, hnode, hagree⟩ := hreads' p hp
    refine ⟨_, hprivate p hp, fun disk hdisk => ?_⟩
    refine ⟨_, loadPrivateKeyFile_privateText hread hdisk, ?_⟩
    intro bundle envelope hsign
    have hkeyID : envelope.keyID = keyID p := by
      rw [(sign_ok hsign).2.2, publicKey_newKeyFromSeed, hkey p hp]
    refine ⟨hkeyID, fun parsed hparsed => ?_⟩
    have htrusts : keyring.get envelope.keyID =
        some (encodePublicKeyPEM (publicKey (K.newKeyFromSeed (seed p).val))) := by
      rw [publicKey_newKeyFromSeed, hkeyID, ← hpem]
      exact (hget _ _).mpr ⟨List.mem_map_of_mem hp, hcalculated p hp⟩
    have hequiv := (Edge.parseBundleEnvelope_ok_iff.mp hparsed).1
    exact Edge.verifyBundleEnvelope_ok_iff.mpr
      ⟨hparsed, trusted_of_sign hagree hsign htrusts hequiv⟩
  · intro value parsed hverify
    obtain ⟨_, key, signature, htrusted⟩ := Edge.verifyBundleEnvelope_ok_iff.mp hverify
    obtain ⟨text, htext, _⟩ := htrusted.trusted
    obtain ⟨hmem, hid⟩ := (hget _ _).mp htext
    obtain ⟨p, hp, rfl⟩ := List.mem_map.mp hmem
    exact ⟨p, hp, Except.ok.inj (hid.symm.trans (hcalculated p hp))⟩

end Trust

namespace Orders

def keyDecoders : Decoders where
  toLower text := text
  loadYAML _ := .ok []
  decodeTOML _ := .error "no document"
  decodePEM data := ([seed, otherSeed].find? fun seed => data = privateText seed).map
    fun seed => ("PRIVATE KEY", ed25519PrivateHeader ++ seed.val, [])
  parsePKCS8PrivateKey der :=
    if der.length = 48 then .ok (some (keyPlatform.newKeyFromSeed (der.drop 16)))
    else .error "x509: failed to parse private key"

def nodePlatform : Edge.NodePlatform where
  createPublicKey pem :=
    match Edge.decodePublicKeyPem pem with
    | .error _ => none
    | .ok der => some ⟨"ed25519", some (some (encodeRawURL (der.drop 12)))⟩
  bufferToString bytes := (String.fromUTF8? ⟨⟨bytes⟩⟩).getD ""

/-- A disk with the private key file of the first run. -/
def keyDisk : Disk where
  policy := ⟨[], 0, 0⟩
  isRegular := true
  statError := none
  policyError := none
  privateKey := .ok (privateText seed)

theorem privateText_otherSeed : privateText otherSeed ≠ privateText seed := by decide +kernel

theorem readsPrivate {s : Seed} (hs : s = seed ∨ s = otherSeed) :
    ReadsPrivate keyDecoders keyPlatform s where
  decodePEM := by
    rcases hs with rfl | rfl
    · simp [keyDecoders]
    · simp [keyDecoders, privateText_otherSeed]
  parse := by
    have hlength : (ed25519PrivateHeader ++ s.val).length = 48 := by
      rw [List.length_append, s.property]
      rfl
    have hdrop : (ed25519PrivateHeader ++ s.val).drop 16 = s.val := List.drop_left' rfl
    simp only [keyDecoders, hlength, hdrop, if_true]

theorem readsPublic (s : Seed) : ReadsPublic nodePlatform keyPlatform s where
  text := by
    have hvalid : ∀ text : String, String.fromUTF8? ⟨⟨utf8 text⟩⟩ = some text := by
      intro text
      exact dif_pos text.isValidUTF8
    rw [publicText]
    simp only [nodePlatform, hvalid, Option.getD_some]
  key := by
    simp only [nodePlatform, decodePublicKeyPem_encode]
    rfl

theorem agree_newKeyFromSeed (s : Seed) :
    Agree edgePlatform goPlatform (keyPlatform.newKeyFromSeed s.val) where
  numberText := rfl
  sha256 := rfl
  signature_length := agree.signature_length
  verifies := by
    rw [publicKey_newKeyFromSeed]
    refine ⟨keyPlatform.publicOfSeed s.val, ?_, rfl, fun _ => by simp [edgePlatform, goPlatform]⟩
    have hlength : (marshalPKIXPublicKey (keyPlatform.publicOfSeed s.val)).length = 44 := by
      rw [marshalPKIXPublicKey, List.length_append, keyPlatform.length_publicOfSeed]
      rfl
    exact if_pos hlength

/-- Two runs in directories of their own. -/
def ceremonies : Bool → Keygen
  | false => ⟨"keys/private.pem", "keys/public.pem", .ok seed⟩
  | true => ⟨"next/private.pem", "next/public.pem", .ok otherSeed⟩

def keyIDs : Bool → String
  | false => envelope.keyID
  | true => Control.sha256Text goPlatform otherPublicKey

theorem keyIDs_nodup : ([false, true].map keyIDs).Nodup := by decide +kernel

/-- The calls of the two runs take turns. -/
def turns : List (Act Bool) :=
  (List.replicate 8 [Act.succeed false, Act.succeed true]).flatten

theorem turns_results :
    ((machine setting files fun p => (ceremonies p).program goPlatform keyPlatform).run
        (.initial files fun p => (ceremonies p).program goPlatform keyPlatform) turns).map
        (fun s => ((s.process false).program.result, (s.process true).program.result)) =
      some (some (.ok (keyIDs false)), some (.ok (keyIDs true))) := by
  decide +kernel

theorem turns_reachable : ∃ s,
    (machine setting files fun p => (ceremonies p).program goPlatform keyPlatform).Reachable s ∧
      ∀ p, (s.process p).program = .done (.ok (keyIDs p)) := by
  obtain ⟨s, hrun, hresults⟩ := Option.map_eq_some_iff.mp turns_results
  simp only [Prod.mk.injEq, Program.result_eq_some] at hresults
  exact ⟨s, .of_run turns (.init rfl) hrun, Bool.forall_bool.mpr hresults⟩

end Orders

/-- Of the keys of two runs side by side the first one has signed a bundle. -/
theorem keys_trusted_racing : ∃ keyring,
    Edge.createTrustedKeyring Orders.nodePlatform Orders.edgePlatform
        [encodePublicKeyPEM Orders.publicKey, encodePublicKeyPEM Orders.otherPublicKey] =
          .ok keyring ∧
      loadPrivateKeyFile Orders.keyDecoders Orders.keyDisk = .ok Orders.privateKey ∧
      Edge.verifyBundleEnvelope Orders.edgePlatform Orders.envelope.toJson keyring =
        .ok Orders.received := by
  obtain ⟨s, hs, hdone⟩ := Orders.turns_reachable
  have hseeds : ∀ p seed, (Orders.ceremonies p).generated = .ok seed →
      seed = if p then Orders.otherSeed else Orders.seed := by
    intro p seed h
    cases p <;> exact (Except.ok.inj h).symm
  obtain ⟨pem, keyring, hpem, hkeyring, htrusted, _⟩ := keys_trusted Orders.goPlatform
    Orders.keyPlatform Orders.keyDecoders Orders.nodePlatform Orders.edgePlatform Orders.setting
    Orders.files Orders.ceremonies hs [false, true] (by decide) Orders.keyIDs
    (fun p _ => hdone p) Orders.keyIDs_nodup
    (by
      intro p _ seed h
      refine ⟨Orders.readsPrivate ?_, Orders.readsPublic seed, Orders.agree_newKeyFromSeed seed⟩
      rw [hseeds p seed h]
      cases p
      · exact .inl rfl
      · exact .inr rfl)
  -- what the runs have left is the text of their seeds
  have hpems : ∀ p, pem p = encodePublicKeyPEM (Orders.keyPlatform.publicOfSeed
      (if p then Orders.otherSeed else Orders.seed).val) := by
    intro p
    obtain ⟨seed, hseed, _, hpublic, _⟩ := contents_of_done hs (hdone p)
    obtain ⟨content, hcontent, hloaded⟩ := hpem p (by cases p <;> decide)
    obtain rfl := Option.some.inj (hpublic.symm.trans hcontent)
    have hsame := hloaded.symm.trans (loadPublicKey_publicText (Orders.readsPublic seed) _)
    rw [Except.ok.inj hsame, hseeds p seed hseed]
  obtain ⟨seed, hseed, _, _, hprivate⟩ := contents_of_done hs (hdone false)
  obtain ⟨text, htext, hsigns⟩ := htrusted false (by decide)
  obtain rfl := Option.some.inj (hprivate.symm.trans htext)
  rw [hseeds false seed hseed] at hsigns
  obtain ⟨privateKey, hload, hsigned⟩ := hsigns Orders.keyDisk rfl
  have hkey : Orders.privateKey = privateKey :=
    Except.ok.inj ((loadPrivateKeyFile_privateText (Orders.readsPrivate (.inl rfl)) rfl).symm.trans
      hload)
  subst hkey
  refine ⟨keyring, ?_, hload, (hsigned _ _ Orders.sign_bundle).2 _ Orders.parse_envelope⟩
  rw [← hkeyring, List.map_cons, List.map_cons, List.map_nil, hpems, hpems]
  rfl

end ShieldWard.Delivery
