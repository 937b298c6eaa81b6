import ShieldWard.Edge.PolicyEngine
import ShieldWard.Lib.OrderedMap

/-!
# Bearer tokens

`edge/src/jwt.ts`. The verification of a token is the jose package's: `verifyAuthorization` is
given up to the await of `jwtVerify`, with what that is called with, and after it. A remote set of
keys is what it was created with.
-/

namespace ShieldWard.Edge

open Ecma

structure JwtVerifierOptions where
  timeoutDurationMs : Option Number
  clockToleranceSeconds : Option Number

structure JwtAuthenticationError where
  message : String
deriving DecidableEq

/-- What `createRemoteJWKSet` is called with. -/
structure RemoteJWKSet where
  url : Url
  timeoutDuration : Number
  cooldownDuration : Number
  cacheMaxAge : Number

/-- The options of `jwtVerify`. -/
structure JwtVerifyOptions where
  algorithms : List String
  issuer : String
  audience : List String
  requiredClaims : List String
  clockTolerance : Number
deriving DecidableEq

/-- A call of `jwtVerify`. -/
structure JwtVerifyCall where
  token : String
  keys : RemoteJWKSet
  options : JwtVerifyOptions

/-- What `jwtVerify` resolves with. The payload is an object, and its `sub` is not looked at. -/
structure JwtVerifyResult where
  payload : Json.Fields
  protectedHeader : Json

structure JwtVerifier where
  timeoutDurationMs : Number
  clockToleranceSeconds : Number
  resolvers : OrderedMap String RemoteJWKSet

/-! ## The header -/

def MAX_TOKEN_LENGTH : ℕ := 16384

/-- A character of `[ \t]`. -/
def isBlankOrTab (c : Char) : Bool := c = ' ' || c = '\t'

/-- `/^Bearer[ \t]+([^\s]+)$/i`, its group. Letters beyond ASCII are no case of an ASCII letter. -/
def matchBearer (text : List Char) : Option (List Char) :=
  let rest := text.drop 6
  let token := rest.dropWhile isBlankOrTab
  if (text.take 6).map Char.toLower = "bearer".toList ∧ (rest.head?.any isBlankOrTab) = true ∧
      token ≠ [] ∧ (token.all fun c => !isWhiteSpace c) = true then
    some token
  else none

def parseBearerToken : Option String → Except JwtAuthenticationError String
  | none => .error ⟨"authorization header is required"⟩
  | some authorization =>
    match matchBearer (trim authorization).toList with
    | none => .error ⟨"authorization header must contain a Bearer token"⟩
    | some token =>
      let token := String.ofList token
      if MAX_TOKEN_LENGTH < length token ∨ (token.toList.splitOn '.').length ≠ 3 then
        .error ⟨"Bearer token has an invalid format"⟩
      else .ok token

/-- The text is the scheme in any case, blanks and tabs, and the token. -/
structure Bears (text token : List Char) : Prop where
  spelled : ∃ scheme gap, text = scheme ++ gap ++ token ∧
    scheme.map Char.toLower = "bearer".toList ∧ gap ≠ [] ∧ ∀ c ∈ gap, isBlankOrTab c = true
  visible : token ≠ [] ∧ ∀ c ∈ token, isWhiteSpace c = false

/-- The header of a request carries the token. -/
structure BearerToken (authorization token : String) : Prop where
  bears : Bears (trim authorization).toList token.toList
  dots : token.toList.count '.' = 2
  short : length token ≤ MAX_TOKEN_LENGTH

theorem isWhiteSpace_of_isBlankOrTab {c : Char} (h : isBlankOrTab c = true) :
    isWhiteSpace c = true := by
  simp only [isBlankOrTab, Bool.or_eq_true, decide_eq_true_eq] at h
  rcases h with rfl | rfl
  · decide
  · decide

/-- A gap ends where the token begins. -/
theorem dropWhile_gap {gap token : List Char} (hgap : ∀ c ∈ gap, isBlankOrTab c = true)
    (htoken : ∀ c ∈ token, isWhiteSpace c = false) :
    (gap ++ token).dropWhile isBlankOrTab = token := by
  rw [List.dropWhile_append_of_pos hgap]
  cases token with
  | nil => rfl
  | cons c cs =>
    apply List.dropWhile_cons_of_neg
    intro hc
    have hvisible := htoken c List.mem_cons_self
    rw [isWhiteSpace_of_isBlankOrTab hc] at hvisible
    cases hvisible

theorem matchBearer_eq_some_iff {text token : List Char} :
    matchBearer text = some token ↔ Bears text token := by
  simp only [matchBearer, List.all_eq_true, Bool.not_eq_true', ne_eq]
  constructor
  · intro h
    split at h
    · next hmatch =>
      obtain ⟨hscheme, hgap, htoken, hvisible⟩ := hmatch
      rw [Option.some.injEq] at h
      rw [h] at htoken hvisible
      have hrest : text.drop 6 = (text.drop 6).takeWhile isBlankOrTab ++ token := by
        rw [← h, List.takeWhile_append_dropWhile]
      refine ⟨⟨text.take 6, (text.drop 6).takeWhile isBlankOrTab, ?_, hscheme, ?_, ?_⟩, htoken,
        hvisible⟩
      · rw [List.append_assoc, ← hrest, List.take_append_drop]
      · intro hnil
        cases hhead : text.drop 6 with
        | nil => simp [hhead] at hgap
        | cons c cs =>
          rw [hhead] at hgap hnil
          have hc : isBlankOrTab c = true := by simpa using hgap
          rw [List.takeWhile_cons_of_pos hc] at hnil
          cases hnil
      · exact fun c hc => List.mem_takeWhile_imp hc
    · cases h
  · rintro ⟨⟨scheme, gap, rfl, hscheme, hne, hgap⟩, htoken, hvisible⟩
    have hlength : scheme.length = 6 := by
      have hmap := congrArg List.length hscheme
      rw [List.length_map] at hmap
      exact hmap
    have htake : (scheme ++ gap ++ token).take 6 = scheme := by
      rw [List.append_assoc, ← hlength, List.take_left]
    have hdrop : (scheme ++ gap ++ token).drop 6 = gap ++ token := by
      rw [List.append_assoc, ← hlength, List.drop_left]
    have hhead : ((gap ++ token).head?.any isBlankOrTab) = true := by
      obtain ⟨c, cs, rfl⟩ := List.exists_cons_of_ne_nil hne
      simpa using hgap c List.mem_cons_self
    rw [htake, hdrop, dropWhile_gap hgap hvisible, if_pos ⟨hscheme, hhead, htoken, hvisible⟩]

/-- Every dot ends a part. -/
theorem length_splitOn (c : Char) (text : List Char) :
    (text.splitOn c).length = text.count c + 1 := by
  induction text with
  | nil => rfl
  | cons d text ih =>
    rw [List.splitOn_cons_eq_if_modifyHead, List.count_cons]
    split
    · next hd => rw [List.length_cons, ih]
    · next hd => rw [List.length_modifyHead, ih, Nat.add_zero]

theorem parseBearerToken_ok_iff {authorization : Option String} {token : String} :
    parseBearerToken authorization = .ok token ↔
      ∃ header, authorization = some header ∧ BearerToken header token := by
  constructor
  · intro h
    cases authorization with
    | none => cases h
    | some header =>
      refine ⟨header, rfl, ?_⟩
      simp only [parseBearerToken] at h
      split at h
      · cases h
      · next text hmatch =>
        split at h
        · cases h
        · next hformat =>
          rw [not_or, not_lt, not_not, length_splitOn] at hformat
          rw [← Except.ok.inj h]
          refine ⟨?_, Nat.succ.inj hformat.2, hformat.1⟩
          rw [String.toList_ofList]
          exact matchBearer_eq_some_iff.mp hmatch
  · rintro ⟨header, rfl, hbears, hdots, hshort⟩
    simp only [parseBearerToken, matchBearer_eq_some_iff.mpr hbears, String.ofList_toList,
      length_splitOn, hdots]
    rw [if_neg (not_or.mpr ⟨not_lt.mpr hshort, not_not.mpr rfl⟩)]

example : parseBearerToken (some " bearer \t aa.bb.cc ") = .ok "aa.bb.cc" := by decide +kernel

/-! ## The verifier -/

def SUPPORTED_JWT_ALGORITHMS : List String := ["RS256", "PS256", "ES256", "EdDSA"]

namespace JwtVerifier

/-- The constructor. Every `Number` is finite. -/
def new (options : JwtVerifierOptions) : Except JwtAuthenticationError JwtVerifier :=
  let timeoutDurationMs := options.timeoutDurationMs.getD 5000
  let clockToleranceSeconds := options.clockToleranceSeconds.getD 5
  if !isSafeInteger timeoutDurationMs || timeoutDurationMs ≤ 0 then
    .error ⟨"JWKS timeout must be a positive integer"⟩
  else if clockToleranceSeconds < 0 then
    .error ⟨"clock tolerance must be non-negative"⟩
  else .ok { timeoutDurationMs, clockToleranceSeconds, resolvers := .empty }

/-- The set of keys of a URL, `none` when `new URL` throws. -/
def resolverFor (P : Platform) (verifier : JwtVerifier) (jwksUrl : String) :
    Option (JwtVerifier × RemoteJWKSet) :=
  match verifier.resolvers.get jwksUrl with
  | some existing => some (verifier, existing)
  | none => (P.parseUrl jwksUrl).map fun url =>
    let resolver : RemoteJWKSet :=
      { url, timeoutDuration := verifier.timeoutDurationMs, cooldownDuration := 30000,
        cacheMaxAge := 600000 }
    ({ verifier with resolvers := verifier.resolvers.set jwksUrl resolver }, resolver)

def verifyOptions (verifier : JwtVerifier) (policy : JwtPolicy) : JwtVerifyOptions where
  algorithms := SUPPORTED_JWT_ALGORITHMS
  issuer := policy.issuer
  audience := policy.audience
  requiredClaims := ["exp"]
  clockTolerance := verifier.clockToleranceSeconds

/-- `verifyAuthorization` up to the await of `jwtVerify`; `none` when it was rejected before. -/
def verifyAuthorization (P : Platform) (verifier : JwtVerifier) (authorization : Option String)
    (policy : JwtPolicy) : JwtVerifier × Option JwtVerifyCall :=
  match parseBearerToken authorization with
  | .error _ => (verifier, none)
  | .ok token =>
    match verifier.resolverFor P policy.jwksUrl with
    | none => (verifier, none)
    | some (verifier, keys) =>
      (verifier, some { token, keys, options := verifier.verifyOptions policy })

/-- `verifyAuthorization` after the await of `jwtVerify`. -/
def afterJwtVerify : Option JwtVerifyResult → Except JwtAuthenticationError VerifiedJwt
  | none => .error ⟨"JWT verification failed"⟩
  | some result => .ok {
      subject := result.payload.lookup "sub"
      payload := .object result.payload
      protectedHeader := result.protectedHeader }

/-- What `jwtVerify` is called with for a token under a policy: the keys of the policy's own URL,
and the policy's issuer and audience. -/
structure Asks (P : Platform) (timeoutDurationMs clockToleranceSeconds : Number)
    (token : String) (policy : JwtPolicy) (call : JwtVerifyCall) : Prop where
  token : call.token = token
  keys : ∃ url, P.parseUrl policy.jwksUrl = some url ∧ call.keys = {
    url, timeoutDuration := timeoutDurationMs, cooldownDuration := 30000, cacheMaxAge := 600000 }
  options : call.options = {
    algorithms := SUPPORTED_JWT_ALGORITHMS, issuer := policy.issuer, audience := policy.audience
    requiredClaims := ["exp"], clockTolerance := clockToleranceSeconds }

/-- Every set of keys in the map was created for the URL that it is found under. -/
def Sound (P : Platform) (verifier : JwtVerifier) : Prop :=
  ∀ jwksUrl keys, verifier.resolvers.get jwksUrl = some keys →
    ∃ url, P.parseUrl jwksUrl = some url ∧ keys = {
      url, timeoutDuration := verifier.timeoutDurationMs, cooldownDuration := 30000
      cacheMaxAge := 600000 }

variable {P : Platform} {verifier verifier' : JwtVerifier} {options : JwtVerifierOptions}

theorem new_ok (h : new options = .ok verifier) :
    verifier.timeoutDurationMs = options.timeoutDurationMs.getD 5000 ∧
      verifier.clockToleranceSeconds = options.clockToleranceSeconds.getD 5 ∧
      verifier.resolvers = .empty := by
  unfold new at h
  dsimp only at h
  split at h
  · cases h
  · split at h
    · cases h
    · rw [← Except.ok.inj h]
      exact ⟨rfl, rfl, rfl⟩

theorem sound_new (h : new options = .ok verifier) : verifier.Sound P := by
  intro jwksUrl keys hkeys
  rw [(new_ok h).2.2] at hkeys
  cases hkeys

/-- The settings of the verifier stay, and a set of keys stays once it has been created. -/
structure Extends (verifier verifier' : JwtVerifier) : Prop where
  timeoutDurationMs : verifier'.timeoutDurationMs = verifier.timeoutDurationMs
  clockToleranceSeconds : verifier'.clockToleranceSeconds = verifier.clockToleranceSeconds
  resolvers : ∀ jwksUrl keys, verifier.resolvers.get jwksUrl = some keys →
    verifier'.resolvers.get jwksUrl = some keys

theorem resolverFor_some (hsound : verifier.Sound P) {jwksUrl : String} {keys : RemoteJWKSet}
    (h : verifier.resolverFor P jwksUrl = some (verifier', keys)) :
    verifier'.Sound P ∧ verifier.Extends verifier' ∧
      verifier'.resolvers.get jwksUrl = some keys := by
  unfold resolverFor at h
  split at h
  · next existing hexisting =>
    obtain ⟨rfl, rfl⟩ := Prod.mk.inj (Option.some.inj h)
    exact ⟨hsound, ⟨rfl, rfl, fun _ _ hold => hold⟩, hexisting⟩
  · next hnone =>
    obtain ⟨url, hurl, heq⟩ := Option.map_eq_some_iff.mp h
    obtain ⟨rfl, rfl⟩ := Prod.mk.inj heq
    refine ⟨fun other keys hkeys => ?_, ⟨rfl, rfl, fun other keys hold => ?_⟩,
      OrderedMap.get_set_self _ _ _⟩
    · rw [OrderedMap.get_set] at hkeys
      split at hkeys
      · next hother => exact ⟨url, hother ▸ hurl, (Option.some.inj hkeys).symm⟩
      · exact hsound other keys hkeys
    · have hne : other ≠ jwksUrl := by
        rintro rfl
        rw [hnone] at hold
        cases hold
      rw [OrderedMap.get_set_of_ne _ _ hne]
      exact hold

/-- The verifier asks for the token of the header under the policy, or not at all. -/
theorem verifyAuthorization_spec (hsound : verifier.Sound P) {authorization : Option String}
    {policy : JwtPolicy} {call : Option JwtVerifyCall}
    (h : verifier.verifyAuthorization P authorization policy = (verifier', call)) :
    verifier'.Sound P ∧ verifier.Extends verifier' ∧ ∀ asked, call = some asked →
      ∃ header token, authorization = some header ∧ BearerToken header token ∧
        Asks P verifier.timeoutDurationMs verifier.clockToleranceSeconds token policy asked := by
  have hsame : verifier.Extends verifier := ⟨rfl, rfl, fun _ _ hold => hold⟩
  unfold verifyAuthorization at h
  split at h
  · obtain ⟨rfl, rfl⟩ := Prod.mk.inj h
    exact ⟨hsound, hsame, fun _ hasked => nomatch hasked⟩
  · next token htoken =>
    split at h
    · obtain ⟨rfl, rfl⟩ := Prod.mk.inj h
      exact ⟨hsound, hsame, fun _ hasked => nomatch hasked⟩
    · next next keys hkeys =>
      obtain ⟨rfl, rfl⟩ := Prod.mk.inj h
      obtain ⟨hnext, hextends, hget⟩ := resolverFor_some hsound hkeys
      refine ⟨hnext, hextends, ?_⟩
      rintro asked ⟨⟩
      obtain ⟨header, hheader, hbearer⟩ := parseBearerToken_ok_iff.mp htoken
      obtain ⟨url, hurl, hcreated⟩ := hnext _ _ hget
      rw [hextends.timeoutDurationMs] at hcreated
      refine ⟨header, token, hheader, hbearer, rfl, ⟨url, hurl, hcreated⟩, ?_⟩
      rw [← hextends.clockToleranceSeconds]
      rfl

end JwtVerifier

end ShieldWard.Edge
