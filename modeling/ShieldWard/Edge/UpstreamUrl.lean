import ShieldWard.Edge.CircuitRuns
import ShieldWard.Edge.Proxy
import ShieldWard.Lib.UrlText
import Mathlib.Tactic.FinCases

/-!
# Where an upstream request goes

The path that `buildUpstreamUrl` assigns is parsed again by the setter. The standard resolves paths
and queries when a URL is parsed, and joining two resolved paths gives a resolved path, so the
setters find nothing to change.
-/

namespace ShieldWard.Edge

open UrlText

/-- The C0 control percent-encode set. -/
def isC0ControlEncoded (c : Char) : Bool := c.toNat ≤ 0x1f || 0x7e < c.toNat

def isQueryEncoded (c : Char) : Bool :=
  isC0ControlEncoded c || c ∈ [' ', '"', '#', '<', '>']

/-- The percent-encode set of queries of special URLs. -/
def isSpecialQueryEncoded (c : Char) : Bool := isQueryEncoded c || c = '\''

def isPathEncoded (c : Char) : Bool :=
  isQueryEncoded c || c ∈ ['?', '^', '`', '{', '}']

/-- What the edge relies on of the parser of URLs and of the setters of a special URL. -/
structure FollowsUrlStandard (P : Platform) : Prop where
  pathname : ∀ text, (P.pathnameOf text).1 = String.ofList (setPath isPathEncoded text.toList)
  search : ∀ text, P.searchOf text = String.ofList (setQuery isSpecialQueryEncoded text.toList)
  /-- A parsed URL is resolved. -/
  parsed : ∀ text url, P.parseUrl text = some url →
    url.protocol = "http:" ∨ url.protocol = "https:" →
    ResolvedPath isPathEncoded url.pathname.toList ∧
      ResolvedQuery isSpecialQueryEncoded url.search.toList

/-- A URL under the base path of a target. -/
structure Confined (target incomingUrl url : Url) : Prop where
  protocol : url.protocol = target.protocol
  hostname : url.hostname = target.hostname
  port : url.port = target.port
  username : url.username = ""
  password : url.password = ""
  hash : url.hash = ""
  secure : url.protocol = "https:" ∨ url.protocol = "http:" ∧ isLoopbackHostname url.hostname = true
  pathname : url.pathname =
    String.ofList (target.pathname.toList.rdropWhile (· = '/')) ++ incomingUrl.pathname
  /-- The segments of the base and then those of the request, none of which is a dot segment. -/
  segments : UrlText.segments isPathEncoded url.pathname.toList =
    base (UrlText.segments isPathEncoded target.pathname.toList) ++
      UrlText.segments isPathEncoded incomingUrl.pathname.toList
  resolved : ∀ segment ∈ UrlText.segments isPathEncoded url.pathname.toList,
    isSingleDot segment = false ∧ isDoubleDot segment = false
  search : url.search = incomingUrl.search

variable {P : Platform}

/-- The path of the target without its final slashes; the case of a bare slash makes no
difference. -/
theorem upstreamPath_eq (pathname : String) :
    (if pathname = "/" then "" else String.ofList (pathname.toList.rdropWhile (· = '/'))) =
      String.ofList (pathname.toList.rdropWhile (· = '/')) := by
  split
  · next hroot =>
    subst hroot
    rfl
  · rfl

theorem resolvedPath_ne_nil {text : List Char} (h : ResolvedPath isPathEncoded text) :
    text ≠ [] := by
  obtain ⟨path, hne, _, rfl⟩ := h
  cases path with
  | nil => exact absurd rfl hne
  | cons segment rest =>
    rw [serialize_cons]
    exact List.cons_ne_nil _ _

/-- What is accepted, and the URL that is made of it. -/
structure Built (P : Platform) (target incomingUrl url : Url) : Prop where
  http : target.protocol = "http:" ∨ target.protocol = "https:"
  secure : usesSecureTransport target = true
  protocol : url.protocol = target.protocol
  hostname : url.hostname = target.hostname
  port : url.port = target.port
  username : url.username = ""
  password : url.password = ""
  hash : url.hash = ""
  pathname : ∀ joined, joined =
    String.ofList (target.pathname.toList.rdropWhile (· = '/')) ++ incomingUrl.pathname →
      url.pathname = (P.pathnameOf (if joined = "" then "/" else joined)).1
  search : url.search = P.searchOf incomingUrl.search

theorem buildUpstreamUrl_ok {upstream : String} {incomingUrl url : Url}
    (h : buildUpstreamUrl P upstream incomingUrl = .ok url) :
    ∃ target, P.parseUrl upstream = some target ∧ Built P target incomingUrl url := by
  unfold buildUpstreamUrl at h
  split at h
  · cases h
  · next target htarget =>
    refine ⟨target, htarget, ?_⟩
    split at h
    · cases h
    · next hprotocol =>
      split at h
      · cases h
      · next hcredentials =>
        split at h
        · cases h
        · next hsecure =>
          have hnone : target.username = "" ∧ target.password = "" := by simpa using hcredentials
          have hhttp : target.protocol = "http:" ∨ target.protocol = "https:" := by
            by_contra hneither
            exact hprotocol (not_or.mp hneither)
          rw [← Except.ok.inj h]
          refine ⟨hhttp, by simpa using hsecure, rfl, rfl, rfl, hnone.1, hnone.2, rfl, ?_, rfl⟩
          rintro _ rfl
          simp only [upstreamPath_eq]

/-- Every URL that is built for an incoming URL of HTTP or HTTPS lies under the path of its
upstream, at the host of the upstream and with the incoming query. -/
theorem upstream_url_confined (hP : FollowsUrlStandard P) {incoming upstream : String}
    {incomingUrl url : Url} (hincoming : P.parseUrl incoming = some incomingUrl)
    (hhttp : incomingUrl.protocol = "http:" ∨ incomingUrl.protocol = "https:")
    (h : buildUpstreamUrl P upstream incomingUrl = .ok url) :
    ∃ target, P.parseUrl upstream = some target ∧ Confined target incomingUrl url := by
  obtain ⟨target, htarget, hbuilt⟩ := buildUpstreamUrl_ok h
  obtain ⟨hpath, _⟩ := hP.parsed upstream target htarget hbuilt.http
  obtain ⟨hpath', hquery⟩ := hP.parsed incoming incomingUrl hincoming hhttp
  obtain ⟨hresolved, hset, hsegments⟩ := setPath_join hpath hpath'
  have hjoined : (String.ofList (target.pathname.toList.rdropWhile (· = '/')) ++
      incomingUrl.pathname).toList =
      target.pathname.toList.rdropWhile (· = '/') ++ incomingUrl.pathname.toList := by
    rw [String.toList_append, String.toList_ofList]
  -- the joined path begins with a slash, so the setter does not ignore it
  have hne : String.ofList (target.pathname.toList.rdropWhile (· = '/')) ++
      incomingUrl.pathname ≠ "" := by
    intro hempty
    rw [hempty] at hjoined
    exact resolvedPath_ne_nil hresolved hjoined.symm
  -- it has no dot segments, so the setter leaves it as it is
  have hpathname : url.pathname =
      String.ofList (target.pathname.toList.rdropWhile (· = '/')) ++ incomingUrl.pathname := by
    rw [hbuilt.pathname _ rfl, hP.pathname, if_neg hne, hjoined, hset, ← hjoined,
      String.ofList_toList]
  have hsearch : url.search = incomingUrl.search := by
    rw [hbuilt.search, hP.search, setQuery_of_resolved hquery, String.ofList_toList]
  refine ⟨target, htarget, ?_⟩
  constructor
  case protocol => exact hbuilt.protocol
  case hostname => exact hbuilt.hostname
  case port => exact hbuilt.port
  case username => exact hbuilt.username
  case password => exact hbuilt.password
  case hash => exact hbuilt.hash
  case secure =>
    rw [hbuilt.protocol, hbuilt.hostname]
    simpa [usesSecureTransport] using hbuilt.secure
  case pathname => exact hpathname
  case segments => rw [hpathname, hjoined, hsegments]
  case resolved =>
    obtain ⟨path, hnonempty, hall, heq⟩ := hresolved
    rw [hpathname, hjoined, heq, segments_serialize hnonempty hall]
    intro segment hsegment
    exact ⟨(hall segment hsegment).notSingleDot, (hall segment hsegment).notDoubleDot⟩
  case search => exact hsearch

namespace Escape

/-- A base path of slashes, and a request path that begins with two. -/
def slashes : Url :=
  ⟨"http:", "", "", "127.0.0.1", "9000", "///", "?version=1", "", printable_of_all (by decide)⟩

def request : Url :=
  ⟨"https:", "", "", "edge.example", "", "//evil.example/%2e%2ex", "?a=1", "",
    printable_of_all (by decide)⟩

def built : Url :=
  ⟨"http:", "", "", "127.0.0.1", "9000", "//evil.example/%2e%2ex", "?a=1", "",
    printable_of_all (by decide)⟩

theorem printable_of_not_encoded (c : Char) (h : isPathEncoded c = false) :
    0x20 ≤ c.toNat ∧ c.toNat ≤ 0x7e := by
  simp only [isPathEncoded, isQueryEncoded, isC0ControlEncoded, Bool.or_eq_false_iff,
    decide_eq_false_iff_not, not_le, not_lt] at h
  omega

/-- A platform that knows the two URLs and sets paths and queries as the standard says. -/
def platform : Platform :=
  { CircuitRun.Orders.platform with
    parseUrl := fun text =>
      if text = "http://127.0.0.1:9000///?version=1" then some slashes
      else if text = "https://edge.example//evil.example/%2e%2ex?a=1" then some request
      else none
    pathnameOf := fun text =>
      ⟨String.ofList (setPath isPathEncoded text.toList), by
        rw [String.toList_ofList]
        exact printable_setPath printable_of_not_encoded _⟩
    searchOf := fun text => String.ofList (setQuery isSpecialQueryEncoded text.toList) }

theorem resolved_slashes : ResolvedPath isPathEncoded slashes.pathname.toList := by
  refine ⟨[[], [], []], by simp, ?_, rfl⟩
  intro segment hsegment
  have hnil : segment = [] := by simpa using hsegment
  subst hnil
  exact ⟨by simp, rfl, rfl⟩

theorem resolved_request : ResolvedPath isPathEncoded request.pathname.toList := by
  refine ⟨[[], "evil.example".toList, "%2e%2ex".toList], by simp, ?_, by decide⟩
  intro segment hsegment
  have hplain : ∀ text : List Char, (text.all fun c => !isTabOrNewline c && !isPathEncoded c &&
      !isSlash c) = true → ∀ c ∈ text, Plain isPathEncoded c ∧ isSlash c = false := by
    intro text hall c hc
    have hboth := List.all_eq_true.mp hall c hc
    simp only [Bool.and_eq_true, Bool.not_eq_true'] at hboth
    exact ⟨hboth.1, hboth.2⟩
  fin_cases hsegment <;> exact ⟨hplain _ (by decide), by decide, by decide⟩

theorem followsUrlStandard : FollowsUrlStandard platform where
  pathname _ := rfl
  search _ := rfl
  parsed text url h _ := by
    have hquery : ∀ query : List Char, query ≠ [] →
        (query.all fun c => !isTabOrNewline c && !isSpecialQueryEncoded c) = true →
          ResolvedQuery isSpecialQueryEncoded ('?' :: query) := by
      intro query hne hall
      refine .inr ⟨query, hne, fun c hc => ?_, rfl⟩
      have hboth := List.all_eq_true.mp hall c hc
      simp only [Bool.and_eq_true, Bool.not_eq_true'] at hboth
      exact hboth
    obtain ⟨_, hmem, rfl⟩ : ∃ known ∈ [slashes, request], known = url := by
      dsimp only [platform] at h
      split at h
      · exact ⟨slashes, by simp, Option.some.inj h⟩
      · split at h
        · exact ⟨request, by simp, Option.some.inj h⟩
        · cases h
    fin_cases hmem
    · exact ⟨resolved_slashes, hquery "version=1".toList (by decide) (by decide)⟩
    · exact ⟨resolved_request, hquery "a=1".toList (by decide) (by decide)⟩

theorem upstream_url_confined_slashes :
    buildUpstreamUrl platform "http://127.0.0.1:9000///?version=1" request = .ok built ∧
      Confined slashes request built := by
  have hbuilt : buildUpstreamUrl platform "http://127.0.0.1:9000///?version=1" request =
      .ok built := by rfl
  refine ⟨hbuilt, ?_⟩
  obtain ⟨target, htarget, hconfined⟩ := upstream_url_confined followsUrlStandard
    (show platform.parseUrl "https://edge.example//evil.example/%2e%2ex?a=1" = some request by rfl)
    (.inr rfl) hbuilt
  rw [show target = slashes from (Option.some.inj htarget).symm] at hconfined
  exact hconfined

end Escape

end ShieldWard.Edge
