import ShieldWard.Lib.Bytes
import Mathlib.Data.List.DropRight
import Mathlib.Data.List.Induction

/-!
# Paths and queries of URLs

What the parser of URLs makes of the path and of the query of a special URL when one of them is
assigned: tabs and newlines go, the path is split at slashes of either kind, single and double dot
segments are resolved, and characters of a set are percent-encoded.
-/

namespace UrlText

open Bytes

abbrev Segment := List Char

def isTabOrNewline (c : Char) : Bool := c = '\t' || c = '\n' || c = '\r'

def isSlash (c : Char) : Bool := c = '/' || c = '\\'

def isSingleDot (segment : Segment) : Bool :=
  String.ofList (segment.map Char.toLower) ∈ [".", "%2e"]

def isDoubleDot (segment : Segment) : Bool :=
  String.ofList (segment.map Char.toLower) ∈ ["..", ".%2e", "%2e.", "%2e%2e"]

/-- The bytes of a character, each as a percent sign and two digits. -/
def percentEncoded (c : Char) : List Char :=
  (utf8 (String.singleton c)).flatMap fun byte => '%' :: ((hex [byte]).toList.map Char.toUpper)

section Encoding

-- the percent-encode set
variable (encodes : Char → Bool)

def encode (c : Char) : List Char := if encodes c then percentEncoded c else [c]

/-- The end of a segment of the path so far; `final` if no slash ends it. -/
def endSegment (path : List Segment) (buffer : Segment) (final : Bool) : List Segment :=
  let ending := if final then [[]] else []
  if isDoubleDot buffer then path.dropLast ++ ending
  else if isSingleDot buffer then path ++ ending
  else path ++ [buffer]

/-- The path state. -/
def pathState : List Segment → Segment → List Char → List Segment
  | path, buffer, [] => endSegment path buffer true
  | path, buffer, c :: rest =>
    if isSlash c then pathState (endSegment path buffer false) [] rest
    else pathState path (buffer ++ encode encodes c) rest

/-- The segments of the path that a text sets, from the path start state. -/
def segments (text : List Char) : List Segment :=
  match text.filter (!isTabOrNewline ·) with
  | [] => pathState encodes [] [] []
  | c :: rest => pathState encodes [] [] (if isSlash c then rest else c :: rest)

/-- The text of a path. -/
def serialize (path : List Segment) : List Char := path.flatMap fun segment => '/' :: segment

/-- The text of the path that a text sets. -/
def setPath (text : List Char) : List Char := serialize (segments encodes text)

/-- The text of the query that a text sets, with its question mark. -/
def setQuery (text : List Char) : List Char :=
  let text := if text.head? = some '?' then text.tail else text
  let query := (text.filter (!isTabOrNewline ·)).flatMap (encode encodes)
  if query = [] then [] else '?' :: query

/-! ## Texts that the setters keep -/

/-- A character that stays what it is. -/
def Plain (c : Char) : Prop := isTabOrNewline c = false ∧ encodes c = false

/-- A segment as the parser leaves it. -/
structure Resolved (segment : Segment) : Prop where
  plain : ∀ c ∈ segment, Plain encodes c ∧ isSlash c = false
  notSingleDot : isSingleDot segment = false
  notDoubleDot : isDoubleDot segment = false

/-- The text of a path of resolved segments, of which there is at least one. -/
def ResolvedPath (text : List Char) : Prop :=
  ∃ path, path ≠ [] ∧ (∀ segment ∈ path, Resolved encodes segment) ∧ text = serialize path

/-- The text of a query, empty or after a question mark. -/
def ResolvedQuery (text : List Char) : Prop :=
  text = [] ∨ ∃ query, query ≠ [] ∧ (∀ c ∈ query, Plain encodes c) ∧ text = '?' :: query

variable {encodes}

theorem encode_of_plain {c : Char} (h : Plain encodes c) : encode encodes c = [c] := by
  rw [encode, h.2]
  rfl

theorem filter_of_plain {text : List Char} (h : ∀ c ∈ text, isTabOrNewline c = false) :
    text.filter (!isTabOrNewline ·) = text := by
  apply List.filter_eq_self.mpr
  intro c hc
  rw [h c hc]
  rfl

theorem endSegment_of_resolved {segment : Segment} (h : Resolved encodes segment)
    (path : List Segment) (final : Bool) : endSegment path segment final = path ++ [segment] := by
  unfold endSegment
  rw [h.notDoubleDot, h.notSingleDot]
  rfl

/-- A segment is collected in the buffer. -/
theorem pathState_append {segment : Segment}
    (h : ∀ c ∈ segment, Plain encodes c ∧ isSlash c = false)
    (path : List Segment) (buffer rest : List Char) :
    pathState encodes path buffer (segment ++ rest) =
      pathState encodes path (buffer ++ segment) rest := by
  induction segment generalizing buffer with
  | nil => simp
  | cons c segment ih =>
    obtain ⟨⟨hplain, hslash⟩, hrest⟩ := List.forall_mem_cons.mp h
    rw [List.cons_append, pathState, hslash, encode_of_plain hplain]
    simp only [Bool.false_eq_true, if_false]
    rw [ih hrest, List.append_assoc, List.singleton_append]

/-- Resolved segments are read one after the other. -/
theorem pathState_serialize {segment : Segment} {rest : List Segment}
    (h : Resolved encodes segment) (hrest : ∀ segment ∈ rest, Resolved encodes segment)
    (path : List Segment) :
    pathState encodes path [] (segment ++ serialize rest) = path ++ segment :: rest := by
  induction rest generalizing segment path with
  | nil =>
    rw [serialize, List.flatMap_nil, pathState_append h.plain, List.nil_append, pathState,
      endSegment_of_resolved h]
  | cons next rest ih =>
    obtain ⟨hnext, hrest⟩ := List.forall_mem_cons.mp hrest
    have hslash : isSlash '/' = true := rfl
    rw [serialize, List.flatMap_cons, List.cons_append, pathState_append h.plain, List.nil_append,
      pathState, if_pos hslash, endSegment_of_resolved h]
    have hmore := ih hnext hrest (path ++ [segment])
    rw [serialize] at hmore
    rw [hmore, List.append_assoc, List.singleton_append]

theorem serialize_cons (segment : Segment) (rest : List Segment) :
    serialize (segment :: rest) = '/' :: (segment ++ serialize rest) := by
  rw [serialize, List.flatMap_cons]
  rfl

theorem serialize_append (path path' : List Segment) :
    serialize (path ++ path') = serialize path ++ serialize path' := List.flatMap_append

/-- The characters of a resolved path are slashes or those of its segments. -/
theorem notTab_of_mem_serialize {path : List Segment}
    (h : ∀ segment ∈ path, Resolved encodes segment) :
    ∀ c ∈ serialize path, isTabOrNewline c = false := by
  intro c hc
  rw [serialize, List.mem_flatMap] at hc
  obtain ⟨segment, hsegment, hc⟩ := hc
  rcases List.mem_cons.mp hc with rfl | hc
  · rfl
  · exact ((h segment hsegment).plain c hc).1.1

/-- A resolved path is read back. -/
theorem segments_serialize {path : List Segment} (hne : path ≠ [])
    (h : ∀ segment ∈ path, Resolved encodes segment) :
    segments encodes (serialize path) = path := by
  cases path with
  | nil => exact absurd rfl hne
  | cons segment rest =>
    obtain ⟨hsegment, hrest⟩ := List.forall_mem_cons.mp h
    have hslash : isSlash '/' = true := rfl
    rw [segments, filter_of_plain (notTab_of_mem_serialize h), serialize_cons]
    simp only [hslash, if_true]
    exact pathState_serialize hsegment hrest []

theorem setPath_of_resolved {text : List Char} (h : ResolvedPath encodes text) :
    setPath encodes text = text := by
  obtain ⟨path, hne, hpath, rfl⟩ := h
  rw [setPath, segments_serialize hne hpath]

theorem setQuery_of_resolved {text : List Char} (h : ResolvedQuery encodes text) :
    setQuery encodes text = text := by
  rcases h with rfl | ⟨query, hne, hquery, rfl⟩
  · rfl
  · have hencode : query.flatMap (encode encodes) = query := by
      calc
        query.flatMap (encode encodes) = query.flatMap fun c => [c] :=
          List.flatMap_congr fun c hc => encode_of_plain (hquery c hc)
        _ = query := List.flatMap_singleton' query
    simp only [setQuery, List.head?_cons, if_true, List.tail_cons]
    rw [filter_of_plain fun c hc => (hquery c hc).1, hencode, if_neg hne]

/-! ## Joining paths -/

/-- The path without the empty segments at its end. -/
def base (path : List Segment) : List Segment := path.rdropWhile (· = [])

theorem mem_of_mem_base {path : List Segment} {segment : Segment} (h : segment ∈ base path) :
    segment ∈ path := (List.rdropWhile_prefix _ path).subset h

/-- Dropping the slashes at the end of the text drops the empty segments at the end of the path. -/
theorem rdropWhile_serialize {path : List Segment}
    (h : ∀ segment ∈ path, Resolved encodes segment) :
    (serialize path).rdropWhile (· = '/') = serialize (base path) := by
  induction path using List.reverseRecOn with
  | nil => rfl
  | append_singleton path segment ih =>
    obtain ⟨hpath, hsegment⟩ := List.forall_mem_append.mp h
    have hone : serialize [segment] = '/' :: segment := by
      rw [serialize_cons]
      simp [serialize]
    rw [base, serialize_append, hone]
    cases hlast : segment.getLast? with
    | none =>
      rw [List.getLast?_eq_none_iff] at hlast
      subst hlast
      rw [List.rdropWhile_concat_pos _ _ _ (by simp), List.rdropWhile_concat_pos _ _ _ (by simp)]
      exact ih hpath
    | some c =>
      have hne : segment ≠ [] := by
        rintro rfl
        cases hlast
      -- the last character belongs to a segment, so it is no slash
      have hc : c ≠ '/' := by
        rintro rfl
        have hslash := ((hsegment segment (List.mem_singleton_self segment)).plain '/'
          (List.mem_of_mem_getLast? hlast)).2
        cases hslash
      obtain ⟨front, hfront⟩ := List.getLast?_eq_some_iff.mp hlast
      rw [List.rdropWhile_concat_neg _ _ _ (by simpa using hne), hfront, ← List.cons_append,
        ← List.append_assoc, List.rdropWhile_concat_neg _ _ _ (by simpa using hc),
        serialize_append, ← hfront, hone, hfront]
      simp

/-- A resolved path without its final slashes, followed by another one, is a resolved path. The
assignment keeps it, and its segments are those of the two. -/
theorem setPath_join {text text' : List Char} (h : ResolvedPath encodes text)
    (h' : ResolvedPath encodes text') :
    ResolvedPath encodes (text.rdropWhile (· = '/') ++ text') ∧
      setPath encodes (text.rdropWhile (· = '/') ++ text') = text.rdropWhile (· = '/') ++ text' ∧
      segments encodes (text.rdropWhile (· = '/') ++ text') =
        base (segments encodes text) ++ segments encodes text' := by
  obtain ⟨path, hne, hpath, rfl⟩ := h
  obtain ⟨path', hne', hpath', rfl⟩ := h'
  have hjoined : base path ++ path' ≠ [] := List.append_ne_nil_of_right_ne_nil _ hne'
  have hall : ∀ segment ∈ base path ++ path', Resolved encodes segment :=
    List.forall_mem_append.mpr
      ⟨fun segment hsegment => hpath segment (mem_of_mem_base hsegment), hpath'⟩
  rw [rdropWhile_serialize hpath, ← serialize_append]
  have hresolved : ResolvedPath encodes (serialize (base path ++ path')) :=
    ⟨_, hjoined, hall, rfl⟩
  refine ⟨hresolved, setPath_of_resolved hresolved, ?_⟩
  rw [segments_serialize hjoined hall, segments_serialize hne hpath,
    segments_serialize hne' hpath']

/-! ## The characters of a path -/

/-- What the encoding of every character consists of, the text of a path consists of. -/
theorem of_mem_setPath {p : Char → Prop} (hslash : p '/')
    (hencode : ∀ c, ∀ d ∈ encode encodes c, p d) (text : List Char) :
    ∀ c ∈ setPath encodes text, p c := by
  -- ending a segment adds an empty one, or the buffer, or drops the last one
  have hend : ∀ (path : List Segment) (buffer : Segment) (final : Bool),
      (∀ segment ∈ path, ∀ c ∈ segment, p c) → (∀ c ∈ buffer, p c) →
        ∀ segment ∈ endSegment path buffer final, ∀ c ∈ segment, p c := by
    intro path buffer final hpath hbuffer
    have hempty : ∀ segment ∈ (if final then [[]] else [] : List Segment), ∀ c ∈ segment, p c := by
      intro segment hsegment c hc
      split at hsegment
      · rw [List.mem_singleton.mp hsegment] at hc
        cases hc
      · cases hsegment
    unfold endSegment
    dsimp only
    split
    · exact List.forall_mem_append.mpr
        ⟨fun segment h => hpath segment ((List.dropLast_prefix path).subset h), hempty⟩
    · split
      · exact List.forall_mem_append.mpr ⟨hpath, hempty⟩
      · exact List.forall_mem_append.mpr ⟨hpath, List.forall_mem_singleton.mpr hbuffer⟩
  -- by induction on the text, over any path and buffer
  have hstate : ∀ (rest : List Char) (path : List Segment) (buffer : Segment),
      (∀ segment ∈ path, ∀ c ∈ segment, p c) → (∀ c ∈ buffer, p c) →
        ∀ segment ∈ pathState encodes path buffer rest, ∀ c ∈ segment, p c := by
    intro rest
    induction rest with
    | nil => exact fun path buffer => hend path buffer true
    | cons c rest ih =>
      intro path buffer hpath hbuffer
      rw [pathState]
      split
      · exact ih _ [] (hend path buffer false hpath hbuffer) (by simp)
      · exact ih path _ hpath (List.forall_mem_append.mpr ⟨hbuffer, hencode c⟩)
  have hsegments : ∀ segment ∈ segments encodes text, ∀ c ∈ segment, p c := by
    unfold segments
    split
    · exact hstate [] [] [] (by simp) (by simp)
    · exact hstate _ [] [] (by simp) (by simp)
  intro c hc
  rw [setPath, serialize, List.mem_flatMap] at hc
  obtain ⟨segment, hsegment, hc⟩ := hc
  rcases List.mem_cons.mp hc with rfl | hc
  · exact hslash
  · exact hsegments segment hsegment c hc

/-- A percent-encoded character consists of printable ones. -/
theorem printable_of_mem_percentEncoded {c d : Char} (h : d ∈ percentEncoded c) :
    0x20 ≤ d.toNat ∧ d.toNat ≤ 0x7e := by
  have hdigits : ∀ n < 16,
      0x20 ≤ (hexDigit n).toUpper.toNat ∧ (hexDigit n).toUpper.toNat ≤ 0x7e := by decide
  rw [percentEncoded, List.mem_flatMap] at h
  obtain ⟨byte, _, h⟩ := h
  rcases List.mem_cons.mp h with rfl | h
  · decide
  · obtain ⟨digit, hdigit, rfl⟩ := List.mem_map.mp h
    obtain ⟨n, hn, rfl⟩ := exists_of_mem_hex hdigit
    exact hdigits n hn

/-- Where every character that is not printable is encoded, a path is printable. -/
theorem printable_setPath (h : ∀ c, encodes c = false → 0x20 ≤ c.toNat ∧ c.toNat ≤ 0x7e)
    (text : List Char) : ∀ c ∈ setPath encodes text, 0x20 ≤ c.toNat ∧ c.toNat ≤ 0x7e := by
  refine of_mem_setPath (by decide) (fun c d hd => ?_) text
  unfold encode at hd
  split at hd
  · exact printable_of_mem_percentEncoded hd
  · next hplain =>
    rw [List.mem_singleton.mp hd]
    exact h c (by simpa using hplain)

end Encoding
end UrlText
