import ShieldWard.Edge.Proxy
import ShieldWard.Lib.Fallible

/-!
# The headers of an upstream request

`createUpstreamHeaders` deletes the headers that a Connection header names, those that concern
one hop and those that the edge answers for, and then sets its own. None of its own is left by
then, so the result is what it keeps followed by what it sets (`createUpstreamHeaders_eq`).
-/

namespace ShieldWard.Edge

open Ecma

/-! ## Header lists -/

namespace Headers

variable {headers : Headers} {name : String}

/-- One of the names is this one, in whatever case. -/
def Mentions (names : List String) (name : String) : Prop :=
  ∃ mentioned ∈ names, byteLowercase mentioned = byteLowercase name

instance (names : List String) (name : String) : Decidable (Mentions names name) :=
  inferInstanceAs (Decidable (∃ mentioned ∈ names, _))

theorem any_hasName {names : List String} {header : String × String} :
    (names.any (hasName · header)) = true ↔ Mentions names header.1 := by
  rw [List.any_eq_true]
  constructor
  · rintro ⟨mentioned, hmem, heq⟩
    exact ⟨mentioned, hmem, (of_decide_eq_true heq).symm⟩
  · rintro ⟨mentioned, hmem, heq⟩
    exact ⟨mentioned, hmem, decide_eq_true heq.symm⟩

theorem foldl_delete (names : List String) (headers : Headers) :
    names.foldl delete headers = headers.filter fun header => !names.any (hasName · header) := by
  induction names generalizing headers with
  | nil => simp
  | cons name names ih =>
    rw [List.foldl_cons, ih, delete, List.filter_filter]
    refine List.filter_congr fun header _ => ?_
    rw [List.any_cons, Bool.not_or, Bool.and_comm]

/-- A header that is not there is set at the end. -/
theorem set_of_absent (h : headers.has name = false) (value : String) :
    headers.set name value = headers ++ [(name, value)] := by
  have hall : ∀ header ∈ headers, !hasName name header := by
    intro header hmem
    rw [has, List.any_eq_false] at h
    rw [Bool.not_eq_true']
    exact Bool.eq_false_iff.mpr (h header hmem)
  unfold set
  rw [List.span_eq_takeWhile_dropWhile, List.takeWhile_eq_self_iff.mpr hall,
    List.dropWhile_eq_nil_iff.mpr hall]

theorem has_append (headers headers' : Headers) (name : String) :
    has (headers ++ headers') name = (has headers name || has headers' name) :=
  List.any_append

theorem has_cons (first value : String) (headers : Headers) (name : String) :
    has ((first, value) :: headers) name =
      (decide (byteLowercase first = byteLowercase name) || has headers name) := rfl

theorem values_append (headers headers' : Headers) (name : String) :
    values (headers ++ headers') name = values headers name ++ values headers' name := by
  unfold values
  rw [List.filter_append, List.map_append]

theorem values_nil (name : String) : values [] name = [] := rfl

theorem values_cons (first value : String) (headers : Headers) (name : String) :
    values ((first, value) :: headers) name =
      if byteLowercase first = byteLowercase name then value :: values headers name
      else values headers name := by
  unfold values
  by_cases h : byteLowercase first = byteLowercase name
  · have hname : hasName name (first, value) = true := decide_eq_true h
    rw [if_pos h, List.filter_cons_of_pos hname]
    rfl
  · have hname : ¬hasName name (first, value) = true := fun hname => h (of_decide_eq_true hname)
    rw [if_neg h, List.filter_cons_of_neg hname]

/-- A collection has a name exactly when it has values of it. -/
theorem has_iff : headers.has name = true ↔ headers.values name ≠ [] := by
  unfold has values
  rw [ne_eq, List.map_eq_nil_iff, List.filter_eq_nil_iff]
  simp only [List.any_eq_true, not_forall, exists_prop, not_not]

theorem has_eq_false_iff : headers.has name = false ↔ headers.values name = [] := by
  rw [← Bool.not_eq_true, has_iff, not_not]

/-- The values that are left of a name when some names have been deleted. -/
theorem values_filter (names : List String) (headers : Headers) (name : String) :
    values (headers.filter fun header => !names.any (hasName · header)) name =
      if Mentions names name then [] else headers.values name := by
  unfold values
  rw [List.filter_filter]
  split
  · next hmentioned =>
    rw [List.map_eq_nil_iff, List.filter_eq_nil_iff]
    intro header _ hboth
    rw [Bool.and_eq_true, Bool.not_eq_true', ← Bool.not_eq_true, any_hasName] at hboth
    obtain ⟨mentioned, hmem, heq⟩ := hmentioned
    exact hboth.2 ⟨mentioned, hmem, heq.trans (of_decide_eq_true hboth.1).symm⟩
  · next hnot =>
    congr 1
    refine List.filter_congr fun header _ => ?_
    by_cases hname : hasName name header = true
    · rw [hname, Bool.true_and, Bool.not_eq_true', ← Bool.not_eq_true, any_hasName]
      rintro ⟨mentioned, hmem, heq⟩
      exact hnot ⟨mentioned, hmem, heq.trans (of_decide_eq_true hname)⟩
    · rw [Bool.eq_false_iff.mpr hname, Bool.false_and]

end Headers

/-! ## Connection headers -/

/-- The elements of one Connection header. -/
def connectionElements (value : String) : List String :=
  (value.toList.splitOn ',').map fun element => trim (String.ofList element)

/-- An element of a Connection header is this name. -/
def Nominated (source : Headers) (name : String) : Prop :=
  Headers.Mentions ((source.values "connection").flatMap connectionElements) name

/-- The elements of the joined Connection headers that are header names. -/
def nominatedNames (source : Headers) : List String :=
  match source.get "connection" with
  | none => []
  | some connection => (connectionElements connection).filter isHeaderName

theorem trim_space (cs : List Char) : trim (String.ofList (' ' :: cs)) = trim (String.ofList cs) := by
  unfold trim
  rw [String.toList_ofList, String.toList_ofList, List.dropWhile_cons_of_pos (by decide)]

/-- The elements of two Connection headers that have been joined. -/
theorem connectionElements_join (value rest : String) :
    connectionElements (value ++ ", " ++ rest) =
      connectionElements value ++ connectionElements rest := by
  unfold connectionElements
  have hjoined : (value ++ ", " ++ rest).toList = value.toList ++ ',' :: ' ' :: rest.toList := by
    rw [String.toList_append, String.toList_append, List.append_assoc]
    rfl
  rw [hjoined, List.splitOn_append_cons_self, List.map_append]
  congr 1
  -- the space after the comma goes to the first element, where `trim` removes it
  obtain ⟨first, others, hsplit⟩ := List.exists_cons_of_ne_nil (List.splitOn_ne_nil ',' rest.toList)
  rw [List.splitOn_cons_eq_if_modifyHead, if_neg (by decide), hsplit, List.modifyHead_cons,
    List.map_cons, List.map_cons, trim_space]

theorem connectionElements_intercalate (value : String) (values : List String) :
    connectionElements (String.intercalate ", " (value :: values)) =
      (value :: values).flatMap connectionElements := by
  induction values generalizing value with
  | nil => rw [String.intercalate_singleton, List.flatMap_singleton]
  | cons next values ih =>
    rw [String.intercalate_cons_cons, connectionElements_join, ih]
    rfl

theorem nominatedNames_eq (source : Headers) :
    nominatedNames source =
      ((source.values "connection").flatMap connectionElements).filter isHeaderName := by
  unfold nominatedNames Headers.get
  cases source.values "connection" with
  | nil => rfl
  | cons value values =>
    dsimp only
    rw [Headers.combine_of_ne (by decide), connectionElements_intercalate]

/-! ## Header names -/

/-- Lower case changes the letters of upper case only, and into letters. -/
theorem toLower_eq_or (c : Char) :
    c.toLower = c ∨ ('A' ≤ c ∧ c ≤ 'Z') ∧ 'a' ≤ c.toLower ∧ c.toLower ≤ 'z' := by
  by_cases h : c.val ≥ 'A'.val ∧ c.val ≤ 'Z'.val
  · right
    have hval : c.toLower.val = c.val + 32 := by
      unfold Char.toLower
      rw [dif_pos h]
      rfl
    have hlower : 65 ≤ c.val.toNat := UInt32.le_iff_toNat_le.mp h.1
    have hupper : c.val.toNat ≤ 90 := UInt32.le_iff_toNat_le.mp h.2
    have hnat : c.toLower.val.toNat = c.val.toNat + 32 := by
      rw [hval, UInt32.toNat_add]
      show (c.val.toNat + 32) % 2 ^ 32 = _
      omega
    refine ⟨h, UInt32.le_iff_toNat_le.mpr ?_, UInt32.le_iff_toNat_le.mpr ?_⟩
    · show 97 ≤ c.toLower.val.toNat
      omega
    · show c.toLower.val.toNat ≤ 122
      omega
  · left
    unfold Char.toLower
    rw [dif_neg h]

/-- A name is that of a header in every case or in none. -/
theorem isHeaderName_byteLowercase (name : String) :
    isHeaderName (Headers.byteLowercase name) = isHeaderName name := by
  unfold isHeaderName Headers.byteLowercase
  rw [String.toList_ofList, List.all_map]
  congr 1
  · rw [decide_eq_decide, ne_eq, List.map_eq_nil_iff]
  · congr 1
    funext c
    dsimp only [Function.comp]
    rcases toLower_eq_or c with heq | ⟨⟨hA, hZ⟩, ha, hz⟩
    · rw [heq]
    · simp only [hA, hZ, ha, hz, decide_true, Bool.and_self, Bool.or_true, Bool.true_or]

theorem isHeaderName_congr {name name' : String}
    (h : Headers.byteLowercase name = Headers.byteLowercase name') :
    isHeaderName name = isHeaderName name' := by
  rw [← isHeaderName_byteLowercase name, h, isHeaderName_byteLowercase]

/-- The names that the code takes from the Connection headers are those that they nominate. -/
theorem mentions_nominatedNames {source : Headers} {name : String}
    (hname : isHeaderName name = true) :
    Headers.Mentions (nominatedNames source) name ↔ Nominated source name := by
  rw [nominatedNames_eq]
  constructor
  · rintro ⟨mentioned, hmem, heq⟩
    exact ⟨mentioned, (List.mem_filter.mp hmem).1, heq⟩
  · rintro ⟨mentioned, hmem, heq⟩
    exact ⟨mentioned, List.mem_filter.mpr ⟨hmem, (isHeaderName_congr heq).trans hname⟩, heq⟩

/-! ## What is kept and what is set -/

/-- The names that are deleted, in their order. -/
def deletedNames (source : Headers) : List String :=
  nominatedNames source ++ HOP_BY_HOP_HEADERS ++ REPLACED_HEADERS

/-- The headers that are passed on. -/
def keptHeaders (source : Headers) : Headers :=
  source.filter fun header => !(deletedNames source).any (Headers.hasName · header)

/-- Each name that is deleted is the name of a header, so `headers.delete` never throws. -/
theorem isHeaderName_of_mem_deletedNames {source : Headers} :
    ∀ name ∈ deletedNames source, isHeaderName name = true := by
  intro name hmem
  have hfixed : ∀ name ∈ HOP_BY_HOP_HEADERS ++ REPLACED_HEADERS, isHeaderName name = true := by
    decide
  unfold deletedNames at hmem
  rw [List.append_assoc] at hmem
  rcases List.mem_append.mp hmem with hnominated | hfixedName
  · rw [nominatedNames_eq] at hnominated
    exact (List.mem_filter.mp hnominated).2
  · exact hfixed name hfixedName

theorem foldl_delete_sanitizeHeaders (source : Headers) :
    REPLACED_HEADERS.foldl Headers.delete (sanitizeHeaders source) = keptHeaders source := by
  have hsanitize : sanitizeHeaders source =
      (nominatedNames source ++ HOP_BY_HOP_HEADERS).foldl Headers.delete source := rfl
  rw [hsanitize, ← List.foldl_append, Headers.foldl_delete]
  rfl

/-- None of the headers that are kept has a name that is deleted. -/
theorem has_keptHeaders {source : Headers} {name : String}
    (h : Headers.Mentions (deletedNames source) name) :
    (keptHeaders source).has name = false := by
  rw [Headers.has_eq_false_iff]
  unfold keptHeaders
  rw [Headers.values_filter, if_pos h]

theorem has_keptHeaders_replaced (source : Headers) {name : String} (h : name ∈ REPLACED_HEADERS) :
    (keptHeaders source).has name = false :=
  has_keptHeaders ⟨name, List.mem_append_right _ h, rfl⟩

/-- The address of the client, when it is not blank. -/
def clientAddress (clientIp : Option String) : Option String := clientIp.filter (!isBlank ·)

/-- The headers of the URL and of the address, with their values as they are stored. -/
def forwardedHeaders (incomingUrl : Url) (clientIp : Option String) : Headers :=
  [("x-forwarded-host", incomingUrl.host),
    ("x-forwarded-proto", String.ofList incomingUrl.protocol.toList.dropLast)] ++
  match clientAddress clientIp with
  | none => []
  | some address => [("x-forwarded-for", address), ("x-real-ip", address)]

/-- The headers that the edge sets. -/
def ownHeaders (incomingUrl : Url) (clientIp : Option String) (requestId : String) : Headers :=
  forwardedHeaders incomingUrl clientIp ++ [("x-request-id", requestId)]

/-- A header value: without white space at its ends, and of characters that may stand in one. -/
structure IsHeaderValue (value : String) : Prop where
  normalized : normalizeHeaderValue value = value
  valid : isHeaderValue value = true

theorem setHeader_of_absent {headers : Headers} {name value : String} (hvalue : IsHeaderValue value)
    (h : headers.has name = false) : setHeader name value headers = .ok (headers ++ [(name, value)]) := by
  unfold setHeader
  dsimp only
  rw [hvalue.normalized, Headers.set_of_absent h, if_pos hvalue.valid]

/-- A header that the edge sets for the first time. -/
theorem setHeader_own {kept own : Headers} {name value : String} (hvalue : IsHeaderValue value)
    (hkept : kept.has name = false) (hown : own.has name = false) :
    setHeader name value (kept ++ own) = .ok (kept ++ (own ++ [(name, value)])) := by
  have hnone : Headers.has (kept ++ own) name = false := by
    rw [Headers.has_append, hkept, hown]
    rfl
  rw [setHeader_of_absent hvalue hnone, List.append_assoc]

/-- The upstream request has the headers that are kept and those that the edge sets. -/
theorem createUpstreamHeaders_eq (source : Headers) (incomingUrl : Url) {clientIp : Option String}
    {requestId : String} (hip : ∀ address ∈ clientAddress clientIp, IsHeaderValue address)
    (hid : IsHeaderValue requestId) :
    createUpstreamHeaders source incomingUrl clientIp requestId =
      .ok (keptHeaders source ++ ownHeaders incomingUrl clientIp requestId) := by
  have habsent : ∀ name ∈ REPLACED_HEADERS, (keptHeaders source).has name = false :=
    fun _ hmem => has_keptHeaders_replaced source hmem
  unfold createUpstreamHeaders
  rw [foldl_delete_sanitizeHeaders]
  generalize keptHeaders source = kept at habsent
  dsimp only
  have hproto : Headers.has (kept ++ [("x-forwarded-host", incomingUrl.host)])
      "x-forwarded-proto" = false := by
    rw [Headers.has_append, habsent _ (by decide), Headers.has_cons]
    decide
  rw [Headers.set_of_absent (habsent _ (by decide)), Headers.set_of_absent hproto,
    List.append_assoc]
  -- the request ID is set last
  have hlast : setHeader "x-request-id" requestId (kept ++ forwardedHeaders incomingUrl clientIp) =
      .ok (kept ++ ownHeaders incomingUrl clientIp requestId) := by
    refine setHeader_own hid (habsent _ (by decide)) ?_
    unfold forwardedHeaders
    rw [Headers.has_append, Headers.has_cons, Headers.has_cons]
    cases clientAddress clientIp with
    | none => decide
    | some address =>
      dsimp only
      rw [Headers.has_cons, Headers.has_cons]
      decide
  cases clientIp with
  | none => exact Except.bind_eq_ok_iff.mpr ⟨_, rfl, hlast⟩
  | some address =>
    unfold forwardedHeaders at hlast
    dsimp only
    by_cases hblank : isBlank address = true
    · have hnone : clientAddress (some address) = none := by
        unfold clientAddress
        rw [Option.filter_some, hblank]
        rfl
      rw [hnone] at hlast
      rw [if_pos hblank]
      exact Except.bind_eq_ok_iff.mpr ⟨_, rfl, hlast⟩
    · have hsome : clientAddress (some address) = some address := by
        unfold clientAddress
        rw [Option.filter_some, Bool.eq_false_iff.mpr hblank]
        rfl
      have hvalue := hip address hsome
      rw [hsome] at hlast
      rw [if_neg hblank]
      refine Except.bind_eq_ok_iff.mpr ⟨_, Except.bind_eq_ok_iff.mpr ⟨_,
        setHeader_own hvalue (habsent _ (by decide)) ?_,
        setHeader_own hvalue (habsent _ (by decide)) ?_⟩, ?_⟩
      · rw [Headers.has_append, Headers.has_cons, Headers.has_cons]
        decide
      · rw [Headers.has_append, Headers.has_append, Headers.has_cons, Headers.has_cons,
          Headers.has_cons]
        decide
      · rw [List.append_assoc, List.append_assoc]
        exact hlast

/-! ## Sanitised headers -/

/-- The edge sets only headers that it has deleted before. -/
theorem mem_ownHeaders {incomingUrl : Url} {clientIp : Option String} {requestId : String} :
    ∀ header ∈ ownHeaders incomingUrl clientIp requestId, header.1 ∈ REPLACED_HEADERS := by
  intro header hmem
  have hname : header.1 ∈ (ownHeaders incomingUrl clientIp requestId).map Prod.fst :=
    List.mem_map_of_mem hmem
  generalize header.1 = name at hname ⊢
  unfold ownHeaders forwardedHeaders at hname
  revert name
  cases clientAddress clientIp with
  | none =>
    show ∀ name ∈ ["x-forwarded-host", "x-forwarded-proto", "x-request-id"],
      name ∈ REPLACED_HEADERS
    decide
  | some address =>
    show ∀ name ∈ ["x-forwarded-host", "x-forwarded-proto", "x-forwarded-for", "x-real-ip",
      "x-request-id"], name ∈ REPLACED_HEADERS
    decide

/-- The values that the edge sets. -/
theorem values_ownHeaders (incomingUrl : Url) (clientIp : Option String) (requestId : String) :
    (ownHeaders incomingUrl clientIp requestId).values "x-forwarded-host" = [incomingUrl.host] ∧
      (ownHeaders incomingUrl clientIp requestId).values "x-forwarded-proto" =
        [String.ofList incomingUrl.protocol.toList.dropLast] ∧
      (ownHeaders incomingUrl clientIp requestId).values "x-request-id" = [requestId] ∧
      (ownHeaders incomingUrl clientIp requestId).values "x-forwarded-for" =
        (clientAddress clientIp).toList ∧
      (ownHeaders incomingUrl clientIp requestId).values "x-real-ip" =
        (clientAddress clientIp).toList := by
  have hlower : ∀ name ∈ REPLACED_HEADERS, Headers.byteLowercase name = name := by decide
  have hhost := hlower "x-forwarded-host" (by decide)
  have hproto := hlower "x-forwarded-proto" (by decide)
  have hid := hlower "x-request-id" (by decide)
  have hfor := hlower "x-forwarded-for" (by decide)
  have hreal := hlower "x-real-ip" (by decide)
  unfold ownHeaders forwardedHeaders
  cases clientAddress clientIp with
  | none => simp [Headers.values_cons, Headers.values_nil, hhost, hproto, hid, hfor, hreal]
  | some address =>
    simp [Headers.values_cons, Headers.values_nil, hhost, hproto, hid, hfor, hreal]

theorem values_ownHeaders_of_not_mentions {incomingUrl : Url} {clientIp : Option String}
    {requestId name : String} (h : ¬Headers.Mentions REPLACED_HEADERS name) :
    (ownHeaders incomingUrl clientIp requestId).values name = [] := by
  unfold Headers.values
  rw [List.map_eq_nil_iff, List.filter_eq_nil_iff]
  intro header hmem hname
  exact h ⟨header.1, mem_ownHeaders header hmem, of_decide_eq_true hname⟩

/-- The values of a name in the upstream request. -/
theorem values_upstream (source own : Headers) (name : String) :
    Headers.values (keptHeaders source ++ own) name =
      (if Headers.Mentions (deletedNames source) name then [] else source.values name) ++
        own.values name := by
  rw [Headers.values_append]
  congr 1
  exact Headers.values_filter (deletedNames source) source name

theorem mentions_append {names names' : List String} {name : String} :
    Headers.Mentions (names ++ names') name ↔
      Headers.Mentions names name ∨ Headers.Mentions names' name := by
  unfold Headers.Mentions
  simp only [List.mem_append, or_and_right, exists_or]

/-- The names in which requests may differ without a difference upstream. -/
def hiddenNames : List String :=
  REPLACED_HEADERS ++ HOP_BY_HOP_HEADERS.filter fun name => name ≠ "connection"

/-- The values that are kept do not depend on the hidden headers. -/
theorem values_keptHeaders_congr {source source' : Headers}
    (h : ∀ name, ¬Headers.Mentions hiddenNames name → source'.values name = source.values name)
    (name : String) : (keptHeaders source').values name = (keptHeaders source).values name := by
  have hconnection : source'.values "connection" = source.values "connection" :=
    h _ (by decide)
  have hdeleted : deletedNames source' = deletedNames source := by
    unfold deletedNames
    rw [nominatedNames_eq, nominatedNames_eq, hconnection]
  unfold keptHeaders
  rw [Headers.values_filter, Headers.values_filter, hdeleted]
  split
  · rfl
  · next hkept =>
    apply h
    intro hhidden
    -- a hidden name is one that is deleted
    apply hkept
    unfold deletedNames
    rw [List.append_assoc]
    apply mentions_append.mpr
    right
    rcases mentions_append.mp hhidden with hreplaced | ⟨mentioned, hmem, heq⟩
    · exact mentions_append.mpr (.inr hreplaced)
    · exact mentions_append.mpr (.inl ⟨mentioned, (List.mem_filter.mp hmem).1, heq⟩)

/-- The headers of an upstream request can always be made. They contain no header that concerns
one hop and none that a Connection header nominates but those of the edge, which have its values;
all others are passed on, and what is hidden has no influence. -/
theorem upstream_headers_sanitized (source : Headers) (incomingUrl : Url)
    {clientIp : Option String} {requestId : String}
    (hip : ∀ address ∈ clientAddress clientIp, IsHeaderValue address)
    (hid : IsHeaderValue requestId) :
    ∃ headers, createUpstreamHeaders source incomingUrl clientIp requestId = .ok headers ∧
      (∀ name ∈ deletedNames source, isHeaderName name = true) ∧
      (∀ name ∈ HOP_BY_HOP_HEADERS, headers.has name = false) ∧
      (∀ name, isHeaderName name = true → Nominated source name → headers.has name = true →
        (ownHeaders incomingUrl clientIp requestId).has name = true) ∧
      headers.values "x-forwarded-host" = [incomingUrl.host] ∧
      headers.values "x-forwarded-proto" =
        [String.ofList incomingUrl.protocol.toList.dropLast] ∧
      headers.values "x-request-id" = [requestId] ∧
      headers.values "x-forwarded-for" = (clientAddress clientIp).toList ∧
      headers.values "x-real-ip" = (clientAddress clientIp).toList ∧
      (∀ name, ¬Nominated source name →
        ¬Headers.Mentions (HOP_BY_HOP_HEADERS ++ REPLACED_HEADERS) name →
        headers.values name = source.values name) ∧
      ∀ source', (∀ name, ¬Headers.Mentions hiddenNames name →
          source'.values name = source.values name) →
        ∃ headers', createUpstreamHeaders source' incomingUrl clientIp requestId = .ok headers' ∧
          ∀ name, headers'.values name = headers.values name := by
  have hmentions : ∀ name, Headers.Mentions (deletedNames source) name ↔
      Headers.Mentions (nominatedNames source) name ∨
        Headers.Mentions (HOP_BY_HOP_HEADERS ++ REPLACED_HEADERS) name := by
    intro name
    unfold deletedNames
    rw [List.append_assoc]
    exact mentions_append
  -- a header that the edge sets has the value that it sets
  have hown : ∀ name ∈ REPLACED_HEADERS,
      Headers.values (keptHeaders source ++ ownHeaders incomingUrl clientIp requestId) name =
        (ownHeaders incomingUrl clientIp requestId).values name := by
    intro name hmem
    rw [values_upstream, if_pos, List.nil_append]
    exact (hmentions name).mpr (.inr ⟨name, List.mem_append_right _ hmem, rfl⟩)
  refine ⟨_, createUpstreamHeaders_eq source incomingUrl hip hid, isHeaderName_of_mem_deletedNames,
    ?_, ?_, ?_, ?_, ?_, ?_, ?_, ?_, ?_⟩
  · intro name hmem
    have hnot : ∀ name ∈ HOP_BY_HOP_HEADERS, ¬Headers.Mentions REPLACED_HEADERS name := by decide
    rw [Headers.has_eq_false_iff, values_upstream, values_ownHeaders_of_not_mentions (hnot name hmem),
      if_pos]
    · rfl
    · exact (hmentions name).mpr (.inr ⟨name, List.mem_append_left _ hmem, rfl⟩)
  · intro name hname hnominated hhas
    rw [Headers.has_iff, values_upstream, if_pos, List.nil_append] at hhas
    · exact Headers.has_iff.mpr hhas
    · exact (hmentions name).mpr (.inl ((mentions_nominatedNames hname).mpr hnominated))
  · rw [hown _ (by decide)]
    exact (values_ownHeaders incomingUrl clientIp requestId).1
  · rw [hown _ (by decide)]
    exact (values_ownHeaders incomingUrl clientIp requestId).2.1
  · rw [hown _ (by decide)]
    exact (values_ownHeaders incomingUrl clientIp requestId).2.2.1
  · rw [hown _ (by decide)]
    exact (values_ownHeaders incomingUrl clientIp requestId).2.2.2.1
  · rw [hown _ (by decide)]
    exact (values_ownHeaders incomingUrl clientIp requestId).2.2.2.2
  · intro name hnominated hlisted
    have hreplaced : ¬Headers.Mentions REPLACED_HEADERS name :=
      fun h => hlisted (mentions_append.mpr (.inr h))
    rw [values_upstream, values_ownHeaders_of_not_mentions hreplaced, if_neg, List.append_nil]
    intro hdeleted
    rcases (hmentions name).mp hdeleted with ⟨mentioned, hmem, heq⟩ | h
    · rw [nominatedNames_eq] at hmem
      exact hnominated ⟨mentioned, (List.mem_filter.mp hmem).1, heq⟩
    · exact hlisted h
  · intro source' hsame
    refine ⟨_, createUpstreamHeaders_eq source' incomingUrl hip hid, fun name => ?_⟩
    rw [Headers.values_append, Headers.values_append, values_keptHeaders_congr hsame name]

/-! ## A request that nominates headers of the edge -/

namespace Adversary

def url : Url :=
  ⟨"https:", "", "", "edge.example", "", "/", "", "", printable_root⟩

/-- The client nominates a header of its own and one of the edge, in odd ways. -/
def headers : Headers :=
  [("authorization", "Bearer token"), ("Connection", "X-Remove ,, x-request-id"),
    ("connection", "\tx-remove"), ("x-remove", "secret"), ("Keep-Alive", "timeout=5"),
    ("X-Forwarded-For", "spoofed"), ("x-request-id", "spoofed")]

theorem isHeaderValue_address : IsHeaderValue "203.0.113.10" := ⟨by decide, by decide⟩

theorem isHeaderValue_requestId : IsHeaderValue "trusted-request-id" := ⟨by decide, by decide⟩

/-- What is left of the request is its authorization and what the edge sets. -/
theorem sanitized :
    ∃ sent, createUpstreamHeaders headers url (some "203.0.113.10") "trusted-request-id" =
        .ok sent ∧
      sent.has "keep-alive" = false ∧ sent.values "x-forwarded-for" = ["203.0.113.10"] ∧
      sent.values "x-request-id" = ["trusted-request-id"] ∧
      sent.values "authorization" = ["Bearer token"] := by
  have haddress : clientAddress (some "203.0.113.10") = some "203.0.113.10" := by decide
  have hip : ∀ address ∈ clientAddress (some "203.0.113.10"), IsHeaderValue address := by
    intro address hmem
    rw [haddress] at hmem
    rw [← Option.some.inj hmem]
    exact isHeaderValue_address
  obtain ⟨sent, hsent, _, hhop, _, _, _, hid, hfor, _, hother, _⟩ :=
    upstream_headers_sanitized headers url hip isHeaderValue_requestId
  refine ⟨sent, hsent, hhop _ (by decide), ?_, hid, hother _ ?_ (by decide)⟩
  · rw [hfor, haddress]
    rfl
  · unfold Nominated
    decide

end Adversary
end ShieldWard.Edge
