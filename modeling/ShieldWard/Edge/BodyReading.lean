import ShieldWard.Edge.Mediation

/-!
# Reading request bodies

The reader of a request body keeps the chunks, counts their bytes and copies them into one
buffer when the stream has ended. What it makes of a body is told by the header, the bytes and
the maximum alone (`boundedBody`). The firewall and the upstream are then given the same
buffer, which is said of runs: a call is followed from the end of its body on.
-/

namespace ShieldWard.Edge

open Ecma Bytes

variable {P : Platform}

/-! ## The reader -/

/-- The variables of the loop over the chunks. -/
structure ChunkReader where
  chunks : List Bytes
  totalBytes : ℕ
  counted : totalBytes = chunks.flatten.length

namespace ChunkReader

def new : ChunkReader := ⟨[], 0, rfl⟩

/-- A chunk that fits. -/
def push (reader : ChunkReader) (chunk : Bytes) : ChunkReader where
  chunks := reader.chunks ++ [chunk]
  totalBytes := reader.totalBytes + chunk.length
  counted := by simp [reader.counted]

/-- The loop over the chunks; a stream that fails rejects the read after them. -/
def readAll (maximumBytes : ℕ) (fails : Bool) : ChunkReader → List Bytes →
    Except BodyError ChunkReader
  | reader, [] => if fails then .error .unreadable else .ok reader
  | reader, chunk :: chunks =>
    if maximumBytes < reader.totalBytes + chunk.length then
      .error (.request { status := 413, code := "request_body_too_large" })
    else readAll maximumBytes fails (reader.push chunk) chunks

/-- `bytes.set(chunk, offset)`. -/
def setAt (bytes chunk : Bytes) (offset : ℕ) : Bytes :=
  bytes.take offset ++ chunk ++ bytes.drop (offset + chunk.length)

/-- The copying of the chunks, one behind the other from the offset on. -/
def copyChunks : Bytes → ℕ → List Bytes → Bytes
  | bytes, _, [] => bytes
  | bytes, offset, chunk :: chunks =>
    copyChunks (setAt bytes chunk offset) (offset + chunk.length) chunks

/-- The buffer after the end of the stream. -/
def buffer (reader : ChunkReader) : Bytes :=
  copyChunks (List.replicate reader.totalBytes 0) 0 reader.chunks

/-- What is copied stands behind what was copied before, and the rest of the buffer follows. -/
theorem copyChunks_eq (chunks : List Bytes) :
    ∀ (bytes : Bytes) (offset : ℕ), offset + chunks.flatten.length ≤ bytes.length →
      copyChunks bytes offset chunks =
        bytes.take offset ++ chunks.flatten ++ bytes.drop (offset + chunks.flatten.length) := by
  induction chunks with
  | nil =>
    intro bytes offset _
    simp [copyChunks]
  | cons chunk chunks ih =>
    intro bytes offset hfits
    rw [List.flatten_cons, List.length_append] at hfits
    have hoffset : (bytes.take offset ++ chunk).length = offset + chunk.length := by
      rw [List.length_append, List.length_take]
      omega
    have hlength : (setAt bytes chunk offset).length = bytes.length := by
      unfold setAt
      rw [List.length_append, hoffset, List.length_drop]
      omega
    rw [copyChunks, ih _ _ (by omega)]
    have htake : (setAt bytes chunk offset).take (offset + chunk.length) =
        bytes.take offset ++ chunk := by
      unfold setAt
      rw [← hoffset, List.take_left]
    have hdrop : (setAt bytes chunk offset).drop (offset + chunk.length + chunks.flatten.length) =
        bytes.drop (offset + chunk.length + chunks.flatten.length) := by
      unfold setAt
      rw [← List.drop_drop, ← hoffset, List.drop_left, List.drop_drop]
    rw [htake, hdrop, List.flatten_cons, List.length_append, Nat.add_assoc]
    simp only [List.append_assoc]

/-- The buffer holds the chunks in their order. -/
theorem buffer_eq (reader : ChunkReader) : reader.buffer = reader.chunks.flatten := by
  have hfits : 0 + reader.chunks.flatten.length ≤
      (List.replicate reader.totalBytes (0 : UInt8)).length := by
    rw [List.length_replicate, reader.counted]
    omega
  unfold buffer
  rw [copyChunks_eq _ _ _ hfits, List.drop_eq_nil_of_le (by simp [reader.counted])]
  simp

/-- The loop that keeps chunks and copies them is the one that appends. -/
theorem readChunks_eq (maximumBytes : ℕ) (fails : Bool) (chunks : List Bytes) :
    ∀ reader : ChunkReader, readChunks maximumBytes fails reader.buffer chunks =
      (readAll maximumBytes fails reader chunks).map buffer := by
  induction chunks with
  | nil =>
    intro reader
    unfold readChunks readAll
    split <;> rfl
  | cons chunk chunks ih =>
    intro reader
    have hlength : reader.buffer.length = reader.totalBytes := by
      rw [buffer_eq, reader.counted]
    have hpush : reader.buffer ++ chunk = (reader.push chunk).buffer := by
      rw [buffer_eq, buffer_eq]
      simp [push]
    unfold readChunks readAll
    rw [hlength]
    split
    · rfl
    · rw [hpush]
      exact ih _

/-- Whatever has been read without an error is within the maximum. -/
theorem readAll_within {maximumBytes : ℕ} {fails : Bool} (chunks : List Bytes) :
    ∀ {reader reader' : ChunkReader}, reader.totalBytes ≤ maximumBytes →
      readAll maximumBytes fails reader chunks = .ok reader' →
      reader'.totalBytes ≤ maximumBytes := by
  induction chunks with
  | nil =>
    intro reader reader' hwithin h
    unfold readAll at h
    split at h
    · cases h
    · rw [← Except.ok.inj h]
      exact hwithin
  | cons chunk chunks ih =>
    intro reader reader' hwithin h
    unfold readAll at h
    split at h
    · cases h
    · next hfits =>
      have hpushed : (reader.push chunk).totalBytes ≤ maximumBytes := not_lt.mp hfits
      exact ih hpushed h

/-- A stream that ends is read to its end exactly when all of it is within the maximum. -/
theorem readAll_cases {maximumBytes : ℕ} (chunks : List Bytes) :
    ∀ reader : ChunkReader, reader.totalBytes ≤ maximumBytes →
      maximumBytes < reader.totalBytes + chunks.flatten.length ∧
        readAll maximumBytes false reader chunks =
          .error (.request { status := 413, code := "request_body_too_large" }) ∨
      reader.totalBytes + chunks.flatten.length ≤ maximumBytes ∧
        ∃ reader', readAll maximumBytes false reader chunks = .ok reader' ∧
          reader'.chunks = reader.chunks ++ chunks := by
  induction chunks with
  | nil => exact fun reader hwithin => .inr ⟨hwithin, reader, rfl, by simp⟩
  | cons chunk chunks ih =>
    intro reader hwithin
    rw [List.flatten_cons, List.length_append, ← Nat.add_assoc, readAll]
    by_cases hfirst : maximumBytes < reader.totalBytes + chunk.length
    · rw [if_pos hfirst]
      exact .inl ⟨by omega, rfl⟩
    · rw [if_neg hfirst]
      rcases ih (reader.push chunk) (not_lt.mp hfirst) with
        ⟨hmore, herror⟩ | ⟨hall, reader', hok, hchunks⟩
      · exact .inl ⟨hmore, herror⟩
      · exact .inr ⟨hall, reader', hok, by rw [hchunks]; simp [push]⟩

end ChunkReader

/-! ## What becomes of a body -/

/-- The outcome for the value of the header, the bytes and the maximum. -/
def boundedBody (P : Platform) (header : Option String) (maximumBytes : ℕ) (bytes : Bytes) :
    Except BodyError BufferedBody :=
  let declared := header.map fun value => (trim value).toList
  if declared.any fun value => !isDigits value || !isSafeInteger (digitsValue value) then
    .error (.request { status := 400, code := "invalid_content_length" })
  else if (declared.any fun value => maximumBytes < digitsValue value) ∨
      maximumBytes < bytes.length then
    .error (.request { status := 413, code := "request_body_too_large" })
  else .ok { bytes := some bytes, text := some (P.decodeText bytes) }

/-- The method is neither of the two without a body. `Request` has set both in capitals. -/
def CarriesBody (P : Platform) (request : IncomingRequest) : Prop :=
  ∀ method ∈ [request.method, P.toUpperCase request.method], method ≠ "GET" ∧ method ≠ "HEAD"

instance (P : Platform) (request : IncomingRequest) : Decidable (CarriesBody P request) :=
  inferInstanceAs (Decidable (∀ method ∈ _, _))

/-- The buffer that is made of a body, and its text. -/
def bufferedBody (P : Platform) (bytes : Bytes) : BufferedBody where
  bytes := some bytes
  text := some (P.decodeText bytes)

theorem readChunks_flatten (maximumBytes : ℕ) (chunks : List Bytes) :
    readChunks maximumBytes false [] chunks =
      if maximumBytes < chunks.flatten.length then
        .error (.request { status := 413, code := "request_body_too_large" })
      else .ok chunks.flatten := by
  have hcases := ChunkReader.readAll_cases chunks .new (Nat.zero_le maximumBytes)
  rw [show ChunkReader.new.totalBytes + chunks.flatten.length = chunks.flatten.length from
    Nat.zero_add _] at hcases
  rw [show ([] : Bytes) = ChunkReader.new.buffer from rfl, ChunkReader.readChunks_eq]
  rcases hcases with ⟨hmore, herror⟩ | ⟨hall, reader, hok, hchunks⟩
  · rw [herror, if_pos hmore]
    rfl
  · rw [hok, if_neg (not_lt.mpr hall)]
    show Except.ok reader.buffer = _
    rw [ChunkReader.buffer_eq, hchunks]
    rfl

theorem readRequestBody_eq {request : IncomingRequest} (hmethod : CarriesBody P request)
    (hbody : request.hasBody = true) (maximumBytes : ℕ) {stream : BodyStream}
    (hends : stream.fails = false) :
    readRequestBody P request maximumBytes stream =
      boundedBody P (request.headers.get "content-length") maximumBytes stream.chunks.flatten := by
  have hupper := hmethod _ (List.mem_cons_of_mem _ List.mem_cons_self)
  unfold readRequestBody boundedBody validateDeclaredBodyLength
  simp only [hupper, or_self, if_false, hbody, Bool.not_true, Bool.false_eq_true, hends,
    readChunks_flatten]
  cases request.headers.get "content-length" with
  | none =>
    simp only [Option.map_none, Option.any_none, Bool.false_eq_true, if_false, false_or]
    split <;> rfl
  | some header =>
    simp only [Option.map_some, Option.any_some, Bool.or_eq_true, decide_eq_true_eq]
    by_cases hdigits : (!isDigits (trim header).toList) = true
    · simp only [hdigits, if_true, true_or]
      rfl
    · simp only [hdigits, Bool.false_eq_true, if_false, false_or]
      by_cases hsafe : (!isSafeInteger (digitsValue (trim header).toList)) = true
      · simp only [hsafe, if_true]
        rfl
      · simp only [hsafe, Bool.false_eq_true, if_false]
        by_cases hdeclared : maximumBytes < digitsValue (trim header).toList
        · simp only [hdeclared, if_true, true_or]
          rfl
        · simp only [hdeclared, if_false, false_or]
          split <;> rfl

theorem boundedBody_ok {header : Option String} {maximumBytes : ℕ} {bytes : Bytes}
    {body : BufferedBody} (h : boundedBody P header maximumBytes bytes = .ok body) :
    body = bufferedBody P bytes := by
  unfold boundedBody at h
  simp only at h
  split at h
  · cases h
  · split at h
    · cases h
    · exact (Except.ok.inj h).symm

/-! ## From the body to the upstream -/

/-- A stage after the body, with no other body. -/
def HeldAt (body : BufferedBody) : CallStage → Prop
  | .readingBody => False
  | .evaluating held _ | .decided held _ => held = body
  | _ => True

/-- A call that holds the body and has sent nothing else. -/
structure Holds (body : BufferedBody) (call : Call) : Prop where
  stage : HeldAt body call.stage
  held : call.history.body = some body
  sent : ∀ sent ∈ call.history.fetches, sent.body = body.bytes

/-- A call after its body was read: it was turned away, or it holds the body. -/
def AfterBody (body : BufferedBody) (call : Call) : Prop :=
  call.stage.settled = true ∧ call.history.fetches = [] ∨ Holds body call

theorem createUpstreamRequest_body {request : IncomingRequest} {route : CompiledRoute}
    {body : Option Bytes} {clientIp : Option String} {requestId : String} {timeoutMs : Number}
    {sent : UpstreamRequest} (hmethod : CarriesBody P request)
    (h : createUpstreamRequest P request route body clientIp requestId timeoutMs = .ok sent) :
    sent.body = body := by
  have hkept := hmethod _ List.mem_cons_self
  unfold createUpstreamRequest at h
  obtain ⟨url, _, h⟩ := Except.bind_eq_ok_iff.mp h
  obtain ⟨headers, _, h⟩ := Except.bind_eq_ok_iff.mp h
  split at h
  · cases h
  · split at h
    · cases h
    · rw [← Except.ok.inj h]

theorem evaluated_holds (body : BufferedBody) (evaluation : Evaluation) :
    HeldAt body (Turn.evaluated body evaluation) := by
  cases evaluation with
  | rejected => exact trivial
  | decided | verifyingJwt | checkingRateLimit => exact rfl

section

open Turn

variable {t t' : Turn P} {body : BufferedBody}

/-- An ending leaves the body and what was sent. -/
theorem Holds.ended (hbody : t.call.history.body = some body)
    (hsent : ∀ sent ∈ t.call.history.fetches, sent.body = body.bytes) (hkeeps : Keeps t t')
    (hends : Writes t t' ∨ t' = t.reject) : Holds body t'.call := by
  obtain ⟨_, _, _, hhistory⟩ := hkeeps.history
  refine ⟨?_, by rw [hhistory]; exact hbody, by rw [hhistory]; exact hsent⟩
  rcases hends with hwrites | hreject
  · obtain ⟨_, _, _, hstage, _⟩ := hwrites.written
    rw [hstage]
    trivial
  · rw [hreject, t.reject_spec.2.stage]
    trivial

theorem Holds.endsUpstream {permit : CircuitBreakerPermit} {now : Number}
    {settlement : UpstreamSettlement} (hbody : t.call.history.body = some body)
    (hsent : ∀ sent ∈ t.call.history.fetches, sent.body = body.bytes)
    (hends : EndsUpstream t permit now settlement t') : Holds body t'.call :=
  .ended (t := t.afterUpstream permit settlement now) hbody hsent hends.keeps
    (hends.ends.imp_right And.left)

theorem Holds.moves {a : CallAction} (hmethod : CarriesBody P t.call.arrival.request)
    (horderly : Orderly t.call) (h : Holds body t.call) (hmoves : Moves t a t') :
    Holds body t'.call := by
  have hheld := h.stage
  cases hmoves with
  | evaluates hstage =>
    rw [hstage] at hheld
    exact hheld.elim
  | verified hstage =>
    rw [hstage] at hheld
    subst hheld
    exact ⟨evaluated_holds _ _, h.held, h.sent⟩
  | checked hstage =>
    rw [hstage] at hheld
    subst hheld
    exact ⟨evaluated_holds _ _, h.held, h.sent⟩
  | ends hprepares hkeeps hends =>
    refine .ended ?_ ?_ hkeeps (hends.imp_right And.left)
    · cases hprepares <;> exact h.held
    · cases hprepares <;> exact h.sent
  | sends hstage _ _ hsent =>
    rw [hstage] at hheld
    subst hheld
    refine ⟨trivial, h.held, fun sent hmem => ?_⟩
    rcases List.mem_append.mp hmem with hold | hnew
    · exact h.sent sent hold
    · rw [List.mem_singleton.mp hnew]
      exact createUpstreamRequest_body hmethod hsent
  | @unsendable _ _ decision route circuitBreaker permit _ _ _ _ _ _ hends =>
    exact .endsUpstream (t := (t.decide (.allowed decision)).grant circuitBreaker route.upstream
      permit) h.held h.sent hends
  | @fetched _ route permit outcome now hstage =>
    obtain ⟨settlement, hends⟩ := horderly.afterFetch hstage outcome now
    exact .endsUpstream h.held h.sent hends
  | aborted => exact ⟨h.stage, h.held, h.sent⟩
  | streams => exact ⟨h.stage, h.held, h.sent⟩

/-- A call that was turned away stays so. -/
theorem settled_moves {a : CallAction} (hsettled : t.call.stage.settled = true)
    (hmoves : Moves t a t') :
    t'.call.stage.settled = true ∧ t'.call.history.fetches = t.call.history.fetches := by
  have hstages : ∀ stage : CallStage, t.call.stage = stage → stage.settled = true :=
    fun stage heq => heq ▸ hsettled
  cases hmoves with
  | evaluates hstage => cases hstages _ hstage
  | verified hstage => cases hstages _ hstage
  | checked hstage => cases hstages _ hstage
  | ends hprepares =>
    cases hprepares with
    | reading hstage => cases hstages _ hstage
    | undecided hstage => cases hstages _ hstage
    | decided hstage => cases hstages _ hstage
    | refused hstage => cases hstages _ hstage
  | sends hstage => cases hstages _ hstage
  | unsendable hstage => cases hstages _ hstage
  | fetched hstage => cases hstages _ hstage
  | aborted => exact ⟨hsettled, rfl⟩
  | streams => exact ⟨hsettled, rfl⟩

theorem AfterBody.moves {a : CallAction} (hmethod : CarriesBody P t.call.arrival.request)
    (horderly : Orderly t.call) (h : AfterBody body t.call) (hmoves : Moves t a t') :
    AfterBody body t'.call := by
  rcases h with ⟨hsettled, hnone⟩ | hholds
  · obtain ⟨hstill, hfetches⟩ := settled_moves hsettled hmoves
    exact .inl ⟨hstill, hfetches.trans hnone⟩
  · exact .inr (hholds.moves hmethod horderly hmoves)

/-- The end of the body: the call is turned away, or the evaluation starts with the buffer. -/
theorem afterBody_startEvaluation (hmethod : CarriesBody P t.call.arrival.request)
    (hbody : t.call.arrival.request.hasBody = true) {stream : BodyStream}
    (hends : stream.fails = false) (hunsent : t.call.history.fetches = []) (now : Number) :
    AfterBody (bufferedBody P stream.chunks.flatten) (t.startEvaluation stream now).call := by
  have hfail : ∀ status code outcome, AfterBody (bufferedBody P stream.chunks.flatten)
      (t.fail now status code [] outcome none).call := by
    intro status code outcome
    obtain ⟨hkeeps, hcases⟩ := t.finish_spec now (errorResponse status code [])
      { outcome, reason := some code, routeId := none, upstreamStatus := none }
    obtain ⟨_, _, _, hhistory⟩ := hkeeps.history
    refine .inl ⟨?_, by rw [Turn.fail, hhistory]; exact hunsent⟩
    rcases hcases with ⟨_, hwrites⟩ | ⟨_, hreject⟩
    · obtain ⟨_, _, _, hstage, _⟩ := hwrites.written
      rw [Turn.fail, hstage]
      rfl
    · rw [Turn.fail, hreject, t.reject_spec.2.stage]
      rfl
  have hread := readRequestBody_eq hmethod hbody t.gateway.maxRequestBodyBytes hends
  unfold startEvaluation
  split
  · exact hfail _ _ _
  · exact hfail _ _ _
  · next held hok =>
    rw [hread] at hok
    obtain rfl := boundedBody_ok hok
    refine .inr ⟨?_, rfl, fun sent hsent => ?_⟩
    · unfold Turn.evaluate
      dsimp only
      split
      · trivial
      · next evaluation _ => exact evaluated_holds _ evaluation
    · have hsent : sent ∈ t.call.history.fetches := hsent
      rw [hunsent] at hsent
      cases hsent

/-- A step keeps what a call was called with. -/
theorem arrival_moves {a : CallAction} (horderly : Orderly t.call) (hmoves : Moves t a t') :
    t'.call.arrival = t.call.arrival := by
  cases hmoves with
  | evaluates => rfl
  | verified => rfl
  | checked => rfl
  | ends hprepares hkeeps =>
    rw [hkeeps.arrival]
    cases hprepares <;> rfl
  | sends => rfl
  | unsendable _ _ _ hends => rw [hends.keeps.arrival]; rfl
  | @fetched _ route permit outcome now hstage =>
    obtain ⟨settlement, hends⟩ := horderly.afterFetch hstage outcome now
    rw [hends.keeps.arrival]
    rfl
  | aborted => rfl
  | streams => rfl

end

/-! ## Runs -/

section

variable {options : GatewayOptions} {trustedKeys : TrustedKeyring} {s s' : GatewayState P}

/-- The call at a place of the state, after its body. -/
def Followed (arrival : Arrival) (body : BufferedBody) (index : ℕ) (s : GatewayState P) : Prop :=
  ∃ call, s.calls[index]? = some call ∧ call.arrival = arrival ∧ AfterBody body call

theorem Followed.step {arrival : Arrival} {body : BufferedBody} {index : ℕ} {a : GatewayAction}
    (hmethod : CarriesBody P arrival.request) (horderly : ∀ call ∈ s.calls, Orderly call)
    (h : Followed arrival body index s) (hstep : Gateway.step trustedKeys s a = some s') :
    Followed arrival body index s' := by
  obtain ⟨call, hcall, rfl, hafter⟩ := h
  have hbound := (List.getElem?_eq_some_iff.mp hcall).1
  cases Gateway.steps_of_step hstep with
  | arrives => exact ⟨call, by rw [List.getElem?_append_left hbound]; exact hcall, rfl, hafter⟩
  | @moves other action moved t hget hmoves =>
    by_cases hsame : other = index
    · subst hsame
      obtain rfl : moved = call := Option.some.inj (hget.symm.trans hcall)
      have hordered := horderly moved (List.mem_of_getElem? hcall)
      refine ⟨t.call, ?_, arrival_moves hordered hmoves, hafter.moves hmethod hordered hmoves⟩
      simp [hbound]
    · refine ⟨call, ?_, rfl, hafter⟩
      simpa [List.getElem?_set, hsame] using hcall
  | gate => exact ⟨call, hcall, rfl, hafter⟩
  | installs => exact ⟨call, hcall, rfl, hafter⟩

theorem Followed.run {arrival : Arrival} {body : BufferedBody} {index : ℕ}
    (hmethod : CarriesBody P arrival.request) (actions : List GatewayAction) :
    ∀ {s s' : GatewayState P}, (Gateway.machine P options trustedKeys).Reachable s →
      Followed arrival body index s →
      (Gateway.machine P options trustedKeys).run s actions = some s' →
      Followed arrival body index s' := by
  induction actions with
  | nil =>
    intro s s' _ h hrun
    exact Option.some.inj hrun ▸ h
  | cons a actions ih =>
    intro s s' hreachable h hrun
    obtain ⟨next, hnext, hrest⟩ := Option.bind_eq_some_iff.mp hrun
    exact ih (hreachable.next hnext) (h.step hmethod (orderly_of_reachable hreachable) hnext) hrest

/-- What a call sends after its body, and what was shown to the firewall that let it pass. -/
def Forwards (P : Platform) (options : GatewayOptions) (trustedKeys : TrustedKeyring)
    (request : IncomingRequest) (stream : BodyStream) : Prop :=
  ∀ (s s' s'' : GatewayState P) (index : ℕ) (call call' : Call) (now : Number)
    (actions : List GatewayAction), (Gateway.machine P options trustedKeys).Reachable s →
    s.calls[index]? = some call → call.arrival.request = request →
    Gateway.step trustedKeys s (.turn index (.bodyRead stream now)) = some s' →
    (Gateway.machine P options trustedKeys).run s' actions = some s'' →
    s''.calls[index]? = some call' → ∀ sent ∈ call'.history.fetches,
      sent.body = some stream.chunks.flatten ∧ ∃ bundle route, PolicyEngine.Resolves P bundle
        { method := request.method, url := request.url, headers := request.headers,
          body := some (P.decodeText stream.chunks.flatten),
          clientIp := call.arrival.clientIp } route

theorem forwards {request : IncomingRequest} (hmethod : CarriesBody P request)
    (hbody : request.hasBody = true) {stream : BodyStream} (hends : stream.fails = false) :
    Forwards P options trustedKeys request stream := by
  rintro s s' s'' index call call' now actions hreachable hcall rfl hstep hrun hcall' sent hsent
  -- the body is read in this step; no later step changes what the call holds
  have hfollowed : Followed call.arrival (bufferedBody P stream.chunks.flatten) index s' := by
    have hpassed := (callPassed_of_reachable hreachable call (List.mem_of_getElem? hcall)).stage
    have hbound := (List.getElem?_eq_some_iff.mp hcall).1
    obtain ⟨found, hfound, hnext⟩ := Option.bind_eq_some_iff.mp hstep
    obtain rfl : found = call := Option.some.inj (hfound.symm.trans hcall)
    obtain ⟨t, ht, heq⟩ := Option.bind_eq_some_iff.mp hnext
    have harrival := arrival_moves (orderly_of_reachable hreachable found
      (List.mem_of_getElem? hcall)) (Turn.moves_of_step ht)
    rw [← Option.some.inj heq]
    refine ⟨t.call, by simp [hbound], harrival, ?_⟩
    simp only [Turn.step] at ht
    split at ht
    · next hstage =>
      rw [hstage] at hpassed
      rw [← Option.some.inj ht]
      exact afterBody_startEvaluation hmethod hbody hends hpassed.1.2 now
    · cases ht
  have hreachable' : (Gateway.machine P options trustedKeys).Reachable s' :=
    .step (a := .turn index (.bodyRead stream now)) hreachable trivial hstep
  obtain ⟨held, hheld, harrival, hafter⟩ := hfollowed.run hmethod actions hreachable' hrun
  obtain rfl : held = call' := Option.some.inj (hheld.symm.trans hcall')
  rcases hafter with ⟨_, hnone⟩ | hholds
  · rw [hnone] at hsent
    cases hsent
  · have hpassed := (callPassed_of_reachable (hreachable'.of_run actions hrun) held
      (List.mem_of_getElem? hcall')).passed
    obtain ⟨bundle, route, hmediated⟩ := hpassed.fetched sent hsent
    obtain ⟨body, _, hasked, hresolves⟩ := hmediated.routed
    obtain rfl : body = bufferedBody P stream.chunks.flatten :=
      Option.some.inj (hasked.symm.trans hholds.held)
    rw [harrival] at hresolves
    exact ⟨hholds.sent sent hsent, bundle, route, hresolves⟩

end

/-- The outcome of reading a body depends on the header, the bytes and the maximum only; no more
than the maximum is ever kept, a body of just the maximum is read, and what is forwarded is
what the firewall was shown. -/
structure ReadsExactly (P : Platform) (request : IncomingRequest) (maximumBytes : ℕ)
    (stream : BodyStream) : Prop where
  outcome : readRequestBody P request maximumBytes stream =
    boundedBody P (request.headers.get "content-length") maximumBytes stream.chunks.flatten
  kept : ∀ before after reader, stream.chunks = before ++ after →
    ChunkReader.readAll maximumBytes false .new before = .ok reader →
    reader.chunks.flatten.length ≤ maximumBytes
  copied : ∀ reader, ChunkReader.readAll maximumBytes false .new stream.chunks = .ok reader →
    reader.buffer = stream.chunks.flatten
  full : (∀ header, request.headers.get "content-length" = some header →
      isDigits (trim header).toList = true ∧
      isSafeInteger (digitsValue (trim header).toList) = true ∧
      digitsValue (trim header).toList ≤ maximumBytes) →
    stream.chunks.flatten.length = maximumBytes →
    readRequestBody P request maximumBytes stream = .ok (bufferedBody P stream.chunks.flatten)
  forwarded : ∀ options trustedKeys, Forwards P options trustedKeys request stream

/-- **Bounded bodies.** For every request whose method is neither GET nor HEAD and every way in
which its body is split. -/
theorem body_read_exactly (P : Platform) (request : IncomingRequest)
    (hmethod : CarriesBody P request) (hbody : request.hasBody = true) (maximumBytes : ℕ)
    (stream : BodyStream) (hends : stream.fails = false) :
    ReadsExactly P request maximumBytes stream where
  outcome := readRequestBody_eq hmethod hbody maximumBytes hends
  kept := by
    intro before after reader _ hread
    rw [← reader.counted]
    exact ChunkReader.readAll_within before (Nat.zero_le _) hread
  copied := by
    intro reader hread
    rcases ChunkReader.readAll_cases stream.chunks .new (Nat.zero_le maximumBytes) with
      ⟨_, herror⟩ | ⟨_, found, hok, hchunks⟩
    · rw [herror] at hread
      cases hread
    · obtain rfl : found = reader := Except.ok.inj (hok.symm.trans hread)
      rw [ChunkReader.buffer_eq, hchunks]
      rfl
  full := by
    intro hheader hlength
    rw [readRequestBody_eq hmethod hbody maximumBytes hends]
    unfold boundedBody bufferedBody
    rw [hlength]
    cases hget : request.headers.get "content-length" with
    | none => simp
    | some header =>
      obtain ⟨hdigits, hsafe, hdeclared⟩ := hheader header hget
      simp [hdigits, hsafe, hdeclared]
  forwarded := fun _ _ => forwards hmethod hbody hends

/-! ## A body in three chunks -/

namespace Orders

def posted : IncomingRequest :=
  { request "/v1/orders/42" printable_order with
    method := "POST", headers := [("content-length", "5")], hasBody := true }

/-- Five bytes, with an empty chunk between two others. -/
def chunked : BodyStream where
  chunks := [[104, 101], [], [108, 108, 111]]
  fails := false

theorem body_read_exactly_chunked : ReadsExactly platform posted 5 chunked :=
  body_read_exactly platform posted (by decide) rfl 5 chunked rfl

end Orders
end ShieldWard.Edge
