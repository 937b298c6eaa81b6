import ShieldWard.Lib.JsonText

/-!
# The decoder of server-sent events

`ServerSentEventDecoder` of `edge/src/sse.ts`: text arrives in chunks, complete lines are
processed as soon as their ending is known, and the rest of the text waits in a buffer. Beside
it stands what the decoder is for, the reading of a whole text at once (`reading`). However a
text is cut into chunks, the events and the state that the decoder ends in are those of that
reading (`pushAll_eq_reading`).
-/

namespace ShieldWard.Edge.Sse

open Ecma

structure ServerSentEvent where
  event : Text
  data : Text

structure LineEnding where
  index : ℕ
  length : ℕ

def lineFeed : ℕ := 0x0a

def carriageReturn : ℕ := 0x0d

def colon : ℕ := 0x3a

def space : ℕ := 0x20

/-! ## The code -/

/-- The loop of `findLineEnding`, from an index on. -/
def findLineEndingFrom (index : ℕ) : Text → Option LineEnding
  | [] => none
  | character :: rest =>
    if character = lineFeed then some ⟨index, 1⟩
    else if character = carriageReturn then
      -- what follows decides whether the ending is one character or two
      rest.head?.map fun next => ⟨index, if next = lineFeed then 2 else 1⟩
    else findLineEndingFrom (index + 1) rest

def findLineEnding (value : Text) : Option LineEnding := findLineEndingFrom 0 value

structure ServerSentEventDecoder where
  buffer : Text
  eventType : Text
  dataLines : List Text

namespace ServerSentEventDecoder

/-- A decoder as it is constructed. -/
def new : ServerSentEventDecoder := ⟨[], [], []⟩

/-- `finish`: an event without its blank line is discarded. -/
def finish (_ : ServerSentEventDecoder) : ServerSentEventDecoder := new

/-- `#dispatch`, with the events that it adds. -/
def dispatch (decoder : ServerSentEventDecoder) :
    List ServerSentEvent × ServerSentEventDecoder :=
  if decoder.dataLines.length = 0 then ([], { decoder with eventType := [] })
  else
    ([{ event := if decoder.eventType = [] then utf16 "message" else decoder.eventType
        data := [lineFeed].intercalate decoder.dataLines }],
      { decoder with eventType := [], dataLines := [] })

/-- `#processLine`, with the events that it adds. -/
def processLine (decoder : ServerSentEventDecoder) (line : Text) :
    List ServerSentEvent × ServerSentEventDecoder :=
  if line = [] then decoder.dispatch
  else if line.head? = some colon then ([], decoder)
  else
    let colonIndex := line.findIdx? (· = colon)
    let field :=
      match colonIndex with
      | none => line
      | some index => line.take index
    let value :=
      match colonIndex with
      | none => []
      | some index => line.drop (index + 1)
    let value := if value.head? = some space then value.drop 1 else value
    if field = utf16 "event" then ([], { decoder with eventType := value })
    else if field = utf16 "data" then
      ([], { decoder with dataLines := decoder.dataLines ++ [value] })
    else ([], decoder)

theorem dispatch_buffer (decoder : ServerSentEventDecoder) :
    decoder.dispatch.2.buffer = decoder.buffer := by
  unfold dispatch
  split <;> rfl

theorem processLine_buffer (decoder : ServerSentEventDecoder) (line : Text) :
    (decoder.processLine line).2.buffer = decoder.buffer := by
  simp only [processLine]
  split_ifs <;> first | rfl | exact decoder.dispatch_buffer

end ServerSentEventDecoder

theorem findLineEndingFrom_bounds {index : ℕ} {value : Text} {ending : LineEnding}
    (h : findLineEndingFrom index value = some ending) :
    index ≤ ending.index ∧ 0 < ending.length ∧ ending.index < index + value.length := by
  induction value generalizing index with
  | nil => cases h
  | cons character rest ih =>
    rw [findLineEndingFrom] at h
    split at h
    · obtain rfl := Option.some.inj h
      simp
    · split at h
      · obtain ⟨next, _, rfl⟩ := Option.map_eq_some_iff.mp h
        dsimp only
        refine ⟨le_refl _, ?_, by simp⟩
        split <;> omega
      · have hrest := ih h
        rw [List.length_cons]
        omega

/-- The loop of `push` drops at least one character of the buffer for each line. -/
theorem length_drop_ending {value : Text} {ending : LineEnding}
    (h : findLineEnding value = some ending) :
    (value.drop (ending.index + ending.length)).length < value.length := by
  have hbounds := findLineEndingFrom_bounds h
  rw [List.length_drop]
  omega

namespace ServerSentEventDecoder

/-- The loop of `push`. -/
def drain (decoder : ServerSentEventDecoder) : List ServerSentEvent × ServerSentEventDecoder :=
  match _hending : findLineEnding decoder.buffer with
  | none => ([], decoder)
  | some ending =>
    let line := decoder.buffer.take ending.index
    let rest : ServerSentEventDecoder :=
      { decoder with buffer := decoder.buffer.drop (ending.index + ending.length) }
    let processed := rest.processLine line
    let drained := processed.2.drain
    (processed.1 ++ drained.1, drained.2)
termination_by decoder.buffer.length
decreasing_by
  rw [processLine_buffer]
  exact length_drop_ending _hending

def push (decoder : ServerSentEventDecoder) (chunk : Text) :
    List ServerSentEvent × ServerSentEventDecoder :=
  { decoder with buffer := decoder.buffer ++ chunk }.drain

/-- The chunks of a stream one after the other. -/
def pushAll (decoder : ServerSentEventDecoder) :
    List Text → List ServerSentEvent × ServerSentEventDecoder
  | [] => ([], decoder)
  | chunk :: chunks =>
    let pushed := decoder.push chunk
    let rest := pushed.2.pushAll chunks
    (pushed.1 ++ rest.1, rest.2)

end ServerSentEventDecoder

/-! ## The reading of a whole text -/

/-- A character in front of the first line, or of the rest where there is no line. -/
def prepend (character : ℕ) : List Text × Text → List Text × Text
  | ([], pending) => ([], character :: pending)
  | (line :: lines, pending) => ((character :: line) :: lines, pending)

/-- The lines of a text, each up to its CRLF, LF or CR, and what follows the last of them. A CR
at the end of the text may be the first half of an ending. -/
def splitLines : Text → List Text × Text
  | [] => ([], [])
  | character :: rest =>
    if character = lineFeed then ([] :: (splitLines rest).1, (splitLines rest).2)
    else if character = carriageReturn then
      match rest with
      | [] => ([], [character])
      | next :: rest =>
        if next = lineFeed then ([] :: (splitLines rest).1, (splitLines rest).2)
        else ([] :: (splitLines (next :: rest)).1, (splitLines (next :: rest)).2)
    else prepend character (splitLines rest)

/-- What a line says. -/
inductive Instruction
  | emit
  | setType (value : Text)
  | addData (value : Text)
  | ignore

def stripSpace : Text → Text
  | [] => []
  | character :: rest => if character = space then rest else character :: rest

/-- The field name goes up to the first colon, the value starts behind it. -/
def Instruction.ofLine (line : Text) : Instruction :=
  let name := line.takeWhile (· ≠ colon)
  let value := stripSpace (line.dropWhile (· ≠ colon)).tail
  if line = [] then .emit
  else if line.head? = some colon then .ignore
  else if name = utf16 "event" then .setType value
  else if name = utf16 "data" then .addData value
  else .ignore

/-- The event being read: its type and its data lines. -/
abbrev Pending := Text × List Text

def Instruction.run : Instruction → Pending → List ServerSentEvent × Pending
  | .emit, (_, []) => ([], ([], []))
  | .emit, (eventType, line :: lines) =>
    ([{ event := if eventType = [] then utf16 "message" else eventType
        data := [lineFeed].intercalate (line :: lines) }], ([], []))
  | .setType value, (_, lines) => ([], (value, lines))
  | .addData value, (eventType, lines) => ([], (eventType, lines ++ [value]))
  | .ignore, pending => ([], pending)

/-- The events of some lines, and the event that they leave open. -/
def readLines (pending : Pending) : List Text → List ServerSentEvent × Pending
  | [] => ([], pending)
  | line :: lines =>
    let read := (Instruction.ofLine line).run pending
    let rest := readLines read.2 lines
    (read.1 ++ rest.1, rest.2)

/-- The events of a text that follows what a decoder holds, and the decoder after it. -/
def readingFrom (decoder : ServerSentEventDecoder) (text : Text) :
    List ServerSentEvent × ServerSentEventDecoder :=
  let (lines, buffer) := splitLines (decoder.buffer ++ text)
  let (events, eventType, dataLines) := readLines (decoder.eventType, decoder.dataLines) lines
  (events, ⟨buffer, eventType, dataLines⟩)

/-- The events of a text, and the decoder that has read it. -/
def reading (text : Text) : List ServerSentEvent × ServerSentEventDecoder :=
  readingFrom .new text

/-! ## Lines -/

theorem splitLines_cons {character : ℕ} {rest : Text} (hlf : character ≠ lineFeed)
    (hcr : character ≠ carriageReturn) :
    splitLines (character :: rest) = prepend character (splitLines rest) := by
  rw [splitLines.eq_def]
  dsimp only
  rw [if_neg hlf, if_neg hcr]

theorem splitLines_lineFeed (rest : Text) :
    splitLines (lineFeed :: rest) = ([] :: (splitLines rest).1, (splitLines rest).2) := by
  rw [splitLines.eq_def]
  rfl

/-- A carriage return that something follows ends a line. -/
theorem splitLines_carriageReturn (next : ℕ) (rest : Text) :
    splitLines (carriageReturn :: next :: rest) =
      let rest := if next = lineFeed then rest else next :: rest
      ([] :: (splitLines rest).1, (splitLines rest).2) := by
  rw [splitLines, if_neg (by decide), if_pos rfl]
  dsimp only
  split <;> rfl

/-- A text can be split at any place: what its first part leaves unfinished goes in front of
the rest. -/
theorem splitLines_append (x y : Text) :
    splitLines (x ++ y) =
      ((splitLines x).1 ++ (splitLines ((splitLines x).2 ++ y)).1,
        (splitLines ((splitLines x).2 ++ y)).2) := by
  -- the induction is on the length: a CRLF takes two characters at once
  induction hlength : x.length using Nat.strong_induction_on generalizing x with
  | _ n ih =>
    subst hlength
    cases x with
    | nil => rfl
    | cons character rest =>
      by_cases hlf : character = lineFeed
      · subst hlf
        have hrest := ih rest.length (by simp) rest rfl
        rw [List.cons_append, splitLines_lineFeed, splitLines_lineFeed, hrest]
        rfl
      · by_cases hcr : character = carriageReturn
        · subst hcr
          cases rest with
          | nil => rfl
          | cons next rest =>
            rw [List.cons_append, List.cons_append, splitLines_carriageReturn,
              splitLines_carriageReturn]
            dsimp only
            by_cases hnext : next = lineFeed
            · have hrest := ih rest.length (by simp only [List.length_cons]; omega) rest rfl
              rw [if_pos hnext, if_pos hnext, hrest]
              rfl
            · have hrest := ih (next :: rest).length (by simp) (next :: rest) rfl
              rw [if_neg hnext, if_neg hnext, ← List.cons_append, hrest]
              rfl
        · have hrest := ih rest.length (by simp) rest rfl
          rw [List.cons_append, splitLines_cons hlf hcr, splitLines_cons hlf hcr, hrest]
          cases hlines : (splitLines rest).1 with
          | nil =>
            have hpair : splitLines rest = ([], (splitLines rest).2) := by rw [← hlines]
            rw [hpair]
            dsimp only [prepend]
            rw [List.cons_append, splitLines_cons hlf hcr]
            rfl
          | cons line lines =>
            have hpair : splitLines rest = (line :: lines, (splitLines rest).2) := by
              rw [← hlines]
            rw [hpair]
            rfl

/-- A text without a line ending that is known to be complete is all pending. -/
theorem splitLines_of_findLineEndingFrom_none {index : ℕ} {value : Text}
    (h : findLineEndingFrom index value = none) : splitLines value = ([], value) := by
  induction value generalizing index with
  | nil => rfl
  | cons character rest ih =>
    rw [findLineEndingFrom] at h
    split at h
    · cases h
    · next hlf =>
      split at h
      · next hcr =>
        rw [Option.map_eq_none_iff, List.head?_eq_none_iff] at h
        rw [hcr, h]
        rfl
      · next hcr => rw [splitLines_cons hlf hcr, ih h]; rfl

/-- The line that the code cuts off is the first line of the text. -/
theorem splitLines_of_findLineEndingFrom_some {index : ℕ} {value : Text} {ending : LineEnding}
    (h : findLineEndingFrom index value = some ending) :
    splitLines value =
      (value.take (ending.index - index) ::
          (splitLines (value.drop (ending.index - index + ending.length))).1,
        (splitLines (value.drop (ending.index - index + ending.length))).2) := by
  induction value generalizing index with
  | nil => cases h
  | cons character rest ih =>
    rw [findLineEndingFrom] at h
    split at h
    · next hlf =>
      obtain rfl := Option.some.inj h
      rw [hlf, splitLines_lineFeed]
      simp
    · next hlf =>
      split at h
      · next hcr =>
        obtain ⟨next, hnext, rfl⟩ := Option.map_eq_some_iff.mp h
        obtain ⟨tail, rfl⟩ := List.head?_eq_some_iff.mp hnext
        rw [hcr, splitLines_carriageReturn]
        dsimp only
        by_cases hnextLf : next = lineFeed <;> simp [hnextLf]
      · next hcr =>
        have hbounds := findLineEndingFrom_bounds h
        have hindex : ending.index - index = ending.index - (index + 1) + 1 := by omega
        have hlength : ending.index - (index + 1) + 1 + ending.length =
            ending.index - (index + 1) + ending.length + 1 := by omega
        rw [splitLines_cons hlf hcr, ih h, hindex, hlength, List.take_succ_cons,
          List.drop_succ_cons]
        rfl

/-! ## The code reads like the reference -/

/-- The field name and the value that the code slices off are those of the reference. -/
theorem slices_eq (line : Text) :
    (match line.findIdx? (· = colon) with
      | none => line
      | some index => line.take index) = line.takeWhile (· ≠ colon) ∧
    (match line.findIdx? (· = colon) with
      | none => []
      | some index => line.drop (index + 1)) = (line.dropWhile (· ≠ colon)).tail := by
  have hfind : line.findIdx (fun unit => !decide (unit ≠ colon)) =
      line.findIdx (· = colon) := by
    congr 1
    funext unit
    simp
  rw [List.takeWhile_eq_take_findIdx_not, List.dropWhile_eq_drop_findIdx_not, hfind]
  cases hindex : line.findIdx? (· = colon) with
  | none =>
    rw [List.findIdx?_eq_none_iff_findIdx_eq.mp hindex]
    simp
  | some index =>
    rw [(List.findIdx?_eq_some_iff_findIdx_eq.mp hindex).2]
    simp [List.tail_drop]

theorem stripSpace_eq (value : Text) :
    (if value.head? = some space then value.drop 1 else value) = stripSpace value := by
  cases value with
  | nil => rfl
  | cons character rest =>
    rw [stripSpace]
    simp

namespace ServerSentEventDecoder

/-- Processing a line does what the line says. -/
theorem processLine_eq (decoder : ServerSentEventDecoder) (line : Text) :
    decoder.processLine line =
      let read := (Instruction.ofLine line).run (decoder.eventType, decoder.dataLines)
      (read.1, ⟨decoder.buffer, read.2.1, read.2.2⟩) := by
  obtain ⟨hname, hvalue⟩ := slices_eq line
  simp only [processLine, hname, hvalue, stripSpace_eq, Instruction.ofLine]
  by_cases hempty : line = []
  · rw [if_pos hempty, if_pos hempty]
    cases hlines : decoder.dataLines <;> simp [dispatch, hlines, Instruction.run]
  · rw [if_neg hempty, if_neg hempty]
    split_ifs <;> rfl

theorem drain_eq (decoder : ServerSentEventDecoder) :
    decoder.drain = readingFrom decoder [] := by
  induction decoder using drain.induct with
  | case1 decoder h =>
    have hlines := splitLines_of_findLineEndingFrom_none h
    rw [drain]
    split
    · simp only [readingFrom, List.append_nil, hlines, readLines]
    · next hsome => rw [h] at hsome; cases hsome
  | case2 decoder ending h line rest processed ih =>
    have hlines := splitLines_of_findLineEndingFrom_some h
    rw [drain]
    split
    · next hnone => rw [h] at hnone; cases hnone
    · next ending' h' =>
      rw [h] at h'
      obtain rfl := Option.some.inj h'
      show (processed.1 ++ processed.2.drain.1, processed.2.drain.2) = _
      rw [ih]
      simp only [processed, rest, line, processLine_eq, readingFrom, List.append_nil, hlines,
        readLines, Nat.sub_zero]

theorem push_eq (decoder : ServerSentEventDecoder) (chunk : Text) :
    decoder.push chunk = readingFrom decoder chunk := by
  rw [push, drain_eq]
  simp only [readingFrom, List.append_nil]

end ServerSentEventDecoder

theorem readLines_append (pending : Pending) (lines more : List Text) :
    readLines pending (lines ++ more) =
      ((readLines pending lines).1 ++ (readLines (readLines pending lines).2 more).1,
        (readLines (readLines pending lines).2 more).2) := by
  induction lines generalizing pending with
  | nil => rfl
  | cons line lines ih =>
    rw [List.cons_append, readLines, ih, readLines]
    simp only [List.append_assoc]

/-- What has been read of a text stands in the decoder. -/
theorem readingFrom_append (decoder : ServerSentEventDecoder) (x y : Text) :
    readingFrom decoder (x ++ y) =
      ((readingFrom decoder x).1 ++ (readingFrom (readingFrom decoder x).2 y).1,
        (readingFrom (readingFrom decoder x).2 y).2) := by
  simp only [readingFrom]
  rw [← List.append_assoc, splitLines_append (decoder.buffer ++ x) y]
  simp only [readLines_append]

/-- What is left over of a text holds no line. -/
theorem splitLines_pending (text : Text) :
    splitLines (splitLines text).2 = ([], (splitLines text).2) := by
  have happend := splitLines_append text []
  rw [List.append_nil, List.append_nil] at happend
  have hlines := congrArg Prod.fst happend
  exact Prod.ext (List.self_eq_append_right.mp hlines) (congrArg Prod.snd happend).symm

/-- The reading of a text leaves nothing in the buffer that could be read now. -/
theorem readingFrom_settled (decoder : ServerSentEventDecoder) (text : Text) :
    readingFrom (readingFrom decoder text).2 [] = ([], (readingFrom decoder text).2) := by
  simp only [readingFrom, List.append_nil, splitLines_pending, readLines]

theorem pushAll_eq_readingFrom (decoder : ServerSentEventDecoder) (chunks : List Text)
    (h : readingFrom decoder [] = ([], decoder)) :
    decoder.pushAll chunks = readingFrom decoder chunks.flatten := by
  -- each push leaves a decoder that has nothing to read without more text
  induction chunks generalizing decoder with
  | nil => rw [List.flatten_nil, h]; rfl
  | cons chunk chunks ih =>
    rw [ServerSentEventDecoder.pushAll, List.flatten_cons, readingFrom_append,
      ServerSentEventDecoder.push_eq, ih _ (readingFrom_settled decoder chunk)]

/-- However a text is cut into chunks, the decoder reads it as a whole. -/
theorem pushAll_eq_reading (chunks : List Text) :
    ServerSentEventDecoder.new.pushAll chunks = reading chunks.flatten :=
  pushAll_eq_readingFrom .new chunks rfl

end ShieldWard.Edge.Sse
