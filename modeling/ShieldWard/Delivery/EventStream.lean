import ShieldWard.Edge.Sse
import ShieldWard.Edge.ConfigSync

/-!
# The event stream from the control plane to the edge

What `events` of `internal/server/handler.go` writes, a bundle event for each version and
keepalive comments between them, and what the edge decodes of it: the versions one by one, in
their order and nothing else, whatever chunks the text arrives in. The payload is read back
for every version, the text of the stream holds no line ending but those of its frames.
-/

open Ecma

namespace ShieldWard.Control

/-- A character in a string as `json.Marshal` writes it: the characters of HTML and the line
separators are escaped too. -/
def marshalChar (c : Char) : List Char :=
  if c = '"' ∨ c = '\\' then ['\\', c]
  else if c.toNat = 8 then ['\\', 'b']
  else if c.toNat = 12 then ['\\', 'f']
  else if c.toNat = 10 then ['\\', 'n']
  else if c.toNat = 13 then ['\\', 'r']
  else if c.toNat = 9 then ['\\', 't']
  else if c.toNat < 0x20 ∨ c = '<' ∨ c = '>' ∨ c = '&' then
    ['\\', 'u', '0', '0', Bytes.hexDigit (c.toNat / 16), Bytes.hexDigit (c.toNat % 16)]
  else if c.toNat = 0x2028 ∨ c.toNat = 0x2029 then
    ['\\', 'u', '2', '0', '2', Bytes.hexDigit (c.toNat % 16)]
  else [c]

def marshalString (s : String) : String :=
  "\"" ++ String.ofList (s.toList.flatMap marshalChar) ++ "\""

/-- `json.Marshal` of the map that `writeBundleEvent` builds. -/
def bundleEventPayload (version : String) : String :=
  "\x7b\"version\":" ++ marshalString version ++ "\x7d"

def writeBundleEvent (version : String) : String :=
  "event: bundle\ndata: " ++ bundleEventPayload version ++ "\n\n"

/-- What the loop of `events` writes at a turn. -/
inductive StreamFrame
  | bundle (version : String)
  | keepalive

def StreamFrame.text : StreamFrame → String
  | .bundle version => writeBundleEvent version
  | .keepalive => ": keepalive\n\n"

/-- The text of the stream. -/
def streamText (frames : List StreamFrame) : Text := frames.flatMap fun frame => utf16 frame.text

/-- The versions that a stream announces. -/
def announcedVersions (frames : List StreamFrame) : List String :=
  frames.filterMap fun
    | .bundle version => some version
    | .keepalive => none

end ShieldWard.Control

namespace ShieldWard.Delivery

open Control Edge.Sse

/-! ## The payload -/

/-- A unit of a character is its code point or half of a pair. -/
theorem mem_codeUnits {c : Char} {unit : ℕ} (h : unit ∈ codeUnits c) :
    unit = c.toNat ∨ 0xd800 ≤ unit := by
  simp only [codeUnits] at h
  split at h
  · exact .inl (List.mem_singleton.mp h)
  · simp only [List.mem_cons, List.not_mem_nil, or_false] at h
    omega

theorem eq_ofNat {c : Char} {n : ℕ} (h : c.toNat = n) : c = Char.ofNat n := by
  rw [← h, Char.ofNat_toNat]

/-- Every character reads back from what the encoder writes for it. -/
theorem reads_marshalChar (c : Char) :
    Json.Reads ((marshalChar c).flatMap codeUnits) (codeUnits c) := by
  unfold marshalChar
  split
  · next h => rcases h with rfl | rfl <;> exact Json.reads_escape rfl
  split
  · next h => rw [eq_ofNat h]; exact Json.reads_escape rfl
  split
  · next h => rw [eq_ofNat h]; exact Json.reads_escape rfl
  split
  · next h => rw [eq_ofNat h]; exact Json.reads_escape rfl
  split
  · next h => rw [eq_ofNat h]; exact Json.reads_escape rfl
  split
  · next h => rw [eq_ofNat h]; exact Json.reads_escape rfl
  split
  · next h =>
    rcases h with h | rfl | rfl | rfl
    · -- a control character is one of 32
      rw [← Char.ofNat_toNat c]
      generalize c.toNat = n at h
      interval_cases n <;> exact Json.reads_hex rfl
    all_goals exact Json.reads_hex rfl
  split
  · next h => rcases h with h | h <;> rw [eq_ofNat h] <;> exact Json.reads_hex rfl
  · next hquote _ _ _ _ _ hcontrol _ =>
    have hplain : 0x20 ≤ c.toNat := by
      by_contra hlt
      exact hcontrol (.inl (by omega))
    rw [List.flatMap_singleton]
    apply Json.reads_plains
    intro unit hunit
    rcases mem_codeUnits hunit with rfl | hpair
    · exact ⟨fun h => hquote (.inl (eq_ofNat h)), fun h => hquote (.inr (eq_ofNat h)), hplain⟩
    · omega

theorem reads_marshalString (s : String) :
    Json.Reads ((s.toList.flatMap marshalChar).flatMap codeUnits) (utf16 s) := by
  rw [utf16]
  induction s.toList with
  | nil => exact .nil
  | cons c cs ih =>
    rw [List.flatMap_cons, List.flatMap_append, List.flatMap_cons]
    exact (reads_marshalChar c).append ih

/-- The units of the payload around those of the version. -/
theorem utf16_bundleEventPayload (version : String) :
    utf16 (bundleEventPayload version) =
      0x7b :: 0x22 :: (utf16 "version" ++ 0x22 :: 0x3a :: 0x22 ::
        ((version.toList.flatMap marshalChar).flatMap codeUnits ++ 0x22 :: [0x7d])) := by
  have hopen : utf16 "\x7b\"version\":" =
      0x7b :: 0x22 :: (utf16 "version" ++ [0x22, 0x3a]) := by decide
  have hquote : utf16 "\"" = [0x22] := by decide
  have hclose : utf16 "\x7d" = [0x7d] := by decide
  have hinner : utf16 (String.ofList (version.toList.flatMap marshalChar)) =
      (version.toList.flatMap marshalChar).flatMap codeUnits := by
    rw [utf16, String.toList_ofList]
  simp only [bundleEventPayload, marshalString, utf16_append, hopen, hquote, hclose, hinner,
    List.cons_append, List.append_assoc, List.nil_append]

/-- The edge reads back the version that the control plane wrote. -/
theorem parse_bundleEventPayload (version : String) :
    Json.parse (utf16 (bundleEventPayload version)) =
      some (.object [("version", .string version)]) := by
  have hkey : Json.Reads (utf16 "version") (utf16 "version") := Json.reads_plains (by decide)
  rw [utf16_bundleEventPayload, Json.parse_object_string hkey (reads_marshalString version),
    ofUtf16_utf16, ofUtf16_utf16]

/-! ## The lines of the stream -/

/-- No unit of a text ends a line. -/
def Unbroken (text : Text) : Prop := ∀ unit ∈ text, unit ≠ lineFeed ∧ unit ≠ carriageReturn

theorem Unbroken.append {x y : Text} (hx : Unbroken x) (hy : Unbroken y) :
    Unbroken (x ++ y) := by
  intro unit hunit
  rcases List.mem_append.mp hunit with hunit | hunit
  · exact hx unit hunit
  · exact hy unit hunit

theorem splitLines_unbroken {line : Text} (h : Unbroken line) (rest : Text) :
    splitLines (line ++ lineFeed :: rest) =
      (line :: (splitLines rest).1, (splitLines rest).2) := by
  induction line with
  | nil => exact splitLines_lineFeed rest
  | cons unit line ih =>
    obtain ⟨hlf, hcr⟩ := h unit List.mem_cons_self
    rw [List.cons_append, splitLines_cons hlf hcr,
      ih fun u hu => h u (List.mem_cons_of_mem _ hu)]
    rfl

theorem le_of_all {characters : List Char}
    (h : characters.all (fun c => 0x20 ≤ c.toNat) = true) {c : Char} (hc : c ∈ characters) :
    0x20 ≤ c.toNat :=
  of_decide_eq_true (List.all_eq_true.mp h c hc)

/-- The encoder writes no control character. -/
theorem le_of_mem_marshalChar {c d : Char} (h : d ∈ marshalChar c) : 0x20 ≤ d.toNat := by
  have hdigit : ∀ n < 16, 0x20 ≤ (Bytes.hexDigit n).toNat := by decide
  have hlow : 0x20 ≤ (Bytes.hexDigit (c.toNat % 16)).toNat := hdigit _ (by omega)
  have hword : ∀ e ∈ ['\\', '"', 'b', 'f', 'n', 'r', 't', 'u', '0', '2'], 0x20 ≤ e.toNat :=
    fun _ he => le_of_all (by decide) he
  unfold marshalChar at h
  split_ifs at h with hquote _ _ _ _ _ hescaped _ <;>
    simp only [List.mem_cons, List.not_mem_nil, or_false] at h
  · rcases h with rfl | rfl
    · exact hword _ (by decide)
    · exact hword d (by rcases hquote with rfl | rfl <;> decide)
  iterate 5
    · rcases h with rfl | rfl <;> exact hword _ (by decide)
  · have hhigh : c.toNat / 16 < 16 := by
      rcases hescaped with hcontrol | rfl | rfl | rfl
      · omega
      all_goals decide
    rcases h with rfl | rfl | rfl | rfl | rfl | rfl
    iterate 4
      · exact hword _ (by decide)
    · exact hdigit _ hhigh
    · exact hlow
  · rcases h with rfl | rfl | rfl | rfl | rfl | rfl
    iterate 5
      · exact hword _ (by decide)
    · exact hlow
  · rw [h]
    by_contra hlt
    exact hescaped (.inl (by omega))

theorem unbroken_of_le {s : String} (h : ∀ c ∈ s.toList, 0x20 ≤ c.toNat) :
    Unbroken (utf16 s) := by
  intro unit hunit
  obtain ⟨c, hc, hunit⟩ := List.mem_flatMap.mp hunit
  have hle := h c hc
  have hunit := mem_codeUnits hunit
  show unit ≠ 10 ∧ unit ≠ 13
  omega

theorem unbroken_payload (version : String) : Unbroken (utf16 (bundleEventPayload version)) := by
  apply unbroken_of_le
  intro c hc
  simp only [bundleEventPayload, marshalString, String.toList_append, String.toList_ofList,
    List.mem_append, List.mem_flatMap] at hc
  rcases hc with (hc | (hc | ⟨d, _, hc⟩) | hc) | hc
  · exact le_of_all (by decide) hc
  · exact le_of_all (by decide) hc
  · exact le_of_mem_marshalChar hc
  · exact le_of_all (by decide) hc
  · exact le_of_all (by decide) hc

/-- The event that a version is announced by. -/
def bundleEvent (version : String) : ServerSentEvent where
  event := utf16 "bundle"
  data := utf16 (bundleEventPayload version)

theorem parse_bundleEvent {version : String} (h : Edge.isSha256Text version = true) :
    Edge.parseBundleEventVersion (Json.parse (bundleEvent version).data) = .ok version := by
  rw [bundleEvent, parse_bundleEventPayload]
  simp only [Edge.parseBundleEventVersion, h, if_true]

theorem readingFrom_new (text : Text) :
    readingFrom .new text =
      ((readLines ([], []) (splitLines text).1).1,
        ⟨(splitLines text).2, (readLines ([], []) (splitLines text).1).2.1,
          (readLines ([], []) (splitLines text).1).2.2⟩) := rfl

/-- The three lines of a bundle event. -/
theorem readLines_bundleEvent (version : String) :
    readLines ([], []) [utf16 "event: bundle",
        utf16 "data: " ++ utf16 (bundleEventPayload version), []] =
      ([bundleEvent version], ([], [])) := by
  have hevent : Instruction.ofLine (utf16 "event: bundle") = .setType (utf16 "bundle") := rfl
  have hdata (value : Text) : Instruction.ofLine (utf16 "data: " ++ value) = .addData value :=
    rfl
  have hempty : Instruction.ofLine [] = .emit := rfl
  have htype : utf16 "bundle" ≠ [] := by decide
  simp only [readLines, hevent, hdata, hempty, Instruction.run, htype, if_false,
    List.nil_append, List.append_nil, List.intercalate_singleton, bundleEvent]

theorem text_bundle (version : String) :
    utf16 (StreamFrame.bundle version).text = utf16 "event: bundle" ++ lineFeed ::
      ((utf16 "data: " ++ utf16 (bundleEventPayload version)) ++ lineFeed ::
        ([] ++ lineFeed :: [])) := by
  have hbreaks : utf16 "event: bundle\ndata: " =
      utf16 "event: bundle" ++ lineFeed :: utf16 "data: " := by decide
  have hend : utf16 "\n\n" = lineFeed :: ([] ++ lineFeed :: []) := by decide
  show utf16 ("event: bundle\ndata: " ++ bundleEventPayload version ++ "\n\n") = _
  rw [utf16_append, utf16_append, hbreaks, hend]
  simp only [List.append_assoc, List.cons_append]

/-- A frame is read at once: it gives its event and leaves nothing open. -/
theorem readingFrom_frame (frame : StreamFrame) :
    readingFrom .new (utf16 frame.text) =
      ((announcedVersions [frame]).map bundleEvent, .new) := by
  have hempty : Unbroken [] := nofun
  cases frame with
  | keepalive =>
    have htext : utf16 (StreamFrame.keepalive).text =
        utf16 ": keepalive" ++ lineFeed :: ([] ++ lineFeed :: []) := by decide
    have hcomment : Unbroken (utf16 ": keepalive") := by unfold Unbroken; decide
    rw [readingFrom_new, htext, splitLines_unbroken hcomment, splitLines_unbroken hempty]
    rfl
  | bundle version =>
    have hevent : Unbroken (utf16 "event: bundle") := by unfold Unbroken; decide
    have hname : Unbroken (utf16 "data: ") := by unfold Unbroken; decide
    have hdata : Unbroken (utf16 "data: " ++ utf16 (bundleEventPayload version)) :=
      hname.append (unbroken_payload version)
    rw [readingFrom_new, text_bundle, splitLines_unbroken hevent, splitLines_unbroken hdata,
      splitLines_unbroken hempty]
    simp only [splitLines, readLines_bundleEvent]
    rfl

theorem reading_streamText (frames : List StreamFrame) :
    reading (streamText frames) = ((announcedVersions frames).map bundleEvent, .new) := by
  induction frames with
  | nil => rfl
  | cons frame frames ih =>
    rw [reading] at ih
    have hversions : announcedVersions (frame :: frames) =
        announcedVersions [frame] ++ announcedVersions frames := by
      cases frame <;> rfl
    rw [reading, streamText, List.flatMap_cons, readingFrom_append, readingFrom_frame,
      ← streamText, ih, hversions, List.map_append]

/-- Cutting a text into chunks changes nothing, and what the control plane writes is decoded
into its versions, in their order and nothing else. -/
theorem event_stream_delivery :
    (∀ chunks : List Text,
      ServerSentEventDecoder.new.pushAll chunks = reading chunks.flatten) ∧
    ∀ (frames : List StreamFrame) (chunks : List Text),
      (∀ version ∈ announcedVersions frames, Edge.isSha256Text version = true) →
      chunks.flatten = streamText frames →
      let events := (ServerSentEventDecoder.new.pushAll chunks).1
      (∀ event ∈ events, event.event = utf16 "bundle") ∧
      events.map (fun event => Edge.parseBundleEventVersion (Json.parse event.data)) =
        (announcedVersions frames).map .ok := by
  refine ⟨pushAll_eq_reading, ?_⟩
  intro frames chunks hversions htext
  have hevents : (ServerSentEventDecoder.new.pushAll chunks).1 =
      (announcedVersions frames).map bundleEvent := by
    rw [pushAll_eq_reading, htext, reading_streamText]
  dsimp only
  rw [hevents]
  constructor
  · intro event hevent
    obtain ⟨version, _, rfl⟩ := List.mem_map.mp hevent
    rfl
  · rw [List.map_map]
    apply List.map_congr_left
    intro version hversion
    rw [Function.comp_apply]
    exact parse_bundleEvent (hversions version hversion)

/-- A stream that starts with a comment, cut in the middle of the field name of its data. -/
def cutStream : List StreamFrame :=
  [.keepalive,
    .bundle "sha256:00112233445566778899aabbccddeeff00112233445566778899aabbccddeeff"]

theorem event_stream_delivery_cut :
    (ServerSentEventDecoder.new.pushAll
        [(streamText cutStream).take 29, (streamText cutStream).drop 29]).1.map
      (fun event => Edge.parseBundleEventVersion (Json.parse event.data)) =
      (announcedVersions cutStream).map .ok :=
  (event_stream_delivery.2 cutStream _ (by decide +kernel)
    (by rw [List.flatten_cons, List.flatten_singleton, List.take_append_drop])).2

end ShieldWard.Delivery
