import DomainAI.Inference.EventStream

/-!
# What a streamed reply delivers

The deltas of the lines that a provider has sent, each once and in order, whatever stands
between them; a prefix of them where the connection breaks off or the reply is stopped.
-/

namespace DomainAI
namespace RemoteEngine

open Library
open OpenRouterClient (JsonElement JsonPrimitive Thrown contentOf)

/-!
# Data frames
-/

theorem jsonObject_eq_ok {element : JsonElement} {fields : List (Text × JsonElement)} :
    element.jsonObject = Except.ok fields <-> element = JsonElement.JsonObject fields := by
  cases element <;> simp [JsonElement.jsonObject]

theorem jsonArray_eq_ok {element : JsonElement} {elements : List JsonElement} :
    element.jsonArray = Except.ok elements <-> element = JsonElement.JsonArray elements := by
  cases element <;> simp [JsonElement.jsonArray]

theorem contentOf_eq_some {field : Option JsonElement} {content : Text} :
    contentOf field = Except.ok (some content) <->
      field = some (JsonElement.primitive (JsonPrimitive.JsonLiteral content)) := by
  rcases field with _ | ⟨⟨⟩ | _⟩ | _ | _ <;>
    simp [contentOf, JsonElement.jsonPrimitive, JsonPrimitive.contentOrNull, pure, bind,
      Except.pure, Except.bind, Functor.map, Except.map]

def Holds (part : String) (content : Text) (element : JsonElement) : Prop :=
  exists root choice more fields,
    element = JsonElement.JsonObject root ∧
    root.lookup "choices".toList =
      some (JsonElement.JsonArray (JsonElement.JsonObject choice :: more)) ∧
    choice.lookup part.toList = some (JsonElement.JsonObject fields) ∧
    fields.lookup "content".toList =
      some (JsonElement.primitive (JsonPrimitive.JsonLiteral content))

theorem contentIn_eq_some {p : Platform} {part : String} {data content : Text} :
    contentIn p part data = Except.ok (some content) <->
      exists element, p.parseToJsonElement data = Except.ok element ∧
        Holds part content element := by
  simp only [contentIn, bind_eq_ok, jsonObject_eq_ok, contentOf_eq_some]
  constructor
  · rintro ⟨element, hparse, root, rfl, choices, hchoices, choice, hchoice, fields,
      hfields, hcontent⟩
    rcases Option.bind_eq_some_iff.mp hcontent with ⟨fields, rfl, hcontent⟩
    rcases mapM_eq_some.mp hfields with ⟨value, hvalue, hobject⟩
    rcases Option.bind_eq_some_iff.mp hvalue with ⟨choice, rfl, hpart⟩
    rcases mapM_eq_some.mp hchoice with ⟨value', hvalue', hobject'⟩
    rcases Option.bind_eq_some_iff.mp hvalue' with ⟨choices, rfl, hhead⟩
    rcases mapM_eq_some.mp hchoices with ⟨value'', hvalue'', harray⟩
    rw [jsonObject_eq_ok] at hobject hobject'
    rw [jsonArray_eq_ok] at harray
    subst hobject hobject' harray
    rcases List.head?_eq_some_iff.mp hhead with ⟨more, rfl⟩
    exact ⟨_, hparse, root, choice, more, fields, rfl, hvalue'', hpart, hcontent⟩
  · rintro ⟨_, hparse, root, choice, more, fields, rfl, harray, hpart, hcontent⟩
    refine ⟨_, hparse, root, rfl, some (JsonElement.JsonObject choice :: more), ?_,
      some choice, ?_, some fields, ?_, hcontent⟩
    · exact mapM_eq_some.mpr ⟨_, harray, rfl⟩
    · exact mapM_eq_some.mpr ⟨_, rfl, rfl⟩
    · exact mapM_eq_some.mpr ⟨_, hpart, rfl⟩

inductive Means (p : Platform) (text : Text) : Frame -> Prop where
  | done (data : Text) (htext : text = "data:".toList ++ data)
      (hdone : data.trim = "[DONE]".toList) : Means p text Frame.done
  | delta (data content : Text) (element : JsonElement)
      (htext : text = "data:".toList ++ data) (hopen : data.trim ≠ "[DONE]".toList)
      (hparse : p.parseToJsonElement data.trim = Except.ok element)
      (hholds : Holds "delta" content element) (hcontent : content ≠ []) :
      Means p text (Frame.delta content)
  /-- A comment, another field, or the blank line after an event. -/
  | other (htext : ¬ "data:".toList <+: text) : Means p text Frame.skipped
  /-- A frame that is no JSON, or has no content to add. -/
  | empty (data : Text) (htext : text = "data:".toList ++ data)
      (hopen : data.trim ≠ "[DONE]".toList)
      (hempty : forall element content,
        p.parseToJsonElement data.trim = Except.ok element ->
        Holds "delta" content element -> content = []) : Means p text Frame.skipped

theorem parseDelta_of_holds {p : Platform} {data content : Text} {element : JsonElement}
    (hparse : p.parseToJsonElement data = Except.ok element)
    (hholds : Holds "delta" content element) : parseDelta p data = content := by
  rw [parseDelta, contentIn_eq_some.mpr ⟨element, hparse, hholds⟩]

theorem parseDelta_of_empty {p : Platform} {data : Text}
    (h : forall element content, p.parseToJsonElement data = Except.ok element ->
      Holds "delta" content element -> content = []) : parseDelta p data = [] := by
  unfold parseDelta
  split
  · rename_i content hcontent
    rcases contentIn_eq_some.mp hcontent with ⟨element, hparse, hholds⟩
    exact h element content hparse hholds
  · rfl

theorem frame_data (p : Platform) (data : Text) :
    frame p ("data:".toList ++ data) =
      if data.trim = "[DONE]".toList then Frame.done
      else if (parseDelta p data.trim).isEmpty then Frame.skipped
      else Frame.delta (parseDelta p data.trim) := by
  have hdata : "data:".toList.isPrefixOf ("data:".toList ++ data) = true :=
    List.isPrefixOf_iff_prefix.mpr (List.prefix_append _ _)
  rw [frame, if_pos hdata]
  rfl

theorem Means.frame_eq {p : Platform} {text : Text} {f : Frame} (h : Means p text f) :
    frame p text = f := by
  cases h with
  | done data htext hdone => rw [htext, frame_data, if_pos hdone]
  | delta data content element htext hopen hparse hholds hcontent =>
      have hnonempty : content.isEmpty = false := by simpa using hcontent
      rw [htext, frame_data, if_neg hopen, parseDelta_of_holds hparse hholds, hnonempty,
        if_neg Bool.false_ne_true]
  | other htext =>
      rw [frame, if_neg fun hdata => htext (List.isPrefixOf_iff_prefix.mp hdata)]
  | empty data htext hopen hempty =>
      rw [htext, frame_data, if_neg hopen, parseDelta_of_empty hempty]
      rfl

/-!
# Bytes
-/

def utf8 (t : Text) : List UInt8 :=
  t.flatMap String.utf8EncodeChar

theorem ascii_of_mem {c : Char} {b : UInt8} (h : b ∈ String.utf8EncodeChar c)
    (hb : b.toNat < 0x80) : c.toNat = b.toNat := by
  simp only [String.utf8EncodeChar] at h
  have hval : c.val.toNat = c.toNat := rfl
  rw [hval] at h
  split at h
  · rw [List.mem_singleton] at h
    subst h
    rw [UInt8.toNat_ofNat']
    omega
  · -- every byte of a longer sequence has its top bit set
    have hhigh : 0x80 ≤ b.toNat := by
      split at h
      · simp only [List.mem_cons, List.not_mem_nil, or_false] at h
        rcases h with rfl | rfl <;> rw [UInt8.toNat_ofNat'] <;> omega
      · split at h
        · simp only [List.mem_cons, List.not_mem_nil, or_false] at h
          rcases h with rfl | rfl | rfl <;> rw [UInt8.toNat_ofNat'] <;> omega
        · simp only [List.mem_cons, List.not_mem_nil, or_false] at h
          rcases h with rfl | rfl | rfl | rfl <;> rw [UInt8.toNat_ofNat'] <;> omega
    exact absurd hb (Nat.not_lt.mpr hhigh)

theorem feed_notMem_utf8 {t : Text} (h : '\n' ∉ t) : lineEnds.feed ∉ utf8 t := by
  intro hmem
  rcases List.mem_flatMap.mp hmem with ⟨c, hc, hfeed⟩
  have hcode : c.toNat = 10 := ascii_of_mem hfeed (by decide)
  have hsame : c = '\n' := Char.toNat_inj.mp hcode
  exact h (hsame ▸ hc)

theorem getLast?_utf8 {t : Text} (h : t.getLast? ≠ some '\r') :
    (utf8 t).getLast? ≠ some lineEnds.back := by
  intro hback
  cases t using List.reverseRecOn with
  | nil => cases hback
  | append_singleton t c =>
      rw [utf8, List.flatMap_append, List.flatMap_singleton,
        List.getLast?_append_of_ne_nil _ String.utf8EncodeChar_ne_nil] at hback
      have hcode : c.toNat = 13 := ascii_of_mem (List.mem_of_getLast? hback) (by decide)
      have hsame : c = '\r' := Char.toNat_inj.mp hcode
      rw [List.getLast?_concat, hsame] at h
      exact h rfl

/-!
# Lines
-/

/-- A line as the provider sends it, and what it stands for. -/
structure SentLine where
  text : Text
  /-- Its end is a return and a feed, not a feed alone. -/
  returned : Bool
  frame : Frame

structure SentLine.Sound (p : Platform) (l : SentLine) : Prop where
  feed : '\n' ∉ l.text
  back : l.returned = false -> l.text.getLast? ≠ some '\r'
  means : Means p l.text l.frame

def SentLine.bytes (l : SentLine) : List UInt8 :=
  lineEnds.written (utf8 l.text) l.returned

def sent (lines : List SentLine) : List UInt8 :=
  lines.flatMap SentLine.bytes

def deltas : List Frame -> List Text
  | [] => []
  | Frame.done :: _ => []
  | Frame.skipped :: frames => deltas frames
  | Frame.delta content :: frames => content :: deltas frames

theorem deltas_append (frames later : List Frame) :
    deltas (frames ++ later) =
      if Frame.done ∈ frames then deltas frames else deltas frames ++ deltas later := by
  induction frames with
  | nil => rfl
  | cons f frames ih =>
      cases f with
      | done => simp [deltas]
      | skipped => simp [deltas, ih]
      | delta content => by_cases hdone : Frame.done ∈ frames <;> simp [deltas, ih, hdone]

section Lines

variable {p : Platform} {l : SentLine} {lines : List SentLine} {rest : List UInt8}
  {failure : Option Text}

theorem SentLine.Sound.plain (h : l.Sound p) :
    lineEnds.Plain (utf8 l.text) l.returned where
  feed := feed_notMem_utf8 h.feed
  back hreturned := getLast?_utf8 (h.back hreturned)

theorem bytes_ne_nil (l : SentLine) : l.bytes ≠ [] := by
  simp [SentLine.bytes, LineEnds.written]

/-- What a line adds to what the rest of the stream delivers. -/
def afterFrame : Frame -> List Text × Ending -> List Text × Ending
  | Frame.done, _ => ([], Ending.completed)
  | Frame.skipped, later => later
  | Frame.delta content, later => (content :: later.1, later.2)

theorem stream_empty (p : Platform) (points : Option Nat) {s : ResponseBody}
    (hbytes : s.bytes = []) :
    stream p points s = ([], (s.failure.map Ending.failed).getD Ending.completed) := by
  rw [stream, if_pos (by simpa using hbytes)]

theorem stream_read {s rest : ResponseBody} {line : Text} (hbytes : s.bytes ≠ [])
    (hline : s.readUtf8Line p = Except.ok (some (line, rest))) :
    stream p none s = afterFrame (frame p line) (stream p none rest) := by
  rw [stream, if_neg (by simpa using hbytes)]
  simp only [pass]
  split
  · rename_i hread
    rw [hline] at hread
    cases hread
  · rename_i hread
    rw [hline] at hread
    cases hread
  · rename_i hread
    rw [hline] at hread
    cases hread
    cases frame p line <;> rfl

theorem ResponseBody.bytes_of_readUtf8Line {s : ResponseBody}
    (h : s.readUtf8Line p = Except.ok none) : s.bytes = [] := by
  unfold readUtf8Line at h
  split at h
  · cases h
  · split at h
    · cases h
    · split at h
      · rename_i hempty
        exact List.isEmpty_iff.mp hempty
      · cases h

theorem stream_fails {s : ResponseBody} {message : Text} (hbytes : s.bytes ≠ [])
    (hline : s.readUtf8Line p = Except.error message) :
    stream p none s = ([], Ending.failed message) := by
  rw [stream, if_neg (by simpa using hbytes)]
  simp only [pass]
  split
  · rename_i hread
    rw [hline] at hread
    cases hread
    rfl
  · rename_i hread
    rw [hline] at hread
    cases hread
  · rename_i hread
    rw [hline] at hread
    cases hread

theorem stream_line (hutf8 : forall t, p.readUtf8 (utf8 t) = t) (h : l.Sound p)
    (rest : List UInt8) (failure : Option Text) :
    stream p none { bytes := l.bytes ++ rest, failure := failure } =
      afterFrame l.frame (stream p none { bytes := rest, failure := failure }) := by
  rw [<- h.means.frame_eq]
  refine stream_read (fun hnil => bytes_ne_nil l (List.append_eq_nil_iff.mp hnil).left) ?_
  unfold ResponseBody.readUtf8Line SentLine.bytes
  rw [LineEnds.nextLine_written h.plain]
  dsimp only
  rw [hutf8]

theorem stream_lines (hutf8 : forall t, p.readUtf8 (utf8 t) = t)
    (h : forall l, l ∈ lines -> l.Sound p) (rest : List UInt8) (failure : Option Text) :
    stream p none { bytes := sent lines ++ rest, failure := failure } =
      (lines.map SentLine.frame).foldr afterFrame
        (stream p none { bytes := rest, failure := failure }) := by
  induction lines with
  | nil => rfl
  | cons l lines ih =>
      rcases List.forall_mem_cons.mp h with ⟨hl, hlines⟩
      rw [sent, List.flatMap_cons, List.append_assoc, stream_line hutf8 hl, List.map_cons,
        List.foldr_cons, <- ih hlines]
      rfl

theorem stream_cut (h : l.Sound p) (rest : List UInt8) {k : Nat} (hk : k < l.bytes.length)
    (message : Text) :
    stream p none { bytes := (l.bytes ++ rest).take k, failure := some message } =
      ([], Ending.failed message) := by
  cases k with
  | zero => exact stream_empty p none rfl
  | succ k =>
      have hnone := LineEnds.nextLine_cut h.plain rest hk
      have hbytes : (l.bytes ++ rest).take (k + 1) ≠ [] := by
        intro hnil
        rcases List.take_eq_nil_iff.mp hnil with hzero | hnil
        · cases hzero
        · exact bytes_ne_nil l (List.append_eq_nil_iff.mp hnil).left
      refine stream_fails hbytes ?_
      unfold ResponseBody.readUtf8Line
      dsimp only
      rw [SentLine.bytes, hnone]

theorem foldr_afterFrame (frames : List Frame) (later : List Text × Ending) :
    frames.foldr afterFrame later =
      if Frame.done ∈ frames then (deltas frames, Ending.completed)
      else (deltas frames ++ later.1, later.2) := by
  induction frames with
  | nil => rfl
  | cons f frames ih =>
      cases f with
      | done => simp [afterFrame, deltas]
      | skipped => simp [afterFrame, deltas, ih]
      | delta content =>
          by_cases hdone : Frame.done ∈ frames <;> simp [afterFrame, deltas, ih, hdone]

theorem stream_broken (hutf8 : forall t, p.readUtf8 (utf8 t) = t)
    (h : forall l, l ∈ lines -> l.Sound p) (k : Nat) (message : Text) :
    exists m, m ≤ lines.length ∧ (sent (lines.take m)).length ≤ k ∧
      (m < lines.length -> k < (sent (lines.take (m + 1))).length) ∧
      stream p none { bytes := (sent lines).take k, failure := some message } =
        ((lines.take m).map SentLine.frame).foldr afterFrame
          ([], Ending.failed message) := by
  induction lines generalizing k with
  | nil =>
      refine ⟨0, Nat.le_refl _, Nat.zero_le _, fun hlt => absurd hlt (Nat.lt_irrefl 0), ?_⟩
      rw [sent, List.flatMap_nil, List.take_nil]
      exact stream_empty p none rfl
  | cons l lines ih =>
      rcases List.forall_mem_cons.mp h with ⟨hl, hlines⟩
      by_cases hk : k < l.bytes.length
      · refine ⟨0, Nat.zero_le _, Nat.zero_le _, fun _ => ?_, stream_cut hl _ hk message⟩
        simpa [sent] using hk
      · rcases ih hlines (k - l.bytes.length) with ⟨m, hm, harrived, hnext, hstream⟩
        have hle := Nat.not_lt.mp hk
        refine ⟨m + 1, Nat.succ_le_succ hm, ?_, fun hlt => ?_, ?_⟩
        · rw [List.take_succ_cons, sent, List.flatMap_cons, List.length_append]
          exact Nat.add_le_of_le_sub' hle harrived
        · have hcut := hnext (Nat.lt_of_succ_lt_succ hlt)
          rw [List.take_succ_cons, sent, List.flatMap_cons, List.length_append]
          exact (Nat.sub_lt_iff_lt_add' hle).mp hcut
        · have htake : (sent (l :: lines)).take k =
              l.bytes ++ (sent lines).take (k - l.bytes.length) := by
            rw [sent, List.flatMap_cons, List.take_append, List.take_of_length_le hle]
            rfl
          rw [htake, stream_line hutf8 hl, hstream]
          rfl

/-- A last line without an end counts where the stream ends well. -/
theorem stream_last (hutf8 : forall t, p.readUtf8 (utf8 t) = t) {text : Text} {f : Frame}
    (hfeed : '\n' ∉ text) (hmeans : Means p text f) :
    stream p none { bytes := utf8 text } = (deltas [f], Ending.completed) := by
  rw [<- hmeans.frame_eq]
  by_cases hbytes : utf8 text = []
  · have htext : text = [] :=
      calc text = p.readUtf8 (utf8 text) := (hutf8 text).symm
        _ = p.readUtf8 (utf8 []) := by rw [hbytes]; rfl
        _ = [] := hutf8 []
    subst htext
    exact stream_empty p none rfl
  · have hline : ResponseBody.readUtf8Line p { bytes := utf8 text } =
        Except.ok (some (text, { bytes := [] })) := by
      unfold ResponseBody.readUtf8Line
      dsimp only
      rw [LineEnds.nextLine_of_notMem (feed_notMem_utf8 hfeed), if_neg (by simpa using hbytes),
        hutf8]
    rw [stream_read hbytes hline, stream_empty p none rfl]
    cases frame p text <;> rfl

/-- The flow is cut short by its cancellation, or runs as if there were none. -/
def CutShort (cut whole : List Text × Ending) : Prop :=
  cut.1 <+: whole.1 ∧ (cut.2 ≠ Ending.cancelled -> cut = whole)

theorem cutShort_refl (run : List Text × Ending) : CutShort run run :=
  ⟨List.prefix_rfl, fun _ => rfl⟩

theorem cutShort_cancelled (whole : List Text × Ending) :
    CutShort ([], Ending.cancelled) whole :=
  ⟨List.nil_prefix, fun h => absurd rfl h⟩

theorem CutShort.cons {cut whole : List Text × Ending} (h : CutShort cut whole)
    (content : Text) : CutShort (content :: cut.1, cut.2) (content :: whole.1, whole.2) :=
  ⟨(List.prefix_cons_inj content).mpr h.left, fun hgoes => by rw [h.right hgoes]⟩

theorem stream_cutShort (p : Platform) (points : Option Nat) (s : ResponseBody) :
    CutShort (stream p points s) (stream p none s) := by
  induction hlength : s.bytes.length using Nat.strongRecOn generalizing points s with
  | ind n ih =>
      by_cases hbytes : s.bytes = []
      · rw [stream_empty p points hbytes, stream_empty p none hbytes]
        exact cutShort_refl _
      · rw [stream, if_neg (by simpa using hbytes)]
        cases hpass : pass points with
        | none => exact cutShort_cancelled _
        | some points' =>
            dsimp only
            split
            · rename_i hread
              rw [stream_fails hbytes hread]
              exact cutShort_refl _
            · rename_i hread
              exact absurd (ResponseBody.bytes_of_readUtf8Line hread) hbytes
            · rename_i line rest hread
              have hshorter := ResponseBody.readUtf8Line_shorter hread
              rw [hlength] at hshorter
              have hrest := fun points => ih _ hshorter points rest rfl
              rw [stream_read hbytes hread]
              cases frame p line with
              | done => exact cutShort_refl _
              | skipped => exact hrest points'
              | delta content =>
                  cases hpass' : pass points' with
                  | none => exact cutShort_cancelled _
                  | some points'' => exact (hrest points'').cons content

end Lines

def streamed (code : Nat) (contentType : Text) (body : ResponseBody) : Response where
  code := code
  contentType := contentType
  body := some body

/-- Whatever stands between the data frames and after the closing one, the reply has the
deltas that were sent, each once and in order; where the connection breaks off after any
byte, it has those of the lines that have arrived, and fails; and where it is stopped, it
has a prefix of them. -/
theorem event_stream_delivered (p : Platform) (hutf8 : forall t, p.readUtf8 (utf8 t) = t)
    {lines : List SentLine} (hlines : forall l, l ∈ lines -> l.Sound p) {code : Nat}
    (hcode : 200 ≤ code ∧ code < 300) {contentType : Text}
    (htype : contentType.Contains "text/event-stream".toList) :
    (Frame.done ∈ lines.map SentLine.frame -> forall rest failure,
      generate p none (Except.ok (streamed code contentType
          { bytes := sent lines ++ rest, failure := failure })) =
        (deltas (lines.map SentLine.frame), Ending.completed)) ∧
    (forall text f, '\n' ∉ text -> Means p text f ->
      generate p none (Except.ok (streamed code contentType
          { bytes := sent lines ++ utf8 text })) =
        (deltas (lines.map SentLine.frame ++ [f]), Ending.completed)) ∧
    (forall k message,
      exists m, m ≤ lines.length ∧ (sent (lines.take m)).length ≤ k ∧
        (m < lines.length -> k < (sent (lines.take (m + 1))).length) ∧
        generate p none (Except.ok (streamed code contentType
            { bytes := (sent lines).take k, failure := some message })) =
          (deltas ((lines.take m).map SentLine.frame),
            if Frame.done ∈ (lines.take m).map SentLine.frame then Ending.completed
            else Ending.failed message)) ∧
    forall points body,
      CutShort (generate p points (Except.ok (streamed code contentType body)))
        (generate p none (Except.ok (streamed code contentType body))) := by
  have hstream : forall points body,
      generate p points (Except.ok (streamed code contentType body)) =
        stream p points body := by
    intro points body
    exact (if_pos hcode).trans (if_pos htype)
  simp only [hstream]
  refine ⟨fun hdone rest failure => ?_, fun text f hfeed hmeans => ?_, fun k message => ?_,
    stream_cutShort p⟩
  · rw [stream_lines hutf8 hlines, foldr_afterFrame, if_pos hdone]
  · rw [stream_lines hutf8 hlines, stream_last hutf8 hfeed hmeans, foldr_afterFrame,
      deltas_append]
    split <;> rfl
  · rcases stream_broken hutf8 hlines k message with ⟨m, hm, harrived, hnext, hbroken⟩
    refine ⟨m, hm, harrived, hnext, ?_⟩
    rw [hbroken, foldr_afterFrame]
    split <;> simp

def hiFrame : Text :=
  "\x7b\"choices\":[\x7b\"delta\":\x7b\"content\":\"Hi\"\x7d\x7d]\x7d".toList

def hiElement : JsonElement :=
  JsonElement.JsonObject [("choices".toList, JsonElement.JsonArray
    [JsonElement.JsonObject [("delta".toList, JsonElement.JsonObject [("content".toList,
      JsonElement.primitive (JsonPrimitive.JsonLiteral "Hi".toList))])]])]

def hiPlatform : Platform where
  parseToJsonElement data :=
    if data = hiFrame then Except.ok hiElement
    else Except.error Thrown.SerializationException
  readUtf8 bytes := (bytes.toByteArray.utf8Decode?.map Array.toList).getD ['\uFFFD']
  readString _ bytes := (bytes.toByteArray.utf8Decode?.map Array.toList).getD ['\uFFFD']

def hiLines : List SentLine :=
  [{ text := ": OPENROUTER PROCESSING".toList, returned := false, frame := Frame.skipped },
   { text := [], returned := true, frame := Frame.skipped },
   { text := "data: ".toList ++ hiFrame, returned := true,
     frame := Frame.delta "Hi".toList },
   { text := "data: \x7b".toList, returned := false, frame := Frame.skipped },
   { text := "data: [DONE]".toList, returned := false, frame := Frame.done }]

theorem hiPlatform_readUtf8 (t : Text) : hiPlatform.readUtf8 (utf8 t) = t := by
  have hdecode : (utf8 t).toByteArray.utf8Decode? = some t.toArray :=
    List.utf8Decode?_utf8Encode
  simp [hiPlatform, hdecode]

theorem hiLines_sound (l : SentLine) (h : l ∈ hiLines) : l.Sound hiPlatform := by
  simp only [hiLines, List.mem_cons, List.not_mem_nil, or_false] at h
  rcases h with rfl | rfl | rfl | rfl | rfl
  · exact ⟨by decide, by decide, Means.other (by decide)⟩
  · exact ⟨by decide, by decide, Means.other (by decide)⟩
  · refine ⟨by decide, by decide, Means.delta (" ".toList ++ hiFrame) _ hiElement rfl
      (by decide) rfl ⟨_, _, _, _, rfl, rfl, rfl, rfl⟩ (by decide)⟩
  · refine ⟨by decide, by decide, Means.empty " \x7b".toList rfl (by decide) ?_⟩
    intro element content hparse
    cases hparse
  · exact ⟨by decide, by decide, Means.done " [DONE]".toList rfl (by decide)⟩

theorem hiLines_delivered :
    generate hiPlatform none (Except.ok (streamed 200 "text/event-stream".toList
        { bytes := sent hiLines ++ [0xFF], failure := some "reset".toList })) =
      (["Hi".toList], Ending.completed) :=
  (event_stream_delivered hiPlatform hiPlatform_readUtf8 hiLines_sound ⟨by decide, by decide⟩
    (by decide)).left (by decide) _ _

end RemoteEngine
end DomainAI
