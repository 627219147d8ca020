import DomainAI.Data.NameLabel
import DomainAI.Ui.VisibleNotes
import Mathlib.Data.List.DropRight

/-!
# The bubble of a growing reply

While a reply streams in, its bubble shows what has been received so far, without the name
label and split into reasoning and answer.  What it has shown stays, but for a label or a
marker that has only begun to arrive.
-/

namespace DomainAI

/-!
# Trimming
-/

namespace Text

theorem trim_eq (t : Text) : trim t = (t.dropWhile isWhitespace).rdropWhile isWhitespace :=
  rfl

theorem rdropWhile_prefix_of_prefix {s t : Text} (h : s <+: t) :
    s.rdropWhile isWhitespace <+: t.rdropWhile isWhitespace := by
  rcases h with ⟨more, rfl⟩
  rw [List.rdropWhile, List.rdropWhile, List.reverse_append, List.dropWhile_append]
  split
  · exact List.prefix_refl _
  · rw [List.reverse_append, List.reverse_reverse]
    exact (List.rdropWhile_prefix isWhitespace s).trans (List.prefix_append _ _)

theorem trim_prefix {s t : Text} (h : s <+: t) : trim s <+: trim t := by
  rw [trim_eq, trim_eq]
  exact rdropWhile_prefix_of_prefix (Library.dropWhile_prefix isWhitespace h)

theorem trim_trim (t : Text) : trim (trim t) = trim t := by
  have hfront : (trim t).dropWhile isWhitespace = trim t := by
    rw [List.dropWhile_eq_self_iff]
    intro hpos
    have hkeeps : trim t <+: t.dropWhile isWhitespace :=
      List.rdropWhile_prefix _ _
    have hlength := Nat.lt_of_lt_of_le hpos hkeeps.length_le
    have hself := List.dropWhile_eq_self_iff.mp
      (List.dropWhile_idempotent isWhitespace t) hlength
    rwa [hkeeps.getElem hpos]
  rw [trim_eq (trim t), hfront, trim_eq, List.rdropWhile_idempotent]

end Text

/-!
# The split of a growing text
-/

namespace ReasoningSplit

open Library

/-- What was shown stays, up to the space around it and a marker that has only begun. -/
def Continues (marker earlier later : Text) : Prop :=
  exists stays begun, earlier = stays ++ begun ∧ begun <+: marker ∧ begun ≠ marker ∧
    Text.trim stays <+: Text.trim later

theorem Continues.of_prefix {marker earlier later : Text} (hmarker : marker ≠ [])
    (h : Text.trim earlier <+: Text.trim later) : Continues marker earlier later :=
  ⟨earlier, [], (List.append_nil earlier).symm, List.nil_prefix, hmarker.symm, h⟩

theorem trim_append_begun {marker begun : Text} (h : begun <+: marker) (hne : begun ≠ [])
    (hsolid : forall c, c ∈ marker -> Text.isWhitespace c = false) (x : Text) :
    Text.trim (x ++ begun) = x.dropWhile Text.isWhitespace ++ begun := by
  have hbegun (c : Char) (hc : c ∈ begun) : ¬ Text.isWhitespace c = true := by
    rw [hsolid c (h.subset hc)]
    exact Bool.false_ne_true
  have hfront : begun.dropWhile Text.isWhitespace = begun := by
    rw [List.dropWhile_eq_self_iff]
    exact fun hpos => hbegun _ (List.getElem_mem hpos)
  have hdrop : (x ++ begun).dropWhile Text.isWhitespace =
      x.dropWhile Text.isWhitespace ++ begun := by
    rw [List.dropWhile_append]
    split
    · rename_i hempty
      rw [hfront, List.isEmpty_iff.mp hempty, List.nil_append]
    · rfl
  rw [Text.trim_eq, hdrop, List.rdropWhile_eq_self_iff]
  intro hne'
  rw [List.getLast_append_of_ne_nil hne' hne]
  exact hbegun _ (List.getLast_mem hne)

theorem continues_cut {marker front begun later : Text} (hbegun : begun <+: marker)
    (hne : begun ≠ marker) (hmarker : marker ≠ [])
    (hsolid : forall c, c ∈ marker -> Text.isWhitespace c = false)
    (h : Text.trim front <+: Text.trim later) :
    Continues marker (Text.trim (front ++ begun)) later := by
  by_cases hnil : begun = []
  · apply Continues.of_prefix hmarker
    rwa [hnil, List.append_nil, Text.trim_trim]
  · refine ⟨front.dropWhile Text.isWhitespace, begun,
      trim_append_begun hbegun hnil hsolid front, hbegun, hne, ?_⟩
    rwa [Text.trim_eq, List.dropWhile_idempotent, <- Text.trim_eq]

theorem not_blank_of_closes {c : Char} (h : c ∈ CLOSE) : Text.isWhitespace c = false := by
  have hall : CLOSE.all (fun c => !Text.isWhitespace c) = true := by decide
  rw [<- Bool.not_eq_true']
  exact List.all_eq_true.mp hall c h

def Closed (text : Text) : Prop :=
  exists pre rest, text = pre ++ OPEN ++ rest ∧ ¬ OPEN <:+: pre ∧ CLOSE <:+: rest

structure Grows (earlier later : Text) : Prop where
  answer : Continues OPEN (parse earlier).2 (parse later).2
  reasoning : forall r, (parse earlier).1 = some r ->
    exists r', (parse later).1 = some r' ∧ Continues CLOSE r r'
  final : Closed earlier -> (parse later).1 = (parse earlier).1

theorem open_unique {pre rest pre' rest' : Text}
    (h : pre ++ OPEN ++ rest = pre' ++ OPEN ++ rest') (hpre : ¬ OPEN <:+: pre)
    (hpre' : ¬ OPEN <:+: pre') : pre = pre' ∧ rest = rest' := by
  have hlength := @indexOf_open pre' rest' hpre'
  rw [<- h, indexOf_open hpre, Option.some_inj] at hlength
  rw [List.append_assoc, List.append_assoc] at h
  rcases List.append_inj h hlength with ⟨rfl, hrest⟩
  exact ⟨rfl, List.append_cancel_left hrest⟩

theorem grows_of_plain {earlier later : Text} (h : earlier <+: later)
    (hplain : ¬ OPEN <:+: earlier) : Grows earlier later where
  answer := by
    rw [parse_plain hplain]
    by_cases hopen : OPEN <:+: later
    · rcases exists_first (by decide) hopen with ⟨pre, rest, rfl, hpre⟩
      rcases prefix_cut h hplain with ⟨front, begun, rfl, hfront, hbegun, hne⟩
      refine ⟨front, begun, rfl, hbegun, hne, ?_⟩
      by_cases hclose : CLOSE <:+: rest
      · rcases exists_first (by decide) hclose with ⟨thinking, after, rfl, hthinking⟩
        rw [parse_closed hpre hthinking, Text.trim_trim]
        exact Text.trim_prefix (hfront.trans (List.prefix_append _ _))
      · rw [parse_unclosed hpre hclose, Text.trim_trim]
        exact Text.trim_prefix hfront
    · rw [parse_plain hopen]
      exact Continues.of_prefix (by decide) (Text.trim_prefix h)
  reasoning := by
    intro r hr
    rw [parse_plain hplain] at hr
    cases hr
  final := by
    rintro ⟨pre, rest, rfl, _, _⟩
    exact absurd ⟨pre, rest, rfl⟩ hplain

theorem grows_of_unclosed {pre rest more : Text} (hpre : ¬ OPEN <:+: pre)
    (hrest : ¬ CLOSE <:+: rest) :
    Grows (pre ++ OPEN ++ rest) (pre ++ OPEN ++ (rest ++ more)) where
  answer := by
    rw [parse_unclosed hpre hrest]
    apply Continues.of_prefix (by decide)
    rw [Text.trim_trim]
    by_cases hclose : CLOSE <:+: rest ++ more
    · rcases exists_first (by decide) hclose with ⟨thinking, after, heq, hthinking⟩
      rw [heq, parse_closed hpre hthinking, Text.trim_trim]
      exact Text.trim_prefix (List.prefix_append _ _)
    · rw [parse_unclosed hpre hclose, Text.trim_trim]
  reasoning := by
    intro r hr
    rw [parse_unclosed hpre hrest] at hr
    cases hr
    by_cases hclose : CLOSE <:+: rest ++ more
    · rcases exists_first (by decide) hclose with ⟨thinking, after, heq, hthinking⟩
      rw [heq, parse_closed hpre hthinking]
      refine ⟨_, rfl, ?_⟩
      rcases prefix_cut (heq ▸ List.prefix_append rest more) hrest with
        ⟨front, begun, rfl, hfront, hbegun, hne⟩
      apply continues_cut hbegun hne (by decide) fun c => not_blank_of_closes
      rw [Text.trim_trim]
      exact Text.trim_prefix hfront
    · rw [parse_unclosed hpre hclose]
      refine ⟨_, rfl, Continues.of_prefix (by decide) ?_⟩
      rw [Text.trim_trim, Text.trim_trim]
      exact Text.trim_prefix (List.prefix_append _ _)
  final := by
    rintro ⟨pre', rest', heq, hpre', hclosed⟩
    exact absurd ((open_unique heq hpre hpre').right ▸ hclosed) hrest

theorem grows_of_closed {pre thinking rest more : Text} (hpre : ¬ OPEN <:+: pre)
    (hthinking : ¬ CLOSE <:+: thinking) :
    Grows (pre ++ OPEN ++ (thinking ++ CLOSE ++ rest))
      (pre ++ OPEN ++ (thinking ++ CLOSE ++ (rest ++ more))) where
  answer := by
    rw [parse_closed hpre hthinking, parse_closed hpre hthinking]
    apply Continues.of_prefix (by decide)
    rw [Text.trim_trim, Text.trim_trim, <- List.append_assoc]
    exact Text.trim_prefix (List.prefix_append _ _)
  reasoning := by
    intro r hr
    rw [parse_closed hpre hthinking] at hr
    rw [parse_closed hpre hthinking]
    exact ⟨r, hr, Continues.of_prefix (by decide) (List.prefix_refl _)⟩
  final _ := by
    rw [parse_closed hpre hthinking, parse_closed hpre hthinking]

theorem parse_grows {earlier later : Text} (h : earlier <+: later) : Grows earlier later := by
  by_cases hopen : OPEN <:+: earlier
  · rcases exists_first (by decide) hopen with ⟨pre, rest, rfl, hpre⟩
    rcases h with ⟨more, rfl⟩
    by_cases hclose : CLOSE <:+: rest
    · rcases exists_first (by decide) hclose with ⟨thinking, after, rfl, hthinking⟩
      rw [List.append_assoc (pre ++ OPEN), List.append_assoc (thinking ++ CLOSE)]
      exact grows_of_closed hpre hthinking
    · rw [List.append_assoc (pre ++ OPEN)]
      exact grows_of_unclosed hpre hclose
  · exact grows_of_plain h hopen

theorem not_open_of_blank {text : Text} (h : Text.isBlank text = true) :
    ¬ OPEN <:+: text := by
  intro hopen
  have hmem : '<' ∈ text := hopen.subset List.mem_cons_self
  exact absurd (List.all_eq_true.mp h '<' hmem) (by decide)

end ReasoningSplit

/-!
# The bubble
-/

namespace AssistantContent

open ReasoningSplit (parse OPEN CLOSE)

inductive Content where
  | typingIndicator
  | text (answer : Text)
  | markdownMessage (answer : Text)
  | nothing
  deriving DecidableEq, Repr

structure Bubble where
  reasoningSection : Option (Text × Bool)
  content : Content
  deriving DecidableEq, Repr

/-- `AssistantContent`. -/
def bubble (text : Text) (streaming : Bool) : Bubble :=
  let (thinking, answer) := parse text
  { reasoningSection :=
      thinking.map fun thinking => (thinking, streaming && Text.isBlank answer)
    content :=
      if Text.isBlank answer && thinking.isNone && streaming then Content.typingIndicator
      else if streaming then Content.text answer
      else if !Text.isBlank answer then Content.markdownMessage answer
      else Content.nothing }

theorem typingIndicator_iff {text : Text} :
    (bubble text true).content = Content.typingIndicator <-> Text.isBlank text = true := by
  by_cases hopen : OPEN <:+: text
  · have hthinking : exists thinking answer, parse text = (some thinking, answer) := by
      rcases Library.exists_first (by decide) hopen with ⟨pre, rest, rfl, hpre⟩
      by_cases hclose : CLOSE <:+: rest
      · rcases Library.exists_first (by decide) hclose with ⟨thinking, after, rfl, hfirst⟩
        exact ⟨_, _, ReasoningSplit.parse_closed hpre hfirst⟩
      · exact ⟨_, _, ReasoningSplit.parse_unclosed hpre hclose⟩
    rcases hthinking with ⟨thinking, answer, hparse⟩
    rw [bubble, hparse]
    apply iff_of_false
    · simp
    · exact fun hblank => ReasoningSplit.not_open_of_blank hblank hopen
  · rw [bubble, ReasoningSplit.parse_plain hopen]
    cases hblank : Text.isBlank text <;> simp [hblank]

theorem typingIndicator_earlier {earlier later : Text} (h : earlier <+: later)
    (htyping : (bubble later true).content = Content.typingIndicator) :
    (bubble earlier true).content = Content.typingIndicator := by
  rw [typingIndicator_iff] at htyping ⊢
  rw [Text.isBlank, List.all_eq_true] at htyping ⊢
  exact fun c hc => htyping c (h.subset hc)

end AssistantContent

namespace ChatRepository

open Library

/-- What a bubble has shown stays, and its typing indicator does not come back. -/
structure Stays (earlier later : Text) : Prop where
  split : ReasoningSplit.Grows earlier later
  typing : (AssistantContent.bubble later true).content =
      AssistantContent.Content.typingIndicator ->
    (AssistantContent.bubble earlier true).content =
      AssistantContent.Content.typingIndicator

/-- In every run, however it interleaves: as long as a reply streams in, what its bubble
has shown stays, but for a name label that is completed. -/
theorem bubble_grows {s s' : App} (hreach : Reachable s) {call : CallId}
    {outcome : PrivacyRouter.StreamingOutcome Flow} {builder : Text}
    (hcall : s.inFlight call = some (Coroutine.streaming outcome builder)) {es : List Event}
    (hrun : runEvents step s es = some s') :
    OnlySaves call s' ∨
      s'.inFlight call = some (Coroutine.streaming outcome (builder ++ receivedBy call es)) ∧
        (Stays (ReplyText.stripLeadingNameLabel builder)
            (ReplyText.stripLeadingNameLabel (builder ++ receivedBy call es)) ∨
          ReplyText.stripLeadingNameLabel builder = builder ∧
            ReplyText.LabelBegun builder (builder ++ receivedBy call es)) := by
  have hbegun : call < s.nextCall := hreach.numbered.inFlight call _ hcall
  rcases run_collects hbegun hcall hrun with hstreams | hsaves
  · refine Or.inr ⟨hstreams, ?_⟩
    have hgrown : builder <+: builder ++ receivedBy call es := List.prefix_append _ _
    rcases ReplyText.strip_grows hgrown with hshown | hlabel
    · exact Or.inl ⟨ReasoningSplit.parse_grows hshown,
        AssistantContent.typingIndicator_earlier hshown⟩
    · exact Or.inr hlabel
  · exact Or.inl hsaves

def reasoningBegins : List Event :=
  localTurn ++ [Event.resume 0 (Input.delta "Domain AI: Well, <thi".toList) 3]

def reasoningEnds : List Event :=
  [Event.resume 0 (Input.delta "nk>let me see</thi".toList) 4,
    Event.resume 0 (Input.delta "nk>yes.".toList) 5]

theorem bubble_grows_reasoning :
    exists s s' outcome, runEvents step firstLaunch.app reasoningBegins = some s ∧
      runEvents step s reasoningEnds = some s' ∧
      s'.inFlight 0 = some (Coroutine.streaming outcome
        "Domain AI: Well, <think>let me see</think>yes.".toList) ∧
      Stays (ReplyText.stripLeadingNameLabel "Domain AI: Well, <thi".toList)
        (ReplyText.stripLeadingNameLabel
          "Domain AI: Well, <think>let me see</think>yes.".toList) := by
  refine ⟨_, _, _, rfl, rfl, rfl, ?_⟩
  rcases @bubble_grows _ _ ⟨firstLaunch, reasoningBegins, rfl⟩ 0 _ _ rfl reasoningEnds rfl with
    hsaves | ⟨_, hstays | ⟨hunlabelled, _⟩⟩
  · rcases hsaves.saving _ rfl with ⟨snapshot, hsaving⟩
    cases hsaving
  · exact hstays
  · exact absurd hunlabelled (by decide)

end ChatRepository
end DomainAI
