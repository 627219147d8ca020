import DomainAI.Data.Calls
import DomainAI.Data.ChatEdits
import DomainAI.Data.Restore

/-!
# Where a summary comes from

A summary is made of the turns it covers and of the summary before it.  It is
noted in whatever conversation is open when it arrives, so it stays with its own
turns only as long as that conversation begins with them.
-/

namespace DomainAI
namespace ChatRepository

open Library App Chats

structure Exchange where
  prompt : Text
  completion : Text
  deriving DecidableEq, Repr

/-- The text summarises messages among these, and nothing else went into it. -/
inductive SummaryOf (exchanges : List Exchange) :
    List Message -> Text -> Prop where
  | first {previous : Option Text} {skipped turns : List Message}
      {completion text : Text}
      (hprevious : Text.isNullOrBlank previous = true)
      (hasked : Exchange.mk (History.summarizePrompt previous turns) completion ∈
        exchanges)
      (htext : History.newSummary (some completion) = some text) :
      SummaryOf exchanges (skipped ++ turns) text
  | next {previous : Text} {covered turns : List Message}
      {completion text : Text} (hcovered : SummaryOf exchanges covered previous)
      (hasked : Exchange.mk (History.summarizePrompt (some previous) turns)
        completion ∈ exchanges)
      (htext : History.newSummary (some completion) = some text) :
      SummaryOf exchanges (covered ++ turns) text

/-- A conversation whose summary was made of its own first messages. -/
structure OwnSummary (exchanges : List Exchange) (c : Conversation) : Prop where
  count : c.summarizedCount ≤ c.messages.length
  summary : forall text, c.summary = some text ->
    c.summarizedCount < c.messages.length ∧
      SummaryOf exchanges (c.messages.take c.summarizedCount) text

theorem SummaryOf.mono {exchanges more : List Exchange} {covered : List Message}
    {text : Text} (h : SummaryOf exchanges covered text) :
    SummaryOf (exchanges ++ more) covered text := by
  induction h with
  | first hprevious hasked htext =>
      exact SummaryOf.first hprevious (List.mem_append_left _ hasked) htext
  | next _ hasked htext ih =>
      exact SummaryOf.next ih (List.mem_append_left _ hasked) htext

/-!
# What keeps a summary with its turns
-/

theorem take_replaceLastText {ms : List Message} {k : Nat}
    (h : k < ms.length) (text : Text) :
    (Conversation.replaceLastText text ms).take k = ms.take k := by
  rcases List.eq_nil_or_concat ms with hms | ⟨front, m, hms⟩
  · rw [hms] at h
    cases h
  · rw [hms, List.concat_eq_append] at h ⊢
    have hk : k ≤ front.length := by
      rw [List.length_append, List.length_singleton] at h
      exact Nat.le_of_lt_succ h
    rw [Conversation.replaceLastText_append, List.take_append_of_le_length hk,
      List.take_append_of_le_length hk]

@[simp] theorem length_replaceLastText (text : Text) (ms : List Message) :
    (Conversation.replaceLastText text ms).length = ms.length := by
  rcases List.eq_nil_or_concat ms with hms | ⟨front, m, hms⟩
  · rw [hms]
    rfl
  · rw [hms, List.concat_eq_append, Conversation.replaceLastText_append,
      List.length_append, List.length_append, List.length_singleton,
      List.length_singleton]

namespace OwnSummary

variable {exchanges : List Exchange} {c c' : Conversation}

theorem mono (h : OwnSummary exchanges c) (more : List Exchange) :
    OwnSummary (exchanges ++ more) c where
  count := h.count
  summary text htext :=
    ⟨(h.summary text htext).left, (h.summary text htext).right.mono⟩

theorem of_beyond (h : OwnSummary exchanges c) (hsummary : c'.summary = c.summary)
    (hcount : c'.summarizedCount = c.summarizedCount)
    (hlength : c.messages.length ≤ c'.messages.length)
    (htake : forall k, k < c.messages.length ->
      c'.messages.take k = c.messages.take k) : OwnSummary exchanges c' := by
  constructor
  · rw [hcount]
    exact Nat.le_trans h.count hlength
  · intro text htext
    rw [hsummary] at htext
    rcases h.summary text htext with ⟨hlt, hmade⟩
    rw [hcount, htake _ hlt]
    exact ⟨Nat.lt_of_lt_of_le hlt hlength, hmade⟩

theorem fresh (exchanges : List Exchange) (s : Chats) (now : Millis) :
    OwnSummary exchanges (s.fresh now) where
  count := Nat.le_refl _
  summary := by intro text htext; cases htext

theorem addMessage (h : OwnSummary exchanges c) (m : Message) (now : Millis) :
    OwnSummary exchanges (c.addMessage m now) := by
  refine h.of_beyond rfl rfl ?_ ?_
  · simp
  · intro k hk
    exact List.take_append_of_le_length (Nat.le_of_lt hk)

theorem retitleIfNeeded (h : OwnSummary exchanges c) (prompt : Text) :
    OwnSummary exchanges (c.retitleIfNeeded prompt) := by
  unfold Conversation.retitleIfNeeded
  split
  · exact ⟨h.count, h.summary⟩
  · exact h

theorem updateLastText (h : OwnSummary exchanges c) (text : Text)
    (now : Millis) : OwnSummary exchanges (c.updateLastText text now) := by
  unfold Conversation.updateLastText
  split
  · exact h
  · refine h.of_beyond rfl rfl ?_ ?_
    · simp
    · intro k hk
      exact take_replaceLastText hk text

end OwnSummary

/-- What the engine makes of the turns no summary covers, together with the
summary before, is a summary of everything up to them. -/
theorem summaryOf_new {exchanges : List Exchange} {active : Conversation}
    (h : OwnSummary exchanges active) {completion text : Text}
    (hturns : History.olderUnsummarized active ≠ [])
    (hasked : Exchange.mk (History.summarizePrompt active.summary
      (History.olderUnsummarized active)) completion ∈ exchanges)
    (htext : History.newSummary (some completion) = some text) :
    SummaryOf exchanges (active.messages.take (History.newCount active)) text := by
  have hcovered : active.summarizedCount ≤ History.newCount active := by
    apply Nat.le_of_not_lt
    intro hlt
    apply hturns
    apply List.drop_eq_nil_of_le
    exact Nat.le_trans (List.length_take_le _ _) (Nat.le_of_lt hlt)
  have hsplit : active.messages.take (History.newCount active) =
      active.messages.take active.summarizedCount ++
        History.olderUnsummarized active := by
    have htake := List.take_append_drop active.summarizedCount
      (active.messages.take (History.newCount active))
    rw [List.take_take, Nat.min_eq_left hcovered] at htake
    exact htake.symm
  rw [hsplit]
  cases hsummary : active.summary with
  | none =>
      rw [hsummary] at hasked
      exact SummaryOf.first rfl hasked htext
  | some previous =>
      rw [hsummary] at hasked
      exact SummaryOf.next (h.summary previous hsummary).right hasked htext

theorem OwnSummary.withSummary {exchanges : List Exchange}
    {active c : Conversation} (h : OwnSummary exchanges c)
    {completion : Option Text}
    (hnew : forall text, History.newSummary completion = some text ->
      SummaryOf exchanges (active.messages.take (History.newCount active)) text)
    (hfits : History.newSummary completion ≠ none ->
      c.messages.take (History.newCount active) =
        active.messages.take (History.newCount active))
    (m : Message) (now : Millis) :
    OwnSummary exchanges
      ((History.withSummary completion active c).addMessage m now) := by
  unfold History.withSummary
  cases htext : History.newSummary completion with
  | none => exact h.addMessage m now
  | some text =>
      have hsame := hfits (by rw [htext]; exact Option.some_ne_none text)
      have hlength : History.newCount active ≤ c.messages.length := by
        have hcount : History.newCount active ≤ active.messages.length :=
          Nat.sub_le _ _
        have hlengths := congrArg List.length hsame
        rw [List.length_take, List.length_take, Nat.min_eq_left hcount]
          at hlengths
        omega
      constructor
      · simp only [Conversation.addMessage, List.length_append]
        exact Nat.le_add_right_of_le hlength
      · intro text' htext'
        cases htext'
        constructor
        · simp only [Conversation.addMessage, List.length_append,
            List.length_singleton]
          exact Nat.lt_succ_of_le hlength
        · simp only [Conversation.addMessage]
          rw [List.take_append_of_le_length hlength, hsame]
          exact hnew text htext

/-!
# A property of every conversation
-/

section Every

variable {P : Conversation -> Prop} {s : Chats}

theorem forall_updateActive {f : Conversation -> Conversation}
    (h : forall c, c ∈ s.conversations -> P c)
    (hf : forall c, c ∈ s.conversations -> s.activeId = some c.id -> P (f c)) :
    forall c, c ∈ (s.updateActive f).conversations -> P c := by
  intro c hc
  cases hactive : s.activeId with
  | none =>
      rw [Chats.updateActive, hactive] at hc
      exact h c hc
  | some id =>
      rw [updateActive_conversations hactive] at hc
      rcases List.mem_map.mp hc with ⟨c0, hc0, hchanged⟩
      rw [← hchanged]
      split
      · rename_i hopen
        exact hf c0 hc0 (by rw [hactive, hopen])
      · exact h c0 hc0

theorem forall_newConversation {now : Millis}
    (h : forall c, c ∈ s.conversations -> P c) (hfresh : P (s.fresh now)) :
    forall c, c ∈ (s.newConversation now).conversations -> P c := by
  unfold newConversation
  split
  · exact h
  · intro c hc
    rcases List.mem_cons.mp hc with heq | hold
    · rw [heq]
      exact hfresh
    · exact h c (List.mem_of_mem_filter hold)

theorem forall_selectConversation {id : Uuid}
    (h : forall c, c ∈ s.conversations -> P c) :
    forall c, c ∈ (s.selectConversation id).conversations -> P c := by
  unfold selectConversation
  split
  · exact h
  · intro c hc
    exact h c (List.mem_of_mem_filter hc)

theorem forall_deleteConversation {id : Uuid} {now : Millis}
    (h : forall c, c ∈ s.conversations -> P c) (hfresh : P (s.fresh now)) :
    forall c, c ∈ (s.deleteConversation id now).conversations -> P c := by
  unfold deleteConversation
  split
  · split
    · intro c hc
      rw [List.mem_singleton.mp hc]
      exact hfresh
    · intro c hc
      exact h c (List.mem_of_mem_filter hc)
  · intro c hc
    exact h c (List.mem_of_mem_filter hc)

theorem forall_restoreFrom {loaded : List Conversation} {now : Millis}
    (h : forall c, c ∈ loaded -> P c) (hfresh : P (s.fresh now)) :
    forall c, c ∈ (s.restoreFrom loaded now).conversations -> P c := by
  unfold restoreFrom
  split
  · intro c hc
    rw [List.mem_singleton.mp hc]
    exact hfresh
  · intro c hc
    exact h c (mem_stored.mp hc).left

end Every

/-!
# Runs with the answers of the engine
-/

/-- The application, with what the engine has answered so far. -/
structure Traced where
  app : App
  exchanges : List Exchange := []

def answered (s : App) : Event -> List Exchange
  | Event.resume call (Input.summarized (some completion)) _ =>
      match s.inFlight call with
      | some (Coroutine.summarizing _ _ prompt) => [Exchange.mk prompt completion]
      | _ => []
  | _ => []

def tracedStep (t : Traced) (e : Event) : Option Traced :=
  (step t.app e).map fun app =>
    { app := app, exchanges := t.exchanges ++ answered t.app e }

/-- A launch on a history whose summaries are its own, by the answers that
earlier sessions got. -/
structure SummarizedLaunch extends Launch where
  exchanges : List Exchange
  own : files.All fun l => forall c, c ∈ l -> OwnSummary exchanges c

def SummarizedLaunch.traced (l : SummarizedLaunch) : Traced where
  app := l.app
  exchanges := l.exchanges

/-- When a summary arrives, the open conversation begins with the turns that were
summarised. -/
def SummaryFits (t : Traced) : Event -> Prop
  | Event.resume call (Input.summarized completion) _ =>
      forall send active prompt c,
        t.app.inFlight call = some (Coroutine.summarizing send active prompt) ->
        History.newSummary completion ≠ none ->
        c ∈ t.app.chats.conversations -> t.app.chats.activeId = some c.id ->
        c.messages.take (History.newCount active) =
          active.messages.take (History.newCount active)
  | _ => True

structure Summarized (t : Traced) : Prop where
  chats : forall c, c ∈ t.app.chats.conversations -> OwnSummary t.exchanges c
  held : Held (fun l => forall c, c ∈ l -> OwnSummary t.exchanges c) t.app
  numbered : Numbered t.app
  summarizing : forall call send active prompt,
    t.app.inFlight call = some (Coroutine.summarizing send active prompt) ->
    OwnSummary t.exchanges active ∧ History.olderUnsummarized active ≠ [] ∧
      prompt = History.summarizePrompt active.summary
        (History.olderUnsummarized active)

theorem SummarizedLaunch.summarized (l : SummarizedLaunch) :
    Summarized l.traced where
  chats := by intro c hc; cases hc
  held :=
    { files := l.own
      inFlight := by intro call c k hk; cases hk }
  numbered := l.toLaunch.numbered
  summarizing := by intro call send active prompt hcall; cases hcall

section Step

variable {t t' : Traced} {e : Event}

theorem tracedStep_eq_some (h : tracedStep t e = some t') :
    step t.app e = some t'.app ∧
      t'.exchanges = t.exchanges ++ answered t.app e := by
  rcases Option.map_eq_some_iff.mp h with ⟨app, hstep, heq⟩
  rw [← heq]
  exact ⟨hstep, rfl⟩

theorem Summarized.delivered (h : Summarized t) {call : CallId}
    {send : SendCall} {active : Conversation} {prompt : Text}
    {completion : Option Text} {now : Millis}
    (hcall : t.app.inFlight call =
      some (Coroutine.summarizing send active prompt))
    (hevent : completion ≠ none ->
      e = Event.resume call (Input.summarized completion) now) {text : Text}
    (htext : History.newSummary completion = some text) :
    SummaryOf (t.exchanges ++ answered t.app e)
      (active.messages.take (History.newCount active)) text := by
  rcases h.summarizing call send active prompt hcall with ⟨hown, hturns, hprompt⟩
  cases completion with
  | none => cases htext
  | some answer =>
      refine summaryOf_new (hown.mono _) hturns ?_ htext
      rw [← hprompt, hevent (Option.some_ne_none answer), answered, hcall]
      exact List.mem_append_right _ List.mem_cons_self

theorem Edit.own (h : Summarized t) (hfits : SummaryFits t e)
    {chats chats' : Chats} (hedit : Edit t.app e chats chats')
    (hchats : forall c, c ∈ chats.conversations ->
      OwnSummary (t.exchanges ++ answered t.app e) c) :
    forall c, c ∈ chats'.conversations ->
      OwnSummary (t.exchanges ++ answered t.app e) c := by
  cases hedit with
  | draw => exact hchats
  | newConversation now =>
      exact forall_newConversation hchats (OwnSummary.fresh _ _ _)
  | selectConversation id => exact forall_selectConversation hchats
  | deleteConversation id now =>
      exact forall_deleteConversation hchats (OwnSummary.fresh _ _ _)
  | renameConversation id title =>
      intro c hc
      unfold Chats.renameConversation at hc
      split at hc
      · exact hchats c hc
      · rcases List.mem_map.mp hc with ⟨c0, hc0, hrenamed⟩
        rw [← hrenamed]
        split
        · exact ⟨(hchats c0 hc0).count, (hchats c0 hc0).summary⟩
        · exact hchats c0 hc0
  | addMessage message now =>
      exact forall_updateActive hchats fun c hc _ =>
        (hchats c hc).addMessage message now
  | retitleIfNeeded prompt =>
      exact forall_updateActive hchats fun c hc _ =>
        (hchats c hc).retitleIfNeeded prompt
  | updateLastText text now =>
      exact forall_updateActive hchats fun c hc _ =>
        (hchats c hc).updateLastText text now
  | @endSummary call send active prompt completion now hcall hevent =>
      rw [endSummary_chats]
      apply forall_updateActive (s := t.app.chats.draw.draw) hchats
      intro c hc hopen
      refine (hchats c hc).withSummary ?_ ?_ _ now
      · intro text htext
        exact h.delivered hcall hevent htext
      · intro hsome
        cases completion with
        | none => exact absurd rfl hsome
        | some answer =>
            have he := hevent (Option.some_ne_none answer)
            rw [he] at hfits
            exact hfits send active prompt c hcall hsome hc hopen
  | restoreFrom hcall now =>
      apply forall_restoreFrom
      · intro c hc
        exact (h.held.inFlight _ _ _ hcall rfl c hc).mono _
      · exact OwnSummary.fresh _ _ _

theorem Edits.own (h : Summarized t) (hfits : SummaryFits t e)
    {chats chats' : Chats} (hedits : Edits t.app e chats chats')
    (hchats : forall c, c ∈ chats.conversations ->
      OwnSummary (t.exchanges ++ answered t.app e) c) :
    forall c, c ∈ chats'.conversations ->
      OwnSummary (t.exchanges ++ answered t.app e) c := by
  induction hedits with
  | refl => exact hchats
  | tail _ hlast ih => exact Edit.own h hfits hlast ih

theorem own_ensureActive {exchanges : List Exchange} {chats : Chats}
    (h : forall c, c ∈ chats.conversations -> OwnSummary exchanges c)
    {now : Millis} {active : Conversation}
    (hactive : (ensureActive now chats).currentActive = some active) :
    OwnSummary exchanges active := by
  have hmem := currentActive_mem hactive
  unfold ensureActive at hmem
  split at hmem
  · exact forall_newConversation h (OwnSummary.fresh _ _ _) active hmem
  · exact h active hmem

theorem tracedStep_summarized (h : Summarized t) (hfits : SummaryFits t e)
    (hstep : tracedStep t e = some t') : Summarized t' := by
  rcases tracedStep_eq_some hstep with ⟨happ, hexchanges⟩
  have hmono : forall c, OwnSummary t.exchanges c ->
      OwnSummary (t.exchanges ++ answered t.app e) c :=
    fun c hc => hc.mono _
  have hchats := Edits.own h hfits (step_edits happ)
    fun c hc => hmono c (h.chats c hc)
  constructor
  · rw [hexchanges]
    exact hchats
  · rw [hexchanges]
    apply step_held _ (h.held.mono fun l hl c hc => hmono c (hl c hc)) _ happ
    · intro c hc
      cases hc
    · intro _ c hc
      exact hchats c (List.mem_of_mem_filter hc)
  · exact step_numbered h.numbered happ
  · intro call send active prompt hcall
    rw [hexchanges]
    rcases step_suspends happ hcall with hold | hnew
    · rcases h.summarizing call send active prompt hold with
        ⟨hown, hturns, hprompt⟩
      exact ⟨hmono active hown, hturns, hprompt⟩
    · cases hnew with
      | summarizing hevent hactive hplan =>
          rcases History.turns_of_plan hplan with ⟨hturns, hne⟩
          rw [hturns] at hne
          rw [hturns]
          exact ⟨hmono active (own_ensureActive h.chats hactive), hne, rfl⟩
      | plain hplain => cases hplain

/-!
# Histories
-/

/-- Every message of the history is one of the conversation's or carries a
summary of some of these. -/
def DrawsOn (exchanges : List Exchange) (c : Conversation)
    (history : List Message) : Prop :=
  forall m, m ∈ history -> m ∈ c.messages ∨
    exists k text, SummaryOf exchanges (c.messages.take k) text ∧
      m.text = "[Summary of earlier conversation]\n".toList ++ text

def prepares (s : App) : Event -> Option (CallId × Conversation)
  | Event.send _ _ _ _ now =>
      (ensureActive now s.chats).currentActive.map fun c => (s.nextCall, c)
  | Event.resume call (Input.summarized _) _ =>
      match s.inFlight call with
      | some (Coroutine.summarizing _ active _) => some (call, active)
      | _ => none
  | _ => none

/-- The history that a step prepares draws on the conversation of its send. -/
def PreparesOwn (t : Traced) (e : Event) : Prop :=
  forall call c t' send history, prepares t.app e = some (call, c) ->
    tracedStep t e = some t' ->
    t'.app.inFlight call = some (Coroutine.readingPrivacy send history) ->
    DrawsOn t'.exchanges c history

theorem DrawsOn.append {exchanges : List Exchange} {c : Conversation}
    {front back : List Message} (hfront : DrawsOn exchanges c front)
    (hback : forall m, m ∈ back -> m ∈ c.messages) :
    DrawsOn exchanges c (front ++ back) := by
  intro m hm
  rcases List.mem_append.mp hm with hm | hm
  · exact hfront m hm
  · exact Or.inl (hback m hm)

theorem drawsOn_summaryPrefix {exchanges : List Exchange} {c : Conversation}
    {summary : Option Text} (id : Uuid) (now : Millis)
    (h : forall text, summary = some text ->
      exists k, SummaryOf exchanges (c.messages.take k) text) :
    DrawsOn exchanges c ( History.summaryPrefix id now summary) := by
  intro m hm
  unfold History.summaryPrefix at hm
  split at hm
  · cases hm
  · rename_i text
    split at hm
    · cases hm
    · rw [List.mem_singleton.mp hm]
      rcases h text rfl with ⟨k, hmade⟩
      exact Or.inr ⟨k, text, hmade, rfl⟩

theorem drawsOn_of_plan {exchanges : List Exchange} {active : Conversation}
    (h : OwnSummary exchanges active) {contextTokens : Int} {loaded : Bool}
    {id : Uuid} {now : Millis} {history : List Message}
    (hplan : History.plan contextTokens loaded id now active =
      History.Plan.ready history) : DrawsOn exchanges active history := by
  have hprefix := drawsOn_summaryPrefix (c := active) id now
    fun text htext => ⟨_, (h.summary text htext).right⟩
  unfold History.plan at hplan
  split at hplan
  · cases hplan
    exact hprefix.append fun m hm => List.mem_of_mem_drop hm
  · split at hplan
    · cases hplan
      exact hprefix.append fun m hm => List.mem_of_mem_drop hm
    · cases hplan

theorem drawsOn_afterSummary {exchanges : List Exchange} {active : Conversation}
    (h : OwnSummary exchanges active) {completion : Option Text}
    (hnew : forall text, History.newSummary completion = some text ->
      SummaryOf exchanges (active.messages.take (History.newCount active)) text)
    (id : Uuid) (now : Millis) :
    DrawsOn exchanges active (History.afterSummary completion id now active) := by
  unfold History.afterSummary
  split
  · apply DrawsOn.append
    · exact drawsOn_summaryPrefix id now
        fun text htext => ⟨_, (h.summary text htext).right⟩
    · intro m hm
      exact List.mem_of_mem_drop hm
  · rename_i summary hsummary
    apply DrawsOn.append
    · apply drawsOn_summaryPrefix id now
      intro text htext
      rw [← Option.some_inj.mp htext]
      exact ⟨_, hnew summary hsummary⟩
    · intro m hm
      exact List.mem_of_mem_drop hm

theorem preparesOwn (h : Summarized t) (e : Event) : PreparesOwn t e := by
  intro call c t' send history hprepares hstep hcall
  rcases tracedStep_eq_some hstep with ⟨happ, hexchanges⟩
  rw [hexchanges]
  rcases step_suspends happ hcall with hold | hnew
  · -- the call that prepares a history does not have one yet
    cases e with
    | send prompt useCloud contextTokens loaded now =>
        rcases Option.map_eq_some_iff.mp hprepares with ⟨active, _, hpair⟩
        cases hpair
        exact absurd (h.numbered.inFlight _ _ hold) (Nat.lt_irrefl _)
    | resume other input now =>
        cases input with
        | summarized completion =>
            simp only [prepares] at hprepares
            split at hprepares
            · rename_i hother
              cases hprepares
              rw [hold] at hother
              cases hother
            · cases hprepares
        | _ => cases hprepares
    | _ => cases hprepares
  · cases hnew with
    | ready hevent hactive hplan =>
        rw [hevent] at hprepares
        rw [prepares, hactive] at hprepares
        cases hprepares
        exact drawsOn_of_plan
          ((own_ensureActive h.chats hactive).mono _) hplan
    | afterSummary hsummarizing hevent =>
        have hown := (h.summarizing _ _ _ _ hsummarizing).left
        have hprepared := hprepares
        rw [hevent, prepares, hsummarizing] at hprepared
        cases hprepared
        exact drawsOn_afterSummary (hown.mono _)
          (fun text htext => h.delivered hsummarizing (fun _ => hevent) htext)
          _ _
    | plain hplain => cases hplain

end Step

/-!
# Runs
-/

/-- In every run in which summaries arrive where they fit, every conversation in
memory, on disk and on its way there has its own summary, and no history draws
on another conversation. -/
theorem summaries_own (l : SummarizedLaunch) {es : List Event} {t : Traced}
    (hfits : AllSteps tracedStep SummaryFits l.traced es)
    (hrun : runEvents tracedStep l.traced es = some t) :
    (forall c, c ∈ t.app.chats.conversations -> OwnSummary t.exchanges c) ∧
    Held (fun l => forall c, c ∈ l -> OwnSummary t.exchanges c) t.app ∧
    forall e, PreparesOwn t e := by
  have h : Summarized t :=
    runEvents_invariant (fun _ _ _ hs hok hstep =>
      tracedStep_summarized hs hok hstep) l.summarized hfits hrun
  exact ⟨h.chats, h.held, fun e => preparesOwn h e⟩

theorem summaryFits_at_once {t t' : Traced} (hwell : WellFormed t.app)
    (hnumbered : Numbered t.app) {prompt : Text} {useCloud : Bool}
    {contextTokens : Int} {loaded : Bool} {now : Millis}
    (hstep : tracedStep t (Event.send prompt useCloud contextTokens loaded now) =
      some t') (completion : Option Text) (later : Millis) :
    SummaryFits t'
      (Event.resume t.app.nextCall (Input.summarized completion) later) := by
  intro send active asked c hcall _ hc hopen
  have happ := (tracedStep_eq_some hstep).left
  rcases step_suspends happ hcall with hold | hnew
  · exact absurd (hnumbered.inFlight _ _ hold) (Nat.lt_irrefl _)
  · cases hnew with
    | summarizing hevent hactive hplan =>
        cases hevent
        have hchats : t'.app.chats = (ensureActive now t.app.chats).draw := by
          rw [← Option.some_inj.mp happ, beginSend]
          simp only [hactive, hplan]
          rfl
        rw [hchats] at hc hopen
        have hid : c.id = active.id :=
          Option.some_inj.mp (hopen.symm.trans (currentActive_id hactive))
        have hsame := List.inj_on_of_nodup_map
          (ensureActive_wellFormed hwell.chats now).sound.nodup hc
          (currentActive_mem hactive) hid
        rw [hsame]
    | plain hplain => cases hplain

def longChat : Conversation where
  id := 0
  messages := (List.range 10).map fun i =>
    { id := i + 1, role := Role.USER, text := List.replicate 208 'a',
      timestamp := 1 }
  updatedAt := 2

def shortChat : Conversation where
  id := 11
  messages := [{ id := 12, role := Role.USER, text := "one".toList, timestamp := 1 }]
  updatedAt := 1

def twoChats : SummarizedLaunch where
  files :=
    { canonical := some (ConversationStore.Content.sealed
        ConversationStore.StoreFile.canonical [longChat, shortChat]) }
  nextUuid := 13
  sound := by
    intro f c hc
    cases f <;> cases hc
    intro name l hl
    cases hl
    exact ⟨by decide, by decide, by decide⟩
  exchanges := []
  own := by
    intro f c hc
    cases f <;> cases hc
    intro name l hl
    cases hl
    intro c hc
    rcases List.mem_cons.mp hc with heq | hc
    · rw [heq]
      exact ⟨by decide, by intro text htext; cases htext⟩
    · rw [List.mem_singleton.mp hc]
      exact ⟨by decide, by intro text htext; cases htext⟩

def summarizedElsewhere : List Event :=
  [Event.restore, Event.resume 0 (Input.loadRan []) 3,
   Event.resume 0 Input.loaded 4, Event.send "go".toList false 0 true 5,
   Event.selectConversation 11,
   Event.resume 1 (Input.summarized (some "notes".toList)) 6]

/-- The summary of the long chat is noted in the short one. -/
theorem summaries_own_fails :
    ¬ forall (l : SummarizedLaunch) (es : List Event) (t : Traced),
      runEvents tracedStep l.traced es = some t ->
      forall c, c ∈ t.app.chats.conversations -> OwnSummary t.exchanges c := by
  intro h
  have hcounts : (runEvents tracedStep twoChats.traced summarizedElsewhere).all
      (fun t => t.app.chats.conversations.all fun c =>
        decide (c.summarizedCount ≤ c.messages.length)) = false := by
    decide +kernel
  cases hrun : runEvents tracedStep twoChats.traced summarizedElsewhere with
  | none =>
      rw [hrun] at hcounts
      cases hcounts
  | some t =>
      rw [hrun, Option.all_some, List.all_eq_false] at hcounts
      rcases hcounts with ⟨c, hc, hcount⟩
      exact hcount (decide_eq_true (h twoChats _ t hrun c hc).count)

def restoredOnly : List Event :=
  [Event.restore, Event.resume 0 (Input.loadRan []) 3,
   Event.resume 0 Input.loaded 4]

def summarizedAtOnce : List Event :=
  restoredOnly ++
    [Event.send "go".toList false 0 true 5,
     Event.resume 1 (Input.summarized (some "notes".toList)) 6]

theorem summarizedAtOnce_fits :
    AllSteps tracedStep SummaryFits twoChats.traced summarizedAtOnce := by
  have hreach : forall s, runEvents step twoChats.app restoredOnly = some s ->
      Reachable s := fun s hs => ⟨twoChats.toLaunch, restoredOnly, hs⟩
  apply AllSteps.cons trivial rfl
  apply AllSteps.cons trivial rfl
  apply AllSteps.cons trivial rfl
  constructor
  · trivial
  · intro t ht
    have hmid := hreach _ rfl
    exact ⟨summaryFits_at_once hmid.wellFormed hmid.numbered ht _ _,
      fun _ _ => trivial⟩

theorem summaries_own_at_once :
    exists t, runEvents tracedStep twoChats.traced summarizedAtOnce = some t ∧
      (forall c, c ∈ t.app.chats.conversations ->
        OwnSummary t.exchanges c) ∧
      Held (fun l => forall c, c ∈ l -> OwnSummary t.exchanges c) t.app ∧
      forall e, PreparesOwn t e := by
  have hruns : (runEvents tracedStep twoChats.traced summarizedAtOnce).isSome :=
    by decide +kernel
  rcases Option.isSome_iff_exists.mp hruns with ⟨t, ht⟩
  exact ⟨t, ht, summaries_own twoChats summarizedAtOnce_fits ht⟩

end ChatRepository
end DomainAI
