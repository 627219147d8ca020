import DomainAI.Data.Calls
import DomainAI.Data.ChatFrame

/-!
# The frame of a send

A send writes to whichever conversation is open at the moment.  As long as that
is the conversation it was called for, its effect on messages is to append the
prompt and the reply there, whatever else happens in between.
-/

namespace DomainAI
namespace ChatRepository

open Library PrivacyRouter Chats

/-!
# One turn of a conversation
-/

structure Turn (base : Chats) (target : Uuid) (appended : List Message)
    (s : Chats) : Prop where
  evolved : forall c, c ∈ s.conversations ->
    (exists c0, c0 ∈ base.conversations ∧ c0.id = c.id ∧
      c.messages =
        if c.id = target then c0.messages ++ appended else c0.messages) ∨
      (base.nextUuid ≤ c.id ∧ c.messages = [])
  supply : base.nextUuid ≤ s.nextUuid
  known : target < base.nextUuid

section Turn

variable {base s s' : Chats} {target : Uuid} {appended : List Message}

theorem Turn.start (h : target < base.nextUuid) : Turn base target [] base where
  evolved c hc := Or.inl ⟨c, hc, rfl, by simp⟩
  supply := Nat.le_refl _
  known := h

theorem Turn.carry (h : Turn base target appended s) (hcarries : Carries s s') :
    Turn base target appended s' where
  evolved c hc := by
    rcases hcarries.carried c hc with ⟨c1, hc1, hid, hmessages⟩ | ⟨hid, hnil⟩
    · rcases h.evolved c1 hc1 with ⟨c0, hc0, hid0, heq⟩ | ⟨hnew, hnil⟩
      · exact Or.inl ⟨c0, hc0, hid0.trans hid, by rw [← hmessages, heq, hid]⟩
      · exact Or.inr ⟨hid ▸ hnew, hmessages ▸ hnil⟩
    · exact Or.inr ⟨h.supply.trans hid, hnil⟩
  supply := h.supply.trans hcarries.supply
  known := h.known

theorem Turn.updateActive {more : List Message}
    (h : Turn base target appended s) (hactive : s.activeId = some target)
    {f : Conversation -> Conversation} (hid : forall c, (f c).id = c.id)
    (hmessages : forall c front, c.messages = front ++ appended ->
      (f c).messages = front ++ more) :
    Turn base target more (s.updateActive f) where
  evolved c hc := by
    rw [updateActive_conversations hactive] at hc
    rcases List.mem_map.mp hc with ⟨c1, hc1, rfl⟩
    by_cases htarget : c1.id = target
    · rw [if_pos htarget, hid]
      rcases h.evolved c1 hc1 with ⟨c0, hc0, hid0, heq⟩ | ⟨hnew, _⟩
      · rw [if_pos htarget] at heq
        refine Or.inl ⟨c0, hc0, hid0, ?_⟩
        rw [if_pos htarget, hmessages c1 _ heq]
      · exact absurd (lt_of_lt_of_le h.known hnew) (by simp [htarget])
    · rw [if_neg htarget]
      rcases h.evolved c1 hc1 with ⟨c0, hc0, hid0, heq⟩ | hnew
      · rw [if_neg htarget] at heq
        exact Or.inl ⟨c0, hc0, hid0, by rw [if_neg htarget, heq]⟩
      · exact Or.inr hnew
  supply := by simpa using h.supply
  known := h.known

theorem Turn.appendPrompt (h : Turn base target appended s)
    (hactive : s.activeId = some target) (prompt : Text) (now : Millis) :
    exists u : Message, (u.role = Role.USER ∧ u.text = prompt) ∧
      Turn base target (appended ++ [u]) (appendPrompt prompt now s) := by
  refine ⟨{ id := s.nextUuid, role := Role.USER, text := prompt,
            timestamp := now }, ⟨rfl, rfl⟩, ?_⟩
  refine (h.carry (carries_draw s)).updateActive hactive (fun _ => rfl) ?_
  intro c front hfront
  rw [Conversation.addMessage_messages, hfront, List.append_assoc]

theorem Turn.appendSeed (h : Turn base target appended s)
    (hactive : s.activeId = some target) (prompt : Text) (reply : Message)
    (now : Millis) :
    Turn base target (appended ++ [reply]) (appendSeed prompt reply now s) := by
  apply (h.carry (carries_draw s)).updateActive hactive (by simp)
  intro c front hfront
  simp [hfront]

theorem Turn.writeReply {reply : Message}
    (h : Turn base target (appended ++ [reply]) s)
    (hactive : s.activeId = some target) (text : Text) (now : Millis) :
    Turn base target (appended ++ [{ reply with text := text }])
      (writeReply text now s) := by
  apply h.updateActive hactive (by simp)
  intro c front hfront
  rw [Conversation.updateLastText_messages, hfront, ← List.append_assoc,
    Conversation.replaceLastText_append, List.append_assoc]

theorem Turn.writeReply_last {u reply : Message}
    (h : Turn base target [u, reply] s) (hactive : s.activeId = some target)
    (text : Text) (now : Millis) :
    Turn base target [u, { reply with text := text }]
      (ChatRepository.writeReply text now s) := by
  rw [← List.singleton_append]
  refine Turn.writeReply ?_ hactive text now
  rwa [List.singleton_append]

theorem Turn.of_gone {more : List Message} (h : Turn base target appended s)
    (hgone : forall c, c ∈ s.conversations -> c.id ≠ target) :
    Turn base target more s where
  evolved c hc := by
    have hother := hgone c hc
    rcases h.evolved c hc with ⟨c0, hc0, hid, heq⟩ | hnew
    · exact Or.inl ⟨c0, hc0, hid, by rw [heq, if_neg hother, if_neg hother]⟩
    · exact Or.inr hnew
  supply := h.supply
  known := h.known

end Turn

/-!
# How far a send has got
-/

def finalTexts (call : CallId) (log : List Observation) : List Text :=
  log.filterMap fun o =>
    match o with
    | Observation.finalized other text => if other = call then some text else none
    | _ => none

def IsPrompt (prompt : Text) (m : Message) : Prop :=
  m.role = Role.USER ∧ m.text = prompt

/-- Where a send is, the final texts it has written, what it has appended. -/
inductive Stage (prompt : Text) :
    Option Coroutine -> List Text -> List Message -> Prop where
  | summarizing {send : SendCall} {active : Conversation} {request : Text}
      (hsend : send.prompt = prompt) :
      Stage prompt (some (Coroutine.summarizing send active request)) [] []
  | prompted {send : SendCall} {history : List Message} {u : Message}
      (hsend : send.prompt = prompt) (hu : IsPrompt prompt u) :
      Stage prompt (some (Coroutine.readingPrivacy send history)) [] [u]
  | replying {outcome : StreamingOutcome Flow} {builder : Text}
      {u r : Message} (hu : IsPrompt prompt u) (hr : r.role = Role.ORACLE) :
      Stage prompt (some (Coroutine.streaming outcome builder)) [] [u, r]
  | saving {snapshot : List Conversation} {u r : Message}
      (hu : IsPrompt prompt u) (hr : r.role = Role.ORACLE) :
      Stage prompt (some (Coroutine.saving false snapshot)) [r.text] [u, r]
  | unanswered {u : Message} (hu : IsPrompt prompt u) :
      Stage prompt none [] [u]
  | answered {u r : Message} (hu : IsPrompt prompt u)
      (hr : r.role = Role.ORACLE) : Stage prompt none [r.text] [u, r]

theorem finalTexts_append (call : CallId) (log os : List Observation) :
    finalTexts call (log ++ os) = finalTexts call log ++ finalTexts call os :=
  List.filterMap_append

theorem finalTexts_of_about {call other : CallId} (hne : call ≠ other)
    {os : List Observation}
    (habout : forall o, o ∈ os -> forall c, o.call = some c -> c = other) :
    finalTexts call os = [] := by
  apply List.filterMap_eq_nil_iff.mpr
  intro o ho
  have hcall := habout o ho
  cases o with
  | finalized c text =>
      have hc : c = other := hcall c rfl
      exact if_neg fun hsame => hne (hsame.symm.trans hc)
  | _ => rfl

/-!
# Events that may come in between
-/

def Interleaves (call : CallId) : Event -> Prop
  | Event.newConversation _ => True
  | Event.selectConversation _ => True
  | Event.deleteConversation _ _ => True
  | Event.renameConversation _ _ => True
  | Event.resume _ (Input.saved _) _ => True
  | Event.resume _ Input.loaded _ => False
  | Event.resume other _ _ => other = call
  | _ => False

def Hits (target : Uuid) (s : Chats) : Write -> Prop
  | Write.nothing => True
  | Write.message => s.activeId = some target
  | Write.partialText => s.activeId = some target ∨ s.ActiveIsDraft
  | Write.finalText =>
      s.activeId = some target ∨
        (s.ActiveIsDraft ∧ forall c, c ∈ s.conversations -> c.id ≠ target)

/-- Every write of the call finds its target open. -/
def WritesTarget (call : CallId) (target : Uuid) (s : App) : Event -> Prop
  | Event.resume other input _ =>
      other = call -> Hits target s.chats (writeOf (s.inFlight call) input)
  | _ => True

/-!
# The invariant of a turn
-/

structure InTurn (base : Chats) (target : Uuid) (call : CallId) (prompt : Text)
    (s : App) : Prop where
  turn : exists appended, Turn base target appended s.chats ∧
    Stage prompt (s.inFlight call) (finalTexts call s.log) appended
  begun : call < s.nextCall

theorem InTurn.other {base : Chats} {target : Uuid} {call other : CallId}
    {prompt : Text} {s s' : App} {os : List Observation}
    (h : InTurn base target call prompt s) (hne : call ≠ other)
    (htouches : Touches other os s s') (hcarries : Carries s.chats s'.chats)
    (hle : s.nextCall ≤ s'.nextCall) :
    InTurn base target call prompt s' := by
  rcases h.turn with ⟨appended, hturn, hstage⟩
  refine ⟨⟨appended, hturn.carry hcarries, ?_⟩, lt_of_lt_of_le h.begun hle⟩
  rw [htouches.others call hne, htouches.log, finalTexts_append,
    finalTexts_of_about hne htouches.about, List.append_nil]
  exact hstage

@[simp] theorem persist_log (call : CallId) (cancellable : Bool) (s : App) :
    (persist call cancellable s).log = s.log := by
  unfold persist
  split <;> rfl

theorem finalTexts_finalized (call : CallId) (text : Text) :
    finalTexts call [Observation.finalized call text] = [text] := by
  simp [finalTexts]

theorem InTurn.endStream {base : Chats} {target : Uuid} {call : CallId}
    {prompt : Text} {s : App} {outcome : StreamingOutcome Flow} {builder : Text}
    (h : InTurn base target call prompt s)
    (hcall : s.inFlight call = some (Coroutine.streaming outcome builder))
    (hhits : Hits target s.chats Write.finalText) (note : Option Text)
    (now : Millis) :
    InTurn base target call prompt
      (endStream call outcome builder note now s) := by
  rcases h.turn with ⟨appended, hturn, hstage⟩
  refine ⟨?_, by simpa using h.begun⟩
  rw [hcall] at hstage
  generalize htexts : finalTexts call s.log = texts at hstage
  cases hstage with
  | replying hu hr =>
      rename_i u r
      generalize htext : ReplyText.finalText
        (ReplyText.stripLeadingNameLabel builder) (outcome.note.or note) = text
      refine ⟨[u, { r with text := text }], ?_, ?_⟩
      · rw [ChatRepository.endStream, finalizeReply, persist_chats, htext]
        rcases hhits with hactive | ⟨hdraft, hgone⟩
        · exact hturn.writeReply_last hactive text now
        · exact (hturn.of_gone hgone).carry (carries_writeReply hdraft text now)
      · have hlog : finalTexts call
            (ChatRepository.endStream call outcome builder note now s).log =
              [text] := by
          rw [ChatRepository.endStream, finalizeReply, persist_log, htext,
            App.observe, finalTexts_append, finalTexts_finalized]
          exact congrArg (· ++ [text]) htexts
        rw [hlog, ChatRepository.endStream, finalizeReply, persist]
        split
        · rw [App.suspend_inFlight_self]
          exact Stage.saving (r := { r with text := text }) hu hr
        · rw [App.finish_inFlight_self]
          exact Stage.answered (r := { r with text := text }) hu hr

theorem Turn.endSummary {base : Chats} {target : Uuid} {s : App}
    (h : Turn base target [] s.chats) (hactive : s.chats.activeId = some target)
    (call : CallId) (send : SendCall) (active : Conversation)
    (completion : Option Text) (now : Millis) :
    exists u, IsPrompt send.prompt u ∧
      Turn base target [u]
        (ChatRepository.endSummary call send active completion now s).chats := by
  have hsummary := (h.carry (carries_draw s.chats)).carry
    (carries_withSummary _ completion active)
  exact hsummary.appendPrompt ((updateActive_activeId _ _).trans hactive)
    send.prompt now

theorem InTurn.summarized {base : Chats} {target : Uuid} {call : CallId}
    {prompt : Text} {s : App} {send : SendCall} {active : Conversation}
    {request : Text} (h : InTurn base target call prompt s)
    (hcall : s.inFlight call =
      some (Coroutine.summarizing send active request))
    (hhits : s.chats.activeId = some target) (completion : Option Text)
    (now : Millis) :
    InTurn base target call prompt
        (endSummary call send active completion now s) ∧
      InTurn base target call prompt
        ((endSummary call send active completion now s).finish call) := by
  rcases h.turn with ⟨appended, hturn, hstage⟩
  rw [hcall] at hstage
  generalize htexts : finalTexts call s.log = texts at hstage
  cases hstage with
  | summarizing hsend =>
      rcases hturn.endSummary hhits call send active completion now with
        ⟨u, hu, hturn'⟩
      have hlog : finalTexts call
          (endSummary call send active completion now s).log = [] := htexts
      rw [hsend] at hu
      constructor
      · refine ⟨⟨[u], hturn', ?_⟩, h.begun⟩
        rw [hlog]
        have hco : (endSummary call send active completion now s).inFlight call =
            some (Coroutine.readingPrivacy send (History.afterSummary completion
              s.chats.nextUuid now active)) :=
          App.suspend_inFlight_self _ _ _
        rw [hco]
        exact Stage.prompted hsend hu
      · refine ⟨⟨[u], hturn', ?_⟩, h.begun⟩
        rw [App.finish_inFlight_self]
        exact hlog ▸ Stage.unanswered hu

theorem finalTexts_route (call : CallId) (send : SendCall)
    (privacy : PrivacyState) (tokens : Flow) (reply : Message) :
    finalTexts call (routeObservations call send privacy tokens ++
      [Observation.seeded call reply tokens]) = [] := by
  apply List.filterMap_eq_nil_iff.mpr
  intro o ho
  simp only [routeObservations, List.mem_append, List.mem_singleton] at ho
  rcases ho with (ho | ho) | rfl
  · split at ho
    · rw [List.mem_singleton.mp ho]
    · cases ho
  · split at ho
    · rw [List.mem_singleton.mp ho]
    · cases ho
  · rfl

theorem InTurn.routed {base : Chats} {target : Uuid} {call : CallId}
    {prompt : Text} {s : App} {send : SendCall} {history : List Message}
    (h : InTurn base target call prompt s)
    (hcall : s.inFlight call = some (Coroutine.readingPrivacy send history))
    (hhits : s.chats.activeId = some target) (now : Millis) :
    InTurn base target call prompt (route call send history now s) := by
  rcases h.turn with ⟨appended, hturn, hstage⟩
  rw [hcall] at hstage
  generalize htexts : finalTexts call s.log = texts at hstage
  cases hstage with
  | prompted hsend hu =>
      rename_i u
      have hlog : finalTexts call (route call send history now s).log = [] := by
        rw [route, App.suspend, App.observe, finalTexts_append,
          finalTexts_route, List.append_nil]
        exact htexts
      have hco : (route call send history now s).inFlight call =
          some (Coroutine.streaming (ChatRepository.routed send history s) []) :=
        App.suspend_inFlight_self _ _ _
      refine ⟨⟨_, hturn.appendSeed hhits send.prompt _ now, ?_⟩, h.begun⟩
      rw [hlog, hco]
      exact Stage.replying hu rfl

theorem InTurn.received {base : Chats} {target : Uuid} {call : CallId}
    {prompt : Text} {s : App} {outcome : StreamingOutcome Flow} {builder : Text}
    (h : InTurn base target call prompt s)
    (hcall : s.inFlight call = some (Coroutine.streaming outcome builder))
    (hhits : Hits target s.chats Write.partialText) (text : Text)
    (now : Millis) :
    InTurn base target call prompt (receive call outcome text now s) := by
  rcases h.turn with ⟨appended, hturn, hstage⟩
  rw [hcall] at hstage
  generalize htexts : finalTexts call s.log = texts at hstage
  have hco : (receive call outcome text now s).inFlight call =
      some (Coroutine.streaming outcome text) :=
    App.suspend_inFlight_self _ _ _
  have hlog : finalTexts call (receive call outcome text now s).log = texts :=
    htexts
  cases hstage with
  | replying hu hr =>
      rename_i u r
      rcases hhits with hactive | hdraft
      · refine ⟨⟨_, hturn.writeReply_last hactive _ now, ?_⟩, h.begun⟩
        rw [hlog, hco]
        exact Stage.replying hu hr
      · refine ⟨⟨_, hturn.carry (carries_writeReply hdraft _ now), ?_⟩, h.begun⟩
        rw [hlog, hco]
        exact Stage.replying hu hr

theorem InTurn.finished {base : Chats} {target : Uuid} {call : CallId}
    {prompt : Text} {s s' : App} (h : InTurn base target call prompt s)
    (hstage : forall appended,
      Stage prompt (s.inFlight call) (finalTexts call s.log) appended ->
        Stage prompt none (finalTexts call s.log) appended)
    (hchats : s'.chats = s.chats) (hlog : s'.log = s.log)
    (hco : s'.inFlight call = none) (hnext : s'.nextCall = s.nextCall) :
    InTurn base target call prompt s' := by
  rcases h.turn with ⟨appended, hturn, hs⟩
  refine ⟨⟨appended, hchats ▸ hturn, ?_⟩, hnext ▸ h.begun⟩
  rw [hco, hlog]
  exact hstage appended hs

theorem InTurn.resume {base : Chats} {target : Uuid} {call : CallId}
    {prompt : Text} {s s' : App} {input : Input} {now : Millis}
    (h : InTurn base target call prompt s)
    (hhits : Hits target s.chats (writeOf (s.inFlight call) input))
    (hresume : resume call input now s = some s') :
    InTurn base target call prompt s' := by
  rcases h.turn with ⟨appended, hturn, hstage⟩
  generalize htexts : finalTexts call s.log = texts at hstage
  generalize hco : s.inFlight call = co at hstage hhits
  cases hstage with
  | summarizing hsend =>
      cases input with
      | summarized completion =>
          simp only [ChatRepository.resume, hco] at hresume
          cases hresume
          exact (h.summarized hco hhits completion now).left
      | cancelled =>
          simp only [ChatRepository.resume, hco] at hresume
          cases hresume
          exact (h.summarized hco hhits none now).right
      | _ => simp [ChatRepository.resume, hco] at hresume
  | prompted hsend hu =>
      cases input with
      | privacyRead =>
          simp only [ChatRepository.resume, hco] at hresume
          cases hresume
          exact h.routed hco hhits now
      | cancelled =>
          simp only [ChatRepository.resume, hco] at hresume
          cases hresume
          refine h.finished ?_ rfl rfl (App.finish_inFlight_self _ _) rfl
          intro appended' hstage'
          rw [hco] at hstage'
          generalize finalTexts call s.log = texts' at hstage' ⊢
          cases hstage' with
          | prompted _ hu' => exact Stage.unanswered hu'
      | _ => simp [ChatRepository.resume, hco] at hresume
  | replying hu hr =>
      cases input with
      | delta text =>
          simp only [ChatRepository.resume, hco] at hresume
          cases hresume
          exact h.received hco hhits _ now
      | completed =>
          simp only [ChatRepository.resume, hco] at hresume
          cases hresume
          exact h.endStream hco hhits _ now
      | failed message =>
          simp only [ChatRepository.resume, hco] at hresume
          cases hresume
          exact h.endStream hco hhits _ now
      | cancelled =>
          simp only [ChatRepository.resume, hco] at hresume
          cases hresume
          exact h.endStream hco hhits _ now
      | _ => simp [ChatRepository.resume, hco] at hresume
  | saving hu hr =>
      cases input with
      | saved faults =>
          simp only [ChatRepository.resume, hco] at hresume
          cases hresume
          refine h.finished ?_ rfl rfl (App.finish_inFlight_self _ _) rfl
          intro appended' hstage'
          rw [hco] at hstage'
          generalize finalTexts call s.log = texts' at hstage' ⊢
          cases hstage' with
          | saving hu' hr' => exact Stage.answered hu' hr'
      | _ => simp [ChatRepository.resume, hco] at hresume
  | unanswered hu => simp [ChatRepository.resume, hco] at hresume
  | answered hu hr => simp [ChatRepository.resume, hco] at hresume

theorem step_inTurn {base : Chats} {target : Uuid} {call : CallId}
    {prompt : Text} {s s' : App} {e : Event}
    (h : InTurn base target call prompt s) (he : Interleaves call e)
    (hok : WritesTarget call target s e) (hstep : step s e = some s') :
    InTurn base target call prompt s' := by
  rcases step_touches hstep with ⟨os, _, htouches⟩
  have hnew : call ≠ s.nextCall := Nat.ne_of_lt h.begun
  cases e with
  | newConversation now =>
      cases hstep
      exact h.other hnew htouches (carries_newConversation _ _) (Nat.le_refl _)
  | selectConversation id =>
      cases hstep
      exact h.other hnew htouches (carries_selectConversation _ _)
        (Nat.le_refl _)
  | deleteConversation id now =>
      cases hstep
      refine h.other hnew htouches ?_ ?_
      · rw [persist_chats]
        exact carries_deleteConversation _ _ _
      · rw [persist_nextCall]
        exact Nat.le_succ _
  | renameConversation id title =>
      simp only [step] at hstep
      split at hstep
      · cases hstep
        refine h.other hnew htouches ?_ ?_
        · rw [persist_chats]
          exact carries_renameConversation _ _ _
        · rw [persist_nextCall]
          exact Nat.le_succ _
      · cases hstep
        exact h
  | resume other input now =>
      by_cases hsame : other = call
      · subst hsame
        exact h.resume (hok rfl) hstep
      · cases input with
        | saved faults =>
            refine h.other (Ne.symm hsame) htouches ?_
              (Nat.le_of_eq (resume_nextCall hstep).symm)
            rcases resume_saved hstep with ⟨_, snapshot, _, rfl⟩
            exact Carries.refl s.chats
        | loaded => exact he.elim
        | _ => exact absurd he hsame
  | _ => exact he.elim

theorem run_inTurn {base : Chats} {target : Uuid} {call : CallId}
    {prompt : Text} {s s' : App} {es : List Event}
    (h : InTurn base target call prompt s)
    (hes : forall e, e ∈ es -> Interleaves call e)
    (hok : AllSteps step (WritesTarget call target) s es)
    (hrun : runEvents step s es = some s') :
    InTurn base target call prompt s' := by
  induction es generalizing s with
  | nil =>
      cases hrun
      exact h
  | cons e es ih =>
      rcases runEvents_cons.mp hrun with ⟨mid, hmid, hrest⟩
      exact ih (step_inTurn h (hes e List.mem_cons_self) hok.left hmid)
        (fun e' he' => hes e' (List.mem_cons_of_mem _ he'))
        (hok.right mid hmid) hrest

/-!
# The conversations that stay
-/

def removed : Event -> Option Uuid
  | Event.deleteConversation id _ => some id
  | _ => none

theorem keeps_beginSend (prompt : Text) (useCloud : Bool) (contextTokens : Int)
    (loaded : Bool) (now : Millis) (s : App) :
    Keeps none (ensureActive now s.chats)
      (beginSend prompt useCloud contextTokens loaded now s).chats := by
  have hdrawn := keeps_draw (ensureActive now s.chats)
  unfold beginSend
  split
  · exact hdrawn
  · split
    · exact hdrawn.trans (keeps_appendPrompt _ _ _)
    · exact hdrawn

theorem Keeps.weaken {gone : Option Uuid} {s s' : Chats} (h : Keeps none s s') :
    Keeps gone s s' :=
  fun c hc hne _ => h c hc hne (by simp)

theorem keeps_endSummary (call : CallId) (send : SendCall)
    (active : Conversation) (completion : Option Text) (now : Millis) (s : App) :
    Keeps none s.chats
      (endSummary call send active completion now s).chats :=
  ((keeps_draw s.chats).trans (keeps_withSummary _ completion active)).trans
    (keeps_appendPrompt _ _ _)

theorem keeps_resume {s s' : App} {call : CallId} {input : Input}
    {now : Millis} (hinput : input ≠ Input.loaded)
    (h : resume call input now s = some s') :
    Keeps none s.chats s'.chats := by
  have hsame : Keeps none s.chats s.chats := Keeps.of_mem fun _ hc _ _ => hc
  unfold resume at h
  split at h <;> cases h
  · exact hsame
  · exact absurd rfl hinput
  · exact hsame
  · exact keeps_endSummary call _ _ _ now s
  · exact keeps_endSummary call _ _ none now s
  · exact keeps_appendSeed _ _ _ _
  · exact hsame
  · exact keeps_writeReply _ _ _
  · rw [endStream, finalizeReply, persist_chats]
    exact keeps_writeReply _ _ _
  · rw [endStream, finalizeReply, persist_chats]
    exact keeps_writeReply _ _ _
  · rw [endStream, finalizeReply, persist_chats]
    exact keeps_writeReply _ _ _
  all_goals exact hsame

theorem step_keeps {call : CallId} {s s' : App} {e : Event}
    (he : Interleaves call e) (hstep : step s e = some s') :
    Keeps (removed e) s.chats s'.chats := by
  cases e with
  | newConversation now =>
      cases hstep
      exact keeps_newConversation _ _
  | selectConversation id =>
      cases hstep
      exact keeps_selectConversation _ _
  | deleteConversation id now =>
      cases hstep
      rw [persist_chats]
      exact keeps_deleteConversation _ _ _
  | renameConversation id title =>
      simp only [step] at hstep
      split at hstep
      · cases hstep
        rw [persist_chats]
        exact keeps_renameConversation _ _ _
      · cases hstep
        exact Keeps.of_mem fun _ hc _ _ => hc
  | resume other input now =>
      refine Keeps.weaken (keeps_resume ?_ hstep)
      intro heq
      subst heq
      exact he
  | _ => exact he.elim

theorem run_keeps {call : CallId} {s s' : App} {es : List Event}
    (hes : forall e, e ∈ es -> Interleaves call e)
    (hrun : runEvents step s es = some s') {id : Uuid}
    (hid : exists c, c ∈ s.chats.conversations ∧ c.id = id ∧ c.messages ≠ [])
    (hkept : forall e, e ∈ es -> removed e ≠ some id) :
    exists c, c ∈ s'.chats.conversations ∧ c.id = id ∧ c.messages ≠ [] := by
  induction es generalizing s with
  | nil =>
      cases hrun
      exact hid
  | cons e es ih =>
      rcases runEvents_cons.mp hrun with ⟨mid, hmid, hrest⟩
      rcases hid with ⟨c, hc, rfl, hne⟩
      have hkeeps := step_keeps (hes e List.mem_cons_self) hmid
      exact ih (fun e' he' => hes e' (List.mem_cons_of_mem _ he')) hrest
        (hkeeps c hc hne (hkept e List.mem_cons_self))
        (fun e' he' => hkept e' (List.mem_cons_of_mem _ he'))

/-!
# The beginning of a send
-/

theorem finalTexts_of_numbered {s : App} (h : Numbered s) :
    finalTexts s.nextCall s.log = [] := by
  apply List.filterMap_eq_nil_iff.mpr
  intro o ho
  cases o with
  | finalized call text =>
      have hlt := h.log _ ho call rfl
      exact if_neg (Nat.ne_of_lt hlt)
  | _ => rfl

theorem active_lt {s : Chats} (h : s.WellFormed) {id : Uuid}
    (hactive : s.activeId = some id) : id < s.nextUuid := by
  rcases h.hasActive with ⟨hnone, _⟩ | ⟨c, hc, hid⟩
  · rw [hnone] at hactive
    cases hactive
  · rw [hid] at hactive
    cases hactive
    exact h.sound.ids c hc

theorem appendPrompt_mem {s : Chats} {c : Conversation}
    (hactive : s.activeId = some c.id) (hc : c ∈ s.conversations)
    (prompt : Text) (now : Millis) :
    exists c', c' ∈ (appendPrompt prompt now s).conversations ∧
      c'.id = c.id ∧ c'.messages ≠ [] :=
  ⟨_, mem_updateActive (s := s.draw) hactive hc _, rfl, by simp⟩

theorem beginSend_inTurn {s : App} (hs : WellFormed s) (hn : Numbered s)
    (prompt : Text) (useCloud : Bool) (contextTokens : Int) (loaded : Bool)
    (now : Millis) {target : Uuid}
    (htarget : (ensureActive now s.chats).activeId = some target) :
    InTurn (ensureActive now s.chats) target s.nextCall prompt
        (beginSend prompt useCloud contextTokens loaded now s) ∧
      exists c,
        c ∈ (beginSend prompt useCloud contextTokens loaded now
          s).chats.conversations ∧
        c.id = target ∧ c.messages ≠ [] := by
  have hbase := ensureActive_wellFormed hs.chats now
  have hturn := (Turn.start (active_lt hbase htarget)).carry (carries_draw _)
  have hnext := beginSend_nextCall prompt useCloud contextTokens loaded now s
  have hbegun : s.nextCall <
      (beginSend prompt useCloud contextTokens loaded now s).nextCall := by
    rw [hnext]
    exact Nat.lt_succ_self _
  have hlog : finalTexts s.nextCall
      (beginSend prompt useCloud contextTokens loaded now s).log = [] := by
    rw [(beginSend_touches prompt useCloud contextTokens loaded now s).log,
      finalTexts_append, finalTexts_of_numbered hn]
    rfl
  rcases currentActive_ensureActive hs.chats now with ⟨active, hactive⟩
  have hmem := currentActive_mem hactive
  have hid := currentActive_id hactive
  have htargetId : target = active.id := by
    rw [htarget] at hid
    exact Option.some.inj hid
  rcases hplan : History.plan contextTokens loaded
      (ensureActive now s.chats).nextUuid now active with history | turns
  · have hbegin : beginSend prompt useCloud contextTokens loaded now s =
        withHistory s.nextCall
          { prompt := prompt, useCloudForThisTurn := useCloud } history now
          (openSend now s) := by
      simp only [beginSend, hactive, hplan]
    rcases hturn.appendPrompt htarget prompt now with ⟨u, hu, hturn'⟩
    constructor
    · refine ⟨⟨[u], ?_, ?_⟩, hbegun⟩
      · rw [hbegin]
        exact hturn'
      · rw [hlog, hbegin, withHistory, App.suspend_inFlight_self]
        exact Stage.prompted rfl hu
    · rw [hbegin, htargetId]
      exact appendPrompt_mem (s := (ensureActive now s.chats).draw) hid hmem
        prompt now
  · have hbegin : beginSend prompt useCloud contextTokens loaded now s =
        (openSend now s).suspend s.nextCall
          (Coroutine.summarizing
            { prompt := prompt, useCloudForThisTurn := useCloud } active
            (History.summarizePrompt active.summary turns)) := by
      simp only [beginSend, hactive, hplan]
    constructor
    · refine ⟨⟨[], ?_, ?_⟩, hbegun⟩
      · rw [hbegin]
        exact hturn
      · rw [hlog, hbegin, App.suspend_inFlight_self]
        exact Stage.summarizing rfl
    · rw [hbegin]
      exact ⟨active, hmem, htargetId.symm,
        History.messages_ne_nil_of_plan hplan⟩

/-!
# The frame of a whole send
-/

/-- What a send may have done to the messages of a base state. -/
structure SendFrame (base : Chats) (target : Uuid) (call : CallId)
    (prompt : Text) (es : List Event) (s : App) : Prop where
  turn : exists appended, Turn base target appended s.chats ∧
    Stage prompt (s.inFlight call) (finalTexts call s.log) appended
  kept : forall c, c ∈ base.conversations ->
    (c.messages ≠ [] ∨ c.id = target) ->
    (forall e, e ∈ es -> removed e ≠ some c.id) ->
    exists c', c' ∈ s.chats.conversations ∧ c'.id = c.id

/--
From any reachable state: a send whose writes all find its target open has the
frame property, however the other operations interleave with it.
-/
theorem send_frame {s s1 s' : App} {prompt : Text} {useCloud : Bool}
    {contextTokens : Int} {loaded : Bool} {now : Millis} {target : Uuid}
    {es : List Event} (hreach : Reachable s)
    (hsend : step s (Event.send prompt useCloud contextTokens loaded now) =
      some s1)
    (htarget : (ensureActive now s.chats).activeId = some target)
    (hes : forall e, e ∈ es -> Interleaves s.nextCall e)
    (hok : AllSteps step (WritesTarget s.nextCall target) s1 es)
    (hrun : runEvents step s1 es = some s') :
    SendFrame (ensureActive now s.chats) target s.nextCall prompt es s' := by
  cases hsend
  rcases beginSend_inTurn hreach.wellFormed hreach.numbered prompt useCloud
      contextTokens loaded now htarget with ⟨hstart, htargetKept⟩
  refine ⟨(run_inTurn hstart hes hok hrun).turn, ?_⟩
  intro c hc hreal hkept
  have hbegun : exists c1,
      c1 ∈ (beginSend prompt useCloud contextTokens loaded now
        s).chats.conversations ∧ c1.id = c.id ∧ c1.messages ≠ [] := by
    rcases hreal with hne | hid
    · exact keeps_beginSend prompt useCloud contextTokens loaded now s c hc hne
        (by simp)
    · rw [hid]
      exact htargetKept
  rcases run_keeps hes hrun hbegun hkept with ⟨c', hc', hid, _⟩
  exact ⟨c', hc', hid⟩

def visit : List Event :=
  [Event.resume 0 Input.privacyRead 2, Event.newConversation 3,
   Event.selectConversation 0, Event.resume 0 (Input.delta "uno".toList) 4,
   Event.resume 0 Input.completed 5]

theorem send_frame_visit :
    exists s', SendFrame (ensureActive 1 firstLaunch.app.chats) 0 0
        "one".toList visit s' ∧
      runEvents step firstLaunch.app
        (Event.send "one".toList false 4096 false 1 :: visit) = some s' := by
  have hreach : Reachable firstLaunch.app := ⟨firstLaunch, [], rfl⟩
  refine ⟨_, @send_frame firstLaunch.app _ _ "one".toList false 4096 false 1 0
    visit hreach rfl rfl ?_ ?_ rfl, rfl⟩
  · simp [visit, Interleaves, firstLaunch, Launch.app]
  · apply AllSteps.cons (fun _ => rfl) rfl
    apply AllSteps.cons trivial rfl
    apply AllSteps.cons trivial rfl
    apply AllSteps.cons (fun _ => Or.inl rfl) rfl
    exact AllSteps.cons (fun _ => Or.inl rfl) rfl trivial

def firstTurn : List Event :=
  [Event.send "one".toList false 4096 false 1, Event.resume 0 Input.privacyRead 2,
   Event.resume 0 (Input.delta "uno".toList) 3, Event.resume 0 Input.completed 4,
   Event.newConversation 5]

def switchBack : List Event :=
  [Event.resume 1 Input.privacyRead 7, Event.selectConversation 0,
   Event.resume 1 (Input.delta "dos".toList) 8]

def overwritten (reply : Text) (updatedAt : Millis) : Conversation where
  id := 0
  title := "one".toList
  messages :=
    [{ id := 2, role := Role.USER, text := "one".toList, timestamp := 1 },
     { id := 3, role := Role.ORACLE, text := reply, timestamp := 2 }]
  updatedAt := updatedAt

/-- The first chat's reply is overwritten by the second chat's. -/
theorem send_frame_fails :
    exists s s1 s', Reachable s ∧
      step s (Event.send "two".toList false 4096 false 6) = some s1 ∧
      (ensureActive 6 s.chats).activeId = some 4 ∧
      (forall e, e ∈ switchBack -> Interleaves s.nextCall e) ∧
      runEvents step s1 switchBack = some s' ∧
      overwritten "uno".toList 4 ∈ s.chats.conversations ∧
      overwritten "dos".toList 8 ∈ s'.chats.conversations ∧
      ¬ SendFrame (ensureActive 6 s.chats) 4 s.nextCall "two".toList switchBack
        s' := by
  refine ⟨_, _, _, ⟨firstLaunch, firstTurn, rfl⟩, rfl, rfl, ?_, rfl, ?_, ?_, ?_⟩
  · intro e he
    simp only [switchBack, List.mem_cons, List.not_mem_nil, or_false] at he
    rcases he with rfl | rfl | rfl <;> first | rfl | trivial
  · decide
  · decide
  · intro h
    rcases h.turn with ⟨appended, hturn, _⟩
    rcases hturn.evolved (overwritten "dos".toList 8) (by decide) with
      ⟨c0, hc0, hid, heq⟩ | ⟨hnew, _⟩
    · rw [if_neg (by decide)] at heq
      revert c0
      decide
    · revert hnew
      decide

end ChatRepository
end DomainAI
