import DomainAI.Data.WellFormed
import Mathlib.Logic.Relation

/-!
# The edits a step makes

Whatever a step does to the chats is a sequence of a few edits, so what all
edits keep is kept by every step.
-/

namespace DomainAI
namespace ChatRepository

open Library PrivacyRouter App Chats

/-- A single change of the chats in one step. -/
inductive Edit (s : App) (e : Event) : Chats -> Chats -> Prop where
  | draw (chats : Chats) : Edit s e chats chats.draw
  | newConversation (now : Millis) (chats : Chats) :
      Edit s e chats (chats.newConversation now)
  | selectConversation (id : Uuid) (chats : Chats) :
      Edit s e chats (chats.selectConversation id)
  | deleteConversation (id : Uuid) (now : Millis) (chats : Chats) :
      Edit s e chats (chats.deleteConversation id now)
  | renameConversation (id : Uuid) (title : Text) (chats : Chats) :
      Edit s e chats (chats.renameConversation id title).2
  | addMessage (message : Message) (now : Millis) (chats : Chats) :
      Edit s e chats (chats.updateActive (Conversation.addMessage message now))
  | retitleIfNeeded (prompt : Text) (chats : Chats) :
      Edit s e chats (chats.updateActive (Conversation.retitleIfNeeded prompt))
  | updateLastText (text : Text) (now : Millis) (chats : Chats) :
      Edit s e chats (chats.updateActive (Conversation.updateLastText text now))
  | endSummary {call : CallId} {send : SendCall} {active : Conversation}
      {prompt : Text} {completion : Option Text} {now : Millis}
      (hcall : s.inFlight call =
        some (Coroutine.summarizing send active prompt))
      (hevent : completion ≠ none ->
        e = Event.resume call (Input.summarized completion) now) :
      Edit s e s.chats (endSummary call send active completion now s).chats
  | restoreFrom {call : CallId} {loaded : List Conversation}
      (hcall : s.inFlight call = some (Coroutine.restoring (some loaded)))
      (now : Millis) : Edit s e s.chats (s.chats.restoreFrom loaded now)

abbrev Edits (s : App) (e : Event) : Chats -> Chats -> Prop :=
  Relation.ReflTransGen (Edit s e)

section Edits

variable {s : App} {e : Event} {chats : Chats}

theorem updateActive_updateActive (chats : Chats)
    {f : Conversation -> Conversation} (hid : forall c, (f c).id = c.id)
    (g : Conversation -> Conversation) :
    (chats.updateActive f).updateActive g =
      chats.updateActive (fun c => g (f c)) := by
  cases hactive : chats.activeId with
  | none => simp [Chats.updateActive, hactive]
  | some id =>
      have hchange : forall c : Conversation,
          (if (if c.id = id then f c else c).id = id
            then g (if c.id = id then f c else c)
            else if c.id = id then f c else c) =
          if c.id = id then g (f c) else c := by
        intro c
        by_cases hc : c.id = id
        · rw [if_pos hc, if_pos hc, if_pos ((hid c).trans hc)]
        · rw [if_neg hc, if_neg hc, if_neg hc]
      simp only [Chats.updateActive, hactive, List.map_map]
      congr 1
      apply List.map_congr_left
      intro c _
      exact hchange c

theorem draw_updateActive (chats : Chats) (f : Conversation -> Conversation) :
    (chats.updateActive f).draw = chats.draw.updateActive f := by
  cases hactive : chats.activeId with
  | none => simp [Chats.updateActive, Chats.draw, hactive]
  | some id => simp [Chats.updateActive, Chats.draw, hactive]

theorem endSummary_chats (call : CallId) (send : SendCall)
    (active : Conversation) (completion : Option Text) (now : Millis)
    (s : App) :
    (endSummary call send active completion now s).chats =
      s.chats.draw.draw.updateActive fun c =>
        (History.withSummary completion active c).addMessage
          { id := s.chats.nextUuid + 1, role := Role.USER, text := send.prompt,
            timestamp := now } now := by
  have hboth := updateActive_updateActive s.chats.draw.draw
    (f := History.withSummary completion active)
    (History.withSummary_id completion active)
    (Conversation.addMessage
      { id := s.chats.nextUuid + 1, role := Role.USER, text := send.prompt,
        timestamp := now } now)
  rw [← hboth, ← draw_updateActive]
  have hnext : (s.chats.draw.updateActive
      (History.withSummary completion active)).nextUuid =
        s.chats.nextUuid + 1 := updateActive_nextUuid _ _
  change appendPrompt send.prompt now (s.chats.draw.updateActive
    (History.withSummary completion active)) = _
  rw [appendPrompt, hnext]

theorem edits_ensureActive (now : Millis) :
    Edits s e chats (ensureActive now chats) := by
  unfold ensureActive
  split
  · exact Relation.ReflTransGen.single (Edit.newConversation now chats)
  · exact Relation.ReflTransGen.refl

theorem edits_appendPrompt (prompt : Text) (now : Millis) :
    Edits s e chats (appendPrompt prompt now chats) :=
  (Relation.ReflTransGen.single (Edit.draw chats)).tail
    (Edit.addMessage _ now chats.draw)

theorem edits_appendSeed (prompt : Text) (reply : Message) (now : Millis) :
    Edits s e chats (appendSeed prompt reply now chats) := by
  have hboth := updateActive_updateActive chats.draw
    (f := Conversation.addMessage reply now) (fun _ => rfl)
    (Conversation.retitleIfNeeded prompt)
  rw [appendSeed, ← hboth]
  exact ((Relation.ReflTransGen.single (Edit.draw chats)).tail
    (Edit.addMessage reply now chats.draw)).tail
      (Edit.retitleIfNeeded prompt _)

theorem edits_writeReply (text : Text) (now : Millis) :
    Edits s e chats (writeReply text now chats) :=
  Relation.ReflTransGen.single (Edit.updateLastText text now chats)

theorem edits_endStream (call : CallId) (outcome : StreamingOutcome Flow)
    (builder : Text) (note : Option Text) (now : Millis) :
    Edits s e s.chats (endStream call outcome builder note now s).chats := by
  rw [endStream_chats]
  exact edits_writeReply _ _

theorem edits_beginSend (prompt : Text) (useCloud : Bool)
    (contextTokens : Int) (loaded : Bool) (now : Millis) :
    Edits s e s.chats
      (beginSend prompt useCloud contextTokens loaded now s).chats := by
  have hopened : Edits s e s.chats (openSend now s).chats :=
    (edits_ensureActive now).tail (Edit.draw _)
  unfold beginSend
  split
  · exact hopened
  · split
    · exact hopened.trans (edits_appendPrompt prompt now)
    · exact hopened

end Edits

theorem resume_edits {s s' : App} {call : CallId} {input : Input} {now : Millis}
    (h : resume call input now s = some s') :
    Edits s (Event.resume call input now) s.chats s'.chats := by
  have hsame : Edits s (Event.resume call input now) s.chats s.chats :=
    Relation.ReflTransGen.refl
  unfold resume at h
  split at h
  · cases h
    exact hsame
  · rename_i loaded hcall
    cases h
    exact Relation.ReflTransGen.single (Edit.restoreFrom hcall now)
  · cases h
    exact hsame
  · rename_i hcall
    cases h
    exact Relation.ReflTransGen.single (Edit.endSummary hcall fun _ => rfl)
  · rename_i hcall
    cases h
    exact Relation.ReflTransGen.single
      (Edit.endSummary hcall fun hnone => absurd rfl hnone)
  · cases h
    exact edits_appendSeed _ _ _
  · cases h
    exact hsame
  · cases h
    exact edits_writeReply _ _
  · cases h
    exact edits_endStream _ _ _ _ _
  · cases h
    exact edits_endStream _ _ _ _ _
  · cases h
    exact edits_endStream _ _ _ _ _
  all_goals
    cases h
    try exact hsame

theorem step_edits {s s' : App} {e : Event} (h : step s e = some s') :
    Edits s e s.chats s'.chats := by
  cases e with
  | restore =>
      simp only [step] at h
      split at h <;> cases h <;> exact Relation.ReflTransGen.refl
  | send prompt useCloud contextTokens loaded now =>
      cases h
      exact edits_beginSend _ _ _ _ _
  | newConversation now =>
      cases h
      exact Relation.ReflTransGen.single (Edit.newConversation now s.chats)
  | selectConversation id =>
      cases h
      exact Relation.ReflTransGen.single (Edit.selectConversation id s.chats)
  | deleteConversation id now =>
      cases h
      rw [persist_chats]
      exact Relation.ReflTransGen.single (Edit.deleteConversation id now s.chats)
  | renameConversation id title =>
      simp only [step] at h
      split at h <;> cases h
      · rw [persist_chats]
        exact Relation.ReflTransGen.single
          (Edit.renameConversation id title s.chats)
      · exact Relation.ReflTransGen.refl
  | resume call input now => exact resume_edits h
  | _ =>
      cases h
      exact Relation.ReflTransGen.refl

/-!
# Where a step suspends a call
-/

/-- A coroutine that neither loads nor summarises nor has a history to send. -/
def Coroutine.isPlain : Coroutine -> Bool
  | Coroutine.restoring _ => false
  | Coroutine.summarizing _ _ _ => false
  | Coroutine.readingPrivacy _ _ => false
  | _ => true

inductive Suspends (s : App) (e : Event) : CallId -> Coroutine -> Prop where
  | loading {call : CallId} {loaded : Option (List Conversation)}
      (hbefore : s.restored = false ∨
        exists l, s.inFlight call = some (Coroutine.restoring l)) :
      Suspends s e call (Coroutine.restoring loaded)
  | summarizing {prompt : Text} {useCloud : Bool} {contextTokens : Int}
      {loaded : Bool} {now : Millis} {active : Conversation}
      {turns : List Message}
      (hevent : e = Event.send prompt useCloud contextTokens loaded now)
      (hactive : (ensureActive now s.chats).currentActive = some active)
      (hplan : History.plan contextTokens loaded
        (ensureActive now s.chats).nextUuid now active =
          History.Plan.summarize turns) :
      Suspends s e s.nextCall (Coroutine.summarizing
        { prompt := prompt, useCloudForThisTurn := useCloud } active
        (History.summarizePrompt active.summary turns))
  | ready {prompt : Text} {useCloud : Bool} {contextTokens : Int}
      {loaded : Bool} {now : Millis} {active : Conversation}
      {history : List Message}
      (hevent : e = Event.send prompt useCloud contextTokens loaded now)
      (hactive : (ensureActive now s.chats).currentActive = some active)
      (hplan : History.plan contextTokens loaded
        (ensureActive now s.chats).nextUuid now active =
          History.Plan.ready history) :
      Suspends s e s.nextCall (Coroutine.readingPrivacy
        { prompt := prompt, useCloudForThisTurn := useCloud } history)
  | afterSummary {call : CallId} {send : SendCall} {active : Conversation}
      {prompt : Text} {completion : Option Text} {now : Millis}
      (hcall : s.inFlight call =
        some (Coroutine.summarizing send active prompt))
      (hevent : e = Event.resume call (Input.summarized completion) now) :
      Suspends s e call (Coroutine.readingPrivacy send
        (History.afterSummary completion s.chats.nextUuid now active))
  | plain {call : CallId} {c : Coroutine} (hplain : c.isPlain = true) :
      Suspends s e call c

section Suspends

variable {s s' : App} {e : Event} {call : CallId} {c : Coroutine}

theorem suspend_cases {other : CallId} {c0 : Coroutine}
    (h : (s.suspend other c0).inFlight call = some c) :
    s.inFlight call = some c ∨ (call = other ∧ c = c0) := by
  by_cases hsame : call = other
  · rw [hsame, App.suspend_inFlight_self] at h
    exact Or.inr ⟨hsame, (Option.some.inj h).symm⟩
  · rw [App.suspend_inFlight_of_ne hsame] at h
    exact Or.inl h

theorem finish_cases {other : CallId}
    (h : (s.finish other).inFlight call = some c) :
    s.inFlight call = some c := by
  by_cases hsame : call = other
  · rw [hsame, App.finish_inFlight_self] at h
    cases h
  · rw [App.finish_inFlight_of_ne hsame] at h
    exact h

theorem persist_cases {other : CallId} {cancellable : Bool}
    (h : (persist other cancellable s).inFlight call = some c) :
    s.inFlight call = some c ∨
      c = Coroutine.saving cancellable s.chats.snapshot := by
  unfold persist at h
  split at h
  · rcases suspend_cases h with hold | ⟨_, hc⟩
    · exact Or.inl hold
    · exact Or.inr hc
  · exact Or.inl (finish_cases h)

theorem inFlight_of_suspend {s0 : App} {other : CallId} {c0 : Coroutine}
    (h : (s0.suspend other c0).inFlight call = some c)
    (hsame : s0.inFlight = s.inFlight) (hne : c ≠ c0) : s.inFlight call = some c := by
  rcases suspend_cases h with hold | ⟨_, hc⟩
  · rwa [hsame] at hold
  · exact absurd hc hne

theorem inFlight_of_persist {s0 : App} {other : CallId} {cancellable : Bool}
    (h : (persist other cancellable s0).inFlight call = some c)
    (hsame : s0.inFlight = s.inFlight)
    (hne : forall snapshot, c ≠ Coroutine.saving cancellable snapshot) :
    s.inFlight call = some c := by
  rcases persist_cases h with hold | hc
  · rwa [hsame] at hold
  · exact absurd hc (hne _)

theorem Suspends.of_suspend {s0 : App} {other : CallId} {c0 : Coroutine}
    (hplain : c0.isPlain = true) (hsame : s0.inFlight = s.inFlight)
    (h : (s0.suspend other c0).inFlight call = some c) :
    s.inFlight call = some c ∨ Suspends s e call c := by
  rcases suspend_cases h with hold | ⟨_, hc⟩
  · rw [hsame] at hold
    exact Or.inl hold
  · rw [hc]
    exact Or.inr (Suspends.plain hplain)

theorem Suspends.of_persist {s0 : App} {other : CallId} {cancellable : Bool}
    (h : (persist other cancellable s0).inFlight call = some c)
    (hsame : s0.inFlight = s.inFlight) :
    s.inFlight call = some c ∨ Suspends s e call c := by
  rcases persist_cases h with hold | hc
  · rw [hsame] at hold
    exact Or.inl hold
  · rw [hc]
    exact Or.inr (Suspends.plain rfl)

theorem beginSend_suspends {prompt : Text} {useCloud : Bool}
    {contextTokens : Int} {loaded : Bool} {now : Millis}
    (h : (beginSend prompt useCloud contextTokens loaded now s).inFlight call =
      some c) :
    s.inFlight call = some c ∨
      Suspends s (Event.send prompt useCloud contextTokens loaded now) call c := by
  unfold beginSend at h
  split at h
  · exact Or.inl h
  · rename_i active hactive
    split at h
    · rename_i history hplan
      rcases suspend_cases h with hold | ⟨hcall, hc⟩
      · exact Or.inl hold
      · rw [hcall, hc]
        exact Or.inr (Suspends.ready rfl hactive hplan)
    · rename_i turns hplan
      rcases suspend_cases h with hold | ⟨hcall, hc⟩
      · exact Or.inl hold
      · rw [hcall, hc]
        exact Or.inr (Suspends.summarizing rfl hactive hplan)

theorem resume_suspends {other : CallId} {input : Input} {now : Millis}
    (h : resume other input now s = some s')
    (hc : s'.inFlight call = some c) :
    s.inFlight call = some c ∨
      Suspends s (Event.resume other input now) call c := by
  unfold resume at h
  split at h
  · rename_i hcall
    cases h
    rcases suspend_cases hc with hold | ⟨hsame, heq⟩
    · exact Or.inl hold
    · rw [hsame, heq]
      exact Or.inr (Suspends.loading (Or.inr ⟨_, hcall⟩))
  · cases h
    exact Or.inl (finish_cases hc)
  · cases h
    exact Or.inl (finish_cases hc)
  · rename_i hcall
    cases h
    rcases suspend_cases hc with hold | ⟨hsame, heq⟩
    · exact Or.inl hold
    · rw [hsame, heq]
      exact Or.inr (Suspends.afterSummary hcall rfl)
  · cases h
    -- the call is suspended and finished at once
    by_cases hsame : call = other
    · rw [hsame, App.finish_inFlight_self] at hc
      cases hc
    · rw [App.finish_inFlight_of_ne hsame] at hc
      rcases suspend_cases hc with hold | ⟨heq, _⟩
      · exact Or.inl hold
      · exact absurd heq hsame
  · cases h
    exact Suspends.of_suspend rfl rfl hc
  · cases h
    exact Or.inl (finish_cases hc)
  · cases h
    exact Suspends.of_suspend rfl rfl hc
  · cases h
    exact Suspends.of_persist hc rfl
  · cases h
    exact Suspends.of_persist hc rfl
  · cases h
    exact Suspends.of_persist hc rfl
  all_goals
    cases h
    try exact Or.inl (finish_cases hc)

theorem step_suspends (h : step s e = some s')
    (hc : s'.inFlight call = some c) :
    s.inFlight call = some c ∨ Suspends s e call c := by
  cases e with
  | restore =>
      simp only [step] at h
      split at h
      · cases h
        exact Or.inl hc
      · rename_i hrestored
        cases h
        rcases suspend_cases hc with hold | ⟨_, heq⟩
        · exact Or.inl hold
        · rw [heq]
          exact Or.inr (Suspends.loading
            (Or.inl (Bool.eq_false_of_not_eq_true hrestored)))
  | send prompt useCloud contextTokens loaded now =>
      cases h
      exact beginSend_suspends hc
  | deleteConversation id now =>
      cases h
      exact Suspends.of_persist hc rfl
  | renameConversation id title =>
      simp only [step] at h
      split at h <;> cases h
      · exact Suspends.of_persist hc rfl
      · exact Or.inl hc
  | validateProvider config =>
      cases h
      exact Suspends.of_suspend rfl rfl hc
  | resume other input now => exact resume_suspends h hc
  | _ =>
      cases h
      exact Or.inl hc

end Suspends

end ChatRepository
end DomainAI
