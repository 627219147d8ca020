import DomainAI.Data.WellFormed

/-!
# What the chat operations leave alone

Two frame conditions: no message appears or changes outside the conversation
that is written to, and no conversation with messages is lost unless it is
deleted.
-/

namespace DomainAI
namespace Chats

structure Carries (s s' : Chats) : Prop where
  carried : forall c', c' ∈ s'.conversations ->
    (exists c, c ∈ s.conversations ∧ c.id = c'.id ∧ c.messages = c'.messages) ∨
      (s.nextUuid ≤ c'.id ∧ c'.messages = [])
  supply : s.nextUuid ≤ s'.nextUuid

/-- Conversations with messages stay, with the possible exception of one. -/
def Keeps (gone : Option Uuid) (s s' : Chats) : Prop :=
  forall c, c ∈ s.conversations -> c.messages ≠ [] -> gone ≠ some c.id ->
    exists c', c' ∈ s'.conversations ∧ c'.id = c.id ∧ c'.messages ≠ []

def ActiveIsDraft (s : Chats) : Prop :=
  forall c, c ∈ s.conversations -> s.activeId = some c.id -> c.messages = []

theorem not_isDraft {c : Conversation} (h : c.messages ≠ []) :
    (!isDraft c) = true := by
  simpa [isDraft, List.isEmpty_iff] using h

/-!
# Carrying messages over
-/

theorem Carries.of_mem {s s' : Chats}
    (h : forall c, c ∈ s'.conversations -> c ∈ s.conversations)
    (hle : s.nextUuid ≤ s'.nextUuid) : Carries s s' where
  carried c hc := Or.inl ⟨c, h c hc, rfl, rfl⟩
  supply := hle

theorem Carries.refl (s : Chats) : Carries s s :=
  Carries.of_mem (fun _ hc => hc) (Nat.le_refl _)

theorem Carries.trans {s s' s'' : Chats} (h : Carries s s')
    (h' : Carries s' s'') : Carries s s'' where
  carried c hc := by
    rcases h'.carried c hc with ⟨c', hc', hid, hmessages⟩ | ⟨hid, hnil⟩
    · rcases h.carried c' hc' with ⟨c0, hc0, hid0, hmessages0⟩ | ⟨hid0, hnil⟩
      · exact Or.inl ⟨c0, hc0, hid0.trans hid, hmessages0.trans hmessages⟩
      · exact Or.inr ⟨hid ▸ hid0, hmessages ▸ hnil⟩
    · exact Or.inr ⟨h.supply.trans hid, hnil⟩
  supply := h.supply.trans h'.supply

theorem carries_draw (s : Chats) : Carries s s.draw :=
  Carries.of_mem (fun _ hc => hc) (Nat.le_succ _)

theorem carries_newConversation (s : Chats) (now : Millis) :
    Carries s (s.newConversation now) := by
  refine ⟨?_, s.nextUuid_le_newConversation now⟩
  unfold newConversation
  split
  · exact fun c hc => Or.inl ⟨c, hc, rfl, rfl⟩
  · intro c hc
    rcases List.mem_cons.mp hc with rfl | hc
    · exact Or.inr ⟨Nat.le_refl _, rfl⟩
    · exact Or.inl ⟨c, List.mem_of_mem_filter hc, rfl, rfl⟩

theorem carries_selectConversation (s : Chats) (id : Uuid) :
    Carries s (s.selectConversation id) := by
  refine Carries.of_mem ?_ (by simp)
  unfold selectConversation
  split
  · exact fun _ hc => hc
  · exact fun _ hc => List.mem_of_mem_filter hc

theorem carries_deleteConversation (s : Chats) (id : Uuid) (now : Millis) :
    Carries s (s.deleteConversation id now) := by
  refine ⟨?_, s.nextUuid_le_deleteConversation id now⟩
  have hkept : forall c, c ∈ s.without id ->
      exists c0, c0 ∈ s.conversations ∧ c0.id = c.id ∧
        c0.messages = c.messages :=
    fun c hc => ⟨c, List.mem_of_mem_filter hc, rfl, rfl⟩
  unfold deleteConversation
  split
  · split
    · intro c hc
      rw [List.mem_singleton.mp hc]
      exact Or.inr ⟨Nat.le_refl _, rfl⟩
    · exact fun c hc => Or.inl (hkept c hc)
  · exact fun c hc => Or.inl (hkept c hc)

theorem carries_renameConversation (s : Chats) (id : Uuid) (title : Text) :
    Carries s (s.renameConversation id title).2 := by
  refine ⟨?_, by simp⟩
  unfold renameConversation
  split
  · exact fun c hc => Or.inl ⟨c, hc, rfl, rfl⟩
  · intro c hc
    rcases List.mem_map.mp hc with ⟨c0, hc0, rfl⟩
    exact Or.inl ⟨c0, hc0, by split <;> rfl, by split <;> rfl⟩

theorem mem_updateActive {s : Chats} {c : Conversation}
    (hactive : s.activeId = some c.id) (hc : c ∈ s.conversations)
    (f : Conversation -> Conversation) :
    f c ∈ (s.updateActive f).conversations := by
  rw [updateActive_conversations hactive]
  refine List.mem_map.mpr ⟨c, hc, ?_⟩
  rw [if_pos rfl]

theorem carries_updateActive (s : Chats) {f : Conversation -> Conversation}
    (hid : forall c, (f c).id = c.id)
    (hmessages : forall c, c ∈ s.conversations -> s.activeId = some c.id ->
      (f c).messages = c.messages) : Carries s (s.updateActive f) := by
  refine ⟨?_, by simp⟩
  intro c hc
  rcases hactive : s.activeId with _ | id
  · rw [updateActive, hactive] at hc
    exact Or.inl ⟨c, hc, rfl, rfl⟩
  · rw [updateActive_conversations hactive] at hc
    rcases List.mem_map.mp hc with ⟨c0, hc0, rfl⟩
    refine Or.inl ⟨c0, hc0, ?_⟩
    split
    · rename_i hopen
      exact ⟨(hid c0).symm, (hmessages c0 hc0 (by rw [hactive, hopen])).symm⟩
    · exact ⟨rfl, rfl⟩

/-!
# Keeping conversations
-/

theorem Keeps.of_mem {gone : Option Uuid} {s s' : Chats}
    (h : forall c, c ∈ s.conversations -> c.messages ≠ [] ->
      gone ≠ some c.id -> c ∈ s'.conversations) : Keeps gone s s' :=
  fun c hc hne hgone => ⟨c, h c hc hne hgone, rfl, hne⟩

theorem Keeps.trans {gone : Option Uuid} {s s' s'' : Chats}
    (h : Keeps gone s s') (h' : Keeps gone s' s'') : Keeps gone s s'' := by
  intro c hc hne hgone
  rcases h c hc hne hgone with ⟨c', hc', hid, hne'⟩
  rcases h' c' hc' hne' (by rwa [hid]) with ⟨c'', hc'', hid', hne''⟩
  exact ⟨c'', hc'', hid'.trans hid, hne''⟩

theorem keeps_draw (s : Chats) : Keeps none s s.draw :=
  Keeps.of_mem fun _ hc _ _ => hc

theorem keeps_newConversation (s : Chats) (now : Millis) :
    Keeps none s (s.newConversation now) := by
  refine Keeps.of_mem fun c hc hne _ => ?_
  unfold newConversation
  split
  · exact hc
  · exact List.mem_cons_of_mem _ (List.mem_filter.mpr ⟨hc, not_isDraft hne⟩)

theorem keeps_selectConversation (s : Chats) (id : Uuid) :
    Keeps none s (s.selectConversation id) := by
  refine Keeps.of_mem fun c hc hne _ => ?_
  unfold selectConversation
  split
  · exact hc
  · exact List.mem_filter.mpr ⟨hc, by simp [not_isDraft hne]⟩

theorem keeps_deleteConversation (s : Chats) (id : Uuid) (now : Millis) :
    Keeps (some id) s (s.deleteConversation id now) := by
  refine Keeps.of_mem fun c hc _ hgone => ?_
  have hkept : c ∈ s.without id := by
    refine List.mem_filter.mpr ⟨hc, decide_eq_true fun h => hgone ?_⟩
    rw [h]
  unfold deleteConversation
  split
  · split
    · rename_i hnone
      cases hwithout : s.without id with
      | nil =>
          rw [hwithout] at hkept
          cases hkept
      | cons first rest =>
          rw [hwithout] at hnone
          cases hnone
    · exact hkept
  · exact hkept

theorem Keeps.of_map {gone : Option Uuid} {s s' : Chats}
    {f : Conversation -> Conversation}
    (hlist : s'.conversations = s.conversations.map f)
    (hid : forall c, (f c).id = c.id)
    (hne : forall c, c.messages ≠ [] -> (f c).messages ≠ []) :
    Keeps gone s s' := by
  intro c hc hcne _
  refine ⟨f c, ?_, hid c, hne c hcne⟩
  rw [hlist]
  exact List.mem_map_of_mem hc

theorem keeps_renameConversation (s : Chats) (id : Uuid) (title : Text) :
    Keeps none s (s.renameConversation id title).2 := by
  unfold renameConversation
  split
  · exact Keeps.of_mem fun _ hc _ _ => hc
  · refine Keeps.of_map rfl ?_ ?_
    · intro c
      split <;> rfl
    · intro c hne
      split <;> exact hne

theorem keeps_updateActive {gone : Option Uuid} (s : Chats)
    {f : Conversation -> Conversation} (hid : forall c, (f c).id = c.id)
    (hne : forall c, c.messages ≠ [] -> (f c).messages ≠ []) :
    Keeps gone s (s.updateActive f) := by
  rcases hactive : s.activeId with _ | id
  · simp only [updateActive, hactive]
    exact Keeps.of_mem fun _ hc _ _ => hc
  · refine Keeps.of_map (updateActive_conversations hactive f) ?_ ?_
    · intro c
      split
      · exact hid c
      · rfl
    · intro c hc
      split
      · exact hne c hc
      · exact hc

end Chats

namespace ChatRepository

open Chats

theorem carries_ensureActive (s : Chats) (now : Millis) :
    Carries s (ensureActive now s) := by
  unfold ensureActive
  split
  · exact carries_newConversation s now
  · exact Carries.refl s

theorem carries_withSummary (s : Chats) (completion : Option Text)
    (summarized : Conversation) :
    Carries s (s.updateActive (History.withSummary completion summarized)) :=
  carries_updateActive s (by simp) (by simp)

theorem carries_writeReply {s : Chats} (h : s.ActiveIsDraft) (text : Text)
    (now : Millis) : Carries s (writeReply text now s) := by
  apply carries_updateActive s (by simp)
  intro c hc hopen
  rw [Conversation.updateLastText_messages, h c hc hopen]
  rfl

theorem keeps_appendPrompt (s : Chats) (prompt : Text) (now : Millis) :
    Keeps none s (appendPrompt prompt now s) :=
  keeps_updateActive s.draw (fun _ => rfl)
    (by simp)

theorem keeps_appendSeed (s : Chats) (prompt : Text) (reply : Message)
    (now : Millis) : Keeps none s (appendSeed prompt reply now s) :=
  keeps_updateActive s.draw (by simp) (by simp)

theorem keeps_writeReply (s : Chats) (text : Text) (now : Millis) :
    Keeps none s (writeReply text now s) :=
  keeps_updateActive s (by simp) (by simp)

theorem keeps_withSummary (s : Chats) (completion : Option Text)
    (summarized : Conversation) :
    Keeps none s (s.updateActive (History.withSummary completion summarized)) :=
  keeps_updateActive s (by simp) (by simp)

end ChatRepository
end DomainAI
