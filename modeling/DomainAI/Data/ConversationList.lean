import DomainAI.Data.ChatEdits
import DomainAI.Data.Restore

/-!
# The list of conversations

Once history is restored the list is never empty, and the only conversation in
it that may be blank is the open one.
-/

namespace DomainAI
namespace Chats

structure Listed (s : Chats) : Prop where
  nonempty : s.conversations ≠ []
  distinct : (s.conversations.map Conversation.id).Nodup
  active : exists c, c ∈ s.conversations ∧ s.activeId = some c.id
  others : forall c, c ∈ s.conversations -> s.activeId ≠ some c.id ->
    c.messages ≠ []

/-- Something is open, and whatever else there is has messages. -/
structure Settled (s : Chats) : Prop where
  opened : s.activeId ≠ none
  others : forall c, c ∈ s.conversations -> s.activeId ≠ some c.id ->
    c.messages ≠ []

theorem messages_ne_nil {c : Conversation} (h : (!isDraft c) = true) :
    c.messages ≠ [] := by
  simpa [isDraft, List.isEmpty_iff] using h

theorem listed_iff {s : Chats} (h : s.WellFormed) :
    s.Listed <-> s.Settled := by
  constructor
  · intro hlisted
    rcases hlisted.active with ⟨c, _, hid⟩
    constructor
    · rw [hid]
      exact Option.some_ne_none _
    · exact hlisted.others
  · intro hsettled
    rcases h.hasActive with ⟨hnone, _⟩ | ⟨c, hc, hid⟩
    · exact absurd hnone hsettled.opened
    · constructor
      · exact List.ne_nil_of_mem hc
      · exact h.sound.nodup
      · exact ⟨c, hc, hid⟩
      · exact hsettled.others

theorem Listed.blank_unique {s : Chats} (h : s.Listed) {c d : Conversation}
    (hc : c ∈ s.conversations) (hcnil : c.messages = [])
    (hd : d ∈ s.conversations) (hdnil : d.messages = []) : c = d := by
  have hopen : forall b, b ∈ s.conversations -> b.messages = [] ->
      s.activeId = some b.id := by
    intro b hb hnil
    apply Decidable.byContradiction
    intro hother
    exact h.others b hb hother hnil
  have hid : some c.id = some d.id :=
    (hopen c hc hcnil).symm.trans (hopen d hd hdnil)
  exact List.inj_on_of_nodup_map h.distinct hc hd (Option.some.inj hid)

/-!
# What keeps the list settled
-/

namespace Settled

variable {s : Chats}

theorem draw (h : s.Settled) : s.draw.Settled := ⟨h.opened, h.others⟩

theorem newConversation (h : s.Settled) (now : Millis) :
    (s.newConversation now).Settled := by
  unfold Chats.newConversation
  split
  · exact h
  · constructor
    · exact Option.some_ne_none _
    · intro c hc hother
      rcases List.mem_cons.mp hc with hfresh | hold
      · rw [hfresh] at hother
        exact absurd rfl hother
      · exact messages_ne_nil (List.mem_filter.mp hold).right

theorem selectConversation (h : s.Settled) (id : Uuid) :
    (s.selectConversation id).Settled := by
  unfold Chats.selectConversation
  split
  · exact h
  · constructor
    · exact Option.some_ne_none _
    · intro c hc hother
      have hkept := (List.mem_filter.mp hc).right
      rw [Bool.or_eq_true, decide_eq_true_eq] at hkept
      rcases hkept with hid | hmessages
      · rw [hid] at hother
        exact absurd rfl hother
      · exact messages_ne_nil hmessages

theorem deleteConversation (h : s.Settled) (id : Uuid) (now : Millis) :
    (s.deleteConversation id now).Settled := by
  unfold Chats.deleteConversation
  split
  · rename_i hactive
    have hopen : s.activeId = some id := by
      rcases hactive with hid | hnone
      · exact hid
      · exact absurd hnone h.opened
    split
    · constructor
      · exact Option.some_ne_none _
      · intro c hc hother
        rw [List.mem_singleton.mp hc] at hother
        exact absurd rfl hother
    · constructor
      · exact Option.some_ne_none _
      · intro c hc _
        rcases List.mem_filter.mp hc with ⟨hold, hid⟩
        apply h.others c hold
        rw [hopen]
        intro heq
        exact of_decide_eq_true hid (Option.some.inj heq).symm
  · constructor
    · exact h.opened
    · intro c hc hother
      exact h.others c (List.mem_of_mem_filter hc) hother

theorem renameConversation (h : s.Settled) (id : Uuid) (title : Text) :
    (s.renameConversation id title).2.Settled := by
  unfold Chats.renameConversation
  split
  · exact h
  · constructor
    · exact h.opened
    · intro c hc hother
      rcases List.mem_map.mp hc with ⟨c0, hc0, hrenamed⟩
      have hsame : c.id = c0.id ∧ c.messages = c0.messages := by
        rw [← hrenamed]
        split <;> exact ⟨rfl, rfl⟩
      rw [hsame.left] at hother
      rw [hsame.right]
      exact h.others c0 hc0 hother

theorem updateActive (h : s.Settled) {f : Conversation -> Conversation}
    (hid : forall c, (f c).id = c.id) : (s.updateActive f).Settled := by
  cases hactive : s.activeId with
  | none => exact absurd hactive h.opened
  | some id =>
      constructor
      · rw [updateActive_activeId]
        exact h.opened
      · intro c hc hother
        rw [updateActive_activeId, hactive] at hother
        rw [updateActive_conversations hactive] at hc
        rcases List.mem_map.mp hc with ⟨c0, hc0, hchanged⟩
        by_cases hopen : c0.id = id
        · rw [if_pos hopen] at hchanged
          rw [← hchanged, hid, hopen] at hother
          exact absurd rfl hother
        · rw [if_neg hopen] at hchanged
          rw [← hchanged] at hother ⊢
          apply h.others c0 hc0
          rw [hactive]
          exact hother

theorem restoreFrom (loaded : List Conversation) (now : Millis) :
    (s.restoreFrom loaded now).Settled := by
  unfold Chats.restoreFrom
  split
  · constructor
    · exact Option.some_ne_none _
    · intro c hc hother
      rw [List.mem_singleton.mp hc] at hother
      exact absurd rfl hother
  · constructor
    · exact Option.some_ne_none _
    · intro c hc _
      exact (mem_stored.mp hc).right

end Settled

/-!
# What the operations do to it
-/

def KeepsNonEmpty (before after : Chats) : Prop :=
  forall c, c ∈ before.conversations -> c.messages ≠ [] ->
    c ∈ after.conversations

/-- One conversation is gone and every other one is as it was; when nothing
is left a blank one takes its place. -/
structure Removes (id : Uuid) (before after : Chats) : Prop where
  kept : forall c, c ∈ before.conversations -> c.id ≠ id ->
    c ∈ after.conversations
  gone : forall c, c ∈ after.conversations -> c.id ≠ id
  added : forall c, c ∈ after.conversations -> c ∉ before.conversations ->
    after.conversations = [c] ∧ c.messages = []

def OpensMostRecent (before after : Chats) : Prop :=
  exists c, c ∈ before.conversations ∧ c ∈ after.conversations ∧
    after.activeId = some c.id ∧
    forall d, d ∈ after.conversations -> d.updatedAt ≤ c.updatedAt

theorem newConversation_keepsNonEmpty (s : Chats) (now : Millis) :
    KeepsNonEmpty s (s.newConversation now) := by
  intro c hc hne
  unfold newConversation
  split
  · exact hc
  · exact List.mem_cons_of_mem _ (List.mem_filter.mpr ⟨hc, not_isDraft hne⟩)

theorem selectConversation_keepsNonEmpty (s : Chats) (id : Uuid) :
    KeepsNonEmpty s (s.selectConversation id) := by
  intro c hc hne
  unfold selectConversation
  split
  · exact hc
  · apply List.mem_filter.mpr
    constructor
    · exact hc
    · rw [not_isDraft hne, Bool.or_true]

theorem mem_without {s : Chats} {id : Uuid} {c : Conversation} :
    c ∈ s.without id <-> c ∈ s.conversations ∧ c.id ≠ id := by
  rw [without, List.mem_filter, decide_eq_true_eq]

theorem mostRecent_eq_none {l : List Conversation} :
    mostRecent l = none <-> l = [] := by
  cases l with
  | nil => simp [mostRecent]
  | cons first rest => simp [mostRecent]

theorem le_foldl_mostRecent (l : List Conversation) (best : Conversation) :
    forall d, d ∈ best :: l ->
      d.updatedAt ≤ (l.foldl (fun best d =>
        if best.updatedAt < d.updatedAt then d else best) best).updatedAt := by
  induction l generalizing best with
  | nil =>
      intro d hd
      rw [List.mem_singleton.mp hd]
      exact le_refl _
  | cons first rest ih =>
      intro d hd
      rw [List.foldl_cons]
      have hbetter : best.updatedAt ≤
            (if best.updatedAt < first.updatedAt then first
              else best).updatedAt ∧
          first.updatedAt ≤
            (if best.updatedAt < first.updatedAt then first
              else best).updatedAt := by
        split <;> rename_i hlt
        · exact ⟨le_of_lt hlt, le_refl _⟩
        · exact ⟨le_refl _, le_of_not_gt hlt⟩
      have hbest := ih (if best.updatedAt < first.updatedAt then first else best)
        _ List.mem_cons_self
      rcases List.mem_cons.mp hd with heq | hd
      · rw [heq]
        exact le_trans hbetter.left hbest
      · rcases List.mem_cons.mp hd with heq | hd
        · rw [heq]
          exact le_trans hbetter.right hbest
        · exact ih _ d (List.mem_cons_of_mem _ hd)

theorem le_mostRecent {l : List Conversation} {c : Conversation}
    (h : mostRecent l = some c) :
    forall d, d ∈ l -> d.updatedAt ≤ c.updatedAt := by
  cases l with
  | nil => cases h
  | cons first rest =>
      cases h
      exact le_foldl_mostRecent rest first

theorem deleteConversation_removes {s : Chats} (h : s.WellFormed)
    (hsettled : s.Settled) (id : Uuid) (now : Millis) :
    Removes id s (s.deleteConversation id now) := by
  have hleft : (s.deleteConversation id now).conversations = s.without id ->
      Removes id s (s.deleteConversation id now) := by
    intro heq
    constructor
    · intro c hc hid
      rw [heq]
      exact mem_without.mpr ⟨hc, hid⟩
    · intro c hc
      rw [heq] at hc
      exact (mem_without.mp hc).right
    · intro c hc hnew
      rw [heq] at hc
      exact absurd (mem_without.mp hc).left hnew
  by_cases hactive : s.activeId = some id ∨ s.activeId = none
  · cases hrecent : mostRecent (s.without id) with
    | some next =>
        apply hleft
        simp only [deleteConversation, if_pos hactive, hrecent]
    | none =>
        have hnothing := mostRecent_eq_none.mp hrecent
        have hblank : (s.deleteConversation id now).conversations =
            [s.fresh now] := by
          simp only [deleteConversation, if_pos hactive, hrecent]
        have hopen : s.activeId = some id := by
          rcases hactive with hid | hnone
          · exact hid
          · exact absurd hnone hsettled.opened
        -- the deleted conversation is in the list, so its identifier is old
        have hold : id < s.nextUuid := by
          rcases h.hasActive with ⟨hnone, _⟩ | ⟨c, hc, hid⟩
          · exact absurd hnone hsettled.opened
          · rw [hopen] at hid
            rw [Option.some.inj hid]
            exact h.sound.ids c hc
        constructor
        · intro c hc hid
          have hmem := mem_without.mpr ⟨hc, hid⟩
          rw [hnothing] at hmem
          cases hmem
        · intro c hc
          rw [hblank] at hc
          rw [List.mem_singleton.mp hc]
          exact Ne.symm (Nat.ne_of_lt hold)
        · intro c hc _
          rw [hblank] at hc
          rw [hblank, List.mem_singleton.mp hc]
          exact ⟨rfl, rfl⟩
  · apply hleft
    simp only [deleteConversation, if_neg hactive]

theorem deleteConversation_opensMostRecent {s : Chats} {id : Uuid}
    (hactive : s.activeId = some id)
    (hleft : exists c, c ∈ s.conversations ∧ c.id ≠ id) (now : Millis) :
    OpensMostRecent s (s.deleteConversation id now) := by
  cases hrecent : mostRecent (s.without id) with
  | none =>
      rcases hleft with ⟨c, hc, hid⟩
      have hmem := mem_without.mpr ⟨hc, hid⟩
      rw [mostRecent_eq_none.mp hrecent] at hmem
      cases hmem
  | some next =>
      have hafter : s.deleteConversation id now =
          { s with conversations := s.without id, activeId := some next.id } := by
        simp only [deleteConversation, if_pos (Or.inl hactive), hrecent]
      have hmem := mostRecent_mem hrecent
      rw [hafter]
      exists next
      constructor
      · exact (mem_without.mp hmem).left
      · constructor
        · exact hmem
        · constructor
          · rfl
          · exact le_mostRecent hrecent

end Chats

namespace ChatRepository

open Library App Chats

theorem Edit.settled {s : App} {e : Event} {chats chats' : Chats}
    (h : Edit s e chats chats') (hs : chats.Settled) : chats'.Settled := by
  cases h with
  | draw => exact hs.draw
  | newConversation now => exact hs.newConversation now
  | selectConversation id => exact hs.selectConversation id
  | deleteConversation id now => exact hs.deleteConversation id now
  | renameConversation id title => exact hs.renameConversation id title
  | addMessage message now => exact hs.updateActive fun _ => rfl
  | retitleIfNeeded prompt => exact hs.updateActive (by simp)
  | updateLastText text now => exact hs.updateActive (by simp)
  | endSummary hcall hevent =>
      exact (hs.draw.updateActive (by simp)).draw.updateActive fun _ => rfl
  | restoreFrom hcall now => exact Settled.restoreFrom _ now

theorem Edits.settled {s : App} {e : Event} {chats chats' : Chats}
    (h : Edits s e chats chats') (hs : chats.Settled) : chats'.Settled := by
  induction h with
  | refl => exact hs
  | tail _ hlast ih => exact hlast.settled ih

theorem step_restored {s s' : App} {e : Event} (hstep : step s e = some s')
    (hs' : s'.restored = true) : s.restored = true ∨ DeliversLoad e := by
  cases e with
  | restore =>
      simp only [step] at hstep
      split at hstep <;> cases hstep <;> exact Or.inl hs'
  | send prompt useCloud contextTokens loaded now =>
      cases hstep
      rw [beginSend_restored] at hs'
      exact Or.inl hs'
  | deleteConversation id now =>
      cases hstep
      rw [persist_restored] at hs'
      exact Or.inl hs'
  | renameConversation id title =>
      simp only [step] at hstep
      split at hstep <;> cases hstep
      · rw [persist_restored] at hs'
        exact Or.inl hs'
      · exact Or.inl hs'
  | resume call input now =>
      simp only [step, resume] at hstep
      split at hstep <;> cases hstep
      · exact Or.inl hs'
      · exact Or.inr trivial
      · exact Or.inl hs'
      · exact Or.inl hs'
      · exact Or.inl hs'
      · exact Or.inl hs'
      · exact Or.inl hs'
      · exact Or.inl hs'
      · exact Or.inl ((endStream_restored _ _ _ _ _ _).symm.trans hs')
      · exact Or.inl ((endStream_restored _ _ _ _ _ _).symm.trans hs')
      · exact Or.inl ((endStream_restored _ _ _ _ _ _).symm.trans hs')
      all_goals exact Or.inl hs'
  | _ =>
      cases hstep
      exact Or.inl hs'

theorem step_settled {s s' : App} {e : Event}
    (h : s.restored = true -> s.chats.Settled) (hstep : step s e = some s')
    (hs' : s'.restored = true) : s'.chats.Settled := by
  rcases step_restored hstep hs' with hrestored | hdelivers
  · exact (step_edits hstep).settled (h hrestored)
  · cases e with
    | resume call input now =>
        cases input with
        | loaded =>
            rcases resume_loaded_cases hstep with ⟨loaded, _, hchats⟩
            rw [hchats]
            exact Settled.restoreFrom loaded now
        | _ => cases hdelivers
    | _ => cases hdelivers

theorem Reachable.settled {s : App} (h : Reachable s) :
    s.restored = true -> s.chats.Settled := by
  rcases h with ⟨l, es, hrun⟩
  have hall : AllSteps step (fun _ _ => True) l.app es :=
    AllSteps.of_forall (fun _ _ => trivial) l.app es
  have hstart : l.app.restored = true -> l.app.chats.Settled := by
    intro hrestored
    cases hrestored
  apply runEvents_invariant _ hstart hall hrun
  intro s e s' hs _ hstep
  exact step_settled hs hstep

def Handles (before after : Chats) : Event -> Prop
  | Event.newConversation _ => KeepsNonEmpty before after
  | Event.selectConversation _ => KeepsNonEmpty before after
  | Event.deleteConversation id _ =>
      Removes id before after ∧
        (before.activeId = some id ->
          (exists c, c ∈ before.conversations ∧ c.id ≠ id) ->
          OpensMostRecent before after)
  | _ => True

/-- In every state reached after a restore the list is in order, there is at most
one blank chat, and every operation keeps what it has to keep. -/
theorem conversation_list {s : App} (hreach : Reachable s)
    (hrestored : s.restored = true) :
    s.chats.Listed ∧
    (forall c d, c ∈ s.chats.conversations -> c.messages = [] ->
      d ∈ s.chats.conversations -> d.messages = [] -> c = d) ∧
    forall e s', step s e = some s' -> Handles s.chats s'.chats e := by
  have hwell := hreach.wellFormed.chats
  have hsettled := hreach.settled hrestored
  have hlisted := (listed_iff hwell).mpr hsettled
  constructor
  · exact hlisted
  constructor
  · intro c d hc hcnil hd hdnil
    exact hlisted.blank_unique hc hcnil hd hdnil
  · intro e s' hstep
    cases e with
    | newConversation now =>
        cases hstep
        exact newConversation_keepsNonEmpty s.chats now
    | selectConversation id =>
        cases hstep
        exact selectConversation_keepsNonEmpty s.chats id
    | deleteConversation id now =>
        cases hstep
        rw [persist_chats]
        constructor
        · exact deleteConversation_removes hwell hsettled id now
        · intro hactive hleft
          exact deleteConversation_opensMostRecent hactive hleft now
    | _ => trivial

def blankAndBack : List Event :=
  [Event.restore, Event.resume 0 (Input.loadRan []) 3,
   Event.resume 0 Input.loaded 4, Event.newConversation 5,
   Event.deleteConversation 2 6]

theorem conversation_list_blankAndBack :
    exists s, runEvents step returning.app blankAndBack = some s ∧
      s.chats.Listed ∧
      (forall c d, c ∈ s.chats.conversations -> c.messages = [] ->
        d ∈ s.chats.conversations -> d.messages = [] -> c = d) ∧
      forall e s', step s e = some s' -> Handles s.chats s'.chats e :=
  ⟨_, rfl, conversation_list ⟨returning, blankAndBack, rfl⟩ rfl⟩

end ChatRepository
end DomainAI
