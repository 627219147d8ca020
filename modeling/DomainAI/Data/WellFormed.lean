import DomainAI.Data.ChatRepository
import DomainAI.Data.StoredLists

/-!
# Well-formed states

Identifiers in memory, on disk and in flight come from the supply and do not
repeat, and the active conversation is in the list.
-/

namespace DomainAI

/-- A list of conversations whose identifiers are distinct and drawn before. -/
structure Sound (n : Uuid) (l : List Conversation) : Prop where
  ids : forall c, c ∈ l -> c.id < n
  messageIds : forall c, c ∈ l -> forall m, m ∈ c.messages -> m.id < n
  nodup : (l.map Conversation.id).Nodup

namespace Sound

theorem nil (n : Uuid) : Sound n [] where
  ids := by simp
  messageIds := by simp
  nodup := List.nodup_nil

theorem mono {n k : Uuid} {l : List Conversation} (h : Sound n l)
    (hnk : n ≤ k) : Sound k l where
  ids c hc := lt_of_lt_of_le (h.ids c hc) hnk
  messageIds c hc m hm := lt_of_lt_of_le (h.messageIds c hc m hm) hnk
  nodup := h.nodup

theorem filter {n : Uuid} {l : List Conversation} (h : Sound n l)
    (p : Conversation -> Bool) : Sound n (l.filter p) where
  ids c hc := h.ids c (List.mem_of_mem_filter hc)
  messageIds c hc := h.messageIds c (List.mem_of_mem_filter hc)
  nodup := h.nodup.sublist (List.filter_sublist.map _)

theorem perm {n : Uuid} {l k : List Conversation} (h : Sound n l)
    (hperm : k.Perm l) : Sound n k where
  ids c hc := h.ids c (hperm.mem_iff.mp hc)
  messageIds c hc := h.messageIds c (hperm.mem_iff.mp hc)
  nodup := (hperm.map _).nodup_iff.mpr h.nodup

theorem map {n : Uuid} {l : List Conversation} (h : Sound n l)
    {f : Conversation -> Conversation} (hid : forall c, (f c).id = c.id)
    (hmessages : forall c, c ∈ l -> forall m, m ∈ (f c).messages -> m.id < n) :
    Sound n (l.map f) where
  ids c hc := by
    rcases List.mem_map.mp hc with ⟨c0, hc0, rfl⟩
    rw [hid]
    exact h.ids c0 hc0
  messageIds c hc m hm := by
    rcases List.mem_map.mp hc with ⟨c0, hc0, rfl⟩
    exact hmessages c0 hc0 m hm
  nodup := by
    rw [List.map_map, show Conversation.id ∘ f = Conversation.id from funext hid]
    exact h.nodup

theorem cons_fresh {s : Chats} {l : List Conversation}
    (h : Sound s.nextUuid l) (now : Millis) :
    Sound (s.nextUuid + 1) (s.fresh now :: l) where
  ids c hc := by
    rcases List.mem_cons.mp hc with rfl | hc
    · exact Nat.lt_succ_self _
    · exact Nat.lt_succ_of_lt (h.ids c hc)
  messageIds c hc m hm := by
    rcases List.mem_cons.mp hc with rfl | hc
    · cases hm
    · exact Nat.lt_succ_of_lt (h.messageIds c hc m hm)
  nodup := by
    refine List.nodup_cons.mpr ⟨?_, h.nodup⟩
    intro hmem
    rcases List.mem_map.mp hmem with ⟨c, hc, hid⟩
    exact Nat.lt_irrefl _ (hid ▸ h.ids c hc)

end Sound

namespace Chats

def HasActive (s : Chats) : Prop :=
  (s.activeId = none ∧ s.conversations = []) ∨
    exists c, c ∈ s.conversations ∧ s.activeId = some c.id

structure WellFormed (s : Chats) : Prop where
  sound : Sound s.nextUuid s.conversations
  hasActive : s.HasActive

theorem currentActive_mem {s : Chats} {c : Conversation}
    (h : s.currentActive = some c) : c ∈ s.conversations :=
  List.mem_of_find?_eq_some h

theorem currentActive_id {s : Chats} {c : Conversation}
    (h : s.currentActive = some c) : s.activeId = some c.id := by
  have := List.find?_some h
  simpa [eq_comm] using this

theorem currentActive_eq_none {s : Chats} (h : s.HasActive) :
    s.currentActive = none <-> s.activeId = none := by
  constructor
  · intro hnone
    rcases h with ⟨hid, _⟩ | ⟨c, hc, hid⟩
    · exact hid
    · have := List.find?_eq_none.mp hnone c hc
      simp [hid] at this
  · intro hid
    refine List.find?_eq_none.mpr fun c _ => ?_
    simp [hid]

theorem updateActive_conversations {s : Chats} {id : Uuid}
    (h : s.activeId = some id) (f : Conversation -> Conversation) :
    (s.updateActive f).conversations =
      s.conversations.map fun c => if c.id = id then f c else c := by
  simp [updateActive, h]

@[simp] theorem updateActive_activeId (s : Chats)
    (f : Conversation -> Conversation) :
    (s.updateActive f).activeId = s.activeId := by
  unfold updateActive
  split <;> rfl

@[simp] theorem updateActive_nextUuid (s : Chats)
    (f : Conversation -> Conversation) :
    (s.updateActive f).nextUuid = s.nextUuid := by
  unfold updateActive
  split <;> rfl

theorem WellFormed.updateActive {s : Chats} (h : s.WellFormed)
    {f : Conversation -> Conversation} (hid : forall c, (f c).id = c.id)
    (hmessages : forall c, c ∈ s.conversations ->
      forall m, m ∈ (f c).messages -> m.id < s.nextUuid) :
    (s.updateActive f).WellFormed := by
  rcases hactive : s.activeId with _ | id
  · simpa [Chats.updateActive, hactive] using h
  have hconversations := updateActive_conversations hactive f
  have hkeeps : forall c, (if c.id = id then f c else c).id = c.id := by
    intro c
    split
    · exact hid c
    · rfl
  constructor
  · rw [hconversations, updateActive_nextUuid]
    apply h.sound.map hkeeps
    intro c hc m hm
    split at hm
    · exact hmessages c hc m hm
    · exact h.sound.messageIds c hc m hm
  · right
    rcases h.hasActive with ⟨hnone, _⟩ | ⟨c, hc, hcid⟩
    · rw [hactive] at hnone
      cases hnone
    · refine ⟨if c.id = id then f c else c, ?_, ?_⟩
      · rw [hconversations]
        exact List.mem_map_of_mem hc
      · rw [updateActive_activeId, hkeeps]
        exact hcid

theorem WellFormed.draw {s : Chats} (h : s.WellFormed) : s.draw.WellFormed where
  sound := h.sound.mono (Nat.le_succ _)
  hasActive := h.hasActive

theorem WellFormed.newConversation {s : Chats} (h : s.WellFormed)
    (now : Millis) : (s.newConversation now).WellFormed := by
  unfold Chats.newConversation
  split
  · exact h
  · exact
      { sound := (h.sound.filter _).cons_fresh now
        hasActive := Or.inr ⟨_, List.mem_cons_self, rfl⟩ }

theorem WellFormed.selectConversation {s : Chats} (h : s.WellFormed)
    (id : Uuid) : (s.selectConversation id).WellFormed := by
  unfold Chats.selectConversation
  split
  · exact h
  · rename_i hexists
    simp only [List.all_eq_true, decide_eq_true_eq, not_forall] at hexists
    rcases hexists with ⟨c, hc, hid⟩
    exact
      { sound := h.sound.filter _
        hasActive := Or.inr
          ⟨c, List.mem_filter.mpr ⟨hc, by simp_all⟩, by simp_all⟩ }

theorem foldl_mostRecent_mem (l : List Conversation) (best : Conversation) :
    l.foldl (fun best d =>
      if best.updatedAt < d.updatedAt then d else best) best ∈ best :: l := by
  induction l generalizing best with
  | nil => exact List.mem_cons_self
  | cons d rest ih =>
      rw [List.foldl_cons]
      split
      · exact List.mem_cons_of_mem _ (ih d)
      · rcases List.mem_cons.mp (ih best) with heq | hmem
        · rw [heq]
          exact List.mem_cons_self
        · exact List.mem_cons_of_mem _ (List.mem_cons_of_mem _ hmem)

theorem mostRecent_mem {l : List Conversation} {c : Conversation}
    (h : mostRecent l = some c) : c ∈ l := by
  cases l with
  | nil => cases h
  | cons first rest =>
      cases h
      exact foldl_mostRecent_mem rest first

theorem WellFormed.deleteConversation {s : Chats} (h : s.WellFormed)
    (id : Uuid) (now : Millis) : (s.deleteConversation id now).WellFormed := by
  unfold Chats.deleteConversation
  split
  · split
    · exact
        { sound := (Sound.nil s.nextUuid).cons_fresh now
          hasActive := Or.inr ⟨_, List.mem_singleton.mpr rfl, rfl⟩ }
    · rename_i next hnext
      exact
        { sound := h.sound.filter _
          hasActive := Or.inr ⟨next, mostRecent_mem hnext, rfl⟩ }
  · rename_i hother
    refine ⟨h.sound.filter _, ?_⟩
    rcases h.hasActive with ⟨hnone, _⟩ | ⟨c, hc, hid⟩
    · exact absurd (Or.inr hnone) hother
    · refine Or.inr ⟨c, List.mem_filter.mpr ⟨hc, ?_⟩, hid⟩
      simp only [hid, Option.some.injEq, reduceCtorEq, or_false] at hother
      simpa using hother

theorem WellFormed.renameConversation {s : Chats} (h : s.WellFormed)
    (id : Uuid) (title : Text) :
    (s.renameConversation id title).2.WellFormed := by
  unfold Chats.renameConversation
  split
  · exact h
  · have hid : forall c : Conversation, (if c.id = id then
        { c with title := Text.takeUnits 60 (Text.trim title) } else c).id =
          c.id := by
      intro c
      split <;> rfl
    constructor
    · apply h.sound.map hid
      intro c hc m hm
      have hmem : m ∈ c.messages := by
        split at hm <;> exact hm
      exact h.sound.messageIds c hc m hmem
    · rcases h.hasActive with ⟨hnone, hempty⟩ | ⟨c, hc, hcid⟩
      · exact Or.inl ⟨hnone, by simp [hempty]⟩
      · exact Or.inr ⟨_, List.mem_map_of_mem hc, by rw [hid]; exact hcid⟩

theorem WellFormed.restoreFrom {s : Chats} {loaded : List Conversation}
    (h : Sound s.nextUuid loaded) (now : Millis) :
    (s.restoreFrom loaded now).WellFormed := by
  have hstored := (h.filter (fun c => !isDraft c)).perm
    (List.perm_insertionSort (fun c d => d.updatedAt ≤ c.updatedAt) _)
  unfold Chats.restoreFrom
  split
  · exact
      { sound := (Sound.nil s.nextUuid).cons_fresh now
        hasActive := Or.inr ⟨_, List.mem_singleton.mpr rfl, rfl⟩ }
  · rename_i first rest hlist
    exact
      { sound := hstored
        hasActive := Or.inr ⟨first, by rw [hlist]; exact List.mem_cons_self,
          rfl⟩ }

/-!
# The supply only moves forward
-/

theorem nextUuid_le_newConversation (s : Chats) (now : Millis) :
    s.nextUuid ≤ (s.newConversation now).nextUuid := by
  unfold newConversation
  split
  · exact Nat.le_refl _
  · exact Nat.le_succ _

@[simp] theorem selectConversation_nextUuid (s : Chats) (id : Uuid) :
    (s.selectConversation id).nextUuid = s.nextUuid := by
  unfold selectConversation
  split <;> rfl

theorem nextUuid_le_deleteConversation (s : Chats) (id : Uuid) (now : Millis) :
    s.nextUuid ≤ (s.deleteConversation id now).nextUuid := by
  unfold deleteConversation
  split
  · split
    · exact Nat.le_succ _
    · exact Nat.le_refl _
  · exact Nat.le_refl _

@[simp] theorem renameConversation_nextUuid (s : Chats) (id : Uuid)
    (title : Text) : (s.renameConversation id title).2.nextUuid = s.nextUuid := by
  unfold renameConversation
  split <;> rfl

theorem nextUuid_le_restoreFrom (s : Chats) (loaded : List Conversation)
    (now : Millis) : s.nextUuid ≤ (s.restoreFrom loaded now).nextUuid := by
  unfold restoreFrom
  split
  · exact Nat.le_succ _
  · exact Nat.le_refl _

end Chats

namespace ChatRepository

open Library PrivacyRouter App

/-!
# The chat operations of a send
-/

theorem appendPrompt_wellFormed {s : Chats} (h : s.WellFormed) (prompt : Text)
    (now : Millis) : (appendPrompt prompt now s).WellFormed := by
  refine h.draw.updateActive (fun c => rfl) ?_
  intro c hc m hm
  rcases List.mem_append.mp hm with hm | hm
  · exact Nat.lt_succ_of_lt (h.sound.messageIds c hc m hm)
  · rw [List.mem_singleton.mp hm]
    exact Nat.lt_succ_self _

theorem appendSeed_wellFormed {s : Chats} (h : s.WellFormed) (prompt : Text)
    {reply : Message} (hreply : reply.id = s.nextUuid) (now : Millis) :
    (appendSeed prompt reply now s).WellFormed := by
  apply h.draw.updateActive (fun c => by simp)
  intro c hc m hm
  simp only [Conversation.retitleIfNeeded_messages,
    Conversation.addMessage_messages] at hm
  rcases List.mem_append.mp hm with hm | hm
  · exact Nat.lt_succ_of_lt (h.sound.messageIds c hc m hm)
  · rw [List.mem_singleton.mp hm, hreply]
    exact Nat.lt_succ_self _

theorem mem_replaceLastText {text : Text} {ms : List Message} {m : Message}
    (h : m ∈ Conversation.replaceLastText text ms) :
    exists m0, m0 ∈ ms ∧ m0.id = m.id ∧ m0.role = m.role ∧
      m0.sentPayloadPreview = m.sentPayloadPreview := by
  rcases List.eq_nil_or_concat ms with hms | ⟨front, last, hms⟩
  · rw [hms] at h
    cases h
  · rw [hms, List.concat_eq_append, Conversation.replaceLastText_append] at h
    rw [hms, List.concat_eq_append]
    rcases List.mem_append.mp h with hfront | hlast
    · exact ⟨m, List.mem_append_left _ hfront, rfl, rfl, rfl⟩
    · rw [List.mem_singleton.mp hlast]
      exact ⟨last, List.mem_append_right _ (List.mem_singleton.mpr rfl), rfl,
        rfl, rfl⟩

theorem writeReply_wellFormed {s : Chats} (h : s.WellFormed) (text : Text)
    (now : Millis) : (writeReply text now s).WellFormed := by
  apply h.updateActive (fun c => by simp)
  intro c hc m hm
  rw [Conversation.updateLastText_messages] at hm
  rcases mem_replaceLastText hm with ⟨m0, hm0, hid, _⟩
  rw [← hid]
  exact h.sound.messageIds c hc m0 hm0

theorem withSummary_wellFormed {s : Chats} (h : s.WellFormed)
    (completion : Option Text) (summarized : Conversation) :
    (s.updateActive
      (History.withSummary completion summarized)).WellFormed := by
  apply h.updateActive (fun c => by simp)
  intro c hc m hm
  rw [History.withSummary_messages] at hm
  exact h.sound.messageIds c hc m hm

theorem ensureActive_wellFormed {s : Chats} (h : s.WellFormed) (now : Millis) :
    (ensureActive now s).WellFormed := by
  unfold ensureActive
  split
  · exact h.newConversation now
  · exact h

theorem nextUuid_le_ensureActive (s : Chats) (now : Millis) :
    s.nextUuid ≤ (ensureActive now s).nextUuid := by
  unfold ensureActive
  split
  · exact s.nextUuid_le_newConversation now
  · exact Nat.le_refl _

@[simp] theorem draw_nextUuid (s : Chats) :
    s.draw.nextUuid = s.nextUuid + 1 := rfl

@[simp] theorem appendPrompt_nextUuid (s : Chats) (prompt : Text)
    (now : Millis) : (appendPrompt prompt now s).nextUuid = s.nextUuid + 1 := by
  simp [appendPrompt]

@[simp] theorem appendSeed_nextUuid (s : Chats) (prompt : Text)
    (reply : Message) (now : Millis) :
    (appendSeed prompt reply now s).nextUuid = s.nextUuid + 1 := by
  simp [appendSeed]

@[simp] theorem writeReply_nextUuid (s : Chats) (text : Text) (now : Millis) :
    (writeReply text now s).nextUuid = s.nextUuid := by
  simp [writeReply]

theorem currentActive_ensureActive {s : Chats} (h : s.WellFormed)
    (now : Millis) :
    exists active, (ensureActive now s).currentActive = some active := by
  have hactive := (ensureActive_wellFormed h now).hasActive
  cases hcurrent : (ensureActive now s).currentActive with
  | some active => exact ⟨active, rfl⟩
  | none =>
      have hnone := (Chats.currentActive_eq_none hactive).mp hcurrent
      unfold ensureActive at hnone hcurrent
      split at hnone
      · rename_i hmissing
        rw [if_pos hmissing] at hcurrent
        have hs := Option.isNone_iff_eq_none.mp hmissing
        simp [Chats.newConversation, hs] at hnone
      · rename_i hpresent
        rw [if_neg hpresent] at hcurrent
        exact absurd (by simp [hcurrent]) hpresent

/-!
# Lists on disk and in flight
-/

/-- The list a suspended call holds for, or has got from, the disk. -/
def Coroutine.list : Coroutine -> Option (List Conversation)
  | Coroutine.restoring loaded => loaded
  | Coroutine.saving _ snapshot => some snapshot
  | _ => none

structure Held (P : List Conversation -> Prop) (s : App) : Prop where
  files : s.files.All P
  inFlight : forall call c l, s.inFlight call = some c -> c.list = some l -> P l

section Held

variable {P : List Conversation -> Prop} {s : App}

theorem Held.mono {R : List Conversation -> Prop} (h : Held P s)
    (hPR : forall l, P l -> R l) : Held R s where
  files f c hc name l heq := hPR l (h.files f c hc name l heq)
  inFlight call c l hcall hl := hPR l (h.inFlight call c l hcall hl)

theorem Held.onChats (h : Held P s) (f : Chats -> Chats) :
    Held P (s.onChats f) :=
  ⟨h.files, h.inFlight⟩

theorem Held.observe (h : Held P s) (os : List Observation) :
    Held P (s.observe os) :=
  ⟨h.files, h.inFlight⟩

theorem Held.setRestored (h : Held P s) : Held P s.setRestored :=
  ⟨h.files, h.inFlight⟩

theorem Held.begin (h : Held P s) : Held P s.begin :=
  ⟨h.files, h.inFlight⟩

theorem Held.onFiles (h : Held P s) {files : ConversationStore.Files}
    (hfiles : files.All P) : Held P (s.onFiles files) :=
  ⟨hfiles, h.inFlight⟩

theorem Held.suspend (h : Held P s) (call : CallId) {c : Coroutine}
    (hc : forall l, c.list = some l -> P l) : Held P (s.suspend call c) := by
  refine ⟨h.files, ?_⟩
  intro other c' l hother hl
  by_cases hsame : other = call
  · rw [hsame, App.suspend_inFlight_self] at hother
    cases hother
    exact hc l hl
  · rw [App.suspend_inFlight_of_ne hsame] at hother
    exact h.inFlight other c' l hother hl

theorem Held.finish (h : Held P s) (call : CallId) : Held P (s.finish call) := by
  refine ⟨h.files, ?_⟩
  intro other c' l hother hl
  by_cases hsame : other = call
  · rw [hsame, App.finish_inFlight_self] at hother
    cases hother
  · rw [App.finish_inFlight_of_ne hsame] at hother
    exact h.inFlight other c' l hother hl

theorem Held.persist (h : Held P s)
    (hsnapshot : s.restored = true -> P s.chats.snapshot) (call : CallId)
    (cancellable : Bool) : Held P (persist call cancellable s) := by
  unfold ChatRepository.persist
  split
  · rename_i hrestored
    apply h.suspend call
    intro l hl
    cases hl
    exact hsnapshot hrestored
  · exact h.finish call

end Held

@[simp] theorem persist_chats (call : CallId) (cancellable : Bool) (s : App) :
    (persist call cancellable s).chats = s.chats := by
  unfold persist
  split <;> rfl

theorem endStream_chats (call : CallId) (outcome : StreamingOutcome Flow)
    (builder : Text) (note : Option Text) (now : Millis) (s : App) :
    (endStream call outcome builder note now s).chats =
      writeReply (ReplyText.finalText (ReplyText.stripLeadingNameLabel builder)
        (outcome.note.or note)) now s.chats :=
  persist_chats _ _ _

section Steps

variable {P : List Conversation -> Prop} {s s' : App}

theorem Held.beginSend (h : Held P s) (prompt : Text) (useCloud : Bool)
    (contextTokens : Int) (loaded : Bool) (now : Millis) :
    Held P (beginSend prompt useCloud contextTokens loaded now s) := by
  have hopened : Held P (openSend now s) := (h.begin.observe _).onChats _
  unfold ChatRepository.beginSend
  split
  · exact hopened
  · split
    · exact (hopened.onChats _).suspend _ (by intro l hl; cases hl)
    · exact hopened.suspend _ (by intro l hl; cases hl)

theorem Held.endSummary (h : Held P s) (call : CallId) (send : SendCall)
    (active : Conversation) (completion : Option Text) (now : Millis) :
    Held P (endSummary call send active completion now s) :=
  ((h.onChats _).onChats _).suspend call (by intro l hl; cases hl)

theorem Held.endStream (h : Held P s) {call : CallId}
    {outcome : StreamingOutcome Flow} {builder : Text} {note : Option Text}
    {now : Millis}
    (hsnapshot : s.restored = true ->
      P (endStream call outcome builder note now s).chats.snapshot) :
    Held P (endStream call outcome builder note now s) := by
  rw [endStream_chats] at hsnapshot
  exact ((h.onChats _).observe _).persist hsnapshot call false

theorem resume_held {call : CallId} {input : Input} {now : Millis}
    (hnil : P []) (h : Held P s)
    (hsnapshot : s.restored = true -> P s'.chats.snapshot)
    (hresume : resume call input now s = some s') : Held P s' := by
  unfold resume at hresume
  split at hresume
  · rename_i faults _
    cases hresume
    have hload := ConversationStore.load_all hnil h.files faults
    apply (h.onFiles hload.right).suspend call
    intro l hl
    cases hl
    exact hload.left
  · cases hresume
    exact ((h.onChats _).setRestored.observe _).finish call
  · cases hresume
    exact h.finish call
  · cases hresume
    exact h.endSummary _ _ _ _ _
  · cases hresume
    exact (h.endSummary _ _ _ _ _).finish call
  · cases hresume
    exact ((h.onChats _).observe _).suspend call (by intro l hl; cases hl)
  · cases hresume
    exact h.finish call
  · cases hresume
    exact (h.onChats _).suspend call (by intro l hl; cases hl)
  · cases hresume
    exact h.endStream hsnapshot
  · cases hresume
    exact h.endStream hsnapshot
  · cases hresume
    exact h.endStream hsnapshot
  · rename_i snapshot faults hcall
    cases hresume
    have hlist := h.inFlight call _ snapshot hcall rfl
    exact (h.onFiles
      (ConversationStore.saveFiles_all hlist h.files faults)).finish call
  · cases hresume
    exact h.finish call
  · cases hresume
    exact h.finish call
  · cases hresume
    exact h.finish call
  · cases hresume
    exact h.finish call
  · cases hresume
    exact h.finish call
  · cases hresume

/-- Lists reach the disk from memory and from nowhere else. -/
theorem step_held {e : Event} (hnil : P []) (h : Held P s)
    (hsnapshot : s.restored = true -> P s'.chats.snapshot)
    (hstep : step s e = some s') : Held P s' := by
  cases e with
  | restore =>
      simp only [step] at hstep
      split at hstep
      · cases hstep
        exact h
      · cases hstep
        exact h.begin.suspend _ (by intro l hl; cases hl)
  | send prompt useCloud contextTokens loaded now =>
      cases hstep
      exact h.beginSend _ _ _ _ _
  | deleteConversation id now =>
      cases hstep
      rw [persist_chats] at hsnapshot
      exact (h.begin.onChats _).persist hsnapshot _ _
  | renameConversation id title =>
      simp only [step] at hstep
      split at hstep
      · cases hstep
        rw [persist_chats] at hsnapshot
        exact (h.begin.onChats _).persist hsnapshot _ _
      · cases hstep
        exact h
  | validateProvider config =>
      cases hstep
      exact (h.begin.observe _).suspend _ (by intro l hl; cases hl)
  | resume call input now => exact resume_held hnil h hsnapshot hstep
  | _ =>
      cases hstep
      exact ⟨h.files, h.inFlight⟩

end Steps

/-!
# Well-formed applications
-/

structure WellFormed (s : App) : Prop where
  chats : s.chats.WellFormed
  held : Held (Sound s.chats.nextUuid) s

theorem withHistory_chats_wellFormed {s : App} (h : s.chats.WellFormed)
    (call : CallId) (send : SendCall) (history : List Message) (now : Millis) :
    (withHistory call send history now s).chats.WellFormed :=
  appendPrompt_wellFormed h _ _

theorem beginSend_chats_wellFormed {s : App} (h : s.chats.WellFormed)
    (prompt : Text) (useCloud : Bool) (contextTokens : Int) (loaded : Bool)
    (now : Millis) :
    (beginSend prompt useCloud contextTokens loaded now
        s).chats.WellFormed ∧
      s.chats.nextUuid ≤
        (beginSend prompt useCloud contextTokens loaded now s).chats.nextUuid := by
  have hopened : (openSend now s).chats.WellFormed :=
    (ensureActive_wellFormed h now).draw
  have hle : s.chats.nextUuid ≤ (openSend now s).chats.nextUuid :=
    Nat.le_succ_of_le (nextUuid_le_ensureActive s.chats now)
  unfold beginSend
  split
  · exact ⟨hopened, hle⟩
  · split
    · exact ⟨withHistory_chats_wellFormed hopened _ _ _ _,
        hle.trans (by simp [withHistory, App.suspend, App.onChats])⟩
    · exact ⟨hopened, hle⟩

theorem endSummary_chats_wellFormed {s : App} (h : s.chats.WellFormed)
    (call : CallId) (send : SendCall) (active : Conversation)
    (completion : Option Text) (now : Millis) :
    (endSummary call send active completion now s).chats.WellFormed ∧
      s.chats.nextUuid ≤
        (endSummary call send active completion now s).chats.nextUuid := by
  refine ⟨appendPrompt_wellFormed (withSummary_wellFormed h.draw _ _) _ _, ?_⟩
  have hnext : (endSummary call send active completion now s).chats.nextUuid =
      s.chats.nextUuid + 1 + 1 := by
    simp [endSummary, withHistory, App.suspend, App.onChats]
  rw [hnext]
  exact Nat.le_add_right _ 2

theorem resume_chats_wellFormed {s s' : App} {call : CallId} {input : Input}
    {now : Millis} (h : WellFormed s)
    (hresume : resume call input now s = some s') :
    s'.chats.WellFormed ∧ s.chats.nextUuid ≤ s'.chats.nextUuid := by
  have hsame : s.chats.WellFormed ∧ s.chats.nextUuid ≤ s.chats.nextUuid :=
    ⟨h.chats, Nat.le_refl _⟩
  unfold resume at hresume
  split at hresume
  · cases hresume
    exact hsame
  · rename_i loaded hcall
    cases hresume
    have hloaded := h.held.inFlight call _ loaded hcall rfl
    exact ⟨Chats.WellFormed.restoreFrom hloaded now,
      Chats.nextUuid_le_restoreFrom s.chats loaded now⟩
  · cases hresume
    exact hsame
  · cases hresume
    exact endSummary_chats_wellFormed h.chats call _ _ _ now
  · cases hresume
    exact endSummary_chats_wellFormed h.chats call _ _ none now
  · cases hresume
    refine ⟨appendSeed_wellFormed h.chats _ rfl _, ?_⟩
    simp [route, App.suspend, App.observe, App.onChats]
  · cases hresume
    exact hsame
  · cases hresume
    refine ⟨writeReply_wellFormed h.chats _ _, ?_⟩
    simp [receive, App.suspend, App.onChats]
  · cases hresume
    rw [endStream_chats]
    exact ⟨writeReply_wellFormed h.chats _ _, by simp⟩
  · cases hresume
    rw [endStream_chats]
    exact ⟨writeReply_wellFormed h.chats _ _, by simp⟩
  · cases hresume
    rw [endStream_chats]
    exact ⟨writeReply_wellFormed h.chats _ _, by simp⟩
  · cases hresume
    exact hsame
  · cases hresume
    exact hsame
  · cases hresume
    exact hsame
  · cases hresume
    exact hsame
  · cases hresume
    exact hsame
  · cases hresume
    exact hsame
  · cases hresume

theorem step_chats_wellFormed {s s' : App} {e : Event} (h : WellFormed s)
    (hstep : step s e = some s') :
    s'.chats.WellFormed ∧ s.chats.nextUuid ≤ s'.chats.nextUuid := by
  have hsame : s.chats.WellFormed ∧ s.chats.nextUuid ≤ s.chats.nextUuid :=
    ⟨h.chats, Nat.le_refl _⟩
  cases e with
  | restore =>
      simp only [step] at hstep
      split at hstep <;> cases hstep <;> exact hsame
  | send prompt useCloud contextTokens loaded now =>
      cases hstep
      exact beginSend_chats_wellFormed h.chats _ _ _ _ _
  | newConversation now =>
      cases hstep
      exact ⟨h.chats.newConversation now,
        s.chats.nextUuid_le_newConversation now⟩
  | selectConversation id =>
      cases hstep
      refine ⟨h.chats.selectConversation id, ?_⟩
      simp [App.onChats]
  | deleteConversation id now =>
      cases hstep
      rw [persist_chats]
      exact ⟨h.chats.deleteConversation id now,
        s.chats.nextUuid_le_deleteConversation id now⟩
  | renameConversation id title =>
      simp only [step] at hstep
      split at hstep
      · cases hstep
        rw [persist_chats]
        refine ⟨h.chats.renameConversation id title, ?_⟩
        simp [App.onChats, App.begin]
      · cases hstep
        exact hsame
  | resume call input now => exact resume_chats_wellFormed h hstep
  | _ =>
      cases hstep
      exact hsame

theorem step_wellFormed {s s' : App} {e : Event} (h : WellFormed s)
    (hstep : step s e = some s') : WellFormed s' := by
  rcases step_chats_wellFormed h hstep with ⟨hchats, hle⟩
  have hheld := h.held.mono fun _ hl => hl.mono hle
  exact ⟨hchats, step_held (Sound.nil _) hheld
    (fun _ => hchats.sound.filter _) hstep⟩

/-!
# Reachable states
-/

/-- A launch, with identifiers that the stored history does not use yet. -/
structure Launch where
  files : ConversationStore.Files
  privacy : PrivacyState := {}
  remoteConfig : Option RemoteEngine.Config := none
  nextUuid : Uuid
  sound : files.All (Sound nextUuid)

def Launch.app (l : Launch) : App where
  chats := { nextUuid := l.nextUuid }
  files := l.files
  privacy := l.privacy
  remoteConfig := l.remoteConfig

def firstLaunch : Launch where
  files := {}
  nextUuid := 0
  sound := by
    intro f c hc
    cases f <;> cases hc

def provider : RemoteEngine.Config where
  baseUrl := "https://openrouter.ai/api/v1".toList
  apiKey := "key".toList
  model := "model".toList

def cloudSetup : List Event :=
  [Event.saveRemoteConfig provider,
   Event.setPrivacy { networkKillSwitch := false, cloudConsentGiven := true }]

def Reachable (s : App) : Prop :=
  exists (l : Launch) (es : List Event), runEvents step l.app es = some s

theorem Launch.wellFormed (l : Launch) : WellFormed l.app where
  chats :=
    { sound := Sound.nil _
      hasActive := Or.inl ⟨rfl, rfl⟩ }
  held :=
    { files := l.sound
      inFlight := by intro call c k hk; cases hk }

theorem run_wellFormed {s s' : App} {es : List Event} (h : WellFormed s)
    (hrun : runEvents step s es = some s') : WellFormed s' := by
  induction es generalizing s with
  | nil =>
      cases hrun
      exact h
  | cons e es ih =>
      rcases runEvents_cons.mp hrun with ⟨mid, hmid, hrest⟩
      exact ih (step_wellFormed h hmid) hrest

theorem Reachable.run {s s' : App} {es : List Event} (h : Reachable s)
    (hrun : runEvents step s es = some s') : Reachable s' := by
  rcases h with ⟨l, earlier, hearlier⟩
  exact ⟨l, earlier ++ es, runEvents_append.mpr ⟨s, hearlier, hrun⟩⟩

theorem Reachable.wellFormed {s : App} (h : Reachable s) : WellFormed s := by
  rcases h with ⟨l, es, hrun⟩
  exact run_wellFormed l.wellFormed hrun

end ChatRepository
end DomainAI
