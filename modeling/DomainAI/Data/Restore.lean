import DomainAI.Data.Calls
import DomainAI.Data.ChatFrame
import DomainAI.Data.LegacyRecovery

/-!
# Startup restore

Restoring assigns the list of conversations as a whole, whatever has happened in
memory since the launch, and the sends in flight go on writing to whichever
conversation is open afterwards.
-/

namespace DomainAI
namespace ConversationStore

open Library

/-!
# What is on disk
-/

/-- The list in the first file that can be read at all. -/
def storedIn (d : Files) : List Conversation :=
  ((d.canonical.bind readable).or ((d.backup.bind readable).or
    (decode StoreFile.temp d.temp))).getD []

theorem storedIn_eq_firstReadable {d : Files} (h : FirstFileReadable d) :
    storedIn d = (firstReadable d).getD [] := by
  cases hfirst : firstReadable d with
  | none =>
      have hnone : forall conversations, ¬ Recoverable d conversations := by
        intro conversations hrecoverable
        have hsome := h ⟨conversations, hrecoverable⟩
        rw [hfirst] at hsome
        cases hsome
      unfold storedIn
      cases hall : (d.canonical.bind readable).or ((d.backup.bind readable).or
          (decode StoreFile.temp d.temp)) with
      | none => rfl
      | some conversations =>
          rw [Option.or_eq_some_iff, Option.or_eq_some_iff] at hall
          refine absurd ?_ (hnone conversations)
          rcases hall with hcanonical | ⟨_, hbackup | ⟨_, htemp⟩⟩
          · exact Or.inl hcanonical
          · exact Or.inr (Or.inl hbackup)
          · exact Or.inr (Or.inr htemp)
  | some conversations =>
      rcases d with ⟨_ | c, _ | b, t⟩ <;>
        simp only [firstReadable] at hfirst <;> simp [storedIn, hfirst]

theorem run_load_undisturbed {d : Files} {faults : List Fault}
    (hfirst : FirstFileReadable d)
    (h : Program.Along exec (fun o fault _ => fault.hits o = false) load faults d) :
    (Program.run exec load faults d).1 = storedIn d := by
  have hharmless : Program.Along exec
      (fun o fault d => exec o fault d = exec o default d) load faults d := by
    rw [Program.along_iff_trace] at h ⊢
    intro e he
    rw [exec, exec, h e he, Fault.hits_default]
  rw [(Program.run_of_harmless hharmless).left, storedIn_eq_firstReadable hfirst]
  exact loadResult_eq_firstReadable d

end ConversationStore

namespace Chats

theorem mem_updateActive_of_ne {s : Chats} {c : Conversation}
    (hother : s.activeId ≠ some c.id) (hc : c ∈ s.conversations)
    (f : Conversation -> Conversation) :
    c ∈ (s.updateActive f).conversations := by
  rcases hactive : s.activeId with _ | id
  · simpa [updateActive, hactive] using hc
  · rw [updateActive_conversations hactive]
    refine List.mem_map.mpr ⟨c, hc, if_neg fun hid => hother ?_⟩
    rw [hactive, hid]

theorem mem_stored {loaded : List Conversation} {c : Conversation} :
    c ∈ stored loaded <-> c ∈ loaded ∧ c.messages ≠ [] := by
  unfold stored
  rw [List.mem_insertionSort, List.mem_filter]
  simp [isDraft]

theorem mem_restoreFrom {loaded : List Conversation} {c : Conversation}
    (hc : c ∈ loaded) (hne : c.messages ≠ []) (now : Millis) (s : Chats) :
    c ∈ (s.restoreFrom loaded now).conversations := by
  have hstored : c ∈ stored loaded := mem_stored.mpr ⟨hc, hne⟩
  unfold restoreFrom
  split
  · rename_i hnil
    rw [hnil] at hstored
    cases hstored
  · exact hstored

/-- What has messages after a restore is what was loaded. -/
theorem of_mem_restoreFrom {loaded : List Conversation} {c : Conversation}
    {now : Millis} {s : Chats}
    (hc : c ∈ (s.restoreFrom loaded now).conversations)
    (hne : c.messages ≠ []) : c ∈ loaded := by
  unfold restoreFrom at hc
  split at hc
  · rw [List.mem_singleton.mp hc] at hne
    exact absurd rfl hne
  · exact (mem_stored.mp hc).left

/-!
# Identifiers of this launch
-/

structure DrawnFrom (n : Uuid) (s : Chats) : Prop where
  ids : forall c, c ∈ s.conversations -> n ≤ c.id
  supply : n ≤ s.nextUuid

theorem DrawnFrom.carries {n : Uuid} {s s' : Chats} (h : DrawnFrom n s)
    (hcarries : Carries s s') : DrawnFrom n s' where
  ids c hc := by
    rcases hcarries.carried c hc with ⟨c0, hc0, hid, _⟩ | ⟨hnew, _⟩
    · rw [← hid]
      exact h.ids c0 hc0
    · exact h.supply.trans hnew
  supply := h.supply.trans hcarries.supply

theorem DrawnFrom.draw {n : Uuid} {s : Chats} (h : DrawnFrom n s) :
    DrawnFrom n s.draw :=
  h.carries (carries_draw s)

theorem DrawnFrom.updateActive {n : Uuid} {s : Chats} (h : DrawnFrom n s)
    {f : Conversation -> Conversation} (hid : forall c, (f c).id = c.id) :
    DrawnFrom n (s.updateActive f) where
  ids c hc := by
    rcases hactive : s.activeId with _ | id
    · rw [Chats.updateActive, hactive] at hc
      exact h.ids c hc
    · rw [updateActive_conversations hactive] at hc
      rcases List.mem_map.mp hc with ⟨c0, hc0, rfl⟩
      split
      · rw [hid]
        exact h.ids c0 hc0
      · exact h.ids c0 hc0
  supply := by
    rw [updateActive_nextUuid]
    exact h.supply

end Chats

namespace ChatRepository

open Library PrivacyRouter Chats ConversationStore

/-!
# Before the restore
-/

section DrawnFrom

variable {n : Uuid} {s s' : App}

theorem drawnFrom_appendPrompt {chats : Chats} (h : DrawnFrom n chats)
    (prompt : Text) (now : Millis) : DrawnFrom n (appendPrompt prompt now chats) :=
  h.draw.updateActive fun _ => rfl

theorem drawnFrom_writeReply {chats : Chats} (h : DrawnFrom n chats)
    (text : Text) (now : Millis) : DrawnFrom n (writeReply text now chats) :=
  h.updateActive (by simp)

theorem beginSend_drawnFrom (h : DrawnFrom n s.chats) (prompt : Text)
    (useCloud : Bool) (contextTokens : Int) (loaded : Bool) (now : Millis) :
    DrawnFrom n (beginSend prompt useCloud contextTokens loaded now s).chats := by
  have hopened : DrawnFrom n (openSend now s).chats :=
    (h.carries (carries_ensureActive _ _)).draw
  unfold beginSend
  split
  · exact hopened
  · split
    · exact drawnFrom_appendPrompt hopened _ _
    · exact hopened

theorem endSummary_drawnFrom (h : DrawnFrom n s.chats) (call : CallId)
    (send : SendCall) (active : Conversation) (completion : Option Text)
    (now : Millis) :
    DrawnFrom n (endSummary call send active completion now s).chats :=
  drawnFrom_appendPrompt (h.draw.updateActive (by simp)) _ _

theorem resume_drawnFrom {call : CallId} {input : Input} {now : Millis}
    (h : DrawnFrom n s.chats) (hinput : input ≠ Input.loaded)
    (hresume : resume call input now s = some s') : DrawnFrom n s'.chats := by
  unfold resume at hresume
  split at hresume <;> cases hresume
  · exact h
  · exact absurd rfl hinput
  · exact h
  · exact endSummary_drawnFrom h call _ _ _ _
  · exact endSummary_drawnFrom h call _ _ none _
  · exact h.draw.updateActive (by simp)
  · exact h
  · exact drawnFrom_writeReply h _ _
  · rw [endStream_chats]
    exact drawnFrom_writeReply h _ _
  · rw [endStream_chats]
    exact drawnFrom_writeReply h _ _
  · rw [endStream_chats]
    exact drawnFrom_writeReply h _ _
  all_goals exact h

def DeliversLoad : Event -> Prop
  | Event.resume _ Input.loaded _ => True
  | _ => False

theorem step_drawnFrom {e : Event} (h : DrawnFrom n s.chats)
    (hload : ¬ DeliversLoad e) (hstep : step s e = some s') :
    DrawnFrom n s'.chats := by
  cases e with
  | restore =>
      simp only [step] at hstep
      split at hstep <;> cases hstep <;> exact h
  | send prompt useCloud contextTokens loaded now =>
      cases hstep
      exact beginSend_drawnFrom h _ _ _ _ _
  | newConversation now =>
      cases hstep
      exact h.carries (carries_newConversation _ _)
  | selectConversation id =>
      cases hstep
      exact h.carries (carries_selectConversation _ _)
  | deleteConversation id now =>
      cases hstep
      rw [persist_chats]
      exact h.carries (carries_deleteConversation _ _ _)
  | renameConversation id title =>
      simp only [step] at hstep
      split at hstep <;> cases hstep
      · rw [persist_chats]
        exact h.carries (carries_renameConversation _ _ _)
      · exact h
  | resume call input now =>
      refine resume_drawnFrom h ?_ hstep
      intro heq
      subst heq
      exact hload trivial
  | _ =>
      cases hstep
      exact h

end DrawnFrom

@[simp] theorem persist_restored (call : CallId) (cancellable : Bool) (s : App) :
    (persist call cancellable s).restored = s.restored := by
  unfold persist
  split <;> rfl

theorem endStream_restored (call : CallId) (outcome : StreamingOutcome Flow)
    (builder : Text) (note : Option Text) (now : Millis) (s : App) :
    (endStream call outcome builder note now s).restored = s.restored :=
  persist_restored _ _ _

theorem beginSend_restored (prompt : Text) (useCloud : Bool)
    (contextTokens : Int) (loaded : Bool) (now : Millis) (s : App) :
    (beginSend prompt useCloud contextTokens loaded now s).restored =
      s.restored := by
  unfold beginSend
  split
  · rfl
  · split <;> rfl

theorem step_unrestored {s s' : App} {e : Event} (hstep : step s e = some s')
    (hs' : s'.restored = false) : s.restored = false ∧ ¬ DeliversLoad e := by
  cases e with
  | restore =>
      simp only [step] at hstep
      split at hstep <;> cases hstep <;> exact ⟨hs', id⟩
  | send prompt useCloud contextTokens loaded now =>
      cases hstep
      rw [beginSend_restored] at hs'
      exact ⟨hs', id⟩
  | deleteConversation id now =>
      cases hstep
      rw [persist_restored] at hs'
      exact ⟨hs', fun h => h⟩
  | renameConversation id title =>
      simp only [step] at hstep
      split at hstep <;> cases hstep
      · rw [persist_restored] at hs'
        exact ⟨hs', fun h => h⟩
      · exact ⟨hs', fun h => h⟩
  | resume call input now =>
      simp only [step, resume] at hstep
      split at hstep <;> cases hstep
      · exact ⟨hs', id⟩
      · cases hs'
      · exact ⟨hs', id⟩
      · exact ⟨hs', id⟩
      · exact ⟨hs', id⟩
      · exact ⟨hs', id⟩
      · exact ⟨hs', id⟩
      · exact ⟨hs', id⟩
      · exact ⟨(endStream_restored _ _ _ _ _ _).symm.trans hs', id⟩
      · exact ⟨(endStream_restored _ _ _ _ _ _).symm.trans hs', id⟩
      · exact ⟨(endStream_restored _ _ _ _ _ _).symm.trans hs', id⟩
      all_goals exact ⟨hs', id⟩
  | _ =>
      cases hstep
      exact ⟨hs', fun h => h⟩

def Apart (n : Uuid) (s : App) : Prop :=
  s.restored = false -> DrawnFrom n s.chats ∧ Held (Sound n) s

theorem Launch.apart (l : Launch) : Apart l.nextUuid l.app := fun _ =>
  ⟨{ ids := by intro c hc; cases hc
     supply := Nat.le_refl _ },
   { files := l.sound
     inFlight := by intro call c k hk; cases hk }⟩

theorem step_apart {n : Uuid} {s s' : App} {e : Event} (h : Apart n s)
    (hstep : step s e = some s') : Apart n s' := by
  intro hs'
  rcases step_unrestored hstep hs' with ⟨hs, hload⟩
  rcases h hs with ⟨hdrawn, hheld⟩
  refine ⟨step_drawnFrom hdrawn hload hstep,
    step_held (Sound.nil n) hheld ?_ hstep⟩
  intro htrue
  rw [hs] at htrue
  cases htrue

/-!
# The restore itself
-/

def MessagesKept (before after : List Conversation) : Prop :=
  forall c, c ∈ before -> forall m, m ∈ c.messages ->
    exists c', c' ∈ after ∧ c'.id = c.id ∧ m ∈ c'.messages

def KeepsMessages (s : App) : Event -> Prop
  | Event.resume call Input.loaded now =>
      forall s', step s (Event.resume call Input.loaded now) = some s' ->
        MessagesKept s.chats.conversations s'.chats.conversations
  | _ => True

/-- A delivered list finds no message in memory.  A second restore that was
under way when the first one ended may find chats that it brings itself. -/
def FindsNoMessages (s : App) : Event -> Prop
  | Event.resume call Input.loaded _ =>
      forall loaded,
        s.inFlight call = some (Coroutine.restoring (some loaded)) ->
        forall c, c ∈ s.chats.conversations -> c.messages ≠ [] ->
          s.restored = true ∧
            exists c', c' ∈ loaded ∧ c'.id = c.id ∧ c.messages ⊆ c'.messages
  | _ => True

theorem resume_loaded {s : App} {call : CallId} {loaded : List Conversation}
    (hcall : s.inFlight call = some (Coroutine.restoring (some loaded)))
    (now : Millis) :
    exists s', resume call Input.loaded now s = some s' ∧
      s'.chats = s.chats.restoreFrom loaded now := by
  simp only [resume, hcall]
  exact ⟨_, rfl, rfl⟩

theorem resume_loaded_cases {s s' : App} {call : CallId} {now : Millis}
    (h : resume call Input.loaded now s = some s') :
    exists loaded,
      s.inFlight call = some (Coroutine.restoring (some loaded)) ∧
      s'.chats = s.chats.restoreFrom loaded now := by
  unfold resume at h
  split at h <;> cases h <;> rename_i hinput <;> try cases hinput
  all_goals exact ⟨_, by assumption, rfl⟩

theorem messagesKept_restoreFrom {loaded : List Conversation} {now : Millis}
    {s : Chats} :
    MessagesKept s.conversations (s.restoreFrom loaded now).conversations <->
      MessagesKept s.conversations loaded := by
  constructor
  · intro h c hc m hm
    rcases h c hc m hm with ⟨c', hc', hid, hm'⟩
    exact ⟨c', of_mem_restoreFrom hc' (List.ne_nil_of_mem hm'), hid, hm'⟩
  · intro h c hc m hm
    rcases h c hc m hm with ⟨c', hc', hid, hm'⟩
    exact ⟨c', mem_restoreFrom hc' (List.ne_nil_of_mem hm') now s, hid, hm'⟩

theorem messagesKept_iff {n : Uuid} {before loaded : List Conversation}
    (hloaded : Sound n loaded) :
    MessagesKept before loaded <->
      forall c, c ∈ before -> c.messages ≠ [] ->
        exists c', c' ∈ loaded ∧ c'.id = c.id ∧ c.messages ⊆ c'.messages := by
  constructor
  · intro h c hc hne
    rcases List.exists_mem_of_ne_nil _ hne with ⟨m, hm⟩
    rcases h c hc m hm with ⟨c', hc', hid, _⟩
    refine ⟨c', hc', hid, fun m' hm' => ?_⟩
    rcases h c hc m' hm' with ⟨c'', hc'', hid', hkept⟩
    -- no two conversations of the list share the identifier
    rwa [List.inj_on_of_nodup_map hloaded.nodup hc' hc'' (hid.trans hid'.symm)]
  · intro h c hc m hm
    rcases h c hc (List.ne_nil_of_mem hm) with ⟨c', hc', hid, hkept⟩
    exact ⟨c', hc', hid, hkept hm⟩

theorem keepsMessages_iff {n : Uuid} {s : App} (h : Apart n s) (hs : WellFormed s)
    (e : Event) : KeepsMessages s e <-> FindsNoMessages s e := by
  cases e with
  | resume call input now =>
      cases input with
      | loaded =>
          constructor
          · intro hkeeps loaded hcall c hc hne
            rcases resume_loaded hcall now with ⟨s', hs', hchats⟩
            have hkept := hkeeps s' hs'
            rw [hchats, messagesKept_restoreFrom,
              messagesKept_iff (hs.held.inFlight call _ loaded hcall rfl)] at hkept
            rcases hkept c hc hne with ⟨c', hc', hid, hmessages⟩
            refine ⟨?_, c', hc', hid, hmessages⟩
            by_contra hbefore
            -- before the first restore, the list has other identifiers only
            rcases h (Bool.eq_false_of_not_eq_true hbefore) with ⟨hdrawn, hheld⟩
            have hlow := (hheld.inFlight call _ loaded hcall rfl).ids c' hc'
            rw [hid] at hlow
            exact absurd (hdrawn.ids c hc) (Nat.not_le.mpr hlow)
          · intro hfinds s' hstep
            rcases resume_loaded_cases hstep with ⟨loaded, hcall, hchats⟩
            rw [hchats, messagesKept_restoreFrom,
              messagesKept_iff (hs.held.inFlight call _ loaded hcall rfl)]
            exact fun c hc hne => (hfinds loaded hcall c hc hne).right
      | _ => exact Iff.rfl
  | _ => exact Iff.rfl

/-!
# What was stored
-/

/-- The repository, with what was on disk when the load of each restore ran. -/
structure Loads where
  app : App
  found : CallId -> List Conversation := fun _ => []

def Loads.step (s : Loads) (e : Event) : Option Loads :=
  (ChatRepository.step s.app e).map fun app =>
    { app := app
      found :=
        match e with
        | Event.resume call (Input.loadRan _) _ =>
            Function.update s.found call (storedIn s.app.files)
        | _ => s.found }

/-- Every chat that was on disk is in memory once its restore has completed. -/
def BringsStored (s : Loads) : Event -> Prop
  | Event.resume call Input.loaded now =>
      forall s', step s.app (Event.resume call Input.loaded now) = some s' ->
        forall c, c ∈ s.found call -> c.messages ≠ [] ->
          c ∈ s'.chats.conversations
  | _ => True

/-- The load that is delivered returned every chat that was on disk. -/
def ReturnsStored (s : Loads) : Event -> Prop
  | Event.resume call Input.loaded _ =>
      forall loaded,
        s.app.inFlight call = some (Coroutine.restoring (some loaded)) ->
        forall c, c ∈ s.found call -> c.messages ≠ [] -> c ∈ loaded
  | _ => True

/-- No operation of a load fails, and the first file there is can be read if any
can. -/
def LoadsUndisturbed (s : App) : Event -> Prop
  | Event.resume _ (Input.loadRan faults) _ =>
      FirstFileReadable s.files ∧
        Program.Along exec (fun o fault _ => fault.hits o = false) load faults
          s.files
  | _ => True

theorem bringsStored_iff (s : Loads) (e : Event) :
    BringsStored s e <-> ReturnsStored s e := by
  cases e with
  | resume call input now =>
      cases input with
      | loaded =>
          constructor
          · intro hbrings loaded hcall c hc hne
            rcases resume_loaded hcall now with ⟨s', hs', hchats⟩
            have hmem := hbrings s' hs' c hc hne
            rw [hchats] at hmem
            exact of_mem_restoreFrom hmem hne
          · intro hreturns s' hstep c hc hne
            rcases resume_loaded_cases hstep with ⟨loaded, hcall, hchats⟩
            rw [hchats]
            exact mem_restoreFrom (hreturns loaded hcall c hc hne) hne now _
      | _ => exact Iff.rfl
  | _ => exact Iff.rfl

theorem resume_restoring {s s' : App} {call : CallId} {input : Input} {now : Millis}
    {loaded : List Conversation} (h : resume call input now s = some s')
    (hcall : s'.inFlight call = some (Coroutine.restoring (some loaded))) :
    exists faults, input = Input.loadRan faults ∧
      loaded = (Program.run exec load faults s.files).1 := by
  have hpersisted : forall (cancellable : Bool) (s' : App),
      (persist call cancellable s').inFlight call ≠
        some (Coroutine.restoring (some loaded)) := by
    intro cancellable s' hs'
    unfold persist at hs'
    split at hs'
    · cases (App.suspend_inFlight_self call _ _).symm.trans hs'
    · cases (App.finish_inFlight_self call _).symm.trans hs'
  unfold resume at h
  split at h
  all_goals cases h
  all_goals
    first
    | cases (App.finish_inFlight_self call _).symm.trans hcall
    | exact absurd hcall (hpersisted _ _)
    | cases (App.suspend_inFlight_self call _ _).symm.trans hcall
  exact ⟨_, rfl, rfl⟩

theorem step_restoring {s s' : App} {e : Event} {call : CallId}
    {loaded : List Conversation} (hstep : step s e = some s')
    (hcall : s'.inFlight call = some (Coroutine.restoring (some loaded))) :
    (s.inFlight call = some (Coroutine.restoring (some loaded)) ∧
      forall faults now, e ≠ Event.resume call (Input.loadRan faults) now) ∨
    exists faults now, e = Event.resume call (Input.loadRan faults) now ∧
      loaded = (Program.run exec load faults s.files).1 := by
  by_cases hresumes : exists other input now, e = Event.resume other input now
  · rcases hresumes with ⟨other, input, now, rfl⟩
    by_cases hsame : call = other
    · subst hsame
      rcases resume_restoring hstep hcall with ⟨faults, rfl, hran⟩
      exact Or.inr ⟨faults, now, rfl, hran⟩
    · rcases step_touches hstep with ⟨os, _, htouches⟩
      rw [htouches.others call hsame] at hcall
      refine Or.inl ⟨hcall, fun faults now heq => ?_⟩
      cases heq
      exact hsame rfl
  · have hother : forall other input now, e ≠ Event.resume other input now :=
      fun other input now heq => hresumes ⟨other, input, now, heq⟩
    rcases step_new hother hstep hcall with hbefore | ⟨_, hnew⟩
    · exact Or.inl ⟨hbefore, fun faults now => hother call _ now⟩
    · cases hnew

def LoadsExact (s : Loads) : Prop :=
  forall call loaded,
    s.app.inFlight call = some (Coroutine.restoring (some loaded)) ->
      loaded = s.found call

theorem Loads.step_app {s s' : Loads} {e : Event} (h : s.step e = some s') :
    ChatRepository.step s.app e = some s'.app := by
  rcases Option.map_eq_some_iff.mp h with ⟨app, happ, rfl⟩
  exact happ

theorem LoadsExact.returnsStored {s : Loads} (h : LoadsExact s) (e : Event) :
    ReturnsStored s e := by
  unfold ReturnsStored
  split
  · intro loaded hcall c hc _
    rwa [h _ loaded hcall]
  · trivial

theorem step_loadsExact {s s' : Loads} {e : Event} (h : LoadsExact s)
    (he : LoadsUndisturbed s.app e) (hstep : s.step e = some s') :
    LoadsExact s' := by
  rcases Option.map_eq_some_iff.mp hstep with ⟨app, happ, rfl⟩
  intro call loaded hcall
  rcases step_restoring happ hcall with ⟨hbefore, hother⟩ | ⟨faults, now, rfl, hran⟩
  · rw [h call loaded hbefore]
    split
    · rename_i other faults now
      by_cases hsame : call = other
      · rw [hsame] at hother
        exact absurd rfl (hother faults now)
      · exact (Function.update_of_ne hsame _ _).symm
    · rfl
  · show loaded = Function.update s.found call (storedIn s.app.files) call
    rw [hran, Function.update_self]
    exact run_load_undisturbed he.left he.right

/-!
# Sends begun before it
-/

theorem resume_stays {s s' : App} {call : CallId} {input : Input} {now : Millis}
    (hinput : input ≠ Input.loaded) (h : resume call input now s = some s')
    {c : Conversation} (hc : c ∈ s.chats.conversations)
    (hother : s.chats.activeId ≠ some c.id) : c ∈ s'.chats.conversations := by
  have hsummary : forall send active completion,
      c ∈ (endSummary call send active completion now s).chats.conversations := by
    intro send active completion
    have hnoted := mem_updateActive_of_ne (s := s.chats.draw) hother hc
      (History.withSummary completion active)
    refine mem_updateActive_of_ne (s := (s.chats.draw.updateActive
      (History.withSummary completion active)).draw) ?_ hnoted _
    exact fun hid => hother ((updateActive_activeId s.chats.draw _).symm.trans hid)
  unfold resume at h
  split at h <;> cases h
  · exact hc
  · exact absurd rfl hinput
  · exact hc
  · exact hsummary _ _ _
  · exact hsummary _ _ _
  · exact mem_updateActive_of_ne (s := s.chats.draw) hother hc _
  · exact hc
  · exact mem_updateActive_of_ne hother hc _
  · rw [endStream_chats]
    exact mem_updateActive_of_ne hother hc _
  · rw [endStream_chats]
    exact mem_updateActive_of_ne hother hc _
  · rw [endStream_chats]
    exact mem_updateActive_of_ne hother hc _
  all_goals exact hc

theorem resume_quiet {s s' : App} {call : CallId} {input : Input} {now : Millis}
    (hinput : input ≠ Input.loaded) (h : resume call input now s = some s')
    (hwrite : writeOf (s.inFlight call) input = Write.nothing) :
    s'.chats = s.chats := by
  unfold resume at h
  split at h <;> cases h <;> simp_all [writeOf]
  all_goals rfl

def BegunBefore (call : CallId) (loaded : List Conversation) (s : App) : Prop :=
  exists earlier later, s.log = earlier ++ Observation.restored loaded :: later ∧
    Observation.begun call ∈ earlier

def IsStored (loaded : List Conversation) (id : Uuid) : Prop :=
  exists c, c ∈ loaded ∧ c.messages ≠ [] ∧ c.id = id

/-- A send begun before a restore does not write while a conversation that the
restore brought is open. -/
def AvoidsStored (s : App) : Event -> Prop
  | Event.resume call input _ =>
      forall loaded, BegunBefore call loaded s ->
      writeOf (s.inFlight call) input ≠ Write.nothing ->
      forall id, s.chats.activeId = some id -> ¬ IsStored loaded id
  | _ => True

/-- A send begun before a restore changes no conversation that it brought. -/
def LeavesStored (s : App) : Event -> Prop
  | Event.resume call input now =>
      forall loaded, BegunBefore call loaded s -> input ≠ Input.loaded ->
      forall s', step s (Event.resume call input now) = some s' ->
      forall c, c ∈ s.chats.conversations -> IsStored loaded c.id ->
        c ∈ s'.chats.conversations
  | _ => True

theorem leavesStored_of_avoidsStored {s : App} {e : Event}
    (h : AvoidsStored s e) : LeavesStored s e := by
  cases e with
  | resume call input now =>
      intro loaded hbefore hinput s' hstep c hc hstored
      rcases hwrite : writeOf (s.inFlight call) input with _ | _ | _ | _
      · rw [resume_quiet hinput hstep hwrite]
        exact hc
      all_goals
        refine resume_stays hinput hstep hc fun hactive => ?_
        exact h loaded hbefore (by rw [hwrite]; simp) c.id hactive hstored
  | _ => trivial

/-!
# Runs
-/

/-- Restoring loses no message in exactly the runs where a delivered list finds none
that it does not bring itself, and brings what was stored in exactly the runs where
each load returns it, as a load does of which nothing fails; later writes of a send
begun before it leave the restored conversations alone as long as none of them is
open. -/
theorem restore_lossless (l : Launch) (es : List Event) :
    (AllSteps step KeepsMessages l.app es <->
      AllSteps step FindsNoMessages l.app es) ∧
    (AllSteps Loads.step BringsStored { app := l.app } es <->
      AllSteps Loads.step ReturnsStored { app := l.app } es) ∧
    (AllSteps step LoadsUndisturbed l.app es ->
      AllSteps Loads.step ReturnsStored { app := l.app } es) ∧
    (AllSteps step AvoidsStored l.app es ->
      AllSteps step LeavesStored l.app es) := by
  have hstep : forall s e s', Apart l.nextUuid s ∧ WellFormed s ->
      step s e = some s' -> Apart l.nextUuid s' ∧ WellFormed s' :=
    fun s e s' h hs => ⟨step_apart h.left hs, step_wellFormed h.right hs⟩
  have hstart : Apart l.nextUuid l.app ∧ WellFormed l.app := ⟨l.apart, l.wellFormed⟩
  refine ⟨?_, ?_, ?_, ?_⟩
  · exact allSteps_iff_of_invariant (fun s e s' h _ => hstep s e s' h)
      (fun s e h => keepsMessages_iff h.left h.right e) hstart
  · exact allSteps_congr fun s e _ => bringsStored_iff s e
  · intro h
    have hnone : LoadsExact { app := l.app } := fun call loaded hcall => by cases hcall
    have hloads : AllSteps Loads.step (fun s e => LoadsUndisturbed s.app e)
        { app := l.app } es :=
      AllSteps.lift (f := Loads.app) (fun _ _ _ => Loads.step_app) h
    exact allSteps_of_invariant (fun s e s' => step_loadsExact)
      (fun s e hexact _ => hexact.returnsStored e) hnone hloads
  · exact AllSteps.mono fun s e _ => leavesStored_of_avoidsStored

def storedChat : Conversation where
  id := 0
  title := "one".toList
  messages := [{ id := 1, role := Role.USER, text := "one".toList, timestamp := 1 }]
  updatedAt := 1

def returning : Launch where
  files :=
    { canonical := some (ConversationStore.Content.sealed
        ConversationStore.StoreFile.canonical [storedChat]) }
  nextUuid := 2
  sound := by
    intro f c hc
    cases f <;> cases hc
    intro name l hl
    cases hl
    exact ⟨by decide, by decide, by decide⟩

def sentEarly : List Event :=
  [Event.restore, Event.send "two".toList false 4096 false 2,
   Event.resume 0 (Input.loadRan []) 3, Event.resume 0 Input.loaded 4,
   Event.resume 1 Input.privacyRead 5]

def readFails : List Event :=
  [Event.restore,
   Event.resume 0 (Input.loadRan [Fault.none, Fault.decryption]) 3,
   Event.resume 0 Input.loaded 4]

/-- The early message is lost, and its reply goes to the stored chat; where the
history cannot be read, the stored chat is missing. -/
theorem restore_lossless_fails :
    ¬ AllSteps step KeepsMessages returning.app sentEarly ∧
    ¬ AllSteps step LeavesStored returning.app sentEarly ∧
    ¬ AllSteps Loads.step BringsStored { app := returning.app } readFails := by
  refine ⟨?_, ?_, ?_⟩
  · intro h
    have hkept := (((h.right _ rfl).right _ rfl).right _ rfl).left _ rfl
    unfold MessagesKept at hkept
    revert hkept
    decide
  · intro h
    have hleft := ((((h.right _ rfl).right _ rfl).right _ rfl).right _ rfl).left
      [storedChat] ⟨[Observation.begun 1], [], rfl, by decide⟩ (by decide) _ rfl
      storedChat (by decide) ⟨storedChat, by decide, by decide, rfl⟩
    revert hleft
    decide
  · intro h
    have hbrought := ((h.right _ rfl).right _ rfl).left _ rfl storedChat
      (by decide) (by decide)
    revert hbrought
    decide

end ChatRepository
end DomainAI
