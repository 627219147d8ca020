import DomainAI.Data.Calls
import DomainAI.Data.ConversationList
import DomainAI.Data.CrashSafety

/-!
# Ended turns on disk

Only some operations write the history, and a save writes what it found in memory
when it was begun.  What is on disk once everything has come to rest is the list
whose save ran last.
-/

namespace DomainAI
namespace Chats

theorem snapshot_newConversation (s : Chats) (now : Millis) :
    (s.newConversation now).snapshot = s.snapshot := by
  unfold newConversation
  split
  · rfl
  · simp [snapshot, fresh, isDraft]

theorem snapshot_selectConversation (s : Chats) (id : Uuid) :
    (s.selectConversation id).snapshot = s.snapshot := by
  unfold selectConversation
  split
  · rfl
  · simp only [snapshot, List.filter_filter]
    apply List.filter_congr
    intro c _
    cases isDraft c <;> simp

theorem snapshot_restoreFrom (s : Chats) (loaded : List Conversation)
    (now : Millis) :
    (s.restoreFrom loaded now).snapshot.Perm
      (loaded.filter fun c => !isDraft c) := by
  have hperm : (stored loaded).Perm (loaded.filter fun c => !isDraft c) :=
    List.perm_insertionSort _ _
  unfold restoreFrom
  split
  · rename_i hnil
    rw [hnil] at hperm
    rw [List.nil_perm.mp hperm]
    exact List.Perm.refl _
  · have hall : (stored loaded).filter (fun c => !isDraft c) = stored loaded := by
      apply List.filter_eq_self.mpr
      intro c hc
      exact not_isDraft (mem_stored.mp hc).right
    change ((stored loaded).filter fun c => !isDraft c).Perm _
    rw [hall]
    exact hperm

end Chats

namespace ChatRepository

open Library App Chats ConversationStore

/-!
# Saves that wait
-/

def Coroutine.waiting : Coroutine -> Option (List Conversation)
  | Coroutine.saving _ snapshot => some snapshot
  | _ => none

/-- The call is a send that has changed the chats and will save them. -/
def Coroutine.owes : Coroutine -> Bool
  | Coroutine.readingPrivacy _ _ => true
  | Coroutine.streaming _ _ => true
  | _ => false

def Coroutine.isRestoring : Coroutine -> Bool
  | Coroutine.restoring _ => true
  | _ => false

def Coroutine.leavesPrompt : Coroutine -> Bool
  | Coroutine.summarizing _ _ _ => true
  | Coroutine.readingPrivacy _ _ => true
  | _ => false

def awaits (s : App) (call : CallId) : Option (List Conversation) :=
  (s.inFlight call).bind Coroutine.waiting

/-- The application, with the saves that wait in the order they were begun. -/
structure Queued where
  app : App
  waiting : List (CallId × List Conversation) := []

def taken (s s' : App) (call : CallId) : List (CallId × List Conversation) :=
  match awaits s call, awaits s' call with
  | none, some snapshot => [(call, snapshot)]
  | _, _ => []

def queuedStep (q : Queued) (e : Event) : Option Queued :=
  (step q.app e).map fun app =>
    { app := app
      waiting := q.waiting.filter (fun w => (awaits app w.1).isSome) ++
        taken q.app app (callOf q.app e) }

/-- Every save succeeds, and nothing but a send is cancelled. -/
def Undisturbed (q : Queued) : Event -> Prop
  | Event.resume call (Input.saved faults) _ =>
      forall snapshot, awaits q.app call = some snapshot ->
        saveReturns snapshot faults q.app.files = true
  | Event.resume call Input.cancelled _ => awaits q.app call = none
  | _ => True

/-- Saves run in the order in which they were begun, and no send is cancelled
before its reply is seeded. -/
def InOrder (q : Queued) : Event -> Prop
  | Event.resume call (Input.saved _) _ =>
      q.waiting.head?.map Prod.fst = some call
  | Event.resume call Input.cancelled _ =>
      forall c, q.app.inFlight call = some c -> c.leavesPrompt = false
  | _ => True

/-!
# What a step does to what is saved
-/

inductive Effect (s : App) (e : Event) (s' : App) : Prop where
  | quiet (hsnapshot : s'.chats.snapshot = s.chats.snapshot)
      (hfiles : s'.files = s.files)
      (hbefore : awaits s (callOf s e) = none)
      (hafter : awaits s' (callOf s e) = none)
      (howes : forall c, s.inFlight (callOf s e) = some c -> c.owes = false)
  | owes {c : Coroutine} (hc : s'.inFlight (callOf s e) = some c)
      (howes : c.owes = true) (hfiles : s'.files = s.files)
      (hbefore : awaits s (callOf s e) = none)
  | takes (hfiles : s'.files = s.files) (hbefore : awaits s (callOf s e) = none)
      (hafter : awaits s' (callOf s e) = some s'.chats.snapshot)
  | saves {call : CallId} {snapshot : List Conversation} {faults : List Fault}
      {now : Millis}
      (hevent : e = Event.resume call (Input.saved faults) now)
      (hbefore : awaits s call = some snapshot)
      (hs' : s' = (s.onFiles (saveFiles snapshot faults s.files)).finish call)

section Effect

variable {s s' : App} {e : Event}

theorem awaits_of_inFlight {call : CallId} {c : Coroutine}
    (h : s.inFlight call = some c) : awaits s call = c.waiting := by
  rw [awaits, h, Option.bind_some]

theorem awaits_of_none {call : CallId} (h : s.inFlight call = none) :
    awaits s call = none := by
  rw [awaits, h, Option.bind_none]

theorem Numbered.next_idle (h : Numbered s) : s.inFlight s.nextCall = none := by
  cases hcall : s.inFlight s.nextCall with
  | none => rfl
  | some c => exact absurd (h.inFlight _ _ hcall) (Nat.lt_irrefl _)

theorem Effect.of_begun (h : Numbered s) (hcall : callOf s e = s.nextCall)
    (hsnapshot : s'.chats.snapshot = s.chats.snapshot)
    (hfiles : s'.files = s.files)
    (hafter : forall c, s'.inFlight s.nextCall = some c -> c.waiting = none) :
    Effect s e s' := by
  apply Effect.quiet hsnapshot hfiles
  · rw [hcall]
    exact awaits_of_none h.next_idle
  · rw [hcall]
    cases hnext : s'.inFlight s.nextCall with
    | none => exact awaits_of_none hnext
    | some c =>
        rw [awaits_of_inFlight hnext]
        exact hafter c hnext
  · intro c hc
    rw [hcall, h.next_idle] at hc
    cases hc

theorem snapshot_ensureActive (chats : Chats) (now : Millis) :
    (ensureActive now chats).snapshot = chats.snapshot := by
  unfold ensureActive
  split
  · exact snapshot_newConversation chats now
  · rfl

theorem beginSend_effect (h : Numbered s) (prompt : Text) (useCloud : Bool)
    (contextTokens : Int) (loaded : Bool) (now : Millis) :
    Effect s (Event.send prompt useCloud contextTokens loaded now)
      (beginSend prompt useCloud contextTokens loaded now s) := by
  have hopened : (openSend now s).chats.snapshot = s.chats.snapshot :=
    snapshot_ensureActive s.chats now
  unfold beginSend
  split
  · refine Effect.of_begun h rfl hopened rfl ?_
    intro c hc
    rw [show (openSend now s).inFlight s.nextCall = none from h.next_idle] at hc
    cases hc
  · split
    · exact Effect.owes (App.suspend_inFlight_self _ _ _) rfl rfl
        (awaits_of_none h.next_idle)
    · refine Effect.of_begun h rfl hopened rfl ?_
      intro c hc
      rw [App.suspend_inFlight_self] at hc
      cases hc
      rfl

theorem Effect.of_persist {s0 : App} {call : CallId} {cancellable : Bool}
    (hcall : callOf s e = call) (hrestored : s0.restored = true)
    (hfiles : s0.files = s.files) (hbefore : awaits s call = none) :
    Effect s e (persist call cancellable s0) := by
  rw [persist, if_pos hrestored]
  rw [← hcall] at hbefore ⊢
  refine Effect.takes hfiles hbefore ?_
  rw [awaits_of_inFlight (App.suspend_inFlight_self _ _ _)]
  rfl

theorem resume_effect (hrestored : s.restored = true)
    (hloaded : forall call c, s.inFlight call = some c -> c.isRestoring = false)
    {call : CallId} {input : Input} {now : Millis}
    (hcancelled : input = Input.cancelled -> awaits s call = none ∧
      forall c, s.inFlight call = some c -> c.leavesPrompt = false)
    (h : resume call input now s = some s') :
    Effect s (Event.resume call input now) s' := by
  unfold resume at h
  split at h
  · rename_i hcall
    cases hloaded call _ hcall
  · rename_i hcall
    cases hloaded call _ hcall
  · rename_i hcall
    cases hloaded call _ hcall
  · rename_i hcall
    cases h
    exact Effect.owes (App.suspend_inFlight_self _ _ _) rfl rfl
      (awaits_of_inFlight hcall)
  · rename_i hcall
    cases (hcancelled rfl).right _ hcall
  · rename_i hcall
    cases h
    exact Effect.owes (App.suspend_inFlight_self _ _ _) rfl rfl
      (awaits_of_inFlight hcall)
  · rename_i hcall
    cases (hcancelled rfl).right _ hcall
  · rename_i hcall
    cases h
    exact Effect.owes (App.suspend_inFlight_self _ _ _) rfl rfl
      (awaits_of_inFlight hcall)
  · rename_i hcall
    cases h
    exact Effect.of_persist rfl hrestored rfl (awaits_of_inFlight hcall)
  · rename_i hcall
    cases h
    exact Effect.of_persist rfl hrestored rfl (awaits_of_inFlight hcall)
  · rename_i hcall
    cases h
    exact Effect.of_persist rfl hrestored rfl (awaits_of_inFlight hcall)
  · rename_i hcall
    cases h
    exact Effect.saves rfl (awaits_of_inFlight hcall) rfl
  · rename_i hcall
    have hwaits := (hcancelled rfl).left
    rw [awaits_of_inFlight hcall] at hwaits
    cases hwaits
  all_goals
    cases h
    try
      rename_i hcall
      refine Effect.quiet rfl rfl (awaits_of_inFlight hcall) ?_ ?_
      · exact awaits_of_none (App.finish_inFlight_self _ _)
      · intro c hc
        cases hcall.symm.trans hc
        rfl

theorem step_effect (hrestored : s.restored = true) (hnumbered : Numbered s)
    (hloaded : forall call c, s.inFlight call = some c -> c.isRestoring = false)
    (hcancelled : forall call now, e = Event.resume call Input.cancelled now ->
      awaits s call = none ∧
        forall c, s.inFlight call = some c -> c.leavesPrompt = false)
    (h : step s e = some s') : Effect s e s' := by
  have hidle : forall s0 : App, s0.inFlight = s.inFlight ->
      forall c, s0.inFlight s.nextCall = some c -> c.waiting = none := by
    intro s0 hsame c hc
    rw [hsame, hnumbered.next_idle] at hc
    cases hc
  cases e with
  | restore =>
      simp only [step, hrestored, if_true, Option.some_inj] at h
      rw [← h]
      exact Effect.of_begun hnumbered rfl rfl rfl (hidle s rfl)
  | send prompt useCloud contextTokens loaded now =>
      cases h
      exact beginSend_effect hnumbered _ _ _ _ _
  | newConversation now =>
      cases h
      exact Effect.of_begun hnumbered rfl (snapshot_newConversation s.chats now)
        rfl (hidle _ rfl)
  | selectConversation id =>
      cases h
      exact Effect.of_begun hnumbered rfl
        (snapshot_selectConversation s.chats id) rfl (hidle _ rfl)
  | deleteConversation id now =>
      cases h
      exact Effect.of_persist rfl hrestored rfl
        (awaits_of_none hnumbered.next_idle)
  | renameConversation id title =>
      simp only [step] at h
      split at h <;> cases h
      · exact Effect.of_persist rfl hrestored rfl
          (awaits_of_none hnumbered.next_idle)
      · exact Effect.of_begun hnumbered rfl rfl rfl (hidle _ rfl)
  | validateProvider config =>
      cases h
      refine Effect.of_begun hnumbered rfl rfl rfl ?_
      intro c hc
      rw [App.suspend_inFlight_self] at hc
      cases hc
      rfl
  | resume call input now =>
      apply resume_effect hrestored hloaded _ h
      intro hinput
      exact hcancelled call now (by rw [hinput])
  | _ =>
      cases h
      exact Effect.of_begun hnumbered rfl rfl rfl (hidle _ rfl)

theorem step_loaded (hrestored : s.restored = true)
    (hloaded : forall call c, s.inFlight call = some c -> c.isRestoring = false)
    (h : step s e = some s') :
    forall call c, s'.inFlight call = some c -> c.isRestoring = false := by
  intro call c hc
  rcases step_suspends h hc with hold | hnew
  · exact hloaded call c hold
  · cases hnew with
    | loading hbefore =>
        rcases hbefore with hunrestored | ⟨l, hcall⟩
        · rw [hrestored] at hunrestored
          cases hunrestored
        · cases hloaded call _ hcall
    | summarizing _ _ _ => rfl
    | ready _ _ _ => rfl
    | afterSummary _ _ => rfl
    | plain hplain => cases c <;> first | rfl | cases hplain

end Effect

/-!
# Runs
-/

def lastSaved (q : Queued) : List Conversation :=
  (q.waiting.getLast?.map Prod.snd).getD (loadResult q.app.files)

/-- What is going to be on disk is what is in memory, unless a send is still
going to save. -/
structure Kept (q : Queued) : Prop where
  restored : q.app.restored = true
  numbered : Numbered q.app
  loaded : forall call c, q.app.inFlight call = some c -> c.isRestoring = false
  distinct : (q.waiting.map Prod.fst).Nodup
  waiting : forall w, w ∈ q.waiting -> awaits q.app w.1 = some w.2
  last : (exists call c, q.app.inFlight call = some c ∧ c.owes = true) ∨
    (lastSaved q).Perm q.app.chats.snapshot

section Step

variable {q q' : Queued} {e : Event}

theorem queuedStep_eq_some (h : queuedStep q e = some q') :
    step q.app e = some q'.app ∧
      q'.waiting = q.waiting.filter (fun w => (awaits q'.app w.1).isSome) ++
        taken q.app q'.app (callOf q.app e) := by
  rcases Option.map_eq_some_iff.mp h with ⟨app, hstep, heq⟩
  rw [← heq]
  exact ⟨hstep, rfl⟩

theorem awaits_others {s s' : App} (h : step s e = some s') {call : CallId}
    (hother : call ≠ callOf s e) : awaits s' call = awaits s call := by
  rcases step_touches h with ⟨_, _, htouches⟩
  rw [awaits, htouches.others call hother, awaits]

theorem Kept.waiting_kept (h : Kept q) (hstep : step q.app e = some q'.app)
    (hbefore : awaits q.app (callOf q.app e) = none) :
    forall w, w ∈ q.waiting -> awaits q'.app w.1 = some w.2 := by
  intro w hw
  have hwaits := h.waiting w hw
  rw [awaits_others hstep]
  · exact hwaits
  · intro hsame
    rw [hsame, hbefore] at hwaits
    cases hwaits

theorem filter_waiting {s : App} {waiting : List (CallId × List Conversation)}
    (h : forall w, w ∈ waiting -> awaits s w.1 = some w.2) :
    waiting.filter (fun w => (awaits s w.1).isSome) = waiting := by
  apply List.filter_eq_self.mpr
  intro w hw
  rw [h w hw]
  rfl

theorem owes_others {s s' : App} (h : step s e = some s')
    (hbefore : forall c, s.inFlight (callOf s e) = some c -> c.owes = false)
    (howes : exists call c, s.inFlight call = some c ∧ c.owes = true) :
    exists call c, s'.inFlight call = some c ∧ c.owes = true := by
  rcases howes with ⟨call, c, hc, howe⟩
  rcases step_touches h with ⟨_, _, htouches⟩
  exists call, c
  constructor
  · rw [htouches.others call]
    · exact hc
    · intro hsame
      rw [hsame] at hc
      rw [hbefore c hc] at howe
      cases howe
  · exact howe

theorem owes_false_of_waiting {c : Coroutine} {snapshot : List Conversation}
    (h : c.waiting = some snapshot) : c.owes = false := by
  cases c <;> first | rfl | cases h

theorem waiting_of_owes {c : Coroutine} (h : c.owes = true) :
    c.waiting = none := by
  cases c <;> first | rfl | cases h

theorem taken_none {s s' : App} {call : CallId} (h : awaits s' call = none) :
    taken s s' call = [] := by
  unfold taken
  rw [h]
  cases awaits s call <;> rfl

theorem Kept.waiting_same (h : Kept q) (hstep : queuedStep q e = some q')
    (hbefore : awaits q.app (callOf q.app e) = none)
    (hafter : awaits q'.app (callOf q.app e) = none) :
    q'.waiting = q.waiting := by
  rcases queuedStep_eq_some hstep with ⟨happ, hwaiting⟩
  rw [hwaiting, taken_none hafter, List.append_nil,
    filter_waiting (h.waiting_kept happ hbefore)]

theorem Kept.waiting_run (h : Kept q) {call : CallId}
    {snapshot : List Conversation} (hwaits : awaits q.app call = some snapshot)
    (hcall : callOf q.app e = call) (hstep : queuedStep q e = some q')
    (hafter : awaits q'.app call = none)
    (hfirst : q.waiting.head?.map Prod.fst = some call) :
    q.waiting = (call, snapshot) :: q'.waiting := by
  rcases queuedStep_eq_some hstep with ⟨happ, hwaiting⟩
  cases hlist : q.waiting with
  | nil =>
      rw [hlist] at hfirst
      cases hfirst
  | cons first rest =>
      rcases first with ⟨other, list⟩
      have hother : other = call := by
        rw [hlist] at hfirst
        exact Option.some_inj.mp hfirst
      have hkept : awaits q.app other = some list :=
        h.waiting (other, list) (by rw [hlist]; exact List.mem_cons_self)
      rw [hother, hwaits] at hkept
      have hdistinct := h.distinct
      rw [hlist, List.map_cons, List.nodup_cons] at hdistinct
      have hrest : forall w, w ∈ rest -> awaits q'.app w.1 = some w.2 := by
        intro w hw
        rw [awaits_others happ]
        · exact h.waiting w (by rw [hlist]; exact List.mem_cons_of_mem _ hw)
        · intro hsame
          rw [hcall, ← hother] at hsame
          exact hdistinct.left (List.mem_map.mpr ⟨w, hw, hsame⟩)
      rw [hwaiting, hcall, taken_none hafter, List.append_nil, hlist,
        List.filter_cons, hother, hafter]
      simp only [Option.isSome_none, Bool.false_eq_true, if_false]
      rw [filter_waiting hrest, ← Option.some_inj.mp hkept]

theorem queuedStep_kept (h : Kept q)
    (hok : Undisturbed q e ∧ InOrder q e) (hstep : queuedStep q e = some q') :
    Kept q' := by
  rcases hok with ⟨hundisturbed, horder⟩
  rcases queuedStep_eq_some hstep with ⟨happ, hwaiting⟩
  have hcancelled : forall call now, e = Event.resume call Input.cancelled now ->
      awaits q.app call = none ∧
        forall c, q.app.inFlight call = some c -> c.leavesPrompt = false := by
    intro call now he
    rw [he] at hundisturbed horder
    exact ⟨hundisturbed, horder⟩
  have hrestored : q'.app.restored = true := by
    cases hr : q'.app.restored with
    | true => rfl
    | false =>
        have hbefore := (step_unrestored happ hr).left
        rw [h.restored] at hbefore
        cases hbefore
  have hnumbered := step_numbered h.numbered happ
  have hloaded := step_loaded h.restored h.loaded happ
  cases step_effect h.restored h.numbered h.loaded hcancelled happ with
  | quiet hsnapshot hfiles hbefore hafter howes =>
      have hsame := h.waiting_same hstep hbefore hafter
      have hlast : lastSaved q' = lastSaved q := by
        rw [lastSaved, hsame, hfiles, lastSaved]
      refine ⟨hrestored, hnumbered, hloaded, ?_, ?_, ?_⟩
      · rw [hsame]
        exact h.distinct
      · rw [hsame]
        exact h.waiting_kept happ hbefore
      · rw [hlast, hsnapshot]
        rcases h.last with howe | hperm
        · exact Or.inl (owes_others happ howes howe)
        · exact Or.inr hperm
  | owes hc howes hfiles hbefore =>
      have hafter : awaits q'.app (callOf q.app e) = none := by
        rw [awaits_of_inFlight hc]
        exact waiting_of_owes howes
      have hsame := h.waiting_same hstep hbefore hafter
      refine ⟨hrestored, hnumbered, hloaded, ?_, ?_, Or.inl ⟨_, _, hc, howes⟩⟩
      · rw [hsame]
        exact h.distinct
      · rw [hsame]
        exact h.waiting_kept happ hbefore
  | takes hfiles hbefore hafter =>
      have hkept := h.waiting_kept happ hbefore
      have htaken : taken q.app q'.app (callOf q.app e) =
          [(callOf q.app e, q'.app.chats.snapshot)] := by
        rw [taken, hbefore, hafter]
      rw [filter_waiting hkept, htaken] at hwaiting
      refine ⟨hrestored, hnumbered, hloaded, ?_, ?_, ?_⟩
      · rw [hwaiting, List.map_append, List.nodup_append]
        refine ⟨h.distinct, List.nodup_singleton _, ?_⟩
        intro call hcall other hother hsame
        rw [List.mem_singleton.mp hother] at hsame
        rcases List.mem_map.mp hcall with ⟨w, hw, hfst⟩
        have hwaits := h.waiting w hw
        rw [hfst, hsame, hbefore] at hwaits
        cases hwaits
      · intro w hw
        rw [hwaiting] at hw
        rcases List.mem_append.mp hw with hold | hnew
        · exact hkept w hold
        · rw [List.mem_singleton.mp hnew]
          exact hafter
      · right
        rw [lastSaved, hwaiting, List.getLast?_concat]
        exact List.Perm.refl _
  | @saves call snapshot faults now hevent hbefore hs' =>
      have hafter : awaits q'.app call = none := by
        rw [hs']
        exact awaits_of_none (App.finish_inFlight_self _ _)
      have hcall : callOf q.app e = call := by
        rw [hevent]
        rfl
      rw [hevent] at hundisturbed horder
      have hsplit := h.waiting_run hbefore hcall hstep hafter horder
      have hnotOwes : forall c, q.app.inFlight (callOf q.app e) = some c ->
          c.owes = false := by
        intro c hc
        rw [hcall] at hc
        rw [awaits_of_inFlight hc] at hbefore
        exact owes_false_of_waiting hbefore
      -- the list just written is the last one, unless another save waits
      have hlast : lastSaved q' = lastSaved q := by
        have hdisk : loadResult q'.app.files = snapshot := by
          rw [hs', loadResult_eq_held]
          exact held_saveFiles (hundisturbed snapshot hbefore)
        rw [lastSaved, lastSaved, hsplit, hdisk]
        cases hrest : q'.waiting.getLast? with
        | none =>
            rw [List.getLast?_eq_none_iff.mp hrest]
            rfl
        | some last => rw [List.getLast?_cons, hrest]; rfl
      have hdistinct := h.distinct
      rw [hsplit, List.map_cons, List.nodup_cons] at hdistinct
      refine ⟨hrestored, hnumbered, hloaded, hdistinct.right, ?_, ?_⟩
      · intro w hw
        rw [awaits_others happ]
        · exact h.waiting w (by rw [hsplit]; exact List.mem_cons_of_mem _ hw)
        · intro hsame
          rw [hcall] at hsame
          exact hdistinct.left (List.mem_map.mpr ⟨w, hw, hsame⟩)
      · rw [hlast, show q'.app.chats = q.app.chats by rw [hs']; rfl]
        rcases h.last with howe | hperm
        · exact Or.inl (owes_others happ hnotOwes howe)
        · exact Or.inr hperm

end Step

def restoreEvents (ran delivered : Millis) : List Event :=
  [Event.restore, Event.resume 0 (Input.loadRan []) ran,
   Event.resume 0 Input.loaded delivered]

theorem restored_kept {l : Launch}
    (hdrafts : forall c, c ∈ loadResult l.files -> c.messages ≠ [])
    {ran delivered : Millis} {s : App}
    (hstart : runEvents step l.app (restoreEvents ran delivered) = some s) :
    Kept { app := s } := by
  have hnumbered := Reachable.numbered ⟨l, _, hstart⟩
  have hidle : forall call, s.inFlight call = none := by
    intro call
    cases hstart
    by_cases hcall : call = 0
    · rw [hcall]
      exact App.finish_inFlight_self _ _
    · rw [App.finish_inFlight_of_ne hcall]
      exact (App.suspend_inFlight_of_ne hcall _ _).trans
        (App.suspend_inFlight_of_ne hcall _ _)
  constructor
  · cases hstart
    rfl
  · exact hnumbered
  · intro call c hc
    rw [hidle call] at hc
    cases hc
  · exact List.nodup_nil
  · intro w hw
    cases hw
  · right
    have hfiles : loadResult s.files = loadResult l.files := by
      rw [loadResult_eq_held, loadResult_eq_held]
      cases hstart
      exact held_of_mem_points_load l.files _
        (Program.run_mem_points exec ConversationStore.load [] l.files)
    have hchats : exists chats : Chats, s.chats =
        chats.restoreFrom (loadResult l.files) delivered := by
      cases hstart
      exact ⟨_, rfl⟩
    rcases hchats with ⟨chats, hchats⟩
    have hall : (loadResult l.files).filter (fun c => !isDraft c) =
        loadResult l.files := by
      apply List.filter_eq_self.mpr
      intro c hc
      exact not_isDraft (hdrafts c hc)
    change (loadResult s.files).Perm s.chats.snapshot
    rw [hfiles, hchats]
    have hperm := snapshot_restoreFrom chats (loadResult l.files) delivered
    rw [hall] at hperm
    exact hperm.symm

/-- If every save succeeds and only sends are cancelled, then what has messages
in memory is on disk once no call is in progress. -/
def EndsOnDisk (s : App) (es : List Event) : Prop :=
  forall q, AllSteps queuedStep Undisturbed { app := s } es ->
    runEvents queuedStep { app := s } es = some q ->
    (forall call, q.app.inFlight call = none) ->
    (loadResult q.app.files).Perm q.app.chats.snapshot

/-- After a restore, and as long as saves run in order and no send is cancelled
before its reply is seeded, whatever has ended is on disk. -/
theorem ended_turns_on_disk {l : Launch}
    (hdrafts : forall c, c ∈ loadResult l.files -> c.messages ≠ [])
    {ran delivered : Millis} {s : App}
    (hstart : runEvents step l.app (restoreEvents ran delivered) = some s)
    {es : List Event} (horder : AllSteps queuedStep InOrder { app := s } es) :
    EndsOnDisk s es := by
  intro q hundisturbed hrun hrest
  have hkept : Kept q :=
    runEvents_invariant (fun _ _ _ hq hok hstep => queuedStep_kept hq hok hstep)
      (restored_kept hdrafts hstart) (hundisturbed.and horder) hrun
  have hwaiting : q.waiting = [] := by
    cases hlist : q.waiting with
    | nil => rfl
    | cons w rest =>
        have hwaits := hkept.waiting w (by rw [hlist]; exact List.mem_cons_self)
        rw [awaits_of_none (hrest w.1)] at hwaits
        cases hwaits
  rcases hkept.last with ⟨call, c, hc, _⟩ | hperm
  · rw [hrest call] at hc
    cases hc
  · rw [lastSaved, hwaiting] at hperm
    exact hperm

theorem returning_noDrafts :
    forall c, c ∈ loadResult returning.files -> c.messages ≠ [] := by
  decide

theorem idle_of_all {s : App} (h : Numbered s)
    (hall : (List.range s.nextCall).all
      (fun call => (s.inFlight call).isNone) = true) :
    forall call, s.inFlight call = none := by
  intro call
  cases hcall : s.inFlight call with
  | none => rfl
  | some c =>
      have hnone := List.all_eq_true.mp hall call
        (List.mem_range.mpr (h.inFlight call c hcall))
      rw [hcall] at hnone
      cases hnone

def wholeTurn : List Event :=
  [Event.send "two".toList false 4096 false 5,
   Event.resume 1 Input.privacyRead 6, Event.resume 1 (Input.delta "ok".toList) 7,
   Event.resume 1 Input.completed 8, Event.resume 1 (Input.saved []) 9]

theorem ended_turns_on_disk_wholeTurn :
    exists s, runEvents step returning.app (restoreEvents 3 4) = some s ∧
      EndsOnDisk s wholeTurn := by
  have hstart : runEvents step returning.app (restoreEvents 3 4) = some _ := rfl
  refine ⟨_, hstart, ended_turns_on_disk returning_noDrafts hstart ?_⟩
  apply AllSteps.cons trivial rfl
  apply AllSteps.cons trivial rfl
  apply AllSteps.cons trivial rfl
  apply AllSteps.cons trivial rfl
  exact AllSteps.cons rfl rfl trivial

def cancelledEarly : List Event :=
  [Event.send "two".toList false 4096 false 5, Event.resume 1 Input.cancelled 6]

def savedOutOfOrder : List Event :=
  [Event.renameConversation 0 "two".toList,
   Event.renameConversation 0 "three".toList,
   Event.resume 2 (Input.saved []) 5, Event.resume 1 (Input.saved []) 6]

theorem ended_turns_on_disk_fails :
    exists s, runEvents step returning.app (restoreEvents 3 4) = some s ∧
      ¬ EndsOnDisk s cancelledEarly ∧ ¬ EndsOnDisk s savedOutOfOrder := by
  refine ⟨_, rfl, ?_, ?_⟩
  · intro h
    have hnumbered : forall s, runEvents step returning.app
        (restoreEvents 3 4 ++ cancelledEarly) = some s -> Numbered s :=
      fun s hs => Reachable.numbered ⟨returning, _, hs⟩
    have hperm := h _ (AllSteps.cons trivial rfl (AllSteps.cons rfl rfl trivial))
      rfl (idle_of_all (hnumbered _ rfl) (by decide))
    revert hperm
    decide
  · intro h
    have hnumbered : forall s, runEvents step returning.app
        (restoreEvents 3 4 ++ savedOutOfOrder) = some s -> Numbered s :=
      fun s hs => Reachable.numbered ⟨returning, _, hs⟩
    have hsaves : forall {q : Queued} {call : CallId}
        {snapshot : List Conversation},
        awaits q.app call = some snapshot ->
        saveReturns snapshot [] q.app.files = true ->
        forall now, Undisturbed q (Event.resume call (Input.saved []) now) := by
      intro q call snapshot hwaits hreturns now other hother
      rw [hwaits] at hother
      cases hother
      exact hreturns
    have hperm := h _ (AllSteps.cons trivial rfl (AllSteps.cons trivial rfl
        (AllSteps.cons (hsaves rfl (by decide) 5) rfl
          (AllSteps.cons (hsaves rfl (by decide) 6) rfl trivial))))
      rfl (idle_of_all (hnumbered _ rfl) (by decide))
    revert hperm
    decide

end ChatRepository
end DomainAI
