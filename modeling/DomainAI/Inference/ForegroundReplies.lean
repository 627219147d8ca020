import DomainAI.Data.EndedTurns
import DomainAI.Inference.ForegroundCount
import DomainAI.Privacy.CloudFailures

/-!
# Replies in the foreground

A reply from the on-device engine holds the foreground service from its routing to its end,
a transfer holds it through the collector, and both count on one counter.  What is followed
here is which calls are made; the steps of one call may come between those of another.
-/

namespace DomainAI
namespace ForegroundReplies

open Library PrivacyRouter ChatRepository ForegroundWork

inductive Owner where
  | reply (call : CallId)
  | transfer
  deriving DecidableEq, Repr

structure State where
  app : ChatRepository.App
  flags : Flags := {}
  /-- The sends that have called `begin` and not yet `end`. -/
  holding : List CallId := []
  log : List (Owner × Call) := []

inductive Event where
  | repository (e : ChatRepository.Event)
  | shown (p : Shown)

/-- `R.string.notif_generating`. -/
def notifGenerating : Text :=
  "Generating reply…".toList

/-- A send that goes on from here routes its turn to the device. -/
def begins (s : ChatRepository.App) : ChatRepository.Event -> Bool
  | ChatRepository.Event.resume call Input.privacyRead _ =>
      match s.inFlight call with
      | some (Coroutine.readingPrivacy send history) =>
          (routed send history s).route = Route.LOCAL
      | _ => false
  | _ => false

/-- The `finally` block of a send is left in the step to this state. -/
def ends (s app : ChatRepository.App) : ChatRepository.Event -> Bool
  | ChatRepository.Event.resume call input _ =>
      match s.inFlight call, input with
      | some (Coroutine.streaming _ _), Input.completed => true
      | some (Coroutine.streaming _ _), Input.failed _ => true
      -- a stopped reply is finalized before the block is left
      | some (Coroutine.streaming _ _), Input.cancelled => (app.inFlight call).isNone
      | some (Coroutine.saving _ _), _ => (app.inFlight call).isNone
      | _, _ => false
  | _ => false

namespace State

def onApp (app : ChatRepository.App) (s : State) : State :=
  { s with app := app }

def begin (call : CallId) (s : State) : State :=
  { s with
    holding := call :: s.holding
    log := s.log ++ [(Owner.reply call, Call.begin notifGenerating)] }

def finish (call : CallId) (s : State) : State :=
  { s with
    holding := s.holding.erase call
    log := s.log ++ [(Owner.reply call, Call.finish)] }

def collect (p : Shown) (s : State) : State :=
  { s with
    flags := (ForegroundWork.collect s.flags p).1
    log := s.log ++ (ForegroundWork.collect s.flags p).2.map (Prod.mk Owner.transfer) }

def calls (s : State) : List Call :=
  s.log.map Prod.snd

def callsOf (owner : Owner) (s : State) : List Call :=
  (s.log.filter fun entry => entry.1 = owner).map Prod.snd

end State

def step (s : State) : Event -> Option State
  | Event.repository e =>
      (ChatRepository.step s.app e).map fun app =>
        if begins s.app e then (s.onApp app).begin (callOf s.app e)
        else if callOf s.app e ∈ s.holding ∧ ends s.app app e then
          (s.onApp app).finish (callOf s.app e)
        else s.onApp app
  | Event.shown p => some (s.collect p)

def launched (l : Launch) : State where
  app := l.app

/-!
# One call
-/

/-- What a call in this state has called, and whether its `end` is still to come. -/
def Accounts (held : Prop) (calls : List Call) : Option Coroutine -> Prop
  | some (Coroutine.streaming outcome _) =>
      if outcome.route = Route.LOCAL then held ∧ calls = [Call.begin notifGenerating]
      else ¬ held ∧ calls = []
  | some (Coroutine.saving false _) =>
      held ∧ calls = [Call.begin notifGenerating] ∨
        ¬ held ∧ (calls = [] ∨ calls = [Call.begin notifGenerating, Call.finish])
  | none =>
      ¬ held ∧ (calls = [] ∨ calls = [Call.begin notifGenerating, Call.finish])
  | some _ => ¬ held ∧ calls = []

section Accounts

variable {held : Prop} {calls : List Call} {s s' : ChatRepository.App} {call : CallId}

theorem Accounts.congr {held' : Prop} {c : Option Coroutine} (h : Accounts held calls c)
    (hheld : held <-> held') : Accounts held' calls c := by
  rwa [<- propext hheld]

def isIdle : Coroutine -> Bool
  | Coroutine.streaming _ _ => false
  | Coroutine.saving cancellable _ => cancellable
  | _ => true

theorem accounts_idle {c : Coroutine} (hc : isIdle c = true) :
    Accounts held calls (some c) <-> ¬ held ∧ calls = [] := by
  cases c with
  | streaming outcome builder => cases hc
  | saving cancellable snapshot =>
      cases cancellable with
      | false => cases hc
      | true => rfl
  | _ => rfl

theorem Accounts.ended (h : ¬ held ∧ calls = []) : Accounts held calls none :=
  ⟨h.left, Or.inl h.right⟩

theorem accounts_endStream {outcome : StreamingOutcome Flow} {builder : Text}
    {note : Option Text} {now : Millis}
    (h : ¬ held ∧ (calls = [] ∨ calls = [Call.begin notifGenerating, Call.finish])) :
    Accounts held calls ((endStream call outcome builder note now s).inFlight call) := by
  unfold endStream finalizeReply persist
  split
  · rw [App.suspend_inFlight_self]
    exact Or.inr h
  · rw [App.finish_inFlight_self]
    exact h

inductive Resumed (held : Prop) (calls : List Call) (s s' : ChatRepository.App)
    (e : ChatRepository.Event) (call : CallId) : Prop where
  | begun (hbegins : begins s e = true) (hidle : ¬ held ∧ calls = [])
      (hafter : Accounts True [Call.begin notifGenerating] (s'.inFlight call))
  | ended (hbegins : begins s e = false) (hends : ends s s' e = true) (hheld : held)
      (hcalls : calls = [Call.begin notifGenerating])
      (hafter : Accounts False [Call.begin notifGenerating, Call.finish] (s'.inFlight call))
  | silent (hbegins : begins s e = false) (hends : ¬ (held ∧ ends s s' e = true))
      (hafter : Accounts held calls (s'.inFlight call))

theorem Resumed.idle {input : Input} {now : Millis} {c : Coroutine}
    (hcall : s.inFlight call = some c) (hc : isIdle c = true)
    (hinput : input ≠ Input.privacyRead ∨ forall send history, c ≠
      Coroutine.readingPrivacy send history)
    (h : Accounts held calls (s.inFlight call))
    (hafter : ¬ held ∧ calls = [] -> Accounts held calls (s'.inFlight call)) :
    Resumed held calls s s' (ChatRepository.Event.resume call input now) call := by
  rw [hcall, accounts_idle hc] at h
  refine Resumed.silent ?_ (fun hends => h.left hends.left) (hafter h)
  cases c with
  | readingPrivacy send history =>
      cases input with
      | privacyRead =>
          rcases hinput with hne | hne
          · exact absurd rfl hne
          · exact absurd rfl (hne send history)
      | _ => rfl
  | _ => cases input <;> simp [begins, hcall]

theorem accounts_streaming {outcome : StreamingOutcome Flow} {builder : Text} :
    Accounts held calls (some (Coroutine.streaming outcome builder)) <->
      (outcome.route = Route.LOCAL ∧ held ∧ calls = [Call.begin notifGenerating]) ∨
        (outcome.route ≠ Route.LOCAL ∧ ¬ held ∧ calls = []) := by
  by_cases hlocal : outcome.route = Route.LOCAL <;> simp [Accounts, hlocal]

theorem Resumed.streamed {input : Input} {now : Millis} {outcome : StreamingOutcome Flow}
    {builder : Text} {note : Option Text}
    (hcall : s.inFlight call = some (Coroutine.streaming outcome builder))
    (hinput : input = Input.completed ∨ exists message, input = Input.failed message)
    (h : Accounts held calls (s.inFlight call)) :
    Resumed held calls s (endStream call outcome builder note now s)
      (ChatRepository.Event.resume call input now) call := by
  have hbegins : begins s (ChatRepository.Event.resume call input now) = false := by
    rcases hinput with rfl | ⟨message, rfl⟩ <;> rfl
  have hends : ends s (endStream call outcome builder note now s)
      (ChatRepository.Event.resume call input now) = true := by
    rcases hinput with rfl | ⟨message, rfl⟩ <;> simp [ends, hcall]
  rw [hcall] at h
  rcases accounts_streaming.mp h with ⟨_, hheld, hcalls⟩ | ⟨_, hfree, hcalls⟩
  · exact Resumed.ended hbegins hends hheld hcalls
      (accounts_endStream ⟨not_false, Or.inr rfl⟩)
  · exact Resumed.silent hbegins (fun hboth => hfree hboth.left)
      (accounts_endStream ⟨hfree, Or.inl hcalls⟩)

theorem Resumed.stopped {now : Millis} {outcome : StreamingOutcome Flow} {builder : Text}
    {note : Option Text}
    (hcall : s.inFlight call = some (Coroutine.streaming outcome builder))
    (h : Accounts held calls (s.inFlight call)) :
    Resumed held calls s (endStream call outcome builder note now s)
      (ChatRepository.Event.resume call Input.cancelled now) call := by
  rw [hcall] at h
  rcases accounts_streaming.mp h with ⟨_, hheld, hcalls⟩ | ⟨_, hfree, hcalls⟩
  · cases hafter : (endStream call outcome builder note now s).inFlight call with
    | none =>
        refine Resumed.ended rfl (by simp [ends, hcall, hafter]) hheld hcalls ?_
        rw [hafter]
        exact ⟨not_false, Or.inr rfl⟩
    | some c =>
        refine Resumed.silent rfl (by simp [ends, hcall, hafter]) ?_
        unfold endStream finalizeReply persist at hafter ⊢
        split at hafter
        · rename_i hrestored
          rw [if_pos hrestored, App.suspend_inFlight_self]
          exact Or.inl ⟨hheld, hcalls⟩
        · rw [App.finish_inFlight_self] at hafter
          cases hafter
  · exact Resumed.silent rfl (fun hboth => hfree hboth.left)
      (accounts_endStream ⟨hfree, Or.inl hcalls⟩)

theorem Resumed.saved {faults : List ConversationStore.Fault} {now : Millis}
    {cancellable : Bool} {snapshot : List Conversation}
    (hcall : s.inFlight call = some (Coroutine.saving cancellable snapshot))
    (hafter : s'.inFlight call = none) (h : Accounts held calls (s.inFlight call)) :
    Resumed held calls s s'
      (ChatRepository.Event.resume call (Input.saved faults) now) call := by
  have hends : ends s s' (ChatRepository.Event.resume call (Input.saved faults) now) =
      true := by
    simp [ends, hcall, hafter]
  rw [hcall] at h
  cases cancellable with
  | true =>
      have hidle := (accounts_idle rfl).mp h
      refine Resumed.silent rfl (fun hboth => hidle.left hboth.left) ?_
      rw [hafter]
      exact Accounts.ended hidle
  | false =>
      rcases h with ⟨hheld, hcalls⟩ | hfree
      · refine Resumed.ended rfl hends hheld hcalls ?_
        rw [hafter]
        exact ⟨not_false, Or.inr rfl⟩
      · refine Resumed.silent rfl (fun hboth => hfree.left hboth.left) ?_
        rw [hafter]
        exact hfree

theorem resume_accounts {input : Input} {now : Millis}
    (h : Accounts held calls (s.inFlight call))
    (hresume : ChatRepository.resume call input now s = some s') :
    Resumed held calls s s' (ChatRepository.Event.resume call input now) call := by
  have hfinished : forall s : ChatRepository.App, ¬ held ∧ calls = [] ->
      Accounts held calls ((s.finish call).inFlight call) := by
    intro s hidle
    rw [App.finish_inFlight_self]
    exact Accounts.ended hidle
  have hsuspended : forall (s : ChatRepository.App) (c : Coroutine), isIdle c = true ->
      ¬ held ∧ calls = [] -> Accounts held calls ((s.suspend call c).inFlight call) := by
    intro s c hc hidle
    rw [App.suspend_inFlight_self]
    exact (accounts_idle hc).mpr hidle
  unfold ChatRepository.resume at hresume
  split at hresume
  all_goals rename_i hcall
  all_goals cases hresume
  · exact Resumed.idle hcall rfl (by simp) h (hsuspended _ _ rfl)
  · exact Resumed.idle hcall rfl (by simp) h (hfinished _)
  · exact Resumed.idle hcall rfl (by simp) h (hfinished _)
  · exact Resumed.idle hcall rfl (by simp) h (hsuspended _ _ rfl)
  · exact Resumed.idle hcall rfl (by simp) h (hfinished _)
  · -- the turn is routed
    rename_i send history
    rw [hcall, accounts_idle rfl] at h
    have hsuspends := App.suspend_inFlight_self call
      (Coroutine.streaming (routed send history s) [])
    by_cases hlocal : (routed send history s).route = Route.LOCAL
    · refine Resumed.begun (by simp [begins, hcall, hlocal]) h ?_
      rw [route, hsuspends, accounts_streaming]
      exact Or.inl ⟨hlocal, trivial, rfl⟩
    · refine Resumed.silent (by simp [begins, hcall, hlocal])
        (fun hboth => h.left hboth.left) ?_
      rw [route, hsuspends, accounts_streaming]
      exact Or.inr ⟨hlocal, h⟩
  · exact Resumed.idle hcall rfl (by simp) h (hfinished _)
  · refine Resumed.silent rfl (by simp [ends, hcall]) ?_
    rw [receive, App.suspend_inFlight_self, accounts_streaming]
    rw [hcall] at h
    exact accounts_streaming.mp h
  · exact Resumed.streamed hcall (Or.inl rfl) h
  · exact Resumed.streamed hcall (Or.inr ⟨_, rfl⟩) h
  · exact Resumed.stopped hcall h
  · exact Resumed.saved hcall (App.finish_inFlight_self _ _) h
  · exact Resumed.idle hcall rfl (by simp) h (hfinished _)
  · exact Resumed.idle hcall rfl (by simp) h (hfinished _)
  · exact Resumed.idle hcall rfl (by simp) h (hfinished _)
  · exact Resumed.idle hcall rfl (by simp) h (hfinished _)
  · exact Resumed.idle hcall rfl (by simp) h (hfinished _)

end Accounts

/-!
# The invariant
-/

namespace State

variable {s : State} {call : CallId} {owner : Owner}

@[simp] theorem callsOf_onApp (app : ChatRepository.App) :
    (s.onApp app).callsOf owner = s.callsOf owner := rfl

theorem callsOf_begin :
    (s.begin call).callsOf owner =
      s.callsOf owner ++
        if Owner.reply call = owner then [Call.begin notifGenerating] else [] := by
  by_cases hsame : Owner.reply call = owner <;> simp [callsOf, begin, hsame]

theorem callsOf_finish :
    (s.finish call).callsOf owner =
      s.callsOf owner ++ if Owner.reply call = owner then [Call.finish] else [] := by
  by_cases hsame : Owner.reply call = owner <;> simp [callsOf, finish, hsame]

theorem callsOf_collect_reply (p : Shown) :
    (s.collect p).callsOf (Owner.reply call) = s.callsOf (Owner.reply call) := by
  simp [callsOf, collect, List.filter_map, Function.comp_def]

theorem callsOf_collect_transfer (p : Shown) :
    (s.collect p).callsOf Owner.transfer =
      s.callsOf Owner.transfer ++ (ForegroundWork.collect s.flags p).2 := by
  simp [callsOf, collect, List.filter_map, Function.comp_def]

theorem calls_begin : (s.begin call).calls = s.calls ++ [Call.begin notifGenerating] :=
  List.map_append

theorem calls_finish : (s.finish call).calls = s.calls ++ [Call.finish] :=
  List.map_append

theorem calls_collect (p : Shown) :
    (s.collect p).calls = s.calls ++ (ForegroundWork.collect s.flags p).2 := by
  simp [calls, collect, Function.comp_def]

end State

structure Inv (s : State) : Prop where
  numbered : Numbered s.app
  nodup : s.holding.Nodup
  accounts : forall call, Accounts (call ∈ s.holding) (s.callsOf (Owner.reply call))
    (s.app.inFlight call)
  fresh : forall call, s.app.nextCall ≤ call -> s.callsOf (Owner.reply call) = []
  balance : net s.calls = s.holding.length + s.flags.open
  transfer : Alternate (s.callsOf Owner.transfer) ∧
    net (s.callsOf Owner.transfer) = s.flags.open

section Inv

variable {s s' : State}

theorem isIdle_of_isNew {c : Coroutine} (h : c.isNew = true) : isIdle c = true := by
  cases c with
  | restoring loaded => rfl
  | _ => exact h

theorem step_resumed {e : ChatRepository.Event} {app : ChatRepository.App} (h : Inv s)
    (hstep : ChatRepository.step s.app e = some app) :
    Resumed (callOf s.app e ∈ s.holding) (s.callsOf (Owner.reply (callOf s.app e))) s.app app e
      (callOf s.app e) := by
  by_cases hresumes : exists call input now, e = ChatRepository.Event.resume call input now
  · rcases hresumes with ⟨call, input, now, rfl⟩
    exact resume_accounts (h.accounts call) hstep
  · have hresumed : forall call input now,
        e ≠ ChatRepository.Event.resume call input now :=
      fun call input now hsame => hresumes ⟨call, input, now, hsame⟩
    have hcall : callOf s.app e = s.app.nextCall ∧ begins s.app e = false := by
      cases e with
      | resume call input now => exact absurd rfl (hresumed call input now)
      | _ => exact ⟨rfl, rfl⟩
    -- the call that begins has called nothing yet
    have hbefore := h.accounts s.app.nextCall
    rw [h.numbered.next_idle, h.fresh _ (Nat.le_refl _)] at hbefore
    rw [hcall.left, h.fresh _ (Nat.le_refl _)]
    refine Resumed.silent hcall.right (fun hboth => hbefore.left hboth.left) ?_
    cases hafter : app.inFlight s.app.nextCall with
    | none => exact Accounts.ended ⟨hbefore.left, rfl⟩
    | some c =>
        rcases step_new hresumed hstep hafter with hsome | ⟨_, hnew⟩
        · cases h.numbered.next_idle.symm.trans hsome
        · exact (accounts_idle (isIdle_of_isNew hnew)).mpr ⟨hbefore.left, rfl⟩

theorem readingPrivacy_of_begins {s : ChatRepository.App} {e : ChatRepository.Event}
    (h : begins s e = true) :
    exists send history,
      s.inFlight (callOf s e) = some (Coroutine.readingPrivacy send history) := by
  unfold begins at h
  split at h
  · split at h
    · rename_i hcall
      exact ⟨_, _, hcall⟩
    · cases h
  · cases h

theorem inFlight_of_ends {s app : ChatRepository.App} {e : ChatRepository.Event}
    (h : ends s app e = true) : exists c, s.inFlight (callOf s e) = some c := by
  unfold ends at h
  split at h
  · split at h
    · exact ⟨_, ‹_›⟩
    · exact ⟨_, ‹_›⟩
    · exact ⟨_, ‹_›⟩
    · exact ⟨_, ‹_›⟩
    · cases h
  · cases h

theorem others_account {e : ChatRepository.Event} {app : ChatRepository.App} (h : Inv s)
    (hstep : ChatRepository.step s.app e = some app) {call : CallId}
    (hother : call ≠ callOf s.app e) {held : Prop} {calls : List Call}
    (hheld : held <-> call ∈ s.holding)
    (hcalls : calls = s.callsOf (Owner.reply call)) :
    Accounts held calls (app.inFlight call) := by
  rcases step_touches hstep with ⟨os, _, htouches⟩
  rw [htouches.others call hother, hcalls]
  exact (h.accounts call).congr hheld.symm

theorem step_inv {e : Event} (h : Inv s) (hs : step s e = some s') : Inv s' := by
  cases e with
  | shown p =>
      cases hs
      rcases collect_alternate s.flags p with ⟨halternate, hnet⟩
      refine ⟨h.numbered, h.nodup, ?_, ?_, ?_, ?_, ?_⟩
      · intro call
        rw [State.callsOf_collect_reply]
        exact h.accounts call
      · intro call hcall
        rw [State.callsOf_collect_reply]
        exact h.fresh call hcall
      · rw [State.calls_collect, net_append, h.balance, Int.add_assoc, hnet]
        rfl
      · rw [State.callsOf_collect_transfer]
        refine (alternateFrom_append 0 _ _).mpr ⟨h.transfer.left, ?_⟩
        rwa [Int.zero_add, h.transfer.right]
      · rw [State.callsOf_collect_transfer, net_append, h.transfer.right]
        exact hnet
  | repository e =>
      rcases Option.map_eq_some_iff.mp hs with ⟨app, hstep, rfl⟩
      have hnumbered := step_numbered h.numbered hstep
      have hnext := step_nextCall hstep
      have hfresh := fun call (hcall : app.nextCall ≤ call) =>
        h.fresh call (Nat.le_trans hnext hcall)
      -- a call in flight is not one of those that are still to come
      have hother : forall call c, s.app.inFlight (callOf s.app e) = some c ->
          app.nextCall ≤ call -> Owner.reply (callOf s.app e) ≠ Owner.reply call := by
        intro call c hc hcall hsame
        cases hsame
        exact Nat.not_le.mpr (h.numbered.inFlight _ c hc) (Nat.le_trans hnext hcall)
      have hnet := h.balance
      cases step_resumed h hstep with
      | begun hbegins hidle hafter =>
          rw [if_pos hbegins]
          rcases readingPrivacy_of_begins hbegins with ⟨send, history, hc⟩
          refine ⟨hnumbered, List.nodup_cons.mpr ⟨hidle.left, h.nodup⟩, ?_, ?_, ?_, ?_⟩
          · intro call
            rw [State.callsOf_begin, State.callsOf_onApp]
            by_cases hsame : call = callOf s.app e
            · rw [hsame, if_pos rfl, hidle.right]
              exact hafter.congr (iff_of_true trivial List.mem_cons_self)
            · refine others_account h hstep hsame ?_ ?_
              · exact List.mem_cons.trans (or_iff_right hsame)
              · rw [if_neg (fun howner => hsame (Owner.reply.inj howner).symm),
                  List.append_nil]
          · intro call hcall
            rw [State.callsOf_begin, State.callsOf_onApp, if_neg (hother call _ hc hcall),
              List.append_nil]
            exact hfresh call hcall
          · rw [State.calls_begin, net_append]
            show net s.calls + 1 = ((s.holding.length + 1 : Nat) : Int) + s.flags.open
            omega
          · rw [State.callsOf_begin, if_neg (by simp), List.append_nil]
            exact h.transfer
      | ended hbegins hends hheld hcalls hafter =>
          rw [if_neg (by simp [hbegins]), if_pos ⟨hheld, hends⟩]
          rcases inFlight_of_ends hends with ⟨c, hc⟩
          refine ⟨hnumbered, h.nodup.erase _, ?_, ?_, ?_, ?_⟩
          · intro call
            rw [State.callsOf_finish, State.callsOf_onApp]
            by_cases hsame : call = callOf s.app e
            · rw [hsame, if_pos rfl, hcalls]
              exact hafter.congr (iff_of_false not_false h.nodup.not_mem_erase)
            · refine others_account h hstep hsame ?_ ?_
              · exact List.mem_erase_of_ne hsame
              · rw [if_neg (fun howner => hsame (Owner.reply.inj howner).symm),
                  List.append_nil]
          · intro call hcall
            rw [State.callsOf_finish, State.callsOf_onApp, if_neg (hother call c hc hcall),
              List.append_nil]
            exact hfresh call hcall
          · have hlength := List.length_erase_of_mem hheld
            have hpositive := List.length_pos_of_mem hheld
            rw [State.calls_finish, net_append]
            show net s.calls + (-1) =
              ((s.holding.erase (callOf s.app e)).length : Int) + s.flags.open
            omega
          · rw [State.callsOf_finish, if_neg (by simp), List.append_nil]
            exact h.transfer
      | silent hbegins hends hafter =>
          rw [if_neg (by simp [hbegins]), if_neg hends]
          refine ⟨hnumbered, h.nodup, ?_, hfresh, hnet, h.transfer⟩
          intro call
          by_cases hsame : call = callOf s.app e
          · rw [hsame]
            exact hafter
          · exact others_account h hstep hsame Iff.rfl rfl

/-- A reply that was made for the device has called, and any other one has not. -/
def Called (s : State) : Prop :=
  forall call reply tokens, Observation.seeded call reply tokens ∈ s.app.log ->
    (s.callsOf (Owner.reply call) = [] <-> reply.route ≠ Route.LOCAL)

/-- The reply was made before this step. -/
theorem called_before (h : Inv s) (hrouted : RoutedOnce s.app) (hcalled : Called s)
    {e : ChatRepository.Event} (hs : step s (Event.repository e) = some s') {call : CallId}
    {reply : Message} {tokens : Flow}
    (hold : Observation.seeded call reply tokens ∈ s.app.log) :
    s'.callsOf (Owner.reply call) = [] <-> reply.route ≠ Route.LOCAL := by
  rcases Option.map_eq_some_iff.mp hs with ⟨app, hstep, rfl⟩
  rw [<- hcalled call reply tokens hold]
  cases step_resumed h hstep with
  | begun hbegins hidle hafter =>
      have hother : Owner.reply (callOf s.app e) ≠ Owner.reply call := by
        intro hsame
        rcases readingPrivacy_of_begins hbegins with ⟨send, history, hcall⟩
        rw [Owner.reply.inj hsame] at hcall
        exact hrouted.unrouted call _ hcall rfl reply tokens hold
      rw [if_pos hbegins, State.callsOf_begin, if_neg hother, List.append_nil]
      rfl
  | ended hbegins hends hheld hcalls hafter =>
      rw [if_neg (by simp [hbegins]), if_pos ⟨hheld, hends⟩, State.callsOf_finish]
      by_cases hsame : Owner.reply (callOf s.app e) = Owner.reply call
      · rw [<- hsame, State.callsOf_onApp, hcalls]
        exact iff_of_false (by simp) (by simp)
      · rw [if_neg hsame, List.append_nil]
        rfl
  | silent hbegins hends hafter =>
      rw [if_neg (by simp [hbegins]), if_neg hends]
      rfl

/-- The reply is made in this step. -/
theorem called_routed (h : Inv s) {call : CallId} {send : SendCall}
    {history : List Message} {now : Millis}
    (hcall : s.app.inFlight call = some (Coroutine.readingPrivacy send history))
    (hs : step s (Event.repository (ChatRepository.Event.resume call Input.privacyRead now)) =
      some s') :
    s'.callsOf (Owner.reply call) = [] <-> (routed send history s.app).route ≠ Route.LOCAL := by
  rcases Option.map_eq_some_iff.mp hs with ⟨app, hstep, rfl⟩
  have hbefore := h.accounts call
  rw [hcall] at hbefore
  have hbegins : begins s.app (ChatRepository.Event.resume call Input.privacyRead now) = true <->
      (routed send history s.app).route = Route.LOCAL := by
    simp [begins, hcall]
  by_cases hlocal : (routed send history s.app).route = Route.LOCAL
  · have hself : Owner.reply (callOf s.app
        (ChatRepository.Event.resume call Input.privacyRead now)) = Owner.reply call := rfl
    rw [if_pos (hbegins.mpr hlocal), State.callsOf_begin, if_pos hself]
    exact iff_of_false (by simp) (fun hcloud => hcloud hlocal)
  · rw [if_neg (fun hbegun => hlocal (hbegins.mp hbegun)),
      if_neg (fun hended => hbefore.left hended.left)]
    exact iff_of_true hbefore.right hlocal

theorem step_app {e : ChatRepository.Event}
    (hs : step s (Event.repository e) = some s') :
    ChatRepository.step s.app e = some s'.app := by
  rcases Option.map_eq_some_iff.mp hs with ⟨app, hstep, rfl⟩
  rw [hstep]
  split
  · rfl
  · split <;> rfl

theorem step_called {e : Event} (h : Inv s) (hrouted : RoutedOnce s.app) (hcalled : Called s)
    (hs : step s e = some s') : RoutedOnce s'.app ∧ Called s' := by
  cases e with
  | shown p =>
      cases hs
      refine ⟨hrouted, fun call reply tokens hmem => ?_⟩
      rw [State.callsOf_collect_reply]
      exact hcalled call reply tokens hmem
  | repository e =>
      have hstep := step_app hs
      refine ⟨step_routedOnce h.numbered hrouted hstep, fun call reply tokens hmem => ?_⟩
      rcases step_seeded hstep hmem with hold | ⟨send, history, now, rfl, hcall, rfl, rfl⟩
      · exact called_before h hrouted hcalled hs hold
      · exact called_routed h hcall hs

theorem launched_inv (l : Launch) : Inv (launched l) where
  numbered := l.numbered
  nodup := List.nodup_nil
  accounts _ := ⟨List.not_mem_nil, Or.inl rfl⟩
  fresh _ _ := rfl
  balance := rfl
  transfer := ⟨(alternateFrom_nil 0).mpr (Or.inl rfl), rfl⟩

theorem run_inv {l : Launch} {es : List Event}
    (hrun : runEvents step (launched l) es = some s) : Inv s ∧ Called s := by
  have hend := runEvents_keeps (I := fun s => Inv s ∧ RoutedOnce s.app ∧ Called s)
    (fun _ _ _ h hs => ⟨step_inv h.left hs, step_called h.left h.right.left h.right.right hs⟩)
    ⟨launched_inv l, Reachable.routedOnce ⟨l, [], rfl⟩, fun _ _ _ hnone => by cases hnone⟩
    hrun
  exact ⟨hend.left, hend.right.right⟩

end Inv

/-!
# The count
-/

def isBegin : Call -> Bool
  | Call.begin _ => true
  | _ => false

/-- Atomic steps that carry out these calls, in whatever order: each begin has been counted
and each end taken off, no call is still executing, and no begin has come between the steps
of an end that leaves nothing. -/
structure CarriedOut (calls : List Call) (steps : List ForegroundCount.Event)
    (c : ForegroundCount.State) : Prop where
  run : runEvents ForegroundCount.step {} steps = some c
  undisturbed : AllSteps ForegroundCount.step ForegroundCount.Undisturbed {} steps
  begun : steps.count ForegroundCount.Event.incrementAndGet = calls.countP isBegin
  ended : steps.countP ForegroundCount.Event.isDecrement = calls.count Call.finish
  quiet : c.Quiet

section Counting

variable {calls : List Call} {steps : List ForegroundCount.Event} {c : ForegroundCount.State}

theorem net_eq_count (calls : List Call) :
    net calls = calls.countP isBegin - calls.count Call.finish := by
  induction calls with
  | nil => rfl
  | cons call calls ih =>
      rw [net_cons, ih, List.countP_cons, List.count_cons]
      cases call <;> simp [Call.delta, isBegin] <;> omega

theorem CarriedOut.active (h : CarriedOut calls steps c) : c.active = net calls := by
  rw [ForegroundCount.active_eq_count h.run h.undisturbed, h.begun, h.ended, net_eq_count]

theorem CarriedOut.started (h : CarriedOut calls steps c) (hheld : 0 < net calls) :
    c.stopped = false := by
  have hcounts := ForegroundCount.sound_counts
    (ForegroundCount.run_sound h.run h.undisturbed)
  refine hcounts.right ?_
  have hactive := hcounts.left h.quiet
  rw [h.active] at hactive
  omega

end Counting

theorem Inv.callsOf_cases {s : State} (h : Inv s) (call : CallId) :
    (call ∉ s.holding ∧ s.callsOf (Owner.reply call) = []) ∨
      (call ∈ s.holding ∧
        s.callsOf (Owner.reply call) = [Call.begin notifGenerating]) ∨
      (call ∉ s.holding ∧
        s.callsOf (Owner.reply call) = [Call.begin notifGenerating, Call.finish]) := by
  have haccounts := h.accounts call
  cases hc : s.app.inFlight call with
  | none =>
      rw [hc] at haccounts
      rcases haccounts with ⟨hout, hnone | hboth⟩
      · exact Or.inl ⟨hout, hnone⟩
      · exact Or.inr (Or.inr ⟨hout, hboth⟩)
  | some c =>
      rw [hc] at haccounts
      cases hidle : isIdle c with
      | true => exact Or.inl ((accounts_idle hidle).mp haccounts)
      | false =>
          cases c with
          | streaming outcome builder =>
              rcases accounts_streaming.mp haccounts with ⟨_, hin, hone⟩ | ⟨_, hout⟩
              · exact Or.inr (Or.inl ⟨hin, hone⟩)
              · exact Or.inl hout
          | saving cancellable snapshot =>
              cases cancellable with
              | true => cases hidle
              | false =>
                  rcases haccounts with hin | ⟨hout, hnone | hboth⟩
                  · exact Or.inr (Or.inl hin)
                  · exact Or.inl ⟨hout, hnone⟩
                  · exact Or.inr (Or.inr ⟨hout, hboth⟩)
          | _ => cases hidle

/-- The calls of a call of `send` whose reply has been made. -/
theorem Inv.callsOf_seeded {s : State} (h : Inv s) (hcalled : Called s) {call : CallId}
    {reply : Message} {tokens : Flow}
    (hseeded : Observation.seeded call reply tokens ∈ s.app.log) :
    s.callsOf (Owner.reply call) =
      if reply.route ≠ Route.LOCAL then []
      else if call ∈ s.holding then [Call.begin notifGenerating]
      else [Call.begin notifGenerating, Call.finish] := by
  have hempty := hcalled call reply tokens hseeded
  by_cases hlocal : reply.route = Route.LOCAL
  · rw [if_neg (not_not_intro hlocal)]
    rcases h.callsOf_cases call with ⟨_, hnone⟩ | ⟨hin, hone⟩ | ⟨hout, hboth⟩
    · exact absurd hlocal (hempty.mp hnone)
    · rw [if_pos hin, hone]
    · rw [if_neg hout, hboth]
  · rw [if_pos hlocal]
    exact hempty.mpr hlocal

/-- In every run of the repository, with any transfers shown in between, the calls of begin
and end leave as many begins as local replies stream or are being finalized after a stop,
and one for a transfer; every local reply has called begin once, and end once unless it
still holds the service, which it does no longer than its call is in flight; no other reply
calls anything; and where the calls are carried out without a begin between the steps of an
end that leaves nothing, that is what the counter says, and the service runs while it is
positive. -/
theorem replies_hold_foreground {l : Launch} {es : List Event} {s : State}
    (hrun : runEvents step (launched l) es = some s) :
    net s.calls = s.holding.length + s.flags.open ∧
    (forall call outcome builder,
      s.app.inFlight call = some (Coroutine.streaming outcome builder) ->
      (call ∈ s.holding <-> outcome.route = Route.LOCAL)) ∧
    (forall call, call ∈ s.holding -> (s.app.inFlight call).isSome) ∧
    (forall call reply tokens, Observation.seeded call reply tokens ∈ s.app.log ->
      s.callsOf (Owner.reply call) =
        if reply.route ≠ Route.LOCAL then []
        else if call ∈ s.holding then [Call.begin notifGenerating]
        else [Call.begin notifGenerating, Call.finish]) ∧
    (forall call,
      (call ∉ s.holding ∧ s.callsOf (Owner.reply call) = []) ∨
      (call ∈ s.holding ∧
        s.callsOf (Owner.reply call) = [Call.begin notifGenerating]) ∨
      (call ∉ s.holding ∧
        s.callsOf (Owner.reply call) = [Call.begin notifGenerating, Call.finish])) ∧
    Alternate (s.callsOf Owner.transfer) ∧
    (forall steps c, CarriedOut s.calls steps c ->
      c.active = s.holding.length + s.flags.open ∧
      (0 < s.holding.length + s.flags.open -> c.stopped = false)) ∧
    ((forall call, s.app.inFlight call = none) -> net s.calls = s.flags.open) := by
  rcases run_inv hrun with ⟨h, hcalled⟩
  have hheld : forall call, call ∈ s.holding -> (s.app.inFlight call).isSome := by
    intro call hcall
    have haccounts := h.accounts call
    cases hc : s.app.inFlight call with
    | none =>
        rw [hc] at haccounts
        exact absurd hcall haccounts.left
    | some c => rfl
  refine ⟨h.balance, ?_, hheld, fun _ _ _ => h.callsOf_seeded hcalled, h.callsOf_cases,
    h.transfer.left, ?_, ?_⟩
  · intro call outcome builder hcall
    have haccounts := h.accounts call
    rw [hcall] at haccounts
    rcases accounts_streaming.mp haccounts with ⟨hlocal, hin, _⟩ | ⟨hcloud, hout, _⟩
    · exact iff_of_true hin hlocal
    · exact iff_of_false hout hcloud
  · intro steps c hcarried
    rw [hcarried.active, h.balance]
    refine ⟨rfl, fun hsome => hcarried.started ?_⟩
    rw [h.balance]
    exact hsome
  · intro hquiet
    have hnone : s.holding = [] := by
      refine List.eq_nil_iff_forall_not_mem.mpr fun call hcall => ?_
      have hsome := hheld call hcall
      rw [hquiet call] at hsome
      cases hsome
    rw [h.balance, hnone]
    exact Int.zero_add _

def replyDuringDownload : List Event :=
  [Event.repository (ChatRepository.Event.send "Hi".toList false 4096 false 0),
   Event.repository (ChatRepository.Event.resume 0 Input.privacyRead 1),
   Event.shown (ModelManager.State.NotLoaded,
     ModelManager.TransferState.Downloading "model".toList none),
   Event.repository (ChatRepository.Event.resume 0 (Input.delta "Hello".toList) 2)]

def bothBegun : List ForegroundCount.Event :=
  [ForegroundCount.Event.incrementAndGet, ForegroundCount.Event.incrementAndGet,
   ForegroundCount.Event.startForegroundService 1,
   ForegroundCount.Event.startForegroundService 0]

theorem bothBegun_undisturbed :
    AllSteps ForegroundCount.step ForegroundCount.Undisturbed {} bothBegun := by
  apply AllSteps.cons (by decide) rfl
  apply AllSteps.cons (by decide) rfl
  apply AllSteps.cons (by decide) rfl
  exact AllSteps.cons (by decide) rfl trivial

theorem replyDuringDownload_holds :
    exists s c, runEvents step (launched firstLaunch) replyDuringDownload = some s ∧
      0 ∈ s.holding ∧ CarriedOut s.calls bothBegun c ∧ c.active = 2 ∧
      c.stopped = false := by
  have hrun : (runEvents step (launched firstLaunch) replyDuringDownload).isSome = true := by
    decide
  rcases Option.isSome_iff_exists.mp hrun with ⟨s, hs⟩
  rcases (replies_hold_foreground hs).right.right.right.right.right.right with ⟨hcounted, _⟩
  have hstreams : exists outcome builder,
      s.app.inFlight 0 = some (Coroutine.streaming outcome builder) ∧
        outcome.route = Route.LOCAL := by
    cases hs
    exact ⟨_, _, rfl, rfl⟩
  have hcalls : s.calls.countP isBegin = 2 ∧ s.calls.count Call.finish = 0 ∧
      (s.holding.length : Int) + s.flags.open = 2 := by
    cases hs
    exact ⟨by decide, by decide, by decide⟩
  rcases hstreams with ⟨outcome, builder, hstreams, hlocal⟩
  rcases hcalls with ⟨hbegun, hended, htwo⟩
  have hcarried : CarriedOut s.calls bothBegun _ :=
    { run := rfl
      undisturbed := bothBegun_undisturbed
      begun := hbegun.symm
      ended := hended.symm
      quiet := by
        intro c hc
        revert c
        decide }
  rcases hcounted bothBegun _ hcarried with ⟨hactive, hstarted⟩
  refine ⟨s, _, hs, ?_, hcarried, hactive.trans htwo, hstarted (by omega)⟩
  exact ((replies_hold_foreground hs).right.left 0 outcome builder hstreams).mpr hlocal

end ForegroundReplies
end DomainAI
