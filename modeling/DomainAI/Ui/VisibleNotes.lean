import DomainAI.Privacy.CloudFailures
import DomainAI.Ui.ReasoningSplit

/-!
# Visible notes

A turn that is refused, fails or is stopped ends with a note under whatever it has
received by then.  Whether the note can be seen is decided by where in the reasoning
the engine was interrupted.
-/

namespace DomainAI
namespace ChatRepository

open Library PrivacyRouter

def noteOf (outcome : StreamingOutcome Flow) : Input -> Option Text
  | Input.completed => outcome.note
  | Input.failed message =>
      outcome.note.or (some (ReplyText.replyRequestFailed (message.getD [])))
  | Input.cancelled => outcome.note.or (some ReplyText.replyStopped)
  | _ => none

def deltaTo (call : CallId) : Event -> Option Text
  | Event.resume other (Input.delta text) _ => if other = call then some text else none
  | _ => none

def receivedBy (call : CallId) (es : List Event) : Text :=
  (es.filterMap (deltaTo call)).flatten

theorem receivedBy_cons (call : CallId) (e : Event) (es : List Event) :
    receivedBy call (e :: es) = (deltaTo call e).getD [] ++ receivedBy call es := by
  rw [receivedBy, receivedBy, List.filterMap_cons]
  cases deltaTo call e with
  | none => rfl
  | some text => rfl

section Stream

variable {call : CallId} {outcome : StreamingOutcome Flow} {builder : Text} {s s' : App}

theorem deltaTo_of_ne {e : Event} (h : call ≠ callOf s e) : deltaTo call e = none := by
  cases e with
  | resume other input now =>
      cases input with
      | delta text => exact if_neg (Ne.symm h)
      | _ => rfl
  | _ => rfl

theorem resume_streaming_cases {input : Input} {now : Millis}
    (hcall : s.inFlight call = some (Coroutine.streaming outcome builder))
    (hstep : step s (Event.resume call input now) = some s') :
    (exists text, input = Input.delta text ∧
        s' = receive call outcome (builder ++ text) now s) ∨
      exists note, noteOf outcome input = outcome.note.or note ∧
        s' = endStream call outcome builder note now s := by
  simp only [step] at hstep
  cases input with
  | delta text =>
      simp only [resume, hcall, Option.some.injEq] at hstep
      exact Or.inl ⟨text, rfl, hstep.symm⟩
  | completed =>
      simp only [resume, hcall, Option.some.injEq] at hstep
      exact Or.inr ⟨none, Option.or_none.symm, hstep.symm⟩
  | failed message =>
      simp only [resume, hcall, Option.some.injEq] at hstep
      exact Or.inr ⟨_, rfl, hstep.symm⟩
  | cancelled =>
      simp only [resume, hcall, Option.some.injEq] at hstep
      exact Or.inr ⟨_, rfl, hstep.symm⟩
  | _ => simp [resume, hcall] at hstep

theorem step_collects {e : Event} (hbegun : call < s.nextCall)
    (hcall : s.inFlight call = some (Coroutine.streaming outcome builder))
    (hstep : step s e = some s') :
    s'.inFlight call =
        some (Coroutine.streaming outcome (builder ++ (deltaTo call e).getD [])) ∨
      OnlySaves call s' := by
  by_cases hsame : call = callOf s e
  · cases e with
    | resume other input now =>
        subst hsame
        rcases resume_streaming_cases hcall hstep with
          ⟨text, rfl, rfl⟩ | ⟨note, _, rfl⟩
        · rw [receive, App.suspend_inFlight_self, deltaTo, if_pos rfl]
          exact Or.inl rfl
        · exact Or.inr (onlySaves_endStream _ _ _ _ hbegun)
    | _ => exact absurd hsame (Nat.ne_of_lt hbegun)
  · rcases step_touches hstep with ⟨os, _, htouches⟩
    rw [deltaTo_of_ne hsame, htouches.others call hsame, hcall, Option.getD_none,
      List.append_nil]
    exact Or.inl rfl

theorem run_stays_onlySaves {es : List Event} (h : OnlySaves call s)
    (hrun : runEvents step s es = some s') : OnlySaves call s' :=
  runEvents_invariant
    (fun _ _ _ hsaves (_ : True) hstep => (step_onlySaves hsaves hstep).left) h
    (AllSteps.of_forall (fun _ _ => trivial) s es) hrun

theorem run_collects {es : List Event} (hbegun : call < s.nextCall)
    (hcall : s.inFlight call = some (Coroutine.streaming outcome builder))
    (hrun : runEvents step s es = some s') :
    s'.inFlight call =
        some (Coroutine.streaming outcome (builder ++ receivedBy call es)) ∨
      OnlySaves call s' := by
  induction es generalizing s builder with
  | nil =>
      cases hrun
      rw [receivedBy, List.filterMap_nil, List.flatten_nil, List.append_nil]
      exact Or.inl hcall
  | cons e es ih =>
      rcases runEvents_cons.mp hrun with ⟨mid, hmid, hrest⟩
      rcases step_collects hbegun hcall hmid with hstreams | hsaves
      · rw [receivedBy_cons, <- List.append_assoc]
        exact ih (lt_of_lt_of_le hbegun (step_nextCall hmid)) hstreams hrest
      · exact Or.inr (run_stays_onlySaves hsaves hrest)

theorem not_onlySaves_of_note {input : Input} {now : Millis} {note : Text}
    (hnote : noteOf outcome input = some note)
    (hstep : step s (Event.resume call input now) = some s') : ¬ OnlySaves call s := by
  intro h
  rcases resume_inFlight hstep with ⟨c, hc⟩
  rcases h.saving c hc with ⟨snapshot, rfl⟩
  cases input with
  | completed => simp [step, resume, hc] at hstep
  | failed message => simp [step, resume, hc] at hstep
  | cancelled => simp [step, resume, hc] at hstep
  | _ => cases hnote

theorem step_note {input : Input} {now : Millis} {note : Text}
    (hcall : s.inFlight call = some (Coroutine.streaming outcome builder))
    (hnote : noteOf outcome input = some note)
    (hstep : step s (Event.resume call input now) = some s') :
    s' = finalizeReply call (ReplyText.stripLeadingNameLabel builder) (some note) now s := by
  rcases resume_streaming_cases hcall hstep with ⟨text, rfl, _⟩ | ⟨given, hgiven, rfl⟩
  · cases hnote
  · rw [endStream, <- hgiven, hnote]

end Stream

/-- However a turn ends with a note, and whatever was received before, the reply that
is stored shows the note exactly if it was not cut off inside its think block. -/
theorem notes_visible {s s' : App} (hreach : Reachable s) {call : CallId}
    {outcome : StreamingOutcome Flow}
    (hcall : s.inFlight call = some (Coroutine.streaming outcome [])) {es : List Event}
    {input : Input} {now : Millis} {note : Text} (hnote : noteOf outcome input = some note)
    (hunmarked : ReasoningSplit.Unmarked note)
    (hrun : runEvents step s (es ++ [Event.resume call input now]) = some s') :
    exists mid text, runEvents step s es = some mid ∧
      s'.chats = writeReply text now mid.chats ∧
      s'.log = mid.log ++ [Observation.finalized call text] ∧
      (ReasoningSplit.Shows text note <->
        ¬ ReasoningSplit.CutOff (ReplyText.stripLeadingNameLabel (receivedBy call es))
          note) := by
  rcases runEvents_append.mp hrun with ⟨mid, hmid, hlast⟩
  rcases runEvents_cons.mp hlast with ⟨ended, hstep, hended⟩
  cases hended
  have hbegun := hreach.numbered.inFlight call _ hcall
  rcases run_collects hbegun hcall hmid with hstreams | hsaves
  · have hfinal := step_note hstreams hnote hstep
    rw [List.nil_append] at hfinal
    refine ⟨mid, _, hmid, ?_, ?_, ReasoningSplit.shows_finalText_iff hunmarked⟩
    · rw [hfinal, finalizeReply, persist_chats]
      rfl
    · rw [hfinal, finalizeReply, persist_log]
      rfl
  · exact absurd hsaves (not_onlySaves_of_note hnote hstep)

def localTurn : List Event :=
  [Event.send "hello".toList false 4096 true 1, Event.resume 0 Input.privacyRead 2]

theorem notes_visible_stopped :
    exists s', runEvents step firstLaunch.app (localTurn ++
        [Event.resume 0 (Input.delta "<think>Let me see</think>Hello".toList) 3,
          Event.resume 0 Input.cancelled 4]) = some s' ∧
      exists text, Observation.finalized 0 text ∈ s'.log ∧
        ReasoningSplit.Shows text ReplyText.replyStopped := by
  have hnote : ReasoningSplit.Unmarked ReplyText.replyStopped := ⟨by decide, by decide⟩
  rcases @notes_visible _ _ ⟨firstLaunch, localTurn, rfl⟩ 0 _ rfl
      [Event.resume 0 (Input.delta "<think>Let me see</think>Hello".toList) 3]
      Input.cancelled 4 ReplyText.replyStopped rfl hnote rfl with
    ⟨mid, text, _, _, hlog, hshows⟩
  refine ⟨_, rfl, text, ?_, hshows.mpr ?_⟩
  · rw [hlog]
    exact List.mem_append_right _ List.mem_cons_self
  · intro hcut
    rcases hcut with ⟨pre, rest, hbody, hpre, hrest, _⟩
    have hreply : "<think>Let me see</think>Hello".toList =
        pre ++ ReasoningSplit.OPEN ++ rest := hbody
    have hopens := @ReasoningSplit.indexOf_open pre rest hpre
    rw [<- hreply] at hopens
    have hfirst := Option.some.inj
      (hopens.symm.trans (by decide : indexOf ReasoningSplit.OPEN 0 _ = some 0))
    rw [List.length_eq_zero_iff.mp hfirst] at hreply
    have hclosed : rest = "Let me see</think>Hello".toList :=
      (congrArg (List.drop ReasoningSplit.OPEN.length) hreply).symm
    rw [hclosed] at hrest
    exact hrest (by decide)

/-- The user stops a reply that is still reasoning, and no answer is left to show. -/
theorem notes_visible_fails :
    exists s' text, runEvents step firstLaunch.app (localTurn ++
        [Event.resume 0 (Input.delta "<think>Let me".toList) 3,
          Event.resume 0 Input.cancelled 4]) = some s' ∧
      Observation.finalized 0 text ∈ s'.log ∧
      ReasoningSplit.Unmarked ReplyText.replyStopped ∧
      (ReasoningSplit.parse text).2 = [] ∧
      ¬ ReasoningSplit.Shows text ReplyText.replyStopped := by
  refine ⟨_, "<think>Let me\n\n_Stopped._".toList, rfl, ?_, ⟨by decide, by decide⟩, ?_, ?_⟩
  · exact List.mem_append_right _ List.mem_cons_self
  · rfl
  · intro hshows
    have hanswer : ReasoningSplit.attached ReplyText.replyStopped <:+ [] := hshows
    exact absurd hanswer (by decide)

end ChatRepository
end DomainAI
