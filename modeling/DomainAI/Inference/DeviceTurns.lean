import DomainAI.Inference.LocalReplies
import DomainAI.Llama.SpelledReplies

/-!
# Turns on the device

The repository, the run loop of the loaded model and the native side that answers it.  What a
turn leaves in the chat is the text that the tokens of its generation spell.
-/

namespace DomainAI
namespace DeviceTurns

open Library ChatRepository LLamaAndroid
open Completion (Llama Bridge Spells Token speaker)
open LocalReplies (Stores collects)

structure System where
  replies : LocalReplies.System
  bridge : Bridge := {}

inductive Event where
  | native (e : Bridged.Event)
  | replies (e : LocalReplies.Event)

def answered : LocalReplies.Event -> Bool
  | LocalReplies.Event.loop e => Bridged.bridges e
  | _ => false

def System.bridged (s : System) : Bridged where
  delivery := s.replies.delivery
  bridge := s.bridge

def System.withBridged (b : Bridged) (s : System) : System where
  replies := { s.replies with delivery := b.delivery }
  bridge := b.bridge

def step (llama : Llama) (s : System) : Event -> Option System
  | Event.native (Bridged.Event.other _) => none
  | Event.native e =>
      (Bridged.step llama ModifiedUtf8.newStringUTF s.bridged e).map fun b => s.withBridged b
  | Event.replies e =>
      if answered e then none
      else (LocalReplies.step s.replies e).map fun replies => { s with replies := replies }

/-- The event leaves the thread, and the model, to the generation. -/
def yields (id : GenerationId) : Event -> Bool
  | Event.native e => Bridged.yields id e
  | Event.replies (LocalReplies.Event.loop e) => Bridged.yields id (Bridged.Event.other e)
  | Event.replies _ => true

/-!
# Both sides
-/

section Steps

variable {llama : Llama} {s s' : System} {e : Event} {id : GenerationId}

theorem native_delivery {b : Bridged} {e : Bridged.Event}
    (hother : forall e', e ≠ Bridged.Event.other e')
    (h : Bridged.step llama ModifiedUtf8.newStringUTF s.bridged e = some b) :
    exists e', Delivery.step s.replies.delivery e' = some b.delivery ∧ collects e' = none := by
  have hdeliver {e : LLamaAndroid.Event} {bridge : Bridge}
      (hcollects : collects (Delivery.Event.loop e) = none)
      (h : s.bridged.deliver e bridge = some b) :
      exists e', Delivery.step s.replies.delivery e' = some b.delivery ∧ collects e' = none := by
    rcases Option.map_eq_some_iff.mp h with ⟨delivery, hstep, rfl⟩
    exact ⟨_, hstep, hcollects⟩
  cases e with
  | other e => exact absurd rfl (hother e)
  | start id formatted nCtx =>
      simp only [Bridged.step] at h
      split at h
      · exact hdeliver rfl h
      · cases h
  | iterate =>
      simp only [Bridged.step] at h
      split at h
      · exact hdeliver rfl h
      · cases h
  | resume id =>
      simp only [Bridged.step] at h
      split at h
      · exact hdeliver rfl h
      · cases h

theorem step_native {e : Bridged.Event} (h : step llama s (Event.native e) = some s') :
    (forall e', e ≠ Bridged.Event.other e') ∧
      exists b, Bridged.step llama ModifiedUtf8.newStringUTF s.bridged e = some b ∧
        s' = s.withBridged b := by
  cases e with
  | other e => cases h
  | _ =>
      rcases Option.map_eq_some_iff.mp h with ⟨b, hstep, rfl⟩
      refine ⟨?_, b, hstep, rfl⟩
      rintro _ ⟨⟩

theorem step_replies_event {e : LocalReplies.Event}
    (h : step llama s (Event.replies e) = some s') :
    answered e = false ∧ s'.bridge = s.bridge ∧
      LocalReplies.step s.replies e = some s'.replies := by
  simp only [step] at h
  split at h
  · cases h
  · rename_i hanswered
    rcases Option.map_eq_some_iff.mp h with ⟨replies, hstep, rfl⟩
    exact ⟨Bool.eq_false_iff.mpr hanswered, rfl, hstep⟩

theorem step_replies (h : step llama s e = some s') :
    exists e', LocalReplies.step s.replies e' = some s'.replies := by
  cases e with
  | native e =>
      rcases step_native h with ⟨hother, b, hstep, rfl⟩
      rcases native_delivery hother hstep with ⟨e', hdelivery, hcollects⟩
      refine ⟨LocalReplies.Event.loop e', ?_⟩
      rw [LocalReplies.step, hcollects, Option.any_none, if_neg Bool.false_ne_true,
        LocalReplies.System.deliver, hdelivery]
      rfl
  | replies e => exact ⟨e, (step_replies_event h).right.right⟩

theorem replies_delivery {r r' : LocalReplies.System} {e : LocalReplies.Event}
    (hanswered : answered e = false) (hyields : yields id (Event.replies e) = true)
    (h : LocalReplies.step r e = some r') :
    r'.delivery = r.delivery ∨ exists e', Bridged.bridges e' = false ∧
      Bridged.yields id (Bridged.Event.other e') = true ∧
      Delivery.step r.delivery e' = some r'.delivery := by
  cases e with
  | app e =>
      simp only [LocalReplies.step] at h
      split at h
      · cases h
      · rcases Option.map_eq_some_iff.mp h with ⟨app, _, rfl⟩
        exact Or.inl rfl
  | loop e =>
      simp only [LocalReplies.step] at h
      split at h
      · cases h
      · rcases Option.map_eq_some_iff.mp h with ⟨delivery, hstep, rfl⟩
        exact Or.inr ⟨e, hanswered, hyields, hstep⟩
  | collect call =>
      simp only [LocalReplies.step] at h
      split at h
      · split at h
        · rcases Option.map_eq_some_iff.mp h with ⟨claimed, hclaimed, rfl⟩
          rcases Option.map_eq_some_iff.mp hclaimed with ⟨delivery, hstep, rfl⟩
          exact Or.inr ⟨_, rfl, rfl, hstep⟩
        · cases h
      · cases h
  | deliver call now =>
      simp only [LocalReplies.step] at h
      split at h
      · cases h
      · rename_i id' hid
        split at h
        · cases h
        · rcases Option.bind_eq_some_iff.mp h with ⟨taken, htaken, hresume⟩
          rcases Option.map_eq_some_iff.mp htaken with ⟨delivery, htake, rfl⟩
          rcases Option.map_eq_some_iff.mp hresume with ⟨app, _, rfl⟩
          refine Or.inr ⟨_, ?_, ?_, htake⟩
          · unfold LocalReplies.takeNext
            split <;> rfl
          · unfold LocalReplies.takeNext
            split <;> rfl
  | complete call now =>
      simp only [LocalReplies.step] at h
      split at h
      · cases h
      · split at h
        · rcases Option.map_eq_some_iff.mp h with ⟨resumed, hresume, rfl⟩
          rcases Option.map_eq_some_iff.mp hresume with ⟨app, _, rfl⟩
          exact Or.inl rfl
        · cases h
  | stop call now =>
      simp only [LocalReplies.step] at h
      split at h
      · cases h
      · rename_i id' hid
        rcases Option.map_eq_some_iff.mp h with ⟨resumed, hresume, rfl⟩
        rcases Option.map_eq_some_iff.mp hresume with ⟨app, _, rfl⟩
        cases hcancel : Delivery.step r.delivery
            (Delivery.Event.loop (LLamaAndroid.Event.cancel id')) with
        | none =>
            rw [LocalReplies.System.deliver, hcancel]
            exact Or.inl rfl
        | some delivery =>
            refine Or.inr ⟨_, rfl, rfl, hcancel.trans ?_⟩
            rw [LocalReplies.System.deliver, hcancel]
            rfl

theorem step_bridged (hyields : yields id e = true) (h : step llama s e = some s') :
    s'.bridged = s.bridged ∨ exists e', Bridged.yields id e' = true ∧
      Bridged.step llama ModifiedUtf8.newStringUTF s.bridged e' = some s'.bridged := by
  cases e with
  | native e =>
      rcases step_native h with ⟨_, b, hstep, rfl⟩
      exact Or.inr ⟨e, hyields, hstep⟩
  | replies e =>
      rcases step_replies_event h with ⟨hanswered, hbridge, hstep⟩
      rcases replies_delivery hanswered hyields hstep with
        hsame | ⟨e', hbridges, he', hdelivery⟩
      · left
        rw [System.bridged, System.bridged, hsame, hbridge]
      · refine Or.inr ⟨Bridged.Event.other e', he', ?_⟩
        rw [Bridged.step, hbridges, if_neg Bool.false_ne_true]
        simp only [System.bridged, hdelivery, Option.map_some, hbridge]

end Steps

/-!
# Runs
-/

section Runs

variable {llama : Llama} {s s' : System} {es : List Event}

theorem run_replies (hrun : runEvents (step llama) s es = some s') :
    exists es', runEvents LocalReplies.step s.replies es' = some s'.replies := by
  have hstep (s : System) (e : Event) (s' : System) (_ : True) (hs : step llama s e = some s') :
      s'.replies = s.replies ∨ exists e', True ∧
        LocalReplies.step s.replies e' = some s'.replies := by
    rcases step_replies hs with ⟨e', he'⟩
    exact Or.inr ⟨e', trivial, he'⟩
  rcases runEvents_project hstep (fun _ _ => trivial) hrun with ⟨es', _, hrun'⟩
  exact ⟨es', hrun'⟩

theorem run_bridged {id : GenerationId} (hyields : forall e, e ∈ es -> yields id e = true)
    (hrun : runEvents (step llama) s es = some s') :
    exists es', (forall e, e ∈ es' -> Bridged.yields id e = true) ∧
      runEvents (Bridged.step llama ModifiedUtf8.newStringUTF) s.bridged es' =
        some s'.bridged :=
  runEvents_project (fun _ _ _ hyields hs => step_bridged hyields hs) hyields hrun

end Runs

/-- A turn on the device whose generation has the thread to itself: what has been put together
is a first part of the text that the tokens spell; where the flow ends, the chat keeps the
text, and where it is stopped, that part, both without a name label and with their note. -/
theorem device_turn_stored {l : Launch} {llama : Llama} {piece : Token -> List UInt8}
    {s s' : System} {earlier es : List Event} {call : CallId} {id : GenerationId} {p : Prompt}
    {cancelled : Bool} {handles : Loaded} {formatted t : Text} {nCtx : Int}
    (hreached : runEvents (step llama) { replies := { app := l.app } } earlier = some s)
    (hp : s.replies.delivery.loop.producers id =
      some { point := Point.queued p, cancelled := cancelled })
    (hloaded : s.replies.delivery.loop.wrapper.threadLocalState = State.Loaded handles)
    (hspells : Spells llama piece nCtx (RunLoop.promptText formatted p) s.bridge t)
    (hyields : forall e, e ∈ es -> yields id e = true)
    (hrun : runEvents (step llama) s
      (Event.native (Bridged.Event.start id formatted nCtx) :: es) = some s')
    (hcall : s'.replies.generations call = some id) :
    exists outcome received,
      s'.replies.app.inFlight call = some (Coroutine.streaming outcome received) ∧
      received <+: t ∧
      (forall now s'',
        step llama s' (Event.replies (LocalReplies.Event.complete call now)) = some s'' ->
        Stores call (ReplyText.finalText (ReplyText.stripLeadingNameLabel t) outcome.note) now
          s'.replies s''.replies) ∧
      forall now s'',
        step llama s' (Event.replies (LocalReplies.Event.stop call now)) = some s'' ->
        Stores call (ReplyText.finalText (ReplyText.stripLeadingNameLabel received)
          (outcome.note.or (some ReplyText.replyStopped))) now s'.replies s''.replies := by
  rcases run_replies hreached with ⟨_, hreplies⟩
  rcases run_replies (runEvents_append.mpr ⟨s, hreached, hrun⟩) with ⟨_, hreplies'⟩
  have hlinked := (LocalReplies.run_inv hreplies').linked call id hcall
  rcases hlinked.streaming with ⟨outcome, hstreaming⟩
  -- the run loop and its native side
  rcases runEvents_cons.mp hrun with ⟨mid, hstart, hrest⟩
  rcases step_native hstart with ⟨_, started, hstarted, rfl⟩
  rcases run_bridged hyields hrest with ⟨es', hyields', hrest'⟩
  rcases Bridged.start_progress (LocalReplies.run_inv hreplies).delivery hp hloaded hyields'
    (runEvents_cons.mpr ⟨started, hstarted, hrest'⟩) with ⟨hinv, hprogress⟩
  rcases hinv.delivered id with ⟨hreceived, hall, _⟩
  have hproduced := hall hlinked.flowing
  refine ⟨outcome, _, hstreaming, ?_, ?_, ?_⟩
  · exact ((List.prefix_append _ _).trans hreceived).flatten.trans
      (hprogress.spells_part hspells)
  · intro now s'' hs
    rcases LocalReplies.stores_complete hcall hstreaming (step_replies_event hs).right.right
      with ⟨hended, hstores⟩
    rcases LocalReplies.onTheWay_ended hended with ⟨hnone, hnothing⟩
    have hwhole := hprogress.spells_whole hspells hnone hlinked.flowing
    have hnothing : s'.bridged.delivery.onTheWay id = [] := hnothing
    rw [hproduced, hnothing, List.append_nil] at hwhole
    rw [<- hwhole]
    exact hstores
  · intro now s'' hs
    exact LocalReplies.stores_stop hcall hstreaming (step_replies_event hs).right.right

def asked : List Event :=
  [Event.replies (LocalReplies.Event.app
    (ChatRepository.Event.send "hello".toList false 4096 true 1)),
   Event.replies (LocalReplies.Event.app
    (ChatRepository.Event.resume 0 Input.privacyRead 2)),
   Event.replies (LocalReplies.Event.loop
    (Delivery.Event.loop (LLamaAndroid.Event.load request {}))),
   Event.replies (LocalReplies.Event.collect 0)]

def answeredTurn : List Event :=
  [Event.native Bridged.Event.iterate, Event.native Bridged.Event.iterate,
   Event.replies (LocalReplies.Event.deliver 0 3), Event.native Bridged.Event.iterate,
   Event.native Bridged.Event.iterate, Event.native Bridged.Event.iterate,
   Event.replies (LocalReplies.Event.deliver 0 4),
   Event.replies (LocalReplies.Event.deliver 0 5),
   Event.replies (LocalReplies.Event.deliver 0 6)]

theorem device_turn_stored_answered :
    exists s s' s'', exists outcome : PrivacyRouter.StreamingOutcome Flow,
      runEvents (step (speaker Bridged.parted)) { replies := { app := firstLaunch.app } } asked =
        some s ∧
      runEvents (step (speaker Bridged.parted)) s
        (Event.native (Bridged.Event.start 0 [] 7) :: answeredTurn) = some s' ∧
      step (speaker Bridged.parted) s' (Event.replies (LocalReplies.Event.complete 0 7)) =
        some s'' ∧
      Stores 0 (ReplyText.finalText (ReplyText.stripLeadingNameLabel "€é".toList)
        outcome.note) 7 s'.replies s''.replies := by
  have hasked :
      (runEvents (step (speaker Bridged.parted)) { replies := { app := firstLaunch.app } }
        asked).map (fun s => (s.replies.delivery.loop.producers 0,
          s.replies.delivery.loop.wrapper.threadLocalState, s.bridge)) =
        some (some
          { point := Point.queued (LocalReplies.chat
              (localEngine.generate "hello".toList [])) },
          State.Loaded
            { path := request.pathToModel
              model := 1
              context := 2
              batch := 3
              sampler := 4 }, {}) := by decide +kernel
  have hanswered :
      (runEvents (step (speaker Bridged.parted)) { replies := { app := firstLaunch.app } }
        (asked ++ Event.native (Bridged.Event.start 0 [] 7) :: answeredTurn)).map
        (fun s => (s.replies.generations 0,
          (step (speaker Bridged.parted) s
            (Event.replies (LocalReplies.Event.complete 0 7))).isSome)) =
        some (some 0, true) := by decide +kernel
  rcases Option.map_eq_some_iff.mp hasked with ⟨s, hs, hqueued⟩
  rcases Option.map_eq_some_iff.mp hanswered with ⟨s', hall, hfacts⟩
  rcases runEvents_append.mp hall with ⟨mid, hmid, hrun⟩
  rw [hs] at hmid
  cases hmid
  simp only [Prod.mk.injEq] at hqueued hfacts
  rcases hqueued with ⟨hp, hloaded, hbridge⟩
  rcases Option.isSome_iff_exists.mp hfacts.right with ⟨s'', hcomplete⟩
  have hyields : forall e, e ∈ answeredTurn -> yields 0 e = true :=
    List.all_eq_true.mp (by decide : answeredTurn.all (yields 0) = true)
  have hspells := Bridged.spells_parted (RunLoop.promptText []
    (LocalReplies.chat (localEngine.generate "hello".toList [])))
  rw [<- hbridge] at hspells
  rcases device_turn_stored hs hp hloaded hspells hyields hrun hfacts.left with
    ⟨outcome, received, _, _, hstores, _⟩
  exact ⟨s, s', s'', outcome, hs, hrun, hcomplete, hstores 7 s'' hcomplete⟩

end DeviceTurns
end DomainAI
