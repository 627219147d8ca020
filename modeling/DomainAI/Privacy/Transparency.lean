import DomainAI.Data.Calls
import DomainAI.Data.ChatFrame

/-!
# Sent-payload transparency

The preview stored on a cloud reply is the prompt as it was sent.  It stays with
the reply; whether it shows everything that was sent is decided when the turn is
routed, by the history that went along.
-/

namespace DomainAI
namespace ChatRepository

open Library PrivacyRouter Chats

/-!
# Messages keep what they were made with
-/

def EveryMessage (Q : Message -> Prop) (l : List Conversation) : Prop :=
  forall c, c ∈ l -> forall m, m ∈ c.messages -> Q m

/-- A property of every message in memory, on disk and in flight. -/
structure Everywhere (Q : Message -> Prop) (s : App) : Prop where
  chats : EveryMessage Q s.chats.conversations
  held : Held (EveryMessage Q) s

section EveryMessage

variable {Q : Message -> Prop}

theorem everyMessage_nil : EveryMessage Q [] := by
  intro c hc
  cases hc

theorem EveryMessage.filter {l : List Conversation} (h : EveryMessage Q l)
    (p : Conversation -> Bool) : EveryMessage Q (l.filter p) :=
  fun c hc => h c (List.mem_of_mem_filter hc)

theorem EveryMessage.carry {s s' : Chats} (h : EveryMessage Q s.conversations)
    (hcarries : Carries s s') : EveryMessage Q s'.conversations := by
  intro c hc m hm
  rcases hcarries.carried c hc with ⟨c0, hc0, _, hmessages⟩ | ⟨_, hnil⟩
  · exact h c0 hc0 m (hmessages ▸ hm)
  · rw [hnil] at hm
    cases hm

theorem EveryMessage.updateActive {s : Chats}
    (h : EveryMessage Q s.conversations) {f : Conversation -> Conversation}
    (hf : forall c, c ∈ s.conversations -> forall m, m ∈ (f c).messages -> Q m) :
    EveryMessage Q (s.updateActive f).conversations := by
  rcases hactive : s.activeId with _ | id
  · simpa [Chats.updateActive, hactive] using h
  · intro c hc m hm
    rw [updateActive_conversations hactive] at hc
    rcases List.mem_map.mp hc with ⟨c0, hc0, rfl⟩
    split at hm
    · exact hf c0 hc0 m hm
    · exact h c0 hc0 m hm

theorem EveryMessage.appendPrompt {s : Chats}
    (h : EveryMessage Q s.conversations)
    (hnew : forall m : Message, s.nextUuid ≤ m.id -> Q m) (prompt : Text)
    (now : Millis) :
    EveryMessage Q (appendPrompt prompt now s).conversations := by
  apply EveryMessage.updateActive (s := s.draw) h
  intro c hc m hm
  rcases List.mem_append.mp hm with hold | hlast
  · exact h c hc m hold
  · rw [List.mem_singleton.mp hlast]
    exact hnew _ (Nat.le_refl _)

theorem EveryMessage.appendSeed {s : Chats} (h : EveryMessage Q s.conversations)
    {reply : Message} (hreply : Q reply) (prompt : Text) (now : Millis) :
    EveryMessage Q (appendSeed prompt reply now s).conversations := by
  apply EveryMessage.updateActive (s := s.draw) h
  intro c hc m hm
  rw [Conversation.retitleIfNeeded_messages,
    Conversation.addMessage_messages] at hm
  rcases List.mem_append.mp hm with hold | hlast
  · exact h c hc m hold
  · rw [List.mem_singleton.mp hlast]
    exact hreply

theorem EveryMessage.writeReply {s : Chats} (h : EveryMessage Q s.conversations)
    (htext : forall (m : Message) (text : Text), Q m ->
      Q { m with text := text }) (text : Text) (now : Millis) :
    EveryMessage Q (writeReply text now s).conversations := by
  apply h.updateActive
  intro c hc m hm
  rw [Conversation.updateLastText_messages] at hm
  rcases List.eq_nil_or_concat c.messages with hnil | ⟨front, last, hlast⟩
  · rw [hnil] at hm
    cases hm
  · rw [hlast, List.concat_eq_append, Conversation.replaceLastText_append] at hm
    rcases List.mem_append.mp hm with hfront | hnew
    · apply h c hc m
      rw [hlast, List.concat_eq_append]
      exact List.mem_append_left _ hfront
    · rw [List.mem_singleton.mp hnew]
      refine htext last text (h c hc last ?_)
      rw [hlast, List.concat_eq_append]
      exact List.mem_append_right _ (List.mem_singleton.mpr rfl)

theorem EveryMessage.restoreFrom {s : Chats} {loaded : List Conversation}
    (h : EveryMessage Q loaded) (now : Millis) :
    EveryMessage Q (s.restoreFrom loaded now).conversations := by
  unfold Chats.restoreFrom
  split
  · intro c hc m hm
    rw [List.mem_singleton.mp hc] at hm
    cases hm
  · intro c hc
    exact h c (List.mem_of_mem_filter ((List.mem_insertionSort _).mp hc))

end EveryMessage

section Steps

variable {Q : Message -> Prop} {s s' : App}

theorem everyMessage_beginSend (h : EveryMessage Q s.chats.conversations)
    (hnew : forall m : Message, s.chats.nextUuid ≤ m.id -> Q m) (prompt : Text)
    (useCloud : Bool) (contextTokens : Int) (loaded : Bool) (now : Millis) :
    EveryMessage Q (beginSend prompt useCloud contextTokens loaded now
      s).chats.conversations := by
  have hcarries := (carries_ensureActive s.chats now).trans (carries_draw _)
  have hopened := h.carry hcarries
  unfold beginSend
  split
  · exact hopened
  · split
    · exact hopened.appendPrompt (fun m hm => hnew m (hcarries.supply.trans hm))
        _ _
    · exact hopened

theorem everyMessage_endSummary (h : EveryMessage Q s.chats.conversations)
    (hnew : forall m : Message, s.chats.nextUuid ≤ m.id -> Q m) (call : CallId)
    (send : SendCall) (active : Conversation) (completion : Option Text)
    (now : Millis) :
    EveryMessage Q
      (endSummary call send active completion now s).chats.conversations := by
  have hcarries := (carries_draw s.chats).trans
    (carries_withSummary _ completion active)
  exact (h.carry hcarries).appendPrompt
    (fun m hm => hnew m (hcarries.supply.trans hm)) _ _

theorem everyMessage_endStream (h : EveryMessage Q s.chats.conversations)
    (htext : forall (m : Message) (text : Text), Q m ->
      Q { m with text := text }) (call : CallId)
    (outcome : StreamingOutcome Flow) (builder : Text) (note : Option Text)
    (now : Millis) :
    EveryMessage Q
      (endStream call outcome builder note now s).chats.conversations := by
  rw [endStream_chats]
  exact h.writeReply htext _ _

theorem resume_everyMessage {call : CallId} {input : Input} {now : Millis}
    (h : Everywhere Q s)
    (hnew : forall m : Message, s.chats.nextUuid ≤ m.id -> Q m)
    (htext : forall (m : Message) (text : Text), Q m ->
      Q { m with text := text })
    (hresume : resume call input now s = some s') :
    EveryMessage Q s'.chats.conversations := by
  unfold resume at hresume
  split at hresume
  · cases hresume
    exact h.chats
  · rename_i loaded hcall
    cases hresume
    exact (h.held.inFlight call _ loaded hcall rfl).restoreFrom now
  · cases hresume
    exact h.chats
  · cases hresume
    exact everyMessage_endSummary h.chats hnew call _ _ _ now
  · cases hresume
    exact everyMessage_endSummary h.chats hnew call _ _ none now
  · cases hresume
    exact h.chats.appendSeed (hnew _ (Nat.le_refl _)) _ _
  · cases hresume
    exact h.chats
  · cases hresume
    exact h.chats.writeReply htext _ _
  · cases hresume
    exact everyMessage_endStream h.chats htext _ _ _ _ _
  · cases hresume
    exact everyMessage_endStream h.chats htext _ _ _ _ _
  · cases hresume
    exact everyMessage_endStream h.chats htext _ _ _ _ _
  · cases hresume
    exact h.chats
  · cases hresume
    exact h.chats
  · cases hresume
    exact h.chats
  · cases hresume
    exact h.chats
  · cases hresume
    exact h.chats
  · cases hresume
    exact h.chats
  · cases hresume

theorem step_everywhere {e : Event} (h : Everywhere Q s)
    (hnew : forall m : Message, s.chats.nextUuid ≤ m.id -> Q m)
    (htext : forall (m : Message) (text : Text), Q m ->
      Q { m with text := text }) (hstep : step s e = some s') :
    Everywhere Q s' := by
  have hchats : EveryMessage Q s'.chats.conversations := by
    cases e with
    | restore =>
        simp only [step] at hstep
        split at hstep <;> cases hstep <;> exact h.chats
    | send prompt useCloud contextTokens loaded now =>
        cases hstep
        exact everyMessage_beginSend h.chats hnew _ _ _ _ _
    | newConversation now =>
        cases hstep
        exact h.chats.carry (carries_newConversation _ _)
    | selectConversation id =>
        cases hstep
        exact h.chats.carry (carries_selectConversation _ _)
    | deleteConversation id now =>
        cases hstep
        rw [persist_chats]
        exact h.chats.carry (carries_deleteConversation _ _ _)
    | renameConversation id title =>
        simp only [step] at hstep
        split at hstep
        · cases hstep
          rw [persist_chats]
          exact h.chats.carry (carries_renameConversation _ _ _)
        · cases hstep
          exact h.chats
    | resume call input now => exact resume_everyMessage h hnew htext hstep
    | _ =>
        cases hstep
        exact h.chats
  exact ⟨hchats, step_held everyMessage_nil h.held
    (fun _ => hchats.filter _) hstep⟩

end Steps

/-!
# Previews
-/

/-- The preview shows every conversation text handed to the engine. -/
def Shows (preview : Option Text) (tokens : Flow) : Prop :=
  forall text, text ∈ tokens.prompt :: tokens.history.map Message.text ->
    exists shown, preview = some shown ∧ Text.Contains shown text

/-- Wherever the reply is found, this of it is as it was made. -/
def SameField (field : Message -> alpha) (reply m : Message) : Prop :=
  m.id = reply.id -> field m = field reply

/-- The stored preview of every cloud reply shows what was sent for it. -/
def Transparent (s : App) : Prop :=
  forall call reply tokens, Observation.seeded call reply tokens ∈ s.log ->
    tokens.side = EngineSide.cloud ->
    Shows reply.sentPayloadPreview tokens ∧
      EveryMessage (SameField Message.sentPayloadPreview reply) s.chats.conversations

/-- The history, as it is sent, occurs in the prompt, as it is sent. -/
def HistoryInPrompt (privacy : PrivacyState) (prompt : Text)
    (history : List Message) : Prop :=
  forall m, m ∈ historyToSend privacy history ->
    Text.Contains (toSend privacy prompt) m.text

/-- A turn that is routed to the cloud sends no text beyond its prompt. -/
def SendsOnlyPrompt (s : App) : Event -> Prop
  | Event.resume call Input.privacyRead _ =>
      match s.inFlight call with
      | some (Coroutine.readingPrivacy send history) =>
          CloudPermitted (remoteProvider s.remoteConfig) s.privacy
            send.useCloudForThisTurn ->
          HistoryInPrompt s.privacy send.prompt history
      | _ => True
  | _ => True

theorem remoteProvider_generate {saved : Option RemoteEngine.Config}
    {r : Remote Flow} (h : remoteProvider saved = some r) (prompt : Text)
    (history : List Message) :
    r.engine.generate prompt history =
      { side := EngineSide.cloud, prompt := prompt, history := history } := by
  rcases Option.map_eq_some_iff.mp h with ⟨config, _, rfl⟩
  rfl

theorem routed_cases (send : SendCall) (history : List Message) (s : App) :
    (CloudPermitted (remoteProvider s.remoteConfig) s.privacy
        send.useCloudForThisTurn ∧
      (routed send history s).tokens =
        { side := EngineSide.cloud, prompt := toSend s.privacy send.prompt,
          history := historyToSend s.privacy history } ∧
      (routed send history s).sentPayloadPreview =
        some (toSend s.privacy send.prompt)) ∨
    (¬ CloudPermitted (remoteProvider s.remoteConfig) s.privacy
        send.useCloudForThisTurn ∧
      (routed send history s).tokens.side = EngineSide.onDevice) := by
  rcases answer_cases localEngine (remoteProvider s.remoteConfig) send.prompt
      history s.privacy send.useCloudForThisTurn with
    ⟨hpermitted, r, hr, hanswer⟩ | ⟨hrefused, note, _, hanswer⟩
  · left
    refine ⟨hpermitted, ?_, ?_⟩
    · rw [routed, hanswer]
      exact remoteProvider_generate hr _ _
    · rw [routed, hanswer]
  · right
    refine ⟨hrefused, ?_⟩
    rw [routed, hanswer]
    rfl

theorem shows_routed (send : SendCall) (history : List Message) (s : App)
    (id : Uuid) (now : Millis) :
    ((routed send history s).tokens.side = EngineSide.cloud ->
      Shows (seed id (routed send history s) now).sentPayloadPreview
        (routed send history s).tokens) <->
    (CloudPermitted (remoteProvider s.remoteConfig) s.privacy
        send.useCloudForThisTurn ->
      HistoryInPrompt s.privacy send.prompt history) := by
  rcases routed_cases send history s with
    ⟨hpermitted, htokens, hpreview⟩ | ⟨hrefused, hside⟩
  · rw [seed, hpreview, htokens]
    constructor
    · intro hshows _ m hm
      rcases hshows rfl m.text
        (List.mem_cons_of_mem _ (List.mem_map_of_mem hm)) with
        ⟨shown, hshown, hcontains⟩
      rwa [← Option.some.inj hshown] at hcontains
    · intro hhistory _ text htext
      refine ⟨_, rfl, ?_⟩
      rcases List.mem_cons.mp htext with rfl | hmem
      · exact List.infix_rfl
      · rcases List.mem_map.mp hmem with ⟨m, hm, rfl⟩
        exact hhistory hpermitted m hm
  · rw [hside]
    exact ⟨fun _ h => absurd h hrefused, fun _ h => by cases h⟩

/-!
# Replies keep their previews
-/

def Recorded (field : Message -> alpha) (s : App) : Prop :=
  forall call reply tokens, Observation.seeded call reply tokens ∈ s.log ->
    reply.id < s.chats.nextUuid ∧ Everywhere (SameField field reply) s

theorem everywhere_of_fresh {s : App} (h : WellFormed s)
    (field : Message -> alpha) {reply : Message}
    (hreply : s.chats.nextUuid ≤ reply.id) :
    Everywhere (SameField field reply) s := by
  have hlist : forall l, Sound s.chats.nextUuid l ->
      EveryMessage (SameField field reply) l := by
    intro l hl c hc m hm hid
    have hlt := hl.messageIds c hc m hm
    rw [hid] at hlt
    exact absurd hlt (Nat.not_lt_of_le hreply)
  exact ⟨hlist _ h.chats.sound, h.held.mono hlist⟩

theorem step_seeded {s s' : App} {e : Event} {call : CallId} {reply : Message}
    {tokens : Flow} (hstep : step s e = some s')
    (hmem : Observation.seeded call reply tokens ∈ s'.log) :
    Observation.seeded call reply tokens ∈ s.log ∨
      exists send history now,
        e = Event.resume call Input.privacyRead now ∧
        s.inFlight call = some (Coroutine.readingPrivacy send history) ∧
        reply = seed s.chats.nextUuid (routed send history s) now ∧
        tokens = (routed send history s).tokens := by
  rcases step_touches hstep with ⟨os, hobserves, htouches⟩
  rw [htouches.log] at hmem
  rcases List.mem_append.mp hmem with hold | hnew
  · exact Or.inl hold
  · right
    cases hobserves with
    | nothing hsilent => cases hnew
    | @routed other send history now hcall =>
        rcases List.mem_append.mp hnew with hroute | hseeded
        · rcases List.mem_append.mp hroute with hroute | hroute
          all_goals
            split at hroute
            · cases List.mem_singleton.mp hroute
            · cases hroute
        · cases List.mem_singleton.mp hseeded
          exact ⟨send, history, now, rfl, hcall, rfl, rfl⟩
    | _ => simp at hnew

theorem step_recorded {field : Message -> alpha}
    (hfield : forall (m : Message) (text : Text),
      field { m with text := text } = field m)
    {s s' : App} {e : Event} (hs : WellFormed s) (h : Recorded field s)
    (hstep : step s e = some s') : Recorded field s' := by
  have hle := (step_chats_wellFormed hs hstep).right
  intro call reply tokens hmem
  rcases step_seeded hstep hmem with
    hold | ⟨send, history, now, rfl, hcall, rfl, rfl⟩
  · rcases h call reply tokens hold with ⟨hlt, heverywhere⟩
    refine ⟨lt_of_lt_of_le hlt hle, ?_⟩
    refine step_everywhere heverywhere ?_ ?_ hstep
    · intro m hm hid
      rw [hid] at hm
      exact absurd hlt (Nat.not_lt_of_le hm)
    · intro m text hm hid
      rw [hfield]
      exact hm hid
  · have hfresh : Everywhere
        (SameField field (seed s.chats.nextUuid (routed send history s) now)) s :=
      everywhere_of_fresh hs field (Nat.le_refl _)
    simp only [step, resume, hcall] at hstep
    cases hstep
    have hchats : EveryMessage
        (SameField field (seed s.chats.nextUuid (routed send history s) now))
        (route call send history now s).chats.conversations :=
      hfresh.chats.appendSeed (fun _ => rfl) _ _
    refine ⟨?_, hchats, ?_⟩
    · exact Nat.lt_of_lt_of_eq (Nat.lt_succ_self _)
        (appendSeed_nextUuid s.chats _ _ _).symm
    · exact ((hfresh.held.onChats _).observe _).suspend call (by intro l hl; cases hl)

theorem step_transparent {s s' : App} {e : Event} (hs : WellFormed s)
    (h : Recorded Message.sentPayloadPreview s) (hstep : step s e = some s') :
    Transparent s' <-> Transparent s ∧ SendsOnlyPrompt s e := by
  have hrecorded := step_recorded (fun _ _ => rfl) hs h hstep
  rcases step_touches hstep with ⟨os, _, htouches⟩
  constructor
  · intro htransparent
    constructor
    · intro call reply tokens hmem hside
      have hshows := (htransparent call reply tokens
        (htouches.log ▸ List.mem_append_left os hmem) hside).left
      exact ⟨hshows, (h call reply tokens hmem).right.chats⟩
    · cases e with
      | resume call input now =>
          cases input with
          | privacyRead =>
              simp only [SendsOnlyPrompt]
              split
              · rename_i send history hcall
                refine (shows_routed send history s s.chats.nextUuid now).mp
                  fun hside => ?_
                simp only [step, resume, hcall] at hstep
                cases hstep
                refine (htransparent call _ _ ?_ hside).left
                exact List.mem_append_right _ (List.mem_append_right _
                  (List.mem_singleton.mpr rfl))
              · trivial
          | _ => trivial
      | _ => trivial
  · intro h call reply tokens hmem hside
    rcases h with ⟨htransparent, honly⟩
    refine ⟨?_, (hrecorded call reply tokens hmem).right.chats⟩
    rcases step_seeded hstep hmem with
      hold | ⟨send, history, now, rfl, hcall, rfl, rfl⟩
    · exact (htransparent call reply tokens hold hside).left
    · simp only [SendsOnlyPrompt, hcall] at honly
      exact (shows_routed send history s s.chats.nextUuid now).mpr honly hside

theorem run_transparent {s s' : App} {es : List Event} (hs : WellFormed s)
    (h : Recorded Message.sentPayloadPreview s) (hrun : runEvents step s es = some s') :
    Transparent s' <->
      Transparent s ∧ AllSteps step SendsOnlyPrompt s es := by
  induction es generalizing s with
  | nil =>
      cases hrun
      exact ⟨fun h => ⟨h, trivial⟩, And.left⟩
  | cons e es ih =>
      rcases runEvents_cons.mp hrun with ⟨mid, hmid, hrest⟩
      rw [ih (step_wellFormed hs hmid) (step_recorded (fun _ _ => rfl) hs h hmid) hrest,
        step_transparent hs h hmid]
      constructor
      · intro h
        rcases h with ⟨⟨htransparent, hnow⟩, hlater⟩
        exact ⟨htransparent, AllSteps.cons hnow hmid hlater⟩
      · intro h
        rcases h with ⟨htransparent, hnow, hlater⟩
        exact ⟨⟨htransparent, hnow⟩, hlater mid hmid⟩

/--
A run ends with every cloud reply showing what was sent for it exactly when no
cloud turn of the run sent a history that its prompt does not contain.
-/
theorem transparent_iff {l : Launch} {s : App} {es : List Event}
    (hrun : runEvents step l.app es = some s) :
    Transparent s <-> AllSteps step SendsOnlyPrompt l.app es := by
  have hrecorded : Recorded Message.sentPayloadPreview l.app := by
    intro call reply tokens hmem
    cases hmem
  rw [run_transparent l.wellFormed hrecorded hrun]
  apply and_iff_right
  intro call reply tokens hmem
  cases hmem

def cloudTurn : List Event :=
  cloudSetup ++ [Event.send "hello".toList true 4096 false 1,
    Event.resume 0 Input.privacyRead 2, Event.resume 0 Input.completed 3]

theorem transparent_iff_cloudTurn :
    exists s, runEvents step firstLaunch.app cloudTurn = some s ∧
      s.log.any (fun o => o matches Observation.collected _ _ _) = true ∧
      Transparent s := by
  refine ⟨_, rfl, by decide, ?_⟩
  apply (@transparent_iff firstLaunch _ cloudTurn rfl).mpr
  refine AllSteps.cons trivial rfl (AllSteps.cons trivial rfl ?_)
  refine AllSteps.cons trivial rfl (AllSteps.cons ?_ rfl ?_)
  · intro _ m hm
    cases hm
  · exact AllSteps.cons trivial rfl trivial

def secondCloudTurn : List Event :=
  cloudTurn ++ [Event.send "again".toList true 4096 false 4,
    Event.resume 1 Input.privacyRead 5]

def secondTokens : Flow where
  side := EngineSide.cloud
  prompt := "again".toList
  history :=
    [{ id := 2, role := Role.USER, text := "hello".toList, timestamp := 1 },
     { id := 3, role := Role.ORACLE, text := [], route := Route.CLOUD,
       sentPayloadPreview := some "hello".toList, timestamp := 2 }]

def secondReply : Message where
  id := 6
  role := Role.ORACLE
  text := []
  route := Route.CLOUD
  sentPayloadPreview := some "again".toList
  timestamp := 5

/-- The second turn sends the first prompt without showing it. -/
theorem transparent_fails :
    exists s, runEvents step firstLaunch.app secondCloudTurn = some s ∧
      Observation.seeded 1 secondReply secondTokens ∈ s.log ∧
      ¬ Transparent s := by
  refine ⟨_, rfl, by decide, ?_⟩
  intro h
  rcases (h 1 secondReply secondTokens (by decide) rfl).left "hello".toList
    (by decide) with ⟨shown, hshown, hcontains⟩
  cases hshown
  revert hcontains
  decide

/-- The texts of the request for a transparent reply are all in its preview. -/
theorem payload_shown {s : App} (h : Transparent s) {call : CallId}
    {reply : Message} {tokens : Flow}
    (hseeded : Observation.seeded call reply tokens ∈ s.log)
    (hcloud : tokens.side = EngineSide.cloud) (config : RemoteEngine.Config)
    {text : Text}
    (htext : text ∈ (RemoteEngine.buildPayload config tokens.prompt
      tokens.history).messages.tail.map RemoteEngine.MessageObject.content) :
    exists shown, reply.sentPayloadPreview = some shown ∧
      Text.Contains shown text := by
  rw [RemoteEngine.buildPayload_contents] at htext
  apply (h call reply tokens hseeded hcloud).left text
  rcases List.mem_append.mp htext with hhistory | hprompt
  · exact List.mem_cons_of_mem _ hhistory
  · rw [List.mem_singleton.mp hprompt]
    exact List.mem_cons_self

end ChatRepository
end DomainAI
