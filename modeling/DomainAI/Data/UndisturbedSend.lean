import DomainAI.Data.ConversationList

/-!
# A send that nothing disturbs

From the prompt to the saved reply: what one send does to the open conversation
when no other operation comes in between, for every stream and every way it ends.
-/

namespace DomainAI

/-!
# The open conversation
-/

namespace Chats

structure Replaced (base : Chats) (c : Conversation) (s : Chats) : Prop where
  activeId : s.activeId = some c.id
  conversations : s.conversations =
    base.conversations.map fun d => if d.id = c.id then c else d

namespace Replaced

variable {base s : Chats} {c : Conversation}

theorem start (hsound : Sound base.nextUuid base.conversations)
    (h : base.currentActive = some c) : Replaced base c base := by
  constructor
  · exact currentActive_id h
  · have hsame : forall d, d ∈ base.conversations ->
        (if d.id = c.id then c else d) = d := by
      intro d hd
      split
      · rename_i hid
        exact List.inj_on_of_nodup_map hsound.nodup (currentActive_mem h) hd hid.symm
      · rfl
    rw [List.map_congr_left hsame, List.map_id']

theorem draw (h : Replaced base c s) : Replaced base c s.draw :=
  ⟨h.activeId, h.conversations⟩

theorem updateActive (h : Replaced base c s) {f : Conversation -> Conversation}
    (hid : (f c).id = c.id) : Replaced base (f c) (s.updateActive f) := by
  constructor
  · rw [updateActive_activeId, h.activeId, hid]
  · rw [updateActive_conversations h.activeId, h.conversations, List.map_map, hid]
    apply List.map_congr_left
    intro d _
    by_cases hd : d.id = c.id
    · simp [hd]
    · simp [hd]

end Replaced
end Chats

namespace ChatRepository

open Library PrivacyRouter

/-!
# Requests
-/

inductive StreamEnd where
  | completed
  | failed (message : Option Text)
  | cancelled
  deriving DecidableEq, Repr

namespace StreamEnd

def input : StreamEnd -> Input
  | completed => Input.completed
  | failed message => Input.failed message
  | cancelled => Input.cancelled

/-- The note that goes with an end, unless the router has one. -/
def note : StreamEnd -> Option Text
  | completed => none
  | failed message => some (ReplyText.replyRequestFailed (message.getD []))
  | cancelled => some ReplyText.replyStopped

end StreamEnd

structure SendRequest where
  prompt : Text
  useCloudForThisTurn : Bool
  contextTokens : Int
  localModelLoaded : Bool
  /-- What the on-device engine answers, if it is asked for a summary. -/
  completion : Option Text
  deltas : List (Text × Millis)
  ending : StreamEnd
  faults : List ConversationStore.Fault
  sentAt : Millis
  summarizedAt : Millis
  routedAt : Millis
  endedAt : Millis
  savedAt : Millis
  deriving DecidableEq, Repr

namespace SendRequest

def send (r : SendRequest) : SendCall where
  prompt := r.prompt
  useCloudForThisTurn := r.useCloudForThisTurn

def prepare (r : SendRequest) (id : Uuid) (now : Millis) (c : Conversation) :
    List Message × Conversation :=
  History.prepareHistory r.contextTokens r.localModelLoaded r.completion id now c

def asksForSummary (r : SendRequest) (s : App) : Bool :=
  match s.chats.currentActive with
  | none => false
  | some active =>
      match History.plan r.contextTokens r.localModelLoaded s.chats.nextUuid r.sentAt
          active with
      | History.Plan.ready _ => false
      | History.Plan.summarize _ => true

def opening (r : SendRequest) (s : App) : List Event :=
  Event.send r.prompt r.useCloudForThisTurn r.contextTokens r.localModelLoaded
      r.sentAt ::
    (if r.asksForSummary s then
      [Event.resume s.nextCall (Input.summarized r.completion) r.summarizedAt]
    else []) ++
    [Event.resume s.nextCall Input.privacyRead r.routedAt]

def streaming (r : SendRequest) (s : App) (k : Nat) : List Event :=
  (r.deltas.take k).map fun d => Event.resume s.nextCall (Input.delta d.1) d.2

def closing (r : SendRequest) (s : App) : List Event :=
  [Event.resume s.nextCall r.ending.input r.endedAt,
   Event.resume s.nextCall (Input.saved r.faults) r.savedAt]

def events (r : SendRequest) (s : App) : List Event :=
  r.opening s ++ r.streaming s r.deltas.length ++ r.closing s

def received (r : SendRequest) (k : Nat) : Text :=
  ((r.deltas.take k).map Prod.fst).flatten

end SendRequest

/-!
# Steps
-/

theorem ensureActive_of_open {s : Chats} {c : Conversation}
    (h : s.currentActive = some c) (now : Millis) : ensureActive now s = s := by
  rw [ensureActive, h]
  rfl

theorem openSend_chats {s : App} {c : Conversation} (h : s.chats.currentActive = some c)
    (now : Millis) : (openSend now s).chats = s.chats.draw := by
  show (ensureActive now s.chats).draw = s.chats.draw
  rw [ensureActive_of_open h]

/-- The open conversation has become this one, and nothing else has changed that a
send depends on. -/
structure Sending (base : App) (c : Conversation) (s : App) : Prop where
  chats : Chats.Replaced base.chats c s.chats
  privacy : s.privacy = base.privacy
  remoteConfig : s.remoteConfig = base.remoteConfig
  restored : s.restored = base.restored
  supply : base.chats.nextUuid < s.chats.nextUuid

def userMessage (id : Uuid) (prompt : Text) (now : Millis) : Message where
  id := id
  role := Role.USER
  text := prompt
  timestamp := now

namespace Sending

variable {base s : App} {c : Conversation}

theorem openSend (hsound : Sound base.chats.nextUuid base.chats.conversations)
    (h : base.chats.currentActive = some c) (now : Millis) :
    Sending base c (ChatRepository.openSend now base) := by
  refine ⟨?_, rfl, rfl, rfl, ?_⟩
  · rw [openSend_chats h]
    exact (Chats.Replaced.start hsound h).draw
  · rw [openSend_chats h]
    exact Nat.lt_succ_self _

theorem suspend (h : Sending base c s) (call : CallId) (p : Coroutine) :
    Sending base c (s.suspend call p) :=
  ⟨h.chats, h.privacy, h.remoteConfig, h.restored, h.supply⟩

theorem observe (h : Sending base c s) (os : List Observation) :
    Sending base c (s.observe os) :=
  ⟨h.chats, h.privacy, h.remoteConfig, h.restored, h.supply⟩

theorem finish (h : Sending base c s) (call : CallId) :
    Sending base c (s.finish call) :=
  ⟨h.chats, h.privacy, h.remoteConfig, h.restored, h.supply⟩

theorem onFiles (h : Sending base c s) (files : ConversationStore.Files) :
    Sending base c (s.onFiles files) :=
  ⟨h.chats, h.privacy, h.remoteConfig, h.restored, h.supply⟩

theorem draw (h : Sending base c s) : Sending base c (s.onChats Chats.draw) :=
  ⟨h.chats.draw, h.privacy, h.remoteConfig, h.restored, Nat.lt_succ_of_lt h.supply⟩

theorem updateActive (h : Sending base c s) {f : Conversation -> Conversation}
    (hid : (f c).id = c.id) : Sending base (f c) (s.onChats (Chats.updateActive f)) := by
  refine ⟨h.chats.updateActive hid, h.privacy, h.remoteConfig, h.restored, ?_⟩
  show _ < (s.chats.updateActive f).nextUuid
  rw [Chats.updateActive_nextUuid]
  exact h.supply

theorem withHistory (h : Sending base c s) (call : CallId) (send : SendCall)
    (history : List Message) (now : Millis) :
    Sending base (c.addMessage (userMessage s.chats.nextUuid send.prompt now) now)
      (ChatRepository.withHistory call send history now s) :=
  (h.draw.updateActive rfl).suspend call _

theorem endSummary (h : Sending base c s) (call : CallId) (send : SendCall)
    (active : Conversation) (completion : Option Text) (now : Millis) :
    Sending base
      ((History.withSummary completion active c).addMessage
        (userMessage (s.chats.nextUuid + 1) send.prompt now) now)
      (ChatRepository.endSummary call send active completion now s) := by
  have hsummary : Sending base (History.withSummary completion active c)
      (s.onChats fun chats =>
        chats.draw.updateActive (History.withSummary completion active)) :=
    h.draw.updateActive (History.withSummary_id completion active c)
  have hwith := hsummary.withHistory call send
    (History.afterSummary completion s.chats.nextUuid now active) now
  have hnext : (s.onChats fun chats =>
      chats.draw.updateActive (History.withSummary completion active)).chats.nextUuid =
        s.chats.nextUuid + 1 :=
    Chats.updateActive_nextUuid _ _
  rw [hnext] at hwith
  exact hwith

theorem routed_eq (h : Sending base c s) (send : SendCall) (history : List Message) :
    routed send history s = routed send history base := by
  rw [routed, h.privacy, h.remoteConfig]
  rfl

theorem route (h : Sending base c s) (call : CallId) (send : SendCall)
    (history : List Message) (now : Millis) :
    Sending base
      ((c.addMessage (seed s.chats.nextUuid (routed send history base) now)
        now).retitleIfNeeded send.prompt)
      (ChatRepository.route call send history now s) := by
  rw [<- h.routed_eq]
  have hseeded : Sending base
      ((c.addMessage (seed s.chats.nextUuid (routed send history s) now)
        now).retitleIfNeeded send.prompt)
      (s.onChats (appendSeed send.prompt
        (seed s.chats.nextUuid (routed send history s) now) now)) :=
    h.draw.updateActive (f := fun c =>
      (c.addMessage (seed s.chats.nextUuid (routed send history s) now)
        now).retitleIfNeeded send.prompt) (Conversation.retitleIfNeeded_id _ _)
  exact (hseeded.observe _).suspend call _

theorem receive (h : Sending base c s) (call : CallId)
    (outcome : StreamingOutcome Flow) (builder : Text) (now : Millis) :
    Sending base
      (c.updateLastText (ReplyText.stripLeadingNameLabel builder) now)
      (ChatRepository.receive call outcome builder now s) :=
  (h.updateActive (Conversation.updateLastText_id _ _ _)).suspend call _

theorem persist (h : Sending base c s) (hrestored : base.restored = true)
    (call : CallId) (cancellable : Bool) :
    Sending base c (ChatRepository.persist call cancellable s) ∧
      exists snapshot, (ChatRepository.persist call cancellable s).inFlight call =
        some (Coroutine.saving cancellable snapshot) := by
  unfold ChatRepository.persist
  rw [if_pos (h.restored.trans hrestored)]
  constructor
  · exact h.suspend call _
  · exact ⟨_, App.suspend_inFlight_self _ _ _⟩

theorem endStream (h : Sending base c s) (hrestored : base.restored = true)
    (call : CallId) (outcome : StreamingOutcome Flow) (builder : Text)
    (note : Option Text) (now : Millis) :
    Sending base
      (c.updateLastText
        (ReplyText.finalText (ReplyText.stripLeadingNameLabel builder)
          (outcome.note.or note)) now)
      (ChatRepository.endStream call outcome builder note now s) ∧
    exists snapshot,
      (ChatRepository.endStream call outcome builder note now s).inFlight call =
        some (Coroutine.saving false snapshot) := by
  have hwritten := h.updateActive (Conversation.updateLastText_id
    (ReplyText.finalText (ReplyText.stripLeadingNameLabel builder)
      (outcome.note.or note)) now c)
  exact (hwritten.observe _).persist hrestored call false

end Sending

/-!
# The conversation of a turn
-/

structure Appended (prepared : Conversation) (more : List Message) (c : Conversation) :
    Prop where
  id : c.id = prepared.id
  messages : c.messages = prepared.messages ++ more
  summary : c.summary = prepared.summary
  summarizedCount : c.summarizedCount = prepared.summarizedCount

namespace Appended

variable {prepared c : Conversation} {more : List Message}

theorem addMessage (h : Appended prepared more c) (m : Message) (now : Millis) :
    Appended prepared (more ++ [m]) (c.addMessage m now) where
  id := h.id
  messages := by
    rw [Conversation.addMessage_messages, h.messages, List.append_assoc]
  summary := h.summary
  summarizedCount := h.summarizedCount

theorem retitleIfNeeded (h : Appended prepared more c) (prompt : Text) :
    Appended prepared more (c.retitleIfNeeded prompt) := by
  unfold Conversation.retitleIfNeeded
  split
  · exact ⟨h.id, h.messages, h.summary, h.summarizedCount⟩
  · exact h

theorem updateLastText {f : List Message} {m : Message}
    (h : Appended prepared (f ++ [m]) c) (text : Text) (now : Millis) :
    Appended prepared (f ++ [{ m with text := text }]) (c.updateLastText text now) where
  id := (Conversation.updateLastText_id _ _ _).trans h.id
  messages := by
    rw [Conversation.updateLastText_messages, h.messages, <- List.append_assoc,
      Conversation.replaceLastText_append, List.append_assoc]
  summary := by
    rw [<- h.summary]
    unfold Conversation.updateLastText
    split <;> rfl
  summarizedCount := by
    rw [<- h.summarizedCount]
    unfold Conversation.updateLastText
    split <;> rfl

end Appended

/-!
# Runs
-/

theorem beginSend_of_ready {s : App} {c : Conversation} (prompt : Text)
    (useCloud : Bool) {contextTokens : Int} {loaded : Bool} {now : Millis}
    {history : List Message} (h : s.chats.currentActive = some c)
    (hplan : History.plan contextTokens loaded s.chats.nextUuid now c =
      History.Plan.ready history) :
    beginSend prompt useCloud contextTokens loaded now s =
      withHistory s.nextCall { prompt := prompt, useCloudForThisTurn := useCloud }
        history now (openSend now s) := by
  simp only [beginSend, ensureActive_of_open h, h, hplan]

theorem beginSend_of_summarize {s : App} {c : Conversation} (prompt : Text)
    (useCloud : Bool) {contextTokens : Int} {loaded : Bool} {now : Millis}
    {turns : List Message} (h : s.chats.currentActive = some c)
    (hplan : History.plan contextTokens loaded s.chats.nextUuid now c =
      History.Plan.summarize turns) :
    beginSend prompt useCloud contextTokens loaded now s =
      (openSend now s).suspend s.nextCall
        (Coroutine.summarizing
          { prompt := prompt, useCloudForThisTurn := useCloud } c
          (History.summarizePrompt c.summary turns)) := by
  simp only [beginSend, ensureActive_of_open h, h, hplan]

theorem plan_summarize_congr {contextTokens : Int} {loaded : Bool} {id : Uuid}
    {now : Millis} {c : Conversation} {turns : List Message}
    (h : History.plan contextTokens loaded id now c = History.Plan.summarize turns)
    (id' : Uuid) (now' : Millis) :
    History.plan contextTokens loaded id' now' c = History.Plan.summarize turns := by
  unfold History.plan at h ⊢
  split at h
  · cases h
  · rename_i hlong
    rw [if_neg hlong]
    split at h
    · cases h
    · rename_i hsome
      rw [if_neg hsome]
      exact h

section Run

variable {s : App} {c : Conversation} (r : SendRequest)

theorem run_ready (hwell : s.chats.WellFormed) (hopen : s.chats.currentActive = some c)
    {history : List Message}
    (hplan : History.plan r.contextTokens r.localModelLoaded s.chats.nextUuid r.sentAt c =
      History.Plan.ready history) :
    exists s',
      runEvents step s [Event.send r.prompt r.useCloudForThisTurn r.contextTokens
        r.localModelLoaded r.sentAt] = some s' ∧
      s'.inFlight s.nextCall = some (Coroutine.readingPrivacy r.send history) ∧
      Sending s (c.addMessage (userMessage (s.chats.nextUuid + 1) r.prompt r.sentAt)
        r.sentAt) s' := by
  have hbegin := beginSend_of_ready r.prompt r.useCloudForThisTurn hopen hplan
  have hprompted := (Sending.openSend hwell.sound hopen r.sentAt).withHistory s.nextCall
    r.send history r.sentAt
  rw [openSend_chats hopen] at hprompted
  refine ⟨withHistory s.nextCall r.send history r.sentAt (openSend r.sentAt s), ?_, ?_,
    hprompted⟩
  · rw [runEvents_cons]
    exact ⟨_, congrArg some hbegin, rfl⟩
  · exact App.suspend_inFlight_self _ _ _

theorem run_summarized (hwell : s.chats.WellFormed)
    (hopen : s.chats.currentActive = some c) {turns : List Message}
    (hplan : History.plan r.contextTokens r.localModelLoaded s.chats.nextUuid r.sentAt c =
      History.Plan.summarize turns) :
    exists s',
      runEvents step s [Event.send r.prompt r.useCloudForThisTurn r.contextTokens
          r.localModelLoaded r.sentAt,
        Event.resume s.nextCall (Input.summarized r.completion) r.summarizedAt] =
          some s' ∧
      s'.inFlight s.nextCall = some (Coroutine.readingPrivacy r.send
        (History.afterSummary r.completion (s.chats.nextUuid + 1) r.summarizedAt c)) ∧
      Sending s
        ((History.withSummary r.completion c c).addMessage
          (userMessage (s.chats.nextUuid + 2) r.prompt r.summarizedAt) r.summarizedAt)
        s' := by
  have hbegin := beginSend_of_summarize r.prompt r.useCloudForThisTurn hopen hplan
  generalize hasked : (openSend r.sentAt s).suspend s.nextCall (Coroutine.summarizing r.send
    c (History.summarizePrompt c.summary turns)) = asked
  have hsending : Sending s c asked := by
    rw [<- hasked]
    exact (Sending.openSend hwell.sound hopen r.sentAt).suspend _ _
  have hnext : asked.chats.nextUuid = s.chats.nextUuid + 1 := by
    rw [<- hasked]
    show (openSend r.sentAt s).chats.nextUuid = _
    rw [openSend_chats hopen]
    rfl
  have hwaits : asked.inFlight s.nextCall = some (Coroutine.summarizing r.send c
      (History.summarizePrompt c.summary turns)) := by
    rw [<- hasked]
    exact App.suspend_inFlight_self _ _ _
  have hended := hsending.endSummary s.nextCall r.send c r.completion r.summarizedAt
  rw [hnext] at hended
  refine ⟨endSummary s.nextCall r.send c r.completion r.summarizedAt asked, ?_, ?_,
    hended⟩
  · rw [runEvents_cons]
    refine ⟨asked, (congrArg some hbegin).trans (congrArg some hasked), ?_⟩
    rw [runEvents_cons]
    refine ⟨_, ?_, rfl⟩
    simp only [step, resume, hwaits]
  · rw [<- hnext]
    exact App.suspend_inFlight_self _ _ _

theorem run_prompt (hwell : s.chats.WellFormed) (hopen : s.chats.currentActive = some c) :
    exists s' id now promptId later,
      runEvents step s
        (Event.send r.prompt r.useCloudForThisTurn r.contextTokens r.localModelLoaded
            r.sentAt ::
          if r.asksForSummary s then
            [Event.resume s.nextCall (Input.summarized r.completion) r.summarizedAt]
          else []) = some s' ∧
      s'.inFlight s.nextCall = some (Coroutine.readingPrivacy r.send
        (r.prepare id now c).1) ∧
      Sending s
        ((r.prepare id now c).2.addMessage (userMessage promptId r.prompt later) later) s' ∧
      s.chats.nextUuid ≤ id ∧ id < promptId := by
  cases hplan : History.plan r.contextTokens r.localModelLoaded s.chats.nextUuid r.sentAt
      c with
  | ready history =>
      have hasks : r.asksForSummary s = false := by
        simp [SendRequest.asksForSummary, hopen, hplan]
      have hprepared : r.prepare s.chats.nextUuid r.sentAt c = (history, c) := by
        rw [SendRequest.prepare, History.prepareHistory, hplan]
      rcases run_ready r hwell hopen hplan with ⟨s', hrun, hwaits, hsending⟩
      refine ⟨s', s.chats.nextUuid, r.sentAt, s.chats.nextUuid + 1, r.sentAt, ?_, ?_, ?_,
        Nat.le_refl _, Nat.lt_succ_self _⟩
      · rw [hasks]
        exact hrun
      · rw [hprepared]
        exact hwaits
      · rw [hprepared]
        exact hsending
  | summarize turns =>
      have hasks : r.asksForSummary s = true := by
        simp [SendRequest.asksForSummary, hopen, hplan]
      have hprepared : r.prepare (s.chats.nextUuid + 1) r.summarizedAt c =
          (History.afterSummary r.completion (s.chats.nextUuid + 1) r.summarizedAt c,
            History.withSummary r.completion c c) := by
        rw [SendRequest.prepare, History.prepareHistory, plan_summarize_congr hplan]
      rcases run_summarized r hwell hopen hplan with ⟨s', hrun, hwaits, hsending⟩
      refine ⟨s', s.chats.nextUuid + 1, r.summarizedAt, s.chats.nextUuid + 2,
        r.summarizedAt, ?_, ?_, ?_, Nat.le_succ _, Nat.lt_succ_self _⟩
      · rw [hasks]
        exact hrun
      · rw [hprepared]
        exact hwaits
      · rw [hprepared]
        exact hsending

theorem run_opening (hwell : s.chats.WellFormed)
    (hopen : s.chats.currentActive = some c) :
    exists s' c' id now promptId later replyId,
      runEvents step s (r.opening s) = some s' ∧
      s'.inFlight s.nextCall = some (Coroutine.streaming
        (routed r.send (r.prepare id now c).1 s) []) ∧
      Sending s c' s' ∧
      Appended (r.prepare id now c).2
        [userMessage promptId r.prompt later,
          seed replyId (routed r.send (r.prepare id now c).1 s) r.routedAt] c' ∧
      s.chats.nextUuid ≤ id ∧ id < promptId := by
  rcases run_prompt r hwell hopen with
    ⟨s', id, now, promptId, later, hrun, hwaits, hsending, hid, hprompt⟩
  generalize hprepared : r.prepare id now c = prepared at hwaits hsending
  have hrouted := hsending.route s.nextCall r.send prepared.1 r.routedAt
  have hstart : Appended prepared.2 [] prepared.2 :=
    ⟨rfl, (List.append_nil _).symm, rfl, rfl⟩
  refine ⟨route s.nextCall r.send prepared.1 r.routedAt s', _, id, now, promptId, later,
    s'.chats.nextUuid, ?_, ?_, hrouted, ?_, hid, hprompt⟩
  · rw [SendRequest.opening, runEvents_append]
    refine ⟨s', hrun, ?_⟩
    rw [runEvents_cons]
    refine ⟨_, ?_, rfl⟩
    simp only [step, resume, hwaits]
  · rw [hprepared, <- hsending.routed_eq]
    exact App.suspend_inFlight_self _ _ _
  · rw [hprepared]
    exact ((hstart.addMessage _ later).addMessage _ r.routedAt).retitleIfNeeded _

theorem stripLeadingNameLabel_nil : ReplyText.stripLeadingNameLabel [] = [] := by
  decide

theorem run_deltas {base : App} {outcome : StreamingOutcome Flow} {prepared : Conversation}
    {u reply : Message} (ds : List (Text × Millis)) {builder : Text}
    (hwaits : s.inFlight base.nextCall = some (Coroutine.streaming outcome builder))
    (hsending : Sending base c s)
    (hshown : Appended prepared
      [u, { reply with text := ReplyText.stripLeadingNameLabel builder }] c) :
    exists s' c',
      runEvents step s
        (ds.map fun d => Event.resume base.nextCall (Input.delta d.1) d.2) = some s' ∧
      s'.inFlight base.nextCall = some (Coroutine.streaming outcome
        (builder ++ (ds.map Prod.fst).flatten)) ∧
      Sending base c' s' ∧
      Appended prepared
        [u, { reply with
          text := ReplyText.stripLeadingNameLabel
            (builder ++ (ds.map Prod.fst).flatten) }] c' := by
  induction ds generalizing s c builder with
  | nil =>
      refine ⟨s, c, rfl, ?_, hsending, ?_⟩
      · simpa using hwaits
      · simpa using hshown
  | cons d ds ih =>
      have hreceived := hsending.receive base.nextCall outcome (builder ++ d.1) d.2
      have hlonger : Appended prepared
          [u, { reply with text := ReplyText.stripLeadingNameLabel (builder ++ d.1) }]
          (c.updateLastText (ReplyText.stripLeadingNameLabel (builder ++ d.1)) d.2) :=
        Appended.updateLastText (f := [u]) hshown _ _
      rcases ih (App.suspend_inFlight_self _ _ _) hreceived hlonger with
        ⟨s', c', hrun, hwaits', hsending', hshown'⟩
      refine ⟨s', c', ?_, ?_, hsending', ?_⟩
      · rw [List.map_cons, runEvents_cons]
        refine ⟨_, ?_, hrun⟩
        simp only [step, resume, hwaits]
        rfl
      · simpa [List.append_assoc] using hwaits'
      · simpa [List.append_assoc] using hshown'

theorem run_closing {base : App} (hrestored : base.restored = true)
    {outcome : StreamingOutcome Flow} {prepared : Conversation} {u reply : Message}
    {builder : Text}
    (hwaits : s.inFlight base.nextCall = some (Coroutine.streaming outcome builder))
    (hsending : Sending base c s)
    (hshown : Appended prepared
      [u, { reply with text := ReplyText.stripLeadingNameLabel builder }] c) :
    exists s' c',
      runEvents step s (r.closing base) = some s' ∧
      s'.inFlight base.nextCall = none ∧
      Sending base c' s' ∧
      Appended prepared
        [u, { reply with
          text := ReplyText.finalText (ReplyText.stripLeadingNameLabel builder)
            (outcome.note.or r.ending.note) }] c' := by
  rcases hsending.endStream hrestored base.nextCall outcome builder r.ending.note
    r.endedAt with ⟨hended, snapshot, hsaving⟩
  have hfinal : Appended prepared
      [u, { reply with
        text := ReplyText.finalText (ReplyText.stripLeadingNameLabel builder)
          (outcome.note.or r.ending.note) }]
      (c.updateLastText (ReplyText.finalText (ReplyText.stripLeadingNameLabel builder)
        (outcome.note.or r.ending.note)) r.endedAt) :=
    Appended.updateLastText (f := [u]) hshown _ _
  have hstep : step s (Event.resume base.nextCall r.ending.input r.endedAt) =
      some (endStream base.nextCall outcome builder r.ending.note r.endedAt s) := by
    cases r.ending <;> simp only [step, resume, hwaits, StreamEnd.input, StreamEnd.note]
  generalize endStream base.nextCall outcome builder r.ending.note r.endedAt s = s₁
    at hended hsaving hstep
  refine ⟨(s₁.onFiles (ConversationStore.saveFiles snapshot r.faults s₁.files)).finish
    base.nextCall, _, ?_, App.finish_inFlight_self _ _, (hended.onFiles _).finish _,
    hfinal⟩
  rw [SendRequest.closing, runEvents_cons]
  refine ⟨s₁, hstep, ?_⟩
  rw [runEvents_cons]
  refine ⟨_, ?_, rfl⟩
  simp only [step, resume, hsaving]

/-- A whole send, with what it prepared and what it did to the conversation. -/
theorem run_send (hwell : s.chats.WellFormed) (hrestored : s.restored = true)
    (hopen : s.chats.currentActive = some c) :
    exists id now promptId later replyId,
      s.chats.nextUuid ≤ id ∧ id < promptId ∧
      (forall k, k ≤ r.deltas.length -> exists s' c',
        runEvents step s (r.opening s ++ r.streaming s k) = some s' ∧
        s'.inFlight s.nextCall = some (Coroutine.streaming
          (routed r.send (r.prepare id now c).1 s) (r.received k)) ∧
        Sending s c' s' ∧
        Appended (r.prepare id now c).2
          [userMessage promptId r.prompt later,
            { seed replyId (routed r.send (r.prepare id now c).1 s) r.routedAt with
              text := ReplyText.stripLeadingNameLabel (r.received k) }] c') ∧
      exists s' c',
        runEvents step s (r.events s) = some s' ∧
        s'.inFlight s.nextCall = none ∧
        Sending s c' s' ∧
        Appended (r.prepare id now c).2
          [userMessage promptId r.prompt later,
            { seed replyId (routed r.send (r.prepare id now c).1 s) r.routedAt with
              text := ReplyText.finalText
                (ReplyText.stripLeadingNameLabel (r.received r.deltas.length))
                ((routed r.send (r.prepare id now c).1 s).note.or
                    r.ending.note) }] c' := by
  rcases run_opening r hwell hopen with
    ⟨s₁, c₁, id, now, promptId, later, replyId, hrun, hwaits, hsending, happended, hid,
      hprompt⟩
  refine ⟨id, now, promptId, later, replyId, hid, hprompt, ?_⟩
  generalize r.prepare id now c = prepared at hwaits happended ⊢
  generalize routed r.send prepared.1 s = outcome at hwaits happended ⊢
  have hempty : Appended prepared.2
      [userMessage promptId r.prompt later,
        { seed replyId outcome r.routedAt with
          text := ReplyText.stripLeadingNameLabel [] }] c₁ := by
    rw [stripLeadingNameLabel_nil]
    exact happended
  have hstreamed := fun k => run_deltas (r.deltas.take k) hwaits hsending hempty
  constructor
  · intro k _
    rcases hstreamed k with ⟨s', c', hdeltas, hwaits', hsending', hshown⟩
    refine ⟨s', c', ?_, hwaits', hsending', hshown⟩
    rw [runEvents_append]
    exact ⟨s₁, hrun, hdeltas⟩
  · rcases hstreamed r.deltas.length with ⟨s₂, c₂, hdeltas, hwaits', hsending', hshown⟩
    rcases run_closing r hrestored hwaits' hsending' hshown with
      ⟨s', c', hclosing, hended, hsending'', hfinal⟩
    refine ⟨s', c', ?_, hended, hsending'', hfinal⟩
    rw [SendRequest.events, runEvents_append]
    refine ⟨s₂, ?_, hclosing⟩
    rw [runEvents_append]
    exact ⟨s₁, hrun, hdeltas⟩

end Run

/-!
# The history of a turn
-/

def justRestored : List Event :=
  [Event.restore, Event.resume 0 (Input.loadRan []) 3, Event.resume 0 Input.loaded 4]

end ChatRepository
end DomainAI
