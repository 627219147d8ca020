import DomainAI.Data.UndisturbedSend

/-!
# What the rolling summary covers

Turn after turn the oldest messages are folded into a summary.  The count that goes
with it says which ones, and the history of a turn begins where it leaves off.
-/

namespace DomainAI

/-!
# One history
-/

namespace History

def Truncates (contextTokens : Int) (localModelLoaded : Bool) (completion : Option Text)
    (c : Conversation) : Prop :=
  ¬ (estTotal c : Int) ≤ budget contextTokens ∧
    (localModelLoaded = false ∨ newSummary completion = none)

/-- A prepared turn covers no less than before and none of the most recent messages;
its history is the summary, and the messages from the one on that it does not cover. -/
structure Covers (c : Conversation) (truncated : Prop) (id : Uuid) (now : Millis)
    (history : List Message) (prepared : Conversation) : Prop where
  monotone : c.summarizedCount ≤ prepared.summarizedCount
  spares : prepared.summarizedCount ≤ c.messages.length - recentWindow
  history : exists k,
    history = summaryPrefix id now prepared.summary ++ c.messages.drop k ∧
    k ≤ c.messages.length - recentWindow ∧
    (truncated -> k = c.messages.length - recentWindow) ∧
    (¬ truncated -> k = prepared.summarizedCount)

theorem prepareHistory_covers (contextTokens : Int) (localModelLoaded : Bool)
    (completion : Option Text) (id : Uuid) (now : Millis) {c : Conversation}
    (h : c.summarizedCount ≤ c.messages.length - recentWindow) :
    Covers c (Truncates contextTokens localModelLoaded completion c) id now
      (prepareHistory contextTokens localModelLoaded completion id now c).1
      (prepareHistory contextTokens localModelLoaded completion id now c).2 := by
  rcases prepareHistory_cases contextTokens localModelLoaded completion id now c with
    ⟨hfits, heq⟩ | ⟨hlong, hcut, heq⟩ | ⟨hlong, holder, hloaded, summary, hsummary, heq⟩
  · rw [heq]
    refine ⟨Nat.le_refl _, h, c.summarizedCount, rfl, h, ?_, fun _ => rfl⟩
    intro htruncates
    exact absurd hfits htruncates.left
  · rw [heq]
    refine ⟨Nat.le_refl _, h, c.messages.length - recentWindow, rfl, Nat.le_refl _,
      fun _ => rfl, ?_⟩
    intro hnot
    rcases hcut with hnothing | hrest
    · -- nothing is left to summarise, so the summary covers all but the recent messages
      have hlength : (olderUnsummarized c).length = 0 := by rw [hnothing]; rfl
      rw [olderUnsummarized, List.length_drop, List.length_take] at hlength
      show c.messages.length - recentWindow = c.summarizedCount
      omega
    · exact absurd ⟨hlong, hrest⟩ hnot
  · rw [heq]
    refine ⟨h, Nat.le_refl _, newCount c, rfl, Nat.le_refl _, fun _ => rfl,
      fun _ => rfl⟩

/-- The turns that a summary is asked for, if one comes of it. -/
def folded (contextTokens : Int) (localModelLoaded : Bool) (completion : Option Text)
    (id : Uuid) (now : Millis) (c : Conversation) : List Message :=
  match plan contextTokens localModelLoaded id now c with
  | Plan.ready _ => []
  | Plan.summarize turns => if (newSummary completion).isSome then turns else []

theorem folded_eq (contextTokens : Int) (localModelLoaded : Bool)
    (completion : Option Text) (id : Uuid) (now : Millis) (c : Conversation) :
    folded contextTokens localModelLoaded completion id now c =
      (c.messages.take
        (prepareHistory contextTokens localModelLoaded completion id now
          c).2.summarizedCount).drop c.summarizedCount := by
  have hnone : (c.messages.take c.summarizedCount).drop c.summarizedCount = [] := by
    apply List.drop_eq_nil_of_le
    rw [List.length_take]
    exact Nat.min_le_left _ _
  unfold folded prepareHistory
  cases hplan : plan contextTokens localModelLoaded id now c with
  | ready history => exact hnone.symm
  | summarize turns =>
      have hturns := (turns_of_plan hplan).left
      unfold withSummary
      cases newSummary completion with
      | none => exact hnone.symm
      | some summary => exact hturns

theorem prepareHistory_congr {contextTokens : Int} {localModelLoaded : Bool}
    {completion : Option Text} (id id' : Uuid) (now now' : Millis) {c : Conversation} :
    (prepareHistory contextTokens localModelLoaded completion id now c).2 =
      (prepareHistory contextTokens localModelLoaded completion id' now' c).2 := by
  unfold prepareHistory plan
  by_cases hfits : (estTotal c : Int) ≤ budget contextTokens
  · simp [hfits]
  · rw [if_neg hfits, if_neg hfits]
    by_cases hcut : ((olderUnsummarized c).isEmpty || !localModelLoaded) = true
    · rw [if_pos hcut, if_pos hcut]
    · rw [if_neg hcut, if_neg hcut]

end History

theorem take_append_drop_take {alpha : Type} {n k : Nat} (h : n ≤ k) (l : List alpha) :
    l.take n ++ (l.take k).drop n = l.take k := by
  have hsplit := List.take_append_drop n (l.take k)
  rwa [List.take_take, Nat.min_eq_left h] at hsplit

namespace ChatRepository

open Library PrivacyRouter

/-!
# Turn after turn
-/

/-- The sends of one conversation, one after the other, and what was folded into a
summary along the way. -/
inductive Turns (start : App) : List SendRequest -> App -> List Message -> Prop where
  | none : Turns start [] start []
  | send {rs : List SendRequest} {s s' : App} {earlier : List Message} (r : SendRequest)
      {c : Conversation} (hturns : Turns start rs s earlier)
      (hopen : s.chats.currentActive = some c)
      (hrun : runEvents step s (r.events s) = some s') :
      Turns start (rs ++ [r]) s'
        (earlier ++ History.folded r.contextTokens r.localModelLoaded r.completion
          s.chats.nextUuid r.sentAt c)

theorem currentActive_of_replaced {base s : Chats} {c : Conversation}
    (hwell : s.WellFormed) (h : Chats.Replaced base c s) : s.currentActive = some c := by
  cases hopen : s.currentActive with
  | none =>
      have hclosed := (Chats.currentActive_eq_none hwell.hasActive).mp hopen
      rw [h.activeId] at hclosed
      cases hclosed
  | some d =>
      have hid : d.id = c.id := by
        have hactive := Chats.currentActive_id hopen
        rw [h.activeId] at hactive
        exact (Option.some_inj.mp hactive).symm
      have hmem := Chats.currentActive_mem hopen
      rw [h.conversations] at hmem
      rcases List.mem_map.mp hmem with ⟨d', _, hd⟩
      split at hd
      · rw [hd]
      · rename_i hother
        rw [hd] at hother
        exact absurd hid hother

structure TurnSpec (s : App) (c : Conversation) (r : SendRequest) (id : Uuid)
    (now : Millis) : Prop where
  covers : History.Covers c
    (History.Truncates r.contextTokens r.localModelLoaded r.completion c) id now
    (r.prepare id now c).1 (r.prepare id now c).2
  given : exists s', runEvents step s (r.opening s) = some s' ∧
    s'.inFlight s.nextCall = some (Coroutine.streaming
      (routed r.send (r.prepare id now c).1 s) [])
  ended : exists s' c' u reply, runEvents step s (r.events s) = some s' ∧
    s'.restored = true ∧ s'.chats.currentActive = some c' ∧
    c'.messages = c.messages ++ [u, reply] ∧
    c'.summary = (r.prepare id now c).2.summary ∧
    c'.summarizedCount = (r.prepare id now c).2.summarizedCount

theorem turnSpec {s : App} (hreach : Reachable s) (hrestored : s.restored = true)
    {c : Conversation} (hopen : s.chats.currentActive = some c)
    (hcount : c.summarizedCount ≤ c.messages.length - History.recentWindow)
    (r : SendRequest) : exists id now, TurnSpec s c r id now := by
  rcases run_send r hreach.wellFormed.chats hrestored hopen with
    ⟨id, now, promptId, later, replyId, _, _, hstreaming, hended⟩
  refine ⟨id, now, History.prepareHistory_covers _ _ _ _ _ hcount, ?_, ?_⟩
  · rcases hstreaming 0 (Nat.zero_le _) with ⟨s', c', hrun, hwaits, _, _⟩
    refine ⟨s', ?_, hwaits⟩
    rw [<- hrun, SendRequest.streaming, List.take_zero, List.map_nil, List.append_nil]
  · rcases hended with ⟨s', c', hrun, _, hsending, happended⟩
    have hwell := (hreach.run hrun).wellFormed.chats
    have hmessages := happended.messages
    rw [show (r.prepare id now c).2.messages = c.messages from
      History.prepareHistory_messages _ _ _ _ _ _] at hmessages
    exact ⟨s', c', _, _, hrun, hsending.restored.trans hrestored,
      currentActive_of_replaced hwell hsending.chats, hmessages, happended.summary,
      happended.summarizedCount⟩

/-- What has been folded is what the summary covers, and none of it is recent. -/
structure Folded (s : App) (folded : List Message) (c : Conversation) : Prop where
  opened : s.chats.currentActive = some c
  covered : folded = c.messages.take c.summarizedCount
  spares : c.summarizedCount ≤ c.messages.length - History.recentWindow

theorem folded_turn {s s' : App} {folded : List Message} {c : Conversation}
    (hreach : Reachable s) (hrestored : s.restored = true) (h : Folded s folded c)
    (r : SendRequest) (hrun : runEvents step s (r.events s) = some s') :
    s'.restored = true ∧ exists c', Folded s'
      (folded ++ History.folded r.contextTokens r.localModelLoaded r.completion
        s.chats.nextUuid r.sentAt c) c' := by
  rcases turnSpec hreach hrestored h.opened h.spares r with ⟨id, now, hspec⟩
  rcases hspec.ended with
    ⟨s'', c', u, reply, hrun', hrestored', hopen', hmessages, _, hcount'⟩
  rw [hrun] at hrun'
  cases hrun'
  refine ⟨hrestored', c', hopen', ?_, ?_⟩
  · have hshort : (r.prepare id now c).2.summarizedCount ≤ c.messages.length :=
      Nat.le_trans hspec.covers.spares (Nat.sub_le _ _)
    rw [History.folded_eq, History.prepareHistory_congr _ id _ now, h.covered, hcount',
      hmessages, List.take_append_of_le_length hshort]
    exact take_append_drop_take hspec.covers.monotone c.messages
  · have hspares := hspec.covers.spares
    rw [hcount', hmessages, List.length_append]
    exact Nat.le_trans hspares (by omega)

theorem turns_folded {start s : App} {rs : List SendRequest} {folded : List Message}
    (hreach : Reachable start) (hrestored : start.restored = true) {c : Conversation}
    (hopen : start.chats.currentActive = some c) (hcount : c.summarizedCount = 0)
    (h : Turns start rs s folded) :
    Reachable s ∧ s.restored = true ∧ exists c', Folded s folded c' := by
  induction h with
  | none =>
      refine ⟨hreach, hrestored, c, hopen, ?_, ?_⟩
      · rw [hcount, List.take_zero]
      · rw [hcount]
        exact Nat.zero_le _
  | send r hturns hopen' hrun ih =>
      rcases ih with ⟨hreach', hrestored', c', hfolded⟩
      rw [hfolded.opened] at hopen'
      cases hopen'
      rcases folded_turn hreach' hrestored' hfolded r hrun with ⟨hrestored'', hfolded'⟩
      exact ⟨hreach'.run hrun, hrestored'', hfolded'⟩

/-- Turn after turn, what was folded into a summary is what the summary covers, each
message once and in order; and each turn covers no less and leaves the recent messages
out, and its history begins where the summary ends. -/
theorem summary_coverage {start s : App} {rs : List SendRequest} {folded : List Message}
    (hreach : Reachable start) (hrestored : start.restored = true) {c₀ : Conversation}
    (hopen : start.chats.currentActive = some c₀) (hcount : c₀.summarizedCount = 0)
    (hturns : Turns start rs s folded) :
    exists c, s.chats.currentActive = some c ∧
      folded = c.messages.take c.summarizedCount ∧
      forall r : SendRequest, exists id now, TurnSpec s c r id now := by
  rcases turns_folded hreach hrestored hopen hcount hturns with
    ⟨hreach', hrestored', c, hfolded⟩
  exact ⟨c, hfolded.opened, hfolded.covered, fun r =>
    turnSpec hreach' hrestored' hfolded.opened hfolded.spares r⟩

def crowdedChat : Conversation where
  id := 0
  title := "crowded".toList
  messages := (List.range 8).map fun i =>
    { id := i + 1, role := Role.USER, text := List.replicate 400 'a', timestamp := 1 }
  updatedAt := 1

def returningCrowded : Launch where
  files :=
    { canonical := some (ConversationStore.Content.sealed
        ConversationStore.StoreFile.canonical [crowdedChat]) }
  nextUuid := 9
  sound := by
    intro f c hc
    cases f <;> cases hc
    intro name l hl
    cases hl
    exact ⟨by decide, by decide, by decide⟩

def foldingTurn : SendRequest where
  prompt := "two".toList
  useCloudForThisTurn := false
  contextTokens := 1000
  localModelLoaded := true
  completion := some "They wrote a lot.".toList
  deltas := [("Yes.".toList, 6)]
  ending := StreamEnd.completed
  faults := []
  sentAt := 5
  summarizedAt := 5
  routedAt := 5
  endedAt := 6
  savedAt := 7

def foldedBy (r : SendRequest) (s : App) (c : Conversation) : List Message :=
  History.folded r.contextTokens r.localModelLoaded r.completion s.chats.nextUuid r.sentAt c

theorem turns_two {start mid s : App} {r r' : SendRequest} {c c' : Conversation}
    (hopen : start.chats.currentActive = some c)
    (hrun : runEvents step start (r.events start) = some mid)
    (hopen' : mid.chats.currentActive = some c')
    (hrun' : runEvents step mid (r'.events mid) = some s) :
    Turns start [r, r'] s (foldedBy r start c ++ foldedBy r' mid c') :=
  Turns.send r' (Turns.send r Turns.none hopen hrun) hopen' hrun'

theorem summary_coverage_twice :
    exists start s first second,
      runEvents step returningCrowded.app justRestored = some start ∧
      Turns start [foldingTurn, foldingTurn] s (first ++ second) ∧
      first.length = 2 ∧ second.length = 2 ∧
      exists c, s.chats.currentActive = some c ∧
        first ++ second = c.messages.take c.summarizedCount ∧
        forall r : SendRequest, exists id now, TurnSpec s c r id now := by
  have hcheck : ((runEvents step returningCrowded.app justRestored).any fun start =>
      decide (start.restored = true) &&
      (start.chats.currentActive.any fun c =>
        decide (c.summarizedCount = 0 ∧ (foldedBy foldingTurn start c).length = 2)) &&
      (runEvents step start (foldingTurn.events start)).any fun mid =>
        (mid.chats.currentActive.any fun c =>
          decide ((foldedBy foldingTurn mid c).length = 2)) &&
        (runEvents step mid (foldingTurn.events mid)).isSome) = true := by
    decide +kernel
  simp only [Option.any_eq_true, Bool.and_eq_true, decide_eq_true_eq,
    Option.isSome_iff_exists] at hcheck
  rcases hcheck with ⟨start, hstart, ⟨hrestored, c₀, hopen, hcount, hfirst⟩, mid, hmid,
    ⟨c₁, hopen', hsecond⟩, s, hs⟩
  have hturns := turns_two hopen hmid hopen' hs
  exact ⟨start, s, foldedBy foldingTurn start c₀, foldedBy foldingTurn mid c₁, hstart,
    hturns, hfirst, hsecond, summary_coverage ⟨returningCrowded, justRestored, hstart⟩
      hrestored hopen hcount hturns⟩

end ChatRepository
end DomainAI
