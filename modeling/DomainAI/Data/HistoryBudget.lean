import DomainAI.Data.History
import DomainAI.Llama.Completion

/-!
# The budget of a history

The repository keeps a history within a budget of estimated tokens, and the native
side clamps what it is given.  Neither knows how the other one counts.
-/

namespace DomainAI
namespace History

/-!
# Estimates
-/

def estMessages (ms : List Message) : Nat :=
  (ms.map fun m => estTokens m.text).sum

theorem estMessages_append (ms more : List Message) :
    estMessages (ms ++ more) = estMessages ms + estMessages more := by
  rw [estMessages, List.map_append, List.sum_append]
  rfl

theorem estTotal_eq (convo : Conversation) :
    estTotal convo = estMessages convo.messages + estTokens (convo.summary.getD []) :=
  rfl

/-- How many more tokens the message of a summary has than the summary. -/
def headerTokens (summary : Option Text) : Nat :=
  if Text.isNullOrBlank summary then 0
  else if Text.utf16Length (summary.getD []) % 4 < 2 then 8 else 9

def summaryTokens (summary : Option Text) : Nat :=
  if Text.isNullOrBlank summary then 0
  else estTokens (summary.getD []) + headerTokens summary

theorem utf16Length_append (a b : Text) :
    Text.utf16Length (a ++ b) = Text.utf16Length a + Text.utf16Length b := by
  rw [Text.utf16Length, List.map_append, List.sum_append]
  rfl

theorem estMessages_summaryPrefix (id : Uuid) (now : Millis) (summary : Option Text) :
    estMessages (summaryPrefix id now summary) = summaryTokens summary := by
  have hheader :
      Text.utf16Length "[Summary of earlier conversation]\n".toList = 34 := by
    decide
  cases summary with
  | none => rfl
  | some text =>
      by_cases hblank : Text.isBlank text = true
      · simp [summaryPrefix, summaryTokens, Text.isNullOrBlank, hblank, estMessages]
      · have hsome : Text.isBlank text = false := by simpa using hblank
        simp only [summaryPrefix, summaryTokens, headerTokens, Text.isNullOrBlank,
          Option.getD_some, hsome, Bool.false_eq_true, if_false, estMessages,
          List.map_singleton, List.sum_singleton, estTokens, utf16Length_append,
          hheader]
        split <;> omega

/-!
# Within the budget
-/

/-- The summary that goes with the most recent turns when a conversation does not
fit: a new one if there is one, or else the old one. -/
def summaryInUse (localModelLoaded : Bool) (completion : Option Text)
    (convo : Conversation) : Option Text :=
  if (olderUnsummarized convo).isEmpty || !localModelLoaded then convo.summary
  else (newSummary completion).or convo.summary

/-- Of a conversation that fits, what is left of the budget and the turns summarised
make room for the header of the summary; of another one, the most recent turns fit
together with their summary. -/
def LeavesRoom (contextTokens : Int) (localModelLoaded : Bool)
    (completion : Option Text) (convo : Conversation) : Prop :=
  if (estTotal convo : Int) ≤ budget contextTokens then
    (headerTokens convo.summary : Int) ≤
      (budget contextTokens - estTotal convo) +
        estMessages (convo.messages.take convo.summarizedCount)
  else
    (estMessages (recent convo) : Int) +
      summaryTokens (summaryInUse localModelLoaded completion convo) ≤
        budget contextTokens

theorem estMessages_take_add_drop (ms : List Message) (n : Nat) :
    estMessages (ms.take n) + estMessages (ms.drop n) = estMessages ms := by
  rw [<- estMessages_append, List.take_append_drop]

/-- The history of a prepared turn fits the budget exactly if there is room for it. -/
theorem history_within_budget (contextTokens : Int) (localModelLoaded : Bool)
    (completion : Option Text) (id : Uuid) (now : Millis) (convo : Conversation) :
    (estMessages (prepareHistory contextTokens localModelLoaded completion id now
      convo).1 : Int) ≤ budget contextTokens <->
      LeavesRoom contextTokens localModelLoaded completion convo := by
  rcases prepareHistory_cases contextTokens localModelLoaded completion id now convo with
    ⟨hfits, hresult⟩ | ⟨hfits, hcut, hresult⟩ |
      ⟨hfits, holder, hloaded, summary, hsummary, hresult⟩
  · rw [hresult, LeavesRoom, if_pos hfits, estMessages_append,
      estMessages_summaryPrefix]
    have hparts := estMessages_take_add_drop convo.messages convo.summarizedCount
    rw [estTotal_eq] at hfits ⊢
    unfold summaryTokens headerTokens
    split <;> omega
  · have huse : summaryInUse localModelLoaded completion convo = convo.summary := by
      unfold summaryInUse
      rcases hcut with holder | hloaded | hsummary
      · simp [holder]
      · simp [hloaded]
      · simp [hsummary]
    rw [hresult, LeavesRoom, if_neg hfits, huse, estMessages_append,
      estMessages_summaryPrefix, Int.natCast_add, Int.add_comm]
  · have huse : summaryInUse localModelLoaded completion convo = some summary := by
      simp [summaryInUse, holder, hloaded, hsummary]
    rw [hresult, LeavesRoom, if_neg hfits, huse, estMessages_append,
      estMessages_summaryPrefix, Int.natCast_add, Int.add_comm]

theorem estTokens_replicate (n : Nat) :
    estTokens (List.replicate n 'a') = n / 4 + 1 := by
  have hunits : Text.units 'a' = 1 := rfl
  rw [estTokens, Text.utf16Length, List.map_replicate, hunits,
    List.sum_replicate_nat, Nat.mul_one]

def longLetter : Conversation where
  id := 1
  messages :=
    [{ id := 2, role := Role.USER, text := List.replicate 2048 'a', timestamp := 1 }]
  updatedAt := 1

theorem estMessages_longLetter : estMessages longLetter.messages = 513 := by
  rw [longLetter, estMessages, List.map_singleton, List.sum_singleton,
    estTokens_replicate]

/-- A long message is cut from no history. -/
theorem history_within_budget_fails :
    ¬ (estMessages (prepareHistory 1280 true none 3 2 longLetter).1 : Int) ≤
      budget 1280 := by
  have htotal : ¬ (estTotal longLetter : Int) ≤ budget 1280 := by
    rw [estTotal_eq, estMessages_longLetter]
    decide
  have hcut : ((olderUnsummarized longLetter).isEmpty || !true) = true := rfl
  rw [prepareHistory, plan, if_neg htotal, if_pos hcut]
  change ¬ (estMessages longLetter.messages : Int) ≤ budget 1280
  rw [estMessages_longLetter]
  decide

/-!
# The native clamp
-/

/-- The bounds within which the budget for a requested context length is at most
what the context takes: neither is it too small, nor much larger than the context. -/
def Agrees (requested trained : Int) : Prop :=
  if 0 < trained ∧ trained < requested then
    682 ≤ trained ∧ requested + trained / 4 ≤ trained + 768
  else 682 ≤ requested ∧ requested ≤ 3075

instance (requested trained : Int) : Decidable (Agrees requested trained) :=
  inferInstanceAs (Decidable (if 0 < trained ∧ trained < requested then _ ∧ _ else _ ∧ _))

theorem budget_le_maxPrompt_iff {requested : Int} (hrequested : 0 < requested)
    (trained : Int) :
    budget requested ≤
        Completion.maxPrompt (Completion.contextLength requested trained) <->
      Agrees requested trained := by
  unfold budget Completion.maxPrompt Completion.contextLength Agrees
  rw [if_pos hrequested, replyReserveTokens, minBudgetTokens]
  split
  · simp only
    omega
  · simp only
    omega

theorem clamp_of_length_le {nCtx : Int} {tokens : List Completion.Token}
    (h : (tokens.length : Int) ≤ Completion.maxPrompt nCtx) :
    Completion.clamp nCtx tokens = tokens := by
  rw [Completion.clamp, if_neg (Int.not_lt.mpr h)]

/-- The budget is at most what the context takes, and so a conversation accepted
whole keeps its first tokens, exactly if the two reserves agree. -/
theorem budget_clamp {requested : Int} (hrequested : 0 < requested) (trained : Int) :
    (budget requested ≤
        Completion.maxPrompt (Completion.contextLength requested trained) ∧
      forall (convo : Conversation) (tokens : List Completion.Token),
        (estTotal convo : Int) ≤ budget requested ->
        (tokens.length : Int) ≤ budget requested ->
        Completion.clamp (Completion.contextLength requested trained) tokens =
          tokens) <->
      Agrees requested trained := by
  rw [<- budget_le_maxPrompt_iff hrequested]
  constructor
  · intro h
    exact h.1
  · intro hbudget
    refine ⟨hbudget, ?_⟩
    intro convo tokens _ htokens
    exact clamp_of_length_le (Int.le_trans htokens hbudget)

theorem budget_clamp_default :
    budget 2048 ≤ Completion.maxPrompt (Completion.contextLength 2048 32768) ∧
      forall (convo : Conversation) (tokens : List Completion.Token),
        (estTotal convo : Int) ≤ budget 2048 ->
        (tokens.length : Int) ≤ budget 2048 ->
        Completion.clamp (Completion.contextLength 2048 32768) tokens = tokens :=
  (budget_clamp (by decide) 32768).mpr (by decide)

/-- A model trained for less than what is requested takes less than the budget. -/
theorem budget_clamp_fails :
    ¬ budget 8192 ≤ Completion.maxPrompt (Completion.contextLength 8192 2048) := by
  decide

end History
end DomainAI
