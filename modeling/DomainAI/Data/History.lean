import DomainAI.Data.Chats

/-!
# The history fed to an engine

`prepareHistory` suspends while the on-device engine summarises, so it is split
there: what is decided before, and what is made of the summary.
-/

namespace DomainAI
namespace History

def recentWindow : Nat := 6

def replyReserveTokens : Int := 768

def minBudgetTokens : Int := 512

/-- Rough token estimate, about four characters a token. -/
def estTokens (text : Text) : Nat :=
  Text.utf16Length text / 4 + 1

def estTotal (convo : Conversation) : Nat :=
  (convo.messages.map (fun m => estTokens m.text)).sum +
    estTokens (convo.summary.getD [])

def budget (contextTokens : Int) : Int :=
  max (contextTokens - replyReserveTokens) minBudgetTokens

/-- `takeLast(RECENT_WINDOW)`. -/
def recent (convo : Conversation) : List Message :=
  convo.messages.drop (convo.messages.length - recentWindow)

def olderUnsummarized (convo : Conversation) : List Message :=
  (convo.messages.take (convo.messages.length - recentWindow)).drop
    convo.summarizedCount

/-- The message that carries a summary, when there is one worth sending. -/
def summaryPrefix (id : Uuid) (now : Millis) (summary : Option Text) :
    List Message :=
  match summary with
  | none => []
  | some text =>
      if Text.isBlank text then []
      else
        [{ id := id, role := Role.ORACLE,
           text := "[Summary of earlier conversation]\n".toList ++ text,
           timestamp := now }]

/-- How a turn's history is obtained. -/
inductive Plan where
  | ready (history : List Message)
  | summarize (turns : List Message)
  deriving DecidableEq, Repr

/-- `prepareHistory` up to the point where it may suspend. -/
def plan (contextTokens : Int) (localModelLoaded : Bool) (id : Uuid)
    (now : Millis) (convo : Conversation) : Plan :=
  if (estTotal convo : Int) ≤ budget contextTokens then
    Plan.ready (summaryPrefix id now convo.summary ++
      convo.messages.drop convo.summarizedCount)
  else if (olderUnsummarized convo).isEmpty || !localModelLoaded then
    Plan.ready (summaryPrefix id now convo.summary ++ recent convo)
  else
    Plan.summarize (olderUnsummarized convo)

theorem turns_of_plan {contextTokens : Int} {loaded : Bool} {id : Uuid}
    {now : Millis} {convo : Conversation} {turns : List Message}
    (h : plan contextTokens loaded id now convo = Plan.summarize turns) :
    turns = olderUnsummarized convo ∧ turns ≠ [] := by
  unfold plan at h
  split at h
  · cases h
  · split at h
    · cases h
    · rename_i hturns
      cases h
      constructor
      · rfl
      · intro hempty
        apply hturns
        rw [hempty]
        rfl

def summarizePrompt (previous : Option Text) (turns : List Message) : Text :=
  "Summarize the conversation below so it can continue with full ".toList ++
  "context. Capture key facts, names, decisions and the user's goals ".toList ++
  "in a few sentences.\n\n".toList ++
  (if Text.isNullOrBlank previous then []
   else "Summary so far:\n".toList ++ previous.getD [] ++ "\n\n".toList) ++
  "Messages:\n".toList ++
  Text.joinToString "\n".toList
    (turns.map fun m =>
      (if m.role = Role.USER then "User: ".toList else "Assistant: ".toList) ++
        m.text) ++
  "\n\nUpdated summary:".toList

/-- The summary that a completed request stands for, unless it is blank. -/
def newSummary (completion : Option Text) : Option Text :=
  match completion with
  | none => none
  | some text =>
      if Text.isBlank (Text.trim text) then none else some (Text.trim text)

def afterSummary (completion : Option Text) (id : Uuid) (now : Millis)
    (convo : Conversation) : List Message :=
  match newSummary completion with
  | none => summaryPrefix id now convo.summary ++ recent convo
  | some summary => summaryPrefix id now (some summary) ++ recent convo

def newCount (convo : Conversation) : Nat :=
  convo.messages.length - recentWindow

def withSummary (completion : Option Text) (summarized : Conversation)
    (c : Conversation) : Conversation :=
  match newSummary completion with
  | none => c
  | some summary =>
      { c with summary := some summary, summarizedCount := newCount summarized }

@[simp] theorem withSummary_id (completion : Option Text)
    (summarized c : Conversation) :
    (withSummary completion summarized c).id = c.id := by
  unfold withSummary
  split <;> rfl

@[simp] theorem withSummary_messages (completion : Option Text)
    (summarized c : Conversation) :
    (withSummary completion summarized c).messages = c.messages := by
  unfold withSummary
  split <;> rfl

theorem messages_ne_nil_of_plan {contextTokens : Int} {localModelLoaded : Bool}
    {id : Uuid} {now : Millis} {convo : Conversation} {turns : List Message}
    (h : plan contextTokens localModelLoaded id now convo =
      Plan.summarize turns) : convo.messages ≠ [] := by
  intro hempty
  unfold plan at h
  split at h
  · cases h
  · simp [olderUnsummarized, hempty] at h

/-- `prepareHistory` as a whole: the history, and what becomes of the conversation.
The completion is the answer to a request for a summary, if there is one. -/
def prepareHistory (contextTokens : Int) (localModelLoaded : Bool)
    (completion : Option Text) (id : Uuid) (now : Millis) (convo : Conversation) :
    List Message × Conversation :=
  match plan contextTokens localModelLoaded id now convo with
  | Plan.ready history => (history, convo)
  | Plan.summarize _ =>
      (afterSummary completion id now convo, withSummary completion convo convo)

@[simp] theorem prepareHistory_messages (contextTokens : Int) (localModelLoaded : Bool)
    (completion : Option Text) (id : Uuid) (now : Millis) (convo : Conversation) :
    (prepareHistory contextTokens localModelLoaded completion id now convo).2.messages =
      convo.messages := by
  unfold prepareHistory
  split
  · rfl
  · exact withSummary_messages _ _ _

/-- The conversation fits, it is cut, or its oldest turns make a new summary. -/
theorem prepareHistory_cases (contextTokens : Int) (localModelLoaded : Bool)
    (completion : Option Text) (id : Uuid) (now : Millis) (convo : Conversation) :
    ((estTotal convo : Int) ≤ budget contextTokens ∧
      prepareHistory contextTokens localModelLoaded completion id now convo =
        (summaryPrefix id now convo.summary ++
          convo.messages.drop convo.summarizedCount, convo)) ∨
    (¬ (estTotal convo : Int) ≤ budget contextTokens ∧
      (olderUnsummarized convo = [] ∨ localModelLoaded = false ∨
        newSummary completion = none) ∧
      prepareHistory contextTokens localModelLoaded completion id now convo =
        (summaryPrefix id now convo.summary ++ recent convo, convo)) ∨
    (¬ (estTotal convo : Int) ≤ budget contextTokens ∧
      olderUnsummarized convo ≠ [] ∧ localModelLoaded = true ∧
      exists summary, newSummary completion = some summary ∧
        prepareHistory contextTokens localModelLoaded completion id now convo =
          (summaryPrefix id now (some summary) ++ recent convo,
            { convo with
              summary := some summary, summarizedCount := newCount convo })) := by
  unfold prepareHistory plan
  by_cases hfits : (estTotal convo : Int) ≤ budget contextTokens
  · simp [hfits]
  · rw [if_neg hfits]
    by_cases hcut : ((olderUnsummarized convo).isEmpty || !localModelLoaded) = true
    · rw [if_pos hcut]
      simp only [Bool.or_eq_true, List.isEmpty_iff, Bool.not_eq_true'] at hcut
      refine Or.inr (Or.inl ⟨hfits, ?_, rfl⟩)
      exact hcut.imp_right Or.inl
    · rw [if_neg hcut]
      simp only [Bool.or_eq_true, List.isEmpty_iff, Bool.not_eq_true', not_or,
        Bool.not_eq_false] at hcut
      cases hsummary : newSummary completion with
      | none =>
          simp [hfits, afterSummary, withSummary, hsummary]
      | some summary =>
          simp [hfits, afterSummary, withSummary, hsummary, hcut]

end History
end DomainAI
