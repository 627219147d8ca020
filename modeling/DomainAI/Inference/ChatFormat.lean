import DomainAI.Data.Models
import DomainAI.Library.Framing
import DomainAI.Llama.LLamaAndroid

/-!
# ChatFormat

The turns that a local model is prompted with, and the ChatML text they make where the model
has no template of its own.
-/

namespace DomainAI
namespace ChatFormat

open Library
open LLamaAndroid (ChatTurn)

def SYSTEM : Text :=
  "You are Domain AI, a concise and helpful assistant. If asked your name, ".toList ++
  "say you are Domain AI. Reply directly with the answer only — never ".toList ++
  "begin your message with your name or a label such as \"Domain AI:\".".toList

def turn (m : Message) : ChatTurn where
  role := if m.role = Role.USER then "user".toList else "assistant".toList
  content := m.text.trim

def said (prompt : Text) (history : List Message) : List ChatTurn :=
  history.map turn ++ [{ role := "user".toList, content := prompt.trim }]

def isUser (t : ChatTurn) : Bool :=
  t.role == "user".toList

/-- The system instruction goes into a turn, for templates without a system role. -/
def instructed (t : ChatTurn) : ChatTurn :=
  { t with content := SYSTEM ++ "\n\n".toList ++ t.content }

def turns (prompt : Text) (history : List Message) : List ChatTurn :=
  match (said prompt history).findIdx? isUser with
  | some firstUser => (said prompt history).modify firstUser instructed
  | none => said prompt history

def fallback (turns : List ChatTurn) : Text :=
  (turns.flatMap fun turn =>
    "<|im_start|>".toList ++ (turn.role ++ '\n' :: (turn.content ++ "<|im_end|>\n".toList))) ++
  "<|im_start|>assistant\n".toList

/-!
# Reading a prompt back
-/

def chatML : Marks Char where
  opening := "<|im_start|>".toList
  separator := '\n'
  closing := "<|im_end|>\n".toList

def framed (t : ChatTurn) : Framed Char :=
  (t.role, t.content)

def replyOpening : Text :=
  "<|im_start|>assistant\n".toList

theorem fallback_eq (turns : List ChatTurn) :
    fallback turns = (turns.map framed).flatMap chatML.written ++ replyOpening := by
  rw [fallback, List.flatMap_map]
  rfl

theorem chatML_closes : chatML.Closes :=
  ⟨'<', "|im_end|>\n".toList, rfl, by decide⟩

theorem nextRecord_replyOpening : chatML.nextRecord replyOpening = none := by
  decide

/-- A turn that is the user's or the assistant's and does not close itself. -/
structure Plain (t : ChatTurn) : Prop where
  role : t.role = "user".toList ∨ t.role = "assistant".toList
  content : ¬ chatML.closing <:+: t.content

theorem Plain.framed {t : ChatTurn} (h : Plain t) : chatML.Plain (framed t) where
  tag := by
    show '\n' ∉ t.role
    rcases h.role with hrole | hrole <;> rw [hrole] <;> decide
  content := h.content

theorem said_role {prompt : Text} {history : List Message} {t : ChatTurn}
    (h : t ∈ said prompt history) :
    t.role = "user".toList ∨ t.role = "assistant".toList := by
  rcases List.mem_append.mp h with h | h
  · rcases List.mem_map.mp h with ⟨m, _, rfl⟩
    by_cases hrole : m.role = Role.USER
    · exact Or.inl (if_pos hrole)
    · exact Or.inr (if_neg hrole)
  · rw [List.mem_singleton.mp h]
    exact Or.inl rfl

theorem turns_first (prompt : Text) (history : List Message) :
    exists before first after,
      said prompt history = before ++ first :: after ∧
      (forall t, t ∈ before -> t.role = "assistant".toList) ∧
      first.role = "user".toList ∧
      turns prompt history = before ++ instructed first :: after := by
  cases hfirst : (said prompt history).findIdx? isUser with
  | none =>
      have hnone := List.findIdx?_eq_none_iff.mp hfirst
      have hprompt := hnone _ (List.mem_append_right _ (List.mem_singleton_self _))
      cases hprompt
  | some i =>
      rcases List.findIdx?_eq_some_iff_getElem.mp hfirst with ⟨hi, huser, hearlier⟩
      refine ⟨(said prompt history).take i, (said prompt history)[i],
        (said prompt history).drop (i + 1), ?_, ?_, eq_of_beq huser, ?_⟩
      · rw [List.getElem_cons_drop, List.take_append_drop]
      · intro t ht
        rcases List.mem_take_iff_getElem.mp ht with ⟨j, hj, rfl⟩
        rcases said_role (List.getElem_mem _) with hrole | hrole
        · have hnot := hearlier j (by omega)
          rw [isUser, hrole] at hnot
          exact absurd rfl hnot
        · exact hrole
      · rw [turns, hfirst]
        exact List.modify_eq_take_cons_drop hi

theorem notMem_SYSTEM : '<' ∉ SYSTEM := by
  decide +kernel

theorem instructed_content {t : ChatTurn} (h : ¬ chatML.closing <:+: t.content) :
    ¬ chatML.closing <:+: (instructed t).content := by
  have hinstruction : '<' ∉ SYSTEM ++ "\n\n".toList := by
    rw [List.mem_append, not_or]
    exact ⟨notMem_SYSTEM, by decide⟩
  have hclosing : chatML.closing = '<' :: "|im_end|>\n".toList := rfl
  rw [hclosing] at h ⊢
  rw [instructed]
  dsimp only
  rwa [infix_append_iff_of_notMem hinstruction]

theorem fallback_read {ts : List ChatTurn} (h : forall t, t ∈ ts -> Plain t) :
    chatML.decoder.decode (fallback ts) = (ts.map framed, replyOpening) := by
  rw [fallback_eq]
  apply Marks.records_written chatML_closes _ nextRecord_replyOpening
  intro r hr
  rcases List.mem_map.mp hr with ⟨t, ht, rfl⟩
  exact (h t ht).framed

theorem turns_plain {prompt : Text} {history : List Message}
    (h : forall t, t ∈ said prompt history -> ¬ chatML.closing <:+: t.content) :
    forall t, t ∈ turns prompt history -> Plain t := by
  rcases turns_first prompt history with ⟨before, first, after, hsaid, _, hfirst, hturns⟩
  intro t ht
  rw [hturns, List.mem_append, List.mem_cons] at ht
  have hplain {t : ChatTurn} (ht : t ∈ before ++ first :: after) : Plain t := by
    rw [<- hsaid] at ht
    exact ⟨said_role ht, h t ht⟩
  rcases ht with ht | rfl | ht
  · exact hplain (List.mem_append_left _ ht)
  · have hcontent := (hplain (List.mem_append_right _ List.mem_cons_self)).content
    exact ⟨Or.inl hfirst, instructed_content hcontent⟩
  · exact hplain (List.mem_append_right _ (List.mem_cons_of_mem _ ht))

end ChatFormat
end DomainAI
