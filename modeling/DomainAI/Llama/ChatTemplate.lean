import DomainAI.Inference.ChatFormat
import DomainAI.Llama.ModifiedUtf8

/-!
# A chat in the words of its model

The native side formats a chat by the template that the model carries.  The vendored library
writes into a buffer that may turn out too small, so it is asked twice.
-/

namespace DomainAI
namespace ChatTemplate

open Library ModifiedUtf8
open LLamaAndroid (ChatTurn Prompt RunLoop)

def literal (s : String) : List UInt8 :=
  s.toList.map fun c => UInt8.ofNat c.toNat

abbrev ChatMessage :=
  List UInt8 × List UInt8

/-- What the vendored library makes of the templates other than ChatML. -/
structure Others (kappa : Type) where
  /-- The names of `LLM_CHAT_TEMPLATES` other than `chatml`. -/
  from_str : List UInt8 -> Option kappa
  PHI_4 : kappa
  SMOLVLM : kappa
  detect : List UInt8 -> Option kappa
  apply : kappa -> List ChatMessage -> Bool -> Option (List UInt8)

/-- `llm_chat_template`. -/
inductive Template (kappa : Type) where
  | CHATML
  | other (template : kappa)
  deriving DecidableEq

variable {kappa : Type}

def llm_chat_detect_template (others : Others kappa) (tmpl : List UInt8) :
    Option (Template kappa) :=
  if tmpl = literal "chatml" then some Template.CHATML
  else
    match others.from_str tmpl with
    | some template => some (Template.other template)
    | none =>
        if literal "<|im_start|>" <:+: tmpl then
          if literal "<|im_sep|>" <:+: tmpl then some (Template.other others.PHI_4)
          else if literal "<end_of_utterance>" <:+: tmpl then
            some (Template.other others.SMOLVLM)
          else some Template.CHATML
        else (others.detect tmpl).map Template.other

def llm_chat_apply_template (others : Others kappa) (template : Template kappa)
    (chat : List ChatMessage) (addAss : Bool) : Option (List UInt8) :=
  match template with
  | Template.CHATML =>
      some ((chat.flatMap fun message =>
        literal "<|im_start|>" ++ (message.1 ++ literal "\n" ++
          (message.2 ++ literal "<|im_end|>\n"))) ++
        if addAss then literal "<|im_start|>assistant\n" else [])
  | Template.other template => others.apply template chat addAss

/-- `strncpy` over the whole buffer: the bytes up to the first NUL, and NULs after them. -/
def strncpy (buf src : List UInt8) : List UInt8 :=
  (src.takeWhile (· != 0) ++ List.replicate buf.length 0).take buf.length

def llama_chat_apply_template (others : Others kappa) (tmpl : List UInt8)
    (chat : List ChatMessage) (addAss : Bool) (buf : List UInt8) : Int × List UInt8 :=
  match llm_chat_detect_template others tmpl with
  | none => (-1, buf)
  | some template =>
      match llm_chat_apply_template others template chat addAss with
      | none => (-1, buf)
      | some formatted => (formatted.length, strncpy buf formatted)

def chatMessage (t : ChatTurn) : ChatMessage :=
  (getStringUTFChars t.role, getStringUTFChars t.content)

def totalChars (msgs : List ChatMessage) : Nat :=
  (msgs.map fun message => message.1.length + message.2.length).sum

/-- `format_chat`, for a model with this template in its metadata. -/
def format_chat (others : Others kappa) (embedded : Option (List UInt8))
    (turns : List ChatTurn) (addAss : Bool) : Text :=
  match embedded with
  | none => []
  | some tmpl =>
      let msgs := turns.map chatMessage
      let buf := List.replicate (max 512 (totalChars msgs * 2)) 0
      let first := llama_chat_apply_template others tmpl msgs addAss buf
      let last :=
        if (buf.length : Int) < first.1 then
          llama_chat_apply_template others tmpl msgs addAss
            (first.2 ++ List.replicate (first.1.toNat - buf.length) 0)
        else first
      if last.1 < 0 then []
      else newStringUTF ((last.2.take last.1.toNat).takeWhile (· != 0))

/-!
# The buffer
-/

theorem takeWhile_of_notMem {bytes : List UInt8} (h : 0 ∉ bytes) :
    bytes.takeWhile (· != 0) = bytes := by
  rw [List.takeWhile_eq_self_iff]
  intro b hb
  exact bne_iff_ne.mpr fun hzero => h (hzero ▸ hb)

theorem take_strncpy {buf src : List UInt8} (hsrc : 0 ∉ src)
    (hlength : src.length ≤ buf.length) : (strncpy buf src).take src.length = src := by
  rw [strncpy, takeWhile_of_notMem hsrc, List.take_take, Nat.min_eq_left hlength,
    List.take_left]

theorem length_strncpy (buf src : List UInt8) : (strncpy buf src).length = buf.length := by
  rw [strncpy, List.length_take, List.length_append, List.length_replicate]
  omega

theorem llama_chat_apply_template_formatted {others : Others kappa} {tmpl : List UInt8}
    {template : Template kappa} {chat : List ChatMessage} {addAss : Bool}
    {formatted : List UInt8} (htemplate : llm_chat_detect_template others tmpl = some template)
    (hformatted : llm_chat_apply_template others template chat addAss = some formatted)
    (buf : List UInt8) :
    llama_chat_apply_template others tmpl chat addAss buf =
      ((formatted.length : Int), strncpy buf formatted) := by
  simp only [llama_chat_apply_template, htemplate, hformatted]

theorem format_chat_formatted {others : Others kappa} {tmpl : List UInt8}
    {template : Template kappa} {turns : List ChatTurn} {addAss : Bool}
    {formatted : List UInt8} (htemplate : llm_chat_detect_template others tmpl = some template)
    (hformatted : llm_chat_apply_template others template (turns.map chatMessage) addAss =
      some formatted)
    (hnul : 0 ∉ formatted) :
    format_chat others (some tmpl) turns addAss = newStringUTF formatted := by
  have hcall := llama_chat_apply_template_formatted htemplate hformatted
  have hnotNegative : ¬ (formatted.length : Int) < 0 := by omega
  rw [format_chat]
  simp only [hcall]
  split
  · dsimp only
    rw [Int.toNat_natCast, take_strncpy hnul, takeWhile_of_notMem hnul]
    rw [List.length_append, length_strncpy, List.length_replicate, List.length_replicate]
    omega
  · rename_i hlarge
    dsimp only
    rw [Int.toNat_natCast, take_strncpy hnul, takeWhile_of_notMem hnul]
    exact Int.ofNat_le.mp (Int.not_lt.mp hlarge)

/-!
# ChatML
-/

theorem getStringUTFChars_flatMap {alpha : Type} (f : alpha -> Text) (xs : List alpha) :
    getStringUTFChars (xs.flatMap f) = xs.flatMap fun x => getStringUTFChars (f x) := by
  induction xs with
  | nil => rfl
  | cons x xs ih => rw [List.flatMap_cons, List.flatMap_cons, getStringUTFChars_append, ih]

/-- The native ChatML is the ChatML of the fallback. -/
theorem chatml_formatted (others : Others kappa) (turns : List ChatTurn) :
    llm_chat_apply_template others Template.CHATML (turns.map chatMessage) true =
      some (getStringUTFChars (ChatFormat.fallback turns)) := by
  have hopening : getStringUTFChars "<|im_start|>".toList = literal "<|im_start|>" := by decide
  have hfeed : getStringUTFChars ['\n'] = literal "\n" := by decide
  have hclosing : getStringUTFChars "<|im_end|>\n".toList = literal "<|im_end|>\n" := by decide
  have hreply : getStringUTFChars "<|im_start|>assistant\n".toList =
      literal "<|im_start|>assistant\n" := by
    decide
  rw [llm_chat_apply_template, if_pos rfl, List.flatMap_map, ChatFormat.fallback,
    getStringUTFChars_append, getStringUTFChars_flatMap, hreply]
  congr 2
  apply congrArg (fun f => turns.flatMap f)
  funext turn
  rw [chatMessage, getStringUTFChars_append, getStringUTFChars_append, hopening,
    <- List.singleton_append, getStringUTFChars_append, getStringUTFChars_append, hfeed,
    hclosing, List.append_assoc]

theorem format_chat_chatml {others : Others kappa} {tmpl : List UInt8}
    (h : llm_chat_detect_template others tmpl = some Template.CHATML)
    (turns : List ChatTurn) :
    format_chat others (some tmpl) turns true = ChatFormat.fallback turns := by
  rw [format_chat_formatted h (chatml_formatted others turns) (nul_notMem _),
    newStringUTF_getStringUTFChars]

theorem format_chat_unknown {others : Others kappa} {tmpl : List UInt8}
    (h : llm_chat_detect_template others tmpl = none) (turns : List ChatTurn)
    (addAss : Bool) : format_chat others (some tmpl) turns addAss = [] := by
  have hcall (msgs : List ChatMessage) (buf : List UInt8) :
      llama_chat_apply_template others tmpl msgs addAss buf = (-1, buf) := by
    rw [llama_chat_apply_template, h]
  rw [format_chat]
  simp only [hcall]
  split <;> rfl

/-- The model's template is none, ChatML, or one that the library does not know. -/
def PlainTemplate (others : Others kappa) (embedded : Option (List UInt8)) : Prop :=
  forall tmpl, embedded = some tmpl ->
    forall template, llm_chat_detect_template others tmpl ≠ some (Template.other template)

def prompted (others : Others kappa) (embedded : Option (List UInt8))
    (turns : List ChatTurn) : Text :=
  RunLoop.promptText (format_chat others embedded turns true)
    (Prompt.chat turns (ChatFormat.fallback turns))

theorem fallback_not_blank (turns : List ChatTurn) :
    Text.isBlank (ChatFormat.fallback turns) = false := by
  rw [ChatFormat.fallback, Text.isBlank, List.all_append, Bool.and_eq_false_iff]
  exact Or.inr (by decide)

theorem prompted_eq {others : Others kappa} {embedded : Option (List UInt8)}
    (h : PlainTemplate others embedded) (turns : List ChatTurn) :
    prompted others embedded turns = ChatFormat.fallback turns := by
  rw [prompted, RunLoop.promptText]
  cases embedded with
  | none => exact if_pos rfl
  | some tmpl =>
      cases htemplate : llm_chat_detect_template others tmpl with
      | none => rw [format_chat_unknown htemplate]; exact if_pos rfl
      | some template =>
          cases template with
          | CHATML =>
              rw [format_chat_chatml htemplate, fallback_not_blank]
              exact if_neg Bool.false_ne_true
          | other template => exact absurd htemplate (h tmpl rfl template)

/-- The text that a generation prefills can be read back: it has the turns of the
conversation and the new prompt, in their order and trimmed, the instruction ahead of the
user's first, and then the opening of the reply. -/
theorem prompt_read_back {others : Others kappa} {embedded : Option (List UInt8)}
    (hembedded : PlainTemplate others embedded) (prompt : Text) (history : List Message)
    (hplain : forall t, t ∈ ChatFormat.said prompt history ->
      ¬ "<|im_end|>\n".toList <:+: t.content) :
    exists before first after,
      ChatFormat.said prompt history = before ++ first :: after ∧
      (forall t, t ∈ before -> t.role = "assistant".toList) ∧
      first.role = "user".toList ∧
      ChatFormat.chatML.decoder.decode
          (prompted others embedded (ChatFormat.turns prompt history)) =
        ((before ++ ChatFormat.instructed first :: after).map ChatFormat.framed,
          "<|im_start|>assistant\n".toList) := by
  rcases ChatFormat.turns_first prompt history with
    ⟨before, first, after, hsaid, hbefore, hfirst, hturns⟩
  refine ⟨before, first, after, hsaid, hbefore, hfirst, ?_⟩
  rw [prompted_eq hembedded, ChatFormat.fallback_read (ChatFormat.turns_plain hplain), hturns]
  rfl

def chatMLOnly : Others Unit where
  from_str _ := none
  PHI_4 := ()
  SMOLVLM := ()
  detect _ := none
  apply _ _ _ := none

def greeting : List Message :=
  [{ id := 0, role := Role.ORACLE, text := "Welcome. ".toList, timestamp := 0 },
    { id := 1, role := Role.USER, text := "Hi".toList, timestamp := 1 },
    { id := 2, role := Role.ORACLE, text := "Hello!".toList, timestamp := 2 }]

theorem prompt_read_back_greeting :
    exists before first after,
      ChatFormat.said "And you?\n".toList greeting = before ++ first :: after ∧
      (forall t, t ∈ before -> t.role = "assistant".toList) ∧
      first.role = "user".toList ∧
      ChatFormat.chatML.decoder.decode
          (prompted chatMLOnly (some (literal "<|im_start|>"))
            (ChatFormat.turns "And you?\n".toList greeting)) =
        ((before ++ ChatFormat.instructed first :: after).map ChatFormat.framed,
          "<|im_start|>assistant\n".toList) := by
  apply prompt_read_back
  · intro tmpl htmpl template
    cases htmpl
    have hdetect : llm_chat_detect_template chatMLOnly (literal "<|im_start|>") =
        some Template.CHATML := by
      decide
    rw [hdetect]
    intro hother
    cases hother
  · decide

end ChatTemplate
end DomainAI
