import DomainAI.Data.ReplyText
import DomainAI.Library.Anchored

/-!
# The name label of a growing reply

A label at the start of a reply is recognised only once its colon has arrived.  From then on
the text that is kept grows with the reply; until then it is the reply itself.
-/

namespace DomainAI
namespace ReplyText

open Library

/-- The label up to its colon. -/
def label : Regex Char :=
  Regex.seq (Regex.many isSpace 0)
    (Regex.seq
      (Regex.alt (caseless 'D' "omain AI".toList)
        (Regex.alt (caseless 'D' "omain".toList)
          (caseless 'O' "racle".toList)))
      (Regex.seq (Regex.many isSpace 0) (Regex.chars (fun c => c == ':'))))

theorem stripLeadingNameLabel_eq (text : Text) :
    stripLeadingNameLabel text =
      (Regex.seq (Regex.assert Regex.start)
        (Regex.seq label (Regex.many isSpace 0))).replaceFirst [] text := by
  rw [Regex.replaceFirst_start]
  unfold stripLeadingNameLabel nameLabel label
  show (Regex.seq (Regex.assert Regex.start) _).replaceFirst [] text = _
  rw [Regex.replaceFirst_start]
  simp only [Regex.ends, List.flatMap_assoc]

theorem label_plain : label.Plain = true := by
  decide

theorem label_marked : label.Marked ':' := by
  rintro w ⟨u, _, rfl, hspaces, v, _, rfl, hname, x, y, rfl, hspaces', c, hc, rfl⟩
  refine ⟨u ++ (v ++ x), ?_, ?_⟩
  · rw [eq_of_beq hc]
    simp only [List.append_assoc]
  · have hspace {z : Text} (hz : forall c, c ∈ z -> isSpace c = true) : ':' ∉ z := by
      intro hmem
      exact absurd (hz ':' hmem) (by decide)
    have hletters := Regex.words_letters hname
    have hcolon : ':' ∉ v := by
      intro hmem
      exact absurd (hletters ':' hmem) (by decide)
    rw [List.mem_append, List.mem_append, not_or, not_or]
    exact ⟨hspace hspaces.right, hcolon, hspace hspaces'.right⟩

theorem strip_label {w : Text} (hw : label.Words w) (rest : Text) :
    stripLeadingNameLabel (w ++ rest) = rest.dropWhile isSpace := by
  rw [stripLeadingNameLabel_eq]
  exact Regex.replaceFirst_marked label_marked label_plain isSpace hw rest

theorem strip_unlabelled {text : Text}
    (h : forall w rest, text = w ++ rest -> ¬ label.Words w) :
    stripLeadingNameLabel text = text := by
  rw [stripLeadingNameLabel_eq]
  exact Regex.replaceFirst_unmarked label_plain isSpace h

/-- What has arrived is the beginning of a label that is complete by now. -/
def LabelBegun (earlier later : Text) : Prop :=
  exists w, label.Words w ∧ w <+: later ∧ earlier <+: w

theorem strip_grows {earlier later : Text} (h : earlier <+: later) :
    stripLeadingNameLabel earlier <+: stripLeadingNameLabel later ∨
      stripLeadingNameLabel earlier = earlier ∧ LabelBegun earlier later := by
  by_cases hearlier : exists w rest, earlier = w ++ rest ∧ label.Words w
  · rcases hearlier with ⟨w, rest, rfl, hw⟩
    rcases h with ⟨more, rfl⟩
    left
    rw [List.append_assoc, strip_label hw, strip_label hw]
    exact dropWhile_prefix isSpace (List.prefix_append _ _)
  · have hkept : stripLeadingNameLabel earlier = earlier :=
      strip_unlabelled fun w rest heq hw => hearlier ⟨w, rest, heq, hw⟩
    by_cases hlater : exists w rest, later = w ++ rest ∧ label.Words w
    · rcases hlater with ⟨w, rest, rfl, hw⟩
      rcases List.prefix_or_prefix_of_prefix h (List.prefix_append w rest) with hbegun | hcut
      · exact Or.inr ⟨hkept, w, hw, List.prefix_append w rest, hbegun⟩
      · rcases hcut with ⟨rest', rfl⟩
        exact absurd ⟨w, rest', rfl, hw⟩ hearlier
    · left
      rw [hkept, strip_unlabelled fun w rest heq hw => hlater ⟨w, rest, heq, hw⟩]
      exact h

end ReplyText
end DomainAI
