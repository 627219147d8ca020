import DomainAI.Llama.BridgedRunLoop
import DomainAI.Llama.TokenPieces
import Mathlib.Data.List.Infix

/-!
# Replies as their tokens spell them

The bytes of a character can be parted among tokens.  What the strings of a generation hold
together is the text that its tokens spell, and no string holds a part of a character.
-/

namespace DomainAI

/-!
# Characters
-/

namespace ModifiedUtf8

open Library Completion

/-- A character that UTF-8 and modified UTF-8 write alike. -/
def isPlain (c : Char) : Bool :=
  0 < c.toNat && c.toNat < 0x10000

def charBytes (c : Char) : List UInt8 :=
  (HostString.units c).flatMap unitBytes

theorem getStringUTFChars_eq (t : Text) : getStringUTFChars t = (t.map charBytes).flatten := by
  rw [getStringUTFChars, HostString.decodeToString, List.flatMap_assoc, List.flatMap_def]
  rfl

section Plain

variable {c : Char} {t : Text}

theorem isPlain_iff : isPlain c = true <-> 0 < c.toNat ∧ c.toNat < 0x10000 := by
  rw [isPlain, Bool.and_eq_true, decide_eq_true_eq, decide_eq_true_eq]

theorem charBytes_plain (h : isPlain c = true) :
    charBytes c = unitBytes (UInt16.ofNat c.toNat) := by
  rw [charBytes, HostString.units, Text.utf16, if_pos (isPlain_iff.mp h).right]
  exact List.append_nil _

theorem charBytes_eq_utf8 (h : isPlain c = true) : charBytes c = String.utf8EncodeChar c := by
  rcases isPlain_iff.mp h with ⟨hpos, hlt⟩
  have hunit : (UInt16.ofNat c.toNat).toNat = c.toNat := UInt16.toNat_ofNat_of_lt' hlt
  have hval : c.val.toNat = c.toNat := rfl
  rw [charBytes_plain h, unitBytes, String.utf8EncodeChar]
  simp only [hunit, hval]
  by_cases hone : c.toNat < 0x80
  · rw [if_pos ⟨hpos, hone⟩, if_pos (Nat.le_of_lt_succ hone)]
  · have hmore : ¬ c.toNat ≤ 127 := fun h => hone (Nat.lt_succ_of_le h)
    rw [if_neg fun h => hone h.right, if_neg hmore]
    by_cases htwo : c.toNat < 0x800
    · have hlead : 0xC0 + c.toNat / 0x40 = c.toNat / 64 % 32 + 192 := by omega
      rw [if_pos htwo, if_pos (Nat.le_of_lt_succ htwo), hlead, Nat.add_comm 0x80]
    · have hlead : 0xE0 + c.toNat / 0x1000 = c.toNat / 4096 % 16 + 224 := by omega
      have hmore : ¬ c.toNat ≤ 2047 := fun h => htwo (Nat.lt_succ_of_le h)
      rw [if_neg htwo, if_neg hmore, if_pos (Nat.le_of_lt_succ hlt), hlead, Nat.add_comm 0x80,
        Nat.add_comm 0x80]

theorem getStringUTFChars_plain (h : t.all isPlain = true) :
    getStringUTFChars t = t.flatMap String.utf8EncodeChar := by
  rw [getStringUTFChars_eq, List.flatMap_def]
  congr 1
  exact List.map_congr_left fun c hc => charBytes_eq_utf8 (List.all_eq_true.mp h c hc)

/-- The bridge reads the bytes of a unit as one sequence. -/
theorem frame_unitBytes (u : UInt16) : reader.Frame (unitBytes u) := by
  have hu : u.toNat < 0x10000 := u.toNat_lt
  have htail {n : Nat} (h : n < 0x40) : isContinuation (UInt8.ofNat (0x80 + n)) = true := by
    rw [isContinuation_iff]
    apply Utf8.isTail_of_bounds <;> rw [toNat_ofNat (by omega)] <;> omega
  rw [unitBytes]
  split
  · refine ⟨_, [], rfl, ?_, by simp⟩
    show sequenceLength _ = some 1
    rw [sequenceLength_eq_some_iff, toNat_ofNat (by omega)]
    omega
  · split
    · refine ⟨_, [_], rfl, ?_, ?_⟩
      · show sequenceLength _ = some 2
        rw [sequenceLength_eq_some_iff, toNat_ofNat (by omega)]
        omega
      · exact List.forall_mem_singleton.mpr (htail (by omega))
    · refine ⟨_, [_, _], rfl, ?_, ?_⟩
      · show sequenceLength _ = some 3
        rw [sequenceLength_eq_some_iff, toNat_ofNat (by omega)]
        omega
      · exact List.forall_mem_cons.mpr ⟨htail (by omega),
          List.forall_mem_singleton.mpr (htail (by omega))⟩

theorem frame_charBytes (h : t.all isPlain = true) :
    forall s, s ∈ t.map charBytes -> reader.Frame s := by
  intro s hs
  rcases List.mem_map.mp hs with ⟨c, hc, rfl⟩
  rw [charBytes_plain (List.all_eq_true.mp h c hc)]
  exact frame_unitBytes _

theorem newStringUTF_flatten {strs : List (List UInt8)} (hplain : t.all isPlain = true)
    (haccepts : forall str, str ∈ strs -> reader.Accepts str)
    (hflatten : strs.flatten = getStringUTFChars t) :
    (strs.map newStringUTF).flatten = t := by
  induction strs generalizing t with
  | nil =>
      have hnil : getStringUTFChars t = getStringUTFChars [] := hflatten.symm
      rw [<- newStringUTF_getStringUTFChars t, hnil, newStringUTF_getStringUTFChars]
      rfl
  | cons str strs ih =>
      rcases haccepts str List.mem_cons_self with ⟨ss, hss, rfl⟩
      rw [List.flatten_cons, getStringUTFChars_eq] at hflatten
      rcases Utf8.Reader.frames_of_flatten_append hss (frame_charBytes hplain) hflatten with
        ⟨us, hsplit, hrest⟩
      rcases List.map_eq_append_iff.mp hsplit with ⟨front, back, rfl, rfl, rfl⟩
      rw [List.all_append, Bool.and_eq_true] at hplain
      rw [<- getStringUTFChars_eq] at hrest ⊢
      rw [List.map_cons, List.flatten_cons, newStringUTF_getStringUTFChars,
        ih hplain.right (fun str hstr => haccepts str (List.mem_cons_of_mem _ hstr)) hrest]

end Plain

end ModifiedUtf8

/-!
# Completions
-/

namespace Completion

open Library

/-- The tokens of an uninterrupted completion spell this text. -/
structure Spells (llama : Llama) (piece : Token -> List UInt8) (nCtx : Int) (prompt : Text)
    (s : Bridge) (t : Text) : Prop where
  writes : Writes llama piece
  plain : t.all ModifiedUtf8.isPlain = true
  short : forall token, token ∈ generated llama s.sampled
    (runCompletion llama (fun _ => true) nCtx prompt s).tokens -> (piece token).length ≤ 256
  bytes : (generated llama s.sampled
    (runCompletion llama (fun _ => true) nCtx prompt s).tokens).flatMap piece =
      t.flatMap String.utf8EncodeChar

theorem Reassembled.complete {ps emitted : List (List UInt8)} {cache : List UInt8}
    (h : Reassembled ps emitted cache) (hnul : 0 ∉ ps.flatten)
    (haccepts : reader.Accepts ps.flatten) : emitted.flatten = ps.flatten := by
  rcases h.parted with ⟨front, back, hparted, hcache, hfront, hheld⟩
  have hsame : front ++ back = ps ++ [] := by rw [List.append_nil, hparted]
  rcases hheld.part hfront haccepts hsame with ⟨more, _, hback⟩
  have hempty : cache = [] := by
    rw [hcache, (List.append_eq_nil_iff.mp hback.symm).right]
    rfl
  rw [<- (h.whole hnul).right, hempty, List.append_nil]

/-- The strings of a completion hold the text that its tokens spell. -/
theorem Spells.emitted {llama : Llama} {piece : Token -> List UInt8} {nCtx : Int}
    {prompt : Text} {s : Bridge} {t : Text} (h : Spells llama piece nCtx prompt s t) :
    ((runCompletion llama (fun _ => true) nCtx prompt s).emitted.map
      ModifiedUtf8.newStringUTF).flatten = t := by
  have hutf8 := ModifiedUtf8.getStringUTFChars_plain h.plain
  have hreassembled := runCompletion_reassembled llama (fun _ => true) nCtx prompt s
  have hpieces : (pieces llama s.sampled
      (runCompletion llama (fun _ => true) nCtx prompt s).tokens).flatten =
        ModifiedUtf8.getStringUTFChars t := by
    rw [pieces_of_writes h.writes (List.forall_mem_map.mpr h.short), hutf8, <- h.bytes,
      List.flatMap_def]
  have hnul := ModifiedUtf8.nul_notMem t
  have haccepts : reader.Accepts (ModifiedUtf8.getStringUTFChars t) :=
    ⟨_, ModifiedUtf8.frame_charBytes h.plain, ModifiedUtf8.getStringUTFChars_eq t⟩
  rw [<- hpieces] at hnul haccepts
  exact ModifiedUtf8.newStringUTF_flatten h.plain (hreassembled.whole hnul).left
    ((hreassembled.complete hnul haccepts).trans hpieces)

end Completion

/-!
# Generations
-/

namespace LLamaAndroid
namespace Bridged

open Library RunLoop
open Completion (Llama Spells Token speaker)

section Spelled

variable {llama : Llama} {piece : Token -> List UInt8} {nCtx : Int} {prompt t : Text}
  {opened : Completion.Bridge} {id : GenerationId} {s : Bridged}

theorem Progress.spells_part
    (h : Progress llama ModifiedUtf8.newStringUTF nCtx prompt opened id s)
    (hspells : Spells llama piece nCtx prompt opened t) :
    (s.delivery.produced id).flatten <+: t := by
  rcases h.returned with ⟨emitted, hproduced, hpart⟩
  rw [hproduced, <- hspells.emitted]
  exact (hpart.map ModifiedUtf8.newStringUTF).flatten

theorem Progress.spells_whole
    (h : Progress llama ModifiedUtf8.newStringUTF nCtx prompt opened id s)
    (hspells : Spells llama piece nCtx prompt opened t)
    (hnone : s.delivery.loop.producers id = none) (hgoes : s.delivery.stopped id = false) :
    (s.delivery.produced id).flatten = t := by
  rcases h.ends hnone with ⟨collects, hends⟩
  rw [hends.produced, hends.whole hgoes]
  exact hspells.emitted

end Spelled

/-- As long as a generation has the thread to itself, what has been returned is a first part
of the text that its tokens spell, never of a character; in the end it is all of it, and the
collector has or will get it. -/
theorem reply_spelled {llama : Llama} {piece : Token -> List UInt8} {s s' : Bridged}
    {earlier es : List Event} {id : GenerationId} {p : Prompt} {cancelled : Bool}
    {handles : Loaded} {formatted t : Text} {nCtx : Int}
    (hreached : runEvents (step llama ModifiedUtf8.newStringUTF) {} earlier = some s)
    (hp : s.delivery.loop.producers id =
      some { point := Point.queued p, cancelled := cancelled })
    (hloaded : s.delivery.loop.wrapper.threadLocalState = State.Loaded handles)
    (hspells : Spells llama piece nCtx (promptText formatted p) s.bridge t)
    (hyields : forall e, e ∈ es -> yields id e = true)
    (hrun : runEvents (step llama ModifiedUtf8.newStringUTF) s
      (Event.start id formatted nCtx :: es) = some s') :
    (s'.delivery.produced id).flatten <+: t ∧
      (s'.delivery.loop.producers id = none -> s'.delivery.stopped id = false ->
        (s'.delivery.received id ++ s'.delivery.onTheWay id).flatten = t) := by
  rcases start_progress (run_delivery hreached) hp hloaded hyields hrun with ⟨hinv, hprogress⟩
  refine ⟨hprogress.spells_part hspells, fun hnone hgoes => ?_⟩
  rw [<- (hinv.delivered id).right.left hgoes]
  exact hprogress.spells_whole hspells hnone hgoes

def parted : List (List UInt8) :=
  [[0xE2], [0x82, 0xAC, 0xC3], [], [0xA9]]

def spoken : List Event :=
  [Event.iterate, Event.iterate, Event.iterate,
   Event.other (Delivery.Event.loop (LLamaAndroid.Event.take 0)), Event.iterate,
   Event.iterate]

theorem spells_parted (prompt : Text) :
    Spells (speaker parted) (fun token => parted.getD token.toNat []) 7 prompt {}
      "€é".toList := by
  -- the prompt makes no difference to the speaker
  have hprompt : Completion.runCompletion (speaker parted) (fun _ => true) 7 prompt {} =
      Completion.runCompletion (speaker parted) (fun _ => true) 7 [] {} := rfl
  refine ⟨Completion.writes_speaker parted, by decide, ?_, ?_⟩
  · rw [hprompt]
    decide +kernel
  · rw [hprompt]
    decide +kernel

theorem reply_spelled_parted :
    exists s s', runEvents (step (speaker parted) ModifiedUtf8.newStringUTF) {} collected =
        some s ∧
      runEvents (step (speaker parted) ModifiedUtf8.newStringUTF) s
        (Event.start 0 [] 7 :: spoken) = some s' ∧
      s'.delivery.loop.producers 0 = none ∧
      (s'.delivery.received 0 ++ s'.delivery.onTheWay 0).flatten = "€é".toList := by
  have hcollected :
      (runEvents (step (speaker parted) ModifiedUtf8.newStringUTF) {} collected).map
        (fun s => (s.delivery.loop.producers 0, s.delivery.loop.wrapper.threadLocalState,
          s.bridge)) =
        some (some { point := Point.queued (Prompt.formatted "hi".toList) },
          State.Loaded
            { path := request.pathToModel
              model := 1
              context := 2
              batch := 3
              sampler := 4 }, {}) := by decide +kernel
  have hended : (runEvents (step (speaker parted) ModifiedUtf8.newStringUTF) {}
      (collected ++ Event.start 0 [] 7 :: spoken)).map
        (fun s => (s.delivery.loop.producers 0, s.delivery.stopped 0)) =
        some (none, false) := by decide +kernel
  rcases Option.map_eq_some_iff.mp hcollected with ⟨s, hs, hqueued⟩
  rcases Option.map_eq_some_iff.mp hended with ⟨s', hall, hfacts⟩
  rcases runEvents_append.mp hall with ⟨mid, hmid, hrun⟩
  rw [hs] at hmid
  cases hmid
  simp only [Prod.mk.injEq] at hqueued hfacts
  rcases hqueued with ⟨hp, hloaded, hbridge⟩
  have hyields : forall e, e ∈ spoken -> yields 0 e = true :=
    List.all_eq_true.mp (by decide : spoken.all (yields 0) = true)
  have hsaid := (reply_spelled hs hp hloaded (hbridge ▸ spells_parted _) hyields hrun).right
  exact ⟨s, s', hs, hrun, hfacts.left, hsaid hfacts.left hfacts.right⟩

end Bridged
end LLamaAndroid
end DomainAI
