import DomainAI.Library.Utf8
import DomainAI.Llama.DecodingPositions
import Mathlib.Data.List.TakeWhile

/-!
# Token pieces

A token stands for some bytes, which need not be whole code points.  The bridge holds
them back until all that it holds passes for UTF-8, and hands on the whole of it.
-/

namespace DomainAI
namespace Completion

open Library

/-!
# What the bridge takes for UTF-8
-/

theorem toNat_shiftRight (b : UInt8) (k : Nat) (hk : k < 8) :
    (b >>> UInt8.ofNat k).toNat = b.toNat / 2 ^ k := by
  rw [UInt8.toNat_shiftRight, UInt8.toNat_ofNat', Nat.shiftRight_eq_div_pow]
  congr 2
  omega

theorem shiftRight_eq_iff {b c : UInt8} {k : Nat} (hk : k < 8) :
    b >>> UInt8.ofNat k = c <-> b.toNat / 2 ^ k = c.toNat := by
  rw [<- UInt8.toNat_inj, toNat_shiftRight b k hk]

theorem isContinuation_iff {b : UInt8} :
    isContinuation b = true <-> Utf8.isTail b = true := by
  have hshift : b >>> 6 = 2 <-> b.toNat / 2 ^ 6 = 2 := shiftRight_eq_iff (k := 6) (by omega)
  rw [isContinuation, beq_iff_eq, hshift, Utf8.isTail, Utf8.within_iff]
  simp only [UInt8.reduceToNat]
  omega

/-- The ranges of the lead bytes, and where they are wider than those of Unicode. -/
theorem sequenceLength_eq_some_iff {a : UInt8} {len : Nat} :
    sequenceLength a = some len <->
      (len = 1 ∧ a.toNat < 0x80) ∨ (len = 2 ∧ 0xC0 ≤ a.toNat ∧ a.toNat < 0xE0) ∨
        (len = 3 ∧ 0xE0 ≤ a.toNat ∧ a.toNat < 0xF0) ∨
        (len = 4 ∧ 0xF0 ≤ a.toNat ∧ a.toNat < 0xF8) := by
  have hone : a < 0x80 <-> a.toNat < 0x80 := UInt8.lt_iff_toNat_lt
  have htwo : a >>> 5 = 0x6 <-> a.toNat / 2 ^ 5 = 6 := shiftRight_eq_iff (k := 5) (by omega)
  have hthree : a >>> 4 = 0xE <-> a.toNat / 2 ^ 4 = 14 :=
    shiftRight_eq_iff (k := 4) (by omega)
  have hfour : a >>> 3 = 0x1E <-> a.toNat / 2 ^ 3 = 30 :=
    shiftRight_eq_iff (k := 3) (by omega)
  simp only [sequenceLength, hone, htwo, hthree, hfour]
  split
  · simp only [Option.some.injEq]
    omega
  · split
    · simp only [Option.some.injEq]
      omega
    · split
      · simp only [Option.some.injEq]
        omega
      · split
        · simp only [Option.some.injEq]
          omega
        · simp only [reduceCtorEq, false_iff]
          omega

def reader : Utf8.Reader where
  length := sequenceLength
  continues := isContinuation
  isTail_of_continues b := isContinuation_iff.mp
  reads a rest h := by
    rcases Utf8.isSequence_cases h with
      ⟨b, hs, hlead⟩ | ⟨b, c, hs, hlead, hc⟩ | ⟨b, c, d, hs, hlead, hc, hd⟩ |
        ⟨b, c, d, e, hs, hlead, hc, hd, he⟩
    all_goals
      cases hs
      rw [Utf8.within_iff] at hlead
      simp only [UInt8.reduceToNat] at hlead
      rw [sequenceLength_eq_some_iff]
    · exact ⟨Or.inl ⟨rfl, by omega⟩, by simp⟩
    · exact ⟨Or.inr (Or.inl ⟨rfl, by omega, by omega⟩), by simp [isContinuation_iff, hc]⟩
    · exact ⟨Or.inr (Or.inr (Or.inl ⟨rfl, by omega, by omega⟩)),
        by simp [isContinuation_iff, hc, hd]⟩
    · exact ⟨Or.inr (Or.inr (Or.inr ⟨rfl, by omega, by omega⟩)),
        by simp [isContinuation_iff, hc, hd, he]⟩

theorem continuations_eq {bytes : List UInt8} {i k : Nat} (h : i + k ≤ bytes.length) :
    continuations bytes i k = some (((bytes.drop i).take k).all isContinuation) := by
  induction k generalizing i with
  | zero => rfl
  | succ k ih =>
      have hi : i < bytes.length := by omega
      rw [continuations, List.getElem?_eq_getElem hi, List.drop_eq_getElem_cons hi,
        List.take_succ_cons, List.all_cons]
      simp only [Option.bind_eq_bind, Option.bind_some]
      cases isContinuation bytes[i] with
      | true =>
          rw [if_pos rfl, ih (by omega), Bool.true_and]
      | false => rfl

theorem drop_eq_cons {bytes : List UInt8} {i : Nat} {c : UInt8} (hc : bytes[i]? = some c) :
    bytes.drop i = c :: bytes.drop (i + 1) := by
  rcases List.getElem?_eq_some_iff.mp hc with ⟨hi, hget⟩
  rw [List.drop_eq_getElem_cons hi, hget]

theorem drop_eq_sequence {bytes : List UInt8} {i len : Nat} {c : UInt8}
    (hc : bytes[i]? = some c) (hlen : 0 < len) :
    bytes.drop i =
      c :: (bytes.drop (i + 1)).take (len - 1) ++ bytes.drop (i + len) := by
  have hsplit := List.take_append_drop (len - 1) (bytes.drop (i + 1))
  have hrest : i + 1 + (len - 1) = i + len := by omega
  rw [List.drop_drop, hrest] at hsplit
  rw [drop_eq_cons hc, List.cons_append, hsplit]

theorem isValidFrom_iff (bytes : List UInt8) (i : Nat) :
    isValidFrom bytes i = some true <-> reader.Accepts (bytes.drop i) := by
  fun_induction isValidFrom bytes i with
  | case1 i hi hnone =>
      rw [List.getElem?_eq_getElem hi] at hnone
      cases hnone
  | case2 i hi c hc hlength =>
      rw [drop_eq_cons hc]
      constructor
      · intro h
        cases h
      · intro h
        rcases Utf8.Reader.length_of_accepts_cons h with ⟨n, hn, _⟩
        have hnone := hlength.symm.trans hn
        cases hnone
  | case3 i hi c hc len hlength hcut =>
      rw [drop_eq_cons hc]
      constructor
      · intro h
        cases h
      · intro h
        rcases Utf8.Reader.length_of_accepts_cons h with ⟨n, hn, hfits⟩
        have hlen := Option.some.inj (hlength.symm.trans hn)
        rw [List.length_drop] at hfits
        omega
  | case4 i hi c hc len hlength hfits hnone =>
      have hpos := sequenceLength_pos hlength
      rw [continuations_eq (by omega)] at hnone
      cases hnone
  | case5 i hi c hc len hlength hfits hfalse =>
      have hpos := sequenceLength_pos hlength
      rw [continuations_eq (by omega), Option.some.injEq, List.all_eq_false] at hfalse
      rcases hfalse with ⟨b, hb, hbad⟩
      constructor
      · intro h
        cases h
      · intro h
        rw [drop_eq_sequence hc hpos, Utf8.Reader.accepts_cons_iff] at h
        · exact absurd (h.left b hb) hbad
        · rw [List.length_take, List.length_drop, Nat.min_eq_left (by omega),
            Nat.sub_add_cancel hpos]
          exact hlength
  | case6 i hi c hc len hlength hfits htrue ih =>
      have hpos := sequenceLength_pos hlength
      rw [continuations_eq (by omega), Option.some.injEq, List.all_eq_true] at htrue
      rw [drop_eq_sequence hc hpos, Utf8.Reader.accepts_cons_iff, ih]
      · exact (and_iff_right htrue).symm
      · rw [List.length_take, List.length_drop, Nat.min_eq_left (by omega),
          Nat.sub_add_cancel hpos]
        exact hlength
  | case7 i hi =>
      rw [List.drop_eq_nil_of_le (Nat.le_of_not_lt hi)]
      exact iff_of_true rfl Utf8.Reader.accepts_nil

theorem isValidUtf8_iff {bytes : List UInt8} :
    isValidUtf8 bytes = true <-> reader.Accepts bytes := by
  rw [isValidUtf8, beq_iff_eq, isValidFrom_iff, List.drop_zero]

/-!
# What is handed on, and what is held back
-/

def generated (llama : Llama) (first n : Nat) : List Token :=
  (List.range n).map fun j => llama.samples (first + j)

def pieces (llama : Llama) (first n : Nat) : List (List UInt8) :=
  (generated llama first n).map fun token => (llama.tokenToPiece token).getD []

theorem pieces_succ (llama : Llama) (first n : Nat) :
    pieces llama first (n + 1) =
      pieces llama first n ++
        [(llama.tokenToPiece (llama.samples (first + n))).getD []] := by
  rw [pieces, generated, List.range_succ, List.map_append, List.map_append]
  rfl

def Held (ps : List (List UInt8)) : Prop :=
  forall front back, ps = front ++ back -> front ≠ [] -> ¬ reader.Accepts front.flatten

/-- The pieces so far are those handed on, which pass for UTF-8, and those held back. -/
structure Reassembled (ps emitted : List (List UInt8)) (cache : List UInt8) : Prop where
  parted : exists front back, ps = front ++ back ∧ cache = back.flatten ∧
    reader.Accepts front.flatten ∧ Held back
  noNul : forall str, str ∈ emitted -> 0 ∉ str
  whole : 0 ∉ ps.flatten ->
    (forall str, str ∈ emitted -> reader.Accepts str) ∧
      emitted.flatten ++ cache = ps.flatten

theorem held_nil : Held [] := by
  intro front back h hne
  exact absurd (List.append_eq_nil_iff.mp h.symm).left hne

theorem held_concat {ps : List (List UInt8)} {p : List UInt8} (h : Held ps)
    (hp : ¬ reader.Accepts (ps.flatten ++ p)) : Held (ps ++ [p]) := by
  intro front back hsplit hne
  rcases List.eq_nil_or_concat back with rfl | ⟨back', last, rfl⟩
  · rw [List.append_nil] at hsplit
    rw [<- hsplit, List.flatten_append, List.flatten_singleton]
    exact hp
  · rw [List.concat_eq_append, <- List.append_assoc] at hsplit
    exact h front back' (List.append_inj' hsplit rfl).left hne

theorem reassembled_nil : Reassembled [] [] [] where
  parted := ⟨[], [], rfl, rfl, Utf8.Reader.accepts_nil, held_nil⟩
  noNul := by simp
  whole := by simp

theorem Reassembled.step {ps emitted : List (List UInt8)} {cache p str rest : List UInt8}
    (h : Reassembled ps emitted cache)
    (hstr : (str, rest) =
      if isValidUtf8 (cache ++ p) then
        ((cache ++ p).takeWhile (fun b => b != 0), [])
      else ([], cache ++ p)) :
    Reassembled (ps ++ [p]) (emitted ++ [str]) rest := by
  rcases h.parted with ⟨front, back, hps, hcache, hfront, hheld⟩
  have hflatten : (ps ++ [p]).flatten = front.flatten ++ (cache ++ p) := by
    rw [hps, hcache, List.flatten_append, List.flatten_append, List.flatten_singleton,
      List.append_assoc]
  have hwhole : 0 ∉ (ps ++ [p]).flatten ->
      (forall str, str ∈ emitted -> reader.Accepts str) ∧
        emitted.flatten ++ (cache ++ p) = (ps ++ [p]).flatten := by
    intro hnul
    rw [List.flatten_append, List.flatten_singleton] at hnul ⊢
    rcases h.whole (fun hmem => hnul (List.mem_append_left _ hmem)) with ⟨hall, hwhole⟩
    rw [<- List.append_assoc, hwhole]
    exact ⟨hall, rfl⟩
  by_cases hvalid : isValidUtf8 (cache ++ p) = true
  · rw [if_pos hvalid] at hstr
    cases hstr
    have haccepts := isValidUtf8_iff.mp hvalid
    constructor
    · refine ⟨ps ++ [p], [], (List.append_nil _).symm, rfl, ?_, held_nil⟩
      rw [hflatten]
      exact Utf8.Reader.accepts_append hfront haccepts
    · intro str hstr
      rcases List.mem_append.mp hstr with hstr | hstr
      · exact h.noNul str hstr
      · rw [List.mem_singleton.mp hstr]
        intro hzero
        have hne := List.mem_takeWhile_imp hzero
        cases hne
    · intro hnul
      have htake : (cache ++ p).takeWhile (fun b => b != 0) = cache ++ p := by
        rw [List.takeWhile_eq_self_iff]
        intro b hb
        rw [bne_iff_ne]
        rintro rfl
        apply hnul
        rw [hflatten]
        exact List.mem_append_right _ hb
      rcases hwhole hnul with ⟨hall, hwhole⟩
      rw [htake, List.flatten_append, List.flatten_singleton, List.append_nil]
      exact ⟨List.forall_mem_append.mpr ⟨hall, List.forall_mem_singleton.mpr haccepts⟩,
        hwhole⟩
  · rw [if_neg hvalid] at hstr
    cases hstr
    rw [isValidUtf8_iff] at hvalid
    constructor
    · refine ⟨front, back ++ [p], by rw [hps, List.append_assoc], ?_, hfront, ?_⟩
      · rw [hcache, List.flatten_append, List.flatten_singleton]
      · apply held_concat hheld
        rw [<- hcache]
        exact hvalid
    · intro str hstr
      rcases List.mem_append.mp hstr with hstr | hstr
      · exact h.noNul str hstr
      · rw [List.mem_singleton.mp hstr]
        exact List.not_mem_nil
    · intro hnul
      rcases hwhole hnul with ⟨hall, hwhole⟩
      rw [List.flatten_append, List.flatten_singleton, List.append_nil]
      exact ⟨List.forall_mem_append.mpr
        ⟨hall, List.forall_mem_singleton.mpr Utf8.Reader.accepts_nil⟩, hwhole⟩

theorem generate_reassembled (llama : Llama) (collects : Nat -> Bool) (stop : Int)
    (first : Nat) {g : Generation} (hsampled : g.bridge.sampled = first + g.tokens)
    (h : Reassembled (pieces llama first g.tokens) g.emitted g.bridge.tokenCache) :
    Reassembled (pieces llama first (generate llama collects stop g).tokens)
      (generate llama collects stop g).emitted
      (generate llama collects stop g).bridge.tokenCache := by
  fun_induction generate llama collects stop g with
  | case1 g hlt bridge hloop =>
      rw [(completionLoop_none hlt hloop).right]
      exact h
  | case2 g hlt str bridge hloop hcollects ih =>
      have hiterated := (completionLoop_some hlt hloop).right
      apply ih
      · rw [hiterated.sampled, hsampled, Nat.add_assoc, Generation.tokens,
          Generation.tokens, List.length_append, List.length_singleton]
      · rw [Generation.tokens, List.length_append, List.length_singleton, pieces_succ]
        rw [Generation.tokens] at hsampled
        rw [<- hsampled]
        exact h.step hiterated.text
  | case3 g hlt str bridge hloop hcollects =>
      have hiterated := (completionLoop_some hlt hloop).right
      rw [Generation.tokens, List.length_append, List.length_singleton, pieces_succ]
      rw [Generation.tokens] at hsampled
      rw [<- hsampled]
      exact h.step hiterated.text
  | case4 g hge => exact h

theorem runCompletion_reassembled (llama : Llama) (collects : Nat -> Bool) (nCtx : Int)
    (prompt : Text) (s : Bridge) :
    let ended := runCompletion llama collects nCtx prompt s
    Reassembled (pieces llama s.sampled ended.tokens) ended.emitted
      ended.bridge.tokenCache := by
  have hkeeps := prefill_keeps llama (clamp nCtx (llama.tokenize prompt)) 0
    ({ s with tokenCache := [] } : Bridge).memoryClear
  have hgenerate := generate_reassembled llama collects (nCtx - 1) s.sampled
    (g := { bridge := (completionInit llama nCtx prompt s).2,
            ncur := (completionInit llama nCtx prompt s).1 }) hkeeps.left (by
      have hcache : (completionInit llama nCtx prompt s).2.tokenCache = [] := hkeeps.right
      rw [hcache]
      exact reassembled_nil)
  simp only [runCompletion]
  split
  · exact hgenerate
  · exact hgenerate

theorem Held.part {front back front' back' : List (List UInt8)} (hheld : Held back)
    (hfront : reader.Accepts front.flatten) (hfront' : reader.Accepts front'.flatten)
    (h : front ++ back = front' ++ back') :
    exists more, front = front' ++ more ∧ back' = more ++ back := by
  rcases List.append_eq_append_iff.mp h with ⟨more, hmore, hback⟩ | ⟨more, hmore, hback⟩
  · cases more with
    | nil => exact ⟨[], by rw [hmore, List.append_nil, List.append_nil], hback.symm⟩
    | cons p more =>
        rw [hmore, List.flatten_append] at hfront'
        exact absurd (Utf8.Reader.accepts_of_append hfront hfront')
          (hheld (p :: more) back' hback (List.cons_ne_nil _ _))
  · exact ⟨more, hmore, hback⟩

/-!
# Whole code points
-/

/-- `llama_token_to_piece`: the piece of a token, unless it is longer than the
buffer. -/
def Writes (llama : Llama) (piece : Token -> List UInt8) : Prop :=
  forall token, llama.tokenToPiece token =
    if (piece token).length ≤ 256 then some (piece token) else none

theorem pieces_of_writes {llama : Llama} {piece : Token -> List UInt8}
    (hwrites : Writes llama piece) {first n : Nat}
    (hlength : forall p, p ∈ (generated llama first n).map piece -> p.length ≤ 256) :
    pieces llama first n = (generated llama first n).map piece := by
  apply List.map_congr_left
  intro token htoken
  rw [hwrites, if_pos (hlength _ (List.mem_map_of_mem htoken)), Option.getD_some]

theorem wellFormed_parts {strs : List (List UInt8)}
    (haccepts : forall str, str ∈ strs -> reader.Accepts str)
    (h : Utf8.WellFormed strs.flatten) : forall str, str ∈ strs -> Utf8.WellFormed str := by
  induction strs with
  | nil => simp
  | cons str strs ih =>
      rw [List.flatten_cons] at h
      rcases Utf8.Reader.wellFormed_of_append (haccepts str List.mem_cons_self) h with
        ⟨hstr, hstrs⟩
      intro str' hstr'
      rcases List.mem_cons.mp hstr' with rfl | hstr'
      · exact hstr
      · exact ih (fun str hstr => haccepts str (List.mem_cons_of_mem _ hstr)) hstrs str' hstr'

def speaker (split : List (List UInt8)) : Llama where
  tokenize := fun _ => [0]
  isEog := fun token => split.length ≤ token
  tokenToPiece := fun token =>
    if (split.getD token.toNat []).length ≤ 256 then some (split.getD token.toNat [])
    else none
  decodes := fun _ => true
  samples := fun k => k

theorem writes_speaker (split : List (List UInt8)) :
    Writes (speaker split) fun token => split.getD token.toNat [] :=
  fun _ => rfl

theorem generate_speaker {split : List (List UInt8)} {g : Generation}
    (hsampled : g.bridge.sampled = g.tokens) (hncur : g.ncur = g.tokens + 1)
    (hlength : g.tokens ≤ split.length) :
    (generate (speaker split) (fun _ => true) (split.length + 2) g).tokens =
      split.length := by
  fun_induction generate (speaker split) (fun _ => true) (split.length + 2) g with
  | case1 g hlt bridge hloop =>
      have heog : (split.length : Int) ≤ g.bridge.sampled :=
        of_decide_eq_true (completionLoop_none hlt hloop).left
      show g.tokens = split.length
      omega
  | case2 g hlt str bridge hloop hcollects ih =>
      rcases completionLoop_some hlt hloop with ⟨heog, hiterated⟩
      have hmore : ¬ (split.length : Int) ≤ g.bridge.sampled := of_decide_eq_false heog
      have htokens : Generation.tokens
          { bridge := bridge, ncur := g.ncur + 1, emitted := g.emitted ++ [str] } =
          g.tokens + 1 := List.length_append
      apply ih
      · rw [hiterated.sampled, htokens, hsampled]
      · rw [htokens]
        show g.ncur + 1 = _
        omega
      · rw [htokens]
        omega
  | case3 g hlt str bridge hloop hcollects => exact absurd rfl hcollects
  | case4 g hge => omega

/-- However a text is cut up, the pieces can be those of a generation. -/
theorem generated_speaker (split : List (List UInt8)) :
    (generated (speaker split) 0
        (runCompletion (speaker split) (fun _ => true) (split.length + 3) [] {}).tokens).map
      (fun token => split.getD token.toNat []) = split := by
  have hclamp : clamp (split.length + 3) [(0 : Token)] = [0] := by
    rw [clamp, if_neg]
    simp only [maxPrompt, List.length_singleton]
    omega
  have hkeeps := prefill_keeps (speaker split) (clamp (split.length + 3) [0]) 0
    ({} : Bridge).memoryClear
  have htokens := @generate_speaker split
    { bridge := (completionInit (speaker split) (split.length + 3) [] {}).2,
      ncur := (completionInit (speaker split) (split.length + 3) [] {}).1 }
    hkeeps.left (by
      show ((clamp (split.length + 3) [(0 : Token)]).length : Int) = 0 + 1
      rw [hclamp]
      rfl) (Nat.zero_le _)
  have hrun := (runCompletion_eq (speaker split) (fun _ => true) (split.length + 3) []
    {}).right.left
  have hstop : (split.length + 3 : Int) - 1 = split.length + 2 := by omega
  simp only [hstop] at hrun
  rw [hrun, htokens, generated]
  apply List.ext_getElem
  · simp
  · intro k h h'
    simp [speaker, h']

/-- However the tokens cut up a text, it is handed on whole, and no code point is cut. -/
theorem utf8_reassembled {llama : Llama} {piece : Token -> List UInt8}
    (hwrites : Writes llama piece) (collects : Nat -> Bool) (nCtx : Int) (prompt : Text)
    (s : Bridge) {split : List (List UInt8)}
    (hsplit : (generated llama s.sampled
      (runCompletion llama collects nCtx prompt s).tokens).map piece = split)
    (hlength : forall p, p ∈ split -> p.length ≤ 256)
    (htext : Utf8.WellFormed split.flatten) (hnul : 0 ∉ split.flatten) :
    let ended := runCompletion llama collects nCtx prompt s
    ended.emitted.flatten = split.flatten ∧
      (forall str, str ∈ ended.emitted -> Utf8.WellFormed str) ∧
      ended.bridge.tokenCache = [] := by
  intro ended
  have hpieces : pieces llama s.sampled ended.tokens = split := by
    rw [<- hsplit]
    apply pieces_of_writes hwrites
    rw [hsplit]
    exact hlength
  have hreassembled := runCompletion_reassembled llama collects nCtx prompt s
  simp only at hreassembled
  rw [hpieces] at hreassembled
  rcases hreassembled.parted with ⟨front, back, hparted, hcache, hfront, hheld⟩
  rcases hreassembled.whole hnul with ⟨haccepts, hwhole⟩
  have hsame : front ++ back = split ++ [] := by
    rw [List.append_nil, hparted]
  rcases hheld.part hfront (Utf8.Reader.accepts_of_wellFormed htext) hsame with
    ⟨more, _, hback⟩
  have hempty : ended.bridge.tokenCache = [] := by
    rw [hcache, (List.append_eq_nil_iff.mp hback.symm).right]
    rfl
  rw [hempty, List.append_nil] at hwhole
  refine ⟨hwhole, wellFormed_parts haccepts ?_, hempty⟩
  rw [hwhole]
  exact htext

theorem utf8_reassembled_speaker :
    let split : List (List UInt8) := [[0xE2], [0x82, 0xAC, 0xC3], [], [0xA9]]
    let ended := runCompletion (speaker split) (fun _ => true) (split.length + 3) [] {}
    ended.emitted.flatten = split.flatten ∧
      (forall str, str ∈ ended.emitted -> Utf8.WellFormed str) ∧
      ended.bridge.tokenCache = [] :=
  utf8_reassembled (writes_speaker _) (fun _ => true) _ [] {} (generated_speaker _)
    (by decide) ⟨[[0xE2, 0x82, 0xAC], [0xC3, 0xA9]], by decide, rfl⟩ (by decide)

/-!
# Bytes that are not UTF-8
-/

/-- All the code points of the pieces are handed on: there is no NUL, and the first
pieces pass for UTF-8 up to where no complete code point follows. -/
def Heard (ps : List (List UInt8)) : Prop :=
  0 ∉ ps.flatten ∧
    exists front back, ps = front ++ back ∧ isValidUtf8 front.flatten = true ∧
      Utf8.codePoints back.flatten = []

/-- Every complete code point is handed on exactly if the last of them comes before
the bridge has to hold back for good. -/
theorem codePoints_handed_on (llama : Llama) (collects : Nat -> Bool) (nCtx : Int)
    (prompt : Text) (s : Bridge) :
    let ended := runCompletion llama collects nCtx prompt s
    (Utf8.codePoints (pieces llama s.sampled ended.tokens).flatten).Sublist
        (ended.emitted.flatMap Utf8.codePoints) <->
      Heard (pieces llama s.sampled ended.tokens) := by
  intro ended
  have hreassembled := runCompletion_reassembled llama collects nCtx prompt s
  simp only at hreassembled
  change Reassembled (pieces llama s.sampled ended.tokens) _ _ at hreassembled
  generalize pieces llama s.sampled ended.tokens = ps at hreassembled ⊢
  rcases hreassembled.parted with ⟨front, back, hparted, hcache, hfront, hheld⟩
  -- what is handed on is the first part, byte for byte
  have hhanded : 0 ∉ ps.flatten ->
      ended.emitted.flatMap Utf8.codePoints = Utf8.codePoints front.flatten := by
    intro hnul
    rcases hreassembled.whole hnul with ⟨haccepts, hwhole⟩
    have hcut : front.flatten ++ ended.bridge.tokenCache = ps.flatten := by
      rw [hparted, hcache, List.flatten_append]
    rw [<- Utf8.Reader.codePoints_flatten haccepts,
      List.append_cancel_right (hwhole.trans hcut.symm)]
  have hall : Utf8.codePoints ps.flatten =
      Utf8.codePoints front.flatten ++ Utf8.codePoints back.flatten := by
    rw [hparted, List.flatten_append, Utf8.Reader.codePoints_append hfront]
  constructor
  · intro h
    have hnul : 0 ∉ ps.flatten := by
      intro hzero
      rcases List.mem_flatMap.mp (h.subset (Utf8.nul_mem_codePoints hzero)) with
        ⟨str, hstr, hmem⟩
      have hzero' := (Utf8.infix_of_mem_codePoints hmem).subset List.mem_cons_self
      exact hreassembled.noNul str hstr hzero'
    refine ⟨hnul, front, back, hparted, isValidUtf8_iff.mpr hfront, ?_⟩
    have hlength := h.length_le
    rw [hhanded hnul, hall, List.length_append] at hlength
    exact List.length_eq_zero_iff.mp (by omega)
  · intro h
    rcases h with ⟨hnul, front', back', hps, hvalid, hnone⟩
    rcases hheld.part hfront (isValidUtf8_iff.mp hvalid) (hparted.symm.trans hps) with
      ⟨more, _, hback⟩
    have hrest : Utf8.codePoints back.flatten = [] := by
      have hsuffix := Utf8.codePoints_suffix more.flatten back.flatten
      rw [<- List.flatten_append, <- hback, hnone] at hsuffix
      exact List.suffix_nil.mp hsuffix
    rw [hhanded hnul, hall, hrest, List.append_nil]

/-- One byte that is never part of UTF-8, and all that follows is held back. -/
theorem codePoints_handed_on_fails :
    let ended := runCompletion (speaker [[0xFF], [0x61]]) (fun _ => true) 5 [] {}
    ¬ (Utf8.codePoints (pieces (speaker [[0xFF], [0x61]]) 0 ended.tokens).flatten).Sublist
      (ended.emitted.flatMap Utf8.codePoints) := by
  decide +kernel

end Completion
end DomainAI
