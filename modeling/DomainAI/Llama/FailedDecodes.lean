import DomainAI.Llama.DecodingPositions

/-!
# Failed decodes

A decode that fails leaves no logits, and a token is sampled from the logits of the
decode before it.  The bridge notices a failure and the loop is not told.
-/

namespace DomainAI
namespace Completion

open Library

/-!
# Logits
-/

def LlamaCall.yieldsLogits : LlamaCall -> Bool
  | LlamaCall.decode batch succeeded => succeeded && batch.getLast?.any BatchEntry.logits
  | _ => false

def LlamaCall.fails : LlamaCall -> Bool
  | LlamaCall.decode _ succeeded => !succeeded
  | _ => false

/-- The last call has left logits, and no decode has failed. -/
def Fresh (calls : List LlamaCall) : Prop :=
  calls.getLast?.any LlamaCall.yieldsLogits = true ∧
    forall call, call ∈ calls -> call.fails = false

/-- A token is sampled right after a decode that has left logits, and none once a
decode has failed. -/
def SampledFresh (earlier : List LlamaCall) : LlamaCall -> Prop
  | LlamaCall.sample _ => Fresh earlier
  | _ => True

instance (calls : List LlamaCall) : Decidable (Fresh calls) :=
  inferInstanceAs (Decidable (_ ∧ _))

instance (earlier : List LlamaCall) : (call : LlamaCall) ->
    Decidable (SampledFresh earlier call)
  | LlamaCall.sample _ => inferInstanceAs (Decidable (Fresh earlier))
  | LlamaCall.memoryClear => isTrue trivial
  | LlamaCall.decode _ _ => isTrue trivial

theorem fresh_decode {calls : List LlamaCall} {batch : Batch}
    (hcalls : forall call, call ∈ calls -> call.fails = false)
    (hlogits : batch.getLast?.any BatchEntry.logits = true) :
    Fresh (calls ++ [LlamaCall.decode batch true]) := by
  constructor
  · rw [List.getLast?_concat, Option.any_some]
    exact hlogits
  · intro call hcall
    rcases List.mem_append.mp hcall with hcall | hcall
    · exact hcalls call hcall
    · rw [List.mem_singleton.mp hcall]
      rfl

theorem not_fresh_decode (calls : List LlamaCall) (batch : Batch) :
    ¬ Fresh (calls ++ [LlamaCall.decode batch false]) := by
  intro h
  have hfails := h.right (LlamaCall.decode batch false)
    (List.mem_append_right calls List.mem_cons_self)
  cases hfails

/-!
# The prompt
-/

def chunks (tokens : List Token) (i : Nat) : Nat :=
  (tokens.length - i + batchSize - 1) / batchSize

theorem chunks_of_le {tokens : List Token} {i : Nat} (h : tokens.length ≤ i) :
    chunks tokens i = 0 := by
  simp only [chunks, batchSize]
  omega

theorem chunks_of_lt {tokens : List Token} {i : Nat} (h : i < tokens.length) :
    chunks tokens i = chunks tokens (i + batchSize) + 1 := by
  simp only [chunks, batchSize]
  omega

theorem any_getLast?_requestLogits {batch : Batch} (h : batch ≠ []) :
    (requestLogits batch).getLast?.any BatchEntry.logits = true := by
  rcases List.eq_nil_or_concat batch with rfl | ⟨front, last, rfl⟩
  · exact absurd rfl h
  · rw [List.concat_eq_append, requestLogits, List.getLast?_concat]
    simp only [List.dropLast_concat, List.getLast?_concat, Option.any_some]

theorem foldl_batchAdd_ne_nil (token : Nat -> Token) (pos : Nat -> Int) (n : Nat) :
    (List.range (n + 1)).foldl
      (fun batch j => batchAdd (token j) (pos j) false batch) [] ≠ [] := by
  rw [List.range_succ, List.foldl_append]
  simp [batchAdd]

theorem chunkBatch_last {tokens : List Token} {i : Nat} (hi : i < tokens.length)
    (hlast : tokens.length ≤ i + batchSize) :
    (chunkBatch tokens i).getLast?.any BatchEntry.logits = true := by
  have hchunk : min batchSize (tokens.length - i) = tokens.length - i := by
    simp only [batchSize] at hlast ⊢
    omega
  have hend : tokens.length ≤ i + (tokens.length - i) := by omega
  rcases Nat.exists_eq_add_one_of_ne_zero (Nat.sub_ne_zero_of_lt hi) with ⟨n, hn⟩
  simp only [chunkBatch, hchunk, if_pos hend]
  apply any_getLast?_requestLogits
  rw [hn]
  exact foldl_batchAdd_ne_nil _ _ n

def AllDecode (llama : Llama) (first n : Nat) : Prop :=
  forall k, k < n -> llama.decodes (first + k) = true

theorem allDecode_succ {llama : Llama} {first n : Nat} :
    AllDecode llama first (n + 1) <->
      llama.decodes first = true ∧ AllDecode llama (first + 1) n := by
  constructor
  · intro h
    constructor
    · exact h 0 (Nat.succ_pos n)
    · intro k hk
      rw [Nat.add_assoc, Nat.add_comm 1]
      exact h (k + 1) (Nat.succ_lt_succ hk)
  · intro h k hk
    cases k with
    | zero => exact h.left
    | succ k =>
        rw [Nat.add_comm k, <- Nat.add_assoc]
        exact h.right k (Nat.lt_of_succ_lt_succ hk)

structure PrefillEnds (llama : Llama) (tokens : List Token) (i : Nat) (s s' : Bridge) :
    Prop where
  follows : Follows SampledFresh s.calls -> Follows SampledFresh s'.calls
  succeeds : AllDecode llama s.decoded (chunks tokens i) ->
    s'.decoded = s.decoded + chunks tokens i ∧
      ((forall call, call ∈ s.calls -> call.fails = false) ->
        i < tokens.length -> Fresh s'.calls)
  fails : ¬ AllDecode llama s.decoded (chunks tokens i) -> ¬ Fresh s'.calls

theorem prefill_ends (llama : Llama) (tokens : List Token) (i : Nat) (s : Bridge) :
    PrefillEnds llama tokens i s (prefill llama tokens i s) := by
  fun_induction prefill llama tokens i s with
  | case1 i s hi hsucceeds ih =>
      have hfirst : llama.decodes s.decoded = true := hsucceeds
      have hall : AllDecode llama s.decoded (chunks tokens i) <->
          AllDecode llama (s.decoded + 1) (chunks tokens (i + batchSize)) := by
        rw [chunks_of_lt hi, allDecode_succ, hfirst, and_iff_right rfl]
      constructor
      · intro h
        exact ih.follows (follows_concat.mpr ⟨h, trivial⟩)
      · intro h
        rcases ih.succeeds (hall.mp h) with ⟨hdecoded, hfresh⟩
        constructor
        · rw [hdecoded, chunks_of_lt hi]
          simp only [Bridge.decode]
          omega
        · intro hcalls _
          by_cases hlast : tokens.length ≤ i + batchSize
          · have hnow : Fresh (s.decode llama (chunkBatch tokens i)).2.calls := by
              simp only [Bridge.decode, hfirst]
              exact fresh_decode hcalls (chunkBatch_last hi hlast)
            rw [prefill, if_neg (Nat.not_lt.mpr hlast)]
            exact hnow
          · refine hfresh ?_ (Nat.lt_of_not_le hlast)
            intro call hcall
            simp only [Bridge.decode, hfirst] at hcall
            rcases List.mem_append.mp hcall with hcall | hcall
            · exact hcalls call hcall
            · rw [List.mem_singleton.mp hcall]
              rfl
      · intro h
        exact ih.fails (fun hlater => h (hall.mpr hlater))
  | case2 i s hi hfails =>
      have hfirst : llama.decodes s.decoded = false := by
        rwa [Bool.not_eq_true] at hfails
      constructor
      · intro h
        exact follows_concat.mpr ⟨h, trivial⟩
      · intro h
        rw [chunks_of_lt hi, allDecode_succ, hfirst] at h
        cases h.left
      · intro _
        simp only [Bridge.decode, hfirst]
        exact not_fresh_decode _ _
  | case3 i s hi =>
      have hnone := chunks_of_le (Nat.le_of_not_lt hi)
      constructor
      · exact id
      · intro _
        rw [hnone]
        exact ⟨rfl, fun _ hlt => absurd hlt hi⟩
      · intro h
        rw [hnone] at h
        exact absurd (fun k hk => absurd hk (Nat.not_lt_zero k)) h

/-!
# The loop
-/

section Loop

variable {llama : Llama} {collects : Nat -> Bool} {stop : Int} {g : Generation}

/-- The token of this number, counted from the ones emitted before, is followed by
another: it is no end, its string is collected, and there is room. -/
def GoesOn (llama : Llama) (collects : Nat -> Bool) (stop : Int) (g : Generation)
    (k : Nat) : Prop :=
  g.ncur + k + 1 < stop ∧
    forall j, j ≤ k ->
      llama.isEog (llama.samples (g.bridge.sampled + j)) = false ∧
        collects (g.tokens + j) = true

theorem generate_calls (llama : Llama) (collects : Nat -> Bool) (stop : Int)
    (g : Generation) :
    exists more, (generate llama collects stop g).bridge.calls =
      g.bridge.calls ++ more := by
  fun_induction generate llama collects stop g with
  | case1 g hlt bridge hloop =>
      rw [(completionLoop_none hlt hloop).right]
      exact ⟨_, rfl⟩
  | case2 g hlt str bridge hloop hcollects ih =>
      rcases ih with ⟨more, hmore⟩
      rw [hmore, (completionLoop_some hlt hloop).right.calls, List.append_assoc,
        List.append_assoc]
      exact ⟨_, rfl⟩
  | case3 g hlt str bridge hloop hcollects =>
      rw [(completionLoop_some hlt hloop).right.calls, List.append_assoc]
      exact ⟨_, rfl⟩
  | case4 g hge => exact ⟨[], (List.append_nil _).symm⟩

theorem generate_sample (llama : Llama) (collects : Nat -> Bool) (hlt : g.ncur < stop) :
    exists token more, (generate llama collects stop g).bridge.calls =
      g.bridge.calls ++ LlamaCall.sample token :: more := by
  rcases completionLoop_eq llama hlt g.bridge with
    ⟨_, hloop⟩ | ⟨_, str, bridge, hloop, hiterated⟩
  · rw [generate, if_pos hlt, hloop]
    exact ⟨_, [], rfl⟩
  · rw [generate, if_pos hlt, hloop]
    simp only
    split
    · rcases generate_calls llama collects stop
        { bridge := bridge, ncur := g.ncur + 1, emitted := g.emitted ++ [str] } with
        ⟨more, hmore⟩
      rw [hmore, hiterated.calls, List.append_assoc, List.append_assoc]
      exact ⟨_, _, rfl⟩
    · simp only [hiterated.calls, List.append_assoc]
      exact ⟨_, _, rfl⟩

theorem not_follows_generate (hlt : g.ncur < stop) (hstale : ¬ Fresh g.bridge.calls) :
    ¬ Follows SampledFresh (generate llama collects stop g).bridge.calls := by
  rcases generate_sample llama collects hlt with ⟨token, more, hcalls⟩
  intro h
  exact hstale (h _ _ _ hcalls)

theorem goesOn_succ {g g' : Generation} (hncur : g'.ncur = g.ncur + 1)
    (hsampled : g'.bridge.sampled = g.bridge.sampled + 1)
    (htokens : g'.tokens = g.tokens + 1)
    (heog : llama.isEog (llama.samples g.bridge.sampled) = false)
    (hcollects : collects g.tokens = true) (k : Nat) :
    GoesOn llama collects stop g (k + 1) <-> GoesOn llama collects stop g' k := by
  unfold GoesOn
  rw [hncur, hsampled, htokens]
  apply and_congr
  · omega
  · constructor
    · intro h j hj
      rw [Nat.add_assoc, Nat.add_assoc, Nat.add_comm 1]
      exact h (j + 1) (Nat.succ_le_succ hj)
    · intro h j hj
      cases j with
      | zero => exact ⟨heog, hcollects⟩
      | succ j =>
          have hlater := h j (Nat.le_of_succ_le_succ hj)
          rwa [Nat.add_assoc, Nat.add_assoc, Nat.add_comm 1] at hlater

/-- Once the logits of the prompt are there, every token that is followed by another
has to be decoded. -/
theorem generate_follows (hfresh : Fresh g.bridge.calls)
    (hfollows : Follows SampledFresh g.bridge.calls) :
    Follows SampledFresh (generate llama collects stop g).bridge.calls <->
      forall k, GoesOn llama collects stop g k ->
        llama.decodes (g.bridge.decoded + k) = true := by
  fun_induction generate llama collects stop g with
  | case1 g hlt bridge hloop =>
      rcases completionLoop_none hlt hloop with ⟨heog, rfl⟩
      constructor
      · intro _ k hgoes
        have hnow := (hgoes.right 0 (Nat.zero_le k)).left
        rw [Nat.add_zero, heog] at hnow
        cases hnow
      · intro _
        exact follows_concat.mpr ⟨hfollows, hfresh⟩
  | case2 g hlt str bridge hloop hcollects ih =>
      rcases completionLoop_some hlt hloop with ⟨heog, hiterated⟩
      have hnext := hiterated.calls
      have hlater : Follows SampledFresh bridge.calls := by
        rw [hnext]
        exact follows_concat.mpr ⟨follows_concat.mpr ⟨hfollows, hfresh⟩, trivial⟩
      have hsucc := fun k => @goesOn_succ llama collects stop g
        { bridge := bridge, ncur := g.ncur + 1, emitted := g.emitted ++ [str] }
        rfl hiterated.sampled List.length_append heog hcollects k
      cases hdecodes : llama.decodes g.bridge.decoded with
      | true =>
          have hbridge : Fresh bridge.calls := by
            rw [hnext, hdecodes]
            apply fresh_decode _ rfl
            intro call hcall
            rcases List.mem_append.mp hcall with hcall | hcall
            · exact hfresh.right call hcall
            · rw [List.mem_singleton.mp hcall]
              rfl
          rw [ih hbridge hlater, hiterated.decoded]
          constructor
          · intro h k hgoes
            cases k with
            | zero => exact hdecodes
            | succ k =>
                rw [Nat.add_comm k, <- Nat.add_assoc]
                exact h k ((hsucc k).mp hgoes)
          · intro h k hgoes
            rw [Nat.add_assoc, Nat.add_comm 1]
            exact h (k + 1) ((hsucc k).mpr hgoes)
      | false =>
          have hstale : ¬ Fresh bridge.calls := by
            rw [hnext, hdecodes]
            exact not_fresh_decode _ _
          by_cases hroom : g.ncur + 1 < stop
          · constructor
            · intro h
              exact absurd h (not_follows_generate hroom hstale)
            · intro h
              have hnow := h 0 ⟨by omega, fun j hj => by
                rw [Nat.le_zero.mp hj]
                exact ⟨heog, hcollects⟩⟩
              rw [Nat.add_zero, hdecodes] at hnow
              cases hnow
          · rw [generate, if_neg hroom]
            constructor
            · intro _ k hgoes
              have hstop := hgoes.left
              omega
            · intro _
              exact hlater
  | case3 g hlt str bridge hloop hcollects =>
      rcases completionLoop_some hlt hloop with ⟨_, hiterated⟩
      constructor
      · intro _ k hgoes
        exact absurd (hgoes.right 0 (Nat.zero_le k)).right hcollects
      · intro _
        show Follows SampledFresh bridge.calls
        rw [hiterated.calls]
        exact follows_concat.mpr ⟨follows_concat.mpr ⟨hfollows, hfresh⟩, trivial⟩
  | case4 g hge =>
      constructor
      · intro _ k hgoes
        have hstop := hgoes.left
        omega
      · intro _
        exact hfollows

end Loop

/-!
# Completions
-/

/-- Every decode after which a token is sampled succeeds: all those of the prompt, which
is not empty, if there is room for a token, and that of every token followed by another. -/
def SampledAfterDecodes (llama : Llama) (collects : Nat -> Bool) (nCtx : Int)
    (prompt : Text) (s : Bridge) : Prop :=
  let tokens := clamp nCtx (llama.tokenize prompt)
  (tokens.length : Int) < nCtx - 1 ->
    tokens ≠ [] ∧ AllDecode llama s.decoded (chunks tokens 0) ∧
      forall k, GoesOn llama collects (nCtx - 1) { bridge := s, ncur := tokens.length } k ->
        llama.decodes (s.decoded + chunks tokens 0 + k) = true

/-- Tokens are sampled only from logits that are there, and none after a failed decode,
exactly if no decode fails that a token is sampled after. -/
theorem samples_fresh (llama : Llama) (collects : Nat -> Bool) (nCtx : Int)
    (prompt : Text) (s : Bridge) :
    Follows SampledFresh
        (runCompletion llama collects nCtx prompt { s with calls := [] }).bridge.calls <->
      SampledAfterDecodes llama collects nCtx prompt s := by
  have hended : forall calls : List LlamaCall,
      Follows SampledFresh (calls ++ [LlamaCall.memoryClear]) <->
        Follows SampledFresh calls := by
    intro calls
    rw [follows_concat]
    exact and_iff_left trivial
  have hcleared : Follows SampledFresh ([] ++ [LlamaCall.memoryClear]) :=
    (hended []).mpr follows_nil
  rcases runCompletion_eq llama collects nCtx prompt { s with calls := [] } with
    ⟨_, _, hcalls⟩
  have hrun : Follows SampledFresh
        (runCompletion llama collects nCtx prompt { s with calls := [] }).bridge.calls <->
      Follows SampledFresh
        (generate llama collects (nCtx - 1)
          { bridge := (completionInit llama nCtx prompt { s with calls := [] }).2,
            ncur := (completionInit llama nCtx prompt { s with calls := [] }).1
            }).bridge.calls := by
    rcases hcalls with hcalls | hcalls
    · rw [hcalls]
    · rw [hcalls]
      exact hended _
  rw [hrun, SampledAfterDecodes]
  simp only [completionInit]
  generalize clamp nCtx (llama.tokenize prompt) = tokens
  have hprefill := prefill_ends llama tokens 0
    ({ s with calls := [], tokenCache := [] } : Bridge).memoryClear
  have hfollows := hprefill.follows hcleared
  by_cases hroom : (tokens.length : Int) < nCtx - 1
  · rw [forall_prop_of_true hroom]
    by_cases hprompt : tokens ≠ [] ∧ AllDecode llama s.decoded (chunks tokens 0)
    · rcases hprefill.succeeds hprompt.right with ⟨hdecoded, hfresh⟩
      have hlength := List.length_pos_of_ne_nil hprompt.left
      have hready := hfresh (fun call hcall => by
        rw [List.mem_singleton.mp hcall]
        rfl) hlength
      rw [generate_follows hready hfollows, hdecoded, and_iff_right hprompt.left,
        and_iff_right hprompt.right]
      apply forall_congr'
      intro k
      unfold GoesOn
      rw [(prefill_keeps llama tokens 0 _).left]
      rfl
    · have hstale : ¬ Fresh (prefill llama tokens 0
          ({ s with calls := [], tokenCache := [] } : Bridge).memoryClear).calls := by
        by_cases hempty : tokens = []
        · rw [hempty, prefill, List.length_nil, if_neg (Nat.lt_irrefl 0)]
          intro h
          cases h.left
        · exact hprefill.fails (fun hdecode => hprompt ⟨hempty, hdecode⟩)
      constructor
      · intro h
        exact absurd h (not_follows_generate hroom hstale)
      · intro h
        exact absurd ⟨h.left, h.right.left⟩ hprompt
  · rw [generate, if_neg hroom]
    constructor
    · intro _ h
      exact absurd h hroom
    · intro _
      exact hfollows

def faltering : Llama :=
  { babbler with decodes := fun k => k != 0 }

/-- The prompt is not decoded, and tokens follow it all the same. -/
theorem samples_fresh_fails :
    ¬ Follows SampledFresh
      (runCompletion faltering (fun _ => true) 256 "a".toList {}).bridge.calls := by
  decide +kernel

end Completion
end DomainAI
