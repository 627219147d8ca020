import DomainAI.Library.Run
import DomainAI.Llama.Completion

/-!
# Decoding positions

The prompt and the tokens sampled after it share one cursor, from which every
position is handed to `llama_decode` once.
-/

namespace DomainAI
namespace Completion

open Library

/-!
# Calls
-/

def LlamaCall.batch : LlamaCall -> Option Batch
  | LlamaCall.decode batch _ => some batch
  | _ => none

def batches (calls : List LlamaCall) : List Batch :=
  calls.filterMap LlamaCall.batch

def positions (calls : List LlamaCall) : List Int :=
  (batches calls).flatten.map BatchEntry.pos

def firstPositions (n : Nat) : List Int :=
  (List.range n).map fun (p : Nat) => (p : Int)

def Ready (calls : List LlamaCall) : Prop :=
  exists batch last, (batches calls).getLast? = some batch ∧
    batch.getLast? = some last ∧ last.logits = true

/-- A token is sampled from the logits of the last entry decoded. -/
def FromLogits (earlier : List LlamaCall) : LlamaCall -> Prop
  | LlamaCall.sample _ => Ready earlier
  | _ => True

@[simp] theorem batches_append (calls more : List LlamaCall) :
    batches (calls ++ more) = batches calls ++ batches more :=
  List.filterMap_append

@[simp] theorem positions_append (calls more : List LlamaCall) :
    positions (calls ++ more) = positions calls ++ positions more := by
  simp [positions]

@[simp] theorem batches_sample (token : Token) :
    batches [LlamaCall.sample token] = [] := rfl

@[simp] theorem batches_decode (batch : Batch) (succeeded : Bool) :
    batches [LlamaCall.decode batch succeeded] = [batch] := rfl

@[simp] theorem batches_memoryClear : batches [LlamaCall.memoryClear] = [] := rfl

theorem firstPositions_succ (n : Nat) :
    firstPositions (n + 1) = firstPositions n ++ [(n : Int)] := by
  rw [firstPositions, List.range_succ, List.map_append]
  rfl

/-!
# The prompt
-/

def promptEntry (tokens : List Token) (p : Nat) : BatchEntry where
  token := tokens.getD p 0
  pos := p
  logits := p + 1 == tokens.length

theorem foldl_batchAdd (token : Nat -> Token) (pos : Nat -> Int) (n : Nat) :
    (List.range n).foldl (fun batch j => batchAdd (token j) (pos j) false batch) [] =
      (List.range n).map fun j =>
        { token := token j, pos := pos j, logits := false } := by
  induction n with
  | zero => rfl
  | succ n ih =>
      rw [List.range_succ, List.foldl_append, ih, List.map_append]
      rfl

theorem requestLogits_concat (batch : Batch) (last : BatchEntry) :
    requestLogits (batch ++ [last]) = batch ++ [{ last with logits := true }] := by
  rw [requestLogits, List.getLast?_concat, List.dropLast_concat]

theorem chunkBatch_eq {tokens : List Token} {i : Nat} (hi : i < tokens.length) :
    chunkBatch tokens i =
      (List.range' i (min batchSize (tokens.length - i))).map (promptEntry tokens) := by
  have hchunk : 0 < min batchSize (tokens.length - i) := by
    simp only [batchSize]
    omega
  simp only [chunkBatch]
  have hbound : min batchSize (tokens.length - i) ≤ tokens.length - i :=
    Nat.min_le_right _ _
  generalize min batchSize (tokens.length - i) = chunk at hchunk hbound
  rw [foldl_batchAdd, List.range'_eq_map_range, List.map_map]
  have hquiet : forall j, i + j + 1 ≠ tokens.length ->
      ({ token := tokens.getD (i + j) 0, pos := (i + j : Nat), logits := false } :
        BatchEntry) = promptEntry tokens (i + j) := by
    intro j hj
    rw [promptEntry, beq_eq_false_iff_ne.mpr hj]
  split
  · rename_i hlast
    rcases Nat.exists_eq_add_one_of_ne_zero (Nat.ne_of_gt hchunk) with ⟨k, rfl⟩
    rw [List.range_succ, List.map_append, List.map_append, List.map_singleton,
      requestLogits_concat, List.map_singleton]
    congr 1
    · apply List.map_congr_left
      intro j hj
      apply hquiet
      have hjk := List.mem_range.mp hj
      omega
    · have hend : (i + k + 1 == tokens.length) = true :=
        beq_iff_eq.mpr (by omega)
      simp only [Function.comp_apply, promptEntry, hend]
  · apply List.map_congr_left
    intro j hj
    apply hquiet
    have hjk := List.mem_range.mp hj
    omega

theorem range'_chunk (i n : Nat) :
    List.range' i (min batchSize (n - i)) ++
        List.range' (i + batchSize) (n - (i + batchSize)) =
      List.range' i (n - i) := by
  by_cases hlast : n - i ≤ batchSize
  · have hnone : n - (i + batchSize) = 0 := by omega
    rw [Nat.min_eq_right hlast, hnone, List.range'_zero, List.append_nil]
  · have hrest : batchSize + (n - (i + batchSize)) = n - i := by omega
    rw [Nat.min_eq_left (Nat.le_of_not_le hlast), List.range'_append_1, hrest]

structure Prefilled (tokens : List Token) (i : Nat) (calls calls' : List LlamaCall) :
    Prop where
  decoded : exists bs, batches calls' = batches calls ++ bs ∧
    bs.flatten = (List.range' i (tokens.length - i)).map (promptEntry tokens) ∧
    forall b, b ∈ bs -> b ≠ [] ∧ b.length ≤ batchSize
  follows : Follows FromLogits calls -> Follows FromLogits calls'

theorem length_chunkBatch {tokens : List Token} {i : Nat} (hi : i < tokens.length) :
    chunkBatch tokens i ≠ [] ∧ (chunkBatch tokens i).length ≤ batchSize := by
  have hlength : (chunkBatch tokens i).length = min batchSize (tokens.length - i) := by
    rw [chunkBatch_eq hi, List.length_map, List.length_range']
  constructor
  · apply List.ne_nil_of_length_pos
    rw [hlength, batchSize]
    omega
  · rw [hlength]
    exact Nat.min_le_left _ _

theorem prefill_prefilled {llama : Llama} (hdecodes : forall k, llama.decodes k = true)
    (tokens : List Token) (i : Nat) (s : Bridge) :
    Prefilled tokens i s.calls (prefill llama tokens i s).calls := by
  fun_induction prefill llama tokens i s with
  | case1 i s hi hsucceeds ih =>
      rcases ih with ⟨⟨bs, hcalls, hflatten, hlength⟩, hfollows⟩
      constructor
      · exists chunkBatch tokens i :: bs
        refine ⟨?_, ?_, ?_⟩
        · rw [hcalls]
          simp [Bridge.decode]
        · rw [List.flatten_cons, hflatten, chunkBatch_eq hi, <- List.map_append,
            range'_chunk]
        · intro b hb
          rcases List.mem_cons.mp hb with rfl | hb
          · exact length_chunkBatch hi
          · exact hlength b hb
      · intro h
        exact hfollows (follows_concat.mpr ⟨h, trivial⟩)
  | case2 i s hi hfails => exact absurd (hdecodes _) hfails
  | case3 i s hi =>
      have hnone : tokens.length - i = 0 := by omega
      constructor
      · exact ⟨[], by simp, by rw [hnone]; rfl, by simp⟩
      · exact id

/-!
# The tokens that follow
-/

structure Decoded (n : Nat) (calls : List LlamaCall) : Prop where
  positions : positions calls = firstPositions n
  ready : Ready calls
  follows : Follows FromLogits calls

theorem Decoded.sample {n : Nat} {calls : List LlamaCall} (h : Decoded n calls)
    (token : Token) : Decoded n (calls ++ [LlamaCall.sample token]) where
  positions := by
    rw [positions_append, h.positions]
    simp [Completion.positions]
  ready := by
    rw [Ready, batches_append, batches_sample, List.append_nil]
    exact h.ready
  follows := follows_concat.mpr ⟨h.follows, h.ready⟩

theorem Decoded.decode {n : Nat} {calls : List LlamaCall} (h : Decoded n calls)
    (token : Token) (succeeded : Bool) :
    Decoded (n + 1)
      (calls ++ [LlamaCall.decode (batchAdd token n true []) succeeded]) where
  positions := by
    rw [positions_append, h.positions, firstPositions_succ]
    rfl
  ready := by
    rw [Ready, batches_append, batches_decode, List.getLast?_concat]
    exact ⟨_, _, rfl, rfl, rfl⟩
  follows := follows_concat.mpr ⟨h.follows, trivial⟩

theorem Decoded.memoryClear {n : Nat} {calls : List LlamaCall} (h : Decoded n calls) :
    Decoded n (calls ++ [LlamaCall.memoryClear]) where
  positions := by
    rw [positions_append, h.positions]
    simp [Completion.positions]
  ready := by
    rw [Ready, batches_append, batches_memoryClear, List.append_nil]
    exact h.ready
  follows := follows_concat.mpr ⟨h.follows, trivial⟩

theorem firstPositions_lt {n : Nat} {bound p : Int} (h : n ≤ bound)
    (hp : p ∈ firstPositions n) : p < bound := by
  rcases List.mem_map.mp hp with ⟨k, hk, rfl⟩
  have hlt := List.mem_range.mp hk
  omega

theorem Decoded.iterated {llama : Llama} {ncur : Int} {n : Nat} {s s' : Bridge}
    {str : List UInt8} (h : Decoded n s.calls) (hncur : ncur = n)
    (hiterated : Iterated llama ncur s str s') : Decoded (n + 1) s'.calls := by
  rw [hiterated.calls, hncur]
  exact (h.sample _).decode _ _

theorem generate_decoded (llama : Llama) (collects : Nat -> Bool) (stop : Int)
    {g : Generation} {n : Nat} (hncur : g.ncur = n) (h : Decoded n g.bridge.calls) :
    exists k : Nat,
      (generate llama collects stop g).ncur = (n + k : Nat) ∧
      (generate llama collects stop g).tokens = g.tokens + k ∧
      (k = 0 ∨ (n + k : Nat) ≤ stop) ∧
      Decoded (n + k) (generate llama collects stop g).bridge.calls := by
  fun_induction generate llama collects stop g generalizing n with
  | case1 g hlt bridge hloop =>
      refine ⟨0, hncur, rfl, Or.inl rfl, ?_⟩
      show Decoded n bridge.calls
      rw [(completionLoop_none hlt hloop).right]
      exact h.sample _
  | case2 g hlt str bridge hloop hcollects ih =>
      have hbridge := h.iterated hncur (completionLoop_some hlt hloop).right
      have hnext : g.ncur + 1 = (n + 1 : Nat) := by omega
      rcases ih hnext hbridge with ⟨k, hend, htokens, hstop, hdecoded⟩
      refine ⟨k + 1, ?_, ?_, ?_, ?_⟩
      · rw [hend]
        omega
      · rw [htokens]
        simp only [Generation.tokens, List.length_append, List.length_singleton]
        omega
      · apply Or.inr
        omega
      · rwa [Nat.add_right_comm, Nat.add_assoc] at hdecoded
  | case3 g hlt str bridge hloop hcollects =>
      refine ⟨1, ?_, ?_, ?_, h.iterated hncur (completionLoop_some hlt hloop).right⟩
      · show g.ncur + 1 = _
        omega
      · simp only [Generation.tokens, List.length_append, List.length_singleton]
      · apply Or.inr
        omega
  | case4 g hge => exact ⟨0, hncur, rfl, Or.inl rfl, h⟩

/-!
# Completions
-/

theorem clamp_eq (nCtx : Int) (tokens : List Token) :
    ((clamp nCtx tokens).length : Int) = min (tokens.length : Int) (maxPrompt nCtx) ∧
      clamp nCtx tokens = tokens.drop (tokens.length - (clamp nCtx tokens).length) := by
  have hpos : 1 ≤ maxPrompt nCtx := by
    unfold maxPrompt
    omega
  by_cases hlong : maxPrompt nCtx < tokens.length
  · rw [clamp, if_pos hlong, List.length_drop]
    constructor
    · omega
    · congr 1
      omega
  · rw [clamp, if_neg hlong, Nat.sub_self]
    constructor
    · omega
    · rfl

theorem map_token_promptEntry (tokens : List Token) :
    (List.range' 0 tokens.length).map (fun p => (promptEntry tokens p).token) =
      tokens := by
  apply List.ext_getElem
  · rw [List.length_map, List.length_range']
  · intro p h h'
    simp [promptEntry, h']

theorem map_logits_promptEntry {tokens : List Token} {k : Nat}
    (hlength : tokens.length = k + 1) :
    (List.range' 0 tokens.length).map (fun p => (promptEntry tokens p).logits) =
      List.replicate k false ++ [true] := by
  rw [hlength, <- List.range_eq_range', List.range_succ, List.map_append]
  congr 1
  · rw [List.eq_replicate_iff]
    constructor
    · rw [List.length_map, List.length_range]
    · intro b hb
      rcases List.mem_map.mp hb with ⟨p, hp, rfl⟩
      have hlt := List.mem_range.mp hp
      simp only [promptEntry, beq_eq_false_iff_ne]
      omega
  · simp [promptEntry, hlength]

theorem Prefilled.start {tokens : List Token} {calls calls' : List LlamaCall}
    (h : Prefilled tokens 0 calls calls') (htokens : tokens ≠ [])
    (hnone : batches calls = []) (hfollows : Follows FromLogits calls) :
    Decoded tokens.length calls' := by
  rcases h with ⟨⟨bs, hbatches, hflatten, hbs⟩, hkeeps⟩
  rw [hnone, List.nil_append] at hbatches
  rcases Nat.exists_eq_add_one_of_ne_zero
    (Nat.ne_of_gt (List.length_pos_of_ne_nil htokens)) with ⟨k, hlength⟩
  rw [Nat.sub_zero, hlength, <- List.range_eq_range', List.range_succ,
    List.map_append, List.map_singleton] at hflatten
  constructor
  · rw [positions, hbatches, hflatten, hlength, List.map_append, List.map_map,
      firstPositions_succ]
    rfl
  · rcases List.eq_nil_or_concat bs with rfl | ⟨front, b, rfl⟩
    · simp at hflatten
    · have hb := (hbs b (by simp)).left
      rcases List.eq_nil_or_concat b with rfl | ⟨entries, last, rfl⟩
      · exact absurd rfl hb
      · rw [List.concat_eq_append, List.concat_eq_append] at hbatches hflatten
        refine ⟨entries ++ [last], last, ?_, List.getLast?_concat, ?_⟩
        · rw [hbatches, List.getLast?_concat]
        · rw [List.flatten_append, List.flatten_singleton,
            <- List.append_assoc] at hflatten
          have hlast := List.append_inj' hflatten rfl
          rw [List.singleton_inj.mp hlast.right]
          simp [promptEntry, hlength]
  · exact hkeeps hfollows

/--
What the library has been handed by the end of a completion, which the prefill has
begun: the most recent tokens of the prompt, in batches that fit, and then what was
sampled, each token at the next position.
-/
structure InOrder (nCtx : Int) (tokens : List Token) (start : Int)
    (prefilled : List Batch) (g : Generation) : Prop where
  size : start = min (tokens.length : Int) (max 1 (nCtx - nCtx / 4))
  recent : prefilled.flatten.map BatchEntry.token =
    tokens.drop (tokens.length - start.toNat)
  placed : prefilled.flatten.map BatchEntry.pos = firstPositions start.toNat
  logits : prefilled.flatten.map BatchEntry.logits =
    List.replicate (start.toNat - 1) false ++ [true]
  chunks : forall b, b ∈ prefilled -> b.length ≤ 512
  once : positions g.bridge.calls = firstPositions g.ncur.toNat
  fits : forall p, p ∈ positions g.bridge.calls -> p < nCtx
  sampled : Follows FromLogits g.bridge.calls
  cursor : g.ncur = start + g.tokens
  bounded : (g.tokens : Int) ≤ max 0 (nCtx - 1 - start)

theorem runCompletion_eq (llama : Llama) (collects : Nat -> Bool) (nCtx : Int)
    (prompt : Text) (s : Bridge) :
    let init := completionInit llama nCtx prompt s
    let g := generate llama collects (nCtx - 1) { bridge := init.2, ncur := init.1 }
    let ended := runCompletion llama collects nCtx prompt s
    ended.ncur = g.ncur ∧ ended.tokens = g.tokens ∧
      (ended.bridge.calls = g.bridge.calls ∨
        ended.bridge.calls = g.bridge.calls ++ [LlamaCall.memoryClear]) := by
  simp only [runCompletion]
  split
  · exact ⟨rfl, rfl, Or.inl rfl⟩
  · exact ⟨rfl, rfl, Or.inr rfl⟩

theorem map_promptEntry {tokens : List Token} {batch : Batch} {k : Nat}
    (hlength : tokens.length = k + 1)
    (hbatch : batch = (List.range' 0 tokens.length).map (promptEntry tokens)) :
    batch.map BatchEntry.token = tokens ∧
      batch.map BatchEntry.pos = firstPositions tokens.length ∧
      batch.map BatchEntry.logits = List.replicate k false ++ [true] := by
  rw [hbatch]
  simp only [List.map_map]
  refine ⟨map_token_promptEntry tokens, ?_, map_logits_promptEntry hlength⟩
  rw [firstPositions, List.range_eq_range']
  rfl

theorem completionInit_prefilled {llama : Llama}
    (hdecodes : forall k, llama.decodes k = true) (nCtx : Int) (prompt : Text)
    (s : Bridge) :
    Prefilled (clamp nCtx (llama.tokenize prompt)) 0
      (s.calls ++ [LlamaCall.memoryClear])
      (completionInit llama nCtx prompt s).2.calls :=
  prefill_prefilled hdecodes (clamp nCtx (llama.tokenize prompt)) 0
    ({ s with tokenCache := [] } : Bridge).memoryClear

theorem decoding_positions (llama : Llama) (collects : Nat -> Bool) {nCtx : Int}
    (prompt : Text) (s : Bridge) (hctx : 1 ≤ nCtx)
    (hprompt : llama.tokenize prompt ≠ [])
    (hdecodes : forall k, llama.decodes k = true) :
    let init := completionInit llama nCtx prompt { s with calls := [] }
    InOrder nCtx (llama.tokenize prompt) init.1 (batches init.2.calls)
      (runCompletion llama collects nCtx prompt { s with calls := [] }) := by
  intro init
  have hprefilled : Prefilled (clamp nCtx (llama.tokenize prompt)) 0
      [LlamaCall.memoryClear] init.2.calls :=
    completionInit_prefilled hdecodes nCtx prompt { s with calls := [] }
  have hstart : init.1 = (clamp nCtx (llama.tokenize prompt)).length := rfl
  rcases clamp_eq nCtx (llama.tokenize prompt) with ⟨hsize, hrecent⟩
  revert hsize hrecent hstart hprefilled
  generalize clamp nCtx (llama.tokenize prompt) = tokens
  intro hprefilled hstart hsize hrecent
  have hpos := List.length_pos_of_ne_nil hprompt
  have hlength : 0 < tokens.length := by
    unfold maxPrompt at hsize
    omega
  have hdecoded := hprefilled.start (List.ne_nil_of_length_pos hlength) rfl
    (follows_concat.mpr ⟨follows_nil, trivial⟩)
  rcases hprefilled.decoded with ⟨bs, hbatches, hflatten, hbs⟩
  rw [batches_memoryClear, List.nil_append] at hbatches
  rw [Nat.sub_zero] at hflatten
  have hend : tokens.length = tokens.length - 1 + 1 := by omega
  rcases map_promptEntry hend hflatten with ⟨htoken, hplaced, hlogits⟩
  rcases generate_decoded llama collects (nCtx - 1)
    (g := { bridge := init.2, ncur := init.1 }) hstart hdecoded with
    ⟨k, hncur, htokens, hstop, hgenerated⟩
  rcases runCompletion_eq llama collects nCtx prompt { s with calls := [] } with
    ⟨hcursor, hcount, hcalls⟩
  have hended : Decoded (tokens.length + k)
      (runCompletion llama collects nCtx prompt { s with calls := [] }).bridge.calls := by
    rcases hcalls with hcalls | hcalls
    · rw [hcalls]
      exact hgenerated
    · rw [hcalls]
      exact hgenerated.memoryClear
  have hncur' := hcursor.trans hncur
  have htokens' := hcount.trans htokens
  rw [hbatches, hstart]
  constructor
  · exact hsize
  · rw [htoken, Int.toNat_natCast]
    exact hrecent
  · rw [hplaced, Int.toNat_natCast]
  · rw [hlogits, Int.toNat_natCast]
  · exact fun b hb => (hbs b hb).right
  · rw [hended.positions, hncur', Int.toNat_natCast]
  · intro p hp
    rw [hended.positions] at hp
    apply firstPositions_lt _ hp
    unfold maxPrompt at hsize
    omega
  · exact hended.follows
  · rw [hncur', htokens']
    simp only [Generation.tokens, List.length_nil]
    omega
  · rw [htokens']
    simp only [Generation.tokens, List.length_nil]
    omega

def babbler : Llama where
  tokenize := fun text => text.map fun c => (c.toNat : Int)
  isEog := fun _ => false
  tokenToPiece := fun _ => some [0x61]
  decodes := fun _ => true
  samples := fun _ => 0x61

theorem decoding_positions_babbler :
    let prompt := List.replicate 300 'a'
    let init := completionInit babbler 256 prompt {}
    InOrder 256 (prompt.map fun c => (c.toNat : Int)) init.1 (batches init.2.calls)
      (runCompletion babbler (fun _ => true) 256 prompt {}) :=
  decoding_positions babbler (fun _ => true) (List.replicate 300 'a') {} (by decide)
    (by decide) (fun _ => rfl)

/-- In the smallest contexts a prompt leaves less than no room. -/
theorem decoding_positions_fails :
    ¬ (((runCompletion babbler (fun _ => true) 1 "a".toList {}).tokens : Int) ≤
      1 - 1 - (completionInit babbler 1 "a".toList {}).1) := by
  have hstart : (completionInit babbler 1 "a".toList {}).1 = 1 := by
    decide
  rw [hstart]
  omega

end Completion
end DomainAI
