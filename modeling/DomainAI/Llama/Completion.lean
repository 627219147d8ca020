import DomainAI.Data.Text
import Mathlib.Data.List.Basic

/-!
# Completions

What the JNI bridge makes of a prompt, and the loop that asks it for one token
after the other.  The vocabulary, the sampler and the outcomes of `llama_decode`
are the library's.
-/

namespace DomainAI
namespace Completion

abbrev Token := Int

/-!
# UTF-8
-/

/-- How many bytes the sequence takes that begins with this one. -/
def sequenceLength (c : UInt8) : Option Nat :=
  if c < 0x80 then some 1
  else if c >>> 5 = 0x6 then some 2
  else if c >>> 4 = 0xE then some 3
  else if c >>> 3 = 0x1E then some 4
  else none

theorem sequenceLength_pos {c : UInt8} {len : Nat} (h : sequenceLength c = some len) :
    0 < len := by
  unfold sequenceLength at h
  split at h
  · cases h
    decide
  · split at h
    · cases h
      decide
    · split at h
      · cases h
        decide
      · split at h
        · cases h
          decide
        · cases h

def isContinuation (b : UInt8) : Bool :=
  b >>> 6 == 0x2

/-- The bytes from an index on are continuations; none stands for a read past the
end. -/
def continuations (bytes : List UInt8) (i : Nat) : Nat -> Option Bool
  | 0 => some true
  | k + 1 => do
      let b ← bytes[i]?
      if isContinuation b then continuations bytes (i + 1) k else pure false

/-- The loop of `is_valid_utf8` from an index on. -/
def isValidFrom (bytes : List UInt8) (i : Nat) : Option Bool :=
  if i < bytes.length then
    match bytes[i]? with
    | none => none
    | some c =>
        match _hlen : sequenceLength c with
        | none => some false
        | some len =>
            -- the sequence is cut off by the end
            if bytes.length < i + len then some false
            else
              match continuations bytes (i + 1) (len - 1) with
              | none => none
              | some false => some false
              | some true => isValidFrom bytes (i + len)
  else some true
termination_by bytes.length - i
decreasing_by
  have hpos := sequenceLength_pos _hlen
  omega

def isValidUtf8 (bytes : List UInt8) : Bool :=
  isValidFrom bytes 0 == some true

/-!
# Batches
-/

structure BatchEntry where
  token : Token
  pos : Int
  seqId : List Int := [0]
  logits : Bool
  deriving DecidableEq, Repr

abbrev Batch := List BatchEntry

def batchAdd (id : Token) (pos : Int) (logits : Bool) (batch : Batch) : Batch :=
  batch ++ [{ token := id, pos := pos, logits := logits }]

def requestLogits (batch : Batch) : Batch :=
  match batch.getLast? with
  | none => batch
  | some last => batch.dropLast ++ [{ last with logits := true }]

/-!
# The bridge
-/

/-- What the library contributes: the outcome of the decodes and the samples, each
numbered, and the vocabulary. -/
structure Llama where
  tokenize : Text -> List Token
  isEog : Token -> Bool
  /-- None when the piece does not fit in the buffer. -/
  tokenToPiece : Token -> Option (List UInt8)
  decodes : Nat -> Bool
  samples : Nat -> Token

inductive LlamaCall where
  | memoryClear
  | decode (batch : Batch) (succeeded : Bool)
  | sample (token : Token)
  deriving DecidableEq, Repr

structure Bridge where
  calls : List LlamaCall := []
  decoded : Nat := 0
  sampled : Nat := 0
  /-- `g_token_cache`. -/
  tokenCache : List UInt8 := []
  deriving DecidableEq, Repr

namespace Bridge

def memoryClear (s : Bridge) : Bridge :=
  { s with calls := s.calls ++ [LlamaCall.memoryClear] }

/-- `llama_decode`, and whether it has succeeded. -/
def decode (llama : Llama) (batch : Batch) (s : Bridge) : Bool × Bridge :=
  (llama.decodes s.decoded,
    { s with
      calls := s.calls ++ [LlamaCall.decode batch (llama.decodes s.decoded)]
      decoded := s.decoded + 1 })

/-- `llama_sampler_sample`. -/
def sample (llama : Llama) (s : Bridge) : Token × Bridge :=
  (llama.samples s.sampled,
    { s with
      calls := s.calls ++ [LlamaCall.sample (llama.samples s.sampled)]
      sampled := s.sampled + 1 })

def cachePiece (piece : Option (List UInt8)) (s : Bridge) : Bridge :=
  { s with tokenCache := s.tokenCache ++ piece.getD [] }

/-- The string for the caller: what is cached, up to the first NUL, once it is
complete. -/
def takeText (s : Bridge) : List UInt8 × Bridge :=
  if isValidUtf8 s.tokenCache then
    (s.tokenCache.takeWhile (fun b => b != 0), { s with tokenCache := [] })
  else ([], s)

end Bridge

/-!
# Contexts
-/

def defaultContext : Int := 4096

def batchSize : Nat := 512

/-- The context length that `new_context` asks for. -/
def contextLength (requested trained : Int) : Int :=
  let length := if 0 < requested then requested else defaultContext
  if 0 < trained ∧ trained < length then trained else length

def maxPrompt (nCtx : Int) : Int :=
  max 1 (nCtx - nCtx / 4)

/-- The tokens that remain of a prompt: the most recent ones. -/
def clamp (nCtx : Int) (tokens : List Token) : List Token :=
  if maxPrompt nCtx < tokens.length then
    tokens.drop (tokens.length - maxPrompt nCtx).toNat
  else tokens

/-!
# Completion
-/

def chunkBatch (tokens : List Token) (i : Nat) : Batch :=
  let chunk := min batchSize (tokens.length - i)
  let batch := (List.range chunk).foldl
    (fun batch j => batchAdd (tokens.getD (i + j) 0) (i + j : Nat) false batch) []
  if tokens.length ≤ i + chunk then requestLogits batch else batch

/-- Decode a prompt in chunks, up to the first one that fails. -/
def prefill (llama : Llama) (tokens : List Token) (i : Nat) (s : Bridge) : Bridge :=
  if i < tokens.length then
    if (s.decode llama (chunkBatch tokens i)).1 then
      prefill llama tokens (i + batchSize) (s.decode llama (chunkBatch tokens i)).2
    else (s.decode llama (chunkBatch tokens i)).2
  else s
termination_by tokens.length - i
decreasing_by
  simp only [batchSize]
  omega

/-- The result is where the cursor starts. -/
def completionInit (llama : Llama) (nCtx : Int) (text : Text) (s : Bridge) :
    Int × Bridge :=
  let tokens := clamp nCtx (llama.tokenize text)
  (tokens.length, prefill llama tokens 0 ({ s with tokenCache := [] } : Bridge).memoryClear)

def completionLoop (llama : Llama) (nLen ncur : Int) (s : Bridge) :
    Option (List UInt8) × Bridge :=
  let (newToken, s) := s.sample llama
  if llama.isEog newToken ∨ nLen ≤ ncur then (none, s)
  else
    let (out, s) := (s.cachePiece (llama.tokenToPiece newToken)).takeText
    (some out, (s.decode llama (batchAdd newToken ncur true [])).2)

structure Generation where
  bridge : Bridge
  ncur : Int
  emitted : List (List UInt8) := []
  /-- `emit` has thrown. -/
  thrown : Bool := false
  deriving DecidableEq, Repr

def Generation.tokens (g : Generation) : Nat :=
  g.emitted.length

/-- The loop of `runCompletion`; the collector may be gone at any emission. -/
def generate (llama : Llama) (collects : Nat -> Bool) (stop : Int) (g : Generation) :
    Generation :=
  if g.ncur < stop then
    match completionLoop llama stop g.ncur g.bridge with
    | (none, bridge) => { g with bridge := bridge }
    | (some str, bridge) =>
        if collects g.tokens then
          generate llama collects stop
            { bridge := bridge, ncur := g.ncur + 1, emitted := g.emitted ++ [str] }
        else
          { bridge := bridge, ncur := g.ncur + 1, emitted := g.emitted ++ [str],
            thrown := true }
  else g
termination_by (stop - g.ncur).toNat
decreasing_by omega

def runCompletion (llama : Llama) (collects : Nat -> Bool) (nCtx : Int) (prompt : Text)
    (s : Bridge) : Generation :=
  let (start, s) := completionInit llama nCtx prompt s
  let g := generate llama collects (nCtx - 1) { bridge := s, ncur := start }
  if g.thrown then g else { g with bridge := g.bridge.memoryClear }

theorem prefill_keeps (llama : Llama) (tokens : List Token) (i : Nat) (s : Bridge) :
    (prefill llama tokens i s).sampled = s.sampled ∧
      (prefill llama tokens i s).tokenCache = s.tokenCache := by
  fun_induction prefill llama tokens i s with
  | case1 i s hi hsucceeds ih => exact ih
  | case2 i s hi hfails => exact ⟨rfl, rfl⟩
  | case3 i s hi => exact ⟨rfl, rfl⟩

/-!
# One iteration

What an iteration does that yields a string: it samples, caches the piece, and
decodes at the cursor what it has sampled.
-/

structure Iterated (llama : Llama) (ncur : Int) (s : Bridge) (str : List UInt8)
    (s' : Bridge) : Prop where
  calls : s'.calls = s.calls ++ [LlamaCall.sample (llama.samples s.sampled)] ++
    [LlamaCall.decode (batchAdd (llama.samples s.sampled) ncur true [])
      (llama.decodes s.decoded)]
  decoded : s'.decoded = s.decoded + 1
  sampled : s'.sampled = s.sampled + 1
  text : (str, s'.tokenCache) =
    let cache := s.tokenCache ++ (llama.tokenToPiece (llama.samples s.sampled)).getD []
    if isValidUtf8 cache then (cache.takeWhile (fun b => b != 0), []) else ([], cache)

section Iterations

variable {llama : Llama} {nLen ncur : Int} {s s' : Bridge}

theorem completionLoop_eq (llama : Llama) {nLen ncur : Int} (hncur : ncur < nLen)
    (s : Bridge) :
    (llama.isEog (llama.samples s.sampled) = true ∧
      completionLoop llama nLen ncur s = (none, (s.sample llama).2)) ∨
    (llama.isEog (llama.samples s.sampled) = false ∧
      exists str s', completionLoop llama nLen ncur s = (some str, s') ∧
        Iterated llama ncur s str s') := by
  cases heog : llama.isEog (llama.samples s.sampled) with
  | true =>
      have hended : llama.isEog (s.sample llama).1 = true ∨ nLen ≤ ncur := Or.inl heog
      left
      simp only [completionLoop, if_pos hended, and_self]
  | false =>
      have hgoes : ¬ (llama.isEog (s.sample llama).1 = true ∨ nLen ≤ ncur) := by
        rw [not_or, Bool.not_eq_true]
        exact ⟨heog, Int.not_le.mpr hncur⟩
      right
      simp only [completionLoop, if_neg hgoes, true_and]
      refine ⟨_, _, rfl, ?_⟩
      unfold Bridge.takeText Bridge.cachePiece Bridge.sample Bridge.decode
      constructor
      all_goals
        simp only
        split <;> rfl

theorem completionLoop_none (hncur : ncur < nLen)
    (h : completionLoop llama nLen ncur s = (none, s')) :
    llama.isEog (llama.samples s.sampled) = true ∧ s' = (s.sample llama).2 := by
  rcases completionLoop_eq llama hncur s with ⟨heog, hloop⟩ | ⟨_, str, s'', hloop, _⟩
  · rw [h] at hloop
    cases hloop
    exact ⟨heog, rfl⟩
  · rw [h] at hloop
    cases hloop

theorem completionLoop_some {str : List UInt8} (hncur : ncur < nLen)
    (h : completionLoop llama nLen ncur s = (some str, s')) :
    llama.isEog (llama.samples s.sampled) = false ∧ Iterated llama ncur s str s' := by
  rcases completionLoop_eq llama hncur s with
    ⟨_, hloop⟩ | ⟨heog, str', s'', hloop, hiterated⟩
  · rw [h] at hloop
    cases hloop
  · rw [h] at hloop
    cases hloop
    exact ⟨heog, hiterated⟩

end Iterations

end Completion
end DomainAI
