import DomainAI.Data.Text
import DomainAI.Library.Run
import Mathlib.Logic.Function.Basic

/-!
# LLamaAndroid

All native work runs on one thread.  Coroutines on it interleave only where they
suspend, and a generation suspends where the channel between it and its collector
is full.

The wrapper records every native call with the pointers that it received or
returned.
-/

namespace DomainAI
namespace LLamaAndroid

/-- A native pointer; 0 is null. -/
abbrev Handle := Nat

abbrev GenerationId := Nat

structure ChatTurn where
  role : Text
  content : Text
  deriving DecidableEq, Repr

structure LoadRequest where
  pathToModel : Text
  nCtx : Int
  nGpuLayers : Int := 0
  nThreads : Int := 0
  affinityCores : List Int := []
  deriving DecidableEq, Repr

inductive NativeCall where
  | load_model (filename : Text) (nGpuLayers : Int) (model : Handle)
  | new_context (model : Handle) (nCtx nThreads : Int) (affinityCores : List Int)
      (context : Handle)
  | new_batch (batch : Handle)
  | new_sampler (sampler : Handle)
  | free_context (context : Handle)
  | free_model (model : Handle)
  | free_batch (batch : Handle)
  | free_sampler (sampler : Handle)
  | format_chat (model : Handle) (turns : List ChatTurn)
  | context_size (context : Handle)
  | completion_init (generation : GenerationId) (context batch : Handle)
      (text : Text) (nLen : Int)
  | completion_loop (generation : GenerationId) (context batch sampler : Handle)
      (nLen ncur : Int)
  | kv_cache_clear (context : Handle)
  deriving DecidableEq, Repr

structure Loaded where
  path : Text
  model : Handle
  context : Handle
  batch : Handle
  sampler : Handle
  deriving DecidableEq, Repr

inductive State where
  | Idle
  | Loaded (handles : Loaded)
  deriving DecidableEq, Repr

/-- The wrapper, with the number of native objects created so far. -/
structure Wrapper where
  threadLocalState : State := State.Idle
  created : Nat := 0
  calls : List NativeCall := []
  deriving DecidableEq, Repr

/-- Which native calls of a load return an object, if they are made. -/
structure LoadAnswer where
  modelLoads : Bool := true
  lastError : Text := []
  contextOpens : Bool := true
  batchOpens : Bool := true
  samplerOpens : Bool := true
  deriving DecidableEq, Repr, Inhabited

namespace Wrapper

def record (calls : List NativeCall) (s : Wrapper) : Wrapper :=
  { s with calls := s.calls ++ calls }

def setState (state : State) (s : Wrapper) : Wrapper :=
  { s with threadLocalState := state }

def create (succeeds : Bool) (s : Wrapper) : Handle × Wrapper :=
  if succeeds then (s.created + 1, { s with created := s.created + 1 })
  else (0, s)

def load_model (filename : Text) (nGpuLayers : Int) (loads : Bool)
    (s : Wrapper) : Handle × Wrapper :=
  ((s.create loads).1, (s.create loads).2.record
    [NativeCall.load_model filename nGpuLayers (s.create loads).1])

def new_context (model : Handle) (request : LoadRequest) (opens : Bool)
    (s : Wrapper) : Handle × Wrapper :=
  ((s.create opens).1, (s.create opens).2.record
    [NativeCall.new_context model request.nCtx request.nThreads
      request.affinityCores (s.create opens).1])

def new_batch (opens : Bool) (s : Wrapper) : Handle × Wrapper :=
  ((s.create opens).1,
    (s.create opens).2.record [NativeCall.new_batch (s.create opens).1])

def new_sampler (opens : Bool) (s : Wrapper) : Handle × Wrapper :=
  ((s.create opens).1,
    (s.create opens).2.record [NativeCall.new_sampler (s.create opens).1])

def loadModelFailed (lastError : Text) : Text :=
  "load_model() failed".toList ++
    if Text.isBlank lastError then [] else ": ".toList ++ lastError

/-- The block of `load` on the run loop; an error is the exception it throws. -/
def load (request : LoadRequest) (answer : LoadAnswer) (s : Wrapper) :
    Except Text Unit × Wrapper :=
  match s.threadLocalState with
  | State.Loaded _ => (Except.error "Model already loaded".toList, s)
  | State.Idle =>
      let (model, s) :=
        s.load_model request.pathToModel request.nGpuLayers answer.modelLoads
      if model = 0 then
        (Except.error (loadModelFailed answer.lastError), s)
      else
        let (context, s) := s.new_context model request answer.contextOpens
        if context = 0 then (Except.error "new_context() failed".toList, s)
        else
          let (batch, s) := s.new_batch answer.batchOpens
          if batch = 0 then (Except.error "new_batch() failed".toList, s)
          else
            let (sampler, s) := s.new_sampler answer.samplerOpens
            if sampler = 0 then (Except.error "new_sampler() failed".toList, s)
            else
              (Except.ok (), s.setState (State.Loaded
                { path := request.pathToModel, model := model,
                  context := context, batch := batch, sampler := sampler }))

def unload (s : Wrapper) : Wrapper :=
  match s.threadLocalState with
  | State.Loaded h =>
      (s.record
        [NativeCall.free_context h.context, NativeCall.free_model h.model,
         NativeCall.free_batch h.batch,
         NativeCall.free_sampler h.sampler]).setState State.Idle
  | State.Idle => s

end Wrapper

/-!
# Generations
-/

inductive Prompt where
  | formatted (prompt : Text)
  /-- `sendChat`, with what the caller's fallback makes of the turns. -/
  | chat (turns : List ChatTurn) (fallback : Text)
  deriving DecidableEq, Repr

structure Generation where
  state : Loaded
  ncur : Int
  stop : Int
  buffered : List Text := []
  deriving DecidableEq, Repr

/-- Where the coroutine that runs a generation is. -/
inductive Point where
  /-- Dispatched to the run loop. -/
  | queued (prompt : Prompt)
  | running (g : Generation)
  /-- Suspended in `emit`: the channel is full. -/
  | parked (g : Generation) (str : Text)
  | dispatched (g : Generation)
  deriving DecidableEq, Repr

structure Producer where
  point : Point
  cancelled : Bool := false
  deriving DecidableEq, Repr

structure RunLoop where
  wrapper : Wrapper := {}
  /-- The generation that occupies the thread. -/
  current : Option GenerationId := none
  nextGeneration : GenerationId := 0
  producers : GenerationId -> Option Producer := fun _ => none

inductive Event where
  | collect (prompt : Prompt)
  /-- The run loop takes up a new generation; the native side answers with the
  formatted chat, the context size and the number of prompt tokens. -/
  | start (id : GenerationId) (formatted : Text) (nCtx start : Int)
  /-- The current generation goes on; the native side may produce a string. -/
  | iterate (str : Option Text)
  | resume (id : GenerationId) (str : Option Text)
  | take (id : GenerationId)
  | cancel (id : GenerationId)
  | load (request : LoadRequest) (answer : LoadAnswer)
  | unload
  deriving DecidableEq, Repr

/-- The default capacity of the channel of `flowOn`. -/
def capacity : Nat := 64

namespace RunLoop

def onWrapper (f : Wrapper -> Wrapper) (s : RunLoop) : RunLoop :=
  { s with wrapper := f s.wrapper }

def setProducer (id : GenerationId) (p : Option Producer) (s : RunLoop) :
    RunLoop :=
  { s with producers := Function.update s.producers id p }

def occupy (id : GenerationId) (g : Generation) (cancelled : Bool)
    (s : RunLoop) : RunLoop :=
  { s.setProducer id
      (some { point := Point.running g, cancelled := cancelled }) with
    current := some id }

def park (id : GenerationId) (g : Generation) (str : Text) (s : RunLoop) :
    RunLoop :=
  { s.setProducer id (some { point := Point.parked g str }) with
    current := none }

def finish (id : GenerationId) (s : RunLoop) : RunLoop :=
  { s.setProducer id none with current := none }

def promptText (formatted : Text) : Prompt -> Text
  | Prompt.formatted prompt => prompt
  | Prompt.chat _ fallback =>
      if Text.isBlank formatted then fallback else formatted

def prefill (id : GenerationId) (prompt : Prompt) (formatted : Text) (nCtx : Int)
    (h : Loaded) : List NativeCall :=
  (match prompt with
    | Prompt.formatted _ => []
    | Prompt.chat turns _ => [NativeCall.format_chat h.model turns]) ++
  [NativeCall.context_size h.context,
   NativeCall.completion_init id h.context h.batch (promptText formatted prompt)
     nCtx]

def begin (id : GenerationId) (prompt : Prompt) (cancelled : Bool)
    (formatted : Text) (nCtx start : Int) (s : RunLoop) : RunLoop :=
  match s.wrapper.threadLocalState with
  | State.Idle => s.finish id
  | State.Loaded h =>
      (s.onWrapper (Wrapper.record (prefill id prompt formatted nCtx h))).occupy
        id { state := h, ncur := start, stop := nCtx - 1 } cancelled

/-- `emit`: it throws in a cancelled coroutine and suspends at a full channel. -/
def emit (id : GenerationId) (g : Generation) (cancelled : Bool) (str : Text)
    (s : RunLoop) : RunLoop :=
  if cancelled then s.finish id
  else if g.buffered.length < capacity then
    s.occupy id { g with buffered := g.buffered ++ [str] } cancelled
  else s.park id g str

def conclude (id : GenerationId) (g : Generation) (s : RunLoop) : RunLoop :=
  (s.onWrapper (Wrapper.record
    [NativeCall.kv_cache_clear g.state.context])).finish id

def runIteration (id : GenerationId) (g : Generation) (cancelled : Bool)
    (str : Option Text) (s : RunLoop) : RunLoop :=
  if g.ncur < g.stop then
    let s := s.onWrapper (Wrapper.record
      [NativeCall.completion_loop id g.state.context g.state.batch
        g.state.sampler g.stop g.ncur])
    match str with
    -- the native side has advanced the cursor
    | some str => s.emit id { g with ncur := g.ncur + 1 } cancelled str
    | none => s.conclude id g
  else s.conclude id g

def afterTake : Point -> Option Point
  | Point.queued _ => none
  | Point.running g =>
      match g.buffered with
      | [] => none
      | _ :: rest => some (Point.running { g with buffered := rest })
  -- the string that waits in `emit` takes the place
  | Point.parked g str =>
      some (Point.dispatched { g with buffered := g.buffered.tail ++ [str] })
  | Point.dispatched g =>
      match g.buffered with
      | [] => none
      | _ :: rest => some (Point.dispatched { g with buffered := rest })

def afterCancel : Point -> Point
  | Point.parked g _ => Point.dispatched g
  | p => p

end RunLoop

open RunLoop

/-- One step; none when it is not enabled. -/
def step (s : RunLoop) : Event -> Option RunLoop
  | Event.collect prompt =>
      some { s.setProducer s.nextGeneration
          (some { point := Point.queued prompt }) with
        nextGeneration := s.nextGeneration + 1 }
  | Event.start id formatted nCtx start =>
      match s.current, s.producers id with
      | none, some { point := Point.queued prompt, cancelled := cancelled } =>
          some (s.begin id prompt cancelled formatted nCtx start)
      | _, _ => none
  | Event.iterate str =>
      match s.current with
      | none => none
      | some id =>
          match s.producers id with
          | some { point := Point.running g, cancelled := cancelled } =>
              some (s.runIteration id g cancelled str)
          | _ => none
  | Event.resume id str =>
      match s.current, s.producers id with
      | none, some { point := Point.dispatched g, cancelled := cancelled } =>
          if cancelled then some (s.finish id)
          else some (s.runIteration id g cancelled str)
      | _, _ => none
  | Event.take id =>
      match s.producers id with
      | none => none
      | some p =>
          (afterTake p.point).map fun point =>
            s.setProducer id (some { p with point := point })
  | Event.cancel id =>
      match s.producers id with
      | none => none
      | some p =>
          some (s.setProducer id
            (some { point := afterCancel p.point, cancelled := true }))
  | Event.load request answer =>
      if s.current.isSome then none
      else some (s.onWrapper fun w => (w.load request answer).2)
  | Event.unload =>
      if s.current.isSome then none else some (s.onWrapper Wrapper.unload)

end LLamaAndroid
end DomainAI
