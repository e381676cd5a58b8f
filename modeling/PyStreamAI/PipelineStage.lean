import PyStreamAI.Machine

/-!
# A pipeline stage

A stage feeds its input queue to a processor, which has a state of its own and may drop elements.
However the work is cut into batches, the elements handed out followed by those waiting are the
outputs of the processor on the processed prefix of the inputs (`stage_transparent`).
-/

open Machine

namespace PyStreamAI

variable {σ Element : Type*}

/-- Pipeline stage: the state of the processor and the two queues. -/
structure PipelineStage (σ Element : Type*) where
  processor : σ
  inputQueue : List Element
  outputQueue : List Element

namespace PipelineStage

/-- `PipelineStage::new`. -/
def init (processor : σ) : PipelineStage σ Element where
  processor
  inputQueue := []
  outputQueue := []

def enqueueInput (s : PipelineStage σ Element) (element : Element) : PipelineStage σ Element :=
  { s with inputQueue := s.inputQueue ++ [element] }

def dequeueOutput (s : PipelineStage σ Element) : Option Element × PipelineStage σ Element :=
  (s.outputQueue.head?, { s with outputQueue := s.outputQueue.tail })

def queueDepth (s : PipelineStage σ Element) : ℕ := s.inputQueue.length

section Processor

variable (process : σ → Element → Option Element × σ)

/-- The stage after `element`, popped with `rest` left, went through the processor. -/
def handle (s : PipelineStage σ Element) (element : Element) (rest : List Element) :
    PipelineStage σ Element where
  processor := (process s.processor element).2
  inputQueue := rest
  outputQueue := s.outputQueue ++ (process s.processor element).1.toList

/-- The loop of `process_batch` with `n` items to go. -/
def processLoop : ℕ → ℕ → PipelineStage σ Element → ℕ × PipelineStage σ Element
  | 0, processed, s => (processed, s)
  | n + 1, processed, s =>
    match s.inputQueue with
    | [] => (processed, s)
    | element :: rest => processLoop n (processed + 1) (handle process s element rest)

def processBatch (s : PipelineStage σ Element) (maxItems : ℕ) : ℕ × PipelineStage σ Element :=
  processLoop process maxItems 0 s

/-- The elements the loop hands to the processor. -/
def invocationsLoop : ℕ → PipelineStage σ Element → List Element
  | 0, _ => []
  | n + 1, s =>
    match s.inputQueue with
    | [] => []
    | element :: rest => element :: invocationsLoop n (handle process s element rest)

/-! ## The processor on a list -/

/-- The processor's state after an element. -/
def advance (processor : σ) (element : Element) : σ := (process processor element).2

/-- What the processor puts out for an element. -/
def output (processor : σ) (element : Element) : List Element :=
  (process processor element).1.toList

/-- The processor's outputs on a list of elements. -/
def outputs (processor : σ) (elements : List Element) : List Element :=
  log (advance process) (output process) processor elements

/-- The loop runs the processor on the front of the input queue. -/
theorem processLoop_eq (n processed : ℕ) (s : PipelineStage σ Element) :
    processLoop process n processed s =
      (processed + min n s.inputQueue.length,
        { processor := run (advance process) s.processor (s.inputQueue.take n)
          inputQueue := s.inputQueue.drop n
          outputQueue := s.outputQueue ++ outputs process s.processor (s.inputQueue.take n) }) := by
  induction n generalizing processed s with
  | zero => simp [processLoop, outputs]
  | succ n ih =>
    rw [processLoop]
    cases hqueue : s.inputQueue with
    | nil =>
      obtain ⟨processor, inputQueue, outputQueue⟩ := s
      obtain rfl : inputQueue = [] := hqueue
      simp [outputs]
    | cons element rest =>
      dsimp only
      rw [ih]
      refine Prod.ext ?_ ?_
      · simp only [handle, List.length_cons]
        omega
      · simp [handle, outputs, log, advance, output]

theorem invocationsLoop_eq (n : ℕ) (s : PipelineStage σ Element) :
    invocationsLoop process n s = s.inputQueue.take n := by
  induction n generalizing s with
  | zero => simp [invocationsLoop]
  | succ n ih =>
    rw [invocationsLoop]
    cases hqueue : s.inputQueue with
    | nil => rfl
    | cons element rest =>
      dsimp only
      rw [ih]
      rfl

theorem processBatch_eq (s : PipelineStage σ Element) (maxItems : ℕ) :
    processBatch process s maxItems =
      (min maxItems s.inputQueue.length,
        { processor := run (advance process) s.processor (s.inputQueue.take maxItems)
          inputQueue := s.inputQueue.drop maxItems
          outputQueue :=
            s.outputQueue ++ outputs process s.processor (s.inputQueue.take maxItems) }) := by
  unfold processBatch
  rw [processLoop_eq, Nat.zero_add]

theorem outputs_append (processor : σ) (elements more : List Element) :
    outputs process processor (elements ++ more) = outputs process processor elements ++
      outputs process (run (advance process) processor elements) more :=
  log_append processor elements more

/-- Two batches do what one of their joint size does. -/
theorem processBatch_add (s : PipelineStage σ Element) (a b : ℕ) :
    processBatch process s (a + b) =
      ((processBatch process s a).1 + (processBatch process (processBatch process s a).2 b).1,
        (processBatch process (processBatch process s a).2 b).2) := by
  simp only [processBatch_eq]
  refine Prod.ext ?_ ?_
  · simp only [List.length_drop]
    omega
  · simp only [List.drop_drop, List.append_assoc, List.take_add, run_append, outputs_append]

/-! ## Runs -/

/-- A call on the stage. -/
inductive Op (Element : Type*)
  | enqueueInput (element : Element)
  | processBatch (maxItems : ℕ)
  | dequeueOutput

def step (s : PipelineStage σ Element) : Op Element → PipelineStage σ Element
  | .enqueueInput element => s.enqueueInput element
  | .processBatch maxItems => (processBatch process s maxItems).2
  | .dequeueOutput => s.dequeueOutput.2

/-- The element a call adds. -/
def Op.input : Op Element → List Element
  | .enqueueInput element => [element]
  | _ => []

/-- The elements enqueued in a history. -/
def inputs (tr : List (Op Element)) : List Element := tr.flatMap Op.input

def emitInvoked (s : PipelineStage σ Element) : Op Element → List Element
  | .enqueueInput _ => []
  | .processBatch maxItems => invocationsLoop process maxItems s
  | .dequeueOutput => []

def emitDequeued (s : PipelineStage σ Element) : Op Element → List Element
  | .enqueueInput _ => []
  | .processBatch _ => []
  | .dequeueOutput => s.dequeueOutput.1.toList

/-- The elements `process` was invoked on, in order. -/
def invoked (s : PipelineStage σ Element) (tr : List (Op Element)) : List Element :=
  log (step process) (emitInvoked process) s tr

/-- The elements dequeued in a history. -/
def dequeued (s : PipelineStage σ Element) (tr : List (Op Element)) : List Element :=
  log (step process) emitDequeued s tr

theorem inputs_snoc (tr : List (Op Element)) (op : Op Element) :
    inputs (tr ++ [op]) = inputs tr ++ op.input := by
  unfold inputs
  rw [List.flatMap_append, List.flatMap_singleton]

/-- Where the inputs of a history are, and what the processor made of those it saw. -/
structure Transparent (processor : σ) (tr : List (Op Element)) (s : PipelineStage σ Element) :
    Prop where
  consumed : invoked process (init processor) tr ++ s.inputQueue = inputs tr
  state : s.processor =
    run (advance process) processor (invoked process (init processor) tr)
  produced : dequeued process (init processor) tr ++ s.outputQueue =
    outputs process processor (invoked process (init processor) tr)

theorem transparent_run (processor : σ) (tr : List (Op Element)) :
    Transparent process processor tr (run (step process) (init processor) tr) := by
  induction tr using List.reverseRecOn with
  | nil => exact ⟨rfl, rfl, rfl⟩
  | append_singleton tr op ih =>
    rw [run_snoc]
    have hinvoked : invoked process (init processor) (tr ++ [op]) =
        invoked process (init processor) tr ++
          emitInvoked process (run (step process) (init processor) tr) op := log_snoc _ tr op
    have hdequeued : dequeued process (init processor) (tr ++ [op]) =
        dequeued process (init processor) tr ++
          emitDequeued (run (step process) (init processor) tr) op := log_snoc _ tr op
    generalize run (step process) (init processor) tr = s at ih hinvoked hdequeued ⊢
    cases op with
    | enqueueInput element =>
      rw [emitInvoked, List.append_nil] at hinvoked
      rw [emitDequeued, List.append_nil] at hdequeued
      refine ⟨?_, ?_, ?_⟩
      · rw [hinvoked, inputs_snoc, ← ih.consumed]
        exact (List.append_assoc _ _ _).symm
      · rw [hinvoked]
        exact ih.state
      · rw [hinvoked, hdequeued]
        exact ih.produced
    | processBatch maxItems =>
      rw [emitInvoked, invocationsLoop_eq] at hinvoked
      rw [emitDequeued, List.append_nil] at hdequeued
      rw [step, processBatch_eq]
      refine ⟨?_, ?_, ?_⟩
      · rw [hinvoked, inputs_snoc, ← ih.consumed, List.append_assoc, List.take_append_drop]
        exact (List.append_nil _).symm
      · rw [hinvoked, run_append, ← ih.state]
      · rw [hinvoked, hdequeued, outputs_append, ← ih.produced, ← ih.state]
        exact (List.append_assoc _ _ _).symm
    | dequeueOutput =>
      rw [emitInvoked, List.append_nil] at hinvoked
      refine ⟨?_, ?_, ?_⟩
      · rw [hinvoked, inputs_snoc, ← ih.consumed]
        exact (List.append_nil _).symm
      · rw [hinvoked]
        exact ih.state
      · rw [hinvoked, hdequeued, ← ih.produced, List.append_assoc]
        show _ ++ (s.outputQueue.head?.toList ++ s.outputQueue.tail) = _
        cases s.outputQueue <;> rfl

/-- After any calls, the processor was invoked once on each input of a prefix, in the order of
arrival; what was dequeued and what waits are its outputs on that prefix; `process_batch` returns
the number of inputs it takes; and two batches do what one does. -/
theorem stage_transparent (processor : σ) (tr : List (Op Element)) :
    let s := run (step process) (init processor) tr
    let processed := invoked process (init processor) tr
    processed ++ s.inputQueue = inputs tr ∧
    s.processor = run (advance process) processor processed ∧
    dequeued process (init processor) tr ++ s.outputQueue = outputs process processor processed ∧
    (∀ k, (processBatch process s k).1 = min k s.queueDepth) ∧
    ∀ a b, processBatch process s (a + b) =
      ((processBatch process s a).1 + (processBatch process (processBatch process s a).2 b).1,
        (processBatch process (processBatch process s a).2 b).2) := by
  intro s processed
  have h : Transparent process processor tr s := transparent_run process processor tr
  refine ⟨h.consumed, h.state, h.produced, fun k => ?_, processBatch_add process s⟩
  rw [processBatch_eq, queueDepth]

end Processor

end PipelineStage

end PyStreamAI
