import TraceTables.Recording.Basic
import TraceTables.Renderer.Plan
import TraceTables.Sink

/-!
# The renderer

A renderer holds a sink and the progress of one rendering, and carries out the plan of
each event it is given. It can be used on after a fault: an event that has no plan leaves
it as it was, and a plan whose writing fails is left where it failed.
-/

namespace TraceTables

/-- What is worth a remark. -/
inductive Remark where
  /-- The filter discards the table of this name. -/
  | suppressing (name : String)
  /-- What had been written before a fault could not be handed on. -/
  | flushFailed (cause : DeviceFault)
  /-- The source ended inside a table. -/
  | endedInsideTable
  deriving DecidableEq

/-- A rendering under way. -/
structure Renderer (σ : Type) where
  options : Options
  out : σ
  progress : Progress
  /-- The remarks so far. -/
  remarks : Array (Aside Remark)

namespace Renderer

variable {σ : Type}

/-- A rendering that has not begun. -/
def new (options : Options) (out : σ) : Renderer σ :=
  ⟨options, out, .initial, #[]⟩

variable [Sink σ]

/-- Carries out a plan up to the first write that fails. -/
def perform : List Action → Renderer σ → Except Fault Unit × Renderer σ
  | [], renderer => (.ok (), renderer)
  | .reach progress :: plan, renderer => perform plan { renderer with progress := progress }
  | .discard name :: plan, renderer =>
    perform plan { renderer with
      remarks := renderer.remarks.push (Sink.aside (.suppressing name) renderer.out) }
  | .write text :: plan, ⟨options, out, progress, remarks⟩ =>
    match Sink.writeText text out with
    | (.ok (), out) => perform plan ⟨options, out, progress, remarks⟩
    | (.error fault, out) => (.error (.device fault), ⟨options, out, progress, remarks⟩)

/-- Handles an event. -/
def handle (event : Event) (renderer : Renderer σ) : Except Fault Unit × Renderer σ :=
  match Plan.ofEvent renderer.options renderer.progress event with
  | .ok plan => renderer.perform plan
  | .error fault => (.error fault, renderer)

/-- Hands on what has been written. -/
def flush (renderer : Renderer σ) : Except Fault Unit × Renderer σ :=
  match Sink.flush renderer.out with
  | (.ok (), out) => (.ok (), { renderer with out := out })
  | (.error fault, out) => (.error (.device fault), { renderer with out := out })

/-- Ends the rendering: hands on what has been written and gives the counters. -/
def finish (renderer : Renderer σ) : Except Fault Summary × Renderer σ :=
  match renderer.flush with
  | (.ok (), renderer) => (.ok renderer.progress.summary, renderer)
  | (.error fault, renderer) => (.error fault, renderer)

/-- Handles the next item of a source: an event, or the fault that ended the source. -/
def take (item : Item) (renderer : Renderer σ) : Except Fault Unit × Renderer σ :=
  match item with
  | .ok event => renderer.handle event
  | .error fault => (.error fault, renderer)

/-- What is to be rendered is fixed when a rendering begins. -/
@[simp] theorem options_perform (plan : List Action) (renderer : Renderer σ) :
    (renderer.perform plan).2.options = renderer.options := by
  induction plan generalizing renderer with
  | nil => rfl
  | cons action plan ih =>
    cases action with
    | reach progress => exact ih _
    | discard name => exact ih _
    | write text =>
      rw [perform]
      split
      · exact ih _
      · rfl

@[simp] theorem options_handle (event : Event) (renderer : Renderer σ) :
    (renderer.handle event).2.options = renderer.options := by
  rw [handle]
  split
  · exact options_perform _ renderer
  · rfl

@[simp] theorem options_flush (renderer : Renderer σ) :
    renderer.flush.2.options = renderer.options := by
  rw [flush]
  split <;> rfl

@[simp] theorem options_take (item : Item) (renderer : Renderer σ) :
    (renderer.take item).2.options = renderer.options := by
  cases item with
  | ok event => exact options_handle event renderer
  | error fault => rfl

end Renderer

end TraceTables
