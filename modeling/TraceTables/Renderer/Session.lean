import TraceTables.Renderer.Basic

/-!
# Using a renderer on after a fault

A conversion stops at the first fault, but a renderer need not: whoever holds it may go on with
the next event, and flush at any time. A session is any such sequence of requests.

The steps of a session are its history: of each request, the renderer that met it, what it was
answered, and the renderer that was left.
-/

namespace TraceTables

/-- What a renderer can be asked to do. -/
inductive Request where
  | handle (event : Event)
  | flush
  deriving DecidableEq

namespace Renderer

/-- One request of a session. -/
structure Step (σ : Type) where
  before : Renderer σ
  request : Request
  answer : Except Fault Unit
  after : Renderer σ

variable {σ : Type} [Sink σ]

/-- Does what is asked for. -/
def serve (request : Request) (renderer : Renderer σ) : Except Fault Unit × Renderer σ :=
  match request with
  | .handle event => renderer.handle event
  | .flush => renderer.flush

/-- Does one thing after the other, whatever becomes of each. -/
def serveAll : List Request → Renderer σ → Renderer σ
  | [], renderer => renderer
  | request :: more, renderer => serveAll more (renderer.serve request).2

/-- What is asked for, as a step. -/
def step (request : Request) (renderer : Renderer σ) : Step σ :=
  ⟨renderer, request, (renderer.serve request).1, (renderer.serve request).2⟩

/-- The steps of a session, in order. -/
def steps : List Request → Renderer σ → List (Step σ)
  | [], _ => []
  | request :: more, renderer => renderer.step request :: steps more (renderer.serve request).2

@[simp] theorem step_before (request : Request) (renderer : Renderer σ) :
    (renderer.step request).before = renderer := rfl

@[simp] theorem step_request (request : Request) (renderer : Renderer σ) :
    (renderer.step request).request = request := rfl

@[simp] theorem step_answer (request : Request) (renderer : Renderer σ) :
    (renderer.step request).answer = (renderer.serve request).1 := rfl

@[simp] theorem step_after (request : Request) (renderer : Renderer σ) :
    (renderer.step request).after = (renderer.serve request).2 := rfl

end Renderer

end TraceTables
