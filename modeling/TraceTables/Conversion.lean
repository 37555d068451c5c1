import TraceTables.Renderer.Basic

/-!
# Converting a trace

A conversion hands the items of a source to a renderer, one after the other, and stops
at the first fault. What has been written is handed on in either case, so that the tables
before a fault are kept.
-/

namespace TraceTables

/-- The outcome of a conversion. -/
structure Conversion (σ : Type) where
  result : Except Fault Summary
  out : σ
  /-- What the conversion has to say besides its result. -/
  remarks : List (Aside Remark)

namespace Renderer

variable {σ : Type} [Sink σ]

/-- Handles items up to the first that is at fault or that the renderer fails on. -/
def takeAll : List Item → Renderer σ → Except Fault Unit × Renderer σ
  | [], renderer => (.ok (), renderer)
  | item :: more, renderer =>
    match renderer.take item with
    | (.ok (), renderer) => takeAll more renderer
    | (.error fault, renderer) => (.error fault, renderer)

end Renderer

/-- Converts the items of a source. -/
def convert {σ : Type} [Sink σ] (options : Options) (out : σ) (items : List Item) :
    Conversion σ :=
  match (Renderer.new options out).takeAll items with
  | (.error fault, renderer) =>
    match Sink.flush renderer.out with
    | (.ok (), out) => ⟨.error fault, out, renderer.remarks.toList⟩
    | (.error cause, out) =>
      ⟨.error fault, out, renderer.remarks.toList ++ [Sink.aside (.flushFailed cause) out]⟩
  | (.ok (), renderer) =>
    let remarks := renderer.remarks.toList ++
      if renderer.progress.state = .idle then []
      else [Sink.aside .endedInsideTable renderer.out]
    let (result, renderer) := renderer.finish
    ⟨result, renderer.out, remarks⟩

end TraceTables
