import TraceTables.Conversion
import TraceTables.Proofs.Faithful

/-!
# What items come to

A rendition is a rendering without a sink: the text that the items write, the progress that
they reach, and the fault that ends them. It depends on the options, the progress it starts
from and the items, and on nothing else.

`convert_faithful` says that a conversion over a sink that never fails stores the text of
the rendition and ends as the rendition does, so that properties of the layout can be proved
on texts. `ofItems_append` cuts a rendition between any two items.
-/

namespace TraceTables

namespace Action

@[simp] theorem texts_nil : texts [] = [] := rfl

@[simp] theorem texts_write (text : String) (plan : List Action) :
    texts (.write text :: plan) = text :: texts plan := rfl

@[simp] theorem texts_reach (progress : Progress) (plan : List Action) :
    texts (.reach progress :: plan) = texts plan := rfl

@[simp] theorem texts_discard (name : String) (plan : List Action) :
    texts (.discard name :: plan) = texts plan := rfl

@[simp] theorem texts_append (a b : List Action) : texts (a ++ b) = texts a ++ texts b :=
  List.filterMap_append

@[simp] theorem texts_writeEach (list : List String) : texts (writeEach list) = list := by
  induction list with
  | nil => rfl
  | cons text more ih => exact congrArg (text :: ·) ih

@[simp] theorem last_nil (progress : Progress) : last [] progress = progress := rfl

@[simp] theorem last_write (text : String) (plan : List Action) (progress : Progress) :
    last (.write text :: plan) progress = last plan progress := rfl

@[simp] theorem last_reach (reached : Progress) (plan : List Action) (progress : Progress) :
    last (.reach reached :: plan) progress = last plan reached := rfl

@[simp] theorem last_discard (name : String) (plan : List Action) (progress : Progress) :
    last (.discard name :: plan) progress = last plan progress := rfl

@[simp] theorem last_append (a b : List Action) (progress : Progress) :
    last (a ++ b) progress = last b (last a progress) :=
  List.foldl_append

@[simp] theorem last_writeEach (list : List String) (progress : Progress) :
    last (writeEach list) progress = progress := by
  induction list with
  | nil => rfl
  | cons text more ih => exact ih

end Action

/-- What items come to. -/
structure Rendition where
  text : String
  progress : Progress
  /-- The fault at which the items were given up, if there is one. -/
  fault : Option Fault

namespace Rendition

/-- The same rendition behind a text. -/
def behind (text : String) (rendition : Rendition) : Rendition :=
  { rendition with text := text ++ rendition.text }

/-- The rendition of items from the given progress on. -/
def ofItems (options : Options) (progress : Progress) : List Item → Rendition
  | [] => ⟨"", progress, none⟩
  | item :: more =>
    match item.bind (Plan.ofEvent options progress) with
    | .error fault => ⟨"", progress, some fault⟩
    | .ok plan =>
      (ofItems options (Action.last plan progress) more).behind (String.join (Action.texts plan))

/-- The rendition of events. -/
def ofEvents (options : Options) (progress : Progress) (events : List Event) : Rendition :=
  ofItems options progress (events.map .ok)

/-- How a conversion ends that comes to this rendition. -/
def result (rendition : Rendition) : Except Fault Summary :=
  match rendition.fault with
  | none => .ok rendition.progress.summary
  | some fault => .error fault

theorem result_of_handled {rendition : Rendition} (handled : rendition.fault = none) :
    rendition.result = .ok rendition.progress.summary := by
  rw [result, handled]

theorem handled_of_result {rendition : Rendition} {summary : Summary}
    (succeeds : rendition.result = .ok summary) :
    rendition.fault = none ∧ rendition.progress.summary = summary := by
  rw [result] at succeeds
  split at succeeds
  · exact ⟨‹_›, Except.ok.inj succeeds⟩
  · cases succeeds

/-- A conversion fails as its rendition does. -/
theorem map_result (rendition : Rendition) :
    rendition.result.map (fun _ => ()) = rendition.fault.elim (.ok ()) .error := by
  rw [result]
  cases rendition.fault <;> rfl

@[simp] theorem behind_text (text : String) (rendition : Rendition) :
    (rendition.behind text).text = text ++ rendition.text := rfl

@[simp] theorem behind_progress (text : String) (rendition : Rendition) :
    (rendition.behind text).progress = rendition.progress := rfl

@[simp] theorem behind_result (text : String) (rendition : Rendition) :
    (rendition.behind text).result = rendition.result := rfl

@[simp] theorem behind_empty (rendition : Rendition) : rendition.behind "" = rendition := by
  simp [behind]

@[simp] theorem behind_behind (a b : String) (rendition : Rendition) :
    (rendition.behind b).behind a = rendition.behind (a ++ b) := by
  simp [behind, String.append_assoc]

@[simp] theorem ofEvents_nil (options : Options) (progress : Progress) :
    ofEvents options progress [] = ⟨"", progress, none⟩ := rfl

variable {options : Options} {progress reached : Progress} {text : String}

/-- An event that has a plan writes the texts of the plan and leads where the plan ends. -/
theorem ofEvents_cons {event : Event} {plan : List Action}
    (h : Plan.ofEvent options progress event = .ok plan) (more : List Event) :
    ofEvents options progress (event :: more) =
      (ofEvents options (Action.last plan progress) more).behind
        (String.join (Action.texts plan)) := by
  rw [ofEvents, List.map_cons, ofItems]
  simp only [Except.bind, h]
  rfl

/-- An event that has no plan ends the rendition. -/
theorem ofEvents_of_error {event : Event} {fault : Fault}
    (h : Plan.ofEvent options progress event = .error fault) (more : List Event) :
    ofEvents options progress (event :: more) = ⟨"", progress, some fault⟩ := by
  rw [ofEvents, List.map_cons, ofItems]
  simp only [Except.bind, h]

/-- Items that are all handled only put their text in front of what follows them. -/
theorem ofItems_append {a : List Item} (h : ofItems options progress a = ⟨text, reached, none⟩)
    (b : List Item) :
    ofItems options progress (a ++ b) = (ofItems options reached b).behind text := by
  induction a generalizing progress text with
  | nil =>
    cases h
    simp
  | cons item more ih =>
    rw [List.cons_append, ofItems]
    rw [ofItems] at h
    split at h
    · cases h
    · rename_i plan _
      simp only [behind, Rendition.mk.injEq] at h
      obtain ⟨rfl, hp, hf⟩ := h
      have handled : ofItems options (Action.last plan progress) more =
          ⟨(ofItems options (Action.last plan progress) more).text, reached, none⟩ := by
        rw [← hp, ← hf]
      rw [ih handled, behind_behind]

theorem ofEvents_append {a : List Event} (h : ofEvents options progress a = ⟨text, reached, none⟩)
    (b : List Event) :
    ofEvents options progress (a ++ b) = (ofEvents options reached b).behind text := by
  rw [ofEvents, List.map_append, ofItems_append h]
  rfl

end Rendition

section Faithful

variable {σ : Type} [Sink σ] {sound : σ → Prop} {held : σ → ByteArray}

namespace Renderer

/-- Over a sink that never fails a plan is carried out to its end. -/
theorem perform_faithful (faithful : Sink.Faithful sound held) (plan : List Action)
    (renderer : Renderer σ) (h : sound renderer.out) :
    ∃ out remarks, renderer.perform plan =
        (.ok (), ⟨renderer.options, out, Action.last plan renderer.progress, remarks⟩) ∧
      Sink.Grows sound held renderer.out out (String.join (Action.texts plan)).toUTF8 := by
  induction plan generalizing renderer with
  | nil => exact ⟨renderer.out, renderer.remarks, rfl, .refl h⟩
  | cons action plan ih =>
    cases action with
    | reach progress => exact ih { renderer with progress := progress } h
    | discard name => exact ih { renderer with remarks := _ } h
    | write text =>
      obtain ⟨middle, wrote, grown⟩ := faithful.write h text.toUTF8
      obtain ⟨out, remarks, rest, grown'⟩ := ih { renderer with out := middle } grown.sound
      refine ⟨out, remarks, ?_, ?_⟩
      · rw [perform, Sink.writeText, wrote]
        exact rest
      · simpa using grown.trans grown'

/-- Taking an item is carrying out its plan, or reporting why there is none. -/
theorem take_eq (item : Item) (renderer : Renderer σ) :
    renderer.take item =
      match item.bind (Plan.ofEvent renderer.options renderer.progress) with
      | .ok plan => renderer.perform plan
      | .error fault => (.error fault, renderer) := by
  cases item with
  | ok event => rfl
  | error fault => rfl

/-- Over a sink that never fails, items are handled as their rendition says. -/
theorem takeAll_faithful (faithful : Sink.Faithful sound held) (items : List Item)
    (renderer : Renderer σ) (h : sound renderer.out) :
    ∃ out remarks,
      renderer.takeAll items =
        ((Rendition.ofItems renderer.options renderer.progress items).result.map fun _ => (),
          ⟨renderer.options, out,
            (Rendition.ofItems renderer.options renderer.progress items).progress, remarks⟩) ∧
      Sink.Grows sound held renderer.out out
        (Rendition.ofItems renderer.options renderer.progress items).text.toUTF8 := by
  induction items generalizing renderer with
  | nil => exact ⟨renderer.out, renderer.remarks, rfl, .refl h⟩
  | cons item more ih =>
    rw [takeAll, take_eq, Rendition.ofItems]
    cases item.bind (Plan.ofEvent renderer.options renderer.progress) with
    | error fault => exact ⟨renderer.out, renderer.remarks, rfl, .refl h⟩
    | ok plan =>
      obtain ⟨middle, remarks, performed, grown⟩ := perform_faithful faithful plan renderer h
      obtain ⟨out, remarks', rest, grown'⟩ :=
        ih ⟨renderer.options, middle, Action.last plan renderer.progress, remarks⟩ grown.sound
      refine ⟨out, remarks', ?_, ?_⟩
      · simp only [performed]
        exact rest
      · simpa using grown.trans grown'

end Renderer

/-- A conversion over a sink that never fails stores the text of the rendition of its items
and ends as the rendition does. -/
theorem convert_faithful (faithful : Sink.Faithful sound held) {out : σ} (h : sound out)
    (options : Options) (items : List Item) :
    (convert options out items).result = (Rendition.ofItems options .initial items).result ∧
      Sink.Grows sound held out (convert options out items).out
        (Rendition.ofItems options .initial items).text.toUTF8 := by
  obtain ⟨middle, remarks, taken, grown⟩ :=
    Renderer.takeAll_faithful faithful items (.new options out) h
  obtain ⟨last, flushed, grown'⟩ := faithful.flush grown.sound
  have total := grown.trans grown'
  rw [ByteArray.append_empty] at total
  change (Renderer.new options out).takeAll items =
    ((Rendition.ofItems options .initial items).result.map fun _ => (),
      ⟨options, middle, (Rendition.ofItems options .initial items).progress, remarks⟩) at taken
  rw [convert, taken]
  -- Both ways to end flush once, and the flush adds nothing to what is held.
  cases ending : (Rendition.ofItems options .initial items).result with
  | error fault =>
    simp only [Except.map, flushed]
    exact ⟨trivial, total⟩
  | ok summary =>
    simp only [Except.map, Renderer.finish, Renderer.flush, flushed]
    refine ⟨?_, total⟩
    rw [Rendition.result] at ending
    split at ending
    · exact ending
    · cases ending

theorem convert_events_faithful (faithful : Sink.Faithful sound held) {out : σ} (h : sound out)
    (options : Options) (events : List Event) :
    (convert options out (events.map .ok)).result =
        (Rendition.ofEvents options .initial events).result ∧
      Sink.Grows sound held out (convert options out (events.map .ok)).out
        (Rendition.ofEvents options .initial events).text.toUTF8 :=
  convert_faithful faithful h options (events.map .ok)

end Faithful

end TraceTables
