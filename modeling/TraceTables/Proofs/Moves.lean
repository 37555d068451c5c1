import TraceTables.Proofs.Acceptance
import TraceTables.Renderer.Session

/-!
# What becomes of the progress

Over a sink that may fail at any write, an event can leave the progress of a renderer in more than
one place: its plan is dropped at the first write that fails, and the states behind that write are
not reached. `Moves` lists every way this can go, one constructor for each, with what must hold of
the renderer for it. It knows nothing of plans, and nothing of the sink but which text it refuses.

`handle_moves` says that there is no other way. What holds of each constructor therefore holds of
each step, and along a session of each renderer that is reached.
-/

namespace TraceTables.Renderer

variable {σ : Type} [Sink σ]

/-- Whether a text cannot be written to the sink as it is. -/
def refuses (text : String) (renderer : Renderer σ) : Bool :=
  !(Sink.writeText text renderer.out).1.isOk

/-- What can become of the progress when an event is handled, with the answer. -/
inductive Moves (renderer : Renderer σ) : Event → Except Fault Unit → Progress → Prop where
  | rejects {event : Event} {fault : Fault}
      (offends : event.offence? renderer.progress.state.isInside = some fault) :
      Moves renderer event (.error fault) renderer.progress
  | suppresses {kind : TableKind} {name : String} {answer : Except Fault Unit}
      (idle : renderer.progress.state = .idle)
      (discarded : renderer.options.discards name = true) :
      Moves renderer (.tableBegin kind name) answer renderer.progress.see.suppress
  /-- The blank line before a table is refused. -/
  | stopsBeforeTable {kind : TableKind} {name : String} {cause : DeviceFault}
      (idle : renderer.progress.state = .idle)
      (kept : renderer.options.discards name = false) (later : 0 < renderer.progress.ordinal)
      (refused : renderer.refuses "\n" = true) :
      Moves renderer (.tableBegin kind name) (.error (.device cause)) renderer.progress.see
  /-- The table is open before its name is written, so that the answer may be a fault. -/
  | opens {kind : TableKind} {name : String} {answer : Except Fault Unit}
      (idle : renderer.progress.state = .idle)
      (kept : renderer.options.discards name = false)
      (divided : 0 < renderer.progress.ordinal → renderer.refuses "\n" = false) :
      Moves renderer (.tableBegin kind name) answer renderer.progress.see.openTable
  | closes (inside : renderer.progress.state.isInside = true) :
      Moves renderer .tableEnd (.ok ()) { renderer.progress with state := .idle }
  /-- What a suppressed table holds. -/
  | drops {event : Event} (inside : renderer.progress.state = .inside true)
      (content : event.IsContent) : Moves renderer event (.ok ()) renderer.progress
  | beginsRow (inside : renderer.progress.state = .inside false) :
      Moves renderer .rowBegin (.ok ()) { renderer.progress with column := 0 }
  /-- The separator before a field is refused. -/
  | stopsBeforeField {cause : DeviceFault} (inside : renderer.progress.state = .inside false)
      (entry : Entry) (later : 0 < renderer.progress.column)
      (refused : renderer.refuses renderer.options.separator = true) :
      Moves renderer entry.event (.error (.device cause)) renderer.progress
  /-- The field is counted before it is written, so that the answer may be a fault. -/
  | adds {answer : Except Fault Unit} (inside : renderer.progress.state = .inside false)
      (entry : Entry)
      (divided : 0 < renderer.progress.column →
        renderer.refuses renderer.options.separator = false) :
      Moves renderer entry.event answer
        { renderer.progress with column := renderer.progress.column + 1 }
  | endsRow (inside : renderer.progress.state = .inside false)
      (taken : renderer.refuses "\n" = false) :
      Moves renderer .rowEnd (.ok ()) renderer.progress.countRow
  | stopsAtRowEnd {cause : DeviceFault} (inside : renderer.progress.state = .inside false)
      (refused : renderer.refuses "\n" = true) :
      Moves renderer .rowEnd (.error (.device cause)) renderer.progress

section Perform

variable {text : String} {renderer : Renderer σ}

theorem perform_of_refuses (refused : renderer.refuses text = true) (plan : List Action) :
    (∃ cause, (renderer.perform (.write text :: plan)).1 = .error (.device cause)) ∧
      (renderer.perform (.write text :: plan)).2.progress = renderer.progress := by
  obtain ⟨options, out, progress, remarks⟩ := renderer
  rw [refuses] at refused
  rw [perform]
  rcases wrote : Sink.writeText text out with ⟨cause | done, after⟩
  · exact ⟨⟨cause, rfl⟩, rfl⟩
  · simp [wrote, Except.isOk, Except.toBool] at refused

theorem perform_of_not_refuses (taken : renderer.refuses text = false) (plan : List Action) :
    ∃ out, renderer.perform (.write text :: plan) = { renderer with out := out }.perform plan := by
  obtain ⟨options, out, progress, remarks⟩ := renderer
  rw [refuses] at taken
  rw [perform]
  rcases wrote : Sink.writeText text out with ⟨cause | done, after⟩
  · simp [wrote, Except.isOk, Except.toBool] at taken
  · exact ⟨after, rfl⟩

/-- Writing alone does not move the progress, whatever becomes of the writes. -/
theorem progress_perform_writeEach (texts : List String) (renderer : Renderer σ) :
    (renderer.perform (Action.writeEach texts)).2.progress = renderer.progress := by
  induction texts generalizing renderer with
  | nil => rfl
  | cons text more ih =>
    change (renderer.perform (.write text :: Action.writeEach more)).2.progress = _
    cases refused : renderer.refuses text with
    | true => exact (perform_of_refuses refused _).2
    | false =>
      obtain ⟨out, wrote⟩ := perform_of_not_refuses refused (Action.writeEach more)
      rw [wrote, ih]

/-- A state that is reached behind a text, if there is one to write first, and before others. -/
theorem perform_divided (due : Prop) [Decidable due] (text : String) (reached : Progress)
    (texts : List String) (renderer : Renderer σ) :
    let after := renderer.perform ((if due then [.write text] else []) ++
      .reach reached :: Action.writeEach texts)
    (due ∧ renderer.refuses text = true ∧ (∃ cause, after.1 = .error (.device cause)) ∧
        after.2.progress = renderer.progress) ∨
      ((due → renderer.refuses text = false) ∧ after.2.progress = reached) := by
  intro after
  have goesOn (renderer : Renderer σ) :
      (renderer.perform (.reach reached :: Action.writeEach texts)).2.progress = reached :=
    progress_perform_writeEach texts { renderer with progress := reached }
  by_cases first : due
  · cases refused : renderer.refuses text with
    | true =>
      obtain ⟨failed, stays⟩ :=
        perform_of_refuses refused (.reach reached :: Action.writeEach texts)
      have performed : after =
          renderer.perform (.write text :: .reach reached :: Action.writeEach texts) := by
        simp only [after, if_pos first, List.singleton_append]
      rw [performed]
      exact .inl ⟨first, rfl, failed, stays⟩
    | false =>
      obtain ⟨out, wrote⟩ :=
        perform_of_not_refuses refused (.reach reached :: Action.writeEach texts)
      have performed : after = { renderer with out := out }.perform
          (.reach reached :: Action.writeEach texts) := by
        simp only [after, if_pos first, List.singleton_append, wrote]
      rw [performed]
      exact .inr ⟨fun _ => rfl, goesOn _⟩
  · have performed : after = renderer.perform (.reach reached :: Action.writeEach texts) := by
      simp only [after, if_neg first, List.nil_append]
    rw [performed]
    exact .inr ⟨fun due => absurd due first, goesOn _⟩

end Perform

section Handle

variable {renderer : Renderer σ}

theorem handle_of_ofEvent {event : Event} {plan : List Action}
    (planned : Plan.ofEvent renderer.options renderer.progress event = .ok plan) :
    renderer.handle event = renderer.perform plan := by
  rw [handle, planned]

theorem moves_tableBegin (idle : renderer.progress.state = .idle) (kind : TableKind)
    (name : String) :
    Moves renderer (.tableBegin kind name) (renderer.handle (.tableBegin kind name)).1
      (renderer.handle (.tableBegin kind name)).2.progress := by
  have planned : Plan.ofEvent renderer.options renderer.progress (.tableBegin kind name) =
      .ok (Plan.beginTable renderer.options renderer.progress name) := by
    simp [Plan.ofEvent, idle]
  have line : Plan.nameLine name = Action.writeEach (Field.chunks name ++ ["\n"]) := by
    simp [Plan.nameLine, Action.writeEach]
  rw [handle_of_ofEvent planned, Plan.beginTable, line]
  cases discarded : renderer.options.filter.suppresses name with
  | true => exact .suppresses idle (by simp [Options.discards, discarded])
  | false =>
    cases namesOnly : renderer.options.namesOnly with
    | true =>
      have named := progress_perform_writeEach (Field.chunks name ++ ["\n"])
        { renderer with progress := renderer.progress.see.suppress }
      simp only [Bool.false_eq_true, if_false, if_true, perform]
      rw [named]
      exact .suppresses idle (by simp [Options.discards, namesOnly])
    | false =>
      have kept : renderer.options.discards name = false := by
        simp [Options.discards, discarded, namesOnly]
      simp only [Bool.false_eq_true, if_false]
      obtain ⟨later, refused, ⟨cause, failed⟩, stays⟩ | ⟨divided, reached⟩ :=
        perform_divided (0 < renderer.progress.see.ordinal) "\n" renderer.progress.see.openTable
          (Field.chunks name ++ ["\n"]) { renderer with progress := renderer.progress.see }
      · rw [List.cons_append, perform, failed, stays]
        exact .stopsBeforeTable idle kept later refused
      · rw [List.cons_append, perform, reached]
        exact .opens idle kept divided

theorem moves_entry (inside : renderer.progress.state = .inside false) (entry : Entry) :
    Moves renderer entry.event (renderer.handle entry.event).1
      (renderer.handle entry.event).2.progress := by
  rw [handle_of_ofEvent (Rendition.ofEvent_entry inside entry), Plan.addField]
  obtain ⟨later, refused, ⟨cause, failed⟩, stays⟩ | ⟨divided, reached⟩ :=
    perform_divided (0 < renderer.progress.column) renderer.options.separator
      { renderer.progress with column := renderer.progress.column + 1 }
      (Rendition.entryChunks entry) renderer
  · rw [failed, stays]
    exact .stopsBeforeField inside entry later refused
  · rw [reached]
    exact .adds inside entry divided

theorem moves_rowEnd (inside : renderer.progress.state = .inside false) :
    Moves renderer .rowEnd (renderer.handle .rowEnd).1 (renderer.handle .rowEnd).2.progress := by
  have planned : Plan.ofEvent renderer.options renderer.progress .rowEnd =
      .ok [.write "\n", .reach renderer.progress.countRow] := by
    simp [Plan.ofEvent, inside, Plan.inTable]
  rw [handle_of_ofEvent planned]
  cases refused : renderer.refuses "\n" with
  | true =>
    obtain ⟨⟨cause, failed⟩, stays⟩ :=
      perform_of_refuses refused [.reach renderer.progress.countRow]
    rw [failed, stays]
    exact .stopsAtRowEnd inside refused
  | false =>
    obtain ⟨out, wrote⟩ := perform_of_not_refuses refused [.reach renderer.progress.countRow]
    rw [wrote]
    exact .endsRow inside refused

/-- Whatever an event does to the progress, over whatever sink, is one of the moves. -/
theorem handle_moves (event : Event) (renderer : Renderer σ) :
    Moves renderer event (renderer.handle event).1 (renderer.handle event).2.progress := by
  cases planned : Plan.ofEvent renderer.options renderer.progress event with
  | error fault =>
    rw [handle, planned]
    exact .rejects ((Plan.ofEvent_eq_error_iff event fault).1 planned)
  | ok plan =>
    rcases Plan.ofEvent_cases planned with
      ⟨kind, name, idle, rfl, -⟩ | ⟨inside, rfl, rfl⟩ | ⟨inside, content, rfl⟩ |
        ⟨inside, content, rfl⟩
    · exact moves_tableBegin idle kind name
    · rw [handle_of_ofEvent planned]
      exact .closes inside
    · rw [handle_of_ofEvent planned]
      exact .drops inside content
    · rcases content.cases with rfl | rfl | ⟨entry, rfl⟩
      · rw [handle_of_ofEvent planned]
        exact .beginsRow inside
      · exact moves_rowEnd inside
      · exact moves_entry inside entry

end Handle

end TraceTables.Renderer
