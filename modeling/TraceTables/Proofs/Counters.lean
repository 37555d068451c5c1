import TraceTables.Proofs.Moves

/-!
# The counters of a session

A renderer that is used on after faults keeps its counters. What they count is told by the
history of the session: the tables seen are those that began between tables, the rows written are
those whose line could be ended in a table that is written, and a table that is seen but neither
rendered nor suppressed is one whose blank line was refused.

The beginning of a table counts it before anything is written, and as rendered only behind the
blank line, so that the counters of a step are no longer those of its plan once a write fails.
Each way a step can go is one of the `Moves`. `counted_step` says of each what it adds, and
`counted_steps` sums this up along a session. `Consistent` is what the counters and the state keep
between them in every renderer that a session reaches.
-/

namespace TraceTables.Renderer

variable {σ : Type} [Sink σ]

namespace Step

/-- Whether a table began, or was to begin, where none was open. -/
def beginsTable (step : Step σ) : Bool :=
  match step.request, step.before.progress.state with
  | .handle (.tableBegin ..), .idle => true
  | _, _ => false

/-- Whether the step failed at the blank line before a table that is written. -/
def failsBeforeTable (step : Step σ) : Bool :=
  match step.request, step.before.progress.state, step.answer with
  | .handle (.tableBegin _ name), .idle, .error _ =>
    !step.before.options.discards name && decide (0 < step.before.progress.ordinal) &&
      step.before.refuses "\n"
  | _, _, _ => false

/-- Whether a row ended in a table that is written. -/
def endsRow (step : Step σ) : Bool :=
  match step.request, step.before.progress.state, step.answer with
  | .handle .rowEnd, .inside false, .ok () => true
  | _, _, _ => false

/-- What a step adds to the counters. -/
structure Counted (step : Step σ) : Prop where
  seen : step.after.progress.summary.tablesSeen =
    step.before.progress.summary.tablesSeen + if step.beginsTable then 1 else 0
  /-- Tables seen that are neither rendered nor suppressed, moved to the sides where they add. -/
  lost : step.before.progress.summary.tablesRendered +
      step.before.progress.summary.tablesSuppressed + step.after.progress.summary.tablesSeen =
    step.before.progress.summary.tablesSeen + step.after.progress.summary.tablesRendered +
      step.after.progress.summary.tablesSuppressed + if step.failsBeforeTable then 1 else 0
  rows : step.after.progress.summary.rowsWritten =
    step.before.progress.summary.rowsWritten + if step.endsRow then 1 else 0

section Flags

variable {step : Step σ}

omit [Sink σ] in
theorem beginsTable_eq_false (notIdle : step.before.progress.state ≠ .idle) :
    step.beginsTable = false := by
  rw [beginsTable]
  split
  · contradiction
  · rfl

theorem failsBeforeTable_eq_false (notIdle : step.before.progress.state ≠ .idle) :
    step.failsBeforeTable = false := by
  rw [failsBeforeTable]
  split
  · contradiction
  · rfl

/-- A step that leaves the counters alone. -/
theorem Counted.still (same : step.after.progress.summary = step.before.progress.summary)
    (begins : step.beginsTable = false) (fails : step.failsBeforeTable = false)
    (ends : step.endsRow = false) : step.Counted where
  seen := by simp [same, begins]
  lost := by
    rw [same, fails]
    simp only [Bool.false_eq_true, if_false]
    omega
  rows := by simp [same, ends]

end Flags

end Step

/-- A flush hands on what has been written and moves nothing. -/
theorem progress_flush (renderer : Renderer σ) : renderer.flush.2.progress = renderer.progress := by
  rw [flush]
  split <;> rfl

/-- A step in which a table begins counts it as seen, and then as one of three. -/
theorem counted_tableBegin {renderer after : Renderer σ} {kind : TableKind} {name : String}
    {answer : Except Fault Unit} (idle : renderer.progress.state = .idle)
    (seen : after.progress.summary.tablesSeen = renderer.progress.summary.tablesSeen + 1)
    (rows : after.progress.summary.rowsWritten = renderer.progress.summary.rowsWritten)
    (one : after.progress.summary.tablesRendered + after.progress.summary.tablesSuppressed +
        (if (Step.mk renderer (.handle (.tableBegin kind name)) answer after).failsBeforeTable
          then 1 else 0) =
      renderer.progress.summary.tablesRendered + renderer.progress.summary.tablesSuppressed + 1) :
    (Step.mk renderer (.handle (.tableBegin kind name)) answer after).Counted where
  seen := by
    have begins : (Step.mk renderer (.handle (.tableBegin kind name)) answer after).beginsTable =
        true := by simp [Step.beginsTable, idle]
    rw [begins]
    exact seen
  lost := by
    dsimp only
    omega
  rows := rows

/-- What handling an event adds to the counters, whichever way it goes. -/
theorem counted_handle {event : Event} {renderer after : Renderer σ} {answer : Except Fault Unit}
    (moves : Moves renderer event answer after.progress) :
    (Step.mk renderer (.handle event) answer after).Counted := by
  generalize reached : after.progress = progress at moves
  -- Inside a table only the end of a row is counted.
  have inTable {suppressed : Bool} (inside : renderer.progress.state = .inside suppressed)
      (same : progress.summary = renderer.progress.summary)
      (ends : (Step.mk renderer (.handle event) answer after).endsRow = false) :
      (Step.mk renderer (.handle event) answer after).Counted := by
    have notIdle : renderer.progress.state ≠ .idle := by simp [inside]
    exact .still (reached ▸ same) (Step.beginsTable_eq_false notIdle)
      (Step.failsBeforeTable_eq_false notIdle) ends
  cases moves with
  | rejects offends =>
    refine .still (congrArg _ reached) ?_ ?_ ?_ <;> cases event <;>
      cases state : renderer.progress.state <;>
        simp_all [Step.beginsTable, Step.failsBeforeTable, Step.endsRow, Event.offence?,
          TableState.isInside]
  | @suppresses kind name _ idle discarded =>
    have fails : (Step.mk renderer (.handle (.tableBegin kind name)) answer
        after).failsBeforeTable = false := by
      cases answer <;> simp [Step.failsBeforeTable, idle, discarded]
    refine counted_tableBegin idle (by rw [reached]; rfl) (by rw [reached]; rfl) ?_
    simp only [fails, reached, Progress.see, Progress.suppress, Bool.false_eq_true, if_false]
    omega
  | @stopsBeforeTable kind name cause idle kept later refused =>
    have fails : (Step.mk renderer (.handle (.tableBegin kind name)) (.error (.device cause))
        after).failsBeforeTable = true := by
      simp [Step.failsBeforeTable, idle, kept, later, refused]
    refine counted_tableBegin idle (by rw [reached]; rfl) (by rw [reached]; rfl) ?_
    simp only [fails, reached, Progress.see, if_true]
  | @opens kind name _ idle kept divided =>
    have fails : (Step.mk renderer (.handle (.tableBegin kind name)) answer
        after).failsBeforeTable = false := by
      cases answer with
      | ok done => simp [Step.failsBeforeTable, idle]
      | error fault =>
        by_cases later : 0 < renderer.progress.ordinal <;>
          simp [Step.failsBeforeTable, idle, kept, later, divided]
    refine counted_tableBegin idle (by rw [reached]; rfl) (by rw [reached]; rfl) ?_
    simp only [fails, reached, Progress.see, Progress.openTable, Bool.false_eq_true, if_false]
    omega
  | closes inside =>
    cases state : renderer.progress.state with
    | idle => simp [state, TableState.isInside] at inside
    | inside suppressed => exact inTable state rfl rfl
  | drops inside content => exact inTable inside rfl (by simp [Step.endsRow, inside])
  | beginsRow inside => exact inTable inside rfl rfl
  | stopsBeforeField inside entry later refused =>
    exact inTable inside rfl (by cases entry <;> rfl)
  | adds inside entry divided => exact inTable inside rfl (by cases entry <;> rfl)
  | endsRow inside taken =>
    have notIdle : renderer.progress.state ≠ .idle := by simp [inside]
    have ends : (Step.mk renderer (.handle .rowEnd) (.ok ()) after).endsRow = true := by
      simp [Step.endsRow, inside]
    have begins : (Step.mk renderer (.handle .rowEnd) (.ok ()) after).beginsTable = false :=
      Step.beginsTable_eq_false notIdle
    have fails : (Step.mk renderer (.handle .rowEnd) (.ok ()) after).failsBeforeTable = false :=
      Step.failsBeforeTable_eq_false notIdle
    refine ⟨?_, ?_, ?_⟩
    · simp [begins, reached, Progress.countRow]
    · simp [fails, reached, Progress.countRow]
      omega
    · simp [ends, reached, Progress.countRow]
  | stopsAtRowEnd inside refused => exact inTable inside rfl (by simp [Step.endsRow, inside])

theorem counted_step (request : Request) (renderer : Renderer σ) :
    (renderer.step request).Counted := by
  cases request with
  | handle event => exact counted_handle (handle_moves event renderer)
  | flush => exact .still (congrArg _ (progress_flush renderer)) rfl rfl rfl

/-- Along a session the counters grow with its history. -/
theorem counted_steps (requests : List Request) (renderer : Renderer σ) :
    let before := renderer.progress.summary
    let after := (renderer.serveAll requests).progress.summary
    let steps := renderer.steps requests
    after.tablesSeen = before.tablesSeen + steps.countP Step.beginsTable ∧
      before.tablesRendered + before.tablesSuppressed + after.tablesSeen =
        before.tablesSeen + after.tablesRendered + after.tablesSuppressed +
          steps.countP Step.failsBeforeTable ∧
      after.rowsWritten = before.rowsWritten + steps.countP Step.endsRow := by
  induction requests generalizing renderer with
  | nil =>
    simp only [steps, serveAll, List.countP_nil]
    omega
  | cons request more ih =>
    obtain ⟨seen, lost, rows⟩ := counted_step request renderer
    obtain ⟨seen', lost', rows'⟩ := ih (renderer.serve request).2
    rw [step_before, step_after] at seen lost rows
    simp only [steps, serveAll, List.countP_cons]
    omega

/-! ## The counters and the state -/

/-- What the counters and the state keep between them. -/
structure Consistent (options : Options) (progress : Progress) : Prop where
  ordinal : progress.summary.tablesRendered = progress.ordinal
  rendered : progress.state = .inside false → 1 ≤ progress.summary.tablesRendered
  suppressed : progress.state = .inside true → 1 ≤ progress.summary.tablesSuppressed
  namesOnly : options.namesOnly = true → progress.summary.tablesRendered = 0 ∧
    progress.summary.rowsWritten = 0 ∧ progress.state ≠ .inside false

theorem consistent_initial (options : Options) : Consistent options .initial where
  ordinal := rfl
  rendered := nofun
  suppressed := nofun
  namesOnly _ := ⟨rfl, rfl, nofun⟩

/-- Every move keeps the counters and the state consistent, also one that stops half-way. -/
theorem consistent_of_moves {renderer : Renderer σ} {event : Event} {answer : Except Fault Unit}
    {reached : Progress} (moves : Moves renderer event answer reached)
    (consistent : Consistent renderer.options renderer.progress) :
    Consistent renderer.options reached := by
  obtain ⟨ordinal, rendered, suppressed, namesOnly⟩ := consistent
  cases moves with
  | rejects | drops | stopsBeforeTable | beginsRow | stopsBeforeField | adds | stopsAtRowEnd =>
    exact ⟨ordinal, rendered, suppressed, namesOnly⟩
  | suppresses idle discarded =>
    refine ⟨ordinal, ?_, fun _ => Nat.le_add_left 1 _, ?_⟩
    · intro written
      cases written
    · intro only
      obtain ⟨noTable, noRow, -⟩ := namesOnly only
      exact ⟨noTable, noRow, by simp [Progress.suppress]⟩
  | opens idle kept divided =>
    refine ⟨congrArg (· + 1) ordinal, fun _ => Nat.le_add_left 1 _, ?_, ?_⟩
    · intro dropped
      cases dropped
    · intro only
      simp [Options.discards, only] at kept
  | closes inside =>
    refine ⟨ordinal, ?_, ?_, ?_⟩
    · intro written
      cases written
    · intro dropped
      cases dropped
    · intro only
      obtain ⟨noTable, noRow, -⟩ := namesOnly only
      exact ⟨noTable, noRow, by simp⟩
  | endsRow inside taken =>
    refine ⟨ordinal, rendered, suppressed, fun only => ?_⟩
    exact absurd inside (namesOnly only).2.2

theorem options_serve (request : Request) (renderer : Renderer σ) :
    (renderer.serve request).2.options = renderer.options := by
  cases request with
  | handle event => exact options_handle event renderer
  | flush => exact options_flush renderer

theorem consistent_serve {renderer : Renderer σ} (request : Request)
    (consistent : Consistent renderer.options renderer.progress) :
    Consistent renderer.options (renderer.serve request).2.progress := by
  cases request with
  | handle event => exact consistent_of_moves (handle_moves event renderer) consistent
  | flush =>
    rw [serve, progress_flush]
    exact consistent

/-- Every renderer that a session reaches is consistent. -/
theorem consistent_serveAll {renderer : Renderer σ} (requests : List Request)
    (consistent : Consistent renderer.options renderer.progress) :
    Consistent renderer.options (renderer.serveAll requests).progress := by
  induction requests generalizing renderer with
  | nil => exact consistent
  | cons request more ih =>
    have next := consistent_serve request consistent
    rw [← options_serve request renderer] at next ⊢
    exact ih next

/-- Whatever the sink does, and however a session goes on after faults: the tables rendered are
those that the place of the next is counted by; a table seen is rendered or suppressed, unless its
blank line was refused; tables seen and rows written are those of the history; a table that is open
has been counted; and where only names are written, no table is ever open to be written. -/
theorem session_counters (options : Options) (out : σ) (requests : List Request) :
    let start := Renderer.new options out
    let steps := start.steps requests
    let progress := (start.serveAll requests).progress
    let summary := progress.summary
    summary.tablesRendered = progress.ordinal ∧
      summary.tablesSeen = summary.tablesRendered + summary.tablesSuppressed +
        steps.countP Step.failsBeforeTable ∧
      summary.tablesSeen = steps.countP Step.beginsTable ∧
      summary.rowsWritten = steps.countP Step.endsRow ∧
      (options.namesOnly = true →
        summary.tablesRendered = 0 ∧ summary.rowsWritten = 0 ∧ progress.state ≠ .inside false) ∧
      (progress.state = .inside false → 1 ≤ summary.tablesRendered) ∧
      (progress.state = .inside true → 1 ≤ summary.tablesSuppressed) := by
  intro start steps progress summary
  obtain ⟨ordinal, rendered, suppressed, namesOnly⟩ :=
    consistent_serveAll requests (show Consistent start.options start.progress from
      consistent_initial options)
  obtain ⟨seen, lost, rows⟩ := counted_steps requests start
  have none : start.progress.summary = .zero := rfl
  simp only [none, Summary.zero, Nat.zero_add] at seen lost rows
  exact ⟨ordinal, lost, seen, rows, namesOnly, rendered, suppressed⟩

/-- Two tables follow a first one that fills the buffer. The blank line before the second is
refused, and the third is suppressed. With names only, no table is rendered and none is open to
be. -/
theorem session_counters_full_buffer :
    let start (namesOnly : Bool) :=
      Renderer.new ⟨",", .allBut ["C"], namesOnly⟩ (Buffer.mk .empty (some 6) false)
    let opening : List Request :=
      [.handle (.tableBegin .basic "A"), .handle (.cellValue (.uint64 1))]
    let requests : List Request := opening ++ [.handle .rowEnd, .handle .tableEnd,
      .handle (.tableBegin .basic "B"), .handle (.tableBegin .keyValue "C")]
    ((start false).steps requests).countP Step.failsBeforeTable = 1 ∧
      ((start false).serveAll requests).progress.summary = ⟨3, 1, 1, 1⟩ ∧
      ((start false).serveAll requests).progress.state = .inside true ∧
      1 ≤ ((start false).serveAll requests).progress.summary.tablesSuppressed ∧
      ((start false).serveAll opening).progress.state = .inside false ∧
      1 ≤ ((start false).serveAll opening).progress.summary.tablesRendered ∧
      ((start true).serveAll requests).progress.summary.tablesRendered = 0 ∧
      ((start true).serveAll requests).progress.state ≠ .inside false := by
  dsimp only
  refine ⟨by cbv, by cbv, by cbv, ?_, by cbv, ?_, ?_, ?_⟩
  · exact (session_counters _ _ _).2.2.2.2.2.2 (by cbv)
  · exact (session_counters _ _ _).2.2.2.2.2.1 (by cbv)
  · exact ((session_counters _ _ _).2.2.2.2.1 rfl).1
  · exact ((session_counters _ _ _).2.2.2.2.1 rfl).2.2

end TraceTables.Renderer
