import TraceTables.Proofs.Acceptance

/-!
# Leaving tables out

A filter that discards tables does what leaving them out of the trace would do. The two
renditions run over different events, so they are compared step by step: a discarded table
writes nothing and leads back to the place between tables that it began at, with one more table
seen and one more suppressed (`ofEvents_suppressed_table`). That difference never comes to
matter, because no plan looks at the counters (`ofEvents_count`), and on the tables that are
left the filter says nothing (`ofEvents_congr`).

The tables need not be framed in rows here, and the last one need not end.
-/

namespace TraceTables

/-! ## Counters -/

/-- The same progress with more counted. -/
def Progress.count (extra : Summary) (progress : Progress) : Progress :=
  { progress with summary := progress.summary + extra }

/-- The same action with more counted. -/
def Action.count (extra : Summary) : Action → Action
  | .reach progress => .reach (progress.count extra)
  | .write text => .write text
  | .discard name => .discard name

/-- The same rendition with more counted. -/
def Rendition.count (extra : Summary) (rendition : Rendition) : Rendition :=
  { rendition with progress := rendition.progress.count extra }

section Counters

variable (extra : Summary) (progress : Progress)

namespace Progress

@[simp] theorem count_state : (progress.count extra).state = progress.state := rfl

@[simp] theorem count_ordinal : (progress.count extra).ordinal = progress.ordinal := rfl

@[simp] theorem count_column : (progress.count extra).column = progress.column := rfl

theorem count_comm (other : Summary) :
    (progress.count extra).count other = (progress.count other).count extra := by
  simp only [count, Summary.add_right_comm]

@[simp] theorem see_count : (progress.count extra).see = progress.see.count extra :=
  count_comm extra progress ⟨1, 0, 0, 0⟩

@[simp] theorem suppress_count :
    (progress.count extra).suppress = progress.suppress.count extra :=
  congrArg (fun counted : Progress => { counted with state := .inside true })
    (count_comm extra progress ⟨0, 0, 1, 0⟩)

@[simp] theorem openTable_count :
    (progress.count extra).openTable = progress.openTable.count extra :=
  congrArg (fun counted : Progress =>
      { counted with state := .inside false, ordinal := counted.ordinal + 1 })
    (count_comm extra progress ⟨0, 1, 0, 0⟩)

@[simp] theorem countRow_count :
    (progress.count extra).countRow = progress.countRow.count extra :=
  count_comm extra progress ⟨0, 0, 0, 1⟩

end Progress

namespace Action

@[simp] theorem texts_map_count (plan : List Action) :
    texts (plan.map (count extra)) = texts plan := by
  induction plan with
  | nil => rfl
  | cons action plan ih => cases action <;> simp [count, ih]

@[simp] theorem last_map_count (plan : List Action) :
    last (plan.map (count extra)) (progress.count extra) = (last plan progress).count extra := by
  induction plan generalizing progress with
  | nil => rfl
  | cons action plan ih => cases action <;> simp [count, ih]

@[simp] theorem map_count_writeEach (list : List String) :
    (writeEach list).map (count extra) = writeEach list := by
  simp [writeEach, count]

end Action

namespace Plan

variable (options : Options)

theorem map_count_beginTable (name : String) :
    (beginTable options progress name).map (Action.count extra) =
      beginTable options (progress.count extra) name := by
  by_cases discarded : options.filter.suppresses name <;>
    by_cases namesOnly : options.namesOnly <;>
      by_cases first : 0 < progress.see.ordinal <;>
        simp [beginTable, nameLine, Action.count, discarded, namesOnly, first]

theorem map_count_addField (chunks : List String) :
    (addField options progress chunks).map (Action.count extra) =
      addField options (progress.count extra) chunks := by
  have moves : { progress with column := progress.column + 1 }.count extra =
      { progress.count extra with column := progress.column + 1 } := rfl
  by_cases first : 0 < progress.column <;> simp [addField, Action.count, first, moves]

theorem map_count_inTable (event : Event) :
    (inTable options progress event).map (Action.count extra) =
      inTable options (progress.count extra) event := by
  cases event with
  | columnDeclare type name => exact map_count_addField extra progress options _
  | cellValue value => exact map_count_addField extra progress options _
  | rowEnd => simp [inTable, Action.count]
  | _ => rfl

/-- What an event does depends in no way on what has been counted. -/
theorem ofEvent_count (event : Event) :
    ofEvent options (progress.count extra) event =
      (ofEvent options progress event).map (List.map (Action.count extra)) := by
  cases state : progress.state with
  | idle =>
    cases event with
    | tableBegin kind name =>
      simp [ofEvent, state, Except.map, map_count_beginTable extra progress options]
    | _ => simp [ofEvent, state, Except.map]
  | inside suppressed =>
    cases event <;> cases suppressed <;>
      simp [ofEvent, state, Except.map, Action.count, map_count_inTable extra progress options] <;>
      rfl

end Plan

namespace Rendition

@[simp] theorem count_behind (text : String) (rendition : Rendition) :
    (rendition.behind text).count extra = (rendition.count extra).behind text := rfl

/-- Nor does what events come to. -/
theorem ofEvents_count (options : Options) (events : List Event) :
    ofEvents options (progress.count extra) events =
      (ofEvents options progress events).count extra := by
  induction events generalizing progress with
  | nil => rfl
  | cons event more ih =>
    have counted := Plan.ofEvent_count extra progress options event
    cases planned : Plan.ofEvent options progress event with
    | error fault =>
      rw [planned] at counted
      rw [ofEvents_of_error planned, ofEvents_of_error counted]
      rfl
    | ok plan =>
      rw [planned] at counted
      rw [ofEvents_cons planned, ofEvents_cons counted, Action.last_map_count,
        Action.texts_map_count, ih, count_behind]

end Rendition

end Counters

/-! ## Filters -/

section Filters

variable {separator : String} {namesOnly : Bool} {filter other : Filter} {progress : Progress}

/-- A plan asks the filter about the table that begins, and about nothing else. -/
theorem Plan.ofEvent_congr {event : Event}
    (agree : ∀ kind name, event = .tableBegin kind name →
      filter.suppresses name = other.suppresses name) :
    ofEvent ⟨separator, filter, namesOnly⟩ progress event =
      ofEvent ⟨separator, other, namesOnly⟩ progress event := by
  cases state : progress.state with
  | idle =>
    cases event with
    | tableBegin kind name => simp [ofEvent, state, beginTable, agree kind name rfl]
    | _ => simp [ofEvent, state]
  | inside suppressed =>
    cases event <;> cases suppressed <;> simp [ofEvent, state, inTable, addField]

/-- Filters that agree on the tables of events make the same of them. -/
theorem Rendition.ofEvents_congr {events : List Event}
    (agree : ∀ kind name, .tableBegin kind name ∈ events →
      filter.suppresses name = other.suppresses name) :
    ofEvents ⟨separator, filter, namesOnly⟩ progress events =
      ofEvents ⟨separator, other, namesOnly⟩ progress events := by
  induction events generalizing progress with
  | nil => rfl
  | cons event more ih =>
    have same : Plan.ofEvent ⟨separator, filter, namesOnly⟩ progress event =
        Plan.ofEvent ⟨separator, other, namesOnly⟩ progress event := by
      apply Plan.ofEvent_congr
      rintro kind name rfl
      exact agree kind name List.mem_cons_self
    have rest := fun kind name member => agree kind name (List.mem_cons_of_mem _ member)
    cases planned : Plan.ofEvent ⟨separator, other, namesOnly⟩ progress event with
    | error fault => rw [ofEvents_of_error planned, ofEvents_of_error (same.trans planned)]
    | ok plan => rw [ofEvents_cons planned, ofEvents_cons (same.trans planned), ih rest]

/-- Whether lists of names leave a table out: it is not among the names to include, if there
are any, or it is among those to exclude. -/
def Filter.leavesOut (included excluded : List String) (name : String) : Bool :=
  decide ((included ≠ [] ∧ name ∉ included) ∨ name ∈ excluded)

/-- The filter of two lists of names discards the tables that they leave out. -/
theorem Filter.suppresses_eq_leavesOut {included excluded : List String}
    (accepted : ofLists? included excluded = some filter) (name : String) :
    filter.suppresses name = leavesOut included excluded name := by
  rw [Bool.eq_iff_iff, leavesOut, decide_eq_true_iff]
  cases included with
  | nil =>
    cases excluded with
    | nil =>
      cases accepted
      simp
    | cons first others =>
      cases accepted
      simp [suppresses_allBut]
  | cons first others =>
    cases excluded with
    | nil =>
      cases accepted
      simp [suppresses_only]
    | cons first' others' => cases accepted

end Filters

/-! ## Traces -/

/-- A table as it may be recorded: what it holds need not be framed in rows. -/
structure LooseTable where
  kind : TableKind
  name : String
  content : List Event
  isContent : ∀ event ∈ content, event.IsContent

namespace LooseTable

/-- The events of a table that does not end. -/
def opening (table : LooseTable) : List Event :=
  .tableBegin table.kind table.name :: table.content

/-- The events of a table. -/
def events (table : LooseTable) : List Event :=
  table.opening ++ [.tableEnd]

end LooseTable

/-- A trace of complete tables, behind which there may be one that does not end. -/
structure Trace where
  complete : List LooseTable
  unfinished : Option LooseTable

namespace Trace

/-- The tables of a trace. -/
def tables (trace : Trace) : List LooseTable :=
  trace.complete ++ trace.unfinished.toList

/-- The events of a trace. -/
def events (trace : Trace) : List Event :=
  trace.complete.flatMap LooseTable.events ++ trace.unfinished.toList.flatMap LooseTable.opening

/-- How many tables of a trace are left out. -/
def countLeftOut (leftOut : String → Bool) (trace : Trace) : Nat :=
  trace.tables.countP (leftOut ·.name)

/-- The trace without some of its tables. -/
def without (leftOut : String → Bool) (trace : Trace) : Trace where
  complete := trace.complete.filter (!leftOut ·.name)
  unfinished := trace.unfinished.filter (!leftOut ·.name)

/-- A table that begins in a trace is one of its tables. -/
theorem exists_of_mem_events {trace : Trace} {kind : TableKind} {name : String}
    (begins : .tableBegin kind name ∈ trace.events) :
    ∃ table ∈ trace.tables, table.name = name := by
  have ofOpening {table : LooseTable} (opened : .tableBegin kind name ∈ table.opening) :
      table.name = name := by
    rcases List.mem_cons.1 opened with same | held
    · cases same
      rfl
    · exact (table.isContent _ held).elim
  rcases List.mem_append.1 begins with complete | unfinished
  · obtain ⟨table, member, events⟩ := List.mem_flatMap.1 complete
    refine ⟨table, List.mem_append_left _ member, ?_⟩
    rcases List.mem_append.1 events with opened | ended
    · exact ofOpening opened
    · simp at ended
  · obtain ⟨table, member, opened⟩ := List.mem_flatMap.1 unfinished
    exact ⟨table, List.mem_append_right _ member, ofOpening opened⟩

/-- None of the tables that are left is left out. -/
theorem not_leftOut_of_mem_without {leftOut : String → Bool} {trace : Trace} {table : LooseTable}
    (member : table ∈ (trace.without leftOut).tables) : leftOut table.name = false := by
  rcases List.mem_append.1 member with complete | unfinished
  · simpa using (List.mem_filter.1 complete).2
  · obtain ⟨-, kept⟩ := Option.filter_eq_some_iff.1 (Option.mem_toList.1 unfinished)
    simpa using kept

variable (table : LooseTable) (more : List LooseTable) (unfinished : Option LooseTable)

theorem countLeftOut_cons (leftOut : String → Bool) :
    countLeftOut leftOut ⟨table :: more, unfinished⟩ =
      countLeftOut leftOut ⟨more, unfinished⟩ + if leftOut table.name then 1 else 0 :=
  List.countP_cons

theorem events_cons :
    events ⟨table :: more, unfinished⟩ = table.events ++ events ⟨more, unfinished⟩ := by
  simp [events]

variable {table more unfinished} {leftOut : String → Bool}

theorem without_cons_of_leftOut (h : leftOut table.name = true) :
    without leftOut ⟨table :: more, unfinished⟩ = without leftOut ⟨more, unfinished⟩ := by
  simp [without, h]

theorem without_cons_of_kept (h : ¬ leftOut table.name = true) :
    without leftOut ⟨table :: more, unfinished⟩ =
      ⟨table :: (without leftOut ⟨more, unfinished⟩).complete,
        (without leftOut ⟨more, unfinished⟩).unfinished⟩ := by
  simp [without, h]

end Trace

namespace Rendition

variable {options : Options} {progress : Progress}

/-- What a table holds is accepted in it, and leaves it as it is. -/
theorem ofEvents_content {suppressed : Bool} (inside : progress.state = .inside suppressed)
    {events : List Event} (content : ∀ event ∈ events, event.IsContent) :
    ∃ text reached, ofEvents options progress events = ⟨text, reached, none⟩ ∧
      reached.state = .inside suppressed := by
  induction events generalizing progress with
  | nil => exact ⟨"", progress, rfl, inside⟩
  | cons event more ih =>
    obtain ⟨held, rest⟩ := List.forall_mem_cons.1 content
    cases planned : Plan.ofEvent options progress event with
    | error fault =>
      have offends := (Plan.ofEvent_eq_error_iff event fault).1 planned
      rw [inside] at offends
      cases event <;> simp [Event.IsContent, Event.offence?, TableState.isInside] at held offends
    | ok plan =>
      have stays := Plan.state_last_of_isContent held planned
      obtain ⟨text, reached, behind, state⟩ := ih (stays.trans inside) rest
      rw [ofEvents_cons planned, behind]
      exact ⟨_, reached, rfl, state⟩

/-- A table that has begun is accepted between tables. -/
theorem ofEvents_opening (options : Options) (idle : progress.state = .idle)
    (table : LooseTable) :
    ∃ text reached, ofEvents options progress table.opening = ⟨text, reached, none⟩ ∧
      reached.state = .inside (options.discards table.name) := by
  have begins : Plan.ofEvent options progress (.tableBegin table.kind table.name) =
      .ok (Plan.beginTable options progress table.name) := by
    simp [Plan.ofEvent, idle]
  have opened : (Action.last (Plan.beginTable options progress table.name) progress).state =
      .inside (options.discards table.name) := by
    rw [Plan.last_beginTable]
    cases options.discards table.name <;> rfl
  obtain ⟨text, reached, behind, state⟩ := ofEvents_content opened table.isContent
  rw [LooseTable.opening, ofEvents_cons begins, behind]
  exact ⟨_, reached, rfl, state⟩

/-- A table leads back between tables. -/
theorem ofEvents_looseTable (options : Options) (idle : progress.state = .idle)
    (table : LooseTable) :
    ∃ text reached, ofEvents options progress table.events = ⟨text, reached, none⟩ ∧
      reached.state = .idle := by
  obtain ⟨text, opened, opening, state⟩ := ofEvents_opening options idle table
  rw [LooseTable.events, ofEvents_append opening, ofEvents_tableEnd options opened _ state]
  exact ⟨_, _, rfl, rfl⟩

/-- A discarded table that has begun is counted, and nothing else comes of it. -/
theorem ofEvents_opening_suppressed (idle : progress.state = .idle) {table : LooseTable}
    (suppressed : options.filter.suppresses table.name = true) :
    ofEvents options progress table.opening = ⟨"", progress.see.suppress, none⟩ := by
  have begins : Plan.ofEvent options progress (.tableBegin table.kind table.name) =
      .ok (Plan.beginTable options progress table.name) := by
    simp [Plan.ofEvent, idle]
  have discarded : options.discards table.name = true := by
    simp [Options.discards, suppressed]
  rw [LooseTable.opening, ofEvents_cons begins, Plan.last_beginTable, if_pos discarded,
    ofEvents_suppressed options _ rfl _ table.isContent, Plan.join_texts_beginTable,
    if_pos suppressed, behind_empty]

/-- A discarded table leads back to where it began, counted. -/
theorem ofEvents_suppressed_table (idle : progress.state = .idle) {table : LooseTable}
    (suppressed : options.filter.suppresses table.name = true) :
    ofEvents options progress table.events = ⟨"", progress.count ⟨1, 0, 1, 0⟩, none⟩ := by
  rw [LooseTable.events, ofEvents_append (ofEvents_opening_suppressed idle suppressed),
    ofEvents_tableEnd options _ true rfl, behind_empty]
  simp only [Progress.count, Progress.see, Progress.suppress, ← idle]
  rfl

/-- Two renditions write the same and succeed, and the first has counted some more tables, all
of them suppressed. -/
def DiffersBy (more : Nat) (a b : Rendition) : Prop :=
  a.text = b.text ∧ a.fault = none ∧ b.fault = none ∧
    a.progress.summary = b.progress.summary + ⟨more, 0, more, 0⟩

theorem differsBy_zero {a : Rendition} (accepted : a.fault = none) : a.DiffersBy 0 a :=
  ⟨rfl, accepted, accepted, rfl⟩

theorem DiffersBy.behind {more : Nat} {a b : Rendition} (h : a.DiffersBy more b)
    (text : String) : (a.behind text).DiffersBy more (b.behind text) :=
  ⟨congrArg (text ++ ·) h.1, h.2⟩

/-- One more suppressed table in front makes one more. -/
theorem DiffersBy.count {more : Nat} {a b : Rendition} (h : a.DiffersBy more b) :
    (a.count ⟨1, 0, 1, 0⟩).DiffersBy (more + 1) b := by
  obtain ⟨text, accepted, accepted', counted⟩ := h
  refine ⟨text, accepted, accepted', ?_⟩
  change a.progress.summary + ⟨1, 0, 1, 0⟩ = _
  rw [counted, Summary.add_assoc]
  rfl

/-- A table that does not end can be left out if it is discarded. -/
theorem ofEvents_unfinished_without (idle : progress.state = .idle) (table : LooseTable) :
    (ofEvents options progress (Trace.mk [] (some table)).events).DiffersBy
      ((Trace.mk [] (some table)).countLeftOut options.filter.suppresses)
      (ofEvents options progress
        ((Trace.mk [] (some table)).without options.filter.suppresses).events) := by
  have opened : (Trace.mk [] (some table)).events = table.opening := by simp [Trace.events]
  rw [opened]
  by_cases suppressed : options.filter.suppresses table.name
  · have empty : (Trace.mk [] (some table)).without options.filter.suppresses = ⟨[], none⟩ := by
      simp [Trace.without, suppressed]
    have one : (Trace.mk [] (some table)).countLeftOut options.filter.suppresses = 1 := by
      simp [Trace.countLeftOut, Trace.tables, suppressed]
    rw [ofEvents_opening_suppressed idle suppressed, empty, one]
    exact ⟨rfl, rfl, rfl, rfl⟩
  · obtain ⟨text, reached, opening, -⟩ := ofEvents_opening options idle table
    have same : (Trace.mk [] (some table)).without options.filter.suppresses =
        ⟨[], some table⟩ := by
      simp [Trace.without, suppressed]
    have zero : (Trace.mk [] (some table)).countLeftOut options.filter.suppresses = 0 := by
      simp [Trace.countLeftOut, Trace.tables, suppressed]
    rw [same, zero, opened, opening]
    exact differsBy_zero rfl

/-- Without the tables that are discarded the same is written, and fewer tables are counted. -/
theorem ofEvents_without (options : Options) (idle : progress.state = .idle) (trace : Trace) :
    (ofEvents options progress trace.events).DiffersBy
      (trace.countLeftOut options.filter.suppresses)
      (ofEvents options progress (trace.without options.filter.suppresses).events) := by
  obtain ⟨complete, unfinished⟩ := trace
  induction complete generalizing progress with
  | nil =>
    cases unfinished with
    | none => exact differsBy_zero rfl
    | some table => exact ofEvents_unfinished_without idle table
  | cons table more ih =>
    rw [Trace.events_cons]
    by_cases suppressed : options.filter.suppresses table.name
    · rw [Trace.without_cons_of_leftOut suppressed,
        ofEvents_append (ofEvents_suppressed_table idle suppressed), ofEvents_count, behind_empty,
        Trace.countLeftOut_cons, if_pos suppressed]
      exact (ih idle).count
    · obtain ⟨text, reached, first, idle'⟩ := ofEvents_looseTable options idle table
      rw [Trace.without_cons_of_kept suppressed, Trace.events_cons, ofEvents_append first,
        ofEvents_append first, Trace.countLeftOut_cons, if_neg suppressed]
      exact (ih idle').behind text

end Rendition

section Faithful

variable {σ : Type} [Sink σ] {sound : σ → Prop} {held : σ → ByteArray}

/-- Over a sink that never fails, a conversion with the filter of two lists of names stores what
the conversion of everything stores for the trace without the tables that the lists leave out.
Both succeed, and their counters differ by these tables, each seen and suppressed. -/
theorem convert_without (faithful : Sink.Faithful sound held) {out : σ} (start : sound out)
    {included excluded : List String} {filter : Filter}
    (accepted : Filter.ofLists? included excluded = some filter) (separator : String)
    (namesOnly : Bool) (trace : Trace) :
    let leftOut := Filter.leavesOut included excluded
    let filtered := convert ⟨separator, filter, namesOnly⟩ out (trace.events.map .ok)
    let everything := convert ⟨separator, .all, namesOnly⟩ out
      ((trace.without leftOut).events.map .ok)
    held filtered.out = held everything.out ∧
      ∃ summary, everything.result = .ok summary ∧
        filtered.result = .ok (summary +
          ⟨trace.countLeftOut leftOut, 0, trace.countLeftOut leftOut, 0⟩) := by
  intro leftOut filtered everything
  have same : filter.suppresses = leftOut := funext (Filter.suppresses_eq_leavesOut accepted)
  have kept : Rendition.ofEvents ⟨separator, .all, namesOnly⟩ .initial
      (trace.without leftOut).events =
        Rendition.ofEvents ⟨separator, filter, namesOnly⟩ .initial
          (trace.without leftOut).events := by
    apply Rendition.ofEvents_congr
    intro kind name begins
    obtain ⟨table, member, rfl⟩ := Trace.exists_of_mem_events begins
    rw [same, Trace.not_leftOut_of_mem_without member, Filter.suppresses_all]
  obtain ⟨ended, grown⟩ := convert_events_faithful faithful start
    ⟨separator, filter, namesOnly⟩ trace.events
  obtain ⟨ended', grown'⟩ := convert_events_faithful faithful start
    ⟨separator, .all, namesOnly⟩ (trace.without leftOut).events
  have differs := Rendition.ofEvents_without ⟨separator, filter, namesOnly⟩
    (show Progress.initial.state = .idle from rfl) trace
  rw [same, ← kept] at differs
  obtain ⟨text, fault, fault', counted⟩ := differs
  refine ⟨?_, _, ended'.trans (Rendition.result_of_handled fault'), ?_⟩
  · rw [grown.held, grown'.held, text]
  · rw [ended, Rendition.result_of_handled fault, counted]

/-- The second of three tables is left out, with fields that stand in no row, and so is the last
one, which does not end. -/
theorem convert_without_two :
    let table (name : String) (content : List Event)
        (isContent : ∀ event ∈ content, event.IsContent) : LooseTable :=
      ⟨.basic, name, content, isContent⟩
    let trace : Trace := ⟨[table "A" [.rowEnd, .rowEnd] (by simp [Event.IsContent]),
      table "B" [.cellValue (.bool true), .cellValue (.bool false)] (by simp [Event.IsContent]),
      table "C" [.cellValue (.uint64 1)] (by simp [Event.IsContent])],
      some (table "B" [.rowBegin] (by simp [Event.IsContent]))⟩
    let filtered := convert ⟨",", .allBut ["B"], false⟩ Buffer.unlimited (trace.events.map .ok)
    Buffer.unlimited.Unlimited ∧ Filter.ofLists? [] ["B"] = some (.allBut ["B"]) ∧
      filtered.out.written = "\"A\"\n\n\n\n\"C\"\n1".toUTF8 ∧
      filtered.result = .ok ⟨4, 2, 2, 2⟩ := by
  intro table trace filtered
  have start : Buffer.unlimited.Unlimited := ⟨rfl, rfl⟩
  have accepted : Filter.ofLists? [] ["B"] = some (.allBut ["B"]) := rfl
  obtain ⟨stored, summary, all, result⟩ :=
    convert_without Buffer.faithful start accepted "," false trace
  refine ⟨start, accepted, ?_, ?_⟩
  · rw [stored]
    cbv
  · have two : summary = ⟨2, 2, 0, 2⟩ := Except.ok.inj (all.symm.trans (by cbv))
    rw [result, two]
    cbv

end Faithful

end TraceTables
