import Mathlib
import TraceTables.Proofs.Rendition

/-!
# The layout of complete tables

A table is complete if its rows are framed and it ends. This module states what a list of
complete tables looks like as text, without reference to events, columns or counters: the
blocks of the tables that are kept, divided by blank lines, or their names alone. It states
the counters in the same way, and proves that a conversion arrives at both.

The renderer knows no tables, only one event after the other. What it carries over is
linked to the text by two places: the column decides whether a separator comes before the
next field, and the ordinal whether a blank line comes before the next block. Both are the
place of an item in a list that is written with something between its items (`spaced`).
-/

namespace TraceTables

/-- What stands in one field of a row. -/
inductive Entry where
  | column (type : ColumnType) (name : String)
  | cell (value : Value)

namespace Entry

/-- The event that reports an entry. -/
def event : Entry → Event
  | .column type name => .columnDeclare type name
  | .cell value => .cellValue value

/-- How an entry is written. -/
def text : Entry → String
  | .column _ name => Field.quote name
  | .cell (.uint64 n) => toString n.toNat
  | .cell (.string text) => Field.quote text
  | .cell (.bool true) => "TRUE"
  | .cell (.bool false) => "FALSE"

end Entry

/-- A complete table. A row holds any number of entries, of either kind in any mix. -/
structure Table where
  kind : TableKind
  name : String
  rows : List (List Entry)

namespace Table

/-- The events of a row, framed. -/
def rowEvents (row : List Entry) : List Event :=
  .rowBegin :: (row.map Entry.event ++ [.rowEnd])

/-- The events of a table. -/
def events (table : Table) : List Event :=
  .tableBegin table.kind table.name :: (table.rows.flatMap rowEvents ++ [.tableEnd])

/-- The line of a table's name. -/
def heading (table : Table) : String :=
  Field.quote table.name ++ "\n"

/-- The line of a row. -/
def rowLine (separator : String) (row : List Entry) : String :=
  separator.intercalate (row.map Entry.text) ++ "\n"

/-- The lines of a table. -/
def block (separator : String) (table : Table) : String :=
  table.heading ++ String.join (table.rows.map (rowLine separator))

end Table

/-- Whether the rows of the table with this name are discarded. -/
def Options.discards (options : Options) (name : String) : Bool :=
  options.filter.suppresses name || options.namesOnly

/-- Whether an event reports what a table holds: it neither begins nor ends a table, nor
gives up the trace. -/
def Event.IsContent : Event → Prop
  | .tableBegin .. | .tableEnd | .error _ => False
  | _ => True

namespace Layout

/-- What a source yields that has recorded these tables. -/
def items (tables : List Table) : List Item :=
  (tables.flatMap Table.events).map .ok

/-- The tables that the filter does not discard. -/
def kept (options : Options) (tables : List Table) : List Table :=
  tables.filter fun table => !options.filter.suppresses table.name

/-- The tables that are written with their rows. -/
def rendered (options : Options) (tables : List Table) : List Table :=
  if options.namesOnly then [] else kept options tables

/-- The text of complete tables. -/
def document (options : Options) (tables : List Table) : String :=
  if options.namesOnly then String.join ((kept options tables).map Table.heading)
  else "\n".intercalate ((kept options tables).map (Table.block options.separator))

/-- The counters of complete tables. -/
def tally (options : Options) (tables : List Table) : Summary where
  tablesSeen := tables.length
  tablesRendered := (rendered options tables).length
  tablesSuppressed := tables.length - (rendered options tables).length
  rowsWritten := ((rendered options tables).map (·.rows.length)).sum

@[simp] theorem rendered_nil (options : Options) : rendered options [] = [] := by
  simp [rendered, kept]

theorem rendered_cons (options : Options) (table : Table) (more : List Table) :
    rendered options (table :: more) =
      if options.discards table.name then rendered options more
      else table :: rendered options more := by
  by_cases namesOnly : options.namesOnly <;>
    by_cases discarded : options.filter.suppresses table.name <;>
      simp [rendered, kept, Options.discards, namesOnly, discarded]

theorem length_rendered_le (options : Options) (tables : List Table) :
    (rendered options tables).length ≤ tables.length := by
  rw [rendered]
  split
  · exact Nat.zero_le _
  · exact List.length_filter_le _ _

/-- Texts with a separator between them, the first of which has the given place: only at
place zero does no separator come before it. -/
def spaced (separator : String) (place : Nat) : List String → String
  | [] => ""
  | text :: more =>
    (if 0 < place then separator else "") ++ text ++ spaced separator (place + 1) more

theorem append_spaced_succ (separator text : String) (place : Nat) (more : List String) :
    text ++ spaced separator (place + 1) more = separator.intercalate (text :: more) := by
  induction more generalizing text place with
  | nil => simp [spaced]
  | cons next more ih =>
    rw [spaced, if_pos (Nat.succ_pos place), String.intercalate_cons_cons, ← ih next (place + 1)]
    simp only [String.append_assoc]

theorem spaced_zero (separator : String) (texts : List String) :
    spaced separator 0 texts = separator.intercalate texts := by
  cases texts with
  | nil => simp [spaced]
  | cons text more => simpa [spaced] using append_spaced_succ separator text 0 more

end Layout

/-- Counters add up one by one. -/
instance : Add Summary where
  add a b :=
    ⟨a.tablesSeen + b.tablesSeen, a.tablesRendered + b.tablesRendered,
      a.tablesSuppressed + b.tablesSuppressed, a.rowsWritten + b.rowsWritten⟩

namespace Summary

@[simp] theorem tablesSeen_add (a b : Summary) :
    (a + b).tablesSeen = a.tablesSeen + b.tablesSeen := rfl

@[simp] theorem tablesRendered_add (a b : Summary) :
    (a + b).tablesRendered = a.tablesRendered + b.tablesRendered := rfl

@[simp] theorem tablesSuppressed_add (a b : Summary) :
    (a + b).tablesSuppressed = a.tablesSuppressed + b.tablesSuppressed := rfl

@[simp] theorem rowsWritten_add (a b : Summary) :
    (a + b).rowsWritten = a.rowsWritten + b.rowsWritten := rfl

theorem add_assoc (a b c : Summary) : a + b + c = a + (b + c) := by
  ext <;> simp [Nat.add_assoc]

theorem add_right_comm (a b c : Summary) : a + b + c = a + c + b := by
  ext <;> simp [Nat.add_right_comm]

@[simp] theorem add_zero (a : Summary) : a + .zero = a := rfl

@[simp] theorem zero_add (a : Summary) : .zero + a = a := by
  ext <;> simp [zero]

end Summary

/-- The counters of one table. -/
theorem Layout.tally_singleton (options : Options) (table : Table) :
    tally options [table] =
      if options.discards table.name then ⟨1, 0, 1, 0⟩
      else ⟨1, 1, 0, table.rows.length⟩ := by
  by_cases discarded : options.discards table.name <;> simp [tally, rendered_cons, discarded]

theorem Layout.tally_cons (options : Options) (table : Table) (more : List Table) :
    tally options (table :: more) = tally options [table] + tally options more := by
  have fewer := length_rendered_le options more
  rw [tally_singleton]
  by_cases discarded : options.discards table.name <;>
    ext <;> simp [tally, rendered_cons, discarded] <;> omega

namespace Plan

theorem join_texts_nameLine (name : String) :
    String.join (Action.texts (nameLine name)) = Field.quote name ++ "\n" := by
  simp [nameLine, Field.join_chunks]

theorem last_nameLine (name : String) (progress : Progress) :
    Action.last (nameLine name) progress = progress := by
  simp [nameLine]

/-- Whether a table's rows are discarded is decided when it begins. -/
theorem last_beginTable (options : Options) (progress : Progress) (name : String) :
    Action.last (beginTable options progress name) progress =
      if options.discards name then progress.see.suppress
      else progress.see.openTable := by
  by_cases discarded : options.filter.suppresses name <;>
    by_cases namesOnly : options.namesOnly <;>
      by_cases first : 0 < progress.see.ordinal <;>
        simp [beginTable, last_nameLine, Options.discards, discarded, namesOnly, first]

theorem join_texts_beginTable (options : Options) (progress : Progress) (name : String) :
    String.join (Action.texts (beginTable options progress name)) =
      if options.filter.suppresses name then ""
      else if options.namesOnly then Field.quote name ++ "\n"
      else (if 0 < progress.ordinal then "\n" else "") ++ (Field.quote name ++ "\n") := by
  by_cases discarded : options.filter.suppresses name <;>
    by_cases namesOnly : options.namesOnly <;>
      by_cases first : 0 < progress.ordinal <;>
        simp [beginTable, join_texts_nameLine, Progress.see, discarded, namesOnly, first]

theorem join_texts_addField (options : Options) (progress : Progress) (chunks : List String) :
    String.join (Action.texts (addField options progress chunks)) =
      (if 0 < progress.column then options.separator else "") ++ String.join chunks := by
  by_cases first : 0 < progress.column <;> simp [addField, first]

theorem last_addField (options : Options) (progress : Progress) (chunks : List String) :
    Action.last (addField options progress chunks) progress =
      { progress with column := progress.column + 1 } := by
  by_cases first : 0 < progress.column <;> simp [addField, first]

end Plan

namespace Rendition

open Layout

variable {options : Options} {progress : Progress}

/-! ## Rows -/

/-- The chunks in which an entry is written. -/
def entryChunks : Entry → List String
  | .column _ name => Field.chunks name
  | .cell value => Plan.valueChunks value

theorem join_entryChunks (entry : Entry) : String.join (entryChunks entry) = entry.text := by
  match entry with
  | .column _ name => exact Field.join_chunks name
  | .cell (.uint64 n) => simp [entryChunks, Plan.valueChunks, Entry.text]
  | .cell (.string text) => exact Field.join_chunks text
  | .cell (.bool true) => rfl
  | .cell (.bool false) => rfl

theorem ofEvent_entry (inside : progress.state = .inside false) (entry : Entry) :
    Plan.ofEvent options progress entry.event =
      .ok (Plan.addField options progress (entryChunks entry)) := by
  cases entry <;> simp [Entry.event, Plan.ofEvent, inside, Plan.inTable, entryChunks]

/-- The fields of a row, wherever in the row they begin. -/
theorem ofEvents_entries (options : Options) (progress : Progress)
    (inside : progress.state = .inside false) (row : List Entry) :
    ofEvents options progress (row.map Entry.event) =
      ⟨spaced options.separator progress.column (row.map Entry.text),
        { progress with column := progress.column + row.length }, none⟩ := by
  induction row generalizing progress with
  | nil => rfl
  | cons entry more ih =>
    rw [List.map_cons, ofEvents_cons (ofEvent_entry inside entry), Plan.last_addField,
      Plan.join_texts_addField, join_entryChunks,
      ih { progress with column := progress.column + 1 } inside]
    simp [behind, spaced, Nat.add_comm, Nat.add_left_comm]

theorem ofEvents_row (options : Options) (progress : Progress)
    (inside : progress.state = .inside false) (row : List Entry) :
    ofEvents options progress (Table.rowEvents row) =
      ⟨Table.rowLine options.separator row,
        { progress with column := row.length }.countRow, none⟩ := by
  have begins : Plan.ofEvent options progress .rowBegin =
      .ok [.reach { progress with column := 0 }] := by
    simp [Plan.ofEvent, inside, Plan.inTable]
  have ends : Plan.ofEvent options { progress with column := row.length } .rowEnd =
      .ok [.write "\n", .reach { progress with column := row.length }.countRow] := by
    simp [Plan.ofEvent, inside, Plan.inTable]
  have fields := ofEvents_entries options { progress with column := 0 } inside row
  simp only [spaced_zero, Nat.zero_add] at fields
  rw [Table.rowEvents, ofEvents_cons begins]
  simp only [Action.last_reach, Action.last_nil, Action.texts_reach, Action.texts_nil,
    String.join_nil, behind_empty]
  rw [ofEvents_append fields, ofEvents_cons ends]
  simp [behind, Table.rowLine]

/-- The rows of a table that is written. The column is left where the last row ended. -/
theorem ofEvents_rows (options : Options) (progress : Progress)
    (inside : progress.state = .inside false) (rows : List (List Entry)) :
    ∃ column, ofEvents options progress (rows.flatMap Table.rowEvents) =
      ⟨String.join (rows.map (Table.rowLine options.separator)),
        ⟨progress.state, progress.ordinal, column, progress.summary + ⟨0, 0, 0, rows.length⟩⟩,
        none⟩ := by
  induction rows generalizing progress with
  | nil => exact ⟨progress.column, rfl⟩
  | cons row more ih =>
    obtain ⟨column, rest⟩ := ih { progress with column := row.length }.countRow inside
    refine ⟨column, ?_⟩
    rw [List.flatMap_cons, ofEvents_append (ofEvents_row options progress inside row), rest]
    have counted :
        { progress with column := row.length }.countRow.summary + ⟨0, 0, 0, more.length⟩ =
        progress.summary + ⟨0, 0, 0, (row :: more).length⟩ := by
      ext <;> simp [Progress.countRow]
      omega
    rw [counted]
    simp [behind, Progress.countRow]

/-! ## Tables -/

/-- What a suppressed table holds leaves nothing behind. -/
theorem ofEvents_suppressed (options : Options) (progress : Progress)
    (inside : progress.state = .inside true) (events : List Event)
    (content : ∀ event ∈ events, event.IsContent) :
    ofEvents options progress events = ⟨"", progress, none⟩ := by
  induction events with
  | nil => rfl
  | cons event more ih =>
    have dropped : Plan.ofEvent options progress event = .ok [] := by
      have := content event List.mem_cons_self
      cases event <;> simp_all [Plan.ofEvent, Event.IsContent]
    rw [ofEvents_cons dropped, Action.last_nil,
      ih fun e he => content e (List.mem_cons_of_mem _ he)]
    rfl

/-- The text of one table, of which `place` others have been written before. -/
def tableText (options : Options) (place : Nat) (table : Table) : String :=
  if options.filter.suppresses table.name then ""
  else if options.namesOnly then table.heading
  else (if 0 < place then "\n" else "") ++ table.block options.separator

theorem content_rows (rows : List (List Entry)) :
    ∀ event ∈ rows.flatMap Table.rowEvents, event.IsContent := by
  intro event member
  obtain ⟨row, -, member⟩ := List.mem_flatMap.1 member
  simp only [Table.rowEvents, List.mem_cons, List.mem_append, List.mem_map] at member
  obtain rfl | ⟨entry, -, rfl⟩ | rfl | member := member
  · trivial
  · cases entry <;> trivial
  · trivial
  · cases member

theorem ofEvents_tableEnd (options : Options) (progress : Progress) (suppressed : Bool)
    (inside : progress.state = .inside suppressed) :
    ofEvents options progress [.tableEnd] = ⟨"", { progress with state := .idle }, none⟩ := by
  have ends : Plan.ofEvent options progress .tableEnd =
      .ok [.reach { progress with state := .idle }] := by
    simp [Plan.ofEvent, inside]
  rw [ofEvents_cons ends]
  simp

/-- The rest of a table that is suppressed. -/
theorem ofEvents_discarded (options : Options) (progress : Progress)
    (inside : progress.state = .inside true) (rows : List (List Entry)) :
    ofEvents options progress (rows.flatMap Table.rowEvents ++ [.tableEnd]) =
      ⟨"", { progress with state := .idle }, none⟩ := by
  rw [ofEvents_append (ofEvents_suppressed options progress inside _ (content_rows rows)),
    ofEvents_tableEnd options progress true inside, behind_empty]

/-- The rest of a table that is written. -/
theorem ofEvents_written (options : Options) (progress : Progress)
    (inside : progress.state = .inside false) (rows : List (List Entry)) :
    ∃ column, ofEvents options progress (rows.flatMap Table.rowEvents ++ [.tableEnd]) =
      ⟨String.join (rows.map (Table.rowLine options.separator)),
        ⟨.idle, progress.ordinal, column, progress.summary + ⟨0, 0, 0, rows.length⟩⟩, none⟩ := by
  obtain ⟨column, written⟩ := ofEvents_rows options progress inside rows
  refine ⟨column, ?_⟩
  rw [ofEvents_append written, ofEvents_tableEnd options _ false (by exact inside)]
  simp [behind]

/-- One table is counted once, as rendered or as suppressed, and its text depends on what
came before it only by the blank line. -/
theorem ofEvents_table (options : Options) (progress : Progress) (idle : progress.state = .idle)
    (table : Table) :
    ∃ column, ofEvents options progress table.events =
      ⟨tableText options progress.ordinal table,
        ⟨.idle, progress.ordinal + (rendered options [table]).length, column,
          progress.summary + tally options [table]⟩, none⟩ := by
  have begins : Plan.ofEvent options progress (.tableBegin table.kind table.name) =
      .ok (Plan.beginTable options progress table.name) := by
    simp [Plan.ofEvent, idle]
  rw [Table.events, ofEvents_cons begins, Plan.last_beginTable, Plan.join_texts_beginTable]
  by_cases discarded : options.discards table.name
  · refine ⟨progress.column, ?_⟩
    have counted : progress.see.suppress.summary = progress.summary + tally options [table] := by
      rw [tally_singleton, if_pos discarded]
      ext <;> simp [Progress.see, Progress.suppress]
    rw [if_pos discarded, ofEvents_discarded options _ rfl, counted, rendered_cons,
      if_pos discarded]
    by_cases suppressed : options.filter.suppresses table.name
    · simp [behind, tableText, suppressed, Progress.see, Progress.suppress]
    · have namesOnly : options.namesOnly := by simpa [Options.discards, suppressed] using discarded
      simp [behind, tableText, Table.heading, suppressed, namesOnly, Progress.see,
        Progress.suppress]
  · obtain ⟨column, written⟩ := ofEvents_written options progress.see.openTable rfl table.rows
    refine ⟨column, ?_⟩
    have counted : progress.see.openTable.summary + ⟨0, 0, 0, table.rows.length⟩ =
        progress.summary + tally options [table] := by
      rw [tally_singleton, if_neg discarded]
      ext <;> simp [Progress.see, Progress.openTable]
    rw [if_neg discarded, written, counted, rendered_cons, if_neg discarded]
    simp only [Options.discards, Bool.or_eq_true, not_or] at discarded
    simp [behind, tableText, discarded, Table.block, Table.heading, Progress.see,
      Progress.openTable, String.append_assoc]

/-- The text of tables, of which `place` others have been written before. -/
def textFrom (options : Options) (place : Nat) (tables : List Table) : String :=
  if options.namesOnly then String.join ((kept options tables).map Table.heading)
  else spaced "\n" place ((kept options tables).map (Table.block options.separator))

theorem textFrom_zero (options : Options) (tables : List Table) :
    textFrom options 0 tables = document options tables := by
  rw [textFrom, document, spaced_zero]

/-- The text of tables table by table: the place moves on by those that are written. -/
theorem textFrom_cons (options : Options) (place : Nat) (table : Table) (more : List Table) :
    textFrom options place (table :: more) =
      tableText options place table ++
        textFrom options (place + (rendered options [table]).length) more := by
  by_cases suppressed : options.filter.suppresses table.name
  · simp [textFrom, tableText, kept, rendered_cons, Options.discards, suppressed]
  · by_cases namesOnly : options.namesOnly
    · simp [textFrom, tableText, kept, suppressed, namesOnly]
    · simp [textFrom, tableText, kept, rendered_cons, Options.discards, suppressed, namesOnly,
        spaced]

/-- Complete tables from any place between tables on. -/
theorem ofEvents_tables (options : Options) (progress : Progress) (idle : progress.state = .idle)
    (tables : List Table) :
    ∃ column, ofEvents options progress (tables.flatMap Table.events) =
      ⟨textFrom options progress.ordinal tables,
        ⟨.idle, progress.ordinal + (rendered options tables).length, column,
          progress.summary + tally options tables⟩, none⟩ := by
  induction tables generalizing progress with
  | nil =>
    refine ⟨progress.column, ?_⟩
    have empty : textFrom options progress.ordinal [] = "" := by
      by_cases namesOnly : options.namesOnly <;> simp [textFrom, kept, spaced, namesOnly]
    have uncounted : tally options [] = .zero := by
      ext <;> simp [tally, Summary.zero]
    rw [empty, uncounted, Summary.add_zero]
    simp [← idle]
  | cons table more ih =>
    obtain ⟨column, first⟩ := ofEvents_table options progress idle table
    obtain ⟨column', rest⟩ := ih ⟨.idle, progress.ordinal + (rendered options [table]).length,
      column, progress.summary + tally options [table]⟩ rfl
    refine ⟨column', ?_⟩
    have places : progress.ordinal + (rendered options [table]).length +
        (rendered options more).length =
          progress.ordinal + (rendered options (table :: more)).length := by
      rw [rendered_cons, rendered_cons]
      split
      · simp
      · simp
        omega
    have counted : progress.summary + tally options [table] + tally options more =
        progress.summary + tally options (table :: more) := by
      rw [Summary.add_assoc, ← tally_cons]
    rw [List.flatMap_cons, ofEvents_append first, rest, places, counted, textFrom_cons]
    rfl

end Rendition

section Faithful

open Layout

variable {σ : Type} [Sink σ] {sound : σ → Prop} {held : σ → ByteArray}

theorem held_convert_items (faithful : Sink.Faithful sound held) {out : σ} (start : sound out)
    (options : Options) (tables : List Table) :
    held (convert options out (items tables)).out =
      held out ++ (document options tables).toUTF8 := by
  obtain ⟨column, rendition⟩ := Rendition.ofEvents_tables options .initial rfl tables
  obtain ⟨-, grown⟩ := convert_faithful faithful start options (items tables)
  rw [grown.held]
  change held out ++ (Rendition.ofEvents options .initial _).text.toUTF8 = _
  rw [rendition, Progress.initial, Rendition.textFrom_zero]

theorem result_convert_items (faithful : Sink.Faithful sound held) {out : σ} (start : sound out)
    (options : Options) (tables : List Table) :
    (convert options out (items tables)).result = .ok (tally options tables) := by
  obtain ⟨column, rendition⟩ := Rendition.ofEvents_tables options .initial rfl tables
  obtain ⟨ended, -⟩ := convert_faithful faithful start options (items tables)
  rw [ended]
  change (Rendition.ofEvents options .initial _).result = _
  rw [rendition, Rendition.result, Progress.initial, Summary.zero_add]

/-- A conversion of complete tables over a sink that never fails succeeds with their counters
and stores their document. -/
theorem convert_tables (faithful : Sink.Faithful sound held) {out : σ} (start : sound out)
    (options : Options) (tables : List Table) :
    (convert options out (items tables)).result = .ok (tally options tables) ∧
      held (convert options out (items tables)).out =
        held out ++ (document options tables).toUTF8 :=
  ⟨result_convert_items faithful start options tables,
    held_convert_items faithful start options tables⟩

/-- Two of three tables are kept, the first with a row without fields, the second with a name
and a text that need quoting. -/
theorem convert_tables_three :
    let options : Options := ⟨",", .allBut ["B"], false⟩
    let tables : List Table :=
      [⟨.basic, "A", [[.column .string "x"], []]⟩, ⟨.basic, "B", [[.cell (.bool false)]]⟩,
        ⟨.keyValue, "-C", [[.cell (.uint64 7), .cell (.bool true), .cell (.string "q\"")]]⟩]
    let run := convert options Buffer.unlimited (items tables)
    Buffer.unlimited.Unlimited ∧ run.result = .ok ⟨3, 2, 1, 3⟩ ∧
      run.out.written = "\"A\"\n\"x\"\n\n\n=\"-C\"\n7,TRUE,\"q\"\"\"\n".toUTF8 := by
  intro options tables run
  have start : Buffer.unlimited.Unlimited := ⟨rfl, rfl⟩
  have text : document options tables =
      "\"A\"\n\"x\"\n\n\n=\"-C\"\n7,TRUE,\"q\"\"\"\n" := by cbv
  obtain ⟨result, written⟩ := convert_tables Buffer.faithful start options tables
  refine ⟨start, ?_, ?_⟩
  · rw [result]
    rfl
  · rw [← text, written]
    exact ByteArray.empty_append

end Faithful

end TraceTables
