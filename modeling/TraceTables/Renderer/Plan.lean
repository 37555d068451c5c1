import TraceTables.Event
import TraceTables.Field
import TraceTables.Renderer.Progress

/-!
# What an event does

An event is answered by a plan: texts to write, tables to remark on, and states that are
reached once all the texts before them have been written. When a write fails the rest of
the plan is dropped, so the plan shows what a failure leaves behind. An event that cannot
occur where it does has no plan but a fault.

The layout is this. A table begins with its quoted name on a line. Each row is a line of
its fields, which the separator divides: column names and texts are quoted, numbers are
decimal and truth values are `TRUE` and `FALSE`. A blank line stands between two tables.
-/

namespace TraceTables

/-- One part of a plan. -/
inductive Action where
  | write (text : String)
  | reach (progress : Progress)
  /-- Remark that the filter discards the table of this name. -/
  | discard (name : String)
  deriving DecidableEq

namespace Action

/-- The texts that a plan writes. -/
def texts (plan : List Action) : List String :=
  plan.filterMap fun
    | .write text => some text
    | .reach _ | .discard _ => none

/-- The state in which a plan ends that starts in the given one. -/
def last (plan : List Action) (progress : Progress) : Progress :=
  plan.foldl (fun current action =>
    match action with
    | .write _ | .discard _ => current
    | .reach progress => progress) progress

/-- Writes texts one after the other. -/
def writeEach (texts : List String) : List Action :=
  texts.map .write

end Action

namespace Progress

/-- The counters with one more table discarded. -/
def suppress (progress : Progress) : Progress :=
  { progress with
    state := .inside true
    summary := { progress.summary with
      tablesSuppressed := progress.summary.tablesSuppressed + 1 } }

/-- The state with one more table to write. -/
def openTable (progress : Progress) : Progress :=
  { progress with
    state := .inside false
    ordinal := progress.ordinal + 1
    summary := { progress.summary with
      tablesRendered := progress.summary.tablesRendered + 1 } }

/-- The state with one more table seen. -/
def see (progress : Progress) : Progress :=
  { progress with
    summary := { progress.summary with tablesSeen := progress.summary.tablesSeen + 1 } }

/-- The state with one more row written. -/
def countRow (progress : Progress) : Progress :=
  { progress with
    summary := { progress.summary with rowsWritten := progress.summary.rowsWritten + 1 } }

end Progress

namespace Plan

/-- A line with the name of a table. -/
def nameLine (name : String) : List Action :=
  Action.writeEach (Field.chunks name) ++ [.write "\n"]

/-- A table begins. Whether it is suppressed is decided here, once for all its events. -/
def beginTable (options : Options) (progress : Progress) (name : String) : List Action :=
  let seen := progress.see
  if options.filter.suppresses name then
    [.discard name, .reach seen.suppress]
  else if options.namesOnly then
    .reach seen.suppress :: nameLine name
  else
    .reach seen :: (if 0 < seen.ordinal then [.write "\n"] else []) ++
      .reach seen.openTable :: nameLine name

/-- A field of a row: the separator first, unless the field is the first of its row. -/
def addField (options : Options) (progress : Progress) (chunks : List String) : List Action :=
  (if 0 < progress.column then [.write options.separator] else []) ++
    .reach { progress with column := progress.column + 1 } :: Action.writeEach chunks

/-- The text of a value, in the chunks in which it is written. -/
def valueChunks : Value → List String
  | .uint64 n => [toString n.toNat]
  | .string text => Field.chunks text
  | .bool true => ["TRUE"]
  | .bool false => ["FALSE"]

/-- An event inside a table that is written. -/
def inTable (options : Options) (progress : Progress) : Event → List Action
  | .rowBegin => [.reach { progress with column := 0 }]
  | .columnDeclare _ name => addField options progress (Field.chunks name)
  | .cellValue value => addField options progress (valueChunks value)
  | .rowEnd => [.write "\n", .reach progress.countRow]
  | _ => []

/-- The plan of an event, or the fault of one that cannot occur. -/
def ofEvent (options : Options) (progress : Progress) (event : Event) :
    Except Fault (List Action) :=
  match event, progress.state with
  | .error message, _ => .error (.decode message)
  | .tableBegin _ name, .idle => .ok (beginTable options progress name)
  | .tableEnd, .inside _ => .ok [.reach { progress with state := .idle }]
  | .tableBegin .., .inside _ | _, .idle =>
    .error (.unexpectedEvent event.word progress.state.position)
  | _, .inside true => .ok []
  | _, .inside false => .ok (inTable options progress event)

end Plan

end TraceTables
