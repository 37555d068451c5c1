import TraceTables.Filter
import TraceTables.Fault

/-!
# The state of a rendering

What is to be rendered and how is fixed for a run. What changes with the events is small:
whether a table is open, how many tables have been written, the column within the row,
and the counters that the run ends with. No part of it grows with the size of a table.
-/

namespace TraceTables

/-- What to render and how. -/
structure Options where
  separator : String
  filter : Filter
  /-- Write the names of the tables and nothing else. -/
  namesOnly : Bool
  deriving DecidableEq

/-- The counters of a run. -/
@[ext]
structure Summary where
  /-- Tables that have begun. -/
  tablesSeen : Nat
  /-- Tables written with their rows. -/
  tablesRendered : Nat
  /-- Tables discarded by the filter, or written by name only. -/
  tablesSuppressed : Nat
  /-- Rows written, header rows among them. -/
  rowsWritten : Nat
  deriving DecidableEq

/-- The counters before the first event. -/
def Summary.zero : Summary := ⟨0, 0, 0, 0⟩

/-- Where the events are. -/
inductive TableState where
  | idle
  /-- Inside a table, the rows of which are discarded if it is suppressed. -/
  | inside (suppressed : Bool)
  deriving DecidableEq

/-- The position that is named when an event does not belong there. -/
def TableState.position : TableState → Position
  | .idle => .betweenTables
  | .inside _ => .insideTable

/-- How far a rendering has come. -/
structure Progress where
  state : TableState
  /-- How many tables have been written: a blank line stands before each but the first. -/
  ordinal : Nat
  /-- How many fields the current row has. -/
  column : Nat
  summary : Summary
  deriving DecidableEq

/-- The state before the first event. -/
def Progress.initial : Progress := ⟨.idle, 0, 0, .zero⟩

end TraceTables
