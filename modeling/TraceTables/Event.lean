/-!
# Events of a recorded trace

A trace describes tables. Each table is announced by its name and holds rows; a row
holds column names or cell values. An event reports one step of this description, in
the order in which the trace data occurs. Whoever decoded the trace may also report
that decoding failed: that is an event too, and the last one of use.

Every kind of event, table, column type and value has one word. Recordings spell the
kinds by these words and diagnostics name them by the same words.
-/

namespace TraceTables

/-- What a table was recorded as. A key-value table has exactly one data row; both
kinds are rendered the same way. -/
inductive TableKind where
  | basic
  | keyValue
  deriving DecidableEq

/-- The type that a column declares for its cells. -/
inductive ColumnType where
  | uint64
  | string
  | bool
  deriving DecidableEq

/-- The content of a cell. -/
inductive Value where
  | uint64 (number : UInt64)
  | string (text : String)
  | bool (flag : Bool)
  deriving DecidableEq

/-- One step in the description of a trace. Header rows and data rows are framed alike
by `rowBegin` and `rowEnd`. -/
inductive Event where
  | tableBegin (kind : TableKind) (name : String)
  | columnDeclare (type : ColumnType) (name : String)
  | rowBegin
  | cellValue (value : Value)
  | rowEnd
  | tableEnd
  /-- The decoder of the trace gave up, for the reason stated. -/
  | error (message : String)
  deriving DecidableEq

/-- The word for a kind of table. -/
def TableKind.word : TableKind → String
  | .basic => "basic"
  | .keyValue => "key_value"

/-- The word for a column type. -/
def ColumnType.word : ColumnType → String
  | .uint64 => "uint64"
  | .string => "string"
  | .bool => "bool"

/-- The word for the type of a value. -/
def Value.word : Value → String
  | .uint64 _ => "uint64"
  | .string _ => "string"
  | .bool _ => "bool"

/-- The word for what an event reports. -/
def Event.word : Event → String
  | .tableBegin .. => "table_begin"
  | .columnDeclare .. => "column_declare"
  | .rowBegin => "row_begin"
  | .cellValue _ => "cell_value"
  | .rowEnd => "row_end"
  | .tableEnd => "table_end"
  | .error _ => "error"

end TraceTables
