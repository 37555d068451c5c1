import TraceTables.Event
import TraceTables.Json.Members
import TraceTables.Json.Tagged

/-!
# Reading an event

One line of JSON describes one event: the word of the event, with its payload if it has
one. Kinds, types and values are words in the same way.
-/

namespace TraceTables.Json

/-- The kinds of tables. -/
def tableKinds : List (Variant TableKind) :=
  [TableKind.basic, .keyValue].map fun kind => .plain kind.word kind

/-- The types of columns. -/
def columnTypes : List (Variant ColumnType) :=
  [ColumnType.uint64, .string, .bool].map fun type => .plain type.word type

/-- The values of cells. -/
def values : List (Variant Value) :=
  [.withValue "uint64" fun s => (readUInt64 s).map (·.map .uint64),
    .withValue "string" fun s => (readString s).map (·.map .string),
    .withValue "bool" fun s => (readBool s).map (·.map .bool)]

/-- The members of an event that names something of a certain type. -/
structure Named (τ : Type) where
  type : Option τ
  name : Option String

namespace Named

variable {τ : Type}

/-- The member that holds the type. -/
def typeMember (key : String) (types : List (Variant τ)) : Member (Named τ) where
  name := key
  read record s :=
    (readVariant types s).map (·.map fun type => { record with type := some type })
  present record := record.type.isSome

/-- The member that holds the name. -/
def nameMember : Member (Named τ) where
  name := "name"
  read record s := (readString s).map (·.map fun name => { record with name := some name })
  present record := record.name.isSome

/-- The members of an event that names something, under the given key for its type. -/
def shape (event typeKey : String) (types : List (Variant τ)) (make : τ → String → Event) :
    Shape (Named τ) Event where
  event := event
  members := [typeMember typeKey types, nameMember]
  empty := ⟨none, none⟩
  complete
    | ⟨none, _⟩ => .error typeKey
    | ⟨some _, none⟩ => .error "name"
    | ⟨some type, some name⟩ => .ok (make type name)

end Named

/-- The members of a table's beginning. -/
def tableBeginShape : Shape (Named TableKind) Event :=
  Named.shape "TableBegin" "kind" tableKinds .tableBegin

/-- The members of a column's declaration. -/
def columnDeclareShape : Shape (Named ColumnType) Event :=
  Named.shape "ColumnDeclare" "column_type" columnTypes .columnDeclare

/-- The only member of an error. -/
def messageMember : Member (Option String) where
  name := "message"
  read _ s := (readString s).map (·.map some)
  present := Option.isSome

/-- The members of an error. -/
def errorShape : Shape (Option String) Event where
  event := "Error"
  members := [messageMember]
  empty := none
  complete
    | none => .error "message"
    | some message => .ok (.error message)

/-- The events. -/
def events : List (Variant Event) :=
  [.withMembers "table_begin" tableBeginShape.read,
    .withMembers "column_declare" columnDeclareShape.read,
    .plain "row_begin" .rowBegin,
    .withValue "cell_value" fun s => (readVariant values s).map (·.map .cellValue),
    .plain "row_end" .rowEnd,
    .plain "table_end" .tableEnd,
    .withMembers "error" errorShape.read]

/-- Reads an event that takes all characters of a line. -/
def readLine (s : List Char) : Except Refusal Event := do
  let event ← readVariant events s
  match skipSpace event.rest with
  | [] => .ok event.value
  | rest => .error (.next .trailingCharacters rest)

/-- The event that a line describes. -/
def readEvent (line : String) : Except Malformed Event :=
  match readLine line.toList with
  | .ok event => .ok event
  | .error refusal =>
    .error ⟨refusal.cause, refusal.left.map fun left => line.utf8ByteSize - left⟩

end TraceTables.Json
