import TraceTables.Binary.LittleEndian
import TraceTables.Event

/-!
# Writing a binary event

The octets of an event: the number of its variant and then what it holds, in the form in
which `Binary.Decode` reads them.
-/

namespace TraceTables.Binary

/-- A number of the given width. -/
def encodeNumber (width n : Nat) : ByteArray :=
  (octets width n).toByteArray

/-- A text, behind the number of its octets. -/
def encodeText (text : String) : ByteArray :=
  encodeNumber 8 text.utf8ByteSize ++ text.toUTF8

/-- The variant of a kind of table. -/
def tableKindVariant : TableKind → Fin 2
  | .basic => 0
  | .keyValue => 1

/-- A kind of table. -/
def encodeTableKind (kind : TableKind) : ByteArray :=
  encodeNumber 4 (tableKindVariant kind)

/-- The variant of a column type. -/
def columnTypeVariant : ColumnType → Fin 3
  | .uint64 => 0
  | .string => 1
  | .bool => 2

/-- A column type. -/
def encodeColumnType (type : ColumnType) : ByteArray :=
  encodeNumber 4 (columnTypeVariant type)

/-- The variant of a value. -/
def valueVariant : Value → Fin 3
  | .uint64 _ => 0
  | .string _ => 1
  | .bool _ => 2

/-- What a value of its variant holds. -/
def encodeContent : Value → ByteArray
  | .uint64 n => encodeNumber 8 n.toNat
  | .string text => encodeText text
  | .bool flag => encodeNumber 1 flag.toNat

/-- The value of a cell. -/
def encodeValue (value : Value) : ByteArray :=
  encodeNumber 4 (valueVariant value) ++ encodeContent value

/-- The variant of an event. -/
def eventVariant : Event → Fin 7
  | .tableBegin .. => 0
  | .columnDeclare .. => 1
  | .rowBegin => 2
  | .cellValue _ => 3
  | .rowEnd => 4
  | .tableEnd => 5
  | .error _ => 6

/-- What an event of its variant holds. -/
def encodePayload : Event → ByteArray
  | .tableBegin kind name => encodeTableKind kind ++ encodeText name
  | .columnDeclare type name => encodeColumnType type ++ encodeText name
  | .cellValue value => encodeValue value
  | .error message => encodeText message
  | .rowBegin | .rowEnd | .tableEnd => .empty

/-- An event. -/
def encodeEvent (event : Event) : ByteArray :=
  encodeNumber 4 (eventVariant event) ++ encodePayload event

@[simp] theorem toList_encodeNumber (width n : Nat) :
    (encodeNumber width n).data.toList = octets width n := by
  simp [encodeNumber]

end TraceTables.Binary
