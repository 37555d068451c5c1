import TraceTables.Binary.Encode
import TraceTables.Json.Print
import TraceTables.Sink

/-!
# Events in pieces

An event is not recorded by a single write. Its line is handed on mark by mark, and a string
in it as its escapes and the stretches between them. A binary event is handed on number by
number, and a text in it as its octets behind their number. So a write may fail behind any of
the pieces, or inside one.

`join_eventPieces` says of both forms that the pieces make up the event.
-/

namespace TraceTables

namespace Json

/-- The pieces of a string: its quotes, its escapes and the stretches between these. -/
def stringPieces (text : String) : List String :=
  "\"" :: Text.pieces escape text ++ ["\""]

/-- The pieces of an object with the given members, whose values are already cut. -/
def objectPieces (members : List (String × List String)) : List String :=
  "\x7b" ::
    [","].intercalate (members.map fun member => stringPieces member.1 ++ ":" :: member.2) ++
    ["\x7d"]

/-- The pieces of what a value holds. Only a string has more than one. -/
def valuePieces : Value → List String
  | .string text => stringPieces text
  | value => [valuePayload value]

/-- The pieces of the line that describes an event, without its end. -/
def eventPieces (event : Event) : List String :=
  match event with
  | .tableBegin kind name =>
    objectPieces [(event.word,
      objectPieces [("kind", stringPieces kind.word), ("name", stringPieces name)])]
  | .columnDeclare type name =>
    objectPieces [(event.word,
      objectPieces [("column_type", stringPieces type.word), ("name", stringPieces name)])]
  | .cellValue value =>
    objectPieces [(event.word, objectPieces [(value.word, valuePieces value)])]
  | .error message =>
    objectPieces [(event.word, objectPieces [("message", stringPieces message)])]
  | .rowBegin | .rowEnd | .tableEnd => stringPieces event.word

@[simp] theorem join_stringPieces (text : String) :
    String.join (stringPieces text) = string text := by
  simp [stringPieces, string, Text.join_pieces, String.join_append, String.append_assoc]

/-- Parts with a separator between them, whichever is put together first. -/
theorem join_intercalate (separator : String) (parts : List (List String)) :
    String.join ([separator].intercalate parts) =
      separator.intercalate (parts.map String.join) := by
  induction parts with
  | nil => simp
  | cons part more ih =>
    cases more with
    | nil => simp
    | cons next rest =>
      simp only [List.map_cons] at ih ⊢
      rw [List.intercalate_cons_cons, String.intercalate_cons_cons, String.join_append,
        String.join_append, ih]
      simp

@[simp] theorem join_objectPieces (members : List (String × List String)) :
    String.join (objectPieces members) =
      object (members.map fun member => (member.1, String.join member.2)) := by
  rw [objectPieces, List.cons_append, String.join_cons, String.join_append, join_intercalate]
  simp [object, Function.comp_def, String.join_append, String.append_assoc]

@[simp] theorem join_valuePieces (value : Value) :
    String.join (valuePieces value) = valuePayload value := by
  cases value <;> simp [valuePieces, valuePayload]

/-- The pieces make up the line. -/
theorem join_eventPieces (event : Event) : String.join (eventPieces event) = printEvent event := by
  cases event <;> simp [eventPieces, printEvent]

end Json

namespace Binary

/-- The pieces of a text: the number of its octets, and the octets. -/
def textPieces (text : String) : List ByteArray :=
  [encodeNumber 8 text.utf8ByteSize, text.toUTF8]

/-- The pieces of what a value holds. Only a text has more than one. -/
def contentPieces : Value → List ByteArray
  | .string text => textPieces text
  | value => [encodeContent value]

/-- The pieces of what an event holds. -/
def payloadPieces : Event → List ByteArray
  | .tableBegin kind name => encodeTableKind kind :: textPieces name
  | .columnDeclare type name => encodeColumnType type :: textPieces name
  | .cellValue value => encodeNumber 4 (valueVariant value) :: contentPieces value
  | .error message => textPieces message
  | .rowBegin | .rowEnd | .tableEnd => []

/-- The pieces of an event. -/
def eventPieces (event : Event) : List ByteArray :=
  encodeNumber 4 (eventVariant event) :: payloadPieces event

@[simp] theorem join_textPieces (text : String) : joinOctets (textPieces text) = encodeText text := by
  simp [textPieces, encodeText]

@[simp] theorem join_contentPieces (value : Value) :
    joinOctets (contentPieces value) = encodeContent value := by
  cases value <;> simp [contentPieces, encodeContent]

@[simp] theorem join_payloadPieces (event : Event) :
    joinOctets (payloadPieces event) = encodePayload event := by
  cases event <;> simp [payloadPieces, encodePayload, encodeValue]

/-- The pieces make up the event. -/
theorem join_eventPieces (event : Event) : joinOctets (eventPieces event) = encodeEvent event := by
  simp [eventPieces, encodeEvent]

end Binary

end TraceTables
