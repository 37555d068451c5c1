import TraceTables.FileName
import TraceTables.Recording.BinaryStream
import TraceTables.Recording.JsonLines
import TraceTables.Sink

/-!
# Encodings of recordings

A recording is either lines of JSON or binary. Which of them is said by the user or
found out from the extension of the file's name.
-/

namespace TraceTables

/-- How events are encoded. -/
inductive Encoding where
  | json
  | bincode
  deriving DecidableEq

/-- The encoding a user asks for. -/
inductive Format where
  /-- As the extension of the file's name says. -/
  | auto
  | given (encoding : Encoding)
  deriving DecidableEq

/-- The extensions of files that hold lines of JSON, in lower case. -/
def jsonExtensions : List (List Char) :=
  ["json".toList, "jsonl".toList, "ndjson".toList]

/-- The encoding that the extension of a path stands for. -/
def Encoding.ofPath (path : String) : Encoding :=
  match FileName.extensionOfPath? path.toList with
  | some extension =>
    if jsonExtensions.contains (extension.map Char.toLower) then .json else .bincode
  | none => .bincode

/-- The encoding of the file at a path. -/
def Format.resolve (format : Format) (path : String) : Encoding :=
  match format with
  | .auto => .ofPath path
  | .given encoding => encoding

namespace Encoding

/-- Reads a recording. -/
def read : Encoding → Input → Reading
  | .json => JsonLines.read
  | .bincode => BinaryStream.read

/-- The octets that record an event, or the fault of an event that cannot be recorded. -/
def encode : Encoding → Event → Except Fault ByteArray
  | .json, event => .ok (JsonLines.encode event)
  | .bincode, event =>
    (BinaryStream.encode event).mapError fun cause => .malformedEvent .output (.binary cause)

/-- The pieces in which an event is recorded, or its fault if it cannot be. -/
def pieces : Encoding → Event → Except Fault (List ByteArray)
  | .json, event => .ok (JsonLines.pieces event)
  | .bincode, event =>
    (BinaryStream.pieces event).mapError fun cause => .malformedEvent .output (.binary cause)

/-- The pieces make up what records the event. -/
theorem join_pieces (encoding : Encoding) (event : Event) :
    (encoding.pieces event).map joinOctets = encoding.encode event := by
  cases encoding with
  | json => exact congrArg Except.ok (JsonLines.join_pieces event)
  | bincode =>
    rw [encode, ← BinaryStream.join_pieces, pieces]
    cases BinaryStream.pieces event <;> rfl

/-- The fault of a write that fails in the middle of an event. -/
def writeFault : Encoding → DeviceFault → Fault
  | .json, fault => .device fault
  | .bincode, fault => .malformedEvent .output (.binary (.device fault))

variable {σ : Type} [Sink σ]

/-- Records events, up to the first that cannot be recorded or written, and hands on what
has been written if there is none. -/
def write (encoding : Encoding) : List Event → σ → Except Fault Unit × σ
  | [], out =>
    match Sink.flush out with
    | (.ok (), out) => (.ok (), out)
    | (.error fault, out) => (.error (.device fault), out)
  | event :: more, out =>
    match encoding.pieces event with
    | .error fault => (.error fault, out)
    | .ok pieces =>
      match Sink.writeAll pieces out with
      | (.ok (), out) => write encoding more out
      | (.error fault, out) => (.error (encoding.writeFault fault), out)

end Encoding

end TraceTables
