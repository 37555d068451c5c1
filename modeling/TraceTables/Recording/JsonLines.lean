import TraceTables.Json.Print
import TraceTables.Json.Read
import TraceTables.Recording.Basic
import TraceTables.Recording.Lines
import TraceTables.Recording.Pieces
import TraceTables.Text.Blank

/-!
# Recordings as lines of JSON

Every line that is not blank describes one event. Reading stops at the first line that is
not text or not an event. A line that the end of the input cuts off counts as a line; one
that a failing read cuts off is lost.
-/

namespace TraceTables.JsonLines

/-- The lines of an input, without the last one if it is empty or lost. -/
def lines (input : Input) : List ByteArray :=
  let cut := Lines.cut input.bytes
  if input.fault.isNone ∧ cut.current.size ≠ 0 then (cut.ended.push cut.current).toList
  else cut.ended.toList

/-- A place between two lines, or the place where reading was given up. -/
structure Source where
  /-- The lines from here on. -/
  lines : List ByteArray
  /-- The fault behind the last of them. -/
  fault : Option DeviceFault
  /-- How many lines have been read before. -/
  number : Nat
  failed : Bool

namespace Source

/-- The beginning of an input. -/
def start (input : Input) : Source :=
  ⟨JsonLines.lines input, input.fault, 0, false⟩

/-- Passes over blank lines and reads the event of the next line; `number` lines have been
read before. -/
def nextLine (fault : Option DeviceFault) (number : Nat) :
    List ByteArray → Option Item × Source
  | [] =>
    match fault with
    | some cause => (some (.error (.device cause)), ⟨[], fault, number, true⟩)
    | none => (none, ⟨[], fault, number, false⟩)
  | line :: rest =>
    match Text.Utf8.decode line with
    | .error _ => (some (.error (.device .notText)), ⟨rest, fault, number, true⟩)
    | .ok text =>
      if Text.isBlank text.toList then nextLine fault (number + 1) rest
      else
        match Json.readEvent text with
        | .ok event => (some (.ok event), ⟨rest, fault, number + 1, false⟩)
        | .error malformed =>
          (some (.error (.malformedEvent (.line (number + 1)) (.json malformed))),
            ⟨rest, fault, number + 1, true⟩)

/-- Reads the next event. -/
def next (source : Source) : Option Item × Source :=
  if source.failed then (none, source)
  else nextLine source.fault source.number source.lines

theorem next_of_failed {source : Source} (h : source.failed = true) :
    source.next = (none, source) := by
  simp [next, h]

/-- A line is taken for every event. -/
theorem length_lt_of_nextLine {fault : Option DeviceFault} {number : Nat}
    {lines : List ByteArray} {event : Event} {rest : Source}
    (h : nextLine fault number lines = (some (.ok event), rest)) :
    rest.lines.length < lines.length := by
  induction lines generalizing number with
  | nil => cases fault <;> cases h
  | cons line more ih =>
    unfold nextLine at h
    repeat' split at h
    · cases h
    · exact Nat.lt_succ_of_lt (ih h)
    · cases h
      exact Nat.lt_succ_self _
    · cases h

/-- A fault is remembered, and behind the last line there is nothing to read. -/
theorem next_of_nextLine {fault : Option DeviceFault} {number : Nat} {lines : List ByteArray}
    {item : Option Item} {rest : Source} (h : nextLine fault number lines = (item, rest))
    (other : ∀ event, item ≠ some (.ok event)) : rest.next = (none, rest) := by
  induction lines generalizing number with
  | nil =>
    cases fault with
    | some cause =>
      cases h
      exact next_of_failed rfl
    | none =>
      cases h
      rfl
  | cons line more ih =>
    unfold nextLine at h
    repeat' split at h
    · cases h
      exact next_of_failed rfl
    · exact ih h
    · cases h
      exact absurd rfl (other _)
    · cases h
      exact next_of_failed rfl

instance : TraceTables.Source Source where
  next := next
  size source := source.lines.length
  shrinks h := by
    unfold next at h
    split at h
    · cases h
    · exact length_lt_of_nextLine h
  stops h other := by
    unfold next at h
    split at h
    · cases h
      exact next_of_failed ‹_›
    · exact next_of_nextLine h other

end Source

/-- Reads a recording. -/
def read (input : Input) : Reading :=
  TraceTables.Source.read (Source.start input)

/-- The octets that record an event. -/
def encode (event : Event) : ByteArray :=
  (Json.printEvent event ++ "\n").toUTF8

/-- The pieces in which an event is recorded. The end of its line is one of them. -/
def pieces (event : Event) : List ByteArray :=
  (Json.eventPieces event ++ ["\n"]).map String.toUTF8

theorem join_pieces (event : Event) : joinOctets (pieces event) = encode event := by
  rw [pieces, joinOctets_map_toUTF8, String.join_append, Json.join_eventPieces, encode]
  simp

end TraceTables.JsonLines
