import TraceTables.Binary.Decode
import TraceTables.Recording.Pieces

/-!
# Binary recordings

A binary recording is the octets of its events one after the other, with nothing before,
between or behind them. Reading stops at the first event that is malformed. Where an
event should begin the input may end, and a read that fails there is a fault of the
device, not of an event.
-/

namespace TraceTables.BinaryStream

open Binary

/-- A place between two events of an input, or the place where reading was given up. -/
structure Source (input : Input) where
  position : Nat
  inside : position ≤ input.bytes.size
  /-- How many events have been read before. -/
  index : Nat
  failed : Bool

namespace Source

variable {input : Input}

/-- The beginning of an input. -/
def start (input : Input) : Source input :=
  ⟨0, Nat.zero_le _, 0, false⟩

/-- Reads the next event. -/
def next (source : Source input) : Option Item × Source input :=
  if source.failed then (none, source)
  else if source.position = input.bytes.size then
    match input.fault with
    | some fault => (some (.error (.device fault)), { source with failed := true })
    | none => (none, source)
  else
    match Decoder.event ⟨source.position, maxEventSize, source.inside⟩ with
    | .ok (event, cursor) =>
      (some (.ok event), ⟨cursor.position, cursor.inside, source.index + 1, false⟩)
    | .error cause =>
      (some (.error (.malformedEvent (.event source.index) (.binary cause))),
        { source with index := source.index + 1, failed := true })

theorem next_of_failed {source : Source input} (h : source.failed = true) :
    source.next = (none, source) := by
  simp [next, h]

/-- An event is yielded where one can be read, and the next one is looked for behind it. -/
theorem next_eq_event {source rest : Source input} {event : Event}
    (h : source.next = (some (.ok event), rest)) :
    source.failed = false ∧ ∃ cursor,
      Decoder.event ⟨source.position, maxEventSize, source.inside⟩ = .ok (event, cursor) ∧
        rest = ⟨cursor.position, cursor.inside, source.index + 1, false⟩ := by
  unfold next at h
  repeat' split at h
  all_goals cases h
  rename_i sound _ _ cursor decoded
  exact ⟨by simpa using sound, cursor, decoded, rfl⟩

/-- A fault is remembered, and the end of the input stays where it is. -/
theorem failed_or_eq_of_next {source rest : Source input} {item : Option Item}
    (h : source.next = (item, rest)) (other : ∀ event, item ≠ some (.ok event)) :
    rest.failed = true ∨ item = none ∧ rest = source := by
  unfold next at h
  repeat' split at h
  all_goals cases h
  · exact .inr ⟨rfl, rfl⟩
  · exact .inl rfl
  · exact .inr ⟨rfl, rfl⟩
  · exact absurd rfl (other _)
  · exact .inl rfl

/-- Octets are taken for every event. -/
theorem left_lt_of_next {source rest : Source input} {event : Event}
    (h : source.next = (some (.ok event), rest)) :
    input.bytes.size - rest.position < input.bytes.size - source.position := by
  obtain ⟨-, cursor, decoded, rfl⟩ := next_eq_event h
  have := Decoder.advances_event decoded
  have := cursor.inside
  simp only at *
  omega

instance : TraceTables.Source (Source input) where
  next := next
  size source := input.bytes.size - source.position
  shrinks := left_lt_of_next
  stops h other := by
    rcases failed_or_eq_of_next h other with failed | ⟨rfl, rfl⟩
    · exact next_of_failed failed
    · exact h

end Source

/-- Reads a recording. -/
def read (input : Input) : Reading :=
  TraceTables.Source.read (Source.start input)

/-- The octets that record an event, unless they are too many. -/
def encode (event : Event) : Except Cause ByteArray :=
  let bytes := encodeEvent event
  if bytes.size ≤ maxEventSize then .ok bytes else .error .sizeLimit

/-- The pieces in which an event is recorded, unless its octets are too many. The size is found
out before any of them is written. -/
def pieces (event : Event) : Except Cause (List ByteArray) :=
  (encode event).map fun _ => eventPieces event

theorem join_pieces (event : Event) : (pieces event).map joinOctets = encode event := by
  rw [pieces, encode]
  split
  · exact congrArg Except.ok (join_eventPieces event)
  · rfl

end TraceTables.BinaryStream
