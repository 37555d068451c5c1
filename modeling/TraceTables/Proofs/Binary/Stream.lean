import TraceTables.Proofs.Binary.Accepts
import TraceTables.Proofs.Reading
import TraceTables.Proofs.Recorded

/-!
# Reading a binary recording

A binary recording has nothing between its events, so that only the octets themselves say
where one ends. A step of the source is described by the octets that are left (`Yields`): an
event is yielded exactly if its encoding comes next and is not too long. A whole reading
therefore cuts the octets into encodings, as far as that goes (`read_cut`), and there is only
one way to cut them (`read_behind`).
-/

namespace TraceTables

namespace Binary

/-- Whether an event is short enough to be recorded. -/
def Fits (event : Event) : Prop :=
  (encodeEvent event).size ≤ maxEventSize

instance : DecidablePred Fits := fun _ => inferInstanceAs (Decidable (_ ≤ _))

/-- The encodings of events, one after the other. -/
def encodeEvents : List Event → ByteArray
  | [] => .empty
  | event :: more => encodeEvent event ++ encodeEvents more

/-- Whether the encoding of an event that is not too long comes first. -/
def Begins (octets : List UInt8) : Prop :=
  ∃ event more, Fits event ∧ octets = (encodeEvent event).data.toList ++ more

@[simp] theorem encodeEvents_nil : encodeEvents [] = .empty := rfl

@[simp] theorem encodeEvents_cons (event : Event) (more : List Event) :
    encodeEvents (event :: more) = encodeEvent event ++ encodeEvents more := rfl

/-- An encoding holds at least the number of its variant. -/
theorem le_size_encodeEvent (event : Event) : 4 ≤ (encodeEvent event).size := by
  simp [encodeEvent, encodeNumber]

/-- An encoding is never empty. -/
theorem Begins.ne_nil {octets : List UInt8} (h : Begins octets) : octets ≠ [] := by
  obtain ⟨event, more, -, rfl⟩ := h
  intro empty
  have := congrArg List.length empty
  simp [encodeEvent] at this

end Binary

namespace BinaryStream.Source

open Binary

variable {input : Input} {source rest : Source input}

/-- The place to read the next event from. -/
def cursor (source : Source input) : Cursor input :=
  ⟨source.position, maxEventSize, source.inside⟩

/-- The octets that have not been read. -/
def remaining (source : Source input) : List UInt8 :=
  source.cursor.remaining

@[simp] theorem remaining_start (input : Input) :
    (start input).remaining = input.bytes.data.toList := rfl

/-- What a source that has not been given up yields next, told by what remains. -/
inductive Yields (source : Source input) : Option Item → Source input → Prop where
  | event {event : Event} {rest : Source input} (fits : Fits event)
    (octets : source.remaining = (encodeEvent event).data.toList ++ rest.remaining)
    (index : rest.index = source.index + 1) (sound : rest.failed = false) :
    Yields source (some (.ok event)) rest
  | malformed {cause : Cause} {rest : Source input} (more : source.remaining ≠ [])
    (unreadable : ¬ Begins source.remaining) :
    Yields source (some (.error (.malformedEvent (.event source.index) (.binary cause)))) rest
  | fault {cause : DeviceFault} {rest : Source input} (octets : source.remaining = [])
    (behind : input.fault = some cause) : Yields source (some (.error (.device cause))) rest
  | ended (octets : source.remaining = []) (behind : input.fault = none) : Yields source none source

theorem remaining_eq_nil_iff : source.remaining = [] ↔ source.position = input.bytes.size := by
  rw [← List.length_eq_zero_iff, remaining, Cursor.length_remaining]
  have := source.inside
  change input.bytes.size - source.position = 0 ↔ _
  omega

theorem next_of_remaining_nil (sound : source.failed = false) (octets : source.remaining = []) :
    source.next = match input.fault with
      | some fault => (some (.error (.device fault)), { source with failed := true })
      | none => (none, source) := by
  rw [next, if_neg (by simp [sound])]
  exact if_pos (remaining_eq_nil_iff.1 octets)

theorem next_of_remaining (sound : source.failed = false) (more : source.remaining ≠ []) :
    source.next = match Decoder.event source.cursor with
      | .ok (event, cursor) =>
        (some (.ok event), ⟨cursor.position, cursor.inside, source.index + 1, false⟩)
      | .error cause =>
        (some (.error (.malformedEvent (.event source.index) (.binary cause))),
          { source with index := source.index + 1, failed := true }) := by
  rw [next, if_neg (by simp [sound]), if_neg (mt remaining_eq_nil_iff.2 more)]
  rfl

/-- An event whose encoding comes next is yielded, and its encoding is passed over. -/
theorem next_of_begins (sound : source.failed = false) {event : Event} {more : List UInt8}
    (fits : Fits event) (octets : source.remaining = (encodeEvent event).data.toList ++ more) :
    ∃ rest, source.next = (some (.ok event), rest) ∧ rest.failed = false ∧
      rest.index = source.index + 1 ∧ rest.remaining = more := by
  have inside : source.position ≠ input.bytes.size := by
    rw [Ne, ← remaining_eq_nil_iff]
    exact Begins.ne_nil ⟨event, more, fits, octets⟩
  obtain ⟨behind, -, rfl, charged⟩ := source.cursor.exists_behind octets fits
  have decoded : Decoder.event ⟨source.position, maxEventSize, source.inside⟩ =
      .ok (event, behind) :=
    (Decoder.inverts_event (Nat.le_refl _)).2 ⟨_, rfl, octets, charged⟩
  refine ⟨⟨behind.position, behind.inside, source.index + 1, false⟩, ?_, rfl, rfl, rfl⟩
  rw [next, if_neg (by simp [sound]), if_neg inside, decoded]

theorem next_yields (sound : source.failed = false) :
    Yields source source.next.1 source.next.2 := by
  by_cases begins : Begins source.remaining
  · obtain ⟨event, more, fits, octets⟩ := begins
    obtain ⟨rest, yields, sound, index, rfl⟩ := next_of_begins sound fits octets
    rw [yields]
    exact .event fits octets index sound
  · rw [next, if_neg (by simp [sound])]
    split
    case isTrue atEnd =>
      have octets := remaining_eq_nil_iff.2 atEnd
      split
      case _ cause behind => exact .fault octets behind
      case _ behind => exact .ended octets behind
    case isFalse inside =>
      have more := mt remaining_eq_nil_iff.1 inside
      split
      case _ event behind decoded =>
        obtain ⟨_, rfl, octets, charged⟩ := (Decoder.inverts_event (Nat.le_refl _)).1 decoded
        have fits : Fits event := Nat.le_of_add_right_le (Nat.le_of_eq charged.symm)
        exact absurd ⟨event, _, fits, octets⟩ begins
      case _ cause refused => exact .malformed more begins

/-- How a reading ends in front of the octets that it leaves unread: at the end of the input
nothing is left, and otherwise no event begins there. -/
inductive Stops : Option DeviceFault → Nat → List UInt8 → Option Fault → Prop where
  | ended {index : Nat} : Stops none index [] none
  | fault {cause : DeviceFault} {index : Nat} : Stops (some cause) index [] (some (.device cause))
  | malformed {behind : Option DeviceFault} {index : Nat} {tail : List UInt8} {cause : Cause}
    (more : tail ≠ []) (unreadable : ¬ Begins tail) :
    Stops behind index tail (some (.malformedEvent (.event index) (.binary cause)))

/-- A reading cuts what remains into encodings, and stops where that cannot go on. -/
theorem read_cut (sound : source.failed = false) :
    ∃ events tail failure, (∀ event ∈ events, Fits event) ∧
      source.remaining = (encodeEvents events).data.toList ++ tail ∧
      Stops input.fault (source.index + events.length) tail failure ∧
      TraceTables.Source.read source = ⟨events, failure⟩ := by
  induction source using TraceTables.Source.induction with
  | @event source rest event yields ih =>
    rw [TraceTables.Source.read_of_event yields]
    have step := next_yields sound
    rw [show source.next = _ from yields] at step
    cases step with
    | event fits octets index sound =>
      obtain ⟨events, tail, failure, allFit, remains, stops, reading⟩ := ih sound
      refine ⟨event :: events, tail, failure, ?_, ?_, ?_, ?_⟩
      · simpa using ⟨fits, allFit⟩
      · rw [octets, remains]
        simp
      · rw [index] at stops
        rw [List.length_cons, Nat.add_comm events.length, ← Nat.add_assoc]
        exact stops
      · rw [reading]
        rfl
  | @fault source rest fault yields =>
    rw [TraceTables.Source.read_of_fault yields]
    have step := next_yields sound
    rw [show source.next = _ from yields] at step
    refine ⟨[], source.remaining, _, by simp, rfl, ?_, rfl⟩
    cases step with
    | malformed more unreadable => exact .malformed more unreadable
    | fault octets behind =>
      rw [octets, behind]
      exact .fault
  | @ended source rest yields =>
    rw [TraceTables.Source.read_of_end yields]
    have step := next_yields sound
    rw [show source.next = _ from yields] at step
    refine ⟨[], source.remaining, _, by simp, rfl, ?_, rfl⟩
    cases step with
    | ended octets behind =>
      rw [octets, behind]
      exact .ended

/-- Encodings that come next are read as their events, whatever stands behind them. -/
theorem read_behind (sound : source.failed = false) {events : List Event} {tail : List UInt8}
    (allFit : ∀ event ∈ events, Fits event)
    (octets : source.remaining = (encodeEvents events).data.toList ++ tail) :
    ∃ rest : Source input, rest.failed = false ∧ rest.index = source.index + events.length ∧
      rest.remaining = tail ∧
      TraceTables.Source.read source = (TraceTables.Source.read rest).after events := by
  induction events generalizing source with
  | nil => exact ⟨source, sound, rfl, octets, rfl⟩
  | cons event more ih =>
    obtain ⟨fits, moreFit⟩ := List.forall_mem_cons.1 allFit
    rw [encodeEvents_cons, ByteArray.data_append, Array.toList_append, List.append_assoc] at octets
    obtain ⟨next, yields, sound', index, remains⟩ := next_of_begins sound fits octets
    obtain ⟨rest, sound'', index', remains', reading⟩ := ih sound' moreFit remains
    refine ⟨rest, sound'', ?_, remains', ?_⟩
    · rw [index', index, List.length_cons]
      omega
    · rw [TraceTables.Source.read_of_event yields, reading]
      simp [Reading.after]

/-- What remains is read as events without a fault exactly if it is their encodings. -/
theorem read_eq_iff (whole : input.fault = none) (sound : source.failed = false)
    (events : List Event) :
    TraceTables.Source.read source = ⟨events, none⟩ ↔
      (∀ event ∈ events, Fits event) ∧ source.remaining = (encodeEvents events).data.toList := by
  constructor
  · intro reading
    obtain ⟨read, tail, failure, allFit, octets, stops, reading'⟩ := read_cut sound
    rw [reading] at reading'
    cases reading'
    rw [whole] at stops
    cases stops with
    | ended => exact ⟨allFit, by simpa using octets⟩
  · rintro ⟨allFit, octets⟩
    rw [← List.append_nil (encodeEvents events).data.toList] at octets
    obtain ⟨rest, sound', -, remains, reading⟩ := read_behind sound allFit octets
    have ending : TraceTables.Source.next rest = (none, rest) := by
      rw [show TraceTables.Source.next rest = rest.next from rfl, next,
        if_neg (by simp [sound']), if_pos (remaining_eq_nil_iff.1 remains), whole]
    rw [reading, TraceTables.Source.read_of_end ending]
    simp [Reading.after]

end BinaryStream.Source

namespace Encoding

open Binary

theorem encode_bincode {event : Event} (fits : Fits event) :
    bincode.encode event = .ok (encodeEvent event) := by
  rw [encode, BinaryStream.encode]
  simp only [if_pos (show (encodeEvent event).size ≤ maxEventSize from fits)]
  rfl

theorem encode_bincode_of_not_fits {event : Event} (tooLarge : ¬ Fits event) :
    bincode.encode event = .error (.malformedEvent .output (.binary .sizeLimit)) := by
  rw [encode, BinaryStream.encode]
  simp only [if_neg (show ¬ (encodeEvent event).size ≤ maxEventSize from tooLarge)]
  rfl

/-- Events that all fit are recorded as their encodings. -/
theorem record_bincode {events : List Event} (allFit : ∀ event ∈ events, Fits event) :
    bincode.record events = ⟨encodeEvents events, .ok ()⟩ := by
  induction events with
  | nil => rfl
  | cons event more ih =>
    obtain ⟨fits, moreFit⟩ := List.forall_mem_cons.1 allFit
    rw [record_cons (encode_bincode fits), ih moreFit]
    rfl

/-- What is recorded to the end consists of events that fit. -/
theorem fits_of_record_bincode {events : List Event}
    (recorded : (bincode.record events).result = .ok ()) : ∀ event ∈ events, Fits event := by
  induction events with
  | nil => simp
  | cons event more ih =>
    by_cases fits : Fits event
    · rw [record_cons (encode_bincode fits)] at recorded
      exact List.forall_mem_cons.2 ⟨fits, ih recorded⟩
    · rw [record_of_error (encode_bincode_of_not_fits fits)] at recorded
      cases recorded

/-- Over a sink that never fails, events can be recorded exactly if they all fit, and their
encodings are stored. -/
theorem write_bincode_iff {σ : Type} [Sink σ] {sound : σ → Prop} {held : σ → ByteArray}
    (faithful : Sink.Faithful sound held) {out : σ} (start : sound out) (events : List Event)
    (bytes : ByteArray) :
    (∃ next, bincode.write events out = (.ok (), next) ∧ held next = held out ++ bytes) ↔
      (∀ event ∈ events, Fits event) ∧ bytes = encodeEvents events := by
  obtain ⟨next, written, grown⟩ := write_faithful faithful bincode events start
  constructor
  · rintro ⟨next', written', stored⟩
    rw [written] at written'
    obtain ⟨recorded, rfl⟩ := Prod.mk.inj written'
    have allFit := fits_of_record_bincode recorded
    rw [grown.held, record_bincode allFit] at stored
    exact ⟨allFit, ((ByteArray.append_right_inj _).1 stored).symm⟩
  · rintro ⟨allFit, rfl⟩
    rw [record_bincode allFit] at written grown
    exact ⟨next, written, grown.held⟩

end Encoding

namespace BinaryStream

open Binary TraceTables.Source

/-- Over any octets a source yields the events of the encodings that they begin with, and at
most one fault behind them. -/
theorem exists_reading (bytes : ByteArray) :
    ∃ events failure rest,
      (∀ count, ask count (Source.start ⟨bytes, none⟩) =
        (Reading.mk events failure).items[count]?) ∧
      bytes = encodeEvents events ++ rest ∧
      (failure = none ↔ rest = .empty) ∧
      ∀ fault, failure = some fault →
        (∃ cause, fault = .malformedEvent (.event events.length) (.binary cause)) ∧
        ∀ event more, (encodeEvent event).size ≤ maxEventSize →
          rest ≠ encodeEvent event ++ more := by
  have running : (Source.start ⟨bytes, none⟩).failed = false := rfl
  obtain ⟨events, tail, failure, -, octets, stops, reading⟩ := Source.read_cut running
  rw [show (Source.start ⟨bytes, none⟩).index + _ = _ from Nat.zero_add _] at stops
  refine ⟨events, failure, tail.toByteArray, (ask_eq_iff _ _).2 reading, ?_, ?_, ?_⟩
  · apply eq_of_toList
    rw [Source.remaining_start] at octets
    simpa using octets
  · cases stops with
    | ended => simp
    | malformed more unreadable =>
      simp only [reduceCtorEq, false_iff]
      intro empty
      have := congrArg (fun rest : ByteArray => rest.data.toList) empty
      exact more (by simpa using this)
  · rintro fault rfl
    cases stops with
    | @malformed _ _ _ cause more unreadable =>
      refine ⟨⟨cause, rfl⟩, ?_⟩
      intro event tail' fits same
      apply unreadable
      have octets := congrArg (fun rest : ByteArray => rest.data.toList) same
      exact ⟨event, tail'.data.toList, fits, by simpa using octets⟩

section Faithful

variable {σ : Type} [Sink σ] {sound : σ → Prop} {held : σ → ByteArray}

/-- The octets that are read as some events without a fault are those that are stored for
them. -/
theorem ask_iff_written (faithful : Sink.Faithful sound held) {out : σ} (ready : sound out)
    (bytes : ByteArray) (events : List Event) :
    (∀ count, ask count (Source.start ⟨bytes, none⟩) = (events.map Except.ok)[count]?) ↔
      ∃ next, Encoding.bincode.write events out = (.ok (), next) ∧
        held next = held out ++ bytes := by
  rw [Encoding.write_bincode_iff faithful ready, ← Reading.items_events, ask_eq_iff,
    Source.read_eq_iff rfl rfl]
  apply and_congr_right
  intro _
  constructor
  · intro same
    exact eq_of_toList same
  · intro same
    rw [← same]
    rfl

/-- A binary source accepts exactly what is written. Over any octets it yields the events of
the encodings that they begin with, and it ends without a fault if these are all; otherwise
it tells how many it has read, and no event that fits could have been read behind them. So
the octets that are read without a fault as some events are those that are stored for them. -/
theorem read_exact (faithful : Sink.Faithful sound held) {out : σ} (ready : sound out)
    (bytes : ByteArray) :
    (∃ events failure rest,
      (∀ count, ask count (Source.start ⟨bytes, none⟩) =
        (Reading.mk events failure).items[count]?) ∧
      bytes = encodeEvents events ++ rest ∧
      (failure = none ↔ rest = .empty) ∧
      ∀ fault, failure = some fault →
        (∃ cause, fault = .malformedEvent (.event events.length) (.binary cause)) ∧
        ∀ event more, (encodeEvent event).size ≤ maxEventSize →
          rest ≠ encodeEvent event ++ more) ∧
    ∀ events : List Event,
      (∀ count, ask count (Source.start ⟨bytes, none⟩) =
        (events.map Except.ok)[count]?) ↔
      ∃ next, Encoding.bincode.write events out = (.ok (), next) ∧
        held next = held out ++ bytes :=
  ⟨exists_reading bytes, ask_iff_written faithful ready bytes⟩

/-- A cell and a reported error, the latter with a text of one character in two octets. -/
theorem read_exact_cell_error :
    let events : List Event := [.cellValue (.bool true), .error "é"]
    let bytes : ByteArray := ⟨#[3, 0, 0, 0, 2, 0, 0, 0, 1,
      6, 0, 0, 0, 2, 0, 0, 0, 0, 0, 0, 0, 0xC3, 0xA9]⟩
    Buffer.unlimited.Unlimited ∧
      (∃ next, Encoding.bincode.write events Buffer.unlimited = (.ok (), next) ∧
        next.written = Buffer.unlimited.written ++ bytes) ∧
      ∀ count, ask count (Source.start ⟨bytes, none⟩) = (events.map Except.ok)[count]? := by
  intro events bytes
  have ready : Buffer.unlimited.Unlimited := ⟨rfl, rfl⟩
  have written : ∃ next, Encoding.bincode.write events Buffer.unlimited = (.ok (), next) ∧
      next.written = Buffer.unlimited.written ++ bytes := by
    refine ⟨⟨bytes, none, false⟩, ?_, ?_⟩
    · cbv
    · cbv
  exact ⟨ready, written, ((read_exact Buffer.faithful ready bytes).2 events).2 written⟩

end Faithful

end BinaryStream

end TraceTables
