import TraceTables.Proofs.Concatenation
import TraceTables.Proofs.Json.LineEnd

/-!
# Reading line by line

Octets are split at line feeds, and what is between them is a line, to which a carriage return at
its end belongs. A line that no line feed ends is a line too, unless the read behind it fails.

A line is blank, describes an event, is no text or is malformed. Blank lines are passed over, an
event is yielded for every line that describes one, and the first other line ends the reading
with a fault (`ask_lines`). The reader drops a carriage return in front of a line feed. That does
not change what a line is, because the carriage return is white space in a text and in JSON
(`Kept`).
-/

namespace TraceTables.JsonLines

open TraceTables.Source

/-- Whether a line holds nothing but white space. -/
def Blank (line : ByteArray) : Prop :=
  ∃ text : String, line = text.toUTF8 ∧ Text.isBlank text.toList = true

/-- Whether a line is the text of an event. -/
def Describes (line : ByteArray) (event : Event) : Prop :=
  ∃ text : String, line = text.toUTF8 ∧ Text.isBlank text.toList = false ∧
    Json.readEvent text = .ok event

/-- Whether the octets of a line are no text. -/
def NoText (line : ByteArray) : Prop :=
  ∀ text : String, line ≠ text.toUTF8

/-- Whether a line is a text that is not blank, but not the text of an event. -/
def NoEvent (line : ByteArray) : Prop :=
  ∃ text : String, line = text.toUTF8 ∧ Text.isBlank text.toList = false ∧
    ∀ event, Json.readEvent text ≠ .ok event

/-- Lines that are blank or describe events, and these events in order. -/
inductive Passed : List ByteArray → List Event → Prop where
  | nil : Passed [] []
  | blank {line : ByteArray} {lines : List ByteArray} {events : List Event} (blank : Blank line)
    (more : Passed lines events) : Passed (line :: lines) events
  | event {line : ByteArray} {lines : List ByteArray} {event : Event} {events : List Event}
    (describes : Describes line event) (more : Passed lines events) :
    Passed (line :: lines) (event :: events)

/-- A line at which reading stops, and the fault that is found there. The line has the given
number. -/
inductive Stops (number : Nat) : ByteArray → Fault → Prop where
  | noText {line : ByteArray} (noText : NoText line) : Stops number line (.device .notText)
  | noEvent {line : ByteArray} (noEvent : NoEvent line) (cause : Json.Malformed) :
    Stops number line (.malformedEvent (.line number) (.json cause))

section Passed

variable {line : ByteArray} {a b : List ByteArray} {events others : List Event}

theorem Blank.not_describes (blank : Blank line) (event : Event) : ¬ Describes line event := by
  rintro ⟨text, spelled, visible, -⟩
  obtain ⟨text', spelled', white⟩ := blank
  obtain rfl := String.toByteArray_inj.1 (spelled.symm.trans spelled')
  rw [white] at visible
  cases visible

/-- A line describes one event at most. -/
theorem Describes.unique {event event' : Event} (describes : Describes line event)
    (describes' : Describes line event') : event = event' := by
  obtain ⟨text, spelled, -, read⟩ := describes
  obtain ⟨text', spelled', -, read'⟩ := describes'
  obtain rfl := String.toByteArray_inj.1 (spelled.symm.trans spelled')
  rw [read] at read'
  exact Except.ok.inj read'

theorem Passed.append (first : Passed a events) (second : Passed b others) :
    Passed (a ++ b) (events ++ others) := by
  induction first with
  | nil => exact second
  | blank blank _ ih => exact .blank blank ih
  | event describes _ ih => exact .event describes ih

/-- Lines are passed by parts. -/
theorem Passed.of_append (passed : Passed (a ++ b) events) :
    ∃ first second, events = first ++ second ∧ Passed a first ∧ Passed b second := by
  induction a generalizing events with
  | nil => exact ⟨[], events, rfl, .nil, passed⟩
  | cons line more ih =>
    cases passed with
    | blank blank more =>
      obtain ⟨first, second, rfl, passed, passed'⟩ := ih more
      exact ⟨first, second, rfl, .blank blank passed, passed'⟩
    | event describes more =>
      obtain ⟨first, second, rfl, passed, passed'⟩ := ih more
      exact ⟨_ :: first, second, rfl, .event describes passed, passed'⟩

/-- Lines tell the events that they describe. -/
theorem Passed.unique (passed : Passed a events) (passed' : Passed a others) :
    events = others := by
  induction passed generalizing others with
  | nil =>
    cases passed'
    rfl
  | blank blank _ ih =>
    cases passed' with
    | blank _ more => exact ih more
    | event describes _ => exact absurd describes (blank.not_describes _)
  | event describes _ ih =>
    cases passed' with
    | blank blank _ => exact absurd describes (blank.not_describes _)
    | event describes' more => rw [describes.unique describes', ih more]

/-- Reading does not stop at a line that is passed. -/
theorem Stops.not_passed {number : Nat} {cause : Fault} (stops : Stops number line cause) :
    ¬ Passed (line :: b) events := by
  rintro (_ | ⟨⟨text, spelled, white⟩, -⟩ | ⟨⟨text, spelled, -, read⟩, -⟩)
  · cases stops with
    | noText noText => exact noText text spelled
    | noEvent noEvent =>
      obtain ⟨text', spelled', visible, -⟩ := noEvent
      obtain rfl := String.toByteArray_inj.1 (spelled.symm.trans spelled')
      rw [white] at visible
      cases visible
  · cases stops with
    | noText noText => exact noText text spelled
    | noEvent noEvent =>
      obtain ⟨text', spelled', -, refused⟩ := noEvent
      obtain rfl := String.toByteArray_inj.1 (spelled.symm.trans spelled')
      exact refused _ read

end Passed

/-- The lines of an input as they are, without one that a failing read cuts off. -/
def rawLines (input : Input) : List ByteArray :=
  if input.fault.isNone then Lines.split input.bytes else (Lines.split input.bytes).dropLast

section LineEnds

theorem toList_toUTF8_push (text : String) :
    (text.push '\r').toUTF8.data.toList = text.toUTF8.data.toList ++ [Lines.carriageReturn] := by
  rw [Text.Utf8.toList_toUTF8, Text.Utf8.toList_toUTF8, String.toList_push, List.flatMap_append]
  rfl

/-- Only a carriage return ends with the octet of one. -/
theorem exists_push_of_toUTF8 {text : String} {octets : List UInt8}
    (ends : text.toUTF8.data.toList = octets ++ [Lines.carriageReturn]) :
    ∃ before : String, text = before.push '\r' ∧ before.toUTF8.data.toList = octets := by
  rcases List.eq_nil_or_concat' text.toList with nothing | ⟨before, c, characters⟩
  · rw [Text.Utf8.toList_toUTF8, nothing] at ends
    simp at ends
  have last : text = (String.ofList before).push c := by
    rw [← String.toList_inj, characters]
    simp
  obtain ⟨more, octet, encoded⟩ : ∃ more octet, String.utf8EncodeChar c = more ++ [octet] := by
    rcases List.eq_nil_or_concat' (String.utf8EncodeChar c) with nothing | ⟨more, octet, encoded⟩
    · exact absurd nothing String.utf8EncodeChar_ne_nil
    · exact ⟨more, octet, encoded⟩
  have split := ends
  rw [Text.Utf8.toList_toUTF8, characters, List.flatMap_append, List.flatMap_singleton, encoded,
    ← List.append_assoc] at split
  obtain ⟨-, same⟩ := List.append_inj' split rfl
  obtain rfl := List.singleton_inj.1 same
  have member : Lines.carriageReturn ∈ String.utf8EncodeChar c := by simp [encoded]
  obtain rfl : c = '\r' := Text.Utf8.eq_of_mem_utf8EncodeChar (by decide) member
  refine ⟨String.ofList before, last, ?_⟩
  rw [last, toList_toUTF8_push] at ends
  exact (List.append_inj' ends rfl).1

/-- Whether a line is kept as it is, or without a carriage return at its end. -/
def Kept (raw line : ByteArray) : Prop :=
  line = raw ∨ raw.data.toList = line.data.toList ++ [Lines.carriageReturn]

theorem kept_dropReturn (raw : ByteArray) : Kept raw (Lines.dropReturn raw) := by
  unfold Lines.dropReturn
  split
  case isTrue ends =>
    obtain ⟨before, octets⟩ := Array.back?_eq_some_iff.1 ends
    refine .inr ?_
    have size : raw.size - 1 = before.size := by
      rw [ByteArray.size, octets, Array.size_push, Nat.add_sub_cancel]
    rw [size]
    simp [octets]
  case isFalse => exact .inl rfl

variable {raw line : ByteArray}

/-- A carriage return at its end does not change what a text stands for. -/
theorem Kept.text (kept : Kept raw line) {text : String} (spelled : line = text.toUTF8) :
    ∃ whole : String, raw = whole.toUTF8 ∧
      Text.isBlank whole.toList = Text.isBlank text.toList ∧
      ∀ event, Json.readEvent whole = .ok event ↔ Json.readEvent text = .ok event := by
  rcases kept with rfl | returned
  · exact ⟨text, spelled, rfl, fun _ => Iff.rfl⟩
  · refine ⟨text.push '\r', ?_, ?_, Json.readEvent_push_return text⟩
    · rw [spelled, ← toList_toUTF8_push] at returned
      exact Binary.eq_of_toList returned
    · have white : Text.isBlank ['\r'] = true := by decide
      rw [String.toList_push, Text.isBlank_append, white, Bool.and_true]

theorem Kept.noText (kept : Kept raw line) (noText : NoText line) : NoText raw := by
  rcases kept with rfl | returned
  · exact noText
  · rintro text rfl
    obtain ⟨before, -, octets⟩ := exists_push_of_toUTF8 returned
    exact noText before (Binary.eq_of_toList octets.symm)

end LineEnds

/-- What a line is decides what is done at it, though it is read without its carriage return. -/
theorem next_of_kept {raw line : ByteArray} (kept : Kept raw line) (more : List ByteArray)
    (fault : Option DeviceFault) (number : Nat) :
    (Blank raw ∧ next (Source.before (line :: more) fault number) =
      next (Source.before more fault (number + 1))) ∨
    (∃ event, Describes raw event ∧ next (Source.before (line :: more) fault number) =
      (some (.ok event), Source.before more fault (number + 1))) ∨
    ∃ cause rest, Stops (number + 1) raw cause ∧
      next (Source.before (line :: more) fault number) = (some (.error cause), rest) := by
  cases decoded : Text.Utf8.decode line with
  | error malformed =>
    have noText : NoText line := by
      rintro text rfl
      rw [Text.Utf8.decode_toUTF8] at decoded
      cases decoded
    exact .inr (.inr ⟨_, _, .noText (kept.noText noText),
      Source.next_of_noText more fault number decoded⟩)
  | ok text =>
    obtain ⟨whole, spelled, white, reads⟩ := kept.text (Text.Utf8.decode_eq_ok_iff.1 decoded)
    cases visible : Text.isBlank text.toList with
    | true =>
      exact .inl ⟨⟨whole, spelled, white.trans visible⟩,
        Source.next_of_blank more fault number decoded visible⟩
    | false =>
      cases read : Json.readEvent text with
      | ok event =>
        exact .inr (.inl ⟨event, ⟨whole, spelled, white.trans visible, (reads event).2 read⟩,
          Source.next_of_describes more fault number decoded visible read⟩)
      | error malformed =>
        have noEvent : NoEvent raw := by
          refine ⟨whole, spelled, white.trans visible, fun event readable => ?_⟩
          rw [(reads event).1 readable] at read
          cases read
        exact .inr (.inr ⟨_, _, .noEvent noEvent malformed,
          Source.next_of_malformed more fault number decoded visible read⟩)

/-- How reading goes on at some lines, of which the first has the given number: there are none
left, and only the fault behind them is found, or it stops at the first of them. -/
inductive Remaining (fault : Option DeviceFault) (number : Nat) :
    List ByteArray → Option Fault → Prop where
  | ended : Remaining fault number [] (fault.map .device)
  | stopped {line : ByteArray} {more : List ByteArray} {cause : Fault}
    (stops : Stops number line cause) : Remaining fault number (line :: more) (some cause)

/-- Lines are read one after the other, as if no carriage return had been dropped. -/
theorem read_kept {raws lines : List ByteArray} (kept : List.Forall₂ Kept raws lines)
    (fault : Option DeviceFault) (number : Nat) :
    ∃ passed rest events failure, raws = passed ++ rest ∧ Passed passed events ∧
      TraceTables.Source.read (Source.before lines fault number) = ⟨events, failure⟩ ∧
      Remaining fault (number + passed.length + 1) rest failure := by
  induction kept generalizing number with
  | nil =>
    refine ⟨[], [], [], fault.map .device, rfl, .nil, ?_, .ended⟩
    cases fault with
    | none => exact read_of_end rfl
    | some cause => exact read_of_fault rfl
  | @cons raw line raws lines same more ih =>
    obtain ⟨passed, rest, events, failure, pieces, passes, reading, remaining⟩ := ih (number + 1)
    have counted : number + 1 + passed.length = number + (raw :: passed).length := by
      rw [List.length_cons]
      omega
    rw [counted] at remaining
    rcases next_of_kept same lines fault number with
      ⟨blank, yields⟩ | ⟨event, describes, yields⟩ | ⟨cause, left, stops, yields⟩
    · exact ⟨raw :: passed, rest, events, failure, congrArg (raw :: ·) pieces, .blank blank passes,
        (read_congr yields).trans reading, remaining⟩
    · refine ⟨raw :: passed, rest, event :: events, failure, congrArg (raw :: ·) pieces,
        .event describes passes, ?_, remaining⟩
      rw [read_of_event yields, reading]
      rfl
    · exact ⟨[], raw :: raws, [], some cause, rfl, .nil, read_of_fault yields, .stopped stops⟩

theorem blank_empty : Blank .empty :=
  ⟨"", rfl, rfl⟩

theorem Passed.append_blank {lines : List ByteArray} {events : List Event}
    (passed : Passed lines events) {line : ByteArray} (blank : Blank line) :
    Passed (lines ++ [line]) events := by
  simpa using passed.append (.blank blank .nil)

/-- The lines that are read are those of the input, only that an empty last line is left out. -/
theorem lines_kept (input : Input) :
    ∃ raws, List.Forall₂ Kept raws (lines input) ∧
      (rawLines input = raws ∨ input.fault = none ∧ rawLines input = raws ++ [.empty]) := by
  obtain ⟨ended, last, pieces, cut⟩ := Lines.exists_isCut input.bytes
  have kept : List.Forall₂ Kept ended (ended.map Lines.dropReturn) := by
    rw [List.forall₂_map_right_iff, List.forall₂_same]
    exact fun raw _ => kept_dropReturn raw
  rw [lines, rawLines, cut.cut_eq, pieces]
  dsimp only
  cases fault : input.fault with
  | some cause => exact ⟨ended, by simpa using kept, .inl (by simp)⟩
  | none =>
    by_cases empty : last.size = 0
    · obtain rfl := ByteArray.size_eq_zero_iff.1 empty
      exact ⟨ended, by simpa using kept, .inr ⟨rfl, rfl⟩⟩
    · refine ⟨ended ++ [last], ?_, .inl rfl⟩
      simpa [empty] using List.rel_append kept (.cons (.inl rfl) .nil)

/-- The lines of an input are read one after the other. -/
theorem read_rawLines (input : Input) :
    ∃ passed rest events failure, rawLines input = passed ++ rest ∧ Passed passed events ∧
      TraceTables.Source.read (Source.start input) = ⟨events, failure⟩ ∧
      Remaining input.fault (passed.length + 1) rest failure := by
  obtain ⟨raws, kept, whole⟩ := lines_kept input
  obtain ⟨passed, rest, events, failure, rfl, passes, reading, remaining⟩ :=
    read_kept kept input.fault 0
  rw [Nat.zero_add] at remaining
  rcases whole with whole | ⟨sound, whole⟩
  · exact ⟨passed, rest, events, failure, whole, passes, reading, remaining⟩
  cases remaining with
  | ended =>
    rw [List.append_nil] at whole
    exact ⟨passed ++ [.empty], [], events, _, by rw [whole, List.append_nil],
      passes.append_blank blank_empty, reading, .ended⟩
  | @stopped line more cause stops =>
    exact ⟨passed, line :: more ++ [.empty], events, _, by rw [whole, List.append_assoc], passes,
      reading, .stopped stops⟩

/-- Octets are read without a fault exactly if their lines are passed. -/
theorem read_eq_iff_passed (bytes : ByteArray) (events : List Event) :
    TraceTables.Source.read (Source.start ⟨bytes, none⟩) = ⟨events, none⟩ ↔
      Passed (Lines.split bytes) events := by
  obtain ⟨passed, rest, found, failure, pieces, passes, reading, remaining⟩ :=
    read_rawLines ⟨bytes, none⟩
  change Lines.split bytes = _ at pieces
  rw [reading, pieces, Reading.mk.injEq]
  cases remaining with
  | ended =>
    rw [List.append_nil]
    exact ⟨fun same => same.1 ▸ passes, fun whole => ⟨passes.unique whole, rfl⟩⟩
  | stopped stops =>
    refine iff_of_false nofun fun whole => ?_
    obtain ⟨_, _, -, -, later⟩ := whole.of_append
    exact stops.not_passed later

/-- What stands before a line and behind it. -/
theorem octets_of_rawLines {input : Input} {before more : List ByteArray} {line : ByteArray}
    (pieces : rawLines input = before ++ line :: more) :
    (∃ behind, input.bytes.data.toList = Lines.joined before ++ line.data.toList ++ behind) ∧
      (Lines.joined before).count Lines.lineFeed = before.length := by
  obtain ⟨ended, last, split, cut⟩ := Lines.exists_isCut input.bytes
  have whole : ∃ more, ended ++ [last] = before ++ line :: more := by
    rw [rawLines, split] at pieces
    split at pieces
    · exact ⟨more, pieces⟩
    · rw [List.dropLast_concat] at pieces
      exact ⟨more ++ [last], by rw [pieces, List.append_assoc, List.cons_append]⟩
  obtain ⟨more, whole⟩ := whole
  obtain ⟨octets, noFeed⟩ := cut.octets_of_split whole
  exact ⟨octets, Lines.count_joined noFeed⟩

/-- Over any input, lines that are blank or describe events are passed, one event is yielded for
each line that describes one, in order, and nothing else before. If these are all lines, only the
fault of a failing read is yielded behind them; what that read cuts off is no line. Otherwise
reading stops at the first line that is no text or no event, with a fault of the device or with
the number of the line: one more than there are line feeds in front of it. Then nothing is yielded
any more. -/
theorem ask_lines (input : Input) :
    ∃ passed rest events failure,
      rawLines input = passed ++ rest ∧ Passed passed events ∧
      (∀ place, ask place (Source.start input) =
        (events.map Except.ok ++ (failure.map Except.error).toList)[place]?) ∧
      ((rest = [] ∧ failure = input.fault.map .device) ∨
        ∃ line more behind cause, rest = line :: more ∧
          input.bytes.data.toList = Lines.joined passed ++ line.data.toList ++ behind ∧
          Stops ((Lines.joined passed).count Lines.lineFeed + 1) line cause ∧
          failure = some cause) := by
  obtain ⟨passed, rest, events, failure, whole, passes, reading, remaining⟩ :=
    read_rawLines input
  refine ⟨passed, rest, events, failure, whole, passes,
    (ask_eq_iff _ ⟨events, failure⟩).2 reading, ?_⟩
  cases remaining with
  | ended => exact .inl ⟨rfl, rfl⟩
  | @stopped line more cause stops =>
    obtain ⟨⟨behind, octets⟩, count⟩ := octets_of_rawLines whole
    rw [count]
    exact .inr ⟨line, more, behind, cause, rfl, octets, stops, rfl⟩

end TraceTables.JsonLines
