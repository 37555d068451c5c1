import TraceTables.Proofs.Json.Printed
import TraceTables.Proofs.Lines
import TraceTables.Proofs.Reading
import TraceTables.Proofs.Recorded

/-!
# Recordings as lines of JSON are lossless

A recorded event is one line: its text holds no control character, and an octet below the
space is never a part of a longer character. The lines are therefore cut where they were
joined, none of them is blank, and each is read back as its event.
-/

namespace TraceTables

namespace JsonLines

open TraceTables.Source

/-- The line of an event, without its end. -/
def line (event : Event) : ByteArray :=
  (Json.printEvent event).toUTF8

/-- A line holds no control octet. -/
theorem le_of_mem_line {event : Event} {octet : UInt8}
    (member : octet ∈ (line event).data.toList) : 0x20 ≤ octet.toNat := by
  rw [line, Text.Utf8.toList_toUTF8, List.mem_flatMap] at member
  obtain ⟨c, among, member⟩ := member
  exact Text.Utf8.le_of_mem_utf8EncodeChar (Json.visible_printEvent event c among) member

theorem lineFeed_not_mem_line (event : Event) : Lines.lineFeed ∉ (line event).data.toList := by
  intro member
  have visible := le_of_mem_line member
  exact absurd visible (by decide)

theorem carriageReturn_not_mem_line (event : Event) :
    Lines.carriageReturn ∉ (line event).data.toList := by
  intro member
  have visible := le_of_mem_line member
  exact absurd visible (by decide)

theorem toList_encode (event : Event) :
    (encode event).data.toList = (line event).data.toList ++ [Lines.lineFeed] := by
  rw [encode, line, Text.Utf8.toList_toUTF8, Text.Utf8.toList_toUTF8, String.toList_append,
    List.flatMap_append]
  rfl

/-- The lines of recorded events are those of the events. -/
theorem lines_of_joined {bytes : ByteArray} {events : List Event}
    (octets : bytes.data.toList = Lines.joined (events.map line)) :
    lines ⟨bytes, none⟩ = events.map line := by
  have whole : ∀ one ∈ events.map line, Lines.lineFeed ∉ one.data.toList := by
    intro one member
    obtain ⟨event, -, rfl⟩ := List.mem_map.1 member
    exact lineFeed_not_mem_line event
  have kept : (events.map line).map Lines.dropReturn = events.map line := by
    rw [List.map_map]
    apply List.map_congr_left
    intro event _
    exact Lines.dropReturn_eq_self (carriageReturn_not_mem_line event)
  rw [lines, Lines.cut_joined whole octets, kept]
  simp

/-- The lines of events are read as the events. -/
theorem read_lines (events : List Event) (number : Nat) :
    Source.read (⟨events.map line, none, number, false⟩ : JsonLines.Source) = ⟨events, none⟩ := by
  induction events generalizing number with
  | nil => exact read_of_end rfl
  | cons event more ih =>
    have yields : next (⟨(event :: more).map line, none, number, false⟩ : JsonLines.Source) =
        (some (.ok event), ⟨more.map line, none, number + 1, false⟩) := by
      change Source.nextLine none number (line event :: more.map line) = _
      rw [Source.nextLine, line, Text.Utf8.decode_toUTF8]
      simp only [Json.isBlank_printEvent, Bool.false_eq_true, if_false, Json.readEvent_printEvent]
    rw [read_of_event yields, ih]
    rfl

end JsonLines

namespace Encoding

open JsonLines

/-- All events can be recorded as lines. -/
theorem record_json (events : List Event) :
    (json.record events).result = .ok () ∧
      (json.record events).bytes.data.toList = Lines.joined (events.map line) := by
  induction events with
  | nil => exact ⟨rfl, rfl⟩
  | cons event more ih =>
    have encoded : json.encode event = .ok (JsonLines.encode event) := rfl
    rw [record_cons encoded]
    refine ⟨ih.1, ?_⟩
    rw [Record.behind_bytes, ByteArray.data_append, Array.toList_append, ih.2, toList_encode]
    simp

end Encoding

namespace JsonLines

open TraceTables.Source

/-- A line end is written for every event, and no other. -/
theorem count_lineFeed (events : List Event) :
    (Lines.joined (events.map line)).count Lines.lineFeed = events.length := by
  rw [Lines.count_joined, List.length_map]
  intro one member
  obtain ⟨event, -, rfl⟩ := List.mem_map.1 member
  exact lineFeed_not_mem_line event

/-- Over a sink that never fails, any events can be recorded as lines of JSON. One line feed is
stored for each, and from what is stored the same events are read, and then nothing more. -/
theorem read_written {σ : Type} [Sink σ] {sound : σ → Prop} {held : σ → ByteArray}
    (faithful : Sink.Faithful sound held) {out : σ} (ready : sound out) (events : List Event) :
    ∃ next bytes, Encoding.json.write events out = (.ok (), next) ∧
      held next = held out ++ bytes ∧
      bytes.data.toList.count Lines.lineFeed = events.length ∧
      ∀ count, ask count (JsonLines.Source.start ⟨bytes, none⟩) =
        (events.map Except.ok)[count]? := by
  obtain ⟨next, written, grown⟩ := Encoding.write_faithful faithful .json events ready
  obtain ⟨result, octets⟩ := Encoding.record_json events
  refine ⟨next, (Encoding.json.record events).bytes, ?_, grown.held, ?_, ?_⟩
  · rw [written, result]
  · rw [octets, count_lineFeed]
  · rw [← Reading.items_events, ask_eq_iff, Source.start, lines_of_joined octets]
    exact read_lines events 0

/-- The name holds a quote and a line feed, the text a line separator that is kept as it is, and
the number is the largest. -/
theorem read_written_three :
    let events : List Event :=
      [.tableBegin .keyValue "a\"\n", .cellValue (.string "\u2028"),
        .cellValue (.uint64 18446744073709551615)]
    let text := "\x7b\"table_begin\":\x7b\"kind\":\"key_value\",\"name\":\"a\\\"\\n\"\x7d\x7d\n" ++
      "\x7b\"cell_value\":\x7b\"string\":\"\u2028\"\x7d\x7d\n" ++
      "\x7b\"cell_value\":\x7b\"uint64\":18446744073709551615\x7d\x7d\n"
    Buffer.unlimited.Unlimited ∧
      Encoding.json.write events Buffer.unlimited = (.ok (), ⟨text.toUTF8, none, false⟩) ∧
      text.toUTF8.data.toList.count Lines.lineFeed = 3 ∧
      ∀ count, ask count (JsonLines.Source.start ⟨text.toUTF8, none⟩) =
        (events.map Except.ok)[count]? := by
  intro events text
  have ready : Buffer.unlimited.Unlimited := ⟨rfl, rfl⟩
  have written : Encoding.json.write events Buffer.unlimited =
      (.ok (), ⟨text.toUTF8, none, false⟩) := by cbv
  obtain ⟨next, bytes, written', stored, feeds, answers⟩ :=
    read_written Buffer.faithful ready events
  rw [written] at written'
  obtain ⟨-, rfl⟩ := Prod.mk.inj written'
  obtain rfl : text.toUTF8 = bytes := stored.trans ByteArray.empty_append
  exact ⟨ready, written, feeds, answers⟩

end JsonLines

end TraceTables
