import TraceTables.Proofs.Binary.Locality
import TraceTables.Proofs.Binary.Stream

/-!
# A binary recording that is cut off

A binary recording that is cut off anywhere loses the event that the cut goes through, and what
came behind it, and nothing else. The events before it are read as they were recorded, and the cut
is reported unless it falls between two events (`read_truncated`).

That no cut goes unnoticed rests on the encodings: what is left of an event is never the encoding
of another one, since its decoder asks for the octets that are missing (`Decoder.event_of_cut`).
-/

namespace TraceTables

namespace Binary

/-- Where the encodings of the first `count` events end. -/
def endOf (events : List Event) (count : Nat) : Nat :=
  (encodeEvents (events.take count)).size

@[simp] theorem endOf_zero (events : List Event) : endOf events 0 = 0 := rfl

@[simp] theorem endOf_cons_succ (event : Event) (more : List Event) (count : Nat) :
    endOf (event :: more) (count + 1) = (encodeEvent event).size + endOf more count := by
  rw [endOf, List.take_succ_cons, encodeEvents_cons, ByteArray.size_append, endOf]

/-- Whether octets begin an event and end before it does. -/
def CutsOff (octets : List UInt8) (event : Event) : Prop :=
  octets ≠ [] ∧ ∃ missing, missing ≠ [] ∧ (encodeEvent event).data.toList = octets ++ missing

theorem cutsOff_take {event : Event} {place : Nat} (begun : place ≠ 0)
    (short : place < (encodeEvent event).size) :
    CutsOff ((encodeEvent event).data.toList.take place) event := by
  have short' : place < (encodeEvent event).data.toList.length := short
  refine ⟨?_, (encodeEvent event).data.toList.drop place, ?_, (List.take_append_drop _ _).symm⟩
  · rw [Ne, ← List.length_eq_zero_iff, List.length_take]
    omega
  · rw [Ne, List.drop_eq_nil_iff]
    omega

/-- What a cut leaves of a recording: the first `kept` events, which are those that end up to the
cut, and octets behind them. There are none if the cut falls on the end of an event or comes before
all events, and they are cut off otherwise. -/
structure CutAt (events : List Event) (place kept : Nat) (octets : List UInt8) : Prop where
  few : kept ≤ events.length
  ended : ∀ count ≤ events.length, endOf events count ≤ place ↔ count ≤ kept
  left : (encodeEvents events).data.toList.take place =
    (encodeEvents (events.take kept)).data.toList ++ octets
  amid : octets = [] ∧ endOf events kept = place ∨
    (∃ event ∈ events, CutsOff octets event) ∧ ∀ count ≤ events.length, endOf events count ≠ place

variable {event : Event} {more : List Event} {place kept : Nat} {octets : List UInt8}

theorem cutAt_nil : CutAt [] 0 0 [] where
  few := Nat.le_refl _
  ended count none := by
    obtain rfl : count = 0 := Nat.le_zero.1 none
    simp
  left := rfl
  amid := .inl ⟨rfl, rfl⟩

/-- A cut before the end of the first event leaves no event. -/
theorem cutAt_inside (inside : place < (encodeEvent event).size) :
    CutAt (event :: more) place 0 ((encodeEvent event).data.toList.take place) where
  few := Nat.zero_le _
  ended := by
    rintro (_ | count) -
    · simp
    · rw [endOf_cons_succ]
      omega
  left := by
    have inside' : place ≤ (encodeEvent event).data.toList.length := Nat.le_of_lt inside
    rw [encodeEvents_cons, ByteArray.data_append, Array.toList_append,
      List.take_append_of_le_length inside']
    rfl
  amid := by
    rcases Nat.eq_zero_or_pos place with rfl | begun
    · exact .inl ⟨rfl, rfl⟩
    · refine .inr ⟨⟨event, List.mem_cons_self, cutsOff_take (Nat.ne_of_gt begun) inside⟩, ?_⟩
      rintro (_ | count) -
      · exact Nat.ne_of_lt begun
      · rw [endOf_cons_succ]
        omega

/-- A cut behind the first event leaves it, and of the others what it leaves of them alone. -/
theorem CutAt.cons (cut : CutAt more place kept octets) (event : Event) :
    CutAt (event :: more) ((encodeEvent event).size + place) (kept + 1) octets where
  few := Nat.succ_le_succ cut.few
  ended := by
    rintro (_ | count) within
    · simp
    · have := cut.ended count (Nat.le_of_succ_le_succ within)
      rw [endOf_cons_succ]
      omega
  left := by
    have size : (encodeEvent event).size = (encodeEvent event).data.toList.length := rfl
    rw [encodeEvents_cons, ByteArray.data_append, Array.toList_append, size,
      List.take_length_add_append, cut.left, List.take_succ_cons, encodeEvents_cons,
      ByteArray.data_append, Array.toList_append, List.append_assoc]
  amid := by
    rw [endOf_cons_succ]
    refine cut.amid.imp ?_ ?_
    · rintro ⟨nothing, atEnd⟩
      exact ⟨nothing, congrArg ((encodeEvent event).size + ·) atEnd⟩
    · rintro ⟨⟨other, member, part⟩, between⟩
      refine ⟨⟨other, List.mem_cons_of_mem _ member, part⟩, ?_⟩
      rintro (_ | count) within
      · have := le_size_encodeEvent event
        rw [endOf_zero]
        omega
      · have := between count (Nat.le_of_succ_le_succ within)
        rw [endOf_cons_succ]
        omega

theorem exists_cutAt (events : List Event) {place : Nat}
    (within : place ≤ (encodeEvents events).size) :
    ∃ kept octets, CutAt events place kept octets := by
  induction events generalizing place with
  | nil =>
    obtain rfl : place = 0 := Nat.le_zero.1 within
    exact ⟨0, [], cutAt_nil⟩
  | cons event more ih =>
    rcases Nat.lt_or_ge place (encodeEvent event).size with inside | behind
    · exact ⟨0, _, cutAt_inside inside⟩
    · obtain ⟨rest, rfl⟩ := Nat.exists_eq_add_of_le behind
      rw [encodeEvents_cons, ByteArray.size_append] at within
      obtain ⟨kept, octets, cut⟩ := ih (Nat.le_of_add_le_add_left within)
      exact ⟨kept + 1, octets, cut.cons event⟩

end Binary

namespace BinaryStream

open Binary TraceTables.Source

namespace Source

variable {input : Input} {source : Source input}

/-- At the end of an input that does not fail, nothing is yielded. -/
theorem read_of_remaining_nil (whole : input.fault = none) (sound : source.failed = false)
    (nothing : source.remaining = []) : TraceTables.Source.read source = ⟨[], none⟩ :=
  (read_eq_iff whole sound []).2 ⟨by simp, nothing⟩

/-- Where an event is cut off, that is reported. -/
theorem read_of_cutsOff (whole : input.fault = none) (sound : source.failed = false) {event : Event}
    (fits : Fits event) (cut : CutsOff source.remaining event) :
    TraceTables.Source.read source =
      ⟨[], some (.malformedEvent (.event source.index) (.binary .truncated))⟩ := by
  obtain ⟨more, missing, some, octets⟩ := cut
  have refused : Decoder.event source.cursor = .error (endCause input) :=
    Decoder.event_of_cut fits rfl octets some
  have yields := next_of_remaining sound more
  rw [refused, endCause, whole] at yields
  exact TraceTables.Source.read_of_fault yields

end Source

section Faithful

variable {σ : Type} [Sink σ] {sound : σ → Prop} {held : σ → ByteArray}

/-- From the first octets of a recording those events are read, in order, whose encodings end among
them. If the last of these octets is the last one of an event, or there are none, nothing is at
fault. Otherwise the fault is that the next event is cut off. -/
theorem read_truncated (faithful : Sink.Faithful sound held) {out next : σ} (ready : sound out)
    {events : List Event} (written : Encoding.bincode.write events out = (.ok (), next))
    {bytes : ByteArray} (stored : held next = held out ++ bytes) {n : Nat}
    (within : n ≤ bytes.size) :
    ∃ kept ≤ events.length, ∃ failure,
      (∀ count ≤ events.length, endOf events count ≤ n ↔ count ≤ kept) ∧
      (failure = none ↔ ∃ count ≤ events.length, endOf events count = n) ∧
      (∀ fault, failure = some fault →
        fault = .malformedEvent (.event kept) (.binary .truncated)) ∧
      ∀ count, ask count (Source.start ⟨bytes.extract 0 n, none⟩) =
        (Reading.mk (events.take kept) failure).items[count]? := by
  obtain ⟨allFit, rfl⟩ :=
    (Encoding.write_bincode_iff faithful ready events bytes).1 ⟨next, written, stored⟩
  obtain ⟨kept, octets, cut⟩ := exists_cutAt events within
  have first : ∀ event ∈ events.take kept, Fits event := fun event member =>
    allFit event (List.mem_of_mem_take member)
  have remaining : (Source.start ⟨(encodeEvents events).extract 0 n, none⟩).remaining =
      (encodeEvents (events.take kept)).data.toList ++ octets := by
    rw [Source.remaining_start, ← cut.left]
    simp
  obtain ⟨rest, running, index, remains, reading⟩ := Source.read_behind rfl first remaining
  have number : rest.index = kept := by
    rw [index, List.length_take, Nat.min_eq_left cut.few]
    exact Nat.zero_add kept
  rcases cut.amid with ⟨nothing, atEnd⟩ | ⟨⟨event, member, part⟩, between⟩
  · refine ⟨kept, cut.few, none, cut.ended, ?_, ?_, (ask_eq_iff _ _).2 ?_⟩
    · exact ⟨fun _ => ⟨kept, cut.few, atEnd⟩, fun _ => rfl⟩
    · intro fault some
      cases some
    · rw [reading, Source.read_of_remaining_nil rfl running (remains.trans nothing)]
      simp [Reading.after]
  · refine ⟨kept, cut.few, some (.malformedEvent (.event kept) (.binary .truncated)), cut.ended,
      ?_, ?_, (ask_eq_iff _ _).2 ?_⟩
    · simpa using between
    · intro fault same
      exact (Option.some.inj same).symm
    · rw [← remains] at part
      rw [reading, Source.read_of_cutsOff rfl running (allFit _ member) part, number]
      simp [Reading.after]

/-- The cut goes through the character at the end of the second event. -/
theorem read_truncated_inside_character :
    let events : List Event := [.cellValue (.bool true), .error "é"]
    let bytes : ByteArray := ⟨#[3, 0, 0, 0, 2, 0, 0, 0, 1,
      6, 0, 0, 0, 2, 0, 0, 0, 0, 0, 0, 0, 0xC3, 0xA9]⟩
    Buffer.unlimited.Unlimited ∧
      Encoding.bincode.write events Buffer.unlimited = (.ok (), ⟨bytes, none, false⟩) ∧
      bytes = Buffer.unlimited.written ++ bytes ∧ 22 ≤ bytes.size ∧
      ∀ count, ask count (Source.start ⟨bytes.extract 0 22, none⟩) =
        [Except.ok (.cellValue (.bool true)),
          .error (.malformedEvent (.event 1) (.binary .truncated))][count]? := by
  intro events bytes
  have ready : Buffer.unlimited.Unlimited := ⟨rfl, rfl⟩
  have written : Encoding.bincode.write events Buffer.unlimited =
      (.ok (), ⟨bytes, none, false⟩) := by cbv
  have stored : bytes = Buffer.unlimited.written ++ bytes := ByteArray.empty_append.symm
  have within : 22 ≤ bytes.size := by decide
  have first : endOf events 1 = 9 := by cbv
  have second : endOf events 2 = 23 := by cbv
  obtain ⟨kept, few, failure, ended, sound, fault, answers⟩ :=
    read_truncated Buffer.faithful ready written stored within
  have one : kept = 1 := by
    have := ended 1 (by decide)
    have := ended 2 (by decide)
    omega
  subst one
  refine ⟨ready, written, stored, within, ?_⟩
  cases failure with
  | none =>
    obtain ⟨count, few, reached⟩ := sound.1 rfl
    have amid : ∀ count ≤ 2, endOf events count ≠ 22 := by decide
    exact absurd reached (amid count few)
  | some found =>
    rw [fault found rfl] at answers
    exact answers

end Faithful

end BinaryStream

end TraceTables
