import TraceTables.Proofs.Binary.Locality
import TraceTables.Proofs.Binary.Stream

/-!
# The largest size of an event

No event takes more octets than `maxEventSize`, neither in a recording that is written nor in one
that is read, and each event is measured by itself.

A writer measures the whole encoding before it writes any of it. What has been recorded when an
event turns out to be too large is therefore a complete recording of the events before it
(`write_until_too_large`). A reader charges each part of an event before it looks at it, so that
octets beyond the largest size cannot make a difference, whatever lengths are claimed
(`next_of_same_beginning`). Both measures are the size of the encoding, and so what is written can
be read, up to the very largest event.
-/

namespace TraceTables

open Binary

namespace Binary

/-- An error with a text of the given length. -/
def errorOfLength (length : Nat) : Event :=
  .error (String.ofList (List.replicate length 'a'))

/-- The number of the variant and the length of the text take the first twelve octets. -/
theorem size_errorOfLength (length : Nat) :
    (encodeEvent (errorOfLength length)).size = length + 12 := by
  have width : 'a'.utf8Size = 1 := rfl
  have text : (List.replicate length 'a').utf8Encode.size = length := by
    simp [List.utf8Encode, width]
  simp [encodeEvent, errorOfLength, encodePayload, encodeText, encodeNumber, text]
  omega

variable {first second : Input}

/-- Whether the same octets come next at two places as far as the budget goes, which is the same,
and the inputs end alike. -/
structure Cursor.SameAhead (a : Cursor first) (b : Cursor second) : Prop where
  budget : b.budget = a.budget
  octets : b.remaining.take a.budget = a.remaining.take a.budget
  ends : second.fault = first.fault

namespace Cursor.SameAhead

variable {a : Cursor first} {b : Cursor second} {count : Nat}

/-- What the budget covers is there at both places or at none. -/
theorem length_iff (same : a.SameAhead b) (covered : count ≤ a.budget) :
    count ≤ b.remaining.length ↔ count ≤ a.remaining.length := by
  have lengths := congrArg List.length same.octets
  rw [List.length_take, List.length_take] at lengths
  omega

/-- What the budget covers is the same at both places. -/
theorem take_eq (same : a.SameAhead b) (covered : count ≤ a.budget) :
    b.remaining.take count = a.remaining.take count := by
  have prefixes := congrArg (List.take count) same.octets
  rwa [List.take_take, List.take_take, Nat.min_eq_left covered] at prefixes

theorem drop_eq (same : a.SameAhead b) :
    (b.remaining.drop count).take (a.budget - count) =
      (a.remaining.drop count).take (a.budget - count) := by
  rw [← List.drop_take, ← List.drop_take, same.octets]

end Cursor.SameAhead

namespace Decoder

variable {α β : Type}

/-- Whether two runs come to the same result, and to places at which the same goes on. -/
inductive SameResult :
    Except Cause (α × Cursor first) → Except Cause (α × Cursor second) → Prop where
  | value (a : α) {cursor : Cursor first} {cursor' : Cursor second}
    (behind : cursor.SameAhead cursor') : SameResult (.ok (a, cursor)) (.ok (a, cursor'))
  | refused (cause : Cause) : SameResult (.error cause) (.error cause)

/-- Whether two decoders come to the same result wherever the budget covers the same octets. -/
def WithinBudget (decoder : Decoder first α) (decoder' : Decoder second α) : Prop :=
  ∀ ⦃cursor cursor'⦄, cursor.SameAhead cursor' → SameResult (decoder cursor) (decoder' cursor')

theorem WithinBudget.bind {decoder : Decoder first α} {decoder' : Decoder second α}
    {f : α → Decoder first β} {f' : α → Decoder second β} (h : WithinBudget decoder decoder')
    (hf : ∀ a, WithinBudget (f a) (f' a)) : WithinBudget (decoder >>= f) (decoder' >>= f') := by
  intro cursor cursor' same
  have result := h same
  change SameResult (Except.bind (decoder cursor) fun result => f result.1 result.2)
    (Except.bind (decoder' cursor') fun result => f' result.1 result.2)
  generalize decoder cursor = left at result ⊢
  generalize decoder' cursor' = right at result ⊢
  cases result with
  | value a behind => exact hf a behind
  | refused cause => exact .refused cause

/-- The budget is looked at first, and only octets that it covers after it. -/
theorem withinBudget_take (count : Nat) :
    WithinBudget (take count : Decoder first ByteArray)
      (take count : Decoder second ByteArray) := by
  intro cursor cursor' same
  rcases Nat.lt_or_ge cursor.budget count with uncovered | covered
  · rw [take_of_not_covered uncovered, take_of_not_covered (same.budget ▸ uncovered)]
    exact .refused _
  rcases Nat.lt_or_ge cursor.remaining.length count with outside | inside
  · have outside' : cursor'.remaining.length < count := by
      have := same.length_iff covered
      omega
    have cause : endCause second = endCause first := by
      rw [endCause, endCause, same.ends]
    rw [take_of_outside covered outside, take_of_outside (same.budget ▸ covered) outside', cause]
    exact .refused _
  · have inside' := (same.length_iff covered).2 inside
    obtain ⟨next, taken, behind, left⟩ := take_of_inside covered inside
    obtain ⟨next', taken', behind', left'⟩ := take_of_inside (same.budget ▸ covered) inside'
    rw [taken, taken', same.take_eq covered]
    refine .value _ ⟨?_, ?_, same.ends⟩
    · rw [left, left', same.budget]
    · rw [left, behind, behind', same.drop_eq]

/-- An event is decoded from octets that the budget covers. -/
theorem withinBudget_event :
    WithinBudget (event : Decoder first Event) (event : Decoder second Event) :=
  Congruence.event ⟨WithinBudget, fun a _ _ same => .value a same,
    fun cause _ _ _ => .refused cause, WithinBudget.bind, withinBudget_take⟩

end Decoder

end Binary

namespace BinaryStream.Source

variable {first second : Input} {source : Source first} {other : Source second}

/-- Where the same octets come next, as far as an event may reach, the same is yielded. -/
theorem next_of_sameAhead (sound : source.failed = false) (sound' : other.failed = false)
    (index : other.index = source.index) (same : source.cursor.SameAhead other.cursor) :
    source.next.1 = other.next.1 := by
  have covered : 1 ≤ maxEventSize := by decide
  have more : other.remaining ≠ [] ↔ source.remaining ≠ [] := by
    rw [← List.length_pos_iff, ← List.length_pos_iff]
    exact same.length_iff covered
  by_cases octets : source.remaining = []
  · have octets' : other.remaining = [] := not_ne_iff.1 fun left => more.1 left octets
    rw [next_of_remaining_nil sound octets, next_of_remaining_nil sound' octets', same.ends]
    cases first.fault <;> rfl
  · have octets' := more.2 octets
    rw [next_of_remaining sound octets, next_of_remaining sound' octets', index]
    have result := Decoder.withinBudget_event same
    generalize Decoder.event source.cursor = left at result ⊢
    generalize Decoder.event other.cursor = right at result ⊢
    cases result <;> rfl

/-- An event takes as many octets as its encoding has. -/
theorem position_of_next {rest : Source first} {event : Event}
    (yields : source.next = (some (.ok event), rest)) :
    rest.position = source.position + (encodeEvent event).size ∧ Fits event := by
  obtain ⟨-, cursor, decoded, rfl⟩ := next_eq_event yields
  obtain ⟨_, rfl, octets, charged⟩ := (Decoder.inverts_event (Nat.le_refl _)).1 decoded
  have lengths := congrArg List.length octets
  rw [List.length_append, Cursor.length_remaining, Cursor.length_remaining] at lengths
  have size : (encodeEvent event).data.toList.length = (encodeEvent event).size := rfl
  have := cursor.inside
  have := source.inside
  refine ⟨?_, ?_⟩
  · simp only at *
    omega
  · rw [Fits]
    simp only at *
    omega

end BinaryStream.Source

namespace Encoding

variable {σ : Type} [Sink σ] {sound : σ → Prop} {held : σ → ByteArray} {out : σ}

/-- Over a sink that never fails, events can be recorded exactly if they all fit. -/
theorem exists_write_bincode_iff (faithful : Sink.Faithful sound held) (ready : sound out)
    (events : List Event) :
    (∃ next, bincode.write events out = (.ok (), next)) ↔ ∀ event ∈ events, Fits event := by
  constructor
  · rintro ⟨next, succeeded⟩
    obtain ⟨next', wrote, -⟩ := write_faithful faithful .bincode events ready
    rw [wrote] at succeeded
    exact fits_of_record_bincode (congrArg Prod.fst succeeded)
  · intro allFit
    obtain ⟨next, wrote, -⟩ := (write_bincode_iff faithful ready events _).2 ⟨allFit, rfl⟩
    exact ⟨next, wrote⟩

/-- Events that fit are recorded, and then the first that does not is refused. -/
theorem record_bincode_refused {kept : List Event} (allFit : ∀ event ∈ kept, Fits event)
    {event : Event} (tooLarge : ¬ Fits event) (more : List Event) :
    bincode.record (kept ++ event :: more) =
      ⟨encodeEvents kept, .error (.malformedEvent .output (.binary .sizeLimit))⟩ := by
  induction kept with
  | nil => exact record_of_error (encode_bincode_of_not_fits tooLarge) more
  | cons first rest ih =>
    obtain ⟨fits, restFit⟩ := List.forall_mem_cons.1 allFit
    rw [List.cons_append, record_cons (encode_bincode fits), ih restFit]
    rfl

/-- Nothing of an event that does not fit is stored. -/
theorem write_bincode_refused (faithful : Sink.Faithful sound held) (ready : sound out)
    {kept : List Event} (allFit : ∀ event ∈ kept, Fits event) {event : Event}
    (tooLarge : ¬ Fits event) (more : List Event) :
    ∃ next, bincode.write (kept ++ event :: more) out =
        (.error (.malformedEvent .output (.binary .sizeLimit)), next) ∧
      held next = held out ++ encodeEvents kept := by
  obtain ⟨next, wrote, grown⟩ := write_faithful faithful .bincode (kept ++ event :: more) ready
  rw [record_bincode_refused allFit tooLarge] at wrote grown
  exact ⟨next, wrote, grown.held⟩

end Encoding

namespace BinaryStream

open TraceTables.Source

/-- The encodings of events that fit are read as these events, and then nothing more. -/
theorem ask_encodeEvents {events : List Event} (allFit : ∀ event ∈ events, Fits event)
    (place : Nat) :
    ask place (Source.start ⟨encodeEvents events, none⟩) = (events.map Except.ok)[place]? := by
  have reading : TraceTables.Source.read (Source.start ⟨encodeEvents events, none⟩) =
      ⟨events, none⟩ :=
    (Source.read_eq_iff rfl rfl events).2 ⟨allFit, rfl⟩
  rw [ask_eq, reading, Reading.items_events]

section Writing

variable {σ : Type} [Sink σ] {sound : σ → Prop} {held : σ → ByteArray}

/-- Over a sink that never fails, events can be recorded exactly if none is larger than the largest
size. Otherwise the encodings of the events before the first that is larger are stored and
nothing else, and these are read back as those events. An event of exactly the largest size is
recorded and read back. -/
theorem write_until_too_large (faithful : Sink.Faithful sound held) {out : σ} (ready : sound out)
    (events : List Event) :
    ((∃ next, Encoding.bincode.write events out = (.ok (), next)) ↔
      ∀ event ∈ events, (encodeEvent event).size ≤ maxEventSize) ∧
    (∀ (k : Nat) (within : k < events.length), maxEventSize < (encodeEvent events[k]).size →
      (∀ (i : Nat) (before : i < k), (encodeEvent events[i]).size ≤ maxEventSize) →
      ∃ next,
        Encoding.bincode.write events out =
          (.error (.malformedEvent .output (.binary .sizeLimit)), next) ∧
        held next = held out ++ encodeEvents (events.take k) ∧
        ∀ place, ask place (Source.start ⟨encodeEvents (events.take k), none⟩) =
          ((events.take k).map Except.ok)[place]?) ∧
    ∀ event, (encodeEvent event).size = maxEventSize →
      ∃ next, Encoding.bincode.write [event] out = (.ok (), next) ∧
        held next = held out ++ encodeEvent event ∧
        ∀ place, ask place (Source.start ⟨encodeEvent event, none⟩) =
          [Except.ok event][place]? := by
  refine ⟨Encoding.exists_write_bincode_iff faithful ready events, ?_, ?_⟩
  · intro k within tooLarge before
    have allFit : ∀ event ∈ events.take k, Fits event := by
      intro event member
      obtain ⟨i, inside, rfl⟩ := List.getElem_of_mem member
      rw [List.length_take] at inside
      rw [List.getElem_take]
      exact before i (by omega)
    have cut : events.take k ++ events[k] :: events.drop (k + 1) = events := by simp
    obtain ⟨next, refused, stored⟩ := Encoding.write_bincode_refused faithful ready allFit
      (Nat.not_le.2 tooLarge) (events.drop (k + 1))
    rw [cut] at refused
    exact ⟨next, refused, stored, ask_encodeEvents allFit⟩
  · intro event largest
    have fits : ∀ one ∈ [event], Fits one := by
      intro one member
      obtain rfl := List.mem_singleton.1 member
      exact Nat.le_of_eq largest
    have whole : encodeEvents [event] = encodeEvent event := ByteArray.append_empty
    obtain ⟨next, wrote, stored⟩ := (Encoding.write_bincode_iff faithful ready _ _).2 ⟨fits, rfl⟩
    have read := ask_encodeEvents fits
    rw [whole] at stored read
    exact ⟨next, wrote, stored, read⟩

end Writing

/-- An event of exactly the largest size, and one that takes an octet more, behind a smaller. -/
theorem write_until_too_large_errors :
    (∃ next,
      Encoding.bincode.write
          [.rowBegin, errorOfLength (maxEventSize - 12), errorOfLength (maxEventSize - 11), .rowEnd]
          Buffer.unlimited =
        (.error (.malformedEvent .output (.binary .sizeLimit)), next) ∧
      next.written = encodeEvents [.rowBegin, errorOfLength (maxEventSize - 12)]) ∧
    ∃ next,
      Encoding.bincode.write [errorOfLength (maxEventSize - 12)] Buffer.unlimited =
          (.ok (), next) ∧
        next.written = encodeEvent (errorOfLength (maxEventSize - 12)) := by
  have ready : Buffer.unlimited.Unlimited := ⟨rfl, rfl⟩
  have large : 12 ≤ maxEventSize := by decide
  constructor
  · have small : (encodeEvent .rowBegin).size = 4 := rfl
    obtain ⟨next, refused, stored, -⟩ := (write_until_too_large Buffer.faithful ready
      [.rowBegin, errorOfLength (maxEventSize - 12), errorOfLength (maxEventSize - 11), .rowEnd]
      ).2.1 2 (by simp)
        (by
          simp only [List.getElem_cons_succ, List.getElem_cons_zero, size_errorOfLength]
          omega)
        (by
          intro i before
          obtain rfl | rfl : i = 0 ∨ i = 1 := by omega
          · simp only [List.getElem_cons_zero, small]
            omega
          · simp only [List.getElem_cons_succ, List.getElem_cons_zero, size_errorOfLength]
            omega)
    exact ⟨next, refused, stored.trans ByteArray.empty_append⟩
  · obtain ⟨next, wrote, stored, -⟩ := (write_until_too_large Buffer.faithful ready []).2.2
      (errorOfLength (maxEventSize - 12)) (by rw [size_errorOfLength]; omega)
    exact ⟨next, wrote, stored.trans ByteArray.empty_append⟩

/-- Reading an event does not depend on more octets than the largest event has. Over two inputs that
begin with the same such octets, or are the same if they are shorter, a source yields the same
first: the same event, the same fault or nothing. An event has then taken at least four octets and
at most those of the largest. -/
theorem next_of_same_beginning {a b : ByteArray} (fault : Option DeviceFault)
    (same : a.extract 0 maxEventSize = b.extract 0 maxEventSize) :
    ask 0 (Source.start ⟨a, fault⟩) = ask 0 (Source.start ⟨b, fault⟩) ∧
      ∀ event rest, next (Source.start ⟨a, fault⟩) = (some (.ok event), rest) →
        4 ≤ rest.position ∧ rest.position ≤ maxEventSize := by
  constructor
  · have octets := congrArg (fun bytes : ByteArray => bytes.data.toList) same
    refine Source.next_of_sameAhead rfl rfl rfl ⟨rfl, ?_, rfl⟩
    simpa [Cursor.remaining, Source.cursor, Source.start] using octets.symm
  · intro event rest yields
    obtain ⟨position, fits⟩ := Source.position_of_next yields
    rw [position, show (Source.start ⟨a, fault⟩).position = 0 from rfl, Nat.zero_add]
    exact ⟨le_size_encodeEvent event, fits⟩

/-- An event of exactly the largest size, behind which something else follows. -/
def largestThen (more : ByteArray) : ByteArray :=
  encodeEvent (errorOfLength (maxEventSize - 12)) ++ more

/-- What follows an event of exactly the largest size is not looked at. -/
theorem next_of_same_beginning_largest :
    (largestThen ⟨#[0]⟩).extract 0 maxEventSize = (largestThen ⟨#[9, 9]⟩).extract 0 maxEventSize ∧
      ask 0 (Source.start ⟨largestThen ⟨#[0]⟩, none⟩) =
        ask 0 (Source.start ⟨largestThen ⟨#[9, 9]⟩, none⟩) ∧
      ∃ rest, next (Source.start ⟨largestThen ⟨#[0]⟩, none⟩) =
          (some (.ok (errorOfLength (maxEventSize - 12))), rest) ∧
        4 ≤ rest.position ∧ rest.position ≤ maxEventSize := by
  have size : (encodeEvent (errorOfLength (maxEventSize - 12))).size = maxEventSize := by
    have large : 12 ≤ maxEventSize := by decide
    rw [size_errorOfLength]
    omega
  have same : (largestThen ⟨#[0]⟩).extract 0 maxEventSize =
      (largestThen ⟨#[9, 9]⟩).extract 0 maxEventSize := by
    rw [← size, largestThen, largestThen, ByteArray.extract_append_eq_left rfl,
      ByteArray.extract_append_eq_left rfl]
  have sound : (Source.start ⟨largestThen ⟨#[0]⟩, none⟩).failed = false := rfl
  have octets : (Source.start ⟨largestThen ⟨#[0]⟩, none⟩).remaining =
      (encodeEvent (errorOfLength (maxEventSize - 12))).data.toList ++ [0] := by
    rw [Source.remaining_start]
    simp [largestThen]
  obtain ⟨rest, yields, -⟩ := Source.next_of_begins sound (Nat.le_of_eq size) octets
  obtain ⟨agree, consumed⟩ := next_of_same_beginning none same
  exact ⟨same, agree, rest, yields, consumed _ _ yields⟩

end BinaryStream

end TraceTables
