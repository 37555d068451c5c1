import TraceTables.Proofs.Binary.Locality
import TraceTables.Proofs.Binary.Stream
import TraceTables.Proofs.Lines
import TraceTables.Recording.JsonLines

/-!
# Recordings that are joined

Recordings are joined by putting the octets of one behind those of the other. What is read from
both is what is read from the first and then what is read from the second, and a fault in the
second is found there, only that its place is counted from the beginning of the first
(`ask_append`).

For a binary recording this holds because a decoder looks at the octets that come next and at
nothing else, and because every event has a budget of its own. Lines are joined whole, which is why
the first recording has to end with a line feed unless it is empty.
-/

namespace TraceTables

/-- The same place, counted from an earlier beginning. -/
def Place.later (count : Nat) : Place → Place
  | .line number => .line (number + count)
  | .event index => .event (index + count)
  | .output => .output

/-- The same fault, with its place counted from an earlier beginning. -/
def Fault.later (count : Nat) : Fault → Fault
  | .malformedEvent place reason => .malformedEvent (place.later count) reason
  | fault => fault

/-- The same item, with the place of a fault counted from an earlier beginning. -/
def Item.later (count : Nat) : Item → Item
  | .ok event => .ok event
  | .error fault => .error (fault.later count)

/-- Whether a source yields events and then what another one does, at places counted from an earlier
beginning. -/
structure Source.LeadsTo {σ τ : Type} [Source σ] [Source τ] (source : σ) (events : List Event)
    (count : Nat) (other : τ) : Prop where
  first (place : Nat) (within : place < events.length) :
    ask place source = some (.ok events[place])
  behind (place : Nat) :
    ask (events.length + place) source = (ask place other).map (Item.later count)

/-- A source leads to another one if what it comes to behind the events goes on step by step as the
other one does. -/
theorem Source.leadsTo_of_read {σ τ : Type} [Source σ] [Source τ] {R : σ → τ → Prop} {count : Nat}
    (step : ∀ ⦃source other⦄, R source other →
      (next source).1 = (next other).1.map (Item.later count) ∧ R (next source).2 (next other).2)
    {source rest : σ} {other : τ} {events : List Event}
    (reading : read source = (read rest).after events) (related : R rest other) :
    LeadsTo source events count other := by
  obtain ⟨first, behind⟩ := ask_of_read_after reading
  exact ⟨first, fun place => (behind place).trans (ask_of_related step related place)⟩

namespace BinaryStream

open Binary TraceTables.Source

/-- Whether the same octets remain for two sources, the first of which has read `count` events more
before. -/
structure Source.Behind {input input' : Input} (count : Nat) (source : Source input)
    (other : Source input') : Prop where
  remaining : source.remaining = other.remaining
  index : source.index = other.index + count
  failed : source.failed = other.failed

variable {input input' : Input} {source : Source input} {other : Source input'} {count : Nat}

/-- Where the same octets remain, the same is yielded next. -/
theorem Source.next_of_behind (ends : input'.fault = input.fault)
    (same : source.Behind count other) :
    source.next.1 = other.next.1.map (Item.later count) ∧
      source.next.2.Behind count other.next.2 := by
  obtain ⟨remaining, index, failed⟩ := same
  cases given : other.failed with
  | true =>
    rw [next_of_failed given, next_of_failed (failed.trans given)]
    exact ⟨rfl, remaining, index, failed⟩
  | false =>
    by_cases nothing : other.remaining = []
    · rw [next_of_remaining_nil given nothing,
        next_of_remaining_nil (failed.trans given) (remaining.trans nothing), ends]
      cases input.fault with
      | none => exact ⟨rfl, remaining, index, failed⟩
      | some cause => exact ⟨rfl, remaining, index, rfl⟩
    · rw [next_of_remaining given nothing,
        next_of_remaining (failed.trans given) (remaining ▸ nothing)]
      have precedes : source.cursor.Precedes [] other.cursor :=
        ⟨by rw [List.append_nil]; exact remaining.symm, rfl, fun _ => ends⟩
      have agree := Decoder.matches_event precedes
      generalize Decoder.event source.cursor = result at agree ⊢
      generalize Decoder.event other.cursor = result' at agree ⊢
      have index' : source.index + 1 = other.index + 1 + count := by
        omega
      cases agree with
      | value event behind =>
        have octets := behind.remaining
        rw [List.append_nil] at octets
        exact ⟨rfl, octets.symm, index', rfl⟩
      | refused cause => exact ⟨by rw [index]; rfl, remaining, index', rfl⟩
      | ended more => exact absurd rfl more

/-- Behind octets that are read without a fault, others are read as they are by themselves. -/
theorem leadsTo_append {a : ByteArray} {events : List Event}
    (reading : TraceTables.Source.read (Source.start ⟨a, none⟩) = ⟨events, none⟩) (b : ByteArray)
    (fault : Option DeviceFault) :
    LeadsTo (Source.start ⟨a ++ b, fault⟩) events events.length (Source.start ⟨b, fault⟩) := by
  obtain ⟨allFit, octets⟩ := (Source.read_eq_iff rfl rfl events).1 reading
  have joined : (Source.start ⟨a ++ b, fault⟩).remaining =
      (encodeEvents events).data.toList ++ b.data.toList := by
    rw [← octets, Source.remaining_start, Source.remaining_start]
    simp
  obtain ⟨rest, sound, index, remains, reading'⟩ := Source.read_behind rfl allFit joined
  have same : rest.Behind events.length (Source.start ⟨b, fault⟩) := ⟨remains, index, sound⟩
  refine leadsTo_of_read (R := fun source other => source.Behind events.length other) ?_ reading'
    same
  intro _ _ same
  exact Source.next_of_behind rfl same

end BinaryStream

namespace JsonLines

open TraceTables.Source

/-- The same place, when `count` lines more have been read before. -/
def Source.later (count : Nat) (source : Source) : Source :=
  { source with number := source.number + count }

/-- Lines are read alike wherever they are counted from. -/
theorem Source.nextLine_later (fault : Option DeviceFault) (number count : Nat)
    (lines : List ByteArray) :
    (nextLine fault (number + count) lines).1 =
        (nextLine fault number lines).1.map (Item.later count) ∧
      (nextLine fault (number + count) lines).2 = (nextLine fault number lines).2.later count := by
  induction lines generalizing number with
  | nil => cases fault <;> exact ⟨rfl, rfl⟩
  | cons line more ih =>
    have counted : number + count + 1 = number + 1 + count := Nat.add_right_comm _ _ _
    rw [nextLine, nextLine, counted]
    split
    · exact ⟨rfl, rfl⟩
    split
    · exact ih (number + 1)
    split <;> exact ⟨rfl, rfl⟩

theorem Source.next_later (source : Source) (count : Nat) :
    (source.later count).next.1 = source.next.1.map (Item.later count) ∧
      (source.later count).next.2 = source.next.2.later count := by
  cases given : source.failed with
  | true =>
    rw [next_of_failed given, next_of_failed (show (source.later count).failed = true from given)]
    exact ⟨rfl, rfl⟩
  | false =>
    rw [next, next, if_neg (by simp [later, given]), if_neg (by simp [given])]
    exact nextLine_later source.fault source.number count source.lines

/-- The place in front of lines, when others have been read before. -/
def Source.before (lines : List ByteArray) (fault : Option DeviceFault) (number : Nat) : Source :=
  ⟨lines, fault, number, false⟩

section Line

variable {line : ByteArray} {text : String} (more : List ByteArray) (fault : Option DeviceFault)
  (number : Nat)

theorem Source.next_of_noText {malformed : Text.Utf8.Fault}
    (decoded : Text.Utf8.decode line = .error malformed) :
    next (before (line :: more) fault number) =
      (some (.error (.device .notText)), ⟨more, fault, number, true⟩) := by
  simp [next, before, nextLine, decoded]

theorem Source.next_of_blank (decoded : Text.Utf8.decode line = .ok text)
    (blank : Text.isBlank text.toList = true) :
    next (before (line :: more) fault number) = next (before more fault (number + 1)) := by
  simp [next, before, nextLine, decoded, blank]

theorem Source.next_of_describes (decoded : Text.Utf8.decode line = .ok text)
    (visible : Text.isBlank text.toList = false) {event : Event}
    (reads : Json.readEvent text = .ok event) :
    next (before (line :: more) fault number) =
      (some (.ok event), before more fault (number + 1)) := by
  simp [next, before, nextLine, decoded, visible, reads]

theorem Source.next_of_malformed (decoded : Text.Utf8.decode line = .ok text)
    (visible : Text.isBlank text.toList = false) {malformed : Json.Malformed}
    (refused : Json.readEvent text = .error malformed) :
    next (before (line :: more) fault number) =
      (some (.error (.malformedEvent (.line (number + 1)) (.json malformed))),
        ⟨more, fault, number + 1, true⟩) := by
  simp [next, before, nextLine, decoded, visible, refused]

end Line

/-- A line is passed over, is read as an event or is at fault, whatever stands behind it. -/
theorem Source.next_cases (line : ByteArray) :
    (∀ more fault number, next (before (line :: more) fault number) =
      next (before more fault (number + 1))) ∨
    (∃ event, ∀ more fault number, next (before (line :: more) fault number) =
      (some (.ok event), before more fault (number + 1))) ∨
    ∀ more fault number, ∃ cause rest, next (before (line :: more) fault number) =
      (some (.error cause), rest) := by
  cases decoded : Text.Utf8.decode line with
  | error malformed =>
    exact .inr (.inr fun more fault number => ⟨_, _, next_of_noText more fault number decoded⟩)
  | ok text =>
    cases visible : Text.isBlank text.toList with
    | true => exact .inl fun more fault number => next_of_blank more fault number decoded visible
    | false =>
      cases read : Json.readEvent text with
      | ok event =>
        exact .inr (.inl ⟨event, fun more fault number =>
          next_of_describes more fault number decoded visible read⟩)
      | error malformed =>
        exact .inr (.inr fun more fault number =>
          ⟨_, _, next_of_malformed more fault number decoded visible read⟩)

/-- Lines that are read without a fault are read as their events whatever stands behind them. -/
theorem read_lines_append {lines : List ByteArray} {number : Nat} {events : List Event}
    (reading : TraceTables.Source.read (Source.before lines none number) = ⟨events, none⟩)
    (more : List ByteArray) (fault : Option DeviceFault) :
    TraceTables.Source.read (Source.before (lines ++ more) fault number) =
      (TraceTables.Source.read (Source.before more fault (number + lines.length))).after
        events := by
  induction lines generalizing number events with
  | nil =>
    rw [read_of_end rfl] at reading
    cases reading
    rfl
  | cons line rest ih =>
    have count : number + (line :: rest).length = number + 1 + rest.length := by
      rw [List.length_cons]
      omega
    rw [List.cons_append, count]
    rcases Source.next_cases line with passed | ⟨event, yields⟩ | faulty
    · rw [read_congr (passed rest none number)] at reading
      rw [read_congr (passed (rest ++ more) fault number), ih reading]
    · rw [read_of_event (yields rest none number), Reading.after, Reading.mk.injEq] at reading
      obtain ⟨rfl, ended⟩ := reading
      have reading' : TraceTables.Source.read (Source.before rest none (number + 1)) =
          ⟨(TraceTables.Source.read (Source.before rest none (number + 1))).events, none⟩ := by
        rw [← ended]
      rw [read_of_event (yields (rest ++ more) fault number), ih reading', Reading.after_after]
    · obtain ⟨cause, last, yields⟩ := faulty rest none number
      rw [read_of_fault yields] at reading
      cases reading

/-- The lines of octets that end with a line end are followed by those of the octets behind them. -/
theorem lines_append {a : ByteArray} (whole : Lines.Whole a) (b : ByteArray)
    (fault : Option DeviceFault) :
    lines ⟨a ++ b, fault⟩ = lines ⟨a, none⟩ ++ lines ⟨b, fault⟩ ∧
      (lines ⟨a, none⟩).length = a.data.toList.count Lines.lineFeed := by
  have ended : lines ⟨a, none⟩ = (Lines.cut a).ended.toList := by
    simp [lines, Lines.current_of_whole whole]
  constructor
  · rw [ended, lines, lines, Lines.cut_append whole]
    split <;> simp
  · rw [ended, ← Lines.size_ended, Array.length_toList]

/-- Behind whole lines that are read without a fault, octets are read as they are by themselves. -/
theorem leadsTo_append {a : ByteArray} (whole : Lines.Whole a) {events : List Event}
    (reading : TraceTables.Source.read (Source.start ⟨a, none⟩) = ⟨events, none⟩) (b : ByteArray)
    (fault : Option DeviceFault) :
    LeadsTo (Source.start ⟨a ++ b, fault⟩) events (a.data.toList.count Lines.lineFeed)
      (Source.start ⟨b, fault⟩) := by
  obtain ⟨joined, count⟩ := lines_append whole b fault
  have reading' := read_lines_append reading (lines ⟨b, fault⟩) fault
  rw [← joined, count, Nat.zero_add] at reading'
  generalize a.data.toList.count Lines.lineFeed = feeds at reading' ⊢
  have same : Source.before (lines ⟨b, fault⟩) fault feeds =
      (Source.start ⟨b, fault⟩).later feeds := by
    rw [Source.later, Source.start, Source.before, Nat.zero_add]
  refine leadsTo_of_read (R := fun source other => source = other.later feeds) ?_ reading' same
  rintro _ other rfl
  exact other.next_later feeds

end JsonLines

section Recordings

open Source

/-- Joined recordings are read one after the other. If octets are read as events without a fault,
and for lines of JSON if they are empty or end with a line feed, then over these octets and others
behind them the events are yielded first, and then exactly what is yielded over the others alone,
whatever these are and however their input ends. Only the place of a malformed event differs: it is
counted on by the number of the events, or of the line feeds, of the first recording. -/
theorem ask_append (a b : ByteArray) (fault : Option DeviceFault) (events : List Event) :
    ((∀ place, ask place (BinaryStream.Source.start ⟨a, none⟩) = (events.map Except.ok)[place]?) →
      LeadsTo (BinaryStream.Source.start ⟨a ++ b, fault⟩) events events.length
        (BinaryStream.Source.start ⟨b, fault⟩)) ∧
    (a = .empty ∨ a.data.back? = some Lines.lineFeed →
      (∀ place, ask place (JsonLines.Source.start ⟨a, none⟩) = (events.map Except.ok)[place]?) →
      LeadsTo (JsonLines.Source.start ⟨a ++ b, fault⟩) events
        (a.data.toList.count Lines.lineFeed) (JsonLines.Source.start ⟨b, fault⟩)) := by
  constructor
  · intro answers
    rw [← Reading.items_events, ask_eq_iff] at answers
    exact BinaryStream.leadsTo_append answers b fault
  · intro whole answers
    rw [← Reading.items_events, ask_eq_iff] at answers
    exact JsonLines.leadsTo_append whole answers b fault

/-- A row begins, and then comes what is no event: in binary, and as lines of which one is blank. -/
theorem ask_append_malformed :
    let events : List Event := [.rowBegin]
    let binary : ByteArray := ⟨#[2, 0, 0, 0]⟩
    let lines : ByteArray := "\"row_begin\"\n\n".toUTF8
    (∀ place, ask place (BinaryStream.Source.start ⟨binary, none⟩) =
        (events.map Except.ok)[place]?) ∧
      (∀ place, ask place (JsonLines.Source.start ⟨lines, none⟩) =
        (events.map Except.ok)[place]?) ∧
      lines.data.back? = some Lines.lineFeed ∧
      ask 0 (BinaryStream.Source.start ⟨binary ++ ⟨#[9]⟩, some .readFailed⟩) =
        some (.ok .rowBegin) ∧
      ask 1 (BinaryStream.Source.start ⟨binary ++ ⟨#[9]⟩, some .readFailed⟩) =
        some (.error (.malformedEvent (.event 1) (.binary (.device .readFailed)))) ∧
      ask 0 (JsonLines.Source.start ⟨lines ++ "x".toUTF8, none⟩) = some (.ok .rowBegin) ∧
      ask 1 (JsonLines.Source.start ⟨lines ++ "x".toUTF8, none⟩) =
        some (.error (.malformedEvent (.line 3) (.json ⟨.expectedValue, some 1⟩))) := by
  intro events binary lines
  have recorded : ∀ place, ask place (BinaryStream.Source.start ⟨binary, none⟩) =
      (events.map Except.ok)[place]? := by
    rw [← Reading.items_events, ask_eq_iff]
    exact (BinaryStream.Source.read_eq_iff rfl rfl events).2 ⟨by decide, by cbv⟩
  have written : ∀ place, ask place (JsonLines.Source.start ⟨lines, none⟩) =
      (events.map Except.ok)[place]? := by
    have cut : JsonLines.lines ⟨lines, none⟩ = ["\"row_begin\"".toUTF8, .empty] := by cbv
    have text : Text.Utf8.decode "\"row_begin\"".toUTF8 = .ok "\"row_begin\"" := by cbv
    have shown : Text.isBlank "\"row_begin\"".toList = false := by cbv
    have event : Json.readEvent "\"row_begin\"" = .ok .rowBegin := by cbv
    have begins : next (JsonLines.Source.start ⟨lines, none⟩) =
        (some (.ok .rowBegin), ⟨[.empty], none, 1, false⟩) := by
      simp only [next, JsonLines.Source.next, JsonLines.Source.start, JsonLines.Source.nextLine,
        cut, text, shown, event, Bool.false_eq_true, if_false]
    have ends : next (⟨[.empty], none, 1, false⟩ : JsonLines.Source) =
        (none, ⟨[], none, 2, false⟩) :=
      rfl
    rw [← Reading.items_events, ask_eq_iff, read_of_event begins, read_of_end ends]
    rfl
  have whole : lines.data.back? = some Lines.lineFeed := by cbv
  obtain ⟨first, behind⟩ := (ask_append binary ⟨#[9]⟩ (some .readFailed) events).1 recorded
  obtain ⟨first', behind'⟩ := (ask_append lines "x".toUTF8 none events).2 (.inr whole) written
  have refused : ask 0 (JsonLines.Source.start ⟨"x".toUTF8, none⟩) =
      some (.error (.malformedEvent (.line 1) (.json ⟨.expectedValue, some 1⟩))) := by
    cbv
  have feeds : lines.data.toList.count Lines.lineFeed = 2 := by cbv
  refine ⟨recorded, written, whole, first 0 (by decide), ?_, first' 0 (by decide), ?_⟩
  · refine (behind 0).trans ?_
    cbv
  · refine (behind' 0).trans ?_
    rw [refused, feeds]
    rfl

end Recordings

end TraceTables
