import TraceTables.Proofs.Acceptance

/-!
# What is seen of a trace

Most of what a renderer knows is needed only to tell which events are seen: those that name a table
that the filter keeps, and those inside a table that is written with its rows. From one event that
is seen to the next, only two numbers are carried over, that of the tables written so far and that
of the fields in the row. `typeset` is the text of what is seen, with any such numbers to start
from, and `counted` is what events add to the counters.

`ofEvents_eq` says that a rendition comes to this and to nothing else: its text, what it carries
over and its counters are told by the events that are seen, if all are handled.
-/

namespace TraceTables

namespace Options

variable (options : Options) (written : Bool)

/-- Whether what follows an event is in a table that is written with its rows. -/
def leadsWritten : Event → Bool
  | .tableBegin _ name => !options.discards name
  | .tableEnd => false
  | _ => written

/-- Whether an event is seen. -/
def shows : Event → Bool
  | .tableBegin _ name => !options.filter.suppresses name
  | .tableEnd | .error _ => false
  | _ => written

/-- What an event adds to the counters. -/
def counts : Event → Summary
  | .tableBegin _ name => if options.discards name then ⟨1, 0, 1, 0⟩ else ⟨1, 1, 0, 0⟩
  | .rowEnd => if written then ⟨0, 0, 0, 1⟩ else .zero
  | _ => .zero

theorem shows_of_isContent {event : Event} (content : event.IsContent) :
    options.shows written event = written := by
  rcases content.cases with rfl | rfl | ⟨entry, rfl⟩
  · rfl
  · rfl
  · cases entry <;> rfl

end Options

/-- The events that are seen. -/
def shown (options : Options) : Bool → List Event → List Event
  | _, [] => []
  | written, event :: more =>
    let rest := shown options (options.leadsWritten written event) more
    if options.shows written event then event :: rest else rest

/-- The counters of events. -/
def counted (options : Options) : Bool → List Event → Summary
  | _, [] => .zero
  | written, event :: more =>
    options.counts written event + counted options (options.leadsWritten written event) more

/-- What is carried over from one event that is seen to the next. -/
structure Carried where
  /-- How many tables have been written with their rows. -/
  ordinal : Nat
  /-- How many fields the row has. -/
  column : Nat

namespace Carried

variable (options : Options) (carried : Carried)

/-- What is carried past an event that is seen. -/
def past : Event → Carried
  | .tableBegin .. =>
    if options.namesOnly then carried else { carried with ordinal := carried.ordinal + 1 }
  | .rowBegin => { carried with column := 0 }
  | .columnDeclare .. | .cellValue _ => { carried with column := carried.column + 1 }
  | _ => carried

/-- What is carried past an event, seen or not. -/
def next (written : Bool) (event : Event) : Carried :=
  if options.shows written event then carried.past options event else carried

/-- The text of an event that is seen. -/
def text : Event → String
  | .tableBegin _ name =>
    (if !options.namesOnly ∧ 0 < carried.ordinal then "\n" else "") ++ (Field.quote name ++ "\n")
  | .columnDeclare type name =>
    (if 0 < carried.column then options.separator else "") ++ (Entry.column type name).text
  | .cellValue value =>
    (if 0 < carried.column then options.separator else "") ++ (Entry.cell value).text
  | .rowEnd => "\n"
  | _ => ""

theorem text_entry (entry : Entry) :
    carried.text options entry.event =
      (if 0 < carried.column then options.separator else "") ++ entry.text := by
  cases entry <;> rfl

theorem past_entry (entry : Entry) :
    carried.past options entry.event = { carried with column := carried.column + 1 } := by
  cases entry <;> rfl

end Carried

/-- The text of events that are seen. -/
def typeset (options : Options) : Carried → List Event → String
  | _, [] => ""
  | carried, event :: more =>
    carried.text options event ++ typeset options (carried.past options event) more

section Shown

variable (options : Options) (carried : Carried) (written : Bool) (event : Event)
  (more : List Event)

theorem foldl_shown_cons :
    (shown options written (event :: more)).foldl (Carried.past options) carried =
      (shown options (options.leadsWritten written event) more).foldl (Carried.past options)
        (carried.next options written event) := by
  rw [shown, Carried.next]
  split <;> rfl

theorem typeset_shown_cons :
    typeset options carried (shown options written (event :: more)) =
      (if options.shows written event then carried.text options event else "") ++
        typeset options (carried.next options written event)
          (shown options (options.leadsWritten written event) more) := by
  rw [shown, Carried.next]
  split
  · rfl
  · exact String.empty_append.symm

end Shown

/-! ## The account of a rendition -/

/-- Whether the state is that of a table that is written with its rows. -/
def TableState.isWritten : TableState → Bool
  | .inside suppressed => !suppressed
  | .idle => false

namespace Progress

variable (options : Options) (progress : Progress) (event : Event)

/-- What a rendering carries over. -/
def carried : Carried :=
  ⟨progress.ordinal, progress.column⟩

/-- The progress past an event that has a plan. -/
def past : Progress where
  state :=
    match event with
    | .tableBegin _ name => .inside (options.discards name)
    | .tableEnd => .idle
    | _ => progress.state
  ordinal := (progress.carried.next options progress.state.isWritten event).ordinal
  column := (progress.carried.next options progress.state.isWritten event).column
  summary := progress.summary + options.counts progress.state.isWritten event

@[simp] theorem carried_initial : initial.carried = ⟨0, 0⟩ := rfl

theorem carried_past :
    (progress.past options event).carried =
      progress.carried.next options progress.state.isWritten event := rfl

theorem isWritten_past :
    (progress.past options event).state.isWritten =
      options.leadsWritten progress.state.isWritten event := by
  cases event <;> rfl

end Progress

namespace Plan

variable {options : Options} {progress : Progress} {event : Event} {plan : List Action}

theorem inTable_entry (entry : Entry) :
    inTable options progress entry.event =
      addField options progress (Rendition.entryChunks entry) := by
  cases entry <;> rfl

theorem join_texts_ofEvent (planned : ofEvent options progress event = .ok plan) :
    String.join (Action.texts plan) =
      if options.shows progress.state.isWritten event then progress.carried.text options event
      else "" := by
  rcases ofEvent_cases planned with
    ⟨kind, name, -, rfl, rfl⟩ | ⟨-, rfl, rfl⟩ | ⟨inside, content, rfl⟩ | ⟨inside, content, rfl⟩
  · rw [join_texts_beginTable]
    by_cases suppressed : options.filter.suppresses name <;>
      by_cases namesOnly : options.namesOnly <;>
        simp [Options.shows, Carried.text, Progress.carried, suppressed, namesOnly]
  · rfl
  · rw [options.shows_of_isContent _ content, inside]
    rfl
  · rw [options.shows_of_isContent _ content, inside]
    rcases content.cases with rfl | rfl | ⟨entry, rfl⟩
    · rfl
    · rfl
    · rw [inTable_entry, join_texts_addField, Rendition.join_entryChunks, Carried.text_entry]
      rfl

theorem last_ofEvent (planned : ofEvent options progress event = .ok plan) :
    Action.last plan progress = progress.past options event := by
  obtain ⟨state, ordinal, column, summary⟩ := progress
  rcases ofEvent_cases planned with
    ⟨kind, name, -, rfl, rfl⟩ | ⟨-, rfl, rfl⟩ | ⟨inside, content, rfl⟩ | ⟨inside, content, rfl⟩
  · rw [last_beginTable]
    by_cases suppressed : options.filter.suppresses name <;>
      by_cases namesOnly : options.namesOnly <;>
        simp [Progress.past, Progress.carried, Progress.see, Progress.suppress, Progress.openTable,
          Carried.next, Carried.past, Options.shows, Options.counts, Options.discards,
          Summary.ext_iff, suppressed, namesOnly]
  · rfl
  · obtain rfl : state = .inside true := inside
    rcases content.cases with rfl | rfl | ⟨entry, rfl⟩
    · rfl
    · rfl
    · cases entry <;> rfl
  · obtain rfl : state = .inside false := inside
    rcases content.cases with rfl | rfl | ⟨entry, rfl⟩
    · rfl
    · rfl
    · rw [inTable_entry, last_addField]
      cases entry <;> rfl

end Plan

namespace Rendition

variable {options : Options} {progress : Progress} {events : List Event}

/-- What is seen, carried over and counted is all that events come to, if they are handled. -/
theorem ofEvents_eq (handled : (ofEvents options progress events).fault = none) :
    (ofEvents options progress events).text =
        typeset options progress.carried (shown options progress.state.isWritten events) ∧
      (ofEvents options progress events).progress.carried =
        (shown options progress.state.isWritten events).foldl (Carried.past options)
          progress.carried ∧
      (ofEvents options progress events).progress.summary =
        progress.summary + counted options progress.state.isWritten events := by
  induction events generalizing progress with
  | nil => exact ⟨rfl, rfl, (Summary.add_zero _).symm⟩
  | cons event more ih =>
    cases planned : Plan.ofEvent options progress event with
    | error fault =>
      rw [ofEvents_of_error planned] at handled
      cases handled
    | ok plan =>
      -- The rest is accounted for from where the plan leads, and starts in or out of a table as
      -- `shown` and `counted` go on behind the event.
      rw [ofEvents_cons planned, Plan.last_ofEvent planned] at handled ⊢
      obtain ⟨text, carried, summary⟩ := ih handled
      rw [Progress.isWritten_past, Progress.carried_past] at text carried
      rw [Progress.isWritten_past] at summary
      rw [behind_text, behind_progress, text, carried, summary, Plan.join_texts_ofEvent planned,
        typeset_shown_cons, foldl_shown_cons, counted]
      exact ⟨rfl, rfl, Summary.add_assoc ..⟩

theorem ofEvents_eq_of_idle (idle : progress.state = .idle)
    (handled : (ofEvents options progress events).fault = none) :
    (ofEvents options progress events).text =
        typeset options progress.carried (shown options false events) ∧
      (ofEvents options progress events).progress.carried =
        (shown options false events).foldl (Carried.past options) progress.carried ∧
      (ofEvents options progress events).progress.summary =
        progress.summary + counted options false events := by
  have account := ofEvents_eq handled
  rw [idle] at account
  exact account

end Rendition

end TraceTables
