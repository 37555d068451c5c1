import TraceTables.Proofs.Layout

/-!
# Which events are accepted

An event is accepted or not for what stands before it, never for what is to be rendered. This
module says when an event offends without a renderer: a reported error always does, the
beginning of a table does inside a table, and everything else does between tables. Events end
inside a table if the last of them that begins or ends a table begins one (`leaveOpen`).

A renderer answers by its state, and its state is told by the events alone: each event takes
`leaveOpen` of the events before it to `leaveOpen` of the events with it. So a rendition is
given up at the first event that offends, and with the fault of that event.
-/

namespace TraceTables

namespace Event

/-- Whether an event begins or ends a table. -/
def isBoundary : Event → Bool
  | .tableBegin .. | .tableEnd => true
  | _ => false

/-- The fault of an event, if it offends; `inside` says whether it arrives inside a table. -/
def offence? (inside : Bool) : Event → Option Fault
  | .error message => some (.decode message)
  | .tableBegin .. => if inside then some (.unexpectedEvent "table_begin" .insideTable) else none
  | event => if inside then none else some (.unexpectedEvent event.word .betweenTables)

/-- Whether what follows an event is inside a table. -/
def leadsInside (inside : Bool) : Event → Bool
  | .tableBegin .. => true
  | .tableEnd => false
  | _ => inside

namespace IsContent

variable {event : Event}

/-- What a table holds begins a row, ends one, or adds an entry. -/
theorem cases (content : event.IsContent) :
    event = .rowBegin ∨ event = .rowEnd ∨ ∃ entry : Entry, event = entry.event := by
  cases event with
  | rowBegin => exact .inl rfl
  | rowEnd => exact .inr (.inl rfl)
  | columnDeclare type name => exact .inr (.inr ⟨.column type name, rfl⟩)
  | cellValue value => exact .inr (.inr ⟨.cell value, rfl⟩)
  | _ => exact content.elim

theorem leadsInside_eq (content : event.IsContent) (inside : Bool) :
    event.leadsInside inside = inside := by
  rcases content.cases with rfl | rfl | ⟨entry, rfl⟩
  · rfl
  · rfl
  · cases entry <;> rfl

end IsContent

end Event

/-- Whether the state is that of an open table, written or not. -/
def TableState.isInside : TableState → Bool
  | .idle => false
  | .inside _ => true

namespace Acceptance

/-- Whether events end inside a table: the last that begins or ends a table begins one. -/
def leaveOpen (events : List Event) : Bool :=
  match events.reverse.find? Event.isBoundary with
  | some (.tableBegin ..) => true
  | _ => false

/-- The fault of the event at a place, if there is one there that offends. -/
def offenceAt? (events : List Event) (place : Nat) : Option Fault :=
  events[place]?.bind (Event.offence? (leaveOpen (events.take place)))

/-- The first event that offends has this fault. -/
def FirstOffence (events : List Event) (fault : Fault) : Prop :=
  ∃ place, offenceAt? events place = some fault ∧
    ∀ earlier < place, offenceAt? events earlier = none

/-- The fault of the first event that offends behind others. -/
def faultFrom : Bool → List Event → Option Fault
  | _, [] => none
  | inside, event :: more =>
    (event.offence? inside).or (faultFrom (event.leadsInside inside) more)

/-- One more event only counts if it begins or ends a table. -/
theorem leaveOpen_append (events : List Event) (event : Event) :
    leaveOpen (events ++ [event]) = event.leadsInside (leaveOpen events) := by
  rw [leaveOpen, List.reverse_append, List.reverse_singleton, List.singleton_append,
    List.find?_cons]
  cases event <;> rfl

/-- The fault at a place among events that follow others. -/
def offenceBehind? (before events : List Event) (place : Nat) : Option Fault :=
  events[place]?.bind (Event.offence? (leaveOpen (before ++ events.take place)))

theorem offenceBehind?_nil (events : List Event) : offenceBehind? [] events = offenceAt? events :=
  rfl

@[simp] theorem offenceBehind?_zero (before : List Event) (event : Event) (more : List Event) :
    offenceBehind? before (event :: more) 0 = event.offence? (leaveOpen before) := by
  simp [offenceBehind?]

@[simp] theorem offenceBehind?_succ (before : List Event) (event : Event) (more : List Event)
    (place : Nat) :
    offenceBehind? before (event :: more) (place + 1) =
      offenceBehind? (before ++ [event]) more place := by
  simp [offenceBehind?]

/-- Behind any events, the first fault is that at the first place that has one. -/
theorem faultFrom_eq_some_iff (before events : List Event) (fault : Fault) :
    faultFrom (leaveOpen before) events = some fault ↔
      ∃ place, offenceBehind? before events place = some fault ∧
        ∀ earlier < place, offenceBehind? before events earlier = none := by
  induction events generalizing before with
  | nil => simp [faultFrom, offenceBehind?]
  | cons event more ih =>
    rw [faultFrom, ← leaveOpen_append]
    cases offends : event.offence? (leaveOpen before) with
    | some found =>
      rw [Option.some_or, Option.some.injEq]
      constructor
      · rintro rfl
        exact ⟨0, by simpa using offends, by simp⟩
      · rintro ⟨place, here, earlier⟩
        cases place with
        | zero => simpa [offends] using here
        | succ place => simpa [offends] using earlier 0 (Nat.succ_pos place)
    | none =>
      rw [Option.none_or, ih]
      constructor
      · rintro ⟨place, here, earlier⟩
        refine ⟨place + 1, by simpa using here, ?_⟩
        intro place' before'
        cases place' with
        | zero => simpa using offends
        | succ place' => simpa using earlier place' (by omega)
      · rintro ⟨place, here, earlier⟩
        cases place with
        | zero => simp [offends] at here
        | succ place =>
          refine ⟨place, by simpa using here, ?_⟩
          intro place' before'
          simpa using earlier (place' + 1) (by omega)

theorem faultFrom_eq_none_iff (before events : List Event) :
    faultFrom (leaveOpen before) events = none ↔
      ∀ place, offenceBehind? before events place = none := by
  induction events generalizing before with
  | nil => simp [faultFrom, offenceBehind?]
  | cons event more ih =>
    rw [faultFrom, ← leaveOpen_append, Option.or_eq_none_iff, ih]
    constructor
    · rintro ⟨first, rest⟩ place
      cases place with
      | zero => simpa using first
      | succ place => simpa using rest place
    · intro none
      exact ⟨by simpa using none 0, fun place => by simpa using none (place + 1)⟩

end Acceptance

namespace Plan

variable {options : Options} {progress : Progress}

/-- Whether an event has a plan depends on the options in no way, and on the progress only by
whether a table is open. -/
theorem ofEvent_eq_error_iff (event : Event) (fault : Fault) :
    ofEvent options progress event = .error fault ↔
      event.offence? progress.state.isInside = some fault := by
  cases state : progress.state with
  | idle =>
    cases event <;>
      simp [ofEvent, state, Event.offence?, TableState.isInside, TableState.position]
  | inside suppressed =>
    cases event <;> cases suppressed <;>
      simp [ofEvent, state, Event.offence?, TableState.isInside, TableState.position, Event.word]

/-- The plans that there are. -/
theorem ofEvent_cases {event : Event} {plan : List Action}
    (planned : ofEvent options progress event = .ok plan) :
    (∃ kind name, progress.state = .idle ∧ event = .tableBegin kind name ∧
        plan = beginTable options progress name) ∨
      (progress.state.isInside = true ∧ event = .tableEnd ∧
        plan = [.reach { progress with state := .idle }]) ∨
      (progress.state = .inside true ∧ event.IsContent ∧ plan = []) ∨
      (progress.state = .inside false ∧ event.IsContent ∧
        plan = inTable options progress event) := by
  cases state : progress.state with
  | idle => cases event <;> simp_all [ofEvent]
  | inside suppressed =>
    cases suppressed <;> cases event <;>
      simp_all [ofEvent, Event.IsContent, TableState.isInside]

/-- What a table holds leaves the table as it is: open, and written or not. -/
theorem state_last_of_isContent {event : Event} {plan : List Action} (content : event.IsContent)
    (planned : ofEvent options progress event = .ok plan) :
    (Action.last plan progress).state = progress.state := by
  rcases ofEvent_cases planned with
    ⟨kind, name, -, rfl, -⟩ | ⟨-, rfl, -⟩ | ⟨-, -, rfl⟩ | ⟨-, -, rfl⟩
  · exact content.elim
  · exact content.elim
  · rfl
  · cases event <;> simp [inTable, last_addField, Progress.countRow]

/-- A plan leads inside a table exactly if its event does. -/
theorem isInside_last {event : Event} {plan : List Action}
    (planned : ofEvent options progress event = .ok plan) :
    (Action.last plan progress).state.isInside =
      event.leadsInside progress.state.isInside := by
  have ofContent (content : event.IsContent) :
      (Action.last plan progress).state.isInside =
        event.leadsInside progress.state.isInside := by
    rw [state_last_of_isContent content planned, content.leadsInside_eq]
  rcases ofEvent_cases planned with
    ⟨kind, name, -, rfl, rfl⟩ | ⟨-, rfl, rfl⟩ | ⟨-, content, -⟩ | ⟨-, content, -⟩
  · rw [last_beginTable]
    split <;> rfl
  · rfl
  · exact ofContent content
  · exact ofContent content

end Plan

namespace Rendition

open Acceptance

/-- A rendition is given up at the first event that offends. -/
theorem fault_ofEvents (options : Options) (progress : Progress) (events : List Event) :
    (ofEvents options progress events).fault =
      faultFrom progress.state.isInside events := by
  induction events generalizing progress with
  | nil => rfl
  | cons event more ih =>
    cases planned : Plan.ofEvent options progress event with
    | error fault =>
      rw [faultFrom, (Plan.ofEvent_eq_error_iff event fault).1 planned, Option.some_or,
        ofEvents_of_error planned]
    | ok plan =>
      have sound : event.offence? progress.state.isInside = none := by
        rw [Option.eq_none_iff_forall_ne_some]
        intro fault offends
        rw [(Plan.ofEvent_eq_error_iff event fault).2 offends] at planned
        cases planned
      rw [faultFrom, sound, Option.none_or, ← Plan.isInside_last planned, ← ih,
        ofEvents_cons planned]
      rfl

/-- Events that are handled lead inside a table if the last that begins or ends one begins one. -/
theorem isInside_ofEvents {options : Options} {progress : Progress} {before events : List Event}
    (inside : progress.state.isInside = leaveOpen before)
    (handled : (ofEvents options progress events).fault = none) :
    (ofEvents options progress events).progress.state.isInside = leaveOpen (before ++ events) := by
  induction events generalizing progress before with
  | nil => simpa using inside
  | cons event more ih =>
    cases planned : Plan.ofEvent options progress event with
    | error fault =>
      rw [ofEvents_of_error planned] at handled
      cases handled
    | ok plan =>
      rw [ofEvents_cons planned] at handled ⊢
      have moved : (Action.last plan progress).state.isInside = leaveOpen (before ++ [event]) := by
        rw [Plan.isInside_last planned, inside, leaveOpen_append]
      have behind := ih moved handled
      rwa [List.append_assoc] at behind

end Rendition

section Faithful

open Acceptance

variable {σ : Type} [Sink σ] {sound : σ → Prop} {held : σ → ByteArray}

/-- How a conversion of events over a sink that never fails ends, counters aside. -/
theorem map_result_convert (faithful : Sink.Faithful sound held) {out : σ} (start : sound out)
    (options : Options) (events : List Event) :
    (convert options out (events.map .ok)).result.map (fun _ => ()) =
      (faultFrom false events).elim (.ok ()) .error := by
  obtain ⟨ended, -⟩ := convert_events_faithful faithful start options events
  rw [ended, Rendition.map_result, Rendition.fault_ofEvents]
  rfl

theorem result_convert_eq_error_iff (faithful : Sink.Faithful sound held) {out : σ}
    (start : sound out) (options : Options) (events : List Event) (fault : Fault) :
    (convert options out (events.map .ok)).result = .error fault ↔
      FirstOffence events fault := by
  have first := faultFrom_eq_some_iff [] events fault
  have ends := map_result_convert faithful start options events
  rw [offenceBehind?_nil] at first
  rw [FirstOffence, ← first, show leaveOpen [] = false from rfl]
  cases result : (convert options out (events.map .ok)).result <;>
    cases found : faultFrom false events <;> simp_all [Except.map]

theorem result_convert_eq_ok_iff (faithful : Sink.Faithful sound held) {out : σ}
    (start : sound out) (options : Options) (events : List Event) :
    (∃ summary, (convert options out (events.map .ok)).result = .ok summary) ↔
      ∀ place, offenceAt? events place = none := by
  have none := faultFrom_eq_none_iff [] events
  have ends := map_result_convert faithful start options events
  rw [offenceBehind?_nil] at none
  rw [← none, show leaveOpen [] = false from rfl]
  cases result : (convert options out (events.map .ok)).result <;>
    cases found : faultFrom false events <;> simp_all [Except.map]

/-- A conversion of events over a sink that never fails ends with the fault of the first event
that offends, and succeeds if none does, also where the events leave a table open. What is to be
rendered has no part in that. -/
theorem convert_accepts (faithful : Sink.Faithful sound held) {out : σ} (start : sound out)
    (options : Options) (events : List Event) :
    let result := (convert options out (events.map .ok)).result
    (∀ fault, result = .error fault ↔ FirstOffence events fault) ∧
      ((∃ summary, result = .ok summary) ↔ ∀ place, offenceAt? events place = none) ∧
      (leaveOpen events = true → (∀ place, offenceAt? events place = none) →
        ∃ summary, result = .ok summary) ∧
      ∀ others : Options, (convert others out (events.map .ok)).result.map (fun _ => ()) =
        result.map fun _ => () := by
  intro result
  have succeeds := result_convert_eq_ok_iff faithful start options events
  refine ⟨result_convert_eq_error_iff faithful start options events, succeeds,
    fun _ accepted => succeeds.2 accepted, ?_⟩
  intro others
  rw [map_result_convert faithful start others, map_result_convert faithful start options]

/-- A table that begins inside a suppressed one offends, and hides the error behind it. Without
these two the events are accepted, and end inside a table. -/
theorem convert_accepts_nested_table :
    let options : Options := ⟨"", .only ["B"], true⟩
    let opening : List Event := [.tableBegin .basic "A", .cellValue (.bool true), .rowEnd]
    let events := opening ++ [.tableBegin .basic "B", .error "truncated"]
    let fault : Fault := .unexpectedEvent "table_begin" .insideTable
    Buffer.unlimited.Unlimited ∧ FirstOffence events fault ∧
      (convert options Buffer.unlimited (events.map .ok)).result = .error fault ∧
      fault.message = "Unexpected table_begin event while inside a table" ∧
      leaveOpen opening = true ∧ (∀ place, offenceAt? opening place = none) ∧
      ∃ summary, (convert options Buffer.unlimited (opening.map .ok)).result = .ok summary := by
  intro options opening events fault
  have start : Buffer.unlimited.Unlimited := ⟨rfl, rfl⟩
  have first : FirstOffence events fault := ⟨3, rfl, by decide⟩
  have none : ∀ place, offenceAt? opening place = none := by
    intro place
    match place with
    | 0 | 1 | 2 | _ + 3 => rfl
  obtain ⟨fails, -⟩ := convert_accepts Buffer.faithful start options events
  obtain ⟨-, -, succeeds, -⟩ := convert_accepts Buffer.faithful start options opening
  exact ⟨start, first, (fails fault).2 first, rfl, rfl, none, succeeds rfl none⟩

end Faithful

end TraceTables
