import TraceTables.Proofs.Seen

/-!
# One trace behind another

What is written behind another trace differs from what is written alone only by what is carried
over, and of the numbers that are carried over the text only tells whether they are zero. So there
are two places where the difference can be seen: the blank line before the first table that is
written with its rows, and the separator before the first field of such a table.

The second is not seen if the field stands in a row, since no column is carried past the beginning
of a row. That fields stand in rows is not checked, however. One that does not is divided from the
field before, also if that belongs to another table and to another trace. `convert_append` says
that nothing else passes from one trace to the next.
-/

namespace TraceTables

namespace Event

/-- Whether an event adds a field. -/
def isField : Event → Bool
  | .columnDeclare .. | .cellValue _ => true
  | _ => false

/-- Whether an event decides what stands before the next field. -/
def movesColumn : Event → Bool
  | .rowBegin | .columnDeclare .. | .cellValue _ => true
  | _ => false

theorem cases_of_movesColumn {event : Event} (moves : event.movesColumn = true) :
    event = .rowBegin ∨ ∃ entry : Entry, event = entry.event := by
  cases event with
  | rowBegin => exact .inl rfl
  | columnDeclare type name => exact .inr ⟨.column type name, rfl⟩
  | cellValue value => exact .inr ⟨.cell value, rfl⟩
  | _ => cases moves

@[simp] theorem isField_entry (entry : Entry) : entry.event.isField = true := by
  cases entry <;> rfl

end Event

/-- Whether the first row or field that is seen is a field. -/
def opensWithField (seen : List Event) : Bool :=
  (seen.find? Event.movesColumn).any Event.isField

/-- Whether the last row or field that is seen is a field. -/
def closesWithField (seen : List Event) : Bool :=
  (seen.reverse.find? Event.movesColumn).any Event.isField

/-- The events before the first row or field that is seen. -/
def lead (options : Options) : Bool → List Event → List Event
  | _, [] => []
  | written, event :: more =>
    if written && event.movesColumn then []
    else event :: lead options (options.leadsWritten written event) more

namespace Carried

/-- Whether the same numbers are zero. -/
structure Alike (a b : Carried) : Prop where
  ordinal : 0 < a.ordinal ↔ 0 < b.ordinal
  column : 0 < a.column ↔ 0 < b.column

variable {options : Options}

section Alike

variable {a b : Carried}

theorem Alike.text_eq (alike : Alike a b) (event : Event) :
    a.text options event = b.text options event := by
  cases event <;> simp [text, alike.ordinal, alike.column]

theorem Alike.past (alike : Alike a b) (event : Event) :
    Alike (a.past options event) (b.past options event) := by
  cases event with
  | tableBegin kind name =>
    rw [Carried.past, Carried.past]
    split
    · exact alike
    · exact ⟨by simp, alike.column⟩
  | rowBegin => exact ⟨alike.ordinal, Iff.rfl⟩
  | columnDeclare type name => exact ⟨alike.ordinal, by simp [Carried.past]⟩
  | cellValue value => exact ⟨alike.ordinal, by simp [Carried.past]⟩
  | _ => exact alike

/-- Numbers above zero cannot be told apart. -/
theorem Alike.typeset_eq (alike : Alike a b) (seen : List Event) :
    typeset options a seen = typeset options b seen := by
  induction seen generalizing a b with
  | nil => rfl
  | cons event more ih => rw [typeset, typeset, alike.text_eq, ih (alike.past event)]

end Alike

section Stays

variable (carried : Carried) (column : Nat) {event : Event} (stays : event.movesColumn = false)
include stays

/-- Only a field shows the column. -/
theorem text_of_not_movesColumn :
    { carried with column := column }.text options event = carried.text options event := by
  cases event with
  | rowBegin => cases stays
  | columnDeclare type name => cases stays
  | cellValue value => cases stays
  | _ => rfl

theorem past_of_not_movesColumn :
    { carried with column := column }.past options event =
      { carried.past options event with column := column } := by
  cases event with
  | tableBegin kind name =>
    rw [past, past]
    split <;> rfl
  | rowBegin => cases stays
  | columnDeclare type name => cases stays
  | cellValue value => cases stays
  | _ => rfl

theorem column_past_of_not_movesColumn :
    (carried.past options event).column = carried.column := by
  rw [past_of_not_movesColumn carried carried.column stays]

end Stays

theorem ordinal_next (options : Options) (carried : Carried) (written : Bool) (event : Event) :
    (carried.next options written event).ordinal =
      carried.ordinal + (options.counts written event).tablesRendered := by
  cases event with
  | tableBegin kind name =>
    by_cases suppressed : options.filter.suppresses name <;>
      by_cases namesOnly : options.namesOnly <;>
        simp [next, past, Options.shows, Options.counts, Options.discards, suppressed, namesOnly]
  | _ => cases written <;> rfl

end Carried

/-! ## Tables -/

/-- Tables are counted as they are carried over. -/
theorem ordinal_foldl_past (options : Options) (carried : Carried) (written : Bool)
    (events : List Event) :
    ((shown options written events).foldl (Carried.past options) carried).ordinal =
      carried.ordinal + (counted options written events).tablesRendered := by
  induction events generalizing carried written with
  | nil => rfl
  | cons event more ih =>
    rw [foldl_shown_cons, ih, Carried.ordinal_next, counted, Summary.tablesRendered_add,
      Nat.add_assoc]

theorem tablesRendered_of_namesOnly {options : Options} (namesOnly : options.namesOnly = true)
    (written : Bool) (events : List Event) :
    (counted options written events).tablesRendered = 0 := by
  induction events generalizing written with
  | nil => rfl
  | cons event more ih =>
    rw [counted, Summary.tablesRendered_add, ih]
    cases event with
    | tableBegin kind name => simp [Options.counts, Options.discards, namesOnly]
    | rowEnd => cases written <;> rfl
    | _ => rfl

/-- The tables carried over are seen in a blank line, if a table follows that is written with its
rows, and nowhere else. -/
theorem typeset_shown (options : Options) (carried : Carried) (events : List Event) :
    typeset options carried (shown options false events) =
      (if 0 < carried.ordinal ∧ 0 < (counted options false events).tablesRendered then "\n"
        else "") ++ typeset options { carried with ordinal := 0 } (shown options false events) := by
  induction events with
  | nil => simp [shown, counted, Summary.zero, typeset]
  | cons event more ih =>
    -- Between tables, and in one that is not written, only the beginning of a table is seen.
    cases event with
    | tableBegin kind name =>
      rw [typeset_shown_cons, typeset_shown_cons, counted, Summary.tablesRendered_add]
      simp only [Options.shows, Options.leadsWritten, Options.discards, Options.counts,
        Carried.next, Carried.past, Carried.text]
      by_cases suppressed : options.filter.suppresses name
      · simpa [suppressed] using ih
      · by_cases namesOnly : options.namesOnly
        · simpa [suppressed, namesOnly, tablesRendered_of_namesOnly namesOnly] using ih
        · have alike : Carried.Alike ⟨carried.ordinal + 1, carried.column⟩ ⟨1, carried.column⟩ :=
            ⟨by simp, Iff.rfl⟩
          simp [suppressed, namesOnly, alike.typeset_eq, String.append_assoc]
    | _ => simpa [shown, counted, Options.shows, Options.leadsWritten, Options.counts] using ih

/-! ## Columns -/

/-- What is left of a row is told by the last row or field. -/
theorem column_foldl_past (options : Options) (seen : List Event) {carried : Carried}
    (none : carried.column = 0) :
    0 < (seen.foldl (Carried.past options) carried).column ↔ closesWithField seen = true := by
  -- From the back, since the last event that moves the column decides.
  induction seen using List.reverseRecOn with
  | nil => simp [none, closesWithField]
  | append_singleton seen event ih =>
    rw [List.foldl_append, List.foldl_cons, List.foldl_nil, closesWithField, List.reverse_append,
      List.reverse_singleton, List.singleton_append, List.find?_cons]
    cases moves : event.movesColumn with
    | false =>
      rw [Carried.column_past_of_not_movesColumn _ moves]
      exact ih
    | true =>
      rcases Event.cases_of_movesColumn moves with rfl | ⟨entry, rfl⟩
      · simp [Carried.past, Event.isField]
      · simp [Carried.past_entry]

theorem typeset_of_movesColumn (options : Options) (carried : Carried) {event : Event}
    (moves : event.movesColumn = true) (more : List Event) :
    typeset options carried (event :: more) =
      (if 0 < carried.column ∧ event.isField then options.separator else "") ++
        typeset options { carried with column := 0 } (event :: more) := by
  rcases Event.cases_of_movesColumn moves with rfl | ⟨entry, rfl⟩
  · rw [if_neg (by simp [Event.isField]), String.empty_append]
    rfl
  · have alike : Carried.Alike { carried with column := carried.column + 1 }
        { carried with column := 1 } := ⟨Iff.rfl, by simp⟩
    rw [typeset, typeset, Carried.text_entry, Carried.text_entry, Carried.past_entry,
      Carried.past_entry, alike.typeset_eq]
    simp [String.append_assoc]

/-- The column carried over is seen in the separator before a field that stands in no row, and
nowhere else. -/
theorem exists_typeset_column (options : Options) (carried : Carried) (seen : List Event) :
    let alone := { carried with column := 0 }
    let front := typeset options alone (seen.takeWhile (!·.movesColumn))
    ∃ rest, typeset options alone seen = front ++ rest ∧
      typeset options carried seen =
        front ++ ((if 0 < carried.column ∧ opensWithField seen then options.separator else "") ++
          rest) := by
  induction seen generalizing carried with
  | nil => exact ⟨"", rfl, by simp [opensWithField, typeset]⟩
  | cons event more ih =>
    cases moves : event.movesColumn with
    | true =>
      -- Nothing is in front, and behind this event both go on alike.
      refine ⟨typeset options { carried with column := 0 } (event :: more), ?_, ?_⟩
      · simp [typeset, moves]
      · simpa [typeset, moves, opensWithField] using
          typeset_of_movesColumn options carried moves more
    | false =>
      obtain ⟨rest, alone, behind⟩ := ih (carried.past options event)
      have front : (event :: more).takeWhile (!·.movesColumn) =
          event :: more.takeWhile (!·.movesColumn) := by simp [moves]
      have opens : opensWithField (event :: more) = opensWithField more := by
        simp [opensWithField, moves]
      rw [Carried.column_past_of_not_movesColumn carried moves] at behind
      rw [front, opens]
      refine ⟨rest, ?_, ?_⟩
      · rw [typeset, typeset, Carried.past_of_not_movesColumn carried 0 moves, alone,
          String.append_assoc]
      · rw [typeset, typeset, Carried.past_of_not_movesColumn carried 0 moves, behind,
          Carried.text_of_not_movesColumn carried 0 moves, String.append_assoc]

/-- What is seen of a lead is what is seen before the first row or field. -/
theorem shown_lead (options : Options) (written : Bool) (events : List Event) :
    shown options written (lead options written events) =
      (shown options written events).takeWhile (!·.movesColumn) := by
  induction events generalizing written with
  | nil => rfl
  | cons event more ih =>
    rw [lead, shown]
    by_cases first : (written && event.movesColumn) = true
    · obtain ⟨rfl, moves⟩ := Bool.and_eq_true_iff.1 first
      have seen : options.shows true event = true := by
        rcases Event.cases_of_movesColumn moves with rfl | ⟨entry, rfl⟩
        · rfl
        · cases entry <;> rfl
      rw [if_pos first, if_pos seen, List.takeWhile_cons_of_neg (by simp [moves])]
      rfl
    · rw [if_neg first, shown, ih]
      split
      · rename_i seen
        have stays : event.movesColumn = false := by
          cases event <;> simp_all [Options.shows, Event.movesColumn]
        rw [List.takeWhile_cons_of_pos (by simp [stays])]
      · rfl

open Acceptance in
theorem faultFrom_lead (options : Options) {inside : Bool} (written : Bool) {events : List Event}
    (accepted : faultFrom inside events = none) :
    faultFrom inside (lead options written events) = none := by
  induction events generalizing inside written with
  | nil => rfl
  | cons event more ih =>
    rw [lead]
    rw [faultFrom, Option.or_eq_none_iff] at accepted
    split
    · rfl
    · rw [faultFrom, accepted.1, ih _ accepted.2, Option.none_or]

/-! ## Traces -/

namespace Rendition

open Acceptance

section Idle

variable {options : Options} {progress : Progress} {events : List Event}

/-- What is carried past events is told by their counters and by what is seen of them. -/
theorem carried_ofEvents (handled : (ofEvents options .initial events).fault = none) :
    (ofEvents options .initial events).progress.ordinal =
        (ofEvents options .initial events).progress.summary.tablesRendered ∧
      (0 < (ofEvents options .initial events).progress.column ↔
        closesWithField (shown options false events) = true) := by
  obtain ⟨-, carried, summary⟩ := ofEvents_eq_of_idle rfl handled
  have tables := ordinal_foldl_past options Progress.initial.carried false events
  have fields := column_foldl_past options (shown options false events)
    (show Progress.initial.carried.column = 0 from rfl)
  rw [← carried] at tables fields
  rw [summary]
  exact ⟨tables, fields⟩

theorem namesOnly_of_tablesRendered (handled : (ofEvents options .initial events).fault = none)
    (tables : 0 < (ofEvents options .initial events).progress.summary.tablesRendered) :
    options.namesOnly = false := by
  obtain ⟨-, -, summary⟩ := ofEvents_eq_of_idle rfl handled
  rw [summary, Progress.initial, Summary.zero_add] at tables
  rw [← Bool.not_eq_true]
  intro namesOnly
  rw [tablesRendered_of_namesOnly namesOnly] at tables
  exact absurd tables (Nat.lt_irrefl 0)

/-- Between tables events are accepted as they are at the beginning. -/
theorem fault_ofEvents_of_idle (idle : progress.state = .idle) :
    (ofEvents options progress events).fault = (ofEvents options .initial events).fault := by
  rw [fault_ofEvents, fault_ofEvents, idle]
  rfl

theorem summary_ofEvents_of_idle (idle : progress.state = .idle)
    (handled : (ofEvents options .initial events).fault = none) :
    (ofEvents options progress events).progress.summary =
      progress.summary + (ofEvents options .initial events).progress.summary := by
  obtain ⟨-, -, alone⟩ := ofEvents_eq_of_idle rfl handled
  obtain ⟨-, -, behind⟩ :=
    ofEvents_eq_of_idle idle ((fault_ofEvents_of_idle idle).trans handled)
  rw [behind, alone, Progress.initial, Summary.zero_add]

/-- What is carried over is seen in a blank line and in a separator. -/
theorem exists_text_ofEvents_of_idle (idle : progress.state = .idle)
    (handled : (ofEvents options .initial events).fault = none) :
    ∃ rest,
      (ofEvents options .initial events).text =
        (ofEvents options .initial (lead options false events)).text ++ rest ∧
      (ofEvents options progress events).text =
        (if 0 < progress.ordinal ∧
            0 < (ofEvents options .initial events).progress.summary.tablesRendered
          then "\n" else "") ++
          ((ofEvents options .initial (lead options false events)).text ++
            ((if 0 < progress.column ∧ opensWithField (shown options false events)
              then options.separator else "") ++ rest)) := by
  have accepted : (ofEvents options .initial (lead options false events)).fault = none := by
    rw [fault_ofEvents] at handled ⊢
    exact faultFrom_lead options false handled
  obtain ⟨alone, -, summary⟩ := ofEvents_eq_of_idle rfl handled
  obtain ⟨behind, -, -⟩ :=
    ofEvents_eq_of_idle idle ((fault_ofEvents_of_idle idle).trans handled)
  obtain ⟨front, -, -⟩ := ofEvents_eq_of_idle rfl accepted
  obtain ⟨rest, cut, cut'⟩ :=
    exists_typeset_column options ⟨0, progress.column⟩ (shown options false events)
  have tables : (ofEvents options .initial events).progress.summary.tablesRendered =
      (counted options false events).tablesRendered := by
    rw [summary]
    exact Nat.zero_add _
  rw [Progress.carried_initial] at alone front
  refine ⟨rest, ?_, ?_⟩
  · rw [alone, front, shown_lead]
    exact cut
  · rw [behind, typeset_shown, tables, front, shown_lead]
    exact congrArg _ cut'

end Idle

/-- Events behind others that end between tables. -/
theorem exists_text_ofEvents_append {options : Options} {a b : List Event}
    (between : leaveOpen a = false) (handled : (ofEvents options .initial a).fault = none)
    (handled' : (ofEvents options .initial b).fault = none) :
    let first := ofEvents options .initial a
    let second := ofEvents options .initial b
    let both := ofEvents options .initial (a ++ b)
    let front := (ofEvents options .initial (lead options false b)).text
    both.fault = none ∧
      both.progress.summary = first.progress.summary + second.progress.summary ∧
      ∃ rest, second.text = front ++ rest ∧
        both.text = first.text ++
          ((if 0 < first.progress.summary.tablesRendered ∧
              0 < second.progress.summary.tablesRendered then "\n" else "") ++
            (front ++
              ((if closesWithField (shown options false a) ∧ opensWithField (shown options false b)
                then options.separator else "") ++ rest))) := by
  intro first second both front
  have idle : first.progress.state = .idle := by
    have inside : first.progress.state.isInside = leaveOpen ([] ++ a) :=
      isInside_ofEvents rfl handled
    rw [List.nil_append, between] at inside
    cases state : first.progress.state with
    | idle => rfl
    | inside suppressed => simp [state, TableState.isInside] at inside
  have split : both = (ofEvents options first.progress b).behind first.text := by
    apply ofEvents_append
    rw [← handled]
  obtain ⟨ordinal, column⟩ := carried_ofEvents handled
  obtain ⟨rest, alone, behind⟩ := exists_text_ofEvents_of_idle idle handled'
  rw [split]
  refine ⟨(fault_ofEvents_of_idle idle).trans handled', summary_ofEvents_of_idle idle handled',
    rest, alone, ?_⟩
  rw [behind_text, behind]
  simp only [first, ordinal, column]
  rfl

end Rendition

section Faithful

open Acceptance

variable {σ : Type} [Sink σ] {sound : σ → Prop} {held : σ → ByteArray}

/-- A conversion of a trace behind another over a sink that never fails succeeds if those of both
do, and counts what they count. It stores what the first stores, a blank line if both write a table
with its rows, and what the second stores alone, but for one separator: if the first leaves a row
with a field in it and the first field of the second stands in no row, these two are divided. -/
theorem convert_append (faithful : Sink.Faithful sound held) {out : σ} (start : sound out)
    (options : Options) {a b : List Event} {first second : Summary}
    (accepted : (convert options out (a.map .ok)).result = .ok first)
    (accepted' : (convert options out (b.map .ok)).result = .ok second)
    (between : leaveOpen a = false) :
    let stored (events : List Event) := held (convert options out (events.map .ok)).out
    let blank :=
      if options.namesOnly = false ∧ 0 < first.tablesRendered ∧ 0 < second.tablesRendered
      then "\n" else ""
    let divider :=
      if closesWithField (shown options false a) ∧ opensWithField (shown options false b)
      then options.separator else ""
    (convert options out ((a ++ b).map .ok)).result = .ok (first + second) ∧
      ∃ front rest : ByteArray, stored (lead options false b) = held out ++ front ∧
        stored b = held out ++ front ++ rest ∧
        stored (a ++ b) = stored a ++ blank.toUTF8 ++ front ++ divider.toUTF8 ++ rest := by
  intro stored blank divider
  have stored_eq (events : List Event) :
      stored events = held out ++ (Rendition.ofEvents options .initial events).text.toUTF8 :=
    (convert_events_faithful faithful start options events).2.held
  have result_eq (events : List Event) :=
    (convert_events_faithful faithful start options events).1
  rw [result_eq] at accepted accepted' ⊢
  obtain ⟨handled, rfl⟩ := Rendition.handled_of_result accepted
  obtain ⟨handled', rfl⟩ := Rendition.handled_of_result accepted'
  obtain ⟨both, summary, rest, alone, behind⟩ :=
    Rendition.exists_text_ofEvents_append between handled handled'
  refine ⟨?_, (Rendition.ofEvents options .initial (lead options false b)).text.toUTF8,
    rest.toUTF8, stored_eq _, ?_, ?_⟩
  · rw [Rendition.result_of_handled both, summary]
  · rw [stored_eq, alone]
    simp [ByteArray.append_assoc]
  · have listed := and_iff_right_of_imp fun tables :
        0 < (Rendition.ofEvents options .initial a).progress.summary.tablesRendered ∧
          0 < (Rendition.ofEvents options .initial b).progress.summary.tablesRendered =>
      Rendition.namesOnly_of_tablesRendered handled tables.1
    rw [stored_eq, stored_eq, behind]
    simp [blank, divider, listed, ByteArray.append_assoc]

/-- The column is carried over a table that is discarded, to the first field behind it. -/
theorem convert_append_discarded_between :
    let options : Options := ⟨";", .allBut ["C"], false⟩
    let a : List Event :=
      [.tableBegin .basic "A", .rowBegin, .cellValue (.uint64 1), .rowEnd, .tableEnd]
    let b : List Event :=
      [.tableBegin .basic "C", .rowBegin, .rowEnd, .tableEnd,
        .tableBegin .basic "B", .cellValue (.bool true), .rowEnd, .tableEnd]
    let run (events : List Event) := convert options Buffer.unlimited (events.map .ok)
    Buffer.unlimited.Unlimited ∧ leaveOpen a = false ∧
      (run a).result = .ok ⟨1, 1, 0, 1⟩ ∧ (run b).result = .ok ⟨2, 1, 1, 1⟩ ∧
      (run (a ++ b)).result = .ok ⟨3, 2, 1, 2⟩ ∧
      (run a).out.written = "\"A\"\n1\n".toUTF8 ∧
      (run b).out.written = "\"B\"\n".toUTF8 ++ "TRUE\n".toUTF8 ∧
      (run (a ++ b)).out.written = "\"A\"\n1\n".toUTF8 ++ "\n".toUTF8 ++ "\"B\"\n".toUTF8 ++
        ";".toUTF8 ++ "TRUE\n".toUTF8 := by
  intro options a b run
  have start : Buffer.unlimited.Unlimited := ⟨rfl, rfl⟩
  have first : (run a).result = .ok ⟨1, 1, 0, 1⟩ := by
    dsimp only [run, a, options]
    cbv
  have second : (run b).result = .ok ⟨2, 1, 1, 1⟩ := by
    dsimp only [run, b, options]
    cbv
  have written : (run a).out.written = "\"A\"\n1\n".toUTF8 := by
    dsimp only [run, a, options]
    cbv
  have written' : (run b).out.written = "\"B\"\n".toUTF8 ++ "TRUE\n".toUTF8 := by
    dsimp only [run, b, options]
    cbv
  have lead : (run (lead options false b)).out.written = "\"B\"\n".toUTF8 := by
    dsimp only [run, b, options]
    cbv
  obtain ⟨result, front, rest, opening, alone, both⟩ :=
    convert_append Buffer.faithful start options first second rfl
  have named : "\"B\"\n".toUTF8 = front :=
    lead.symm.trans (opening.trans ByteArray.empty_append)
  have held : "TRUE\n".toUTF8 = rest := by
    apply (ByteArray.append_right_inj front).1
    rw [← named, ← written', named]
    exact alone.trans (congrArg (· ++ rest) ByteArray.empty_append)
  refine ⟨start, rfl, first, second, result, written, written', ?_⟩
  rw [← written, named, held]
  exact both

/-- What is written behind another trace need not be what is written alone, if rows are missing. -/
theorem convert_append_field_without_row :
    let options : Options := ⟨",", .all, false⟩
    let a : List Event :=
      [.tableBegin .basic "A", .rowBegin, .cellValue (.uint64 1), .rowEnd, .tableEnd]
    let b : List Event := [.tableBegin .basic "B", .cellValue (.uint64 2), .rowEnd, .tableEnd]
    let run (events : List Event) := convert options Buffer.unlimited (events.map .ok)
    Buffer.unlimited.Unlimited ∧ leaveOpen a = false ∧ leaveOpen b = false ∧
      (run a).result = .ok ⟨1, 1, 0, 1⟩ ∧ (run b).result = .ok ⟨1, 1, 0, 1⟩ ∧
      (run b).out.written = "\"B\"\n2\n".toUTF8 ∧
      (run (a ++ b)).out.written = "\"A\"\n1\n\n\"B\"\n,2\n".toUTF8 ∧
      (run (a ++ b)).out.written ≠
        (run a).out.written ++ "\n".toUTF8 ++ (run b).out.written := by
  dsimp only
  refine ⟨⟨rfl, rfl⟩, rfl, rfl, by cbv, by cbv, by cbv, by cbv, ?_⟩
  intro same
  exact absurd (congrArg ByteArray.size same) (by cbv)

end Faithful

end TraceTables
