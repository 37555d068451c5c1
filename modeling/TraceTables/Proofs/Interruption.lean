import TraceTables.Proofs.Limit
import TraceTables.Proofs.Moves
import TraceTables.Proofs.Rejection

/-!
# What a write that fails leaves behind

A field is written in chunks and an event in several writes, between which the progress moves. Over
a buffer of limited capacity this makes no difference to the octets: what is stored is the beginning
of what would be stored by one write of everything (`writeTexts_chunks`, `handle_cut`). It does make
a difference to the progress, which is left where the first write that failed was met.

How many octets were stored tells which write that was. A separator was written exactly if as many
octets as it has were stored, and the blank line before a table exactly if any octet was. `Left`
lists the places at which an event can be left, by the octets that were stored.
-/

namespace TraceTables

namespace Buffer

variable {buffer : Buffer} {a b : ByteArray}

/-- Texts are stored as far as there is room, as if they were written at once. -/
theorem writeTexts_eq (sound : buffer.Sound) (texts : List String) :
    Sink.writeTexts texts buffer =
      (if buffer.Takes (String.join texts).toUTF8 then .ok () else .error .limitReached,
        buffer.store (String.join texts).toUTF8) := by
  rw [Sink.writeTexts, writeAll_eq sound, joinOctets_map_toUTF8]

/-- As many of the octets as find room behind what the buffer holds. -/
def part (buffer : Buffer) (octets : ByteArray) : ByteArray :=
  octets.extract 0 (buffer.room octets)

@[simp] theorem size_part (buffer : Buffer) (octets : ByteArray) :
    (buffer.part octets).size = buffer.room octets := by
  have := room_le_size buffer octets
  rw [part, ByteArray.size_extract]
  omega

/-- Of octets that do not find room, a part is stored that is not all of them. -/
theorem store_of_not_takes (sound : buffer.Sound) (full : ¬ buffer.Takes a) :
    buffer.store a = { buffer with written := buffer.written ++ buffer.part a } ∧
      ∃ lost, lost.size ≠ 0 ∧ a = buffer.part a ++ lost := by
  obtain ⟨less, stored⟩ := room_of_not_takes sound full
  have bound := room_le_size buffer a
  refine ⟨stored.symm, a.extract (buffer.room a) a.size, ?_, ?_⟩
  · rw [ByteArray.size_extract]
    omega
  · rw [part, extract_room]

/-- The first of two parts finds room exactly if all of it is stored when not both do. -/
theorem takes_iff_le_room (sound : buffer.Sound) (full : ¬ buffer.Takes (a ++ b)) :
    buffer.Takes a ↔ a.size ≤ buffer.room (a ++ b) := by
  obtain ⟨written, limit, flushFails⟩ := buffer
  cases limit with
  | none => exact absurd fits_none full
  | some n =>
    have bound : written.size ≤ n := sound n rfl
    have room : room ⟨written, some n, flushFails⟩ (a ++ b) =
        min (a.size + b.size) (n - written.size) := by
      rw [Buffer.room, ByteArray.size_append]
    rw [Takes, fits_some, ByteArray.size_append] at full ⊢
    rw [ByteArray.size_append] at full
    rw [room]
    dsimp only at full ⊢
    omega

end Buffer

/-- A field that is written in chunks over a buffer with room for `n` octets leaves the first `n`
octets of its quoted form, and is written exactly if these are all. Over a buffer without limit it
leaves its quoted form. -/
theorem Field.writeTexts_chunks (text : String) (n : Nat) (flushFails : Bool) :
    let octets := (quote text).toUTF8
    let limited := Sink.writeTexts (chunks text) (Buffer.mk .empty (some n) flushFails)
    let whole := Sink.writeTexts (chunks text) (Buffer.mk .empty none flushFails)
    limited = (if octets.size ≤ n then .ok () else .error .limitReached,
        ⟨octets.extract 0 n, some n, flushFails⟩) ∧
      (limited.1 = .ok () ↔ octets.size ≤ n) ∧
      whole = (.ok (), ⟨octets, none, flushFails⟩) := by
  intro octets limited whole
  have sound (limit : Option Nat) : (Buffer.mk .empty limit flushFails).Sound := Buffer.fits_empty
  have cut : limited = _ := Buffer.writeTexts_eq (sound _) (chunks text)
  have all : whole = _ := Buffer.writeTexts_eq (sound _) (chunks text)
  simp only [join_chunks, Buffer.Takes, Buffer.store, ByteArray.empty_append, Buffer.fits_some,
    Buffer.fits_none, Buffer.first_some, Buffer.first_none, if_true] at cut all
  refine ⟨cut, ?_, all⟩
  rw [cut]
  by_cases fits : octets.size ≤ n
  · exact iff_of_true (if_pos fits) fits
  · refine iff_of_false ?_ fits
    rw [if_neg fits]
    exact nofun

namespace Renderer

open Buffer

/-- The same renderer over a buffer without limit. -/
def unlimited (renderer : Renderer Buffer) : Renderer Buffer :=
  { renderer with out := { renderer.out with limit := none } }

/-- Where an event leaves the progress if a write fails: `stored` are the octets that were stored
before, and `whole` is where the event leads if no write fails. -/
inductive Left (renderer : Renderer Buffer) (stored : ByteArray) (whole : Progress) :
    Event → Progress → Prop where
  | atRowEnd : Left renderer stored whole .rowEnd renderer.progress
  /-- The separator before a field was not written, or not all of it. -/
  | atSeparator (entry : Entry) (due : 0 < renderer.progress.column)
    (cut : stored.size < renderer.options.separator.toUTF8.size) :
    Left renderer stored whole entry.event renderer.progress
  /-- The separator before the field was written if there was one to write. -/
  | inField (entry : Entry)
    (divided : 0 < renderer.progress.column →
      renderer.options.separator.toUTF8.size ≤ stored.size) :
    Left renderer stored whole entry.event
      { renderer.progress with column := renderer.progress.column + 1 }
  /-- The blank line before a table was not written, and no table is open. -/
  | atBlankLine {kind : TableKind} {name : String} (idle : renderer.progress.state = .idle)
    (named : renderer.options.namesOnly = false) (due : 0 < renderer.progress.ordinal)
    (nothing : stored = .empty) :
    Left renderer stored whole (.tableBegin kind name) renderer.progress.see
  /-- The blank line before the table was written if there was one to write. -/
  | inNameLine {kind : TableKind} {name : String} (idle : renderer.progress.state = .idle)
    (divided : renderer.options.namesOnly = false → 0 < renderer.progress.ordinal →
      stored ≠ .empty)
    (seen : whole.summary.tablesSeen = renderer.progress.summary.tablesSeen + 1) :
    Left renderer stored whole (.tableBegin kind name) whole

section Remarks

variable {σ : Type} [Sink σ]

/-- A plan that discards no table says nothing. -/
theorem remarks_perform {plan : List Action} (quiet : ∀ name, Action.discard name ∉ plan)
    (renderer : Renderer σ) : (renderer.perform plan).2.remarks = renderer.remarks := by
  induction plan generalizing renderer with
  | nil => rfl
  | cons action plan ih =>
    have rest : ∀ name, Action.discard name ∉ plan :=
      fun name member => quiet name (List.mem_cons_of_mem _ member)
    cases action with
    | reach progress => exact ih rest _
    | discard name => exact absurd List.mem_cons_self (quiet name)
    | write text =>
      rw [perform]
      split
      · exact ih rest _
      · rfl

end Remarks

section Handle

variable {renderer : Renderer Buffer} {event : Event} {cause : DeviceFault} {plan : List Action}

/-- A text at the beginning of what does not find room is refused exactly if not all of it is
stored. -/
theorem refuses_iff (sound : renderer.out.Sound) {text : String} {rest : ByteArray}
    (full : ¬ renderer.out.Takes (text.toUTF8 ++ rest)) :
    renderer.refuses text = true ↔
      (renderer.out.part (text.toUTF8 ++ rest)).size < text.toUTF8.size := by
  rw [size_part, ← Nat.not_le, ← takes_iff_le_room sound full, refuses, Sink.writeText,
    write_eq sound]
  by_cases takes : renderer.out.Takes text.toUTF8
  · rw [if_pos takes]
    exact iff_of_false Bool.false_ne_true (not_not_intro takes)
  · rw [if_neg takes]
    exact iff_of_true rfl takes

theorem sound_serveAll (sound : renderer.out.Sound) (requests : List Request) :
    (renderer.serveAll requests).out.Sound := by
  induction requests generalizing renderer with
  | nil => exact sound
  | cons request more ih =>
    obtain ⟨_, -, stored, -⟩ := serve_cut request renderer sound
    exact ih (stored ▸ sound_store)

/-- An event that fails by a device has a plan, and not all of its octets find room. -/
theorem exists_plan_of_device (sound : renderer.out.Sound)
    (fails : (renderer.handle event).1 = .error (.device cause)) :
    ∃ plan, Plan.ofEvent renderer.options renderer.progress event = .ok plan ∧
      ¬ renderer.out.Takes (Action.octets plan) ∧ cause = .limitReached := by
  cases planned : Plan.ofEvent renderer.options renderer.progress event with
  | error fault =>
    rw [handle, planned] at fails
    cases fails
    cases Plan.isRejection_of_ofEvent planned
  | ok plan =>
    rw [handle_of_ofEvent planned] at fails
    obtain ⟨-, -, whole, part⟩ := perform_cut plan renderer sound
    have full : ¬ renderer.out.Takes (Action.octets plan) := by
      intro takes
      rw [(whole takes).1] at fails
      cases fails
    rw [part full] at fails
    cases fails
    exact ⟨plan, rfl, full, rfl⟩

/-- The octets of a plan that begins with a text. -/
theorem octets_of_join {text rest : String}
    (joined : String.join (Action.texts plan) = text ++ rest) :
    Action.octets plan = text.toUTF8 ++ rest.toUTF8 := by
  rw [Action.octets, joined]
  exact String.toByteArray_append

theorem octets_addField {entry : Entry} (due : 0 < renderer.progress.column) :
    Action.octets (Plan.addField renderer.options renderer.progress
        (Rendition.entryChunks entry)) =
      renderer.options.separator.toUTF8 ++ entry.text.toUTF8 := by
  apply octets_of_join
  rw [Plan.join_texts_addField, if_pos due, Rendition.join_entryChunks]

theorem octets_beginTable {name : String}
    (kept : renderer.options.discards name = false) (due : 0 < renderer.progress.ordinal) :
    Action.octets (Plan.beginTable renderer.options renderer.progress name) =
      "\n".toUTF8 ++ (Field.quote name ++ "\n").toUTF8 := by
  simp only [Options.discards, Bool.or_eq_false_iff] at kept
  apply octets_of_join
  rw [Plan.join_texts_beginTable, kept.1, kept.2]
  simp [due]

/-- Where an event is left that has a plan and not room for all of it. -/
theorem left_of_moves {progress : Progress} (sound : renderer.out.Sound)
    (planned : Plan.ofEvent renderer.options renderer.progress event = .ok plan)
    (full : ¬ renderer.out.Takes (Action.octets plan))
    (moves : Moves renderer event (.error (.device cause)) progress) :
    Left renderer (renderer.out.part (Action.octets plan)) (Action.last plan renderer.progress)
      event progress := by
  have beginning {kind : TableKind} {name : String} (idle : renderer.progress.state = .idle)
      (planned : Plan.ofEvent renderer.options renderer.progress (.tableBegin kind name) =
        .ok plan) : Plan.beginTable renderer.options renderer.progress name = plan := by
    simpa [Plan.ofEvent, idle] using planned
  cases moves with
  | rejects offends =>
    rw [(Plan.ofEvent_eq_error_iff _ _).2 offends] at planned
    cases planned
  | @suppresses kind name _ idle discarded =>
    obtain rfl := beginning idle planned
    -- A table that the filter discards writes nothing, so that only names are written here.
    have named : renderer.options.filter.suppresses name = false := by
      rw [← Bool.not_eq_true]
      intro dropped
      refine full ?_
      rw [Action.octets, Plan.join_texts_beginTable, if_pos dropped]
      exact takes_empty sound
    have namesOnly : renderer.options.namesOnly = true := by
      simpa [Options.discards, named] using discarded
    have reached := Plan.last_beginTable renderer.options renderer.progress name
    rw [if_pos discarded] at reached
    rw [reached]
    exact .inNameLine idle (fun rendered => by simp [namesOnly] at rendered) rfl
  | @stopsBeforeTable kind name _ idle kept later refused =>
    obtain rfl := beginning idle planned
    rw [octets_beginTable kept later] at full ⊢
    have nothing := (refuses_iff sound full).1 refused
    refine .atBlankLine idle ?_ later (ByteArray.size_eq_zero_iff.1 (Nat.lt_one_iff.1 nothing))
    simp only [Options.discards, Bool.or_eq_false_iff] at kept
    exact kept.2
  | @opens kind name _ idle kept divided =>
    obtain rfl := beginning idle planned
    have reached := Plan.last_beginTable renderer.options renderer.progress name
    rw [kept, if_neg Bool.false_ne_true] at reached
    rw [reached]
    refine .inNameLine idle (fun _ later => ?_) rfl
    rw [octets_beginTable kept later] at full ⊢
    intro nothing
    have refused := (refuses_iff sound full).2 (by rw [nothing]; decide)
    rw [divided later] at refused
    cases refused
  | stopsBeforeField inside entry later refused =>
    rw [Rendition.ofEvent_entry inside] at planned
    obtain rfl := Except.ok.inj planned
    rw [octets_addField later] at full ⊢
    exact .atSeparator entry later ((refuses_iff sound full).1 refused)
  | adds inside entry divided =>
    rw [Rendition.ofEvent_entry inside] at planned
    obtain rfl := Except.ok.inj planned
    refine .inField entry fun later => ?_
    rw [octets_addField later] at full ⊢
    rw [← Nat.not_lt, ← refuses_iff sound full, divided later]
    exact Bool.false_ne_true
  | stopsAtRowEnd inside refused => exact .atRowEnd

/-- A plan that does not find room discards no table, which would write nothing. -/
theorem discard_not_mem (sound : renderer.out.Sound)
    (planned : Plan.ofEvent renderer.options renderer.progress event = .ok plan)
    (full : ¬ renderer.out.Takes (Action.octets plan)) (name : String) :
    Action.discard name ∉ plan := by
  intro member
  rcases Plan.ofEvent_cases planned with
    ⟨kind, table, -, -, rfl⟩ | ⟨-, -, rfl⟩ | ⟨-, -, rfl⟩ | ⟨-, -, rfl⟩
  · cases dropped : renderer.options.filter.suppresses table with
    | true =>
      refine full ?_
      rw [Action.octets, Plan.join_texts_beginTable, if_pos dropped]
      exact takes_empty sound
    | false =>
      simp only [Plan.beginTable, dropped] at member
      split at member
      · contradiction
      split at member <;> simp [Plan.nameLine, Action.writeEach] at member
  · simp at member
  · cases member
  · cases event <;> simp [Plan.inTable, Plan.addField, Action.writeEach] at member

/-- Over a buffer without limit, an event that has a plan is carried out to its end. -/
theorem handle_unlimited
    (planned : Plan.ofEvent renderer.options renderer.progress event = .ok plan) :
    (renderer.unlimited.handle event).1 = .ok () ∧
      (renderer.unlimited.handle event).2.out.written =
        renderer.out.written ++ Action.octets plan ∧
      (renderer.unlimited.handle event).2.progress = Action.last plan renderer.progress := by
  have planned' : Plan.ofEvent renderer.unlimited.options renderer.unlimited.progress event =
      .ok plan := planned
  obtain ⟨-, out, whole, -⟩ := perform_cut plan renderer.unlimited fits_none
  rw [← handle_of_ofEvent planned'] at out whole
  obtain ⟨answer, reached⟩ := whole fits_none
  exact ⟨answer, by rw [out]; rfl, reached⟩

end Handle

/-- What a write that fails leaves behind, in any renderer that a session has reached over a buffer
of limited capacity. If an event fails by the buffer, it would have been handled without the limit.
Of the octets that it would then have written, a part is stored that is not all of them. Besides,
at most the progress is changed, and `Left` says how. -/
theorem handle_cut (options : Options) (n : Nat) (flushFails : Bool) (requests : List Request)
    (event : Event) (cause : DeviceFault)
    (fails : (((Renderer.new options (Buffer.mk .empty (some n) flushFails)).serveAll
      requests).handle event).1 = .error (.device cause)) :
    let renderer := (Renderer.new options (Buffer.mk .empty (some n) flushFails)).serveAll requests
    let whole := renderer.unlimited.handle event
    cause = .limitReached ∧ whole.1 = .ok () ∧
      ∃ stored lost progress, lost.size ≠ 0 ∧
        whole.2.out.written = renderer.out.written ++ (stored ++ lost) ∧
        (renderer.handle event).2 =
          { renderer with
            out := { renderer.out with written := renderer.out.written ++ stored }
            progress := progress } ∧
        Left renderer stored whole.2.progress event progress := by
  intro renderer whole
  have empty : (Renderer.new options (Buffer.mk .empty (some n) flushFails)).out.Sound := fits_empty
  have sound : renderer.out.Sound := sound_serveAll empty requests
  change (renderer.handle event).1 = _ at fails
  obtain ⟨plan, planned, full, rfl⟩ := exists_plan_of_device sound fails
  obtain ⟨answer, written, reached⟩ := handle_unlimited planned
  obtain ⟨stored, lost, more, octets⟩ := store_of_not_takes sound full
  have moves := handle_moves event renderer
  rw [fails] at moves
  refine ⟨rfl, answer, renderer.out.part (Action.octets plan), lost,
    (renderer.handle event).2.progress, more, by rw [written, ← octets], ?_,
    reached ▸ left_of_moves sound planned full moves⟩
  obtain ⟨kept, out, -, -⟩ := perform_cut plan renderer sound
  have quiet := remarks_perform (discard_not_mem sound planned full) renderer
  rw [← handle_of_ofEvent planned] at kept out quiet
  rw [stored] at out
  generalize (renderer.handle event).2 = after at kept out quiet
  obtain ⟨options', out', progress', remarks'⟩ := after
  dsimp only at kept out quiet
  rw [kept, out, quiet]

/-- There is room for one octet of the separator, so that the column is not counted. -/
theorem handle_cut_in_separator :
    let renderer := (Renderer.new ⟨"::", .all, false⟩ (Buffer.mk .empty (some 6) false)).serveAll
      [.handle (.tableBegin .basic "A"), .handle .rowBegin, .handle (.cellValue (.uint64 1))]
    let event : Event := .cellValue (.string "x")
    let progress : Progress := ⟨.inside false, 1, 1, ⟨1, 1, 0, 0⟩⟩
    (renderer.handle event).1 = .error (.device .limitReached) ∧
      renderer.progress = progress ∧ (renderer.handle event).2.progress = progress ∧
      (renderer.handle event).2.out.written = "\"A\"\n1:".toUTF8 ∧
      ∃ stored lost : ByteArray, lost.size ≠ 0 ∧
        (renderer.unlimited.handle event).2.out.written =
          renderer.out.written ++ (stored ++ lost) ∧
        Left renderer stored (renderer.unlimited.handle event).2.progress event progress := by
  refine ⟨by cbv, by cbv, by cbv, by cbv, ?_⟩
  obtain ⟨-, -, stored, lost, reached, more, written, after, left⟩ :=
    handle_cut ⟨"::", .all, false⟩ 6 false
      [.handle (.tableBegin .basic "A"), .handle .rowBegin, .handle (.cellValue (.uint64 1))]
      (.cellValue (.string "x")) .limitReached (by cbv)
  have same := congrArg Renderer.progress after
  obtain rfl : ⟨.inside false, 1, 1, ⟨1, 1, 0, 0⟩⟩ = reached := Eq.trans (by cbv) same
  exact ⟨stored, lost, more, written, left⟩

end Renderer

end TraceTables
