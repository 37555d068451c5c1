import TraceTables.Proofs.Faithful
import TraceTables.Recording.Format

/-!
# What events are recorded as

A record is a recording without a sink: the octets that the events come to, up to the first
that cannot be recorded, and how recording ends. `write_faithful` says that recording over a
sink that never fails stores the octets of the record and ends as the record does.
-/

namespace TraceTables

/-- What events are recorded as. -/
structure Record where
  bytes : ByteArray
  result : Except Fault Unit

namespace Record

/-- The same record behind other octets. -/
def behind (bytes : ByteArray) (record : Record) : Record :=
  { record with bytes := bytes ++ record.bytes }

@[simp] theorem behind_bytes (bytes : ByteArray) (record : Record) :
    (record.behind bytes).bytes = bytes ++ record.bytes := rfl

@[simp] theorem behind_result (bytes : ByteArray) (record : Record) :
    (record.behind bytes).result = record.result := rfl

end Record

namespace Encoding

variable {encoding : Encoding} {event : Event}

/-- The record of events. -/
def record (encoding : Encoding) : List Event → Record
  | [] => ⟨.empty, .ok ()⟩
  | event :: more =>
    match encoding.encode event with
    | .error fault => ⟨.empty, .error fault⟩
    | .ok bytes => (encoding.record more).behind bytes

theorem record_cons {bytes : ByteArray} (h : encoding.encode event = .ok bytes)
    (more : List Event) :
    encoding.record (event :: more) = (encoding.record more).behind bytes := by
  rw [record, h]

theorem record_of_error {fault : Fault} (h : encoding.encode event = .error fault)
    (more : List Event) : encoding.record (event :: more) = ⟨.empty, .error fault⟩ := by
  rw [record, h]

theorem record_of_pieces {pieces : List ByteArray} (cut : encoding.pieces event = .ok pieces)
    (more : List Event) :
    encoding.record (event :: more) = (encoding.record more).behind (joinOctets pieces) := by
  have joined := encoding.join_pieces event
  rw [cut] at joined
  exact record_cons joined.symm more

theorem record_of_no_pieces {fault : Fault} (refused : encoding.pieces event = .error fault)
    (more : List Event) : encoding.record (event :: more) = ⟨.empty, .error fault⟩ := by
  have joined := encoding.join_pieces event
  rw [refused] at joined
  exact record_of_error joined.symm more

/-- Over a sink that never fails, events are stored as their record says. -/
theorem write_faithful {σ : Type} [Sink σ] {sound : σ → Prop} {held : σ → ByteArray}
    (faithful : Sink.Faithful sound held) (encoding : Encoding) (events : List Event) {out : σ}
    (start : sound out) :
    ∃ next, encoding.write events out = ((encoding.record events).result, next) ∧
      Sink.Grows sound held out next (encoding.record events).bytes := by
  induction events generalizing out with
  | nil =>
    obtain ⟨next, flushed, grown⟩ := faithful.flush start
    refine ⟨next, ?_, grown⟩
    rw [write, flushed]
    rfl
  | cons event more ih =>
    rw [write]
    cases cut : encoding.pieces event with
    | error fault =>
      rw [record_of_no_pieces cut]
      exact ⟨out, rfl, .refl start⟩
    | ok pieces =>
      obtain ⟨middle, wrote, grown⟩ := faithful.writeAll start pieces
      obtain ⟨next, rest, grown'⟩ := ih grown.sound
      rw [record_of_pieces cut]
      refine ⟨next, ?_, grown.trans grown'⟩
      simp only [wrote]
      exact rest

end Encoding

end TraceTables
