import Mathlib
import TraceTables.Proofs.Limit
import TraceTables.Proofs.Recorded

/-!
# Recordings that are cut

Events are recorded in pieces, so that the room in a buffer may be used up behind any piece of an
event or inside one. `write_buffer` says that this cuts the recording and does nothing else to it:
what is stored is the beginning of the record, and recording ends there. An event behind that place
that could not be recorded either is not reported, because recording does not come to it.
-/

namespace TraceTables.Encoding

theorem encode_ne_device (encoding : Encoding) (event : Event) (cause : DeviceFault) :
    encoding.encode event ≠ .error (.device cause) := by
  intro same
  cases encoding with
  | json => cases same
  | bincode =>
    rw [encode] at same
    cases encoded : BinaryStream.encode event with
    | ok bytes =>
      rw [encoded] at same
      cases same
    | error reason =>
      rw [encoded] at same
      cases same

/-- Only an event that cannot be recorded is at fault in a record, never a device. -/
theorem record_ne_device (encoding : Encoding) (events : List Event) (cause : DeviceFault) :
    (encoding.record events).result ≠ .error (.device cause) := by
  induction events with
  | nil => exact nofun
  | cons event more ih =>
    cases encoded : encoding.encode event with
    | ok bytes =>
      rw [record_cons encoded]
      exact ih
    | error fault =>
      rw [record_of_error encoded]
      intro same
      obtain rfl := Except.error.inj same
      exact encode_ne_device encoding event cause encoded

/-- Events are recorded as far as there is room for their record. If there is room for all of it,
recording ends as the record does unless the flush fails. -/
theorem write_buffer (encoding : Encoding) (events : List Event) {out : Buffer}
    (sound : out.Sound) :
    encoding.write events out =
      (if out.Takes (encoding.record events).bytes then
          (encoding.record events).result.bind fun _ =>
            if out.flushFails then .error (.device .flushFailed) else .ok ()
        else .error (encoding.writeFault .limitReached),
        out.store (encoding.record events).bytes) := by
  induction events generalizing out with
  | nil =>
    rw [record, if_pos (Buffer.takes_empty sound), Buffer.store_empty sound]
    obtain ⟨written, limit, fails⟩ := out
    cases fails <;> rfl
  | cons event more ih =>
    rw [write]
    cases cut : encoding.pieces event with
    | error fault =>
      rw [record_of_no_pieces cut, if_pos (Buffer.takes_empty sound), Buffer.store_empty sound]
      rfl
    | ok pieces =>
      simp only [record_of_pieces cut, Record.behind_bytes, Record.behind_result,
        Buffer.writeAll_eq sound]
      by_cases takes : out.Takes (joinOctets pieces)
      · simp only [if_pos takes]
        rw [ih Buffer.sound_store, Buffer.store_store]
        simp only [Buffer.takes_store takes]
        rfl
      · simp only [if_neg takes]
        rw [if_neg (mt Buffer.Takes.of_append takes), Buffer.store_append_of_not_takes takes]

/-- A recording into an empty buffer. -/
theorem write_empty (encoding : Encoding) (events : List Event) (limit : Option Nat)
    (flushFails : Bool) :
    encoding.write events (Buffer.mk .empty limit flushFails) =
      (if Buffer.Fits limit (encoding.record events).bytes then
          (encoding.record events).result.bind fun _ =>
            if flushFails then .error (.device .flushFailed) else .ok ()
        else .error (encoding.writeFault .limitReached),
        ⟨Buffer.first limit (encoding.record events).bytes, limit, flushFails⟩) := by
  have sound : (Buffer.mk .empty limit flushFails).Sound := Buffer.fits_empty
  rw [write_buffer encoding events sound]
  simp only [Buffer.Takes, Buffer.store, ByteArray.empty_append]

theorem write_unlimited (encoding : Encoding) (events : List Event) :
    encoding.write events Buffer.unlimited =
      ((encoding.record events).result, ⟨(encoding.record events).bytes, none, false⟩) := by
  rw [Buffer.unlimited, write_empty, if_pos Buffer.fits_none]
  cases (encoding.record events).result <;> rfl

/-- The flush is to blame exactly if it fails and nothing was at fault before. -/
theorem write_empty_eq_flushFailed_iff (encoding : Encoding) (events : List Event)
    (limit : Option Nat) (flushFails : Bool) :
    (encoding.write events (Buffer.mk .empty limit flushFails)).1 =
        .error (.device .flushFailed) ↔
      flushFails = true ∧ (encoding.record events).result = .ok () ∧
        Buffer.Fits limit (encoding.record events).bytes := by
  rw [write_empty]
  dsimp only
  by_cases fits : Buffer.Fits limit (encoding.record events).bytes
  · rw [if_pos fits]
    have noDevice := encoding.record_ne_device events .flushFailed
    cases ended : (encoding.record events).result with
    | ok done => cases flushFails <;> simp [Except.bind, fits]
    | error fault =>
      rw [ended] at noDevice
      exact iff_of_false noDevice nofun
  · have noFlush : encoding.writeFault .limitReached ≠ .device .flushFailed := by
      cases encoding <;> exact nofun
    rw [if_neg fits]
    exact iff_of_false (fun same => noFlush (Except.error.inj same)) fun all => fits all.2.2

/-- Over a buffer with room for `n` octets, a recording is cut behind them. If it is no longer than
that, nothing else is different but that the flush may fail. Otherwise recording fails for want of
room, whatever could not be recorded further on, and each encoding reports that in its own way. -/
theorem write_limited (encoding : Encoding) (events : List Event) (n : Nat) (flushFails : Bool) :
    let whole := encoding.write events Buffer.unlimited
    let octets := whole.2.written
    let limited := encoding.write events (Buffer.mk .empty (some n) flushFails)
    octets = (encoding.record events).bytes ∧ whole.1 = (encoding.record events).result ∧
      (limited.2.written, limited.1) =
        (if octets.size ≤ n then
          (octets, whole.1.bind fun _ =>
            if flushFails then .error (.device .flushFailed) else .ok ())
        else (octets.extract 0 n, .error (encoding.writeFault .limitReached))) ∧
      json.writeFault .limitReached = .device .limitReached ∧
      bincode.writeFault .limitReached =
        .malformedEvent .output (.binary (.device .limitReached)) ∧
      (limited.1 = .error (.device .flushFailed) ↔
        flushFails = true ∧ whole.1 = .ok () ∧ octets.size ≤ n) := by
  intro whole octets limited
  have result : whole.1 = _ := congrArg Prod.fst (encoding.write_unlimited events)
  have stored : octets = _ :=
    congrArg (fun run => run.2.written) (encoding.write_unlimited events)
  have cut : limited = _ := encoding.write_empty events (some n) flushFails
  dsimp only at result stored
  rw [← stored, ← result] at cut
  refine ⟨stored, result, ?_, rfl, rfl, ?_⟩
  · by_cases fits : octets.size ≤ n
    · rw [cut, if_pos (Buffer.fits_some.2 fits), if_pos fits,
        Buffer.first_of_fits (Buffer.fits_some.2 fits)]
    · rw [cut, if_neg (mt Buffer.fits_some.1 fits), if_neg fits, Buffer.first_some]
  · rw [result, stored, ← Buffer.fits_some]
    exact encoding.write_empty_eq_flushFailed_iff events (some n) flushFails

/-- The room ends inside the escape of the line feed. -/
example :
    Encoding.json.write [.rowBegin, .error "\n"] (Buffer.mk .empty (some 34) true) =
      (.error (.device .limitReached),
        ⟨"\"row_begin\"\n\x7b\"error\":\x7b\"message\":\"\\".toUTF8, some 34, true⟩) := by
  cbv

end TraceTables.Encoding
