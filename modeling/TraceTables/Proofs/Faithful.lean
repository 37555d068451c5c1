import TraceTables.Recording.Format
import TraceTables.Sink

/-!
# Sinks that never fail

A sink is seen through the octets that it holds. Where it never fails, a sequence of writes
comes to one thing only: the octets it held before, followed by everything written since,
in order. `Grows` says this of two states of a sink, and it composes.

How the writes are cut does not matter here. What a sink of limited capacity keeps of a
write that does not fit is a property of that sink and not treated in this module.
-/

namespace TraceTables.Sink

/-- What is held after some writes: the octets held before, followed by those written. The
states that `sound` singles out are those from which the sink goes on without failing. -/
structure Grows {σ : Type} (sound : σ → Prop) (held : σ → ByteArray) (before after : σ)
    (octets : ByteArray) : Prop where
  sound : sound after
  held : held after = held before ++ octets

/-- From its sound states on, a sink stores all that is written and never fails. -/
structure Faithful {σ : Type} [Sink σ] (sound : σ → Prop) (held : σ → ByteArray) : Prop where
  write {out : σ} (h : sound out) (octets : ByteArray) :
    ∃ next, Sink.write octets out = (.ok (), next) ∧ Grows sound held out next octets
  flush {out : σ} (h : sound out) :
    ∃ next, Sink.flush out = (.ok (), next) ∧ Grows sound held out next .empty

variable {σ : Type} {sound : σ → Prop} {held : σ → ByteArray} {a b c : σ}

theorem Grows.refl (h : sound a) : Grows sound held a a .empty :=
  ⟨h, ByteArray.append_empty.symm⟩

theorem Grows.trans {first second : ByteArray} (h : Grows sound held a b first)
    (h' : Grows sound held b c second) : Grows sound held a c (first ++ second) :=
  ⟨h'.sound, by rw [h'.held, h.held, ByteArray.append_assoc]⟩

/-- Pieces are stored as if they were written at once. -/
theorem Faithful.writeAll [Sink σ] (faithful : Faithful sound held) (h : sound a)
    (pieces : List ByteArray) :
    ∃ next, Sink.writeAll pieces a = (.ok (), next) ∧
      Grows sound held a next (joinOctets pieces) := by
  induction pieces generalizing a with
  | nil => exact ⟨a, rfl, .refl h⟩
  | cons piece more ih =>
    obtain ⟨middle, wrote, grown⟩ := faithful.write h piece
    obtain ⟨next, rest, grown'⟩ := ih grown.sound
    refine ⟨next, ?_, grown.trans grown'⟩
    rw [Sink.writeAll, wrote]
    exact rest

end TraceTables.Sink

namespace TraceTables.Buffer

/-- Whether the buffer takes all octets and all flushes. -/
def Unlimited (buffer : Buffer) : Prop :=
  buffer.limit = none ∧ buffer.flushFails = false

/-- A buffer without limit whose flushes succeed never fails. -/
theorem faithful : Sink.Faithful Unlimited Buffer.written where
  write {out} h octets := by
    refine ⟨{ out with written := out.written ++ octets }, ?_, h, rfl⟩
    simp [Sink.write, room, h.1]
  flush {out} h := by
    refine ⟨out, ?_, .refl h⟩
    simp [Sink.flush, h.2]

end TraceTables.Buffer
