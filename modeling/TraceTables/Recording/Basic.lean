import TraceTables.Event
import TraceTables.Fault

/-!
# Recordings

A recorded trace is read from an input: octets, after which the input ends or fails. A
source yields the events in order, one each time it is asked, and, if something is at
fault, the first fault. After that, and at the end, it yields nothing however often it is
asked. A reading is all that a source yields.
-/

namespace TraceTables

/-- Octets to read, and what comes after them. -/
structure Input where
  bytes : ByteArray
  /-- The fault of the read behind the last octet; `none` if the input ends there. -/
  fault : Option DeviceFault

instance : DecidableEq Input := fun ⟨bytes, fault⟩ ⟨bytes', fault'⟩ =>
  -- Libraries bring another instance for octets, so that this one is named.
  have : Decidable (bytes = bytes') := ByteArray.instDecidableEq bytes bytes'
  decidable_of_decidable_of_iff
    (show bytes = bytes' ∧ fault = fault' ↔ _ from (Input.mk.injEq ..).to_iff.symm)

/-- What an event source yields next: an event, or the fault that ends it. -/
abbrev Item := Except Fault Event

/-- All that a source yields. -/
structure Reading where
  events : List Event
  failure : Option Fault

/-- The yield of a source, one item after the other. -/
def Reading.items (reading : Reading) : List Item :=
  reading.events.map .ok ++ (reading.failure.map .error).toList

/-- The same yield behind other events. -/
def Reading.after (reading : Reading) (events : List Event) : Reading :=
  ⟨events ++ reading.events, reading.failure⟩

/-- A state that can be asked for items. -/
class Source (σ : Type) where
  /-- What it yields when it is asked, and the state it is left in. -/
  next : σ → Option Item × σ
  /-- A bound on the events that are left. -/
  size : σ → Nat
  shrinks {source rest : σ} {event : Event} :
    next source = (some (.ok event), rest) → size rest < size source
  /-- A source that once yields no event yields nothing from then on. -/
  stops {source rest : σ} {item : Option Item} :
    next source = (item, rest) → (∀ event, item ≠ some (.ok event)) → next rest = (none, rest)

namespace Source

variable {σ : Type} [Source σ]

/-- What a source yields when it is asked once more after `count` times. -/
def ask : Nat → σ → Option Item
  | 0, source => (next source).1
  | count + 1, source => ask count (next source).2

/-- Asks for items up to the first that is no event; `done` was read before. -/
def readFrom (done : Array Event) (source : σ) : Reading :=
  match h : next source with
  | (some (.ok event), rest) =>
    have := shrinks h
    readFrom (done.push event) rest
  | (some (.error fault), _) => ⟨done.toList, some fault⟩
  | (none, _) => ⟨done.toList, none⟩
termination_by size source

/-- All that a source yields. -/
def read (source : σ) : Reading :=
  readFrom #[] source

end Source

end TraceTables
