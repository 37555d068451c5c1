import TraceTables.DeviceFault

/-!
# Destinations of output

Output goes to a sink, a destination for octets. A write and a flush may fail; the sink
keeps what it had stored and can be used on. A write that fails may have stored a part of
its octets: how large a part is the sink's own affair. What it has stored it may keep back
for a while before it hands it on; what is said meanwhile has its place behind what has been
handed on.

The sink of limited capacity stores exactly as many octets as it has room for. Without a
limit it never fails to write and so shows the whole output.
-/

namespace TraceTables

/-- A destination for octets. -/
class Sink (σ : Type) where
  /-- Stores all octets, or fails having stored some of them. -/
  write : ByteArray → σ → Except DeviceFault Unit × σ
  /-- Hands on what has been stored. -/
  flush : σ → Except DeviceFault Unit × σ
  /-- How many octets it has handed on. -/
  handedOn : σ → Nat

/-- The octets that pieces make up. -/
def joinOctets (pieces : List ByteArray) : ByteArray :=
  pieces.foldr (· ++ ·) .empty

@[simp] theorem joinOctets_nil : joinOctets [] = .empty := rfl

@[simp] theorem joinOctets_cons (piece : ByteArray) (more : List ByteArray) :
    joinOctets (piece :: more) = piece ++ joinOctets more := rfl

theorem joinOctets_map_toUTF8 (texts : List String) :
    joinOctets (texts.map String.toUTF8) = (String.join texts).toUTF8 := by
  induction texts with
  | nil => rfl
  | cons text more ih => simp [ih]

/-- What is said while output is written. -/
structure Aside (α : Type) where
  /-- How many octets had been handed on before. -/
  place : Nat
  said : α

namespace Sink

variable {σ : Type} [Sink σ]

/-- Says something at the place that the output has come to. -/
def aside {α : Type} (said : α) (out : σ) : Aside α := ⟨handedOn out, said⟩

/-- Writes a text as its UTF-8 octets. -/
def writeText (text : String) (out : σ) : Except DeviceFault Unit × σ :=
  write text.toUTF8 out

/-- Writes pieces one after the other, up to the first write that fails. -/
def writeAll : List ByteArray → σ → Except DeviceFault Unit × σ
  | [], out => (.ok (), out)
  | piece :: more, out =>
    match write piece out with
    | (.ok (), out) => writeAll more out
    | (.error fault, out) => (.error fault, out)

/-- Writes texts one after the other, up to the first write that fails. -/
def writeTexts (texts : List String) (out : σ) : Except DeviceFault Unit × σ :=
  writeAll (texts.map String.toUTF8) out

end Sink

/-- A sink in memory. -/
structure Buffer where
  written : ByteArray
  /-- How many octets it can hold, if that is limited. -/
  limit : Option Nat
  /-- Whether a flush fails. -/
  flushFails : Bool

namespace Buffer

/-- An empty buffer that takes all octets. -/
def unlimited : Buffer := ⟨.empty, none, false⟩

/-- How many of the octets find room. -/
def room (buffer : Buffer) (octets : ByteArray) : Nat :=
  match buffer.limit with
  | none => octets.size
  | some limit => min octets.size (limit - buffer.written.size)

instance : Sink Buffer where
  write octets buffer :=
    let fits := buffer.room octets
    if fits = octets.size then (.ok (), { buffer with written := buffer.written ++ octets })
    else (.error .limitReached,
      { buffer with written := buffer.written ++ octets.extract 0 fits })
  flush buffer := (if buffer.flushFails then .error .flushFailed else .ok (), buffer)
  handedOn buffer := buffer.written.size

end Buffer

end TraceTables
