import TraceTables.Directory
import TraceTables.Sink

/-!
# Files being written

Output to a file or to a device is gathered in a buffer and handed on when the buffer is
full, when it is flushed and when the file is closed. What does not fit the buffer is
handed on by itself. What a device refuses stays in the buffer.
-/

namespace TraceTables

/-- Where gathered output is handed on to, with what has arrived there. -/
inductive Store where
  | file (way : Way) (content : ByteArray)
  | device (device : Device) (content : ByteArray)

namespace Store

/-- The store that has just been opened. -/
def ofStorage : Directory.Storage → Store
  | .file way => .file way .empty
  | .device which => .device which .empty

/-- Hands octets on. -/
def append (bytes : ByteArray) : Store → Except DeviceFault Store
  | .file way content => .ok (.file way (content ++ bytes))
  | .device which content =>
    match which.refusal with
    | some fault => if bytes.size = 0 then .ok (.device which content) else .error fault
    | none => .ok (.device which (content ++ bytes))

/-- The directory with what has arrived in it. -/
def save (directory : Directory) : Store → Directory
  | .file way content => directory.put way (.file content)
  | .device _ _ => directory

/-- What is found where the store is looked up. -/
def node : Store → Node
  | .file _ content => .file content
  | .device which _ => .device which

/-- What has arrived. -/
def content : Store → ByteArray
  | .file _ content | .device _ content => content

/-- What has arrived at a device. -/
def arrivedAt (target : Device) : Store → ByteArray
  | .device which content => if which = target then content else .empty
  | .file _ _ => .empty

end Store

/-- Output being written. -/
structure OutputFile where
  store : Store
  /-- What has not been handed on yet. -/
  pending : ByteArray

namespace OutputFile

/-- The standard output. -/
def standardOutput : OutputFile := ⟨.device .standardOutput .empty, .empty⟩

/-- Opens the output that is stored at a path. -/
def create (directory : Directory) (path : String) :
    Except DeviceFault (OutputFile × Directory) :=
  (directory.openOutput path).map fun (storage, directory) =>
    (⟨.ofStorage storage, .empty⟩, directory)

/-- The directory as it is found while an output is open. What was opened for the output is
the first opened stream, so that the output can be found by its number, too. -/
def found (file : OutputFile) (directory : Directory) : Directory :=
  match file.store with
  | .device .standardOutput _ => directory
  | store => directory.put Surroundings.firstOpened store.node

/-- How many octets the buffer holds. -/
def capacity : Nat := 8192

/-- How many more octets the buffer holds. -/
def room (file : OutputFile) : Nat := capacity - file.pending.size

/-- Hands on what is pending. -/
def drain (file : OutputFile) : Except DeviceFault Unit × OutputFile :=
  match file.store.append file.pending with
  | .ok store => (.ok (), ⟨store, .empty⟩)
  | .error fault => (.error fault, file)

/-- Keeps octets that the buffer has room for, and hands on others by themselves. -/
def keep (bytes : ByteArray) (file : OutputFile) : Except DeviceFault Unit × OutputFile :=
  if bytes.size < capacity then (.ok (), { file with pending := file.pending ++ bytes })
  else
    match file.store.append bytes with
    | .ok store => (.ok (), { file with store := store })
    | .error fault => (.error fault, file)

/-- Writes octets: what is pending is handed on first if they do not fit behind it. -/
def write (bytes : ByteArray) (file : OutputFile) : Except DeviceFault Unit × OutputFile :=
  if bytes.size < file.room then
    (.ok (), { file with pending := file.pending ++ bytes })
  else if bytes.size ≤ file.room then file.keep bytes
  else
    match file.drain with
    | (.ok (), file) => file.keep bytes
    | (.error fault, file) => (.error fault, file)

instance : Sink OutputFile := ⟨write, drain, (·.store.content.size)⟩

/-- Where the output has arrived when the file is closed. -/
def close (file : OutputFile) : Store := file.drain.2.store

end OutputFile

end TraceTables
