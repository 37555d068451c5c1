import TraceTables.Recording.Basic

/-!
# What paths lead to

Around a run there are folders, files and devices. They are found by the names that lead to
them from the root of the system.

The null device, like the standard input of a run, gives nothing and loses what is written
to it. The standard output and the standard error take what is written to them. Of any other
device it is given what a run reads of it, and whether it refuses what is written to it. Some
devices give octets without end. Of these there are as many as the run asks for: a run that
never stops asking is not modelled.
-/

namespace TraceTables

/-- A device of the system. -/
inductive Device where
  | null
  | standardInput
  | standardOutput
  | standardError
  /-- Another device: what a run reads of it, and the fault of writing to it, if it refuses
  that. -/
  | other (input : Input) (refusal : Option DeviceFault)
  deriving DecidableEq

/-- What a device gives when it is read. -/
def Device.input : Device → Input
  | .null | .standardInput | .standardOutput | .standardError => ⟨.empty, none⟩
  | .other input _ => input

/-- The fault with which a device refuses octets that are written to it, if it does. -/
def Device.refusal : Device → Option DeviceFault
  | .null | .standardInput | .standardOutput | .standardError => none
  | .other _ refusal => refusal

/-- The way to a node: the names that lead to it from the root of the system. -/
structure Way where
  names : List String
  deriving DecidableEq

namespace Way

/-- The way to a name in the folder at the end of a way. -/
def child (way : Way) (name : String) : Way := ⟨way.names ++ [name]⟩

/-- The way to the folder that holds the end of a way; above the root is the root. -/
def parent (way : Way) : Way := ⟨way.names.dropLast⟩

/-- One step along a path: a dot stays, two dots lead back, and another name leads on. -/
def step (way : Way) (name : String) : Way :=
  if name = "" ∨ name = "." then way
  else if name = ".." then way.parent
  else way.child name

/-- Whether a way lies on another one. -/
def leadsTo (way other : Way) : Bool := way.names.isPrefixOf other.names

/-- A path that leads this way. -/
def path (way : Way) : String := "/" ++ "/".intercalate way.names

end Way

/-- What a path can lead to. Links lead to folders only. Links to files and several names of
one file are not modelled, so that a file is found at the end of one way. Only the output of a
run is found by the number of its stream, too, while it is open. -/
inductive Node where
  | folder
  /-- A link to a folder at the end of another way, over `count` links in all. -/
  | link (target : Way) (count : Nat)
  | file (bytes : ByteArray)
  /-- A file that can be read, and the fault of opening it to write. -/
  | kept (bytes : ByteArray) (fault : DeviceFault)
  | device (device : Device)
  /-- Something that cannot be opened. -/
  | refused (fault : DeviceFault)

end TraceTables
