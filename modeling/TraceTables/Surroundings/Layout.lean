import TraceTables.Surroundings.Basic

/-!
# The layout of the system

Wherever a run takes place there are devices, and the streams of the run, which are found by
their numbers.

Some folders are not stored anywhere: the system makes up what they hold when it is asked
for. Such a folder knows its names, so that no name is too long for it: it is merely not
found. And no file can be created there.
-/

namespace TraceTables.Surroundings

/-- The folder of the streams of a run, by their numbers. -/
def streams : Way := ⟨["proc", "self", "fd"]⟩

/-- The ways to a standard stream. -/
def streamWays (name number : String) : List Way := [⟨["dev", name]⟩, streams.child number]

/-- The stream that a run opens first, which has the number behind the standard streams. -/
def firstOpened : Way := streams.child "3"

/-- The devices, with the ways to them. The terminal is known, but a run has none. -/
def devices : List (Way × Node) :=
  [(⟨["dev", "null"]⟩, .device .null), (⟨["dev", "tty"]⟩, .refused .noDevice),
    (⟨["dev", "fd"]⟩, .link streams 2)] ++
  (streamWays "stdin" "0").map (·, .device .standardInput) ++
  (streamWays "stdout" "1").map (·, .device .standardOutput) ++
  (streamWays "stderr" "2").map (·, .device .standardError)

/-- The ways to the devices that give octets without end, each with the fault of writing to
it, if it refuses that. -/
def endless : List (Way × Option DeviceFault) :=
  [(⟨["dev", "zero"]⟩, none), (⟨["dev", "full"]⟩, some .noSpace), (⟨["dev", "random"]⟩, none),
    (⟨["dev", "urandom"]⟩, none)]

/-- Whether the system makes up what a folder holds. -/
def isMadeUp (folder : Way) : Bool :=
  Way.leadsTo ⟨["proc"]⟩ folder || Way.leadsTo ⟨["sys"]⟩ folder

/-- The fault of creating a file in a folder, if no file can be created there. -/
def creationFault (folder : Way) : Option DeviceFault :=
  if Way.leadsTo ⟨["proc"]⟩ folder then some .notFound
  else if isMadeUp folder || Way.leadsTo ⟨["dev", "pts"]⟩ folder then some .permissionDenied
  else none

end TraceTables.Surroundings
