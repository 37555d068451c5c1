import TraceTables.FileName
import TraceTables.Surroundings.Layout

/-!
# Directories

A run reads and writes files. They are found by the names of their paths, from the working
directory or, behind a leading slash, from the root of the system.

A path is followed name by name. Every name but the last has to be that of a folder or of a
link to one, and only so many links are followed along a path. A slash behind the last name
asks for a folder too, except that a file cannot be created under a name with a slash behind
it at all.

Creating a file changes what is found at the end of one way, and `find?_put_of_ne` says
that nothing changes elsewhere.
-/

namespace TraceTables

/-- A working directory and all that is found around it, by the ways to it. -/
structure Directory where
  /-- The way to the working directory. -/
  location : Way
  nodes : List (Way × Node)

/-- Where a path leads. -/
inductive Destination where
  /-- A folder that exists, which the path does not end in naming. -/
  | folder
  /-- What may be found in a folder under the last name, whether a slash stands behind that
  name, and how many links may still be followed. -/
  | last (folder : Way) (name : String) (slash : Bool) (links : Nat)

namespace Directory

/-- The node at the end of a way. The folders on the way to the working directory are
always there. -/
def find? (directory : Directory) (way : Way) : Option Node :=
  (directory.nodes.lookup way).or
    (if way.leadsTo directory.location then some .folder else none)

/-- Puts a node at the end of a way. -/
def put (directory : Directory) (way : Way) (node : Node) : Directory :=
  { directory with nodes := (way, node) :: directory.nodes.filter (·.1 ≠ way) }

/-- Where a path starts. -/
def startOf (directory : Directory) (path : String) : Way :=
  if path.startsWith '/' then ⟨[]⟩ else directory.location

/-- The names of a path. -/
def namesOf (path : String) : List String := (FileName.names path.toList).map String.ofList

/-- The ways to what a path names, one after the other. -/
def waysAlong (directory : Directory) (path : String) : List Way :=
  let names := namesOf path
  (List.range names.length).map fun count =>
    (names.take (count + 1)).foldl .step (directory.startOf path)

/-- The longest name that a stored folder takes, in octets. -/
def maxName : Nat := 255

/-- The longest path, in octets. -/
def maxPath : Nat := 4095

/-- Whether a name is longer than a folder takes. -/
def isTooLong (folder : Way) (name : String) : Bool :=
  !Surroundings.isMadeUp folder && maxName < name.utf8ByteSize

/-- How many links are followed along a path at most. -/
def maxLinks : Nat := 40

/-- What is found at the end of a way, with `links` links left to follow. -/
def reach (directory : Directory) (links : Nat) (way : Way) :
    Except DeviceFault (Option Node) :=
  match directory.find? way with
  | some (.link target count) =>
    if links < count then .error .tooManyLinks else .ok (some (.link target count))
  | node => .ok node

/-- What is found in a folder under a name. -/
def entry? (directory : Directory) (links : Nat) (folder : Way) (name : String) :
    Except DeviceFault (Option Node) :=
  if isTooLong folder name then .error .nameTooLong
  else directory.reach links (folder.child name)

/-- Where the names of a path lead from a folder; `slash` says whether a slash stands
behind the last one, and `links` how many links may be followed. -/
def follow (directory : Directory) (slash : Bool) (links : Nat) (way : Way) :
    List String → Except DeviceFault Destination
  | [] => .ok .folder
  | name :: more =>
    if name = "" ∨ name = "." then directory.follow slash links way more
    else if name = ".." then directory.follow slash links way.parent more
    else if more = [] then .ok (.last way name slash links)
    else
      match directory.entry? links way name with
      | .error fault => .error fault
      | .ok (some .folder) => directory.follow slash links (way.child name) more
      | .ok (some (.link target count)) => directory.follow slash (links - count) target more
      | .ok (some _) => .error .notADirectory
      | .ok none => .error .notFound

/-- Where a path leads. -/
def locate (directory : Directory) (path : String) : Except DeviceFault Destination :=
  if path.toList.contains '\x00' then .error .nulInName
  else if maxPath < path.utf8ByteSize then .error .nameTooLong
  else if path = "" then .error .notFound
  else
    let names := FileName.names path.toList
    let trailing := names.reverse.takeWhile (· = [])
    directory.follow (trailing ≠ []) maxLinks (directory.startOf path)
      ((names.take (names.length - trailing.length)).map String.ofList)

/-- What a folder gives when it is read. -/
def folderInput : Input := ⟨.empty, some .isADirectory⟩

/-- Opens a path to read it. A folder can be opened, but not read. -/
def openInput (directory : Directory) (path : String) : Except DeviceFault Input :=
  match directory.locate path with
  | .error fault => .error fault
  | .ok .folder => .ok folderInput
  | .ok (.last folder name slash links) =>
    match directory.entry? links folder name with
    | .error fault | .ok (some (.refused fault)) => .error fault
    | .ok none => .error .notFound
    | .ok (some .folder) | .ok (some (.link ..)) => .ok folderInput
    | .ok (some (.file bytes)) | .ok (some (.kept bytes _)) =>
      if slash then .error .notADirectory else .ok ⟨bytes, none⟩
    | .ok (some (.device device)) =>
      if slash then .error .notADirectory else .ok device.input

/-- Where output is stored: in a file, or on a device. -/
inductive Storage where
  | file (way : Way)
  | device (device : Device)
  deriving DecidableEq

/-- The file at the end of a way, opened to write it: it is empty then. -/
def emptied (directory : Directory) (way : Way) : Storage × Directory :=
  (.file way, directory.put way (.file .empty))

/-- Opens a path to write it: a file is created if there is none, and emptied. -/
def openOutput (directory : Directory) (path : String) :
    Except DeviceFault (Storage × Directory) :=
  match directory.locate path with
  | .error fault => .error fault
  | .ok .folder => .error .isADirectory
  | .ok (.last folder name slash links) =>
    if slash then .error .isADirectory
    else
      match directory.entry? links folder name with
      | .error fault | .ok (some (.refused fault)) | .ok (some (.kept _ fault)) => .error fault
      | .ok (some .folder) | .ok (some (.link ..)) => .error .isADirectory
      | .ok (some (.device device)) => .ok (.device device, directory)
      | .ok (some (.file _)) => .ok (directory.emptied (folder.child name))
      | .ok none =>
        match Surroundings.creationFault folder with
        | some fault => .error fault
        | none => .ok (directory.emptied (folder.child name))

/-- The content of the file at a path, if it can be read. -/
def content? (directory : Directory) (path : String) : Option ByteArray :=
  match directory.openInput path with
  | .ok ⟨bytes, none⟩ => some bytes
  | _ => none

@[simp] theorem find?_put (directory : Directory) (way : Way) (node : Node) :
    (directory.put way node).find? way = some node := by
  simp [find?, put]

theorem lookup_filter_ne {way other : Way} (h : other ≠ way) (nodes : List (Way × Node)) :
    (nodes.filter (·.1 ≠ way)).lookup other = nodes.lookup other := by
  induction nodes with
  | nil => rfl
  | cons entry rest ih =>
    obtain ⟨key, node⟩ := entry
    by_cases hk : key = way
    · subst hk
      simp only [ne_eq, not_true_eq_false, decide_false, Bool.false_eq_true, not_false_eq_true,
        List.filter_cons_of_neg, List.lookup_cons, beq_false_of_ne h]
      exact ih
    · rw [List.filter_cons_of_pos (by simpa using hk), List.lookup_cons, List.lookup_cons, ih]

theorem find?_put_of_ne (directory : Directory) {way other : Way} (h : other ≠ way)
    (node : Node) : (directory.put way node).find? other = directory.find? other := by
  rw [find?, find?, put, List.lookup_cons, beq_false_of_ne h, lookup_filter_ne h]

end Directory

end TraceTables
