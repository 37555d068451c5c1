import TraceTables.Run

/-!
# The program

The program looks up what the paths on its command line lead to, the standard input
included, runs, prints what the run gives, and stores the output file if the run has
changed it.
-/

namespace TraceTables.Program

/-- The environment variable that holds the filter for messages. -/
def logVariable : String := "RUST_LOG"

/-- The fault that the system reports. -/
def faultOf : IO.Error → DeviceFault
  | .noFileOrDirectory .. => .notFound
  | .inappropriateType _ 20 _ => .notADirectory
  | .inappropriateType _ 21 _ => .isADirectory
  | .permissionDenied _ code details => .other s!"{details} (os error {code})"
  | .resourceExhausted _ 28 _ => .noSpace
  | error => .other (toString error)

/-- How many octets are looked up of a device that gives octets without end. -/
def lookedAhead : USize := 65536

/-- What a way leads to. -/
def look (way : Way) : IO (Option Node) := do
  let place := (← IO.currentDir) / way.path
  try
    if ← place.isDir then return some .folder
    match Surroundings.endless.lookup way with
    | some refusal =>
      let octets ← (← IO.FS.Handle.mk place .read).read lookedAhead
      return some (.device (.other ⟨octets, none⟩ refusal))
    | none => return some (.file (← IO.FS.readBinFile place))
  catch error =>
    match faultOf error with
    | .notFound | .notADirectory => return none
    | fault => return some (.refused fault)

/-- Whether the end of a way is looked up: all but devices other than the standard input. -/
def isLookedUp (way : Way) : Bool :=
  match Surroundings.devices.lookup way with
  | none | some (.device .standardInput) => true
  | some _ => false

/-- The working directory, with what the ways lead to that are followed along the paths. -/
def survey (paths : List String) : IO Directory := do
  let here := (Directory.namesOf (← IO.currentDir).toString).filter (· ≠ "")
  let start : Directory := ⟨⟨here⟩, Surroundings.devices⟩
  let ways := (paths.flatMap start.waysAlong).eraseDups.filter isLookedUp
  ways.foldlM (fun directory way => do
    match ← look way with
    | some node => return directory.put way node
    | none => return directory) start

/-- The paths that a command line names. -/
def pathsOf (arguments : List String) : List String :=
  match CommandLine.parse arguments with
  | .ok given => given.output.toList ++ given.inputs
  | .error _ => []

/-- Stores the files at the paths that differ between two directories. -/
def store (paths : List String) (before after : Directory) : IO Unit := do
  for path in paths do
    if before.content? path != after.content? path then
      if let some bytes := after.content? path then
        IO.FS.writeBinFile ((← IO.currentDir) / path) bytes

/-- Runs the program, and gives its exit code. -/
def start (arguments : List String) : IO UInt32 := do
  let paths := pathsOf arguments
  let directory ← survey paths
  let program := (← IO.appPath).toString
  let outcome := run directory ⟨program, arguments, ← IO.getEnv logVariable⟩
  let printed ← IO.getStdout
  printed.write outcome.printed
  printed.flush
  (← IO.getStderr).putStr outcome.reported
  try
    store paths directory outcome.directory
    return if outcome.success then 0 else 1
  catch error =>
    let name := Run.programName program
    (← IO.getStderr).putStrLn (name ++ ": " ++ (faultOf error).message)
    return 1

end TraceTables.Program

/-- The program. -/
def main (arguments : List String) : IO UInt32 :=
  TraceTables.Program.start arguments
