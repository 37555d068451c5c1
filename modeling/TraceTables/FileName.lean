/-!
# Names in paths

A path is a list of names separated by slashes. Empty names and names of a single dot
mean nothing, so that a path may end in any number of them. The file name of a path is
the last name that is left, unless it is the double dot, which means the parent. The
extension of a file name is what follows its last dot, if something precedes that dot.
-/

namespace TraceTables.FileName

/-- The names of a path, as they stand between its slashes. -/
def names (path : List Char) : List (List Char) :=
  path.foldr (fun c found =>
    match found with
    | [] => []
    | name :: more => if c = '/' then [] :: name :: more else (c :: name) :: more) [[]]

/-- Whether a name means something: it is neither empty nor a single dot. -/
def isSolid (name : List Char) : Bool :=
  name ≠ [] && name ≠ ['.']

/-- The file name of a path. -/
def ofPath? (path : List Char) : Option (List Char) :=
  (((names path).filter isSolid).getLast?).filter (· ≠ ['.', '.'])

/-- The extension of a file name. -/
def extension? (name : List Char) : Option (List Char) :=
  let suffix := name.reverse.takeWhile (· ≠ '.')
  -- What precedes the suffix ends in the last dot; more than the dot has to be there.
  if suffix.length + 1 < name.length then some suffix.reverse else none

/-- The extension of the file name of a path. -/
def extensionOfPath? (path : List Char) : Option (List Char) :=
  (ofPath? path).bind extension?

end TraceTables.FileName
