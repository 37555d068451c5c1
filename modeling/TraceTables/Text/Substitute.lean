/-!
# Replacing characters one by one

Quoting and escaping replace certain characters of a text by longer spellings and keep
all others. `substitute_toList` gives the result character by character.

A text can also be replaced in pieces, without building the result first. `join_pieces` says
that the pieces make up the result.
-/

namespace TraceTables.Text

/-- The spelling of one character: its replacement, or itself if it has none. -/
def spelling (replacement : Char → Option String) (c : Char) : String :=
  (replacement c).getD c.toString

/-- The text with every character that has a replacement replaced by it. -/
def substitute (replacement : Char → Option String) (text : String) : String :=
  text.foldl (fun done c =>
    match replacement c with
    | some spelled => done ++ spelled
    | none => done.push c) ""

private theorem toList_foldl_substitute (replacement : Char → Option String)
    (done : String) (text : List Char) :
    (text.foldl (fun done c =>
      match replacement c with
      | some spelled => done ++ spelled
      | none => done.push c) done).toList =
      done.toList ++ text.flatMap fun c => (spelling replacement c).toList := by
  induction text generalizing done with
  | nil => simp
  | cons c rest ih =>
    rw [List.foldl_cons, ih]
    cases h : replacement c <;> simp [spelling, h]

theorem substitute_toList (replacement : Char → Option String) (text : String) :
    (substitute replacement text).toList =
      text.toList.flatMap fun c => (spelling replacement c).toList := by
  simp [substitute, String.foldl_eq_foldl_toList, toList_foldl_substitute]

/-- What has been read of a text that is cut into pieces. -/
structure Pieces where
  /-- The pieces so far, the last first. -/
  done : List String
  /-- The stretch without replacements that is being read. -/
  current : String

namespace Pieces

/-- The pieces when the stretch ends, the last first. An empty stretch is no piece. -/
def ended (pieces : Pieces) : List String :=
  if pieces.current.isEmpty then pieces.done else pieces.current :: pieces.done

/-- Reads one character more. A replacement is a piece by itself. -/
def push (replacement : Char → Option String) (pieces : Pieces) (c : Char) : Pieces :=
  match replacement c with
  | some spelled => ⟨spelled :: pieces.ended, ""⟩
  | none => { pieces with current := pieces.current.push c }

end Pieces

/-- The text with its replacements, in the pieces in which it is handed to a writer: the
replacements and the stretches between them. -/
def pieces (replacement : Char → Option String) (text : String) : List String :=
  (text.foldl (Pieces.push replacement) ⟨[], ""⟩).ended.reverse

theorem Pieces.join_ended (pieces : Pieces) :
    String.join pieces.ended.reverse = String.join pieces.done.reverse ++ pieces.current := by
  by_cases empty : pieces.current = ""
  · simp [ended, empty]
  · simp [ended, empty, String.join_append]

/-- A character adds its spelling to what the pieces make up. -/
theorem Pieces.join_push (replacement : Char → Option String) (pieces : Pieces) (c : Char) :
    String.join (pieces.push replacement c).ended.reverse =
      String.join pieces.ended.reverse ++ spelling replacement c := by
  rw [push, spelling]
  cases replacement c with
  | none =>
    apply String.toList_injective
    simp [join_ended]
  | some spelled => simp [join_ended, String.join_append]

private theorem join_foldl_push (replacement : Char → Option String) (pieces : Pieces)
    (text : List Char) :
    String.join (text.foldl (Pieces.push replacement) pieces).ended.reverse =
      String.join pieces.ended.reverse ++ substitute replacement (String.ofList text) := by
  induction text generalizing pieces with
  | nil => simp [substitute]
  | cons c rest ih =>
    apply String.toList_injective
    rw [List.foldl_cons, ih, Pieces.join_push]
    simp [substitute_toList]

/-- The pieces make up the text with its replacements. -/
theorem join_pieces (replacement : Char → Option String) (text : String) :
    String.join (pieces replacement text) = substitute replacement text := by
  rw [pieces, String.foldl_eq_foldl_toList, join_foldl_push, String.ofList_toList]
  simp [Pieces.ended]

end TraceTables.Text
