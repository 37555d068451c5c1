/-!
# Which tables to render

A run renders every table, or only the tables named, or every table except those named.
The choice is made by two lists of names of which at most one may be given.
-/

namespace TraceTables

/-- The tables a run is to render. The names form a set: neither their order nor their
repetition matters. -/
inductive Filter where
  | all
  | only (names : List String)
  | allBut (names : List String)
  deriving DecidableEq

namespace Filter

/-- The filter for the names to include and the names to exclude; `none` if both lists
have names. -/
def ofLists? (included excluded : List String) : Option Filter :=
  match included, excluded with
  | [], [] => some .all
  | _ :: _, [] => some (.only included)
  | [], _ :: _ => some (.allBut excluded)
  | _ :: _, _ :: _ => none

/-- Whether the table of this name is discarded. -/
def suppresses (filter : Filter) (name : String) : Bool :=
  match filter with
  | .all => false
  | .only names => !names.contains name
  | .allBut names => names.contains name

@[simp] theorem suppresses_all (name : String) : suppresses .all name = false := rfl

theorem suppresses_only (names : List String) (name : String) :
    suppresses (.only names) name = true ↔ name ∉ names := by
  simp [suppresses]

theorem suppresses_allBut (names : List String) (name : String) :
    suppresses (.allBut names) name = true ↔ name ∈ names := by
  simp [suppresses]

end Filter

end TraceTables
