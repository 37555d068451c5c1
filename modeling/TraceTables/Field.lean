import TraceTables.Text.Substitute

/-!
# Quoted fields

Every text in the output stands between double quotes, and a quote inside it is written
twice. A text that begins with a minus sign gets an equals sign in front of the quotes,
so that spreadsheet programs do not take it for a formula.

A field is written in chunks, without building its quoted form first. `join_chunks` says
that the chunks make up the quoted form.
-/

namespace TraceTables.Field

/-- What stands in front of the opening quote. -/
def guard (text : String) : String :=
  if text.startsWith '-' then "=" else ""

/-- A quote inside a field is written twice. -/
def doubled (c : Char) : Option String :=
  if c = '"' then some "\"\"" else none

/-- The quoted form of a text. -/
def quote (text : String) : String :=
  guard text ++ "\"" ++ Text.substitute doubled text ++ "\""

/-- Cuts a text at its quotes: the stretches between them, with a doubled quote between
any two. `current` is the stretch being read, and `done` holds what comes before it, the
last chunk first. -/
def stretches (done : List String) (current : String) : List Char → List String
  | [] => (current :: done).reverse
  | c :: rest =>
    if c = '"' then stretches ("\"\"" :: current :: done) "" rest
    else stretches done (current.push c) rest

/-- The chunks in which the quoted form of a text is handed to a writer: the guard if
there is one, the opening quote, the stretches of the text with its doubled quotes, and
the closing quote. -/
def chunks (text : String) : List String :=
  (if text.startsWith '-' then ["="] else []) ++
    "\"" :: stretches [] "" text.toList ++ ["\""]

theorem join_stretches (done : List String) (current : String) (text : List Char) :
    String.join (stretches done current text) = String.join done.reverse ++ current ++
      Text.substitute doubled (String.ofList text) := by
  induction text generalizing done current with
  | nil => apply String.toList_injective; simp [stretches, Text.substitute_toList]
  | cons c rest ih =>
    apply String.toList_injective
    by_cases h : c = '"' <;>
      simp [stretches, ih, h, Text.substitute_toList, Text.spelling, doubled]

/-- The chunks of a field make up its quoted form. -/
theorem join_chunks (text : String) : String.join (chunks text) = quote text := by
  apply String.toList_injective
  by_cases h : text.startsWith '-' <;> simp [chunks, quote, guard, h, join_stretches]

end TraceTables.Field
