import Mathlib
import TraceTables.Recording.Format

/-!
# The encoding that a path asks for

Which encoding a file has, if nobody says, is found out from its path. Only the last name of the
path counts, and of that name only what follows its last dot. Slashes behind the name change
nothing, nor do single dots between them (`solid_append`), and the folders in front of it change
nothing, whatever their names are (`ofPath?_file`).
-/

namespace TraceTables

namespace FileName

/-- What may stand behind a path without changing what it names: slashes, each by itself or with a
single dot behind it. -/
inductive IsTail : List Char → Prop where
  | nil : IsTail []
  | slash {rest : List Char} (more : IsTail rest) : IsTail ('/' :: rest)
  | slashDot {rest : List Char} (more : IsTail rest) : IsTail ('/' :: '.' :: rest)

section Names

variable {path name folder stem extension tail : List Char}

theorem names_ne_nil (path : List Char) : names path ≠ [] := by
  induction path with
  | nil => exact List.cons_ne_nil _ _
  | cons c rest ih =>
    rw [names, List.foldr_cons, ← names]
    split
    · contradiction
    · split <;> exact List.cons_ne_nil _ _

theorem names_slash (path : List Char) : names ('/' :: path) = [] :: names path := by
  rw [names, List.foldr_cons, ← names]
  split
  · exact absurd ‹_› (names_ne_nil path)
  · rw [if_pos rfl, ‹names path = _›]

/-- A character that is no slash belongs to the name that follows it. -/
theorem names_cons {c : Char} (other : c ≠ '/') {more : List (List Char)}
    (rest : names path = name :: more) : names (c :: path) = (c :: name) :: more := by
  rw [names, List.foldr_cons, ← names, rest]
  exact if_neg other

theorem names_of_slash_not_mem (plain : '/' ∉ name) : names name = [name] := by
  induction name with
  | nil => rfl
  | cons c rest ih =>
    rw [List.mem_cons, not_or] at plain
    exact names_cons (Ne.symm plain.1) (ih plain.2)

/-- A slash ends a name. -/
theorem names_append_slash (path rest : List Char) :
    names (path ++ '/' :: rest) = names path ++ names rest := by
  induction path with
  | nil => exact names_slash rest
  | cons c path ih =>
    by_cases slash : c = '/'
    · subst slash
      rw [List.cons_append, names_slash, names_slash, ih, List.cons_append]
    · obtain ⟨name, more, first⟩ := List.exists_cons_of_ne_nil (names_ne_nil path)
      rw [List.cons_append, names_cons slash first]
      have joined := ih.trans (congrArg (· ++ names rest) first)
      exact names_cons slash joined

/-- The names that mean something. -/
def solid (path : List Char) : List (List Char) :=
  (names path).filter isSolid

theorem solid_append_slash (path rest : List Char) :
    solid (path ++ '/' :: rest) = solid path ++ solid rest := by
  rw [solid, names_append_slash, List.filter_append, solid, solid]

theorem solid_of_isSolid (plain : '/' ∉ name) (named : isSolid name = true) :
    solid name = [name] := by
  rw [solid, names_of_slash_not_mem plain, List.filter_cons_of_pos named, List.filter_nil]

/-- A tail names nothing. -/
theorem solid_append (ending : IsTail tail) (path : List Char) :
    solid (path ++ tail) = solid path := by
  have nothing : solid [] = [] := rfl
  have dot : solid ['.'] = [] := rfl
  induction ending generalizing path with
  | nil => rw [List.append_nil]
  | slash _ ih => rw [List.append_cons, ih, solid_append_slash, nothing, List.append_nil]
  | slashDot _ ih =>
    rw [List.append_cons, List.append_cons, ih, List.append_assoc, List.singleton_append,
      solid_append_slash, dot, List.append_nil]

/-- The file name of a path is the name behind its last folder, whatever the tail, if that name is
not made of dots only. -/
theorem ofPath?_file (inFolder : folder = [] ∨ ∃ above, folder = above ++ ['/'])
    (plain : '/' ∉ name) (noDots : ∃ c ∈ name, c ≠ '.') (ending : IsTail tail) :
    ofPath? (folder ++ name ++ tail) = some name := by
  have notDots (n : Nat) : name ≠ List.replicate n '.' := by
    rintro rfl
    obtain ⟨c, member, other⟩ := noDots
    exact other (List.eq_of_mem_replicate member)
  have noParent : name ≠ ['.', '.'] := notDots 2
  have named : isSolid name = true := by
    simpa [isSolid] using And.intro (notDots 0) (notDots 1)
  have last : ∃ before, solid (folder ++ name) = before ++ [name] := by
    rcases inFolder with rfl | ⟨above, rfl⟩
    · exact ⟨[], solid_of_isSolid plain named⟩
    · refine ⟨solid above, ?_⟩
      rw [List.append_assoc, List.singleton_append, solid_append_slash,
        solid_of_isSolid plain named]
  obtain ⟨before, names⟩ := last
  rw [ofPath?, ← solid, solid_append ending, names, List.getLast?_concat]
  simpa using noParent

/-- From the end of a name, no dot is met before the suffix is passed. -/
theorem takeWhile_suffix (plain : '.' ∉ extension) (rest : List Char) :
    (extension.reverse ++ rest).takeWhile (· ≠ '.') =
      extension.reverse ++ rest.takeWhile (· ≠ '.') := by
  apply List.takeWhile_append_of_pos
  intro c member
  rw [List.mem_reverse] at member
  exact decide_eq_true (ne_of_mem_of_not_mem member plain)

/-- The extension of a name is what follows its last dot, if something precedes that dot. -/
theorem extension?_append_dot (plain : '.' ∉ extension) (stem : List Char) :
    extension? (stem ++ '.' :: extension) = if stem = [] then none else some extension := by
  have suffix : (stem ++ '.' :: extension).reverse.takeWhile (· ≠ '.') = extension.reverse := by
    rw [List.reverse_append, List.reverse_cons, List.append_assoc, takeWhile_suffix plain]
    simp
  rw [extension?, suffix, List.reverse_reverse]
  cases stem with
  | nil => simp
  | cons c more =>
    rw [if_pos, if_neg (List.cons_ne_nil c more)]
    simp only [List.length_reverse, List.length_append, List.length_cons]
    omega

theorem extension?_of_dot_not_mem (plain : '.' ∉ name) : extension? name = none := by
  have suffix : name.reverse.takeWhile (· ≠ '.') = name.reverse := by
    simpa using takeWhile_suffix plain []
  rw [extension?, suffix, if_neg]
  rw [List.length_reverse]
  omega

theorem extensionOfPath?_of_file (file : ofPath? path = some name) :
    extensionOfPath? path = extension? name := by
  rw [extensionOfPath?, file, Option.bind_some]

end Names

end FileName

open FileName

/-- Letters count alike in both cases, and no other characters do. -/
theorem contains_jsonExtensions (extension : String) :
    jsonExtensions.contains (extension.toList.map Char.toLower) = true ↔
      extension.toLower ∈ ["json", "jsonl", "ndjson"] := by
  simp [jsonExtensions, String.toLower, ← String.toList_inj]

/-- Which encoding is found out for a path. Only its last name counts, whatever folders are in front
of it and however many slashes, with or without a dot, are behind it. The name asks for lines of
JSON if something precedes its last dot and one of three extensions follows, in any case, and for
the binary form otherwise. -/
theorem Format.resolve_auto {folder tail : String}
    (inFolder : folder = "" ∨ ∃ above, folder = above ++ "/") (stem : String)
    (plain : '/' ∉ stem.toList) (ending : IsTail tail.toList) :
    (∀ extension : String, extension ≠ "" → '.' ∉ extension.toList → '/' ∉ extension.toList →
      Format.auto.resolve (folder ++ stem ++ "." ++ extension ++ tail) =
        if stem ≠ "" ∧ extension.toLower ∈ ["json", "jsonl", "ndjson"] then .json else .bincode) ∧
    (stem ≠ "" → '.' ∉ stem.toList →
      Format.auto.resolve (folder ++ stem ++ tail) = .bincode) := by
  have inFolder' : folder.toList = [] ∨ ∃ above, folder.toList = above ++ ['/'] := by
    rcases inFolder with rfl | ⟨above, rfl⟩
    · exact .inl rfl
    · exact .inr ⟨above.toList, String.toList_append⟩
  have noDots {name : String} (named : name ≠ "") (noDot : '.' ∉ name.toList) :
      ∃ c ∈ name.toList, c ≠ '.' := by
    obtain ⟨c, member⟩ := List.exists_mem_of_ne_nil _ (mt String.toList_eq_nil_iff.1 named)
    exact ⟨c, member, ne_of_mem_of_not_mem member noDot⟩
  constructor
  · intro extension named noDot noSlash
    obtain ⟨c, member, other⟩ := noDots named noDot
    have plain' : '/' ∉ stem.toList ++ '.' :: extension.toList := by simp [plain, noSlash]
    have file := ofPath?_file inFolder' plain' ⟨c, by simp [member], other⟩ ending
    rw [resolve, Encoding.ofPath, extensionOfPath?_of_file (by simpa using file),
      extension?_append_dot noDot]
    by_cases empty : stem = ""
    · subst empty
      rfl
    · rw [if_neg (mt String.toList_eq_nil_iff.1 empty)]
      simp only [contains_jsonExtensions, ne_eq, empty, not_false_eq_true, true_and]
  · intro named noDot
    have file := ofPath?_file inFolder' plain (noDots named noDot) ending
    rw [resolve, Encoding.ofPath, extensionOfPath?_of_file (by simpa using file),
      extension?_of_dot_not_mem noDot]

/-- The name of the folder and the tail do not count, nor does a dot at the beginning. -/
theorem Format.resolve_auto_behind_folder :
    (∃ above, "x.json/../" = above ++ "/") ∧ IsTail "//./".toList ∧
      Format.auto.resolve "x.json/../trace.NdJson//./" = .json ∧
      Format.auto.resolve "x.json/../.jsonl//./" = .bincode ∧
      Format.auto.resolve "x.json/../trace//./" = .bincode := by
  have above : ∃ above, "x.json/../" = above ++ "/" := ⟨"x.json/..", by decide⟩
  have ending : IsTail "//./".toList := .slash (.slashDot (.slash .nil))
  have trace := resolve_auto (.inr above) "trace" (by decide) ending
  have nothing := resolve_auto (.inr above) "" (by decide) ending
  have lowered : "NdJson".toLower = "ndjson" := by cbv
  have lines := trace.1 "NdJson" (by decide) (by decide) (by decide)
  have hidden := nothing.1 "jsonl" (by decide) (by decide) (by decide)
  rw [lowered, if_pos (by decide)] at lines
  rw [if_neg (by decide)] at hidden
  exact ⟨above, ending, lines, hidden, trace.2 (by decide) (by decide)⟩

end TraceTables
