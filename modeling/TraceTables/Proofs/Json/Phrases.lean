import TraceTables.Json.Tagged
import TraceTables.Proofs.Json.Spelling

/-!
# What the readers of values read

A reader is described by the phrases that it reads and the value that each of them stands for
(`Reads`). A phrase is read wherever something follows that cannot continue it, which is said
once for all phrases (`Ends`): only numbers have no end of their own.

White space may stand in front of a value and between the tokens of an object. It is part of
the phrase.
-/

namespace TraceTables.Json

variable {α β : Type}

/-- White space of JSON. -/
def Space (space : List Char) : Prop :=
  ∀ c ∈ space, c ∈ [' ', '\t', '\n', '\r']

theorem space_nil : Space [] := by
  intro c member
  cases member

theorem Space.isSpace {space : List Char} (h : Space space) : ∀ c ∈ space, isSpace c = true := by
  intro c member
  have listed := h c member
  simp only [List.mem_cons, List.not_mem_nil, or_false] at listed
  rcases listed with rfl | rfl | rfl | rfl <;> rfl

theorem lt_length_append {phrase : List Char} (h : phrase ≠ []) (rest : List Char) :
    rest.length < (phrase ++ rest).length := by
  rw [List.length_append]
  exact Nat.lt_add_of_pos_left (List.length_pos_iff.2 h)

/-- Whether no number can go on here. -/
def Ends (rest : List Char) : Prop :=
  ∀ c ∈ rest.head?, c.isDigit = false ∧ c ≠ '.' ∧ c ≠ 'e' ∧ c ≠ 'E'

/-- The reader takes the phrase for a value, and leaves what follows. -/
def Reads (reader : Reader α) (phrase : List Char) (a : α) : Prop :=
  ∀ ⦃rest⦄, Ends rest → ∃ shorter, reader (phrase ++ rest) = .ok ⟨a, rest, shorter⟩

theorem skipSpace_cons {c : Char} (h : isSpace c = false) (s : List Char) :
    skipSpace (c :: s) = c :: s :=
  List.dropWhile_cons_of_neg (by simp [h])

/-- A token is found behind white space. -/
theorem skipSpace_eq {space : List Char} (spaces : Space space) {c : Char} (h : isSpace c = false)
    (s : List Char) : skipSpace (space ++ c :: s) = c :: s := by
  rw [skipSpace, List.dropWhile_append_of_pos spaces.isSpace]
  exact skipSpace_cons h s

theorem ends_nil : Ends [] := by
  intro c member
  cases member

theorem ends_cons {c : Char} (h : c.isDigit = false ∧ c ≠ '.' ∧ c ≠ 'e' ∧ c ≠ 'E')
    (rest : List Char) : Ends (c :: rest) := by
  intro d hd
  cases hd
  exact h

theorem ends_space {space rest : List Char} (h : Space space) (ends : Ends rest) :
    Ends (space ++ rest) := by
  cases space with
  | nil => exact ends
  | cons c more =>
    refine ends_cons ?_ _
    have listed := h c List.mem_cons_self
    simp only [List.mem_cons, List.not_mem_nil, or_false] at listed
    rcases listed with rfl | rfl | rfl | rfl <;> decide

/-- A value is read where the white space in front of it ends. -/
theorem afterSpace_eq_ok_iff {reader : Reader α} {s rest : List Char} {a : α} :
    (∃ shorter, afterSpace reader s = .ok ⟨a, rest, shorter⟩) ↔
      ∃ shorter, reader (skipSpace s) = .ok ⟨a, rest, shorter⟩ := by
  unfold afterSpace
  cases reader (skipSpace s) with
  | error refusal => exact iff_of_false nofun nofun
  | ok found =>
    constructor
    · rintro ⟨_, same⟩
      cases Except.ok.inj same
      exact ⟨found.shorter, rfl⟩
    · rintro ⟨shorter, same⟩
      cases Except.ok.inj same
      exact ⟨Nat.lt_of_lt_of_le shorter (length_skipSpace_le s), rfl⟩

namespace Reads

variable {reader : Reader α} {phrase : List Char} {a : α}

theorem map (h : Reads reader phrase a) (f : α → β) :
    Reads (fun s => (reader s).map (·.map f)) phrase (f a) := by
  intro rest ends
  obtain ⟨shorter, read⟩ := h ends
  refine ⟨shorter, ?_⟩
  simp only [read]
  rfl

/-- A phrase that does not begin with white space is read after looking for some. -/
theorem visible {first : Char} {more : List Char} (h : Reads reader (first :: more) a)
    (visible : isSpace first = false) : Reads (afterSpace reader) (first :: more) a := by
  intro rest ends
  rw [afterSpace_eq_ok_iff, List.cons_append, skipSpace_cons visible]
  exact h ends

/-- What is read after looking for white space is read behind more of it. -/
theorem spaced (h : Reads (afterSpace reader) phrase a) {space : List Char}
    (spaces : Space space) : Reads (afterSpace reader) (space ++ phrase) a := by
  intro rest ends
  have skipped : skipSpace (space ++ phrase ++ rest) = skipSpace (phrase ++ rest) := by
    rw [List.append_assoc, skipSpace, List.dropWhile_append_of_pos spaces.isSpace, skipSpace]
  rw [afterSpace_eq_ok_iff, skipped, ← afterSpace_eq_ok_iff]
  exact h ends

end Reads

section Tokens

variable {space : List Char}

theorem readColon_eq (spaces : Space space) (rest : List Char) :
    ∃ shorter, readColon (space ++ ':' :: rest) = .ok ⟨(), rest, shorter⟩ := by
  have skipped : skipSpace (space ++ ':' :: rest) = ':' :: rest :=
    skipSpace_eq spaces (by decide) rest
  refine ⟨length_lt_of_skipSpace skipped, ?_⟩
  unfold readColon
  split
  case _ rest' h =>
    rw [skipped] at h
    cases h
    rfl
  case _ h =>
    rw [skipped] at h
    cases h
  case _ other h =>
    rw [skipped] at h
    cases h
    exact absurd rfl other

variable {variants : List (Variant α)} {variant : Variant α} {word : String} {body : List Char}

theorem readWord_eq (spelled : Spelling word.toList body)
    (found : variants.find? (·.word == word) = some variant) (rest : List Char) :
    ∃ shorter, readWord variants (body ++ '"' :: rest) = .ok ⟨variant, rest, shorter⟩ := by
  obtain ⟨shorter, read⟩ := readText_spelling spelled rest
  refine ⟨shorter, ?_⟩
  rw [readWord, read]
  simp only [Bind.bind, Except.bind, found]
  rfl

/-- A word with its payload is an object with one member. -/
theorem readTagged_eq {space' space'' phrase : List Char} {a : α} (spaces : Space space)
    (spaces' : Space space') (spaces'' : Space space'') (spelled : Spelling word.toList body)
    (found : variants.find? (·.word == word) = some variant)
    (payload : Reads variant.payload phrase a) (rest : List Char) :
    ∃ shorter, readTagged variants (space ++ '"' :: (body ++ '"' :: (space' ++ ':' ::
      (phrase ++ (space'' ++ '\x7d' :: rest))))) = .ok ⟨a, rest, shorter⟩ := by
  have close : skipSpace (space'' ++ '\x7d' :: rest) = '\x7d' :: rest :=
    skipSpace_eq spaces'' (by decide) rest
  have ends : Ends (space'' ++ '\x7d' :: rest) := ends_space spaces'' (ends_cons (by decide) rest)
  obtain ⟨valueShorter, value⟩ := payload ends
  obtain ⟨colonShorter, colon⟩ := readColon_eq spaces' (phrase ++ (space'' ++ '\x7d' :: rest))
  obtain ⟨wordShorter, read⟩ :=
    readWord_eq spelled found (space' ++ ':' :: (phrase ++ (space'' ++ '\x7d' :: rest)))
  refine ⟨by simp only [List.length_append, List.length_cons]; omega, ?_⟩
  unfold readTagged
  split
  case _ none =>
    rw [skipSpace_eq spaces (by decide)] at none
    cases none
  case _ c more quote =>
    have opened := quote
    rw [skipSpace_eq spaces (by decide)] at opened
    cases opened
    -- A quote is what is looked for here, and the brace behind the payload is the last token.
    simp only [read, colon, value, Bind.bind, Except.bind]
    rw [if_neg (by decide), if_neg (by decide)]
    split
    case _ none =>
      rw [close] at none
      cases none
    case _ d after brace =>
      have closed := brace
      rw [close] at closed
      cases closed
      rw [if_pos rfl]

end Tokens

section Values

theorem reads_string {text : String} {body : List Char} (spelled : Spelling text.toList body) :
    Reads readString ('"' :: (body ++ ['"'])) text := by
  refine Reads.visible ?_ (by decide)
  intro rest ends
  rw [List.cons_append, List.append_assoc, List.singleton_append]
  obtain ⟨shorter, read⟩ := readText_spelling spelled rest
  refine ⟨Nat.lt_succ_of_lt shorter, ?_⟩
  simp only [read]
  rfl

theorem reads_true : Reads readBool "true".toList true := by
  refine Reads.visible ?_ (by decide)
  intro rest ends
  exact ⟨lt_length_append (by decide) rest, rfl⟩

theorem reads_false : Reads readBool "false".toList false := by
  refine Reads.visible ?_ (by decide)
  intro rest ends
  exact ⟨lt_length_append (by decide) rest, rfl⟩

variable {variants : List (Variant α)} {variant : Variant α} {word : String} {body : List Char}

/-- The bare word of a variant that lacks nothing is read as its value. -/
theorem reads_bareWord {a : α} (spelled : Spelling word.toList body)
    (found : variants.find? (·.word == word) = some variant) (bare : variant.bare = .ok a) :
    Reads (readVariant variants) ('"' :: (body ++ ['"'])) a := by
  refine Reads.visible ?_ (by decide)
  intro rest ends
  rw [List.cons_append, List.append_assoc, List.singleton_append]
  obtain ⟨shorter, read⟩ := readWord_eq spelled found rest
  refine ⟨Nat.lt_succ_of_lt shorter, ?_⟩
  simp only [read, Bind.bind, Except.bind, bare]
  rfl

/-- A word with its payload is read as what its variant makes of the payload. -/
theorem reads_tagged {space space' space'' phrase : List Char} {a : α} (spaces : Space space)
    (spaces' : Space space') (spaces'' : Space space'') (spelled : Spelling word.toList body)
    (found : variants.find? (·.word == word) = some variant)
    (payload : Reads variant.payload phrase a) :
    Reads (readVariant variants) ('\x7b' :: (space ++ '"' :: (body ++ '"' :: (space' ++ ':' ::
      (phrase ++ (space'' ++ ['\x7d'])))))) a := by
  refine Reads.visible ?_ (by decide)
  intro rest ends
  have regroup : '\x7b' :: (space ++ '"' :: (body ++ '"' :: (space' ++ ':' ::
      (phrase ++ (space'' ++ ['\x7d']))))) ++ rest =
      '\x7b' :: (space ++ '"' :: (body ++ '"' :: (space' ++ ':' ::
        (phrase ++ (space'' ++ '\x7d' :: rest))))) := by simp
  obtain ⟨shorter, read⟩ := readTagged_eq spaces spaces' spaces'' spelled found payload rest
  rw [regroup]
  refine ⟨Nat.lt_succ_of_lt shorter, ?_⟩
  simp only [read]
  rfl

end Values

end TraceTables.Json
