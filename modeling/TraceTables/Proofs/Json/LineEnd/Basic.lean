import Mathlib
import TraceTables.Json.Scalar

/-!
# Reading with a carriage return at the end of a line

A reader is run over what is left of a line, and over the same with a carriage return at its end.
It is refused on both, or it finds the same value on both and leaves the same characters, behind
which the carriage return stands or not (`IgnoresReturn`). The causes of the refusals may differ.

Between tokens a carriage return is white space, and in a string it is refused, as the end of the
line is.
-/

namespace TraceTables.Json

variable {α β γ δ : Type}

/-- Whether two attempts are both refused, or both succeed with related results. -/
inductive Agree (R : α → β → Prop) : Except Refusal α → Except Refusal β → Prop where
  | found {a : α} {b : β} (related : R a b) : Agree R (.ok a) (.ok b)
  | refused (refusal refusal' : Refusal) : Agree R (.error refusal) (.error refusal')

namespace Agree

variable {R : α → β → Prop} {S : γ → δ → Prop} {x : Except Refusal α} {y : Except Refusal β}

theorem bind {f : α → Except Refusal γ} {g : β → Except Refusal δ} (h : Agree R x y)
    (related : ∀ a b, R a b → Agree S (f a) (g b)) : Agree S (x >>= f) (y >>= g) := by
  cases h with
  | found h => exact related _ _ h
  | refused refusal refusal' => exact .refused refusal refusal'

theorem map {f : α → γ} {g : β → δ} (h : Agree R x y) (related : ∀ a b, R a b → S (f a) (g b)) :
    Agree S (x.map f) (y.map g) := by
  cases h with
  | found h => exact .found (related _ _ h)
  | refused refusal refusal' => exact .refused refusal refusal'

theorem of_map {f : α → γ} {g : β → δ} (h : Agree S (x.map f) (y.map g)) :
    Agree (fun a b => S (f a) (g b)) x y := by
  cases x <;> cases y <;> cases h
  case refused => exact .refused _ _
  case found related => exact .found related

end Agree

/-- Whether the same characters are left, and a carriage return behind them. -/
def Behind (rest rest' : List Char) : Prop :=
  rest' = rest ++ ['\r']

/-- Whether the same value is found, and a carriage return stands behind what is left. -/
def Returned (found found' : α × List Char) : Prop :=
  found'.1 = found.1 ∧ Behind found.2 found'.2

/-- What is found, without the bound on what is left. -/
def Found.parts {n : Nat} (found : Found α n) : α × List Char :=
  (found.value, found.rest)

/-- Whether the same value is found, and a carriage return stands behind what is left. -/
def Found.Returned {m n : Nat} (found : Found α m) (found' : Found α n) : Prop :=
  Json.Returned found.parts found'.parts

theorem Found.agree {m n : Nat} {x : Except Refusal (Found α m)} {y : Except Refusal (Found α n)}
    (h : Agree Json.Returned (x.map parts) (y.map parts)) : Agree Returned x y :=
  h.of_map

/-- After a value that is found on both lines, reading goes on with what is left of them. -/
theorem Agree.bindFound {S : γ → δ → Prop} {m n : Nat} {x : Except Refusal (Found α m)}
    {y : Except Refusal (Found α n)} {f : Found α m → Except Refusal γ}
    {g : Found α n → Except Refusal δ} (h : Agree Found.Returned x y)
    (onward : ∀ value rest (shorter : rest.length < m) (shorter' : (rest ++ ['\r']).length < n),
      Agree S (f ⟨value, rest, shorter⟩) (g ⟨value, rest ++ ['\r'], shorter'⟩)) :
    Agree S (x >>= f) (y >>= g) := by
  refine h.bind ?_
  rintro ⟨value, rest, shorter⟩ ⟨value', rest', shorter'⟩ ⟨same, behind⟩
  obtain rfl : value' = value := same
  obtain rfl : rest' = rest ++ ['\r'] := behind
  exact onward value' rest shorter shorter'

/-- Whether a reader does not depend on a carriage return at the end of the line. -/
def IgnoresReturn (reader : Reader α) : Prop :=
  ∀ s, Agree Found.Returned (reader s) (reader (s ++ ['\r']))

section Tokens

/-- White space is skipped up to the same character, or up to the end of the line. -/
theorem skipSpace_return (s : List Char) :
    (skipSpace s = [] ∧ skipSpace (s ++ ['\r']) = []) ∨
      ∃ c rest, skipSpace s = c :: rest ∧ skipSpace (s ++ ['\r']) = c :: (rest ++ ['\r']) := by
  induction s with
  | nil => exact .inl ⟨rfl, rfl⟩
  | cons c s ih =>
    by_cases space : isSpace c = true
    · rw [List.cons_append, skipSpace, skipSpace, List.dropWhile_cons_of_pos space,
        List.dropWhile_cons_of_pos space]
      exact ih
    · refine .inr ⟨c, s, ?_, ?_⟩
      · exact List.dropWhile_cons_of_neg space
      · exact List.dropWhile_cons_of_neg space

theorem afterSpace_ignoresReturn {reader : Reader α} (empty : ∃ refusal, reader [] = .error refusal)
    (visible : ∀ c s, Agree Found.Returned (reader (c :: s)) (reader (c :: (s ++ ['\r'])))) :
    IgnoresReturn (afterSpace reader) := by
  intro s
  have skipped :
      Agree Found.Returned (reader (skipSpace s)) (reader (skipSpace (s ++ ['\r']))) := by
    rcases skipSpace_return s with ⟨nothing, nothing'⟩ | ⟨c, rest, token, token'⟩
    · obtain ⟨refusal, refuses⟩ := empty
      rw [nothing, nothing', refuses]
      exact .refused _ _
    · rw [token, token']
      exact visible c rest
  exact skipped.map fun _ _ h => h

theorem readLetters_return {due : List Char} (letters : '\r' ∉ due) (s : List Char) :
    Agree Behind (readLetters due s) (readLetters due (s ++ ['\r'])) := by
  induction due generalizing s with
  | nil => exact .found rfl
  | cons letter more ih =>
    rw [List.mem_cons, not_or] at letters
    cases s with
    | nil =>
      rw [List.nil_append, readLetters, readLetters, if_neg letters.1]
      exact .refused _ _
    | cons c s =>
      rw [List.cons_append, readLetters, readLetters]
      split
      · exact ih letters.2 s
      · exact .refused _ _

theorem readName_return {due : List Char} (letters : '\r' ∉ due) (value : α) (s : List Char) :
    Agree Found.Returned (readName due value s) (readName due value (s ++ ['\r'])) := by
  have parts (s : List Char) : (readName due value s).map Found.parts =
      (readLetters due s).map fun rest => (value, rest) := by
    unfold readName
    split <;> simp_all <;> rfl
  apply Found.agree
  rw [parts, parts]
  exact (readLetters_return letters s).map fun _ _ behind => ⟨rfl, behind⟩

theorem parts_readColon (s : List Char) : (readColon s).map Found.parts =
    match skipSpace s with
    | [] => .error (.here .endInObject [])
    | c :: rest =>
      if c = ':' then .ok ((), rest) else .error (.next .expectedColon (c :: rest)) := by
  unfold readColon
  split <;> simp_all <;> rfl

theorem readColon_return : IgnoresReturn readColon := by
  intro s
  apply Found.agree
  rw [parts_readColon, parts_readColon]
  rcases skipSpace_return s with ⟨nothing, nothing'⟩ | ⟨c, rest, token, token'⟩
  · rw [nothing, nothing']
    exact .refused _ _
  · rw [token, token']
    dsimp only
    split
    · exact .found ⟨rfl, rfl⟩
    · exact .refused _ _

/-- No string ends with a carriage return, wherever the reader is. -/
theorem readTextFrom_return_nil (done : String) (place : Place) :
    ∃ refusal, readTextFrom done place ['\r'] = .error refusal := by
  have noDigit (code : Option Nat) : extended code '\r' = none := by
    cases code <;> rfl
  have width : '\r'.utf8Size = 1 := rfl
  cases place with
  | plain => exact ⟨_, rfl⟩
  | escape => exact ⟨_, rfl⟩
  | digits high due code =>
    rw [readTextFrom.eq_def]
    simp only [width, noDigit]
    split
    · exact ⟨_, rfl⟩
    · exact ⟨_, rfl⟩
  | pair high => exact ⟨_, rfl⟩
  | pairMark high => exact ⟨_, rfl⟩

theorem readTextFrom_return (done : String) (place : Place) (s : List Char) :
    Agree Returned (readTextFrom done place s) (readTextFrom done place (s ++ ['\r'])) := by
  induction s generalizing done place with
  | nil =>
    obtain ⟨refusal, refuses⟩ := readTextFrom_return_nil done place
    rw [List.nil_append, refuses]
    exact .refused _ _
  | cons c s ih =>
    -- Which way the reader goes is decided by the character and the place.
    rw [List.cons_append, readTextFrom.eq_def, readTextFrom.eq_def done place (c :: _)]
    dsimp only
    repeat' split
    all_goals first
      | exact ih _ _
      | exact .found ⟨rfl, rfl⟩
      | exact .refused _ _

theorem readText_return : IgnoresReturn readText := by
  intro s
  have parts (s : List Char) : (readText s).map Found.parts = readTextFrom "" .plain s := by
    unfold readText
    split <;> simp_all <;> rfl
  apply Found.agree
  rw [parts, parts]
  exact readTextFrom_return "" .plain s

end Tokens

end TraceTables.Json
