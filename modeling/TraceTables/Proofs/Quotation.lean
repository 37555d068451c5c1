import Mathlib
import TraceTables.Field

/-!
# Where a quoted field ends

A quoted field delimits itself: when something follows it that does not begin with a quote,
both the field and what follows are determined by the whole. Inside the quotes every quote
is doubled, so the first quote that is not followed by another is the closing one.
-/

namespace TraceTables.Field

/-- The characters between the quotes. -/
def body (text : List Char) : List Char :=
  text.flatMap fun c => if c = '"' then ['"', '"'] else [c]

@[simp] theorem body_nil : body [] = [] := rfl

@[simp] theorem body_quote (rest : List Char) : body ('"' :: rest) = '"' :: '"' :: body rest := by
  simp [body]

@[simp] theorem body_cons {c : Char} (plain : c ≠ '"') (rest : List Char) :
    body (c :: rest) = c :: body rest := by
  simp [body, plain]

theorem quote_toList (text : String) :
    (quote text).toList = (guard text).toList ++ '"' :: (body text.toList ++ ['"']) := by
  have spelled : (fun c => (Text.spelling doubled c).toList) =
      fun c => if c = '"' then ['"', '"'] else [c] := by
    funext c
    by_cases h : c = '"' <;> simp [Text.spelling, doubled, h]
  simp [quote, Text.substitute_toList, body, spelled]

/-- The first quote without another behind it ends the body. -/
theorem body_append_inj {a b r s : List Char} (h : body a ++ '"' :: r = body b ++ '"' :: s)
    (hr : r.head? ≠ some '"') (hs : s.head? ≠ some '"') : a = b ∧ r = s := by
  induction a generalizing b with
  | nil =>
    cases b with
    | nil => exact ⟨rfl, by simpa using h⟩
    | cons d b =>
      by_cases hd : d = '"'
      · subst hd
        simp only [body_nil, body_quote, List.nil_append, List.cons_append, List.cons.injEq,
          true_and] at h
        exact absurd (by rw [h]; rfl) hr
      · simp [hd, eq_comm] at h
  | cons c a ih =>
    cases b with
    | nil =>
      by_cases hc : c = '"'
      · subst hc
        simp only [body_nil, body_quote, List.nil_append, List.cons_append, List.cons.injEq,
          true_and] at h
        exact absurd (by rw [← h]; rfl) hs
      · simp [hc] at h
    | cons d b =>
      by_cases hc : c = '"' <;> by_cases hd : d = '"'
      · subst hc hd
        simp only [body_quote, List.cons_append, List.cons.injEq, true_and] at h
        obtain ⟨rfl, rfl⟩ := ih h
        exact ⟨rfl, rfl⟩
      · subst hc
        simp only [body_quote, body_cons hd, List.cons_append, List.cons.injEq] at h
        exact absurd h.1.symm hd
      · subst hd
        simp only [body_quote, body_cons hc, List.cons_append, List.cons.injEq] at h
        exact absurd h.1 hc
      · simp only [body_cons hc, body_cons hd, List.cons_append, List.cons.injEq] at h
        obtain ⟨rfl, rfl⟩ := ih h.2
        exact ⟨by rw [h.1], rfl⟩

/-- A quoted field begins with its guard or with its opening quote. -/
theorem head?_quote (text : String) (rest : List Char) :
    ((quote text).toList ++ rest).head? = some '=' ∨
      ((quote text).toList ++ rest).head? = some '"' := by
  rw [quote_toList, guard]
  split
  · exact .inl rfl
  · exact .inr rfl

/-- Fields that are followed by something other than a quote are told apart. -/
theorem quote_append_inj {a b : String} {r s : List Char}
    (h : (quote a).toList ++ r = (quote b).toList ++ s)
    (hr : r.head? ≠ some '"') (hs : s.head? ≠ some '"') : a = b ∧ r = s := by
  rw [quote_toList, quote_toList] at h
  -- The guards agree: one in front of only one of the fields would meet its opening quote.
  have bodies : body a.toList ++ '"' :: r = body b.toList ++ '"' :: s := by
    by_cases ga : a.startsWith '-' <;> by_cases gb : b.startsWith '-'
    · simpa [guard, ga, gb] using h
    · simp [guard, ga, gb] at h
    · simp [guard, ga, gb] at h
    · simpa [guard, ga, gb] using h
  obtain ⟨same, rest⟩ := body_append_inj bodies hr hs
  exact ⟨String.toList_injective same, rest⟩

/-- A quoted field delimits itself. Two of them, each followed by something that does not begin with
a quote, are written alike only if the fields are the same and so is what follows. So no two fields
have the same quoted form, and one that begins with a minus sign is not mistaken for one that begins
with the equals sign written in front of it, whatever follows them. -/
theorem quote_append_eq_iff {r s : String} (hr : r.toList.head? ≠ some '"')
    (hs : s.toList.head? ≠ some '"') (a b : String) :
    (quote a ++ r = quote b ++ s ↔ a = b ∧ r = s) ∧
      (quote a = quote b ↔ a = b) ∧
      ∀ u v : String, quote ("-" ++ a) ++ u ≠ quote ("=" ++ b) ++ v := by
  have inj {a b r s : String} (hr : r.toList.head? ≠ some '"') (hs : s.toList.head? ≠ some '"')
      (same : quote a ++ r = quote b ++ s) : a = b ∧ r = s := by
    have chars := congrArg String.toList same
    rw [String.toList_append, String.toList_append] at chars
    obtain ⟨fields, rest⟩ := quote_append_inj chars hr hs
    exact ⟨fields, String.toList_injective rest⟩
  refine ⟨⟨inj hr hs, ?_⟩, ⟨fun same => ?_, congrArg quote⟩, fun u v same => ?_⟩
  · rintro ⟨rfl, rfl⟩
    rfl
  · exact (inj (r := "") (s := "") nofun nofun (congrArg (· ++ "") same)).1
  · -- The guard of the one field meets the opening quote of the other.
    have chars := congrArg String.toList same
    simp [quote_toList, guard, String.startsWith_char_eq_head?] at chars

/-- The quotes at the end of the field are not taken for the closing one. -/
theorem quote_append_eq_iff_trailing_quotes :
    ",1".toList.head? ≠ some '"' ∧ quote "-\"\"" ++ ",1" = "=\"-\"\"\"\"\",1" ∧
      "".toList.head? ≠ some '"' ∧ quote "-\"\"" ++ ",1" ≠ quote "-\"\",1" ++ "" := by
  have first : ",1".toList.head? ≠ some '"' := by decide
  have second : "".toList.head? ≠ some '"' := by decide
  refine ⟨first, by cbv, second, fun same => ?_⟩
  exact absurd ((quote_append_eq_iff first second _ _).1.1 same).2 (by decide)

/-- What begins with a quote can continue the field before it. -/
example : quote "a" ++ quote "b" = quote "a\"b" := by
  cbv

end TraceTables.Field
