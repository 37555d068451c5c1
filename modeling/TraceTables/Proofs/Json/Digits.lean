import Mathlib
import TraceTables.Proofs.Json.Phrases

/-!
# Integers in plain digits

The digits of a number are read as that number if it fits 64 bits. The reader takes them from
the first to the last and stops early where the number would become too large, so that what
has been read so far has to be bounded by the whole (`le_ofDigitChars`).
-/

namespace TraceTables.Json

/-- Further digits only make a number larger. -/
theorem le_ofDigitChars (digits : List Char) (n : Nat) : n ≤ Nat.ofDigitChars 10 digits n := by
  induction digits generalizing n with
  | nil => exact Nat.le_refl n
  | cons c more ih =>
    rw [Nat.ofDigitChars_cons]
    have := ih (10 * n + (c.toNat - '0'.toNat))
    omega

/-- No number but zero begins with a zero. -/
theorem head?_toDigits_ne_zero {n : Nat} (h : n ≠ 0) : (Nat.toDigits 10 n).head? ≠ some '0' := by
  have small : ∀ d < 10, d ≠ 0 → Nat.digitChar d ≠ '0' := by decide
  induction n using Nat.strongRecOn with
  | ind n ih =>
    rcases Nat.lt_or_ge n 10 with less | more
    · rw [Nat.toDigits_of_lt_base less]
      simpa using small n less h
    · rw [Nat.toDigits_of_base_le (by decide) more, List.head?_append]
      have first := ih (n / 10) (by omega) (by omega)
      obtain ⟨c, digits, cut⟩ := List.exists_cons_of_ne_nil
        (Nat.toDigits_ne_nil (n := n / 10) (b := 10))
      rw [cut] at first ⊢
      exact first

theorem not_isSpace_of_isDigit {c : Char} (digit : c.isDigit = true) : isSpace c = false := by
  cases space : isSpace c with
  | false => rfl
  | true =>
    simp only [isSpace, Bool.or_eq_true, beq_iff_eq] at space
    rcases space with ((rfl | rfl) | rfl) | rfl <;> cases digit

theorem Ends.digitNext {rest : List Char} (h : Ends rest) : digitNext rest = false := by
  cases rest with
  | nil => rfl
  | cons c more => exact (h c rfl).1

/-- All digits are taken if the number that they make up is within the limit. -/
theorem takeDigits_eq {limit number : Nat} (taken : Nat) {digits rest s : List Char}
    (isDigit : ∀ c ∈ digits, c.isDigit = true) (ends : Ends rest)
    (fits : Nat.ofDigitChars 10 digits number ≤ limit)
    (h : (digits ++ rest).length ≤ s.length) :
    ∃ taken' h', takeDigits limit number taken (⟨digits ++ rest, h⟩ : Tail s) =
      ⟨Nat.ofDigitChars 10 digits number, taken', ⟨rest, h'⟩⟩ := by
  induction digits generalizing number taken with
  | nil =>
    refine ⟨taken, h, ?_⟩
    rw [Nat.ofDigitChars_nil]
    change takeDigits limit number taken (⟨rest, h⟩ : Tail s) = _
    cases rest with
    | nil => rw [takeDigits.eq_def]
    | cons c more =>
      have noDigit : c.isDigit = false := (ends c rfl).1
      rw [takeDigits.eq_def]
      simp [noDigit]
  | cons c more ih =>
    rw [Nat.ofDigitChars_cons] at fits ⊢
    obtain ⟨digit, moreDigits⟩ := List.forall_mem_cons.1 isDigit
    have within := Nat.le_trans (le_ofDigitChars more _) fits
    obtain ⟨taken', h', taking⟩ := ih (taken + 1) moreDigits fits (Nat.le_of_succ_le h)
    refine ⟨taken', h', ?_⟩
    change takeDigits limit number taken (⟨c :: (more ++ rest), h⟩ : Tail s) = _
    rw [takeDigits.eq_def]
    simp only [digit, within, and_self, if_true]
    exact taking

theorem readAfterWhole_eq {n : Nat} {rest s : List Char} (ends : Ends rest)
    (h : rest.length ≤ s.length) :
    readAfterWhole false n (⟨rest, h⟩ : Tail s) = .ok (.natural (UInt64.ofNat n), ⟨rest, h⟩) := by
  cases rest with
  | nil => rfl
  | cons c more =>
    obtain ⟨-, point, e, E⟩ := ends c rfl
    unfold readAfterWhole
    split <;> simp_all

/-- The digits of a number of 64 bits are read as that number. -/
theorem readWhole_eq {n : UInt64} {first : Char} {more : List Char}
    (digits : Nat.toDigits 10 n.toNat = first :: more) {rest : List Char} (ends : Ends rest) :
    ∃ h, readWhole false first (more ++ rest) = .ok (.natural n, ⟨rest, h⟩) := by
  have value : Nat.ofDigitChars 10 (first :: more) 0 = n.toNat := by
    rw [← digits, Nat.ofDigitChars_ten_toDigits]
  rw [Nat.ofDigitChars_cons, Nat.mul_zero, Nat.zero_add] at value
  by_cases leading : first = '0'
  · -- Only zero is written with a leading zero, and then nothing stands behind it.
    have zero : n.toNat = 0 := by
      apply Decidable.byContradiction
      intro other
      apply head?_toDigits_ne_zero other
      rw [digits, leading]
      rfl
    rw [zero] at digits
    obtain rfl : [] = more := (List.cons.inj digits).2
    refine ⟨Nat.le_refl _, ?_⟩
    change readWhole false first rest = _
    rw [readWhole, if_pos leading, if_neg (by simp [ends.digitNext]), readAfterWhole_eq ends,
      show n = UInt64.ofNat 0 from UInt64.toNat_inj.1 zero]
  · have isDigit : ∀ c ∈ first :: more, c.isDigit = true := by
      intro c member
      rw [← digits] at member
      exact Nat.isDigit_of_mem_toDigits (by decide) (by decide) member
    obtain ⟨digit, moreDigits⟩ := List.forall_mem_cons.1 isDigit
    have fits : Nat.ofDigitChars 10 more (first.toNat - '0'.toNat) ≤ UInt64.size - 1 := by
      rw [value]
      exact Nat.le_sub_one_of_lt n.toNat_lt
    obtain ⟨taken, shorter, taking⟩ := takeDigits_eq 1 moreDigits ends fits
      (Nat.le_refl (more ++ rest).length)
    refine ⟨shorter, ?_⟩
    rw [readWhole, if_neg leading, if_pos digit]
    simp only [taking, ends.digitNext, Bool.false_eq_true, if_false]
    rw [readAfterWhole_eq ends, value, UInt64.ofNat_toNat]

theorem reads_uint64 (n : UInt64) : Reads readUInt64 (toString n.toNat).toList n := by
  obtain ⟨first, more, digits⟩ := List.exists_cons_of_ne_nil
    (Nat.toDigits_ne_nil (n := n.toNat) (b := 10))
  have digit : first.isDigit = true :=
    Nat.isDigit_of_mem_toDigits (by decide) (by decide) (digits ▸ List.mem_cons_self)
  rw [Nat.toString_eq_repr, Nat.toList_repr, digits]
  refine Reads.visible ?_ (not_isSpace_of_isDigit digit)
  intro rest ends
  obtain ⟨h, read⟩ := readWhole_eq digits ends
  have number : readNumber (first :: (more ++ rest)) =
      .ok ⟨.natural n, rest, Nat.lt_succ_of_le h⟩ := by
    have unsigned : first ≠ '-' := by
      rintro rfl
      cases digit
    rw [readNumber_of_ne unsigned, read]
    rfl
  refine ⟨Nat.lt_succ_of_le h, ?_⟩
  change (if numberNext (first :: (more ++ rest)) then _ else _) = _
  rw [if_pos (by simp [numberNext, digit])]
  simp only [List.cons_append, number]

end TraceTables.Json
