import Mathlib
import TraceTables.Config
import TraceTables.Text.Substitute

/-!
# What a typed separator stands for

A typed separator is made of units: a character other than the backslash, which stands for itself,
or a backslash with one of six characters behind it. `StandsFor` says this without reading. Whatever
is typed either is made of units, or its units end at a backslash that begins none (`cases_units`).
In the first case it is accepted for what it stands for. In the second it is refused with that
backslash, which is the first place where cutting it into units fails: no longer beginning of it is
made of units (`StandsFor.length_le`).
-/

namespace TraceTables

namespace Separator

/-- The characters that may be typed behind a backslash, with what both together stand for. -/
def escapes : List (Char × Char) :=
  [('\\', '\\'), ('\'', '\''), ('"', '"'), ('t', '\t'), ('n', '\n'), ('r', '\r')]

/-- A typed text that is made of units, and what it stands for. -/
inductive StandsFor : List Char → List Char → Prop where
  | nil : StandsFor [] []
  | plain {c : Char} {typed meant : List Char} (other : c ≠ '\\') (rest : StandsFor typed meant) :
    StandsFor (c :: typed) (c :: meant)
  | escape {c stands : Char} {typed meant : List Char} (listed : (c, stands) ∈ escapes)
    (rest : StandsFor typed meant) : StandsFor ('\\' :: c :: typed) (stands :: meant)

/-- What may stand behind a backslash that begins no unit: nothing, or a character that cannot be
typed behind a backslash. -/
def BeginsNoUnit (after : List Char) : Prop :=
  ∀ c ∈ after.head?, ∀ stands, (c, stands) ∉ escapes

/-- The longest beginning of a typed text that is made of units. -/
structure LongestUnits (head typed : List Char) : Prop where
  beginning : head <+: typed
  units : ∃ meant, StandsFor head meant
  longest : ∀ other, other <+: typed → (∃ meant, StandsFor other meant) →
    other.length ≤ head.length

/-- How a separator may be typed: each backslash twice, and all else as it is. -/
def typedFor (separator : String) : String :=
  Text.substitute (fun c => if c = '\\' then some "\\\\" else none) separator

theorem escaped_eq_some_iff {c stands : Char} : escaped c = some stands ↔ (c, stands) ∈ escapes := by
  unfold escaped
  split <;> simp_all [escapes, eq_comm]

section Units

variable {typed meant head after other : List Char}

/-- A text stands for one thing only. -/
theorem StandsFor.unique {meant' : List Char} (one : StandsFor typed meant)
    (two : StandsFor typed meant') : meant = meant' := by
  induction one generalizing meant' with
  | nil =>
    cases two
    rfl
  | plain other _ ih =>
    cases two with
    | plain _ rest => rw [ih rest]
    | escape => exact absurd rfl other
  | escape listed _ ih =>
    cases two with
    | plain other => exact absurd rfl other
    | escape listed' rest =>
      rw [← escaped_eq_some_iff] at listed listed'
      rw [ih rest, Option.some.inj (listed.symm.trans listed')]

/-- Behind the units that end at a backslash which begins none, no unit ends. -/
theorem StandsFor.length_le (units : StandsFor head meant) (stuck : BeginsNoUnit after)
    {meant' : List Char} (others : StandsFor other meant')
    (beginning : other <+: head ++ '\\' :: after) : other.length ≤ head.length := by
  induction units generalizing other meant' with
  | nil =>
    cases others with
    | nil => exact Nat.le_refl 0
    | plain other =>
      obtain ⟨rfl, -⟩ := List.cons_prefix_cons.1 beginning
      exact absurd rfl other
    | escape listed =>
      obtain ⟨-, behind⟩ := List.cons_prefix_cons.1 beginning
      obtain ⟨rest, rfl⟩ := behind
      exact absurd listed (stuck _ rfl _)
  | plain plain _ ih =>
    cases others with
    | nil => exact Nat.zero_le _
    | plain _ rest =>
      obtain ⟨-, behind⟩ := List.cons_prefix_cons.1 beginning
      exact Nat.succ_le_succ (ih rest behind)
    | escape =>
      obtain ⟨rfl, -⟩ := List.cons_prefix_cons.1 beginning
      exact absurd rfl plain
  | escape _ _ ih =>
    cases others with
    | nil => exact Nat.zero_le _
    | plain other =>
      obtain ⟨rfl, -⟩ := List.cons_prefix_cons.1 beginning
      exact absurd rfl other
    | escape _ rest =>
      obtain ⟨-, behind⟩ := List.cons_prefix_cons.1 beginning
      obtain ⟨-, behind⟩ := List.cons_prefix_cons.1 behind
      exact Nat.succ_le_succ (Nat.succ_le_succ (ih rest behind))

/-- The units end at the longest beginning that is made of units. -/
theorem longestUnits_of_stuck (units : StandsFor head meant) (stuck : BeginsNoUnit after) :
    LongestUnits head (head ++ '\\' :: after) where
  beginning := List.prefix_append _ _
  units := ⟨meant, units⟩
  longest _ beginning := fun ⟨_, others⟩ => units.length_le stuck others beginning

theorem LongestUnits.unique {head' : List Char} (one : LongestUnits head typed)
    (two : LongestUnits head' typed) : head = head' := by
  have same : head.length = head'.length :=
    Nat.le_antisymm (two.longest head one.beginning one.units)
      (one.longest head' two.beginning two.units)
  rw [List.prefix_iff_eq_take.1 one.beginning, List.prefix_iff_eq_take.1 two.beginning, same]

/-- What ends with a backslash behind its longest units is not made of units. -/
theorem LongestUnits.not_standsFor (longest : LongestUnits head typed)
    (cut : typed = head ++ '\\' :: after) (meant : List Char) : ¬ StandsFor typed meant := by
  intro units
  have bound := longest.longest typed (List.prefix_refl typed) ⟨meant, units⟩
  rw [cut, List.length_append, List.length_cons] at bound
  omega

end Units

theorem push_append_ofList (done : String) (c : Char) (more : List Char) :
    done.push c ++ String.ofList more = done ++ String.ofList (c :: more) := by
  apply String.toList_injective
  simp

/-- Whatever is typed is accepted for what it stands for, or its units end at a backslash that
begins none, and it is refused with that backslash and the character behind it. -/
theorem cases_units (done : String) (typed : List Char) :
    (∃ meant, StandsFor typed meant ∧ expandFrom done typed = .ok (done ++ String.ofList meant)) ∨
      ∃ head meant after, typed = head ++ '\\' :: after ∧ StandsFor head meant ∧
        BeginsNoUnit after ∧
        expandFrom done typed = .error (String.ofList ('\\' :: after.take 1)) := by
  fun_induction expandFrom done typed with
  | case1 done => exact .inl ⟨[], .nil, by simp⟩
  | case2 done => exact .inr ⟨[], [], [], rfl, .nil, nofun, rfl⟩
  | case3 done c rest stands found ih =>
    have listed : (c, stands) ∈ escapes := escaped_eq_some_iff.1 found
    rcases ih with ⟨meant, units, accepted⟩ | ⟨head, meant, after, rfl, units, stuck, refused⟩
    · refine .inl ⟨stands :: meant, .escape listed units, ?_⟩
      rw [accepted, push_append_ofList]
    · exact .inr ⟨'\\' :: c :: head, stands :: meant, after, rfl, .escape listed units, stuck,
        refused⟩
  | case4 done c rest none =>
    have stuck : BeginsNoUnit (c :: rest) := by
      intro d here stands listed
      obtain rfl : c = d := Option.some.inj here
      rw [escaped_eq_some_iff.2 listed] at none
      cases none
    have sequence : "\\".push c = String.ofList ('\\' :: (c :: rest).take 1) := by
      apply String.toList_injective
      simp
    exact .inr ⟨[], [], c :: rest, rfl, .nil, stuck, congrArg _ sequence⟩
  | case5 done c rest unfinished unescaped ih =>
    have plain : c ≠ '\\' := by
      rintro rfl
      cases rest with
      | nil => exact unfinished rfl rfl
      | cons d rest => exact unescaped d rest rfl rfl
    rcases ih with ⟨meant, units, accepted⟩ | ⟨head, meant, after, rfl, units, stuck, refused⟩
    · refine .inl ⟨c :: meant, .plain plain units, ?_⟩
      rw [accepted, push_append_ofList]
    · exact .inr ⟨c :: head, c :: meant, after, rfl, .plain plain units, stuck, refused⟩

/-- A typed text that is made of units is accepted. Any other is refused where its units end. -/
theorem expand_cases (typed : String) :
    (∃ meant, StandsFor typed.toList meant ∧ expand typed = .ok (String.ofList meant)) ∨
      ∃ head after, typed.toList = head ++ '\\' :: after ∧ LongestUnits head typed.toList ∧
        expand typed = .error (String.ofList ('\\' :: after.take 1)) := by
  rcases cases_units "" typed.toList with
    ⟨meant, units, accepted⟩ | ⟨head, meant, after, cut, units, stuck, refused⟩
  · exact .inl ⟨meant, units, accepted.trans (by rw [String.empty_append])⟩
  · exact .inr ⟨head, after, cut, cut ▸ longestUnits_of_stuck units stuck, refused⟩

theorem expand_eq_ok_iff {typed separator : String} :
    expand typed = .ok separator ↔ StandsFor typed.toList separator.toList := by
  rcases expand_cases typed with ⟨meant, units, accepted⟩ | ⟨head, after, cut, longest, refused⟩
  · rw [accepted]
    constructor
    · intro same
      obtain rfl := Except.ok.inj same
      rwa [String.toList_ofList]
    · intro units'
      rw [units.unique units', String.ofList_toList]
  · rw [refused]
    exact iff_of_false nofun (longest.not_standsFor cut _)

theorem expand_eq_error_iff {typed sequence : String} :
    expand typed = .error sequence ↔
      ∃ head after, typed.toList = head ++ '\\' :: after ∧ LongestUnits head typed.toList ∧
        sequence = String.ofList ('\\' :: after.take 1) := by
  rcases expand_cases typed with ⟨meant, units, accepted⟩ | ⟨head, after, cut, longest, refused⟩
  · rw [accepted]
    refine iff_of_false nofun ?_
    rintro ⟨head, after, cut, longest, -⟩
    exact longest.not_standsFor cut meant units
  · rw [refused]
    constructor
    · intro same
      exact ⟨head, after, cut, longest, (Except.error.inj same).symm⟩
    · rintro ⟨head', after', cut', longest', rfl⟩
      obtain rfl := longest.unique longest'
      obtain ⟨-, rfl⟩ := List.cons.inj (List.append_cancel_left (cut.symm.trans cut'))
      rfl

/-- A separator with each backslash typed twice stands for itself. -/
theorem standsFor_typedFor (separator : String) :
    StandsFor (typedFor separator).toList separator.toList := by
  rw [typedFor, Text.substitute_toList]
  induction separator.toList with
  | nil => exact .nil
  | cons c more ih =>
    rw [List.flatMap_cons]
    by_cases backslash : c = '\\'
    · subst backslash
      exact .escape (by decide) ih
    · rw [Text.spelling, if_neg backslash]
      simpa using .plain backslash ih

end Separator

open Separator

/-- A typed separator is accepted exactly if it is made of units, and then for what they stand for.
Otherwise it is refused with the backslash, and the character after it if there is one, that follows
the longest beginning made of units. So every separator can be typed, with each backslash twice. -/
theorem Config.separator_units (typed : String) :
    (∀ separator, Config.separator typed = .ok separator ↔
      StandsFor typed.toList separator.toList) ∧
    (∀ fault, Config.separator typed = .error fault ↔
      ∃ head after, typed.toList = head ++ '\\' :: after ∧ LongestUnits head typed.toList ∧
        fault = .invalidEscape (String.ofList ('\\' :: after.take 1)) typed) ∧
    ∀ separator, Config.separator (typedFor separator) = .ok separator := by
  have accepted (typed separator : String) :
      Config.separator typed = .ok separator ↔ StandsFor typed.toList separator.toList := by
    rw [← expand_eq_ok_iff, Config.separator]
    cases expand typed <;> simp [Except.mapError]
  have refused (fault : Fault) : Config.separator typed = .error fault ↔
      ∃ sequence, expand typed = .error sequence ∧ fault = .invalidEscape sequence typed := by
    rw [Config.separator]
    cases expand typed <;> simp [Except.mapError, eq_comm]
  refine ⟨accepted typed, fun fault => ?_, fun separator => ?_⟩
  · rw [refused]
    constructor
    · rintro ⟨sequence, stopped, rfl⟩
      obtain ⟨head, after, cut, longest, rfl⟩ := expand_eq_error_iff.1 stopped
      exact ⟨head, after, cut, longest, rfl⟩
    · rintro ⟨head, after, cut, longest, rfl⟩
      exact ⟨_, expand_eq_error_iff.2 ⟨head, after, cut, longest, rfl⟩, rfl⟩
  · exact (accepted _ _).2 (standsFor_typedFor separator)

/-- Of three backslashes and a letter the first two make up a unit. -/
example : Config.separator "\\\\\\q" = .error (.invalidEscape "\\q" "\\\\\\q") := by
  cbv

end TraceTables
