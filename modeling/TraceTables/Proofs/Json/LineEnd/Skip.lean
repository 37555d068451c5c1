import TraceTables.Json.Skip
import TraceTables.Proofs.Json.LineEnd.Basic

/-!
# Passing over a value in front of a carriage return

A value that is passed over may end with a number, for which the end of the line and a carriage
return are the same. In all other places the end of the line is refused, and there a carriage return
is refused or leads to such a place again. This needs that nothing is due that has already been
settled (`Unsettled`), which every character keeps.
-/

namespace TraceTables.Json

namespace Skip

/-- Whether what is due has not been settled: a comma is due in a bracket only, and a name is due as
long as letters of it are. -/
def Unsettled : Due → List Bracket → Prop
  | .comma, opened => opened ≠ []
  | .letters due, _ => due ≠ [] ∧ '\r' ∉ due
  | _, _ => True

/-- Whether nothing that has been settled is due behind a character. -/
def Turn.Unsettled : Turn → Prop
  | .go due opened => Skip.Unsettled due opened
  | _ => True

theorem unsettled_settle (opened : List Bracket) : (settle opened).Unsettled := by
  cases opened with
  | nil => exact trivial
  | cons bracket outer => exact List.cons_ne_nil bracket outer

theorem unsettled_value (opened : List Bracket) (c : Char) : (value opened c).Unsettled := by
  unfold value
  repeat' split
  all_goals first
    | exact trivial
    | exact ⟨by decide, by decide⟩

theorem unsettled_key (opened : List Bracket) (c : Char) : (key opened c).Unsettled := by
  unfold key
  repeat' split
  all_goals exact trivial

theorem unsettled_comma (opened : List Bracket) (c : Char) : (comma opened c).Unsettled := by
  unfold comma
  repeat' split
  all_goals first
    | exact trivial
    | exact List.cons_ne_nil _ _
    | exact unsettled_settle _

theorem unsettled_afterWhole (opened : List Bracket) (c : Char) :
    (afterWhole opened c).Unsettled := by
  unfold afterWhole
  repeat' split
  · exact trivial
  · exact trivial
  · exact unsettled_comma opened c

theorem unsettled_step {due : Due} {opened : List Bracket} (unsettled : Unsettled due opened)
    (c : Char) : (step due opened c).Unsettled := by
  unfold step
  dsimp only
  repeat' split
  case h_11.isTrue.isFalse letter more _ left =>
    exact ⟨by simpa using left, fun member => unsettled.2 (List.mem_cons_of_mem _ member)⟩
  all_goals first
    | exact trivial
    | exact unsettled_settle _
    | exact unsettled_value _ _
    | exact unsettled_key _ _
    | exact unsettled_comma _ _
    | exact unsettled_afterWhole _ _

/-- At the end of the line a value ends exactly if a carriage return ends it. -/
theorem run_return_nil {due : Due} {opened : List Bracket} (unsettled : Unsettled due opened) :
    Agree Behind (run due opened []) (run due opened ['\r']) := by
  cases due with
  | value | listStart | objectStart | key | colon => exact .refused _ _
  | text | escape | whole | fraction | power | unsignedPower => exact .refused _ _
  | digits key count sound =>
    have width : '\r'.utf8Size = 1 := rfl
    have noDigit : ('\r'.isDigit || ('a' ≤ '\r' && '\r' ≤ 'f') || ('A' ≤ '\r' && '\r' ≤ 'F')) =
        false := by decide
    simp only [run, step, width, noDigit, Bool.and_false]
    by_cases more : 1 < count
    · simp only [if_pos more]
      exact .refused _ _
    · simp only [if_neg more, Bool.false_eq_true, if_false]
      exact .refused _ _
  | letters due =>
    obtain ⟨left, noReturn⟩ := unsettled
    obtain ⟨letter, more, rfl⟩ := List.exists_cons_of_ne_nil left
    have other : '\r' ≠ letter := fun same => noReturn (same ▸ List.mem_cons_self)
    simp only [run, step, if_neg other]
    exact .refused _ _
  | comma =>
    rcases opened with _ | ⟨_ | _, outer⟩
    · exact absurd rfl unsettled
    · exact .refused _ _
    · exact .refused _ _
  | afterZero | moreWhole | moreFraction | morePower =>
    -- The number ends here, but a bracket that is open is not closed by a carriage return.
    rcases opened with _ | ⟨_ | _, outer⟩
    · exact .found rfl
    · exact .refused _ _
    · exact .refused _ _

theorem run_return {due : Due} {opened : List Bracket} (unsettled : Unsettled due opened)
    (s : List Char) : Agree Behind (run due opened s) (run due opened (s ++ ['\r'])) := by
  induction s generalizing due opened with
  | nil => exact run_return_nil unsettled
  | cons c s ih =>
    have next := unsettled_step unsettled c
    rw [List.cons_append, run, run]
    generalize step due opened c = turn at next ⊢
    rcases turn with ⟨due, opened⟩ | _ | _ | ⟨cause, ahead⟩
    · exact ih next
    · exact .found rfl
    · exact .found rfl
    · exact .refused _ _

end Skip

theorem skipValue_return : IgnoresReturn skipValue := by
  intro s
  have parts (s : List Char) : (skipValue s).map Found.parts =
      (Skip.run .value [] s).map fun rest => ((), rest) := by
    unfold skipValue
    split <;> simp_all <;> rfl
  apply Found.agree
  rw [parts, parts]
  have run := Skip.run_return (show Skip.Unsettled .value [] from trivial) s
  exact run.map fun _ _ behind => ⟨rfl, behind⟩

end TraceTables.Json
