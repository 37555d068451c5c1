import TraceTables.Json.Skip
import TraceTables.Proofs.Json.Digits

/-!
# Well-formed values are passed over

`WellFormed` is the grammar of JSON: the values, and the parts of lists and objects. The text of a
string is of the right form whatever its escapes stand for, and a number whatever its size.

A value that is passed over takes one step for each character, with the brackets that are open. What
each part of the grammar comes to is said once for all brackets around it and all that follows it
(`Skips`): a value is settled where it ends, and the items of a list or the members of an object
lead to the bracket that closes them. With that, every rule of the grammar is a few steps, and
`reads_skipped` is the case of a value with no bracket around it.
-/

namespace TraceTables.Json

/-- A run of digits, of which there is at least one. -/
def DigitText (s : List Char) : Prop :=
  s ≠ [] ∧ ∀ c ∈ s, c.isDigit = true

/-- The integral part of a number: no zero leads other digits. -/
inductive WholeText : List Char → Prop where
  | zero : WholeText ['0']
  | digits {first : Char} {more : List Char} (digit : first.isDigit = true) (other : first ≠ '0')
    (digits : ∀ c ∈ more, c.isDigit = true) : WholeText (first :: more)

/-- The fraction of a number, if it has one. -/
inductive FractionText : List Char → Prop where
  | none : FractionText []
  | some {s : List Char} (digits : DigitText s) : FractionText ('.' :: s)

/-- The exponent of a number, if it has one. -/
inductive ExponentText : List Char → Prop where
  | none : ExponentText []
  | some {mark : Char} {sign s : List Char} (marked : mark = 'e' ∨ mark = 'E')
    (signed : sign = [] ∨ sign = ['+'] ∨ sign = ['-']) (digits : DigitText s) :
    ExponentText (mark :: (sign ++ s))

/-- A number of any size. -/
inductive NumberText : List Char → Prop where
  | make {sign whole fraction exponent : List Char} (signed : sign = [] ∨ sign = ['-'])
    (wholeText : WholeText whole) (fractionText : FractionText fraction)
    (exponentText : ExponentText exponent) :
    NumberText (sign ++ (whole ++ (fraction ++ exponent)))

/-- What may stand between the quotes of a string, whatever its escapes stand for. -/
inductive Quotable : List Char → Prop where
  | nil : Quotable []
  | raw {c : Char} {s : List Char} (quote : c ≠ '"') (backslash : c ≠ '\\')
    (visible : 0x20 ≤ c.toNat) (more : Quotable s) : Quotable (c :: s)
  | short {letter meant : Char} {s : List Char} (listed : (letter, meant) ∈ shortEscapes)
    (more : Quotable s) : Quotable ('\\' :: letter :: s)
  | code {code : Nat} {digits s : List Char} (text : isCodeText code digits = true)
    (more : Quotable s) : Quotable ('\\' :: 'u' :: (digits ++ s))

/-- The parts that a value is made of. -/
inductive Part where
  | value
  /-- A value with white space around it. -/
  | element
  /-- The elements of a list, of which there is at least one. -/
  | elements
  | member
  /-- The members of an object, of which there is at least one. -/
  | members

/-- The grammar of JSON. -/
inductive WellFormed : Part → List Char → Prop where
  | null : WellFormed .value ['n', 'u', 'l', 'l']
  | true : WellFormed .value ['t', 'r', 'u', 'e']
  | false : WellFormed .value ['f', 'a', 'l', 's', 'e']
  | number {s : List Char} (number : NumberText s) : WellFormed .value s
  | string {s : List Char} (quotable : Quotable s) : WellFormed .value ('"' :: (s ++ ['"']))
  | emptyList {space : List Char} (spaces : Space space) :
    WellFormed .value ('[' :: (space ++ [']']))
  | list {s : List Char} (elements : WellFormed .elements s) :
    WellFormed .value ('[' :: (s ++ [']']))
  | emptyObject {space : List Char} (spaces : Space space) :
    WellFormed .value ('\x7b' :: (space ++ ['\x7d']))
  | object {s : List Char} (members : WellFormed .members s) :
    WellFormed .value ('\x7b' :: (s ++ ['\x7d']))
  | element {space s space' : List Char} (spaces : Space space) (value : WellFormed .value s)
    (spaces' : Space space') : WellFormed .element (space ++ (s ++ space'))
  | lastElement {s : List Char} (element : WellFormed .element s) : WellFormed .elements s
  | elements {s t : List Char} (element : WellFormed .element s) (more : WellFormed .elements t) :
    WellFormed .elements (s ++ ',' :: t)
  | member {space key space' s : List Char} (spaces : Space space) (quotable : Quotable key)
    (spaces' : Space space') (element : WellFormed .element s) :
    WellFormed .member (space ++ '"' :: (key ++ '"' :: (space' ++ ':' :: s)))
  | lastMember {s : List Char} (member : WellFormed .member s) : WellFormed .members s
  | members {s t : List Char} (member : WellFormed .member s) (more : WellFormed .members t) :
    WellFormed .members (s ++ ',' :: t)

namespace Skip

variable {opened outer : List Bracket} {s rest : List Char}

/-- What is left where a value has ended: everything if no bracket is open, and otherwise what
follows the value in the innermost bracket. -/
def settled (opened : List Bracket) (rest : List Char) : Except Refusal (List Char) :=
  if opened.isEmpty then .ok rest else run .comma opened rest

section Steps

theorem run_go {due due' : Due} {opened' : List Bracket} {c : Char}
    (goes : step due opened c = .go due' opened') (s : List Char) :
    run due opened (c :: s) = run due' opened' s := by
  rw [run, goes]

theorem run_settle {due : Due} {opened' : List Bracket} {c : Char}
    (settles : step due opened c = settle opened') (s : List Char) :
    run due opened (c :: s) = settled opened' s := by
  rw [run, settles]
  cases opened' <;> rfl

/-- Characters that lead nowhere else are passed over. -/
theorem run_loop {due : Due} {p : Char → Bool}
    (loops : ∀ c, p c = true → step due opened c = .go due opened) {s : List Char}
    (all : ∀ c ∈ s, p c = true) (rest : List Char) :
    run due opened (s ++ rest) = run due opened rest := by
  induction s with
  | nil => rfl
  | cons c s ih =>
    obtain ⟨first, more⟩ := List.forall_mem_cons.1 all
    rw [List.cons_append, run_go (loops c first), ih more]

/-- Two places that go on alike at the first visible character, and stay where they are before. -/
theorem run_start {start due : Due}
    (loops : ∀ c, isSpace c = true → step start opened c = .go start opened)
    (loops' : ∀ c, isSpace c = true → step due opened c = .go due opened) {c : Char}
    {more : List Char} (token : skipSpace s = c :: more)
    (same : step start opened c = step due opened c) : run start opened s = run due opened s := by
  have cut : s = s.takeWhile isSpace ++ c :: more := by
    rw [← token, skipSpace, List.takeWhile_append_dropWhile]
  have spaces : ∀ d ∈ s.takeWhile isSpace, isSpace d = true :=
    List.all_eq_true.1 List.all_takeWhile
  rw [cut, run_loop loops spaces, run_loop loops' spaces, run, run, same]

theorem step_value_space (opened : List Bracket) (c : Char) (space : isSpace c = true) :
    step .value opened c = .go .value opened := by
  simp [step, value, space]

theorem step_comma_space (bracket : Bracket) (outer : List Bracket) (c : Char)
    (space : isSpace c = true) :
    step .comma (bracket :: outer) c = .go .comma (bracket :: outer) := by
  cases bracket <;> simp [step, comma, space]

theorem step_key_space (opened : List Bracket) (c : Char) (space : isSpace c = true) :
    step .key opened c = .go .key opened := by
  simp [step, key, space]

theorem step_colon_space (opened : List Bracket) (c : Char) (space : isSpace c = true) :
    step .colon opened c = .go .colon opened := by
  simp [step, space]

end Steps

section Strings

theorem isHexadecimal {c : Char} (hexadecimal : (hexDigit? c).isSome = true) :
    (c.isDigit || ('a' ≤ c && c ≤ 'f') || ('A' ≤ c && c ≤ 'F')) = true := by
  unfold hexDigit? at hexadecimal
  split at hexadecimal
  case isTrue range =>
    have digit : c.isDigit = true := by
      rw [Char.isDigit_iff_toNat]
      exact ⟨range.1, range.2⟩
    rw [digit]
    rfl
  repeat' split at hexadecimal
  all_goals simp_all

/-- The digits of an escape are passed over, whatever they stand for. -/
theorem run_digits (key : Bool) {digits : List Char} (some : digits ≠ [])
    (hexadecimal : ∀ c ∈ digits, (hexDigit? c).isSome = true) (rest : List Char) :
    run (.digits key digits.length true) opened (digits ++ rest) = run (.text key) opened rest := by
  induction digits with
  | nil => exact absurd rfl some
  | cons c more ih =>
    obtain ⟨first, others⟩ := List.forall_mem_cons.1 hexadecimal
    obtain ⟨_, value⟩ := Option.isSome_iff_exists.1 first
    have size : c.utf8Size = 1 := utf8Size_of_hexDigit? value
    rw [List.cons_append]
    cases more with
    | nil =>
      apply run_go
      simp [step, size, isHexadecimal first]
    | cons d more =>
      rw [← ih (List.cons_ne_nil d more) others]
      apply run_go
      simp [step, size, isHexadecimal first]

/-- What the closing quote of a string leads to: a colon behind a key, and behind a value whatever
is due where it has ended. -/
def closed (key : Bool) (opened : List Bracket) (rest : List Char) :
    Except Refusal (List Char) :=
  if key then run .colon opened rest else settled opened rest

/-- A string is passed over up to its closing quote. -/
theorem run_text (key : Bool) (quotable : Quotable s) (rest : List Char) :
    run (.text key) opened (s ++ '"' :: rest) = closed key opened rest := by
  induction quotable with
  | nil =>
    cases key with
    | true => exact run_go rfl rest
    | false => exact run_settle rfl rest
  | raw quote backslash visible _ ih =>
    rw [← ih, List.cons_append]
    apply run_go
    simp [step, quote, backslash, Nat.not_lt.2 visible]
  | @short letter meant s listed _ ih =>
    have other : letter ≠ 'u' := by
      rintro rfl
      cases unescaped?_of_mem listed
    have known : letter ∈ ['"', '\\', '/', 'b', 'f', 'n', 'r', 't'] :=
      List.mem_map_of_mem (f := Prod.fst) listed
    have escaped : step (.text key) opened '\\' = .go (.escape key) opened := rfl
    have short : step (.escape key) opened letter = .go (.text key) opened := by
      simp only [step, if_neg other, if_pos (List.contains_iff_mem.2 known)]
    rw [← ih, List.cons_append, List.cons_append, run_go escaped, run_go short]
  | @code _ digits s text _ ih =>
    have some : digits ≠ [] := by
      rintro rfl
      cases text
    have escaped : step (.text key) opened '\\' = .go (.escape key) opened := rfl
    have marked : step (.escape key) opened 'u' = .go (.digits key 4 true) opened := rfl
    rw [← ih, List.cons_append, List.cons_append, List.append_assoc, run_go escaped, run_go marked,
      ← length_of_isCodeText text, run_digits key some (isSome_hexDigit?_of_isCodeText text)]

end Strings

section Numbers

/-- Whether a number may end here. -/
def Due.IsNumber : Due → Prop
  | .afterZero | .moreWhole | .moreFraction | .morePower => True
  | _ => False

/-- A number ends where nothing follows that goes on with it. -/
theorem run_ends {due : Due} (number : due.IsNumber) (ends : Ends rest) :
    run due opened rest = settled opened rest := by
  cases rest with
  | nil =>
    cases due <;> cases number <;> cases opened <;> rfl
  | cons c rest =>
    obtain ⟨noDigit, point, e, E⟩ := ends c rfl
    have same : step due opened c = comma opened c := by
      cases due <;> cases number <;> simp [step, afterWhole, noDigit, point, e, E]
    rw [run, same]
    cases opened with
    | nil => rfl
    | cons bracket outer => rfl

/-- Further digits are passed over. -/
theorem run_further {due : Due} (loops : ∀ c, c.isDigit = true → step due opened c = .go due opened)
    (number : due.IsNumber) (digits : ∀ c ∈ s, c.isDigit = true) (ends : Ends rest) :
    run due opened (s ++ rest) = settled opened rest := by
  rw [run_loop loops digits, run_ends number ends]

theorem loops_moreWhole (c : Char) (digit : c.isDigit = true) :
    step .moreWhole opened c = .go .moreWhole opened := by
  simp [step, digit]

theorem loops_moreFraction (c : Char) (digit : c.isDigit = true) :
    step .moreFraction opened c = .go .moreFraction opened := by
  simp [step, digit]

theorem loops_morePower (c : Char) (digit : c.isDigit = true) :
    step .morePower opened c = .go .morePower opened := by
  simp [step, digit]

theorem run_exponent {due : Due} (number : due.IsNumber)
    (marks : ∀ c, c = 'e' ∨ c = 'E' → step due opened c = .go .power opened)
    (exponentText : ExponentText s) (ends : Ends rest) :
    run due opened (s ++ rest) = settled opened rest := by
  cases exponentText with
  | none => exact run_ends number ends
  | @some mark sign digits marked signed digitText =>
    obtain ⟨first, more, rfl⟩ := List.exists_cons_of_ne_nil digitText.1
    obtain ⟨digit, others⟩ := List.forall_mem_cons.1 digitText.2
    have unsigned : first ≠ '+' ∧ first ≠ '-' := by
      constructor <;> rintro rfl <;> cases digit
    have begins : step .power opened first = .go .morePower opened := by
      simp [step, unsigned, digit]
    have begins' : step .unsignedPower opened first = .go .morePower opened := by
      simp [step, digit]
    have plus : step .power opened '+' = .go .unsignedPower opened := rfl
    have minus : step .power opened '-' = .go .unsignedPower opened := rfl
    have last : run .morePower opened (more ++ rest) = settled opened rest :=
      run_further loops_morePower trivial others ends
    rw [List.cons_append, run_go (marks mark marked)]
    rcases signed with rfl | rfl | rfl
    · exact (run_go begins _).trans last
    · exact (run_go plus _).trans ((run_go begins' _).trans last)
    · exact (run_go minus _).trans ((run_go begins' _).trans last)

theorem run_fraction {due : Due} (whole : due = .afterZero ∨ due = .moreWhole)
    {fraction exponent : List Char} (fractionText : FractionText fraction)
    (exponentText : ExponentText exponent) (ends : Ends rest) :
    run due opened (fraction ++ (exponent ++ rest)) = settled opened rest := by
  cases fractionText with
  | none =>
    have number : due.IsNumber := by
      rcases whole with rfl | rfl <;> trivial
    refine run_exponent number ?_ exponentText ends
    rcases whole with rfl | rfl <;> rintro c (rfl | rfl) <;> rfl
  | @some digits digitText =>
    obtain ⟨first, more, rfl⟩ := List.exists_cons_of_ne_nil digitText.1
    obtain ⟨digit, others⟩ := List.forall_mem_cons.1 digitText.2
    have point : step due opened '.' = .go .fraction opened := by
      rcases whole with rfl | rfl <;> rfl
    have begins : step .fraction opened first = .go .moreFraction opened := by
      simp [step, digit]
    rw [List.cons_append, List.cons_append, run_go point, run_go begins,
      run_loop loops_moreFraction others]
    refine run_exponent trivial ?_ exponentText ends
    rintro c (rfl | rfl) <;> rfl

/-- The integral part of a number is passed over where a first digit is looked for. -/
theorem run_whole {due : Due} (zero : step due opened '0' = .go .afterZero opened)
    (begins : ∀ c, c.isDigit = true → c ≠ '0' → step due opened c = .go .moreWhole opened)
    {whole : List Char} (wholeText : WholeText whole)
    (onward : ∀ due, due = .afterZero ∨ due = .moreWhole →
      run due opened s = settled opened rest) :
    run due opened (whole ++ s) = settled opened rest := by
  cases wholeText with
  | zero => exact (run_go zero _).trans (onward _ (.inl rfl))
  | digits digit other digits =>
    rw [List.cons_append, run_go (begins _ digit other), run_loop loops_moreWhole digits]
    exact onward _ (.inr rfl)

theorem step_value_digit (c : Char) (digit : c.isDigit = true) (other : c ≠ '0') :
    step .value opened c = .go .moreWhole opened := by
  have visible : ¬ isSpace c = true := by simp [not_isSpace_of_isDigit digit]
  simp only [step, value, if_neg visible]
  split
  case h_9 => exact if_pos digit
  case h_8 => exact absurd rfl other
  all_goals cases digit

/-- A number is passed over, up to what cannot go on with it. -/
theorem run_number (number : NumberText s) (ends : Ends rest) :
    run .value opened (s ++ rest) = settled opened rest := by
  cases number with
  | make signed wholeText fractionText exponentText =>
    simp only [List.append_assoc]
    have onward (due : Due) (whole : due = .afterZero ∨ due = .moreWhole) :
        run due opened (_ ++ (_ ++ rest)) = settled opened rest :=
      run_fraction whole fractionText exponentText ends
    rcases signed with rfl | rfl
    · rw [List.nil_append]
      exact run_whole rfl step_value_digit wholeText onward
    · have minus : step .value opened '-' = .go .whole opened := rfl
      rw [List.singleton_append, run_go minus]
      refine run_whole rfl (fun c digit other => ?_) wholeText onward
      simp [step, other, digit]

end Numbers

section Parts

/-- What a part comes to, whatever brackets are open around it and whatever follows it. -/
def Skips : Part → List Char → Prop
  | .value, s => ∀ opened rest, Ends rest → run .value opened (s ++ rest) = settled opened rest
  | .element, s => ∀ bracket outer rest, Ends rest →
    run .value (bracket :: outer) (s ++ rest) = run .comma (bracket :: outer) rest
  | .elements, s => ∀ outer rest,
    run .value (.list :: outer) (s ++ ']' :: rest) = settled outer rest
  | .member, s => ∀ outer rest, Ends rest →
    run .key (.object :: outer) (s ++ rest) = run .comma (.object :: outer) rest
  | .members, s => ∀ outer rest,
    run .key (.object :: outer) (s ++ '\x7d' :: rest) = settled outer rest

/-- A value begins with a visible character that closes no list. -/
theorem exists_cons_of_value (value : WellFormed .value s) :
    ∃ c more, s = c :: more ∧ isSpace c = false ∧ c ≠ ']' := by
  cases value with
  | number number =>
    cases number with
    | make signed wholeText _ _ =>
      rcases signed with rfl | rfl
      · cases wholeText with
        | zero => exact ⟨_, _, rfl, by decide, by decide⟩
        | digits digit other _ =>
          refine ⟨_, _, rfl, not_isSpace_of_isDigit digit, ?_⟩
          rintro rfl
          cases digit
      · exact ⟨_, _, rfl, by decide, by decide⟩
  | _ => exact ⟨_, _, rfl, by decide, by decide⟩

theorem skipSpace_elements (elements : WellFormed .elements s) (rest : List Char) :
    ∃ c more, skipSpace (s ++ rest) = c :: more ∧ isSpace c = false ∧ c ≠ ']' := by
  have ofElement {s : List Char} (element : WellFormed .element s) (rest : List Char) :
      ∃ c more, skipSpace (s ++ rest) = c :: more ∧ isSpace c = false ∧ c ≠ ']' := by
    cases element with
    | @element space _ space' spaces value _ =>
      obtain ⟨c, more, rfl, visible, other⟩ := exists_cons_of_value value
      refine ⟨c, more ++ space' ++ rest, ?_, visible, other⟩
      rw [List.append_assoc, List.cons_append, List.cons_append, skipSpace_eq spaces visible]
  cases elements with
  | lastElement element => exact ofElement element rest
  | elements element _ =>
    rw [List.append_assoc]
    exact ofElement element _

theorem skipSpace_members (members : WellFormed .members s) (rest : List Char) :
    ∃ more, skipSpace (s ++ rest) = '"' :: more := by
  have ofMember {s : List Char} (member : WellFormed .member s) (rest : List Char) :
      ∃ more, skipSpace (s ++ rest) = '"' :: more := by
    cases member with
    | @member space key space' value spaces _ _ _ =>
      refine ⟨key ++ '"' :: (space' ++ ':' :: value) ++ rest, ?_⟩
      rw [List.append_assoc, List.cons_append, skipSpace_eq spaces (by decide)]
  cases members with
  | lastMember member => exact ofMember member rest
  | members member _ =>
    rw [List.append_assoc]
    exact ofMember member _

theorem run_letters {due : List Char} (left : due ≠ []) (rest : List Char) :
    run (.letters due) opened (due ++ rest) = settled opened rest := by
  induction due with
  | nil => exact absurd rfl left
  | cons letter more ih =>
    rw [List.cons_append]
    cases more with
    | nil =>
      apply run_settle
      simp [step]
    | cons next more =>
      rw [← ih (List.cons_ne_nil next more)]
      apply run_go
      simp [step]

theorem ends_close {c : Char} (close : c = ',' ∨ c = ']' ∨ c = '\x7d') (rest : List Char) :
    Ends (c :: rest) := by
  apply ends_cons
  rcases close with rfl | rfl | rfl <;> decide

/-- A bracket is opened and closed around white space. -/
theorem run_empty {bracket : Bracket} {start : Due} {close : Char} {space : List Char}
    (loops : ∀ c, isSpace c = true →
      step start (bracket :: opened) c = .go start (bracket :: opened))
    (closes : step start (bracket :: opened) close = settle opened) (spaces : Space space)
    (rest : List Char) :
    run start (bracket :: opened) (space ++ [close] ++ rest) = settled opened rest := by
  rw [List.append_assoc, run_loop loops spaces.isSpace]
  exact run_settle closes rest

/-- Every part of the grammar is passed over as it should be. -/
theorem skips {part : Part} (h : WellFormed part s) : Skips part s := by
  induction h with
  | null => exact fun opened rest _ => (run_go rfl _).trans (run_letters (by decide) rest)
  | true => exact fun opened rest _ => (run_go rfl _).trans (run_letters (by decide) rest)
  | false => exact fun opened rest _ => (run_go rfl _).trans (run_letters (by decide) rest)
  | number number => exact fun opened rest ends => run_number number ends
  | string quotable =>
    intro opened rest _
    rw [List.cons_append, List.append_assoc]
    exact (run_go rfl _).trans (run_text false quotable rest)
  | emptyList spaces =>
    intro opened rest _
    refine (run_go rfl _).trans (run_empty (fun c space => ?_) rfl spaces rest)
    simp [step, space]
  | @list s elements ih =>
    intro opened rest _
    rw [List.cons_append, List.append_assoc]
    -- Behind an opening bracket there is a place of its own, at which the list may also be closed.
    obtain ⟨c, more, token, visible, other⟩ := skipSpace_elements elements (']' :: rest)
    have start : run .listStart (.list :: opened) (s ++ ']' :: rest) =
        run .value (.list :: opened) (s ++ ']' :: rest) := by
      refine run_start (fun c space => ?_) (step_value_space _) token ?_
      · simp [step, space]
      · simp [step, visible, other]
    exact (run_go rfl _).trans (start.trans (ih opened rest))
  | emptyObject spaces =>
    intro opened rest _
    refine (run_go rfl _).trans (run_empty (fun c space => ?_) rfl spaces rest)
    simp [step, space]
  | @object s members ih =>
    intro opened rest _
    rw [List.cons_append, List.append_assoc]
    obtain ⟨more, token⟩ := skipSpace_members members ('\x7d' :: rest)
    have start : run .objectStart (.object :: opened) (s ++ '\x7d' :: rest) =
        run .key (.object :: opened) (s ++ '\x7d' :: rest) := by
      refine run_start (fun c space => ?_) (step_key_space _) token rfl
      simp [step, space]
    exact (run_go rfl _).trans (start.trans (ih opened rest))
  | element spaces _ spaces' ih =>
    intro bracket outer rest ends
    rw [List.append_assoc, List.append_assoc, run_loop (step_value_space _) spaces.isSpace,
      ih _ _ (ends_space spaces' ends)]
    exact run_loop (step_comma_space bracket outer) spaces'.isSpace rest
  | lastElement _ ih =>
    intro outer rest
    rw [ih _ _ _ (ends_close (.inr (.inl rfl)) rest)]
    exact run_settle rfl rest
  | elements _ _ ih ih' =>
    intro outer rest
    rw [List.append_assoc, List.cons_append, ih _ _ _ (ends_close (.inl rfl) _)]
    exact (run_go rfl _).trans (ih' outer rest)
  | member spaces quotable spaces' _ ih =>
    intro outer rest ends
    rw [List.append_assoc, List.cons_append, List.append_assoc, List.cons_append,
      List.append_assoc, List.cons_append, run_loop (step_key_space _) spaces.isSpace,
      run_go rfl, run_text true quotable, closed, if_pos rfl,
      run_loop (step_colon_space _) spaces'.isSpace,
      run_go rfl]
    exact ih _ _ _ ends
  | lastMember _ ih =>
    intro outer rest
    rw [ih _ _ (ends_close (.inr (.inr rfl)) rest)]
    exact run_settle rfl rest
  | members _ _ ih ih' =>
    intro outer rest
    rw [List.append_assoc, List.cons_append, ih _ _ (ends_close (.inl rfl) _)]
    exact (run_go rfl _).trans (ih' outer rest)

end Parts

end Skip

/-- A well-formed value is passed over, whatever it holds and however deep it is nested. -/
theorem reads_skipped {space s : List Char} (spaces : Space space) (value : WellFormed .value s) :
    Reads skipValue (space ++ s) () := by
  intro rest ends
  have skipped : Skip.run .value [] (space ++ s ++ rest) = .ok rest := by
    rw [List.append_assoc, Skip.run_loop (Skip.step_value_space _) spaces.isSpace]
    exact Skip.skips value [] rest ends
  refine ⟨Skip.length_lt_of_run_value skipped, ?_⟩
  unfold skipValue
  split
  case _ rest' run =>
    rw [skipped] at run
    cases run
    rfl
  case _ refusal refused =>
    rw [skipped] at refused
    cases refused

end TraceTables.Json
