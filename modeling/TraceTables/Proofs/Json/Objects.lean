import TraceTables.Json.Members
import TraceTables.Proofs.Json.Phrases

/-!
# Objects with fixed members

An object is read member by member into a record. `Members` is the grammar of members that are
each given once, in any order and among others that are passed over, together with the record that
they lead to, and `reads_members` says that such an object is read as the value of that record.
-/

namespace TraceTables.Json

/-- What may stand in front of a key: white space, behind a comma unless it is the first. -/
inductive Lead : Bool → List Char → Prop where
  | first {space : List Char} (spaces : Space space) : Lead true space
  | next {space space' : List Char} (spaces : Space space) (spaces' : Space space') :
    Lead false (space ++ ',' :: space')

theorem Lead.ends {lead : List Char} (h : Lead false lead) (rest : List Char) :
    Ends (lead ++ rest) := by
  cases h with
  | next spaces spaces' =>
    rw [List.append_assoc, List.cons_append]
    exact ends_space spaces (ends_cons (by decide) _)

theorem nextKey_item {first : Bool} {lead : List Char} (h : Lead first lead) (rest : List Char) :
    ∃ shorter, nextKey first (lead ++ '"' :: rest) = .ok (.item rest shorter) := by
  refine ⟨by simp only [List.length_append, List.length_cons]; omega, ?_⟩
  unfold nextKey
  cases h with
  | first spaces =>
    split
    case _ none =>
      rw [skipSpace_eq spaces (by decide)] at none
      cases none
    case _ c more key =>
      rw [skipSpace_eq spaces (by decide)] at key
      cases key
      rfl
  | @next space space' spaces spaces' =>
    have comma : skipSpace (space ++ ',' :: space' ++ '"' :: rest) =
        ',' :: (space' ++ '"' :: rest) := by
      rw [List.append_assoc, List.cons_append, skipSpace_eq spaces (by decide)]
    have quote : skipSpace (space' ++ '"' :: rest) = '"' :: rest :=
      skipSpace_eq spaces' (by decide) rest
    split
    case _ none =>
      rw [comma] at none
      cases none
    case _ c more key =>
      rw [comma] at key
      cases key
      rw [if_neg (by decide), if_neg (by decide), if_pos rfl]
      split
      case _ none =>
        rw [quote] at none
        cases none
      case _ d more key =>
        rw [quote] at key
        cases key
        rfl

theorem nextKey_ended {space : List Char} (spaces : Space space) (first : Bool)
    (rest : List Char) :
    ∃ shorter, nextKey first (space ++ '\x7d' :: rest) = .ok (.ended rest shorter) := by
  refine ⟨by simp only [List.length_append, List.length_cons]; omega, ?_⟩
  unfold nextKey
  split
  case _ none =>
    rw [skipSpace_eq spaces (by decide)] at none
    cases none
  case _ c more brace =>
    rw [skipSpace_eq spaces (by decide)] at brace
    cases brace
    rfl

namespace Shape

variable {ρ α : Type} {shape : Shape ρ α}

/-- What may stand between the braces of an object from a record on, and the record that it
leads to. -/
inductive Members (shape : Shape ρ α) : Bool → ρ → List Char → ρ → Prop where
  | nil {first : Bool} {record : ρ} : Members shape first record [] record
  | known {first : Bool} {record middle last : ρ} {lead body space phrase more : List Char}
    {key : String} {member : Member ρ} (leads : Lead first lead)
    (spelled : Spelling key.toList body)
    (found : shape.members.find? (·.name == key) = some member)
    (absent : member.present record = false) (spaces : Space space)
    (value : Reads (member.read record) phrase middle)
    (rest : Members shape false middle more last) :
    Members shape first record
      (lead ++ '"' :: (body ++ '"' :: (space ++ ':' :: (phrase ++ more)))) last
  | unknown {first : Bool} {record last : ρ} {lead body space phrase more : List Char}
    {key : String} (leads : Lead first lead) (spelled : Spelling key.toList body)
    (other : shape.members.find? (·.name == key) = none) (spaces : Space space)
    (skipped : Reads skipValue phrase ()) (rest : Members shape false record more last) :
    Members shape first record
      (lead ++ '"' :: (body ++ '"' :: (space ++ ':' :: (phrase ++ more)))) last

/-- A value ends where the members go on or the object ends. -/
theorem Members.ends {record last : ρ} {more : List Char}
    (h : Members shape false record more last) {rest : List Char} (ends : Ends rest) :
    Ends (more ++ rest) := by
  cases h with
  | nil => exact ends
  | known leads | unknown leads =>
    rw [List.append_assoc]
    exact leads.ends _

/-- A member that has not been read yet is read into the record. -/
theorem readMembers_known {first : Bool} {record middle : ρ} {lead body space phrase : List Char}
    {key : String} {member : Member ρ} (leads : Lead first lead)
    (spelled : Spelling key.toList body)
    (found : shape.members.find? (·.name == key) = some member)
    (absent : member.present record = false) (spaces : Space space)
    (value : Reads (member.read record) phrase middle) {rest : List Char} (ends : Ends rest)
    {n : Nat}
    (fits : (lead ++ '"' :: (body ++ '"' :: (space ++ ':' :: (phrase ++ rest)))).length < n) :
    ∃ fits', shape.readMembers first record
        (lead ++ '"' :: (body ++ '"' :: (space ++ ':' :: (phrase ++ rest)))) fits =
      shape.readMembers false middle rest fits' := by
  obtain ⟨keyShorter, atKey⟩ :=
    nextKey_item leads (body ++ '"' :: (space ++ ':' :: (phrase ++ rest)))
  obtain ⟨textShorter, text⟩ :=
    readText_spelling spelled (space ++ ':' :: (phrase ++ rest))
  obtain ⟨colonShorter, colon⟩ := readColon_eq spaces (phrase ++ rest)
  obtain ⟨valueShorter, read⟩ := value ends
  refine ⟨by omega, ?_⟩
  rw [readMembers, atKey]
  simp only [Bind.bind, Except.bind, text, found, absent, colon, read, Bool.false_eq_true, if_false]

/-- A member that is none of the object's own leaves the record as it is. -/
theorem readMembers_unknown {first : Bool} {record : ρ} {lead body space phrase : List Char}
    {key : String} (leads : Lead first lead) (spelled : Spelling key.toList body)
    (other : shape.members.find? (·.name == key) = none) (spaces : Space space)
    (skipped : Reads skipValue phrase ()) {rest : List Char} (ends : Ends rest) {n : Nat}
    (fits : (lead ++ '"' :: (body ++ '"' :: (space ++ ':' :: (phrase ++ rest)))).length < n) :
    ∃ fits', shape.readMembers first record
        (lead ++ '"' :: (body ++ '"' :: (space ++ ':' :: (phrase ++ rest)))) fits =
      shape.readMembers false record rest fits' := by
  obtain ⟨keyShorter, atKey⟩ :=
    nextKey_item leads (body ++ '"' :: (space ++ ':' :: (phrase ++ rest)))
  obtain ⟨textShorter, text⟩ :=
    readText_spelling spelled (space ++ ':' :: (phrase ++ rest))
  obtain ⟨colonShorter, colon⟩ := readColon_eq spaces (phrase ++ rest)
  obtain ⟨valueShorter, skip⟩ := skipped ends
  refine ⟨by omega, ?_⟩
  rw [readMembers, atKey]
  simp only [Bind.bind, Except.bind, text, other, colon, skip]

theorem readMembers_ended {space : List Char} (spaces : Space space) (first : Bool) (record : ρ)
    (rest : List Char) {n : Nat} (fits : (space ++ '\x7d' :: rest).length < n) :
    ∃ fits', shape.readMembers first record (space ++ '\x7d' :: rest) fits =
      shape.value record rest fits' := by
  obtain ⟨shorter, ended⟩ := nextKey_ended spaces first rest
  refine ⟨Nat.lt_trans shorter fits, ?_⟩
  rw [readMembers, ended]
  rfl

/-- Members are read one after the other, up to the brace behind them. -/
theorem readMembers_eq {first : Bool} {record last : ρ} {phrase space : List Char}
    (h : Members shape first record phrase last) (spaces : Space space) (rest : List Char) {n : Nat}
    (fits : (phrase ++ (space ++ '\x7d' :: rest)).length < n) :
    ∃ fits', shape.readMembers first record (phrase ++ (space ++ '\x7d' :: rest)) fits =
      shape.value last rest fits' := by
  induction h with
  | nil => exact readMembers_ended spaces _ _ _ fits
  | known leads spelled found absent spaces' value more ih =>
    simp only [List.append_assoc, List.cons_append] at fits ⊢
    have closed : Ends (_ ++ '\x7d' :: rest) := ends_space spaces (ends_cons (by decide) rest)
    have ends := more.ends closed
    obtain ⟨fits', step⟩ := readMembers_known leads spelled found absent spaces' value ends fits
    rw [step]
    exact ih fits'
  | unknown leads spelled other spaces' skipped more ih =>
    simp only [List.append_assoc, List.cons_append] at fits ⊢
    have closed : Ends (_ ++ '\x7d' :: rest) := ends_space spaces (ends_cons (by decide) rest)
    have ends := more.ends closed
    obtain ⟨fits', step⟩ := readMembers_unknown leads spelled other spaces' skipped ends fits
    rw [step]
    exact ih fits'

/-- An object is read as the value of the record that its members lead to. -/
theorem reads_members {record : ρ} {phrase space : List Char} {a : α}
    (h : Members shape true shape.empty phrase record) (spaces : Space space)
    (complete : shape.complete record = .ok a) :
    Reads shape.read ('\x7b' :: (phrase ++ (space ++ ['\x7d']))) a := by
  refine Reads.visible ?_ (by decide)
  intro rest ends
  have regroup : '\x7b' :: (phrase ++ (space ++ ['\x7d'])) ++ rest =
      '\x7b' :: (phrase ++ (space ++ '\x7d' :: rest)) := by simp
  rw [regroup]
  obtain ⟨shorter, read⟩ := readMembers_eq h spaces rest (Nat.lt_succ_self _)
  refine ⟨shorter, ?_⟩
  simp only [read]
  rw [Shape.value, complete]

end Shape

end TraceTables.Json
