import TraceTables.Json.Read
import TraceTables.Proofs.Json.LineEnd.Scalars
import TraceTables.Proofs.Json.LineEnd.Skip

/-!
# A carriage return at the end of a line

A line that ends with a carriage return describes an event exactly if it does so without, and then
the same event (`readEvent_push_return`). An object is read alike if the values of its members are,
and a word with its payload if the payload is, so that every reader is compared with itself once.
-/

namespace TraceTables.Json

variable {α β γ δ : Type}

section Objects

/-- Whether an item comes next or the bracket is closed, without the bound on what is left. -/
def Item.parts {n : Nat} : Item n → Bool × List Char
  | .item rest _ => (false, rest)
  | .ended rest _ => (true, rest)

/-- Whether the same comes next, and a carriage return stands behind what is left. -/
def Item.Returned {m n : Nat} (item : Item m) (item' : Item n) : Prop :=
  Json.Returned item.parts item'.parts

theorem Item.agree {m n : Nat} {x : Except Refusal (Item m)} {y : Except Refusal (Item n)}
    (h : Agree Json.Returned (x.map parts) (y.map parts)) : Agree Returned x y :=
  h.of_map

/-- After an item that comes next on both lines, reading goes on with what is left of them. -/
theorem Agree.bindItem {S : γ → δ → Prop} {m n : Nat} {x : Except Refusal (Item m)}
    {y : Except Refusal (Item n)} {f : Item m → Except Refusal γ} {g : Item n → Except Refusal δ}
    (h : Agree Item.Returned x y)
    (item : ∀ rest (shorter : rest.length < m) (shorter' : (rest ++ ['\r']).length < n),
      Agree S (f (.item rest shorter)) (g (.item (rest ++ ['\r']) shorter')))
    (ended : ∀ rest (shorter : rest.length < m) (shorter' : (rest ++ ['\r']).length < n),
      Agree S (f (.ended rest shorter)) (g (.ended (rest ++ ['\r']) shorter'))) :
    Agree S (x >>= f) (y >>= g) := by
  refine h.bind ?_
  rintro (⟨rest, shorter⟩ | ⟨rest, shorter⟩) (⟨rest', shorter'⟩ | ⟨rest', shorter'⟩) ⟨kind, behind⟩
  · obtain rfl : rest' = rest ++ ['\r'] := behind
    exact item rest shorter shorter'
  · cases kind
  · cases kind
  · obtain rfl : rest' = rest ++ ['\r'] := behind
    exact ended rest shorter shorter'

theorem parts_nextItem (first : Bool) (s : List Char) : (nextItem first s).map Item.parts =
    match skipSpace s with
    | [] => .error (.here .endInList [])
    | c :: rest =>
      if c = ']' then .ok (true, rest)
      else if first then .ok (false, c :: rest)
      else if c = ',' then
        match skipSpace rest with
        | [] => .error (.here .endInValue [])
        | d :: more =>
          if d = ']' then .error (.next .trailingComma (d :: more)) else .ok (false, rest)
      else .error (.next .expectedCommaOrBracket (c :: rest)) := by
  unfold nextItem
  split
  case _ nothing =>
    simp only [nothing]
    rfl
  case _ c rest token =>
    simp only [token]
    repeat' split
    all_goals grind [Except.map, Item.parts]

theorem nextItem_return (first : Bool) (s : List Char) :
    Agree Item.Returned (nextItem first s) (nextItem first (s ++ ['\r'])) := by
  apply Item.agree
  rw [parts_nextItem, parts_nextItem]
  rcases skipSpace_return s with ⟨nothing, nothing'⟩ | ⟨c, rest, token, token'⟩
  · rw [nothing, nothing']
    exact .refused _ _
  rw [token, token']
  dsimp only
  split
  · exact .found ⟨rfl, rfl⟩
  split
  · exact .found ⟨rfl, rfl⟩
  split
  · rcases skipSpace_return rest with ⟨nothing, nothing'⟩ | ⟨d, more, token, token'⟩
    · rw [nothing, nothing']
      exact .refused _ _
    rw [token, token']
    dsimp only
    split
    · exact .refused _ _
    · exact .found ⟨rfl, rfl⟩
  · exact .refused _ _

theorem parts_readListEnd (s : List Char) : (readListEnd s).map Found.parts =
    match skipSpace s with
    | [] => .error (.here .endInList [])
    | c :: rest =>
      if c = ']' then .ok ((), rest)
      else if c = ',' then
        match skipSpace rest with
        | ']' :: more => .error (.next .trailingComma (']' :: more))
        | more => .error (.next .trailingCharacters more)
      else .error (.next .trailingCharacters (c :: rest)) := by
  unfold readListEnd
  split
  case _ nothing =>
    simp only [nothing]
    rfl
  case _ c rest token =>
    simp only [token]
    repeat' split
    all_goals grind [Except.map, Found.parts]

theorem readListEnd_return : IgnoresReturn readListEnd := by
  intro s
  apply Found.agree
  rw [parts_readListEnd, parts_readListEnd]
  rcases skipSpace_return s with ⟨nothing, nothing'⟩ | ⟨c, rest, token, token'⟩
  · rw [nothing, nothing']
    exact .refused _ _
  rw [token, token']
  dsimp only
  split
  · exact .found ⟨rfl, rfl⟩
  split
  · split <;> split <;> exact .refused _ _
  · exact .refused _ _

theorem parts_nextKey (first : Bool) (s : List Char) : (nextKey first s).map Item.parts =
    match skipSpace s with
    | [] => .error (.here .endInObject [])
    | c :: rest =>
      if c = '\x7d' then .ok (true, rest)
      else if first then
        if c = '"' then .ok (false, rest) else .error (.next .keyNotText (c :: rest))
      else if c = ',' then
        match skipSpace rest with
        | [] => .error (.here .endInValue [])
        | d :: more =>
          if d = '"' then .ok (false, more)
          else if d = '\x7d' then .error (.next .trailingComma (d :: more))
          else .error (.next .keyNotText (d :: more))
      else .error (.next .expectedCommaOrBrace (c :: rest)) := by
  unfold nextKey
  split
  case _ nothing =>
    simp only [nothing]
    rfl
  case _ c rest token =>
    simp only [token]
    repeat' split
    all_goals grind [Except.map, Item.parts]

theorem nextKey_return (first : Bool) (s : List Char) :
    Agree Item.Returned (nextKey first s) (nextKey first (s ++ ['\r'])) := by
  apply Item.agree
  rw [parts_nextKey, parts_nextKey]
  rcases skipSpace_return s with ⟨nothing, nothing'⟩ | ⟨c, rest, token, token'⟩
  · rw [nothing, nothing']
    exact .refused _ _
  rw [token, token']
  dsimp only
  split
  · exact .found ⟨rfl, rfl⟩
  split
  · split
    · exact .found ⟨rfl, rfl⟩
    · exact .refused _ _
  split
  · rcases skipSpace_return rest with ⟨nothing, nothing'⟩ | ⟨d, more, token, token'⟩
    · rw [nothing, nothing']
      exact .refused _ _
    rw [token, token']
    dsimp only
    split
    · exact .found ⟨rfl, rfl⟩
    split
    · exact .refused _ _
    · exact .refused _ _
  · exact .refused _ _

end Objects

namespace Shape

variable {ρ : Type} {shape : Shape ρ α}

theorem value_return (record : ρ) {m n : Nat} {rest rest' : List Char} (behind : Behind rest rest')
    (h : rest.length < m) (h' : rest'.length < n) :
    Agree Found.Returned (shape.value record rest h) (shape.value record rest' h') := by
  unfold value
  split
  · exact .found ⟨rfl, behind⟩
  · exact .refused _ _

theorem readItems_return {due : List (Member ρ)}
    (reads : ∀ member ∈ due, ∀ record, IgnoresReturn (member.read record)) (found : Nat)
    (record : ρ) {m n : Nat} (s : List Char) (h : s.length < m) (h' : (s ++ ['\r']).length < n) :
    Agree Found.Returned (shape.readItems found record due s h)
      (shape.readItems found record due (s ++ ['\r']) h') := by
  induction due generalizing found record s with
  | nil =>
    rw [readItems, readItems]
    exact (readListEnd_return s).bind fun _ _ related => value_return record related.2 _ _
  | cons member more ih =>
    obtain ⟨first, others⟩ := List.forall_mem_cons.1 reads
    rw [readItems, readItems]
    refine (nextItem_return _ s).bindItem (fun rest _ _ => ?_) fun rest _ _ => .refused _ _
    refine (first record rest).bindFound fun record rest _ _ => ?_
    exact ih others _ _ _ _ _

theorem readMembers_return
    (reads : ∀ member ∈ shape.members, ∀ record, IgnoresReturn (member.read record))
    (first : Bool) (record : ρ) {m n : Nat} (s : List Char) (h : s.length < m)
    (h' : (s ++ ['\r']).length < n) :
    Agree Found.Returned (shape.readMembers first record s h)
      (shape.readMembers first record (s ++ ['\r']) h') := by
  -- The members are read one after the other, and every member takes characters.
  induction length : s.length using Nat.strongRecOn generalizing first record s with
  | ind length ih =>
    rw [readMembers, readMembers]
    refine (nextKey_return first s).bindItem (fun rest atKey _ => ?_)
      fun rest _ _ => value_return record rfl _ _
    refine (readText_return rest).bindFound fun key rest keyShorter _ => ?_
    dsimp only
    split
    case h_1 unknown =>
      refine (readColon_return rest).bindFound fun _ rest colonShorter _ => ?_
      refine (skipValue_return rest).bindFound fun _ rest valueShorter _ => ?_
      exact ih rest.length (by omega) _ _ _ _ _ rfl
    case h_2 member found =>
      split
      · exact .refused _ _
      refine (readColon_return rest).bindFound fun _ rest colonShorter _ => ?_
      refine (reads member (List.mem_of_find?_eq_some found) record rest).bindFound
        fun record rest valueShorter _ => ?_
      exact ih rest.length (by omega) _ _ _ _ _ rfl

/-- An object is read alike if its members are. -/
theorem read_return
    (reads : ∀ member ∈ shape.members, ∀ record, IgnoresReturn (member.read record)) :
    IgnoresReturn shape.read := by
  apply afterSpace_ignoresReturn
  · exact ⟨_, rfl⟩
  intro c s
  by_cases bracket : c = '['
  · subst bracket
    exact readItems_return reads _ _ s _ _
  by_cases brace : c = '\x7b'
  · subst brace
    exact readMembers_return reads _ _ s _ _
  · simpa [bracket, brace] using Agree.refused _ _

end Shape

section Variants

variable {variants : List (Variant α)}

theorem readWord_return (variants : List (Variant α)) (s : List Char) :
    Agree (fun found found' => found.value ∈ variants ∧ found.Returned found')
      (readWord variants s) (readWord variants (s ++ ['\r'])) := by
  refine (readText_return s).bindFound fun word rest _ _ => ?_
  dsimp only
  split
  case h_1 variant found => exact .found ⟨List.mem_of_find?_eq_some found, rfl, rfl⟩
  case h_2 => exact .refused _ _

theorem parts_readTagged (variants : List (Variant α)) (s : List Char) :
    (readTagged variants s).map Found.parts =
      match skipSpace s with
      | [] => .error (.here .endInObject [])
      | c :: rest =>
        if c = '\x7d' then .error (.next .expectedValue (c :: rest))
        else if c ≠ '"' then .error (.next .keyNotText (c :: rest))
        else (do
          let variant ← readWord variants rest
          let colon ← readColon variant.rest
          let value ← variant.value.payload colon.rest
          match skipSpace value.rest with
          | [] => .error (.here .endInObject [])
          | d :: more =>
            if d = '\x7d' then .ok (value.value, more)
            else .error (.here .expectedValue (d :: more))) := by
  unfold readTagged
  split
  case _ nothing =>
    simp only [nothing]
    rfl
  case _ c rest token =>
    simp only [token]
    split
    · rfl
    split
    · rfl
    rcases readWord variants rest with _ | variant
    · rfl
    simp only [Bind.bind, Except.bind]
    rcases readColon variant.rest with _ | colon
    · rfl
    dsimp only
    rcases variant.value.payload colon.rest with _ | value
    · rfl
    dsimp only
    split <;> grind [Except.map, Found.parts]

theorem readTagged_return (reads : ∀ variant ∈ variants, IgnoresReturn variant.payload) :
    IgnoresReturn (readTagged variants) := by
  intro s
  apply Found.agree
  rw [parts_readTagged, parts_readTagged]
  rcases skipSpace_return s with ⟨nothing, nothing'⟩ | ⟨c, rest, token, token'⟩
  · rw [nothing, nothing']
    exact .refused _ _
  rw [token, token']
  dsimp only
  split
  · exact .refused _ _
  split
  · exact .refused _ _
  refine (readWord_return variants rest).bind ?_
  rintro ⟨variant, rest, _⟩ ⟨variant', rest', _⟩ ⟨among, same, behind⟩
  obtain rfl : variant' = variant := same
  obtain rfl : rest' = rest ++ ['\r'] := behind
  refine (readColon_return rest).bindFound fun _ rest _ _ => ?_
  refine (reads variant' among rest).bindFound fun value rest _ _ => ?_
  dsimp only
  rcases skipSpace_return rest with ⟨nothing, nothing'⟩ | ⟨d, more, token, token'⟩
  · rw [nothing, nothing']
    exact .refused _ _
  rw [token, token']
  dsimp only
  split
  · exact .found ⟨rfl, rfl⟩
  · exact .refused _ _

/-- A word with its payload is read alike if the payload is. -/
theorem readVariant_return (reads : ∀ variant ∈ variants, IgnoresReturn variant.payload) :
    IgnoresReturn (readVariant variants) := by
  apply afterSpace_ignoresReturn
  · exact ⟨_, rfl⟩
  intro c s
  by_cases quote : c = '"'
  · subst quote
    refine (readWord_return variants s).bind ?_
    rintro ⟨variant, rest, _⟩ ⟨variant', rest', _⟩ ⟨-, same, behind⟩
    obtain rfl : variant' = variant := same
    dsimp only
    split
    · exact .found ⟨rfl, behind⟩
    · exact .refused _ _
  by_cases brace : c = '\x7b'
  · subst brace
    exact (readTagged_return reads s).map fun _ _ related => related
  · simpa [quote, brace] using Agree.refused _ _

end Variants

section Events

theorem plain_return {word : String} {value : α} :
    IgnoresReturn (Variant.plain word value).payload :=
  readNull_return value

theorem IgnoresReturn.map {reader : Reader α} (h : IgnoresReturn reader) (f : α → β) :
    IgnoresReturn fun s => (reader s).map (·.map f) := by
  intro s
  refine (h s).map ?_
  rintro ⟨value, rest, _⟩ ⟨value', rest', _⟩ ⟨same, behind⟩
  exact ⟨congrArg f same, behind⟩

theorem named_return {τ : Type} {types : List (Variant τ)}
    (reads : ∀ variant ∈ types, IgnoresReturn variant.payload) (event typeKey : String)
    (make : τ → String → Event) : IgnoresReturn (Named.shape event typeKey types make).read := by
  apply Shape.read_return
  intro member among record
  simp only [Named.shape, List.mem_cons, List.not_mem_nil, or_false] at among
  rcases among with rfl | rfl
  · exact (readVariant_return reads).map _
  · exact readString_return.map _

theorem tableKinds_return : ∀ variant ∈ tableKinds, IgnoresReturn variant.payload := by
  intro variant among
  obtain ⟨kind, -, rfl⟩ := List.mem_map.1 among
  exact plain_return

theorem columnTypes_return : ∀ variant ∈ columnTypes, IgnoresReturn variant.payload := by
  intro variant among
  obtain ⟨type, -, rfl⟩ := List.mem_map.1 among
  exact plain_return

theorem values_return : ∀ variant ∈ values, IgnoresReturn variant.payload := by
  intro variant among
  simp only [values, List.mem_cons, List.not_mem_nil, or_false] at among
  rcases among with rfl | rfl | rfl
  · exact readUInt64_return.map _
  · exact readString_return.map _
  · exact readBool_return.map _

theorem events_return : ∀ variant ∈ events, IgnoresReturn variant.payload := by
  intro variant among
  simp only [events, List.mem_cons, List.not_mem_nil, or_false] at among
  rcases among with rfl | rfl | rfl | rfl | rfl | rfl | rfl
  · exact named_return tableKinds_return _ _ _
  · exact named_return columnTypes_return _ _ _
  · exact plain_return
  · exact (readVariant_return values_return).map _
  · exact plain_return
  · exact plain_return
  · apply Shape.read_return
    intro member among record
    obtain rfl := List.mem_singleton.1 among
    exact readString_return.map _

theorem readLine_return (s : List Char) : Agree Eq (readLine s) (readLine (s ++ ['\r'])) := by
  refine (readVariant_return events_return s).bindFound fun event rest _ _ => ?_
  dsimp only
  rcases skipSpace_return rest with ⟨nothing, nothing'⟩ | ⟨c, more, token, token'⟩
  · rw [nothing, nothing']
    exact .found rfl
  · rw [token, token']
    exact .refused _ _

/-- A line describes an event exactly if it does with a carriage return behind it. -/
theorem readEvent_push_return (line : String) (event : Event) :
    readEvent (line.push '\r') = .ok event ↔ readEvent line = .ok event := by
  have same := readLine_return line.toList
  rw [readEvent, readEvent, String.toList_push]
  generalize readLine line.toList = left at same ⊢
  generalize readLine (line.toList ++ ['\r']) = right at same ⊢
  cases same with
  | found same => rw [same]
  | refused => simp

end Events

end TraceTables.Json