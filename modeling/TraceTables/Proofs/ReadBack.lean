import TraceTables.Proofs.Layout
import TraceTables.Proofs.Quotation

/-!
# Reading the text of tables back

No cell, column name or table name can forge the boundary of a field, a row or a table: the
text of complete tables determines what the tables hold. The argument follows the text from
left to right. Each part of it has a first character that tells it from what else could
stand in its place, so that two equal texts begin with equal parts, and what is left of them
is equal again.

A separator keeps its part of this if it is not empty and begins with none of the characters
that could continue the field before it or end the row: a quote, a digit, a line feed. Rows
without fields would be blank lines; they are excluded.
-/

namespace TraceTables

/-- What an entry holds. The name of a column and an equal text are written alike. -/
def Entry.content : Entry → Value
  | .column _ name => .string name
  | .cell value => value

/-- What a table holds: its name, and the contents of its rows. -/
def Table.content (table : Table) : String × List (List Value) :=
  (table.name, table.rows.map fun row => row.map Entry.content)

namespace ReadBack

/-- What stands behind a field cannot be taken for more of it. -/
def EndsField (rest : List Char) : Prop :=
  ∀ c ∈ rest.head?, c ≠ '"' ∧ ¬ c.isDigit

theorem EndsField.head?_ne {rest : List Char} (h : EndsField rest) : rest.head? ≠ some '"' := by
  intro quoted
  obtain ⟨other, -⟩ := h '"' quoted
  exact other rfl

/-! ## Fields -/

/-- The digits of a number stop where something else follows. -/
theorem takeWhile_toDigits (n : Nat) {rest : List Char} (h : EndsField rest) :
    (Nat.toDigits 10 n ++ rest).takeWhile Char.isDigit = Nat.toDigits 10 n := by
  have digits : ∀ c ∈ Nat.toDigits 10 n, c.isDigit := by
    intro c member
    exact Nat.isDigit_of_mem_toDigits (by decide) (by decide) member
  have stop : rest.takeWhile Char.isDigit = [] := by
    cases rest with
    | nil => rfl
    | cons c rest => simp [(h c rfl).2]
  rw [List.takeWhile_append_of_pos digits, stop, List.append_nil]

theorem toDigits_append_inj {m n : Nat} {r s : List Char}
    (h : Nat.toDigits 10 m ++ r = Nat.toDigits 10 n ++ s) (hr : EndsField r) (hs : EndsField s) :
    m = n ∧ r = s := by
  have digits : Nat.toDigits 10 m = Nat.toDigits 10 n := by
    rw [← takeWhile_toDigits m hr, ← takeWhile_toDigits n hs, h]
  refine ⟨?_, ?_⟩
  · rw [← Nat.ofDigitChars_ten_toDigits (n := m), digits, Nat.ofDigitChars_ten_toDigits]
  · rw [digits] at h
    exact List.append_cancel_left h

/-- The type of the value that a field with this first character holds. -/
def openedBy (c : Char) : String :=
  if c.isDigit then "uint64" else if c = '=' ∨ c = '"' then "string" else "bool"

theorem text_eq (entry : Entry) : entry.text = Entry.text (.cell entry.content) := by
  cases entry with
  | column type name => rfl
  | cell value => rfl

/-- The first character of a field tells the type of what it holds, and is no line feed. -/
theorem head?_text (value : Value) (rest : List Char) :
    ∃ c, ((Entry.text (.cell value)).toList ++ rest).head? = some c ∧ c ≠ '\n' ∧
      openedBy c = value.word := by
  match value with
  | .uint64 n =>
    obtain ⟨d, more, digits⟩ :=
      List.exists_cons_of_ne_nil (Nat.toDigits_ne_nil (b := 10) (n := n.toNat))
    have digit : d.isDigit :=
      Nat.isDigit_of_mem_toDigits (by decide) (by decide) (digits ▸ List.mem_cons_self)
    refine ⟨d, ?_, ?_, if_pos digit⟩
    · simp [Entry.text, digits]
    · rintro rfl
      exact absurd digit (by decide)
  | .string text =>
    rcases Field.head?_quote text rest with first | first
    · exact ⟨'=', first, by decide, rfl⟩
    · exact ⟨'"', first, by decide, rfl⟩
  | .bool true => exact ⟨'T', rfl, by decide, rfl⟩
  | .bool false => exact ⟨'F', rfl, by decide, rfl⟩

/-- A field is told from every other by what is written. -/
theorem text_append_inj {a b : Entry} {r s : List Char}
    (h : a.text.toList ++ r = b.text.toList ++ s) (hr : EndsField r) (hs : EndsField s) :
    a.content = b.content ∧ r = s := by
  rw [text_eq a, text_eq b] at h
  generalize a.content = v, b.content = w at h ⊢
  have same : v.word = w.word := by
    obtain ⟨c, first, -, type⟩ := head?_text v r
    obtain ⟨d, first', -, type'⟩ := head?_text w s
    rw [h, first'] at first
    cases first
    exact type.symm.trans type'
  match v, w with
  | .uint64 m, .uint64 n =>
    simp only [Entry.text, Nat.toString_eq_ofList_toDigits, String.toList_ofList] at h
    obtain ⟨equal, rest⟩ := toDigits_append_inj h hr hs
    exact ⟨by rw [UInt64.toNat_inj.1 equal], rest⟩
  | .string text, .string text' =>
    obtain ⟨rfl, rest⟩ := Field.quote_append_inj h hr.head?_ne hs.head?_ne
    exact ⟨rfl, rest⟩
  | .bool true, .bool true | .bool false, .bool false =>
    exact ⟨rfl, List.append_cancel_left h⟩
  | .bool true, .bool false | .bool false, .bool true => simp [Entry.text] at h
  | .uint64 _, .string _ | .uint64 _, .bool _ | .string _, .uint64 _ | .string _, .bool _
  | .bool _, .uint64 _ | .bool _, .string _ => simp [Value.word] at same

/-! ## Rows -/

/-- A separator that is not empty and whose first character continues no field and ends no
row. -/
def Divides (separator : String) : Prop :=
  ∃ c ∈ separator.toList.head?, c ≠ '"' ∧ ¬ c.isDigit ∧ c ≠ '\n'

theorem Divides.exists_cons {separator : String} (divides : Divides separator) :
    ∃ c others, separator.toList = c :: others ∧ c ≠ '"' ∧ ¬ c.isDigit ∧ c ≠ '\n' := by
  obtain ⟨c, first, conditions⟩ := divides
  obtain ⟨others, shape⟩ := List.head?_eq_some_iff.1 first
  exact ⟨c, others, shape, conditions⟩

/-- The fields of a row behind the first one, up to the end of the line. -/
def moreFields (separator : String) (row : List Entry) (rest : List Char) : List Char :=
  row.flatMap (fun entry => separator.toList ++ entry.text.toList) ++ '\n' :: rest

theorem moreFields_cons (separator : String) (entry : Entry) (more : List Entry)
    (rest : List Char) :
    moreFields separator (entry :: more) rest =
      separator.toList ++ (entry.text.toList ++ moreFields separator more rest) := by
  simp [moreFields]

theorem rowLine_cons (separator : String) (entry : Entry) (more : List Entry) (rest : List Char) :
    (Table.rowLine separator (entry :: more)).toList ++ rest =
      entry.text.toList ++ moreFields separator more rest := by
  induction more generalizing entry with
  | nil => simp [Table.rowLine, moreFields]
  | cons next more ih =>
    rw [moreFields_cons, ← ih next]
    simp [Table.rowLine]

theorem Divides.endsField_moreFields {separator : String} (divides : Divides separator)
    (row : List Entry) (rest : List Char) : EndsField (moreFields separator row rest) := by
  intro c first
  cases row with
  | nil =>
    obtain rfl : '\n' = c := by simpa [moreFields] using first
    decide
  | cons entry more =>
    obtain ⟨d, others, shape, noQuote, noDigit, -⟩ := divides.exists_cons
    obtain rfl : d = c := by simpa [moreFields_cons, shape] using first
    exact ⟨noQuote, noDigit⟩

/-- The fields of a row are told apart up to the end of its line. -/
theorem moreFields_inj {separator : String} (divides : Divides separator) {a b : List Entry}
    {r s : List Char} (h : moreFields separator a r = moreFields separator b s) :
    a.map Entry.content = b.map Entry.content ∧ r = s := by
  obtain ⟨c, others, shape, -, -, noNewline⟩ := divides.exists_cons
  induction a generalizing b with
  | nil =>
    cases b with
    | nil => exact ⟨rfl, by simpa [moreFields] using h⟩
    | cons entry more =>
      rw [moreFields_cons, shape] at h
      exact absurd (List.cons.inj h).1.symm noNewline
  | cons entry more ih =>
    cases b with
    | nil =>
      rw [moreFields_cons, shape] at h
      exact absurd (List.cons.inj h).1 noNewline
    | cons entry' more' =>
      rw [moreFields_cons, moreFields_cons] at h
      obtain ⟨content, rest⟩ := text_append_inj (List.append_cancel_left h)
        (divides.endsField_moreFields more r) (divides.endsField_moreFields more' s)
      obtain ⟨contents, rest⟩ := ih rest
      exact ⟨by rw [List.map_cons, List.map_cons, content, contents], rest⟩

theorem rowLine_inj {separator : String} (divides : Divides separator) {a b : List Entry}
    (ha : a ≠ []) (hb : b ≠ []) {r s : List Char}
    (h : (Table.rowLine separator a).toList ++ r = (Table.rowLine separator b).toList ++ s) :
    a.map Entry.content = b.map Entry.content ∧ r = s := by
  obtain ⟨entry, more, rfl⟩ := List.exists_cons_of_ne_nil ha
  obtain ⟨entry', more', rfl⟩ := List.exists_cons_of_ne_nil hb
  rw [rowLine_cons, rowLine_cons] at h
  obtain ⟨content, rest⟩ := text_append_inj h
    (divides.endsField_moreFields more r) (divides.endsField_moreFields more' s)
  obtain ⟨contents, rest⟩ := moreFields_inj divides rest
  exact ⟨by rw [List.map_cons, List.map_cons, content, contents], rest⟩

/-- A row with a field is not a blank line. -/
theorem head?_rowLine {separator : String} {row : List Entry} (nonempty : row ≠ [])
    (rest : List Char) :
    ∃ c ∈ ((Table.rowLine separator row).toList ++ rest).head?, c ≠ '\n' := by
  obtain ⟨entry, more, rfl⟩ := List.exists_cons_of_ne_nil nonempty
  obtain ⟨c, first, noNewline, -⟩ := head?_text entry.content (moreFields separator more rest)
  rw [← text_eq, ← rowLine_cons] at first
  exact ⟨c, first, noNewline⟩

/-! ## Tables -/

/-- What stands behind the rows of a table is nothing or a blank line. -/
def EndsRows (rest : List Char) : Prop :=
  ∀ c ∈ rest.head?, c = '\n'

/-- The rows of a table, and what follows it. -/
def rowsText (separator : String) (rows : List (List Entry)) (rest : List Char) : List Char :=
  rows.flatMap (fun row => (Table.rowLine separator row).toList) ++ rest

theorem rowsText_cons (separator : String) (row : List Entry) (more : List (List Entry))
    (rest : List Char) :
    rowsText separator (row :: more) rest =
      (Table.rowLine separator row).toList ++ rowsText separator more rest := by
  simp [rowsText]

/-- What ends the rows of one table does not begin another row. -/
theorem EndsRows.ne_rowsText_cons {separator : String} {rest r : List Char} (ends : EndsRows rest)
    {row : List Entry} (nonempty : row ≠ []) (more : List (List Entry)) :
    rest ≠ rowsText separator (row :: more) r := by
  intro same
  obtain ⟨c, first, noNewline⟩ := head?_rowLine nonempty (rowsText separator more r)
  rw [← rowsText_cons, ← same] at first
  exact noNewline (ends c first)

theorem rowsText_inj {separator : String} (divides : Divides separator)
    {a b : List (List Entry)} (ha : [] ∉ a) (hb : [] ∉ b) {r s : List Char}
    (h : rowsText separator a r = rowsText separator b s) (hr : EndsRows r) (hs : EndsRows s) :
    a.map (·.map Entry.content) = b.map (·.map Entry.content) ∧ r = s := by
  induction a generalizing b with
  | nil =>
    cases b with
    | nil => exact ⟨rfl, by simpa [rowsText] using h⟩
    | cons row more =>
      rw [List.mem_cons, not_or] at hb
      obtain ⟨nonempty, hb⟩ := hb
      exact absurd h (hr.ne_rowsText_cons (Ne.symm nonempty) more)
  | cons row more ih =>
    rw [List.mem_cons, not_or] at ha
    obtain ⟨nonempty, ha⟩ := ha
    cases b with
    | nil => exact absurd h.symm (hs.ne_rowsText_cons (Ne.symm nonempty) more)
    | cons row' more' =>
      rw [List.mem_cons, not_or] at hb
      obtain ⟨nonempty', hb⟩ := hb
      rw [rowsText_cons, rowsText_cons] at h
      obtain ⟨content, rest⟩ := rowLine_inj divides (Ne.symm nonempty) (Ne.symm nonempty') h
      obtain ⟨contents, rest⟩ := ih ha hb rest
      exact ⟨by rw [List.map_cons, List.map_cons, content, contents], rest⟩

theorem block_toList (separator : String) (table : Table) (rest : List Char) :
    (table.block separator).toList ++ rest =
      (Field.quote table.name).toList ++ '\n' :: rowsText separator table.rows rest := by
  simp [Table.block, Table.heading, rowsText, List.flatMap_map]

theorem block_inj {separator : String} (divides : Divides separator) {a b : Table}
    (ha : [] ∉ a.rows) (hb : [] ∉ b.rows) {r s : List Char}
    (h : (a.block separator).toList ++ r = (b.block separator).toList ++ s)
    (hr : EndsRows r) (hs : EndsRows s) : a.content = b.content ∧ r = s := by
  rw [block_toList, block_toList] at h
  obtain ⟨name, lines⟩ := Field.quote_append_inj h (by simp) (by simp)
  obtain ⟨rows, rest⟩ := rowsText_inj divides ha hb (List.cons.inj lines).2 hr hs
  exact ⟨by rw [Table.content, Table.content, name, rows], rest⟩

/-- The tables behind the first one, each behind a blank line. -/
def moreBlocks (separator : String) (tables : List Table) : List Char :=
  tables.flatMap fun table => '\n' :: (table.block separator).toList

theorem moreBlocks_cons (separator : String) (table : Table) (more : List Table) :
    moreBlocks separator (table :: more) =
      '\n' :: ((table.block separator).toList ++ moreBlocks separator more) := by
  simp [moreBlocks]

theorem endsRows_moreBlocks (separator : String) (tables : List Table) :
    EndsRows (moreBlocks separator tables) := by
  intro c first
  cases tables with
  | nil => cases first
  | cons table more =>
    rw [moreBlocks_cons] at first
    cases first
    rfl

theorem moreBlocks_inj {separator : String} (divides : Divides separator) {a b : List Table}
    (ha : ∀ table ∈ a, [] ∉ table.rows) (hb : ∀ table ∈ b, [] ∉ table.rows)
    (h : moreBlocks separator a = moreBlocks separator b) :
    a.map Table.content = b.map Table.content := by
  induction a generalizing b with
  | nil =>
    cases b with
    | nil => rfl
    | cons table more => cases h
  | cons table more ih =>
    cases b with
    | nil => cases h
    | cons table' more' =>
      rw [moreBlocks_cons, moreBlocks_cons] at h
      obtain ⟨content, rest⟩ := block_inj divides (ha table List.mem_cons_self)
        (hb table' List.mem_cons_self) (List.cons.inj h).2
        (endsRows_moreBlocks separator more) (endsRows_moreBlocks separator more')
      have contents := ih (fun t member => ha t (List.mem_cons_of_mem _ member))
        (fun t member => hb t (List.mem_cons_of_mem _ member)) rest
      rw [List.map_cons, List.map_cons, content, contents]

theorem intercalate_block_toList (separator : String) (table : Table) (more : List Table) :
    ("\n".intercalate ((table :: more).map (Table.block separator))).toList =
      (table.block separator).toList ++ moreBlocks separator more := by
  induction more generalizing table with
  | nil => simp [moreBlocks]
  | cons next more ih =>
    rw [moreBlocks_cons, ← ih next]
    simp

theorem intercalate_block_ne_empty (separator : String) (table : Table) (more : List Table) :
    "\n".intercalate ((table :: more).map (Table.block separator)) ≠ "" := by
  intro empty
  have chars := intercalate_block_toList separator table more
  rw [empty, block_toList] at chars
  rcases Field.head?_quote table.name
    ('\n' :: rowsText separator table.rows (moreBlocks separator more)) with first | first <;>
    · rw [← chars] at first
      cases first

/-- The blocks of tables are told apart, whatever they hold. -/
theorem intercalate_block_inj {separator : String} (divides : Divides separator)
    {a b : List Table} (ha : ∀ table ∈ a, [] ∉ table.rows) (hb : ∀ table ∈ b, [] ∉ table.rows)
    (h : "\n".intercalate (a.map (Table.block separator)) =
      "\n".intercalate (b.map (Table.block separator))) :
    a.map Table.content = b.map Table.content := by
  cases a with
  | nil =>
    cases b with
    | nil => rfl
    | cons table more => exact absurd h.symm (intercalate_block_ne_empty separator table more)
  | cons table more =>
    cases b with
    | nil => exact absurd h (intercalate_block_ne_empty separator table more)
    | cons table' more' =>
      apply moreBlocks_inj divides ha hb
      rw [moreBlocks_cons, moreBlocks_cons, ← intercalate_block_toList,
        ← intercalate_block_toList, h]

theorem headings_cons (table : Table) (more : List Table) :
    (String.join ((table :: more).map Table.heading)).toList =
      (Field.quote table.name).toList ++
        '\n' :: (String.join (more.map Table.heading)).toList := by
  simp [Table.heading]

theorem headings_ne_empty (table : Table) (more : List Table) :
    String.join ((table :: more).map Table.heading) ≠ "" := by
  intro empty
  have chars := headings_cons table more
  rw [empty] at chars
  simp at chars

/-- The lines of names are told apart. -/
theorem headings_inj {a b : List Table}
    (h : String.join (a.map Table.heading) = String.join (b.map Table.heading)) :
    a.map Table.name = b.map Table.name := by
  induction a generalizing b with
  | nil =>
    cases b with
    | nil => rfl
    | cons table more => exact absurd h.symm (headings_ne_empty table more)
  | cons table more ih =>
    cases b with
    | nil => exact absurd h (headings_ne_empty table more)
    | cons table' more' =>
      have chars := congrArg String.toList h
      rw [headings_cons, headings_cons] at chars
      obtain ⟨name, rest⟩ := Field.quote_append_inj chars (by simp) (by simp)
      rw [List.map_cons, List.map_cons, name, ih (String.toList_injective (List.cons.inj rest).2)]

end ReadBack

section Faithful

open Layout ReadBack

variable {σ : Type} [Sink σ] {sound : σ → Prop} {held : σ → ByteArray}

/-- Conversions that store the same have the same document. -/
theorem document_eq_of_held_eq (faithful : Sink.Faithful sound held) {out : σ} (start : sound out)
    (options : Options) {a b : List Table}
    (same : held (convert options out (items a)).out = held (convert options out (items b)).out) :
    document options a = document options b := by
  rw [held_convert_items faithful start, held_convert_items faithful start] at same
  exact String.toByteArray_inj.1 ((ByteArray.append_right_inj _).1 same)

/-- The output of complete tables whose rows all have fields can be read back: equal outputs
come from tables with the same names, rows and contents, in the same order. A list of names
can be read back whatever the separator is. -/
theorem content_eq_of_held_eq (faithful : Sink.Faithful sound held) {out : σ} (start : sound out)
    (filter : Filter) (separator : String) (a b : List Table) :
    (Divides separator → (∀ table ∈ a, [] ∉ table.rows) → (∀ table ∈ b, [] ∉ table.rows) →
      held (convert ⟨separator, filter, false⟩ out (items a)).out =
        held (convert ⟨separator, filter, false⟩ out (items b)).out →
      (rendered ⟨separator, filter, false⟩ a).map Table.content =
        (rendered ⟨separator, filter, false⟩ b).map Table.content) ∧
    (held (convert ⟨separator, filter, true⟩ out (items a)).out =
        held (convert ⟨separator, filter, true⟩ out (items b)).out →
      (kept ⟨separator, filter, true⟩ a).map Table.name =
        (kept ⟨separator, filter, true⟩ b).map Table.name) := by
  refine ⟨?_, ?_⟩
  · intro divides ha hb same
    apply intercalate_block_inj divides
    · intro table member
      exact ha table (List.mem_filter.1 member).1
    · intro table member
      exact hb table (List.mem_filter.1 member).1
    · exact document_eq_of_held_eq faithful start _ same
  · intro same
    apply headings_inj
    exact document_eq_of_held_eq faithful start _ same

/-- Two recordings with the same output: a column name in one of them is an equal text in the
other, and a table that only one of them has is not rendered. The separator is the first
letter of a truth value. -/
theorem content_eq_of_held_eq_column_cell :
    let a : List Table :=
      [⟨.basic, "A", [[.column .bool "x", .cell (.bool true)]]⟩,
        ⟨.basic, "B", [[.cell (.uint64 1)]]⟩]
    let b : List Table := [⟨.keyValue, "A", [[.cell (.string "x"), .cell (.bool true)]]⟩]
    let shown : Options := ⟨"T", .allBut ["B"], false⟩
    let listed : Options := ⟨"T", .allBut ["B"], true⟩
    Buffer.unlimited.Unlimited ∧ Divides "T" ∧ (∀ table ∈ a, [] ∉ table.rows) ∧
      (∀ table ∈ b, [] ∉ table.rows) ∧
      (convert shown Buffer.unlimited (items a)).out.written =
        (convert shown Buffer.unlimited (items b)).out.written ∧
      (rendered shown a).map Table.content = (rendered shown b).map Table.content ∧
      (convert listed Buffer.unlimited (items a)).out.written =
        (convert listed Buffer.unlimited (items b)).out.written ∧
      (kept listed a).map Table.name = (kept listed b).map Table.name := by
  intro a b shown listed
  have start : Buffer.unlimited.Unlimited := ⟨rfl, rfl⟩
  have divides : Divides "T" := ⟨'T', rfl, by decide, by decide, by decide⟩
  have ha : ∀ table ∈ a, [] ∉ table.rows := by simp [a]
  have hb : ∀ table ∈ b, [] ∉ table.rows := by simp [b]
  have same (options : Options) (h : document options a = document options b) :
      (convert options Buffer.unlimited (items a)).out.written =
        (convert options Buffer.unlimited (items b)).out.written := by
    rw [held_convert_items Buffer.faithful start, held_convert_items Buffer.faithful start, h]
  have sameShown := same shown (by cbv)
  have sameListed := same listed (by cbv)
  obtain ⟨ordinary, names⟩ :=
    content_eq_of_held_eq Buffer.faithful start (.allBut ["B"]) "T" a b
  exact ⟨start, divides, ha, hb, sameShown, ordinary divides ha hb sameShown, sameListed,
    names sameListed⟩

end Faithful

end TraceTables
