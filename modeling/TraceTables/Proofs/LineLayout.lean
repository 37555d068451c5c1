import Mathlib.Logic.Relation
import TraceTables.Proofs.LineByLine

/-!
# The layout of the lines

How the lines of a recording are laid out does not matter: blank lines may be put between them, a
carriage return may stand in front of any line feed, and the last line feed may be left out. `Edit`
is one such change, at any place of the octets, and `ask_edited` says that no number of changes, in
whatever order they are made, has an effect on what is read.

Octets that are read without a fault are lines that are passed, and every edit is one of the lines:
it inserts a blank one, or it puts a carriage return behind one. So what is shown of an edit is that
the lines are still passed, with the same events (`Edit.passed`).
-/

namespace TraceTables

namespace Lines

theorem split_append_lineFeed (a b : ByteArray) :
    split (a ++ "\n".toUTF8 ++ b) = split a ++ split b := by
  have octets : (a ++ "\n".toUTF8 ++ b).data.toList =
      a.data.toList ++ lineFeed :: b.data.toList := by
    have feed : "\n".toUTF8.data.toList = [lineFeed] := rfl
    rw [ByteArray.toList_data_append, ByteArray.toList_data_append, feed, List.append_assoc]
    rfl
  rw [split, octets, List.splitOn_append_cons_self, List.map_append]
  rfl

theorem split_empty : split .empty = [.empty] := rfl

theorem split_of_lineFeed_not_mem {line : ByteArray} (h : lineFeed ∉ line.data.toList) :
    split line = [line] := by
  rw [split, List.splitOn_eq_singleton h, List.map_singleton, List.singleton_inj]
  exact Binary.eq_of_toList List.toList_data_toByteArray

theorem lineFeed_not_mem_toUTF8 {text : String} (h : '\n' ∉ text.toList) :
    lineFeed ∉ text.toUTF8.data.toList := by
  rw [Text.Utf8.toList_toUTF8, List.mem_flatMap]
  rintro ⟨c, among, member⟩
  obtain rfl : c = '\n' := Text.Utf8.eq_of_mem_utf8EncodeChar (by decide) member
  exact h among

/-- A text without a line feed is one line. -/
theorem split_toUTF8 {text : String} (h : '\n' ∉ text.toList) :
    split text.toUTF8 = [text.toUTF8] :=
  split_of_lineFeed_not_mem (lineFeed_not_mem_toUTF8 h)

/-- Behind whole lines, other lines are split as they are by themselves. -/
theorem split_append_of_whole {before : ByteArray} (whole : Whole before) :
    ∃ lines, ∀ after, split (before ++ after) = lines ++ split after := by
  rcases whole with rfl | feed
  · exact ⟨[], fun after => by rw [ByteArray.empty_append, List.nil_append]⟩
  · obtain ⟨more, octets⟩ := Array.back?_eq_some_iff.1 feed
    have cut : before = ⟨more⟩ ++ "\n".toUTF8 := by
      apply ByteArray.ext
      rw [octets, ByteArray.data_append, Array.push_eq_append]
      rfl
    exact ⟨split ⟨more⟩, fun after => by rw [cut, split_append_lineFeed]⟩

/-- A carriage return at the end stands at the end of the last line. -/
theorem split_append_return (bytes : ByteArray) :
    ∃ lines last, split bytes = lines ++ [last] ∧
      split (bytes ++ "\r".toUTF8) = lines ++ [last ++ "\r".toUTF8] := by
  obtain ⟨ended, last, pieces, octets, noFeed, noFeed'⟩ := exists_isCut bytes
  have noFeed'' : lineFeed ∉ (last ++ "\r".toUTF8).data.toList := by
    rw [ByteArray.toList_data_append, List.mem_append, not_or]
    exact ⟨noFeed', by decide⟩
  refine ⟨ended, last, pieces, ?_⟩
  have joined : (bytes ++ "\r".toUTF8).data.toList =
      joined ended ++ (last ++ "\r".toUTF8).data.toList := by
    rw [ByteArray.toList_data_append, octets, List.append_assoc, ByteArray.toList_data_append]
  rw [split, joined]
  clear octets joined pieces
  induction ended with
  | nil =>
    rw [joined_nil, List.nil_append, List.nil_append]
    exact split_of_lineFeed_not_mem noFeed''
  | cons line more ih =>
    obtain ⟨first, rest⟩ := List.forall_mem_cons.1 noFeed
    rw [joined_cons, List.append_assoc, List.cons_append,
      List.splitOn_append_cons_self_of_not_mem first, List.map_cons, ih rest]
    exact congrArg (· :: _) (Binary.eq_of_toList List.toList_data_toByteArray)

end Lines

namespace JsonLines

open TraceTables.Source

/-- One change of the layout, at any place of the octets. -/
inductive Edit : ByteArray → ByteArray → Prop where
  /-- A blank line is put in front of a line, or behind all lines if the last has ended. -/
  | insert {before : ByteArray} {space : String} (whole : Lines.Whole before)
    (blank : Text.isBlank space.toList = true) (single : '\n' ∉ space.toList)
    (after : ByteArray) :
    Edit (before ++ after) (before ++ (space ++ "\n").toUTF8 ++ after)
  /-- The last line is ended, and a blank one is put behind it. -/
  | extend {space : String} (blank : Text.isBlank space.toList = true)
    (single : '\n' ∉ space.toList) (before : ByteArray) :
    Edit before (before ++ ("\n" ++ space).toUTF8)
  /-- A line feed becomes a carriage return and a line feed. -/
  | returnBefore (before after : ByteArray) :
    Edit (before ++ "\n".toUTF8 ++ after) (before ++ "\r\n".toUTF8 ++ after)
  /-- The last line feed is left out. -/
  | dropLast (before : ByteArray) : Edit (before ++ "\n".toUTF8) before

section Passed

variable {line : ByteArray} {events : List Event}

/-- A line is passed alike with a carriage return at its end. -/
theorem Passed.append_return (passed : Passed [line] events) :
    Passed [line ++ "\r".toUTF8] events := by
  have kept : Kept (line ++ "\r".toUTF8) line := .inr ByteArray.toList_data_append
  cases passed with
  | blank blank none =>
    obtain ⟨text, spelled, white⟩ := blank
    obtain ⟨whole, spelled', white', -⟩ := kept.text spelled
    exact .blank ⟨whole, spelled', white'.trans white⟩ none
  | event describes none =>
    obtain ⟨text, spelled, visible, read⟩ := describes
    obtain ⟨whole, spelled', white, reads⟩ := kept.text spelled
    exact .event ⟨whole, spelled', white.trans visible, (reads _).2 read⟩ none

theorem Passed.blankLine {space : String} (blank : Text.isBlank space.toList = true) :
    Passed [space.toUTF8] [] :=
  .blank ⟨space, rfl, blank⟩ .nil

/-- Without a blank line behind them, lines are passed alike. -/
theorem Passed.of_append_empty {lines : List ByteArray}
    (passed : Passed (lines ++ [.empty]) events) : Passed lines events := by
  obtain ⟨first, second, rfl, above, last⟩ := passed.of_append
  obtain rfl := last.unique (.blank blank_empty .nil)
  rwa [List.append_nil]

end Passed

/-- An edit leaves lines that are passed, and the events that they describe. -/
theorem Edit.passed {bytes bytes' : ByteArray} (edit : Edit bytes bytes') {events : List Event}
    (passed : Passed (Lines.split bytes) events) : Passed (Lines.split bytes') events := by
  cases edit with
  | @insert before space whole blank single after =>
    obtain ⟨lines, split⟩ := Lines.split_append_of_whole whole
    rw [split] at passed
    obtain ⟨first, second, rfl, above, below⟩ := passed.of_append
    have inserted : (space ++ "\n").toUTF8 = space.toUTF8 ++ "\n".toUTF8 :=
      String.toByteArray_append
    rw [inserted, ByteArray.append_assoc, split, Lines.split_append_lineFeed,
      Lines.split_toUTF8 single]
    exact above.append ((Passed.blankLine blank).append below)
  | @extend space blank single =>
    have added : ("\n" ++ space).toUTF8 = "\n".toUTF8 ++ space.toUTF8 :=
      String.toByteArray_append
    rw [added, ← ByteArray.append_assoc, Lines.split_append_lineFeed, Lines.split_toUTF8 single]
    exact passed.append_blank ⟨space, rfl, blank⟩
  | returnBefore before after =>
    obtain ⟨lines, last, pieces, pieces'⟩ := Lines.split_append_return before
    rw [Lines.split_append_lineFeed, pieces, List.append_assoc] at passed
    obtain ⟨first, second, rfl, above, rest⟩ := passed.of_append
    obtain ⟨here, second, rfl, line, below⟩ := rest.of_append
    have returned : "\r\n".toUTF8 = "\r".toUTF8 ++ "\n".toUTF8 := rfl
    rw [returned, ← ByteArray.append_assoc, Lines.split_append_lineFeed, pieces',
      List.append_assoc]
    exact above.append (line.append_return.append below)
  | dropLast =>
    have pieces := Lines.split_append_lineFeed bytes' .empty
    rw [ByteArray.append_empty, Lines.split_empty] at pieces
    rw [pieces] at passed
    exact passed.of_append_empty

/-- However the layout of lines is changed that are read without a fault, they are read without a
fault again, and the same events are yielded. -/
theorem ask_edited {bytes bytes' : ByteArray} (edited : Relation.ReflTransGen Edit bytes bytes')
    {events : List Event}
    (answers : ∀ place, ask place (Source.start ⟨bytes, none⟩) = (events.map Except.ok)[place]?) :
    ∀ place, ask place (Source.start ⟨bytes', none⟩) = (events.map Except.ok)[place]? := by
  rw [← Reading.items_events, ask_eq_iff, read_eq_iff_passed] at answers ⊢
  induction edited with
  | refl => exact answers
  | tail _ edit ih => exact edit.passed ih

/-- Of two lines, the first gets a carriage return, and the second loses its line feed. Between them
comes a line with white space that JSON does not have. -/
theorem ask_edited_two_lines :
    let bytes := "\"row_begin\"\n\"row_end\"\n".toUTF8
    let bytes' := "\"row_begin\"\r\n\u00a0\t\n\"row_end\"".toUTF8
    let events : List Event := [.rowBegin, .rowEnd]
    Relation.ReflTransGen Edit bytes bytes' ∧
      (∀ place, ask place (Source.start ⟨bytes, none⟩) = (events.map Except.ok)[place]?) ∧
      ∀ place, ask place (Source.start ⟨bytes', none⟩) = (events.map Except.ok)[place]? := by
  intro bytes bytes' events
  have edited : Relation.ReflTransGen Edit bytes bytes' := by
    have inserted : Edit bytes "\"row_begin\"\n\u00a0\t\n\"row_end\"\n".toUTF8 :=
      @Edit.insert "\"row_begin\"\n".toUTF8 "\u00a0\t" (.inr rfl) (by decide) (by decide)
        "\"row_end\"\n".toUTF8
    have returned := Edit.returnBefore "\"row_begin\"".toUTF8 "\u00a0\t\n\"row_end\"\n".toUTF8
    have dropped := Edit.dropLast bytes'
    exact .tail (.tail (.single inserted) returned) dropped
  have answers : ∀ place, ask place (Source.start ⟨bytes, none⟩) =
      (events.map Except.ok)[place]? := by
    have lines : Lines.split bytes =
        ["\"row_begin\"".toUTF8, "\"row_end\"".toUTF8, .empty] := by cbv
    rw [← Reading.items_events, ask_eq_iff, read_eq_iff_passed, lines]
    exact .event ⟨_, rfl, by cbv, by cbv⟩ (.event ⟨_, rfl, by cbv, by cbv⟩ (.blank blank_empty .nil))
  exact ⟨edited, answers, ask_edited edited answers⟩

end JsonLines

end TraceTables
