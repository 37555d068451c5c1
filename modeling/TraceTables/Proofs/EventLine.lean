import TraceTables.Proofs.Json.Printed
import TraceTables.Proofs.LineLayout

/-!
# One event on a line

A line that holds a text of an event describes that event, whatever lines are around it. So a
recording of this one line yields the event and nothing else, with or without a line feed behind it
(`ask_lineText`).
-/

namespace TraceTables.JsonLines

open TraceTables.Source

variable {event : Event} {line : String}

theorem describes_of_lineText (text : Json.LineText event line.toList) :
    Describes line.toUTF8 event :=
  ⟨line, rfl, Json.isBlank_of_lineText text, Json.readEvent_of_lineText text⟩

/-- However an event is spelled on a line, exactly this event is yielded for it, with or without a
line feed behind it. -/
theorem ask_lineText (text : Json.LineText event line.toList) (single : '\n' ∉ line.toList)
    (place : Nat) :
    ask place (Source.start ⟨line.toUTF8, none⟩) = ([event].map Except.ok)[place]? ∧
      ask place (Source.start ⟨(line ++ "\n").toUTF8, none⟩) =
        ([event].map Except.ok)[place]? := by
  have passed : Passed [line.toUTF8] [event] := .event (describes_of_lineText text) .nil
  have ended : (line ++ "\n").toUTF8 = line.toUTF8 ++ "\n".toUTF8 ++ .empty := by
    rw [ByteArray.append_empty]
    exact String.toByteArray_append
  have whole :
      TraceTables.Source.read (Source.start ⟨line.toUTF8, none⟩) = ⟨[event], none⟩ := by
    rw [read_eq_iff_passed, Lines.split_toUTF8 single]
    exact passed
  have whole' :
      TraceTables.Source.read (Source.start ⟨(line ++ "\n").toUTF8, none⟩) = ⟨[event], none⟩ := by
    rw [read_eq_iff_passed, ended, Lines.split_append_lineFeed, Lines.split_toUTF8 single,
      Lines.split_empty]
    exact passed.append_blank blank_empty
  rw [← Reading.items_events]
  exact ⟨(ask_eq_iff _ _).2 whole place, (ask_eq_iff _ _).2 whole' place⟩

/-- The members stand in the other order, with one more in front of them. An escape begins the word
and a key, and the name has a pair of them. -/
theorem ask_lineText_key_value :
    let line := "\t\x7b\"\\u0074able_begin\":\x7b\"x\":[null,\x7b\"\\ud800\":-0.5E+3\x7d] ," ++
      "\"\\u006Eame\": \"\\uD83d\\uDe00\\/\",\"kind\":\"key_value\"\x7d\x7d"
    let event : Event := .tableBegin .keyValue "😀/"
    Json.LineText event line.toList ∧ '\n' ∉ line.toList ∧
      ∀ place, ask place (Source.start ⟨line.toUTF8, none⟩) = ([event].map Except.ok)[place]? ∧
        ask place (Source.start ⟨(line ++ "\n").toUTF8, none⟩) =
          ([event].map Except.ok)[place]? := by
  intro line event
  have text : Json.LineText event line.toList := by
    open Json in
    have half : DigitText ['5'] := ⟨List.cons_ne_nil _ _, List.all_eq_true.1 rfl⟩
    have thousand : DigitText ['3'] := ⟨List.cons_ne_nil _ _, List.all_eq_true.1 rfl⟩
    have number := WellFormed.number <|
      .make (.inr rfl) .zero (.some half) (.some (.inr rfl) (.inr (.inl rfl)) thousand)
    have lone := @Quotable.code 0xD800 ['d', '8', '0', '0'] [] rfl .nil
    have object := WellFormed.object <| .lastMember <|
      .member space_nil lone space_nil (.element space_nil number space_nil)
    have list := WellFormed.list <| .elements (.element space_nil .null space_nil) <|
      .lastElement (.element space_nil object space_nil)
    have space : Space [' '] := List.forall_mem_singleton.2 (by decide)
    have tab : Space ['\t'] := List.forall_mem_singleton.2 (by decide)
    have word : Spelling "table_begin".toList "\\u0074able_begin".toList :=
      .cons (@Spells.code 't' ['0', '0', '7', '4'] rfl) (spelling_escaped "able_begin")
    have key : Spelling "name".toList "\\u006Eame".toList :=
      .cons (@Spells.code 'n' ['0', '0', '6', 'E'] rfl) (spelling_escaped "ame")
    have first : Spells '😀' "\\uD83d\\uDe00".toList :=
      @Spells.pair '😀' ['D', '8', '3', 'd'] ['D', 'e', '0', '0'] (by simp) (by cbv) (by cbv)
    have name : Spelling "😀/".toList "\\uD83d\\uDe00\\/".toList :=
      .cons first (.cons (@Spells.short '/' '/' (by decide)) .nil)
    let members := [("x", "[null,\x7b\"\\ud800\":-0.5E+3\x7d]".toList),
      ("name", "\"\\uD83d\\uDe00\\/\"".toList), ("kind", "\"key_value\"".toList)]
    have texts : MembersText true members _ :=
      .cons (.first space_nil) (spelling_escaped "x") space_nil space_nil <|
      .cons (.next space space_nil) key space_nil space <|
      .cons (.next space_nil space_nil) (spelling_escaped "kind") space_nil space_nil .nil
    have kinds : Once members "kind" (QuotedText "key_value") :=
      ⟨_, rfl, .make (spelling_escaped "key_value")⟩
    have names : Once members "name" (QuotedText "😀/") := ⟨_, rfl, .make name⟩
    let own := [("kind", QuotedText "key_value"), ("name", QuotedText "😀/")]
    have once : ∀ member ∈ own, Once members member.1 member.2 := by simp [own, kinds, names]
    have others : ∀ member ∈ members, member.1 ∉ own.map Prod.fst →
        WellFormed .value member.2 := by
      simpa [members, own] using list
    have payload : ObjectText own _ := .make texts space_nil once others
    have text : EventText event _ :=
      TaggedText.make space_nil word space_nil space_nil payload space_nil
    convert LineText.make tab text space_nil using 1
    decide
  have single : '\n' ∉ line.toList := by decide
  exact ⟨text, single, ask_lineText text single⟩

end TraceTables.JsonLines
