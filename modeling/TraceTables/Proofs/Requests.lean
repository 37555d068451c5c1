import Mathlib.Data.List.Basic
import Mathlib.Data.List.TakeWhile
import TraceTables.CommandLine.Parse

/-!
# Settings in any order

Every setting can be given by an argument of its own: a word, with the value attached to it. Such
arguments may be given in any order, except that the names of tables are collected in the order in
which they are given (`parse_interleaved`). The values may be any texts; they may be empty, begin
with a dash or hold an equals sign.

Nothing waits behind an argument of this kind. It takes effect at once and changes one part of what
has been settled (`Given.grant`), and so what is settled is a function of the requests so far
(`Given.ofRequests`). The only thing to go wrong would be a second request for what can be given
once, or an empty path (`Request.Sound`).
-/

namespace TraceTables.CommandLine

/-- What one argument asks for. -/
inductive Request where
  | output (path : String)
  | colsep (text : String)
  | includeTable (name : String)
  | excludeTable (name : String)
  | list
  | inputFormat (format : Format)
  | verbose
  deriving DecidableEq

namespace Request

/-- The argument that asks for it. -/
def argument : Request → String
  | .output path => "--output=" ++ path
  | .colsep text => "--colsep=" ++ text
  | .includeTable name => "--include=" ++ name
  | .excludeTable name => "--exclude=" ++ name
  | .list => "--list"
  | .inputFormat format => "--input-format=" ++ formatWord format
  | .verbose => "--verbose"

/-- The path of an output that is asked for. -/
def output? : Request → Option String
  | .output path => some path
  | _ => none

/-- A separator that is asked for. -/
def colsep? : Request → Option String
  | .colsep text => some text
  | _ => none

/-- The name of a table to include. -/
def included? : Request → Option String
  | .includeTable name => some name
  | _ => none

/-- The name of a table to exclude. -/
def excluded? : Request → Option String
  | .excludeTable name => some name
  | _ => none

/-- A format that is asked for. -/
def format? : Request → Option Format
  | .inputFormat format => some format
  | _ => none

theorem argument_ne_dashes (request : Request) : request.argument ≠ "--" := by
  intro same
  have spelled := congrArg String.toList same
  cases request <;> simp [argument] at spelled

/-- Whether nothing is asked for again that can be given once, and no path is empty. -/
structure Sound (requests : List Request) : Prop where
  output : (requests.filterMap output?).length ≤ 1
  path : ∀ path ∈ requests.filterMap output?, path ≠ ""
  colsep : (requests.filterMap colsep?).length ≤ 1
  list : requests.count .list ≤ 1
  format : (requests.filterMap format?).length ≤ 1

theorem Sound.of_append {first second : List Request} (sound : Sound (first ++ second)) :
    Sound first := by
  obtain ⟨output, path, colsep, list, format⟩ := sound
  rw [List.filterMap_append, List.length_append] at output colsep format
  rw [List.count_append] at list
  refine ⟨by omega, fun one member => path one ?_, by omega, by omega, by omega⟩
  rw [List.filterMap_append]
  exact List.mem_append_left _ member

end Request

/-- Settings that a command line is to give. -/
structure Settings where
  output : Option String
  colsep : Option String
  included : List String
  excluded : List String
  list : Bool
  format : Option Format
  /-- How often more messages are asked for. -/
  verbose : Nat

namespace Settings

/-- The requests for settings, option by option. -/
def requests (settings : Settings) : List Request :=
  settings.output.toList.map .output ++ settings.colsep.toList.map .colsep ++
    settings.included.map .includeTable ++ settings.excluded.map .excludeTable ++
    List.replicate settings.list.toNat .list ++ settings.format.toList.map .inputFormat ++
    List.replicate settings.verbose .verbose

/-- Whether these are the requests for the settings in some order, in which the names of tables
keep theirs. -/
structure Interleaved (settings : Settings) (requests : List Request) : Prop where
  shuffled : requests.Perm settings.requests
  included : requests.filterMap Request.included? = settings.included
  excluded : requests.filterMap Request.excluded? = settings.excluded

end Settings

theorem find?_word (setting : Setting) :
    Setting.all.find? (·.word == setting.word) = some setting := by
  cases setting <;> decide

theorem equals_not_mem_word (setting : Setting) : '=' ∉ setting.word.toList := by
  cases setting <;> decide

namespace Given

variable {given : Given}

section Arguments

theorem takeWhile_word (setting : Setting) :
    ∀ c ∈ setting.word.toList, decide (c ≠ '=') = true := by
  intro c member
  have other : c ≠ '=' := fun same => equals_not_mem_word setting (same ▸ member)
  exact decide_eq_true other

/-- A word by itself. -/
theorem add_word (setting : Setting) :
    given.add ("--" ++ setting.word) = given.addWord setting.word none := by
  have spelled : ("--" ++ setting.word).toList = '-' :: '-' :: setting.word.toList := by simp
  have word : setting.word.toList.takeWhile (· ≠ '=') = setting.word.toList :=
    List.takeWhile_eq_self_iff.2 (takeWhile_word setting)
  rw [add, spelled]
  simp only [word, List.drop_length, String.ofList_toList]

/-- A word with a value attached to it: the value begins behind the first equals sign. -/
theorem add_attached (setting : Setting) (value : String) :
    given.add ("--" ++ setting.word ++ "=" ++ value) = given.addWord setting.word (some value) := by
  have spelled : ("--" ++ setting.word ++ "=" ++ value).toList =
      '-' :: '-' :: (setting.word.toList ++ '=' :: value.toList) := by simp
  have word : (setting.word.toList ++ '=' :: value.toList).takeWhile (· ≠ '=') =
      setting.word.toList := by
    rw [List.takeWhile_append_of_pos (takeWhile_word setting),
      List.takeWhile_cons_of_neg (by simp), List.append_nil]
  rw [add, spelled]
  simp only [word, List.drop_left, String.ofList_toList]

theorem addWord_attached {setting : Setting} (takes : setting.takesValue = true) (value : String)
    (idle : given.waiting = .nothing) :
    given.addWord setting.word (some value) = given.setValue setting value := by
  obtain ⟨_, _, _, _, _, _, _, _, _⟩ := given
  cases idle
  simp only [addWord, find?_word, takes, addOption, settle]
  rfl

theorem addWord_alone {setting : Setting} (flag : setting.takesValue = false)
    (idle : given.waiting = .nothing) :
    given.addWord setting.word none = given.setFlag setting true := by
  obtain ⟨_, _, _, _, _, _, _, _, _⟩ := given
  cases idle
  simp only [addWord, find?_word, flag, addFlag, settle]
  rfl

theorem format?_formatWord (shown : String) (format : Format) :
    format? shown (formatWord format) = .ok format := by
  rcases format with _ | (_ | _) <;> rfl

end Arguments

section Requests

/-- What a request changes. -/
def grant (given : Given) : Request → Given
  | .output path => { given with output := some path }
  | .colsep text => { given with colsep := some text }
  | .includeTable name => { given with included := given.included ++ [name] }
  | .excludeTable name => { given with excluded := given.excluded ++ [name] }
  | .list => { given with list := true }
  | .inputFormat format => { given with format := some format }
  | .verbose => { given with verbose := min 255 (given.verbose + 1) }

/-- Whether a request can be granted. -/
def Grants (given : Given) : Request → Prop
  | .output path => given.output = none ∧ path ≠ ""
  | .colsep _ => given.colsep = none
  | .list => given.list = false
  | .inputFormat _ => given.format = none
  | .includeTable _ | .excludeTable _ | .verbose => True

/-- An argument that makes a request takes effect at once. -/
theorem add_argument {request : Request} (idle : given.waiting = .nothing)
    (grants : given.Grants request) : given.add request.argument = .ok (given.grant request) := by
  cases request with
  | output path =>
    obtain ⟨first, named⟩ := grants
    change given.add ("--" ++ Setting.output.word ++ "=" ++ path) = _
    rw [add_attached, addWord_attached rfl path idle, setValue, once, first, Given.path,
      if_neg named]
    rfl
  | colsep text =>
    have first : given.colsep = none := grants
    change given.add ("--" ++ Setting.colsep.word ++ "=" ++ text) = _
    rw [add_attached, addWord_attached rfl text idle, setValue, once, first]
    rfl
  | includeTable name =>
    change given.add ("--" ++ Setting.includeTable.word ++ "=" ++ name) = _
    rw [add_attached, addWord_attached rfl name idle]
    rfl
  | excludeTable name =>
    change given.add ("--" ++ Setting.excludeTable.word ++ "=" ++ name) = _
    rw [add_attached, addWord_attached rfl name idle]
    rfl
  | list =>
    have first : given.list = false := grants
    change given.add ("--" ++ Setting.list.word) = _
    rw [add_word, addWord_alone rfl idle, setFlag, first]
    rfl
  | inputFormat format =>
    have first : given.format = none := grants
    change given.add ("--" ++ Setting.inputFormat.word ++ "=" ++ formatWord format) = _
    rw [add_attached, addWord_attached rfl _ idle, setValue, once, first, format?_formatWord]
    rfl
  | verbose =>
    change given.add ("--" ++ Setting.verbose.word) = _
    rw [add_word, addWord_alone rfl idle]
    rfl

/-- What requests leave settled. -/
def ofRequests (requests : List Request) : Given where
  inputs := []
  output := (requests.filterMap Request.output?).getLast?
  colsep := (requests.filterMap Request.colsep?).getLast?
  included := requests.filterMap Request.included?
  excluded := requests.filterMap Request.excluded?
  list := requests.contains .list
  format := (requests.filterMap Request.format?).getLast?
  verbose := min 255 (requests.count .verbose)
  waiting := .nothing

theorem grant_ofRequests (requests : List Request) (request : Request) :
    (ofRequests requests).grant request = ofRequests (requests ++ [request]) := by
  cases request with
  | verbose =>
    simp [ofRequests, grant, Request.output?, Request.colsep?, Request.included?,
      Request.excluded?, Request.format?]
    omega
  | _ =>
    simp [ofRequests, grant, Request.output?, Request.colsep?, Request.included?,
      Request.excluded?, Request.format?]

theorem grants_of_sound {requests : List Request} {request : Request}
    (sound : Request.Sound (requests ++ [request])) : (ofRequests requests).Grants request := by
  cases request with
  | output path =>
    have first : requests.filterMap Request.output? = [] := by
      simpa [Request.output?] using sound.output
    refine ⟨?_, sound.path path (by simp [Request.output?])⟩
    rw [ofRequests, first]
    rfl
  | colsep text =>
    have first : requests.filterMap Request.colsep? = [] := by
      simpa [Request.colsep?] using sound.colsep
    rw [Grants, ofRequests, first]
    rfl
  | list =>
    have first : requests.count .list = 0 := by
      simpa using sound.list
    rw [Grants, ofRequests]
    simpa using List.count_eq_zero.1 first
  | inputFormat format =>
    have first : requests.filterMap Request.format? = [] := by
      simpa [Request.format?] using sound.format
    rw [Grants, ofRequests, first]
    rfl
  | includeTable _ | excludeTable _ | verbose => trivial

theorem readAll_cons {argument : String} (other : argument ≠ "--") (more : List String) :
    given.readAll (argument :: more) = given.add argument >>= (readAll · more) := by
  rw [readAll]
  exact other

/-- Requests are granted one after the other. -/
theorem readAll_requests {before requests : List Request}
    (sound : Request.Sound (before ++ requests)) (more : List String) :
    (ofRequests before).readAll (requests.map Request.argument ++ more) =
      (ofRequests (before ++ requests)).readAll more := by
  induction requests generalizing before with
  | nil => simp
  | cons request rest ih =>
    rw [List.append_cons] at sound ⊢
    have grants := grants_of_sound sound.of_append
    rw [List.map_cons, List.cons_append, readAll_cons request.argument_ne_dashes,
      add_argument rfl grants, grant_ofRequests]
    exact ih sound

end Requests

section Inputs

theorem mapM_path (shown : String) {values : List String} (named : ∀ value ∈ values, value ≠ "") :
    values.mapM (path shown) = .ok values := by
  induction values with
  | nil => rfl
  | cons value more ih =>
    obtain ⟨first, rest⟩ := List.forall_mem_cons.1 named
    rw [List.mapM_cons, path, if_neg first, ih rest]
    rfl

/-- Behind the first input, every argument waits with it. -/
theorem foldlM_addInput (values inputs : List String) :
    inputs.foldlM addInput { given with waiting := .inputs values } =
      .ok { given with waiting := .inputs (values ++ inputs) } := by
  induction inputs generalizing values with
  | nil =>
    rw [List.append_nil]
    rfl
  | cons input more ih =>
    rw [List.foldlM_cons]
    change more.foldlM addInput { given with waiting := .inputs (values ++ [input]) } = _
    rw [ih, List.append_assoc]
    rfl

theorem settle_inputs {values : List String} (waiting : given.waiting = .inputs values)
    (named : ∀ value ∈ values, value ≠ "") :
    given.settle = .ok { given with inputs := given.inputs ++ values, waiting := .nothing } := by
  rw [settle, waiting]
  simp only [mapM_path inputsShown named]
  rfl

/-- Behind the double dash, all arguments are inputs. -/
theorem readAll_inputs {inputs : List String} (idle : given.waiting = .nothing)
    (named : ∀ input ∈ inputs, input ≠ "") :
    given.readAll ("--" :: inputs) = .ok { given with inputs := given.inputs ++ inputs } := by
  rw [readAll]
  cases inputs with
  | nil =>
    obtain ⟨_, _, _, _, _, _, _, _, _⟩ := given
    cases idle
    simp only [List.append_nil]
    rfl
  | cons input more =>
    have opened : given.addInput input = .ok { given with waiting := .inputs [input] } := by
      rw [addInput, settle, idle]
      rfl
    rw [List.foldlM_cons, opened]
    change (more.foldlM addInput { given with waiting := .inputs [input] } >>= settle) = _
    rw [foldlM_addInput]
    change settle { given with waiting := .inputs (input :: more) } = _
    rw [settle_inputs rfl named, idle]

end Inputs

end Given

/-- Requests, and inputs behind a double dash, are read as what is settled after them. -/
theorem parse_requests {requests : List Request} {inputs : List String}
    (sound : Request.Sound requests) (named : ∀ input ∈ inputs, input ≠ "") :
    parse (requests.map Request.argument ++ "--" :: inputs) =
      .ok { (Given.ofRequests requests).arguments with inputs := inputs } := by
  have fromNone : Request.Sound ([] ++ requests) := sound
  have reading := Given.readAll_requests fromNone ("--" :: inputs)
  rw [List.nil_append, Given.readAll_inputs rfl named] at reading
  change ((Given.ofRequests []).readAll _).map Given.arguments = _
  rw [reading]
  rfl

theorem eq_toList_of_perm {α : Type} {list : List α} {one : Option α}
    (perm : list.Perm one.toList) : list = one.toList := by
  cases one with
  | none => exact List.perm_nil.1 perm
  | some a => exact List.perm_singleton.1 perm

namespace Settings.Interleaved

variable {settings : Settings} {requests : List Request}

theorem output (h : settings.Interleaved requests) :
    requests.filterMap Request.output? = settings.output.toList := by
  apply eq_toList_of_perm
  simpa [Settings.requests, Function.comp_def, Request.output?, List.filterMap_replicate] using
    h.shuffled.filterMap Request.output?

theorem colsep (h : settings.Interleaved requests) :
    requests.filterMap Request.colsep? = settings.colsep.toList := by
  apply eq_toList_of_perm
  simpa [Settings.requests, Function.comp_def, Request.colsep?, List.filterMap_replicate] using
    h.shuffled.filterMap Request.colsep?

theorem format (h : settings.Interleaved requests) :
    requests.filterMap Request.format? = settings.format.toList := by
  apply eq_toList_of_perm
  simpa [Settings.requests, Function.comp_def, Request.format?, List.filterMap_replicate] using
    h.shuffled.filterMap Request.format?

theorem list (h : settings.Interleaved requests) : requests.count .list = settings.list.toNat := by
  rw [h.shuffled.count_eq]
  simp [Settings.requests, Function.comp_def, List.count, List.countP_map, List.countP_replicate,
    beq_eq_decide]

theorem verbose (h : settings.Interleaved requests) :
    requests.count .verbose = settings.verbose := by
  rw [h.shuffled.count_eq]
  simp [Settings.requests, Function.comp_def, List.count, List.countP_map, List.countP_replicate,
    beq_eq_decide]

theorem contains_list (h : settings.Interleaved requests) :
    requests.contains .list = settings.list := by
  have count := h.list
  cases wanted : settings.list with
  | false =>
    rw [wanted] at count
    simpa using List.count_eq_zero.1 count
  | true =>
    rw [wanted] at count
    have some : 0 < requests.count .list := by
      rw [count]
      decide
    simpa using List.count_pos_iff.1 some

theorem sound (h : settings.Interleaved requests) (named : ∀ path ∈ settings.output, path ≠ "") :
    Request.Sound requests where
  output := by
    rw [h.output]
    exact Option.length_toList_le
  path path member := by
    rw [h.output, Option.mem_toList] at member
    exact named path member
  colsep := by
    rw [h.colsep]
    exact Option.length_toList_le
  list := by
    rw [h.list]
    exact Bool.toNat_le _
  format := by
    rw [h.format]
    exact Option.length_toList_le

end Settings.Interleaved

/-- All settings can be given on one command line, in any order. Arguments that make the requests
for some settings, interleaved so that the names of tables keep their order, and then a double dash
and the inputs, are read as exactly these settings and inputs. -/
theorem parse_interleaved {settings : Settings} {requests : List Request} {inputs : List String}
    (interleaved : settings.Interleaved requests)
    (namedOutput : ∀ path ∈ settings.output, path ≠ "")
    (namedInputs : ∀ input ∈ inputs, input ≠ "") :
    parse (requests.map Request.argument ++ "--" :: inputs) = .ok {
      inputs
      output := settings.output
      colsep := settings.colsep.getD ","
      included := settings.included
      excluded := settings.excluded
      list := settings.list
      format := settings.format.getD .auto
      verbose := min settings.verbose 255 } := by
  have last {α : Type} (one : Option α) : one.toList.getLast? = one := by
    cases one <;> rfl
  rw [parse_requests (interleaved.sound namedOutput) namedInputs]
  simp only [Given.arguments, Given.ofRequests, interleaved.output, interleaved.colsep,
    interleaved.included, interleaved.excluded, interleaved.contains_list, interleaved.format,
    interleaved.verbose, last, Nat.min_comm 255]
  rfl

/-- The values look like options, hold equals signs or are empty, and so do the inputs; more
messages are asked for once too often. -/
theorem parse_interleaved_odd_values :
    let settings : Settings :=
      ⟨some "--list", some "", ["-o=x", ""], ["=", "--"], true, some (.given .json), 256⟩
    let requests : List Request :=
      [.excludeTable "=", .includeTable "-o=x", .inputFormat (.given .json), .list,
        .excludeTable "--", .colsep "", .includeTable "", .output "--list"] ++
        List.replicate 256 .verbose
    let inputs : List String := ["-v", "--", "a=b"]
    settings.Interleaved requests ∧ (∀ path ∈ settings.output, path ≠ "") ∧
      (∀ input ∈ inputs, input ≠ "") ∧
      parse (["--exclude==", "--include=-o=x", "--input-format=json", "--list", "--exclude=--",
          "--colsep=", "--include=", "--output=--list"] ++ List.replicate 256 "--verbose" ++
          ["--", "-v", "--", "a=b"]) =
        .ok ⟨["-v", "--", "a=b"], some "--list", "", ["-o=x", ""], ["=", "--"], true,
          .given .json, 255⟩ := by
  intro settings requests inputs
  have interleaved : settings.Interleaved requests := by
    refine ⟨.append_right _ (by decide), ?_, ?_⟩
    · rw [List.filterMap_append, List.filterMap_replicate]
      rfl
    · rw [List.filterMap_append, List.filterMap_replicate]
      rfl
  have namedOutput : ∀ path ∈ settings.output, path ≠ "" := by
    simp [settings]
  have namedInputs : ∀ input ∈ inputs, input ≠ "" := by decide
  have read := parse_interleaved interleaved namedOutput namedInputs
  rw [List.map_append, List.map_replicate] at read
  exact ⟨interleaved, namedOutput, namedInputs, read⟩

end TraceTables.CommandLine
