import TraceTables.Proofs.Run

/-!
# The course of a run

A run takes its command line, makes settings of it, opens its output and then its input, converts
the one into the other and closes the output. For each of these steps there is a lemma on what is
left by a run that gets no further.

Up to the output nothing is changed. Opening the output empties a file, and closing it fills the
same file: where an output is stored is settled when it is opened, and neither writing nor flushing
changes that, whether it fails or not (`OutputFile.fixed`). So a run changes at most what is stored
at one place (`exists_fill_of_ofTarget`).
-/

namespace TraceTables

/-- A part of a sink that neither writing nor flushing changes. -/
structure Sink.Fixed {σ α : Type} [Sink σ] (part : σ → α) : Prop where
  write (octets : ByteArray) (out : σ) : part (Sink.write octets out).2 = part out
  flush (out : σ) : part (Sink.flush out).2 = part out

section Conversion

variable {σ α : Type} [Sink σ] {part : σ → α}

namespace Renderer

theorem perform_fixed (fixed : Sink.Fixed part) (plan : List Action) (renderer : Renderer σ) :
    part (renderer.perform plan).2.out = part renderer.out := by
  induction plan generalizing renderer with
  | nil => rfl
  | cons action plan ih =>
    cases action with
    | reach progress => exact ih _
    | discard name => exact ih _
    | write text =>
      have written := fixed.write text.toUTF8 renderer.out
      rw [perform]
      cases attempt : Sink.writeText text renderer.out with
      | mk result out =>
        rw [show Sink.write text.toUTF8 renderer.out = (result, out) from attempt] at written
        cases result with
        | ok => exact (ih _).trans written
        | error fault => exact written

theorem take_fixed (fixed : Sink.Fixed part) (item : Item) (renderer : Renderer σ) :
    part (renderer.take item).2.out = part renderer.out := by
  cases item with
  | error fault => rfl
  | ok event =>
    rw [take, handle]
    split
    · exact perform_fixed fixed _ renderer
    · rfl

theorem takeAll_fixed (fixed : Sink.Fixed part) (items : List Item) (renderer : Renderer σ) :
    part (renderer.takeAll items).2.out = part renderer.out := by
  induction items generalizing renderer with
  | nil => rfl
  | cons item more ih =>
    have taken := take_fixed fixed item renderer
    rw [takeAll]
    split
    · rename_i next success
      rw [success] at taken
      exact (ih next).trans taken
    · rename_i failure
      rw [failure] at taken
      exact taken

theorem finish_fixed (fixed : Sink.Fixed part) (renderer : Renderer σ) :
    part renderer.finish.2.out = part renderer.out := by
  have flushed := fixed.flush renderer.out
  rw [finish, flush]
  cases attempt : Sink.flush renderer.out with
  | mk result out =>
    rw [attempt] at flushed
    cases result with
    | ok => exact flushed
    | error fault => exact flushed

end Renderer

/-- A conversion leaves alone what writing and flushing do, however it ends. -/
theorem convert_fixed (fixed : Sink.Fixed part) (options : Options) (out : σ)
    (items : List Item) : part (convert options out items).out = part out := by
  have taken := Renderer.takeAll_fixed fixed items (.new options out)
  rw [convert]
  split
  · rename_i fault renderer failure
    rw [failure] at taken
    have flushed := fixed.flush renderer.out
    split
    · rename_i given
      rw [given] at flushed
      exact flushed.trans taken
    · rename_i given
      rw [given] at flushed
      exact flushed.trans taken
  · rename_i renderer success
    rw [success] at taken
    exact (Renderer.finish_fixed fixed renderer).trans taken

end Conversion

theorem Store.storage_append {store next : Store} {bytes : ByteArray}
    (handed : store.append bytes = .ok next) : next.storage = store.storage := by
  cases store with
  | file way content =>
    cases handed
    rfl
  | device which content =>
    rw [append] at handed
    split at handed
    · split at handed
      · cases handed
        rfl
      · cases handed
    · cases handed
      rfl

namespace OutputFile

theorem storage_drain (out : OutputFile) : out.drain.2.store.storage = out.store.storage := by
  rw [drain]
  split
  · exact Store.storage_append ‹_›
  · rfl

theorem storage_keep (bytes : ByteArray) (out : OutputFile) :
    (out.keep bytes).2.store.storage = out.store.storage := by
  rw [keep]
  split
  · rfl
  split
  · exact Store.storage_append ‹_›
  · rfl

theorem storage_write (bytes : ByteArray) (out : OutputFile) :
    (out.write bytes).2.store.storage = out.store.storage := by
  have drained := out.storage_drain
  rw [write]
  split
  · rfl
  split
  · exact out.storage_keep bytes
  split
  · rename_i next given
    rw [given] at drained
    exact (next.storage_keep bytes).trans drained
  · rename_i given
    rw [given] at drained
    exact drained

/-- Where an output is stored never changes. -/
theorem fixed : Sink.Fixed fun out : OutputFile => out.store.storage where
  write := storage_write
  flush := storage_drain

end OutputFile

namespace Directory

/-- The directory with nothing else changed than what is stored at one place. -/
def fill (directory : Directory) (content : ByteArray) : Storage → Directory
  | .file way => directory.put way (.file content)
  | .device _ => directory

variable {directory made : Directory} {storage : Storage} {path : String} {way : Way}

/-- Of two nodes that are put at the end of a way, the later one stays. -/
@[simp] theorem put_put (directory : Directory) (way : Way) (first second : Node) :
    (directory.put way first).put way second = directory.put way second := by
  simp [put]

@[simp] theorem fill_fill (directory : Directory) (first second : ByteArray) (storage : Storage) :
    (directory.fill first storage).fill second storage = directory.fill second storage := by
  cases storage with
  | file way => exact put_put directory way _ _
  | device device => rfl

theorem location_fill (directory : Directory) (content : ByteArray) (storage : Storage) :
    (directory.fill content storage).location = directory.location := by
  cases storage <;> rfl

/-- What is not stored at the place is found as it was. -/
theorem find?_fill (directory : Directory) (content : ByteArray)
    (elsewhere : storage ≠ .file way) :
    (directory.fill content storage).find? way = directory.find? way := by
  cases storage with
  | device device => rfl
  | file other =>
    apply find?_put_of_ne
    rintro rfl
    exact elsewhere rfl

/-- Opening an output empties it and changes nothing else. -/
theorem fill_of_openOutput (opened : directory.openOutput path = .ok (storage, made)) :
    made = directory.fill .empty storage := by
  obtain ⟨folder, name, links, -, -, stored⟩ := exists_of_openOutput opened
  rcases stored with ⟨device, rfl, rfl⟩ | ⟨-, rfl, rfl⟩
  · rfl
  · rfl

/-- An output in a file is stored where its path leads. -/
theorem wayTo?_of_openOutput (opened : directory.openOutput path = .ok (.file way, made)) :
    directory.wayTo? path = some way := by
  obtain ⟨folder, name, links, located, -, stored⟩ := exists_of_openOutput opened
  rcases stored with ⟨device, other, -⟩ | ⟨-, same, -⟩
  · cases other
  · cases same
    rw [wayTo?, located]

/-- An output that can be opened can be opened whatever it holds, with the same result. -/
theorem openOutput_put (opened : directory.openOutput path = .ok (.file way, made))
    (bytes : ByteArray) :
    (directory.put way (.file bytes)).openOutput path = .ok (.file way, made) := by
  obtain ⟨folder, name, links, located, short, stored⟩ := exists_of_openOutput opened
  rcases stored with ⟨device, other, -⟩ | ⟨former, same, rfl⟩
  · cases other
  cases same
  rw [openOutput, locate_of_keeps (keeps_put former) located]
  unfold entry?
  simp [short, reach, emptied]

end Directory

open Directory

theorem Store.save_eq_fill (store : Store) (directory : Directory) :
    store.save directory = directory.fill store.content store.storage := by
  cases store <;> rfl

/-- Opening the output of a run empties it and changes nothing else. -/
theorem OutputFile.fill_of_ofTarget {directory made : Directory} {target : Target}
    {out : OutputFile} (opened : ofTarget directory target = .ok (out, made)) :
    made = directory.fill .empty out.store.storage := by
  rcases create_of_ofTarget opened with ⟨-, rfl, rfl⟩ | ⟨path, -, created⟩
  · rfl
  · obtain ⟨storage, storing, rfl⟩ := openOutput_of_create created
    rw [Store.storage_ofStorage]
    exact fill_of_openOutput storing

/-- Whether settings can be made of a command line: it names one input, every sequence in its
separator stands for something, and it does not name both tables to include and tables to
exclude. -/
structure CommandLine.Arguments.Suitable (arguments : Arguments) : Prop where
  single : arguments.inputs.length = 1
  expands : ∃ separator, Separator.expand arguments.colsep = .ok separator
  filters : arguments.included = [] ∨ arguments.excluded = []

namespace Config

variable {arguments : CommandLine.Arguments} {config : Config}

theorem soleInput_eq_ok_iff {inputs : List String} {input : String} :
    soleInput inputs = .ok input ↔ inputs = [input] := by
  rcases inputs with _ | ⟨first, _ | ⟨second, more⟩⟩ <;> simp [soleInput]

theorem exists_soleInput_iff (inputs : List String) :
    (∃ input, soleInput inputs = .ok input) ↔ inputs.length = 1 := by
  simp only [soleInput_eq_ok_iff, List.length_eq_one_iff]

theorem exists_separator_iff (typed : String) :
    (∃ found, separator typed = .ok found) ↔ ∃ found, Separator.expand typed = .ok found := by
  rw [separator]
  cases Separator.expand typed <;> simp [Except.mapError]

theorem exists_filter_iff (included excluded : List String) :
    (∃ found, filter included excluded = .ok found) ↔ included = [] ∨ excluded = [] := by
  cases included <;> cases excluded <;> simp [filter, Filter.ofLists?]

/-- Settings are made of the parts of a command line, each by itself. -/
theorem ofArguments_eq_ok_iff :
    ofArguments arguments = .ok config ↔
      soleInput arguments.inputs = .ok config.input ∧
        separator arguments.colsep = .ok config.options.separator ∧
        filter arguments.included arguments.excluded = .ok config.options.filter ∧
        arguments.format = config.format ∧ arguments.list = config.options.namesOnly ∧
        arguments.output.elim .standardOutput .file = config.output := by
  obtain ⟨input, format, output, between, tables, namesOnly⟩ := config
  rw [ofArguments]
  cases soleInput arguments.inputs with
  | error fault => simp [bind, Except.bind]
  | ok sole =>
    cases separator arguments.colsep with
    | error fault => simp [bind, Except.bind]
    | ok expanded =>
      cases filter arguments.included arguments.excluded with
      | error fault => simp [bind, Except.bind]
      | ok chosen =>
        simp only [bind, Except.bind, pure, Except.pure, Except.ok.injEq, Config.mk.injEq,
          Options.mk.injEq]
        tauto

/-- The settings name the only input and the output of the command line. -/
theorem names_of_ofArguments (configured : ofArguments arguments = .ok config) :
    arguments.inputs = [config.input] ∧
      ∀ path, config.output = .file path ↔ arguments.output = some path := by
  obtain ⟨sole, -, -, -, -, output⟩ := ofArguments_eq_ok_iff.1 configured
  refine ⟨soleInput_eq_ok_iff.1 sole, fun path => ?_⟩
  rw [← output]
  cases arguments.output <;> simp

theorem exists_ofArguments_iff (arguments : CommandLine.Arguments) :
    (∃ config, ofArguments arguments = .ok config) ↔ arguments.Suitable := by
  constructor
  · rintro ⟨config, configured⟩
    obtain ⟨sole, expanded, chosen, -⟩ := ofArguments_eq_ok_iff.1 configured
    exact ⟨(exists_soleInput_iff _).1 ⟨_, sole⟩, (exists_separator_iff _).1 ⟨_, expanded⟩,
      (exists_filter_iff _ _).1 ⟨_, chosen⟩⟩
  · rintro ⟨single, expands, filters⟩
    obtain ⟨input, sole⟩ := (exists_soleInput_iff _).2 single
    obtain ⟨between, expanded⟩ := (exists_separator_iff _).2 expands
    obtain ⟨tables, chosen⟩ := (exists_filter_iff _ _).2 filters
    exact ⟨⟨input, _, _, ⟨between, tables, _⟩⟩,
      ofArguments_eq_ok_iff.2 ⟨sole, expanded, chosen, rfl, rfl, rfl⟩⟩

end Config

/-- Whether a run has failed without having written anything, and leaves the given directory. -/
structure Outcome.Abandoned (outcome : Outcome) (left : Directory) : Prop where
  directory : outcome.directory = left
  printed : outcome.printed = .empty
  failed : outcome.success = false

section Course

open CommandLine (Arguments)

variable {directory made : Directory} {invocation : Invocation} {arguments : Arguments}
  {config : Config} {out : OutputFile}

/-- What a run leaves whose command line is not taken. -/
theorem run_of_interruption {interruption : CommandLine.Interruption}
    (parsed : CommandLine.parse invocation.arguments = .error interruption) :
    (run directory invocation).directory = directory ∧
      ∀ error, interruption = .usage error → (run directory invocation).Abandoned directory := by
  rw [run, parsed]
  cases interruption with
  | help long => exact ⟨rfl, by simp⟩
  | version => exact ⟨rfl, by simp⟩
  | usage error => exact ⟨rfl, fun _ _ => ⟨rfl, rfl, rfl⟩⟩

/-- What a run leaves whose command line is taken. -/
theorem run_of_parsed (directory : Directory)
    (parsed : CommandLine.parse invocation.arguments = .ok arguments) :
    (run directory invocation).directory = (Run.withArguments arguments directory).directory ∧
      (run directory invocation).printed =
        (Run.withArguments arguments directory).arrivedAt .standardOutput ∧
      (run directory invocation).success =
        (Run.withArguments arguments directory).fault.isNone := by
  rw [run, parsed]
  exact ⟨rfl, rfl, rfl⟩

/-- A run that ends with a fault and without an output is abandoned. -/
theorem abandoned_of_withArguments
    (parsed : CommandLine.parse invocation.arguments = .ok arguments)
    (ended : ∃ fault messages,
      Run.withArguments arguments directory = ⟨some fault, messages, none, made⟩) :
    (run directory invocation).Abandoned made := by
  obtain ⟨fault, messages, ended⟩ := ended
  obtain ⟨left, printed, success⟩ := run_of_parsed directory parsed
  rw [ended] at left printed success
  exact ⟨left, printed, success⟩

/-- A run without settings does nothing. -/
theorem abandoned_of_ofArguments {fault : Fault}
    (parsed : CommandLine.parse invocation.arguments = .ok arguments)
    (rejected : Config.ofArguments arguments = .error fault) :
    (run directory invocation).Abandoned directory := by
  apply abandoned_of_withArguments parsed
  rw [Run.withArguments, rejected]
  exact ⟨_, _, rfl⟩

/-- A run whose output cannot be opened does nothing. -/
theorem abandoned_of_ofTarget {cause : DeviceFault}
    (parsed : CommandLine.parse invocation.arguments = .ok arguments)
    (configured : Config.ofArguments arguments = .ok config)
    (refused : OutputFile.ofTarget directory config.output = .error cause) :
    (run directory invocation).Abandoned directory := by
  cases target : config.output with
  | standardOutput =>
    rw [target] at refused
    cases refused
  | file path =>
    rw [target] at refused
    apply abandoned_of_withArguments parsed
    rw [Run.withArguments, configured]
    simp only [Run.withConfig, target, show OutputFile.create directory path = _ from refused]
    exact ⟨_, _, rfl⟩

/-- A run whose input cannot be opened leaves the directory as it is when the output is open. -/
theorem abandoned_of_openInput {cause : DeviceFault}
    (parsed : CommandLine.parse invocation.arguments = .ok arguments)
    (configured : Config.ofArguments arguments = .ok config)
    (opened : OutputFile.ofTarget directory config.output = .ok (out, made))
    (refused : (out.found made).openInput config.input = .error cause) :
    (run directory invocation).Abandoned made := by
  obtain ⟨messages, ended⟩ := Run.withConfig_of_ofTarget opened
  apply abandoned_of_withArguments parsed
  rw [Run.withArguments, configured]
  simp only [ended, Run.withOutput, refused]
  exact ⟨_, _, rfl⟩

/-- A run whose input can be opened leaves what is stored when the output is closed. -/
theorem directory_of_openInput {input : Input}
    (parsed : CommandLine.parse invocation.arguments = .ok arguments)
    (configured : Config.ofArguments arguments = .ok config)
    (opened : OutputFile.ofTarget directory config.output = .ok (out, made))
    (found : (out.found made).openInput config.input = .ok input) :
    (run directory invocation).directory =
      directory.fill
        (convert config.options out
          ((config.format.resolve config.input).read input).items).out.close.content
        out.store.storage := by
  obtain ⟨messages, ended⟩ := Run.withConfig_of_ofTarget opened
  obtain ⟨fault, messages', converted, -⟩ := Run.convertInput_eq config input out made
  have same := convert_fixed OutputFile.fixed config.options out
    ((config.format.resolve config.input).read input).items
  rw [(run_of_parsed directory parsed).1, Run.withArguments, configured]
  simp only [ended, Run.withOutput, found, converted]
  rw [Store.save_eq_fill, OutputFile.close, OutputFile.storage_drain, same,
    OutputFile.fill_of_ofTarget opened, fill_fill]

/-- A run that has opened its output changes nothing else. -/
theorem exists_fill_of_ofTarget
    (parsed : CommandLine.parse invocation.arguments = .ok arguments)
    (configured : Config.ofArguments arguments = .ok config)
    (opened : OutputFile.ofTarget directory config.output = .ok (out, made)) :
    ∃ content, (run directory invocation).directory =
      directory.fill content out.store.storage := by
  cases found : (out.found made).openInput config.input with
  | error cause =>
    have left := (abandoned_of_openInput parsed configured opened found).directory
    exact ⟨.empty, left.trans (OutputFile.fill_of_ofTarget opened)⟩
  | ok input => exact ⟨_, directory_of_openInput parsed configured opened found⟩

/-- A run leaves the directory as it is unless it gets as far as opening its output. -/
theorem unchanged_or_opened (directory : Directory) (invocation : Invocation) :
    (run directory invocation).directory = directory ∨
      ∃ arguments config out made, CommandLine.parse invocation.arguments = .ok arguments ∧
        Config.ofArguments arguments = .ok config ∧
        OutputFile.ofTarget directory config.output = .ok (out, made) := by
  cases parsed : CommandLine.parse invocation.arguments with
  | error interruption => exact .inl (run_of_interruption parsed).1
  | ok arguments =>
    cases configured : Config.ofArguments arguments with
    | error fault => exact .inl (abandoned_of_ofArguments parsed configured).directory
    | ok config =>
      cases opened : OutputFile.ofTarget directory config.output with
      | error cause => exact .inl (abandoned_of_ofTarget parsed configured opened).directory
      | ok pair => exact .inr ⟨arguments, config, pair.1, pair.2, rfl, configured, opened⟩

end Course

end TraceTables
