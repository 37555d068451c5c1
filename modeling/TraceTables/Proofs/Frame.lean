import TraceTables.Proofs.Course

/-!
# What a run leaves alone

A run leaves everything as it is but the file that its output is stored in (`run_frame`). That file
is emptied when the output is opened, before the input is, so that nothing of what it held matters
to the run (`run_put`), and nothing of it is left if the input cannot be opened, or is this very
file, which is then read as empty (`run_content`). Every other file holds what it held.

Files are told apart by the ways to them, because several paths may lead to one file. A path leads
the same way during a run and after it: what is put at the end of a way is no folder, and there was
none before.
-/

namespace TraceTables

open CommandLine (Arguments)
open Directory

namespace Directory

variable {before after : Directory} {path : String} {way : Way} {bytes : ByteArray}

theorem content?_eq_some_iff :
    before.content? path = some bytes ↔ before.openInput path = .ok ⟨bytes, none⟩ := by
  rw [content?]
  split
  · rename_i found opened
    rw [opened]
    simp
  · rename_i other
    constructor
    · intro some
      cases some
    · intro opened
      exact absurd opened (other bytes)

/-- A path that does not lead to what has changed leads to what it led to. -/
theorem content?_of_keeps (keeps : Keeps before after)
    (same : ∀ way, before.wayTo? path = some way → after.find? way = before.find? way)
    (held : before.content? path = some bytes) : after.content? path = some bytes :=
  content?_eq_some_iff.2 (openInput_of_keeps keeps same (content?_eq_some_iff.1 held))

end Directory

namespace OutputFile

variable {directory made : Directory} {target : Target} {out : OutputFile} {way own : Way}
  {source : String} {input : Input}

theorem mem_ways (file : out.store.storage = .file way) : way ∈ out.ways := by
  obtain ⟨⟨other, content⟩ | ⟨device, content⟩, pending⟩ := out
  · cases file
    exact List.mem_cons_self
  · cases file

/-- What an output holds does not matter to where paths lead. -/
theorem keeps_fill (opened : ofTarget directory target = .ok (out, made)) (content : ByteArray) :
    Keeps directory (directory.fill content out.store.storage) := by
  rcases create_of_ofTarget opened with ⟨-, rfl, -⟩ | ⟨path, -, created⟩
  · exact .refl directory
  · obtain ⟨storage, storing, rfl⟩ := openOutput_of_create created
    rw [Store.storage_ofStorage]
    obtain ⟨folder, name, links, -, -, stored⟩ := exists_of_openOutput storing
    rcases stored with ⟨device, rfl, -⟩ | ⟨former, rfl, -⟩
    · exact .refl directory
    · exact keeps_put former

/-- No path is led elsewhere while an output is open. -/
theorem keeps_of_found (opened : ofTarget directory target = .ok (out, made)) :
    Keeps (out.found made) directory := by
  rcases create_of_ofTarget opened with ⟨-, rfl, rfl⟩ | ⟨path, -, created⟩
  · exact .refl made
  · exact (found_keeps created).1

/-- Opening an output in a file puts an empty file there. -/
theorem made_eq_put (opened : ofTarget directory target = .ok (out, made))
    (file : out.store.storage = .file way) : made = directory.put way (.file .empty) := by
  rw [fill_of_ofTarget opened, file]
  rfl

theorem find?_made (opened : ofTarget directory target = .ok (out, made))
    (file : out.store.storage = .file way) : made.find? way = some (.file .empty) := by
  rw [made_eq_put opened file]
  exact find?_put directory way _

/-- While an output is open, its file is found empty, by the number of its stream, too. -/
theorem find?_found (opened : ofTarget directory target = .ok (out, made))
    (file : out.store.storage = .file way) (among : own ∈ out.ways) :
    (out.found made).find? own = some (.file .empty) := by
  have emptied := find?_made opened file
  have held := held_of_ofTarget opened
  obtain ⟨⟨other, content⟩ | ⟨device, content⟩, pending⟩ := out
  · cases file
    obtain ⟨rfl, rfl⟩ : content = .empty ∧ pending = .empty := by
      simpa [OutputFile.held, Store.content] using held
    by_cases first : own = Surroundings.firstOpened
    · rw [first]
      exact find?_put _ _ _
    · obtain rfl : own = way := by simpa [ways, first] using among
      exact (find?_put_of_ne _ first _).trans emptied
  · cases file

/-- An input that is the output's own file is read as empty. -/
theorem openInput_of_wayTo? (opened : ofTarget directory target = .ok (out, made))
    (file : out.store.storage = .file way) (among : own ∈ out.ways)
    (there : directory.wayTo? source = some own)
    (readable : (out.found made).openInput source = .ok input) : input = ⟨.empty, none⟩ := by
  have emptied := find?_found opened file among
  have back := keeps_of_found opened
  rw [Directory.openInput] at readable
  split at readable
  · cases readable
  · rename_i located
    rw [wayTo?, locate_of_keeps back located] at there
    cases there
  · rename_i folder name slash links located
    rw [wayTo?, locate_of_keeps back located] at there
    cases there
    cases entered : Directory.entry? (out.found made) links folder name with
    | error fault =>
      rw [entered] at readable
      cases readable
    | ok node =>
      obtain rfl : some (.file .empty) = node :=
        emptied.symm.trans (find?_of_entered entered).2
      rw [entered] at readable
      cases slash <;> cases readable
      rfl

/-- An output's own file that can be read while it is open is the empty file that opening leaves. -/
theorem content?_of_found (opened : ofTarget directory target = .ok (out, made))
    (file : out.store.storage = .file way) (there : directory.wayTo? source = some way)
    (readable : (out.found made).openInput source = .ok input) :
    made.content? source = some .empty := by
  have among : way ∈ out.ways := mem_ways file
  obtain rfl := openInput_of_wayTo? opened file among there readable
  refine content?_eq_some_iff.2 (openInput_of_keeps (found_keeps_made out made) ?_ readable)
  intro other there'
  obtain rfl : way = other :=
    Option.some.inj (there.symm.trans (wayTo?_of_keeps (keeps_of_found opened) there'))
  rw [find?_found opened file among, find?_made opened file]

end OutputFile

theorem Store.accepts_of_storage {store : Store} {way : Way} (file : store.storage = .file way) :
    store.Accepts := by
  cases store with
  | file other content => exact trivial
  | device which content => cases file

/-- A file holds the rendition of the items when a conversion to it is closed. -/
theorem OutputFile.content_close_convert {directory made : Directory} {target : Target}
    {out : OutputFile} {way : Way} (opened : ofTarget directory target = .ok (out, made))
    (file : out.store.storage = .file way) (options : Options) (items : List Item) :
    (convert options out items).out.close.content =
      (Rendition.ofItems options .initial items).text.toUTF8 := by
  obtain ⟨-, grown⟩ := convert_faithful (faithful (.file way))
    ⟨Store.accepts_of_storage file, file⟩ options items
  rw [(close_stores grown.sound).2, grown.held, held_of_ofTarget opened, ByteArray.empty_append]

/-- An empty input is a recording of nothing. -/
theorem Encoding.read_empty (encoding : Encoding) : encoding.read ⟨.empty, none⟩ = ⟨[], none⟩ :=
  encoding.read_record (show ∀ event ∈ [], Binary.Fits event by simp)

section Run

variable {directory made : Directory} {invocation : Invocation} {arguments : Arguments}
  {config : Config} {out : OutputFile} {way own : Way}

/-- Only what the path of the output leads to is found otherwise after a run. -/
theorem exists_output_of_changed
    (changed : (run directory invocation).directory.find? way ≠ directory.find? way) :
    ∃ arguments path made, CommandLine.parse invocation.arguments = .ok arguments ∧
      arguments.output = some path ∧ directory.openOutput path = .ok (.file way, made) := by
  rcases unchanged_or_opened directory invocation with
    unchanged | ⟨arguments, config, out, made, parsed, configured, opened⟩
  · exact absurd (by rw [unchanged]) changed
  obtain ⟨content, left⟩ := exists_fill_of_ofTarget parsed configured opened
  have file : out.store.storage = .file way := by
    by_contra elsewhere
    exact changed (by rw [left, find?_fill directory content elsewhere])
  obtain ⟨path, target, storing⟩ := OutputFile.openOutput_of_ofTarget opened file
  obtain ⟨-, outputs⟩ := Config.names_of_ofArguments configured
  exact ⟨arguments, path, made, parsed, (outputs path).1 target, storing⟩

/-- A run does the same whatever its output file held before. -/
theorem run_put {path : String}
    (parsed : CommandLine.parse invocation.arguments = .ok arguments)
    (configured : Config.ofArguments arguments = .ok config)
    (output : arguments.output = some path)
    (opened : directory.openOutput path = .ok (.file way, made)) (bytes : ByteArray) :
    run (directory.put way (.file bytes)) invocation = run directory invocation := by
  have target : config.output = .file path :=
    ((Config.names_of_ofArguments configured).2 path).2 output
  have same : OutputFile.create (directory.put way (.file bytes)) path =
      OutputFile.create directory path := by
    rw [OutputFile.create, OutputFile.create, opened, openOutput_put opened]
  have created : OutputFile.create directory path =
      .ok (⟨.ofStorage (.file way), .empty⟩, made) := by
    rw [OutputFile.create, opened]
    rfl
  rw [run, run, parsed]
  simp only [Run.withArguments, configured, Run.withConfig, target, same, created]

/-- A run whose input is its own output leaves it empty. -/
theorem directory_of_wayTo?
    (parsed : CommandLine.parse invocation.arguments = .ok arguments)
    (configured : Config.ofArguments arguments = .ok config)
    (opened : OutputFile.ofTarget directory config.output = .ok (out, made))
    (file : out.store.storage = .file way) (among : own ∈ out.ways)
    (there : directory.wayTo? config.input = some own) :
    (run directory invocation).directory = made := by
  cases found : (out.found made).openInput config.input with
  | error cause => exact (abandoned_of_openInput parsed configured opened found).directory
  | ok input =>
    obtain rfl := OutputFile.openInput_of_wayTo? opened file among there found
    rw [directory_of_openInput parsed configured opened found, Encoding.read_empty,
      OutputFile.content_close_convert opened file, OutputFile.fill_of_ofTarget opened]
    rfl

/-- A path that does not lead to the output file of a run leads to what it led to. -/
theorem content?_run {path : String} {bytes : ByteArray}
    (held : directory.content? path = some bytes) :
    (run directory invocation).directory.content? path = some bytes ∨
      ∃ arguments output way made, CommandLine.parse invocation.arguments = .ok arguments ∧
        arguments.Suitable ∧ arguments.output = some output ∧
        directory.openOutput output = .ok (.file way, made) ∧ directory.wayTo? path = some way := by
  rcases unchanged_or_opened directory invocation with
    unchanged | ⟨arguments, config, out, made, parsed, configured, opened⟩
  · rw [unchanged]
    exact .inl held
  obtain ⟨content, left⟩ := exists_fill_of_ofTarget parsed configured opened
  by_cases own : ∃ way, out.store.storage = .file way ∧ directory.wayTo? path = some way
  · obtain ⟨way, file, there⟩ := own
    obtain ⟨output, target, storing⟩ := OutputFile.openOutput_of_ofTarget opened file
    have suitable := (Config.exists_ofArguments_iff arguments).1 ⟨config, configured⟩
    have named := ((Config.names_of_ofArguments configured).2 output).1 target
    exact .inr ⟨arguments, output, way, made, parsed, suitable, named, storing, there⟩
  · rw [left]
    refine .inl (content?_of_keeps (OutputFile.keeps_fill opened content) ?_ held)
    intro way there
    apply find?_fill
    intro file
    exact own ⟨way, file, there⟩

/-- A run that has opened its output, but cannot open its input, leaves the output empty. -/
theorem content?_of_openInput {cause : DeviceFault} {output : String}
    (parsed : CommandLine.parse invocation.arguments = .ok arguments)
    (configured : Config.ofArguments arguments = .ok config)
    (opened : OutputFile.ofTarget directory config.output = .ok (out, made))
    (refused : (out.found made).openInput config.input = .error cause)
    (named : arguments.output = some output) (file : out.store.storage = .file way) :
    (run directory invocation).directory.content? output = some .empty := by
  obtain ⟨path, target, storing⟩ := OutputFile.openOutput_of_ofTarget opened file
  have same := ((Config.names_of_ofArguments configured).2 path).1 target
  obtain rfl : output = path := by
    rw [named] at same
    exact Option.some.inj same
  have emptied := OutputFile.made_eq_put opened file
  rw [(abandoned_of_openInput parsed configured opened refused).directory, emptied]
  have stored := content?_of_openOutput storing .empty
  rw [emptied] at stored
  exact (congrArg (content? · output) (put_put directory way _ _)).symm.trans stored

theorem location_run (directory : Directory) (invocation : Invocation) :
    (run directory invocation).directory.location = directory.location := by
  rcases unchanged_or_opened directory invocation with
    unchanged | ⟨arguments, config, out, made, parsed, configured, opened⟩
  · rw [unchanged]
  · obtain ⟨content, left⟩ := exists_fill_of_ofTarget parsed configured opened
    rw [left, location_fill]

theorem abandoned_of_not_suitable
    (parsed : CommandLine.parse invocation.arguments = .ok arguments)
    (unsuitable : ¬ arguments.Suitable) : (run directory invocation).Abandoned directory := by
  cases configured : Config.ofArguments arguments with
  | error fault => exact abandoned_of_ofArguments parsed configured
  | ok config =>
    exact absurd ((Config.exists_ofArguments_iff arguments).1 ⟨config, configured⟩) unsuitable

theorem abandoned_of_openOutput {path : String} {cause : DeviceFault}
    (parsed : CommandLine.parse invocation.arguments = .ok arguments)
    (named : arguments.output = some path)
    (refused : directory.openOutput path = .error cause) :
    (run directory invocation).Abandoned directory := by
  cases configured : Config.ofArguments arguments with
  | error fault => exact abandoned_of_ofArguments parsed configured
  | ok config =>
    have target := ((Config.names_of_ofArguments configured).2 path).2 named
    apply abandoned_of_ofTarget parsed configured
    rw [target, OutputFile.ofTarget, OutputFile.create, refused]
    rfl

/-- A run touches nothing but its output file. What is found otherwise afterwards is what the path
given for the output leads to, so that nothing is if no output was given. A run whose command line
is not taken, makes no settings, or names an output that cannot be opened, leaves the directory as
it is and, unless it was asked for help or for the version, fails without having printed anything.
Once the output has been opened, the run does not depend on what the file held before: neither in
what it leaves there nor in anything else. -/
theorem run_frame (directory : Directory) (invocation : Invocation) :
    (run directory invocation).directory.location = directory.location ∧
      (∀ way, (run directory invocation).directory.find? way ≠ directory.find? way →
        ∃ arguments path, CommandLine.parse invocation.arguments = .ok arguments ∧
          arguments.output = some path ∧ directory.wayTo? path = some way) ∧
      (∀ interruption, CommandLine.parse invocation.arguments = .error interruption →
        (run directory invocation).directory = directory ∧
          ∀ error, interruption = .usage error → (run directory invocation).Abandoned directory) ∧
      ∀ arguments, CommandLine.parse invocation.arguments = .ok arguments →
        (¬ arguments.Suitable → (run directory invocation).Abandoned directory) ∧
        ∀ path, arguments.output = some path →
          (∀ cause, directory.openOutput path = .error cause →
            (run directory invocation).Abandoned directory) ∧
          ∀ way made, arguments.Suitable → directory.openOutput path = .ok (.file way, made) →
            ∀ bytes,
              run (directory.put way (.file bytes)) invocation = run directory invocation := by
  refine ⟨location_run directory invocation, ?_, fun _ parsed => run_of_interruption parsed, ?_⟩
  · intro way changed
    obtain ⟨arguments, path, made, parsed, named, opened⟩ := exists_output_of_changed changed
    exact ⟨arguments, path, parsed, named, wayTo?_of_openOutput opened⟩
  intro arguments parsed
  refine ⟨abandoned_of_not_suitable parsed, fun path named => ⟨?_, ?_⟩⟩
  · intro cause refused
    exact abandoned_of_openOutput parsed named refused
  · intro way made suitable opened
    obtain ⟨config, configured⟩ := (Config.exists_ofArguments_iff arguments).2 suitable
    exact run_put parsed configured named opened

/-- A file holds something, and a run whose input is missing is to write to it. Then an option is
unknown, there are two inputs, and the output is in no folder. -/
theorem run_frame_old_output :
    let way : Way := ⟨["w", "c"]⟩
    let directory : Directory := ⟨⟨["w"]⟩, [(way, .file "old".toUTF8)]⟩
    let leaves (arguments : List String) : Outcome :=
      run directory ⟨"trace2csv", arguments, none⟩
    (leaves ["a", "-oc"]).directory.find? way ≠ directory.find? way ∧
      (∃ arguments path, CommandLine.parse ["a", "-oc"] = .ok arguments ∧
        arguments.output = some path ∧ directory.wayTo? path = some way) ∧
      run (directory.put way (.file "other".toUTF8)) ⟨"trace2csv", ["a", "-oc"], none⟩ =
        leaves ["a", "-oc"] ∧
      (leaves ["-x"]).Abandoned directory ∧ (leaves ["a", "b", "-oc"]).Abandoned directory ∧
      (leaves ["a", "-ox/c"]).Abandoned directory := by
  intro way directory leaves
  have parsed : CommandLine.parse ["a", "-oc"] =
      .ok ⟨["a"], some "c", ",", [], [], false, .auto, 0⟩ := by cbv
  have configured : Config.ofArguments ⟨["a"], some "c", ",", [], [], false, .auto, 0⟩ =
      .ok ⟨"a", .auto, .file "c", ⟨",", .all, false⟩⟩ := by cbv
  have suitable := (Config.exists_ofArguments_iff _).1 ⟨_, configured⟩
  let made : Directory := directory.put way (.file .empty)
  have opened : directory.openOutput "c" = .ok (.file way, made) := by rfl
  have unknown : CommandLine.parse ["-x"] = .error (.usage (.unknownArgument "-x")) := by cbv
  have parsed' : CommandLine.parse ["a", "b", "-oc"] =
      .ok ⟨["a", "b"], some "c", ",", [], [], false, .auto, 0⟩ := by cbv
  have several : ¬ Arguments.Suitable ⟨["a", "b"], some "c", ",", [], [], false, .auto, 0⟩ :=
    fun suitable => absurd suitable.single (by decide)
  have parsed'' : CommandLine.parse ["a", "-ox/c"] =
      .ok ⟨["a"], some "x/c", ",", [], [], false, .auto, 0⟩ := by cbv
  have refused : directory.openOutput "x/c" = .error .notFound := by rfl
  have changed : (leaves ["a", "-oc"]).directory.find? way ≠ directory.find? way := by
    let out : OutputFile := ⟨.file way .empty, .empty⟩
    have missing : (out.found made).openInput "a" = .error .notFound := by rfl
    have target : OutputFile.ofTarget directory (.file "c") = .ok (out, made) := by rfl
    have failed : (leaves ["a", "-oc"]).Abandoned made :=
      abandoned_of_openInput parsed configured target missing
    rw [failed.directory, find?_put, show directory.find? way = some (.file "old".toUTF8) by rfl]
    intro same
    cases same
  obtain ⟨-, only, -, taken⟩ := run_frame directory ⟨"trace2csv", ["a", "-oc"], none⟩
  obtain ⟨-, -, interrupted, -⟩ := run_frame directory ⟨"trace2csv", ["-x"], none⟩
  obtain ⟨-, -, -, taken'⟩ := run_frame directory ⟨"trace2csv", ["a", "b", "-oc"], none⟩
  obtain ⟨-, -, -, taken''⟩ := run_frame directory ⟨"trace2csv", ["a", "-ox/c"], none⟩
  refine ⟨changed, only way changed, ?_, ?_, ?_, ?_⟩
  · exact ((taken _ parsed).2 "c" rfl).2 way _ suitable opened _
  · exact (interrupted _ unknown).2 _ rfl
  · exact (taken' _ parsed').1 several
  · exact ((taken'' _ parsed'').2 "x/c" rfl).1 _ refused

/-- No data is destroyed but what the output file held. Whatever a path led to before a run, it
leads to afterwards, unless that is the file that the path given for the output leads to and could
be opened. If the input cannot be opened when the output has been, the run fails, and the output
file is left empty. If the input is opened and is the output file itself, found on its way or by
the number of its stream, it is read as empty and the file is left empty, whether the run has
created it or only emptied it. -/
theorem run_content (directory : Directory) (invocation : Invocation) :
    (∀ path bytes, directory.content? path = some bytes →
      (run directory invocation).directory.content? path = some bytes ∨
        ∃ arguments output way made, CommandLine.parse invocation.arguments = .ok arguments ∧
          arguments.Suitable ∧ arguments.output = some output ∧
          directory.openOutput output = .ok (.file way, made) ∧
          directory.wayTo? path = some way) ∧
      ∀ arguments config out made, CommandLine.parse invocation.arguments = .ok arguments →
        Config.ofArguments arguments = .ok config →
        OutputFile.ofTarget directory config.output = .ok (out, made) →
        (∀ cause, (out.found made).openInput config.input = .error cause →
          (run directory invocation).Abandoned made ∧
            ∀ output way, arguments.output = some output → out.store.storage = .file way →
              (run directory invocation).directory.content? output = some .empty) ∧
        ∀ way own input, out.store.storage = .file way → own ∈ out.ways →
          directory.wayTo? config.input = some own →
          (out.found made).openInput config.input = .ok input →
          input = ⟨.empty, none⟩ ∧
            (run directory invocation).directory.find? way = some (.file .empty) ∧
            (own = way →
              (run directory invocation).directory.content? config.input = some .empty) := by
  refine ⟨fun path bytes held => content?_run held, ?_⟩
  intro arguments config out made parsed configured opened
  constructor
  · intro cause refused
    refine ⟨abandoned_of_openInput parsed configured opened refused, ?_⟩
    intro output way named file
    exact content?_of_openInput parsed configured opened refused named file
  · intro way own input file among there readable
    rw [directory_of_wayTo? parsed configured opened file among there]
    refine ⟨OutputFile.openInput_of_wayTo? opened file among there readable,
      OutputFile.find?_made opened file, ?_⟩
    rintro rfl
    exact OutputFile.content?_of_found opened file there readable

/-- Content is lost where an output is emptied although the input is missing, and where the input is
the output's own file. -/
theorem run_loses_content :
    let directory : Directory := ⟨⟨["w"]⟩, [(⟨["w", "c"]⟩, .file "old".toUTF8)]⟩
    let missing := run directory ⟨"trace2csv", ["a.json", "-o", "c"], none⟩
    let own := run directory ⟨"trace2csv", ["c", "-o", "c"], none⟩
    directory.content? "c" = some "old".toUTF8 ∧
      directory.openInput "a.json" = .error .notFound ∧ missing.success = false ∧
      missing.directory.content? "c" = some .empty ∧ own.directory.content? "c" = some .empty := by
  intro directory missing own
  let out : OutputFile := ⟨.file ⟨["w", "c"]⟩ .empty, .empty⟩
  let made : Directory := directory.put ⟨["w", "c"]⟩ (.file .empty)
  have opened : OutputFile.ofTarget directory (.file "c") = .ok (out, made) := by rfl
  have failed : missing.Abandoned made := by
    have parsed : CommandLine.parse ["a.json", "-o", "c"] =
        .ok ⟨["a.json"], some "c", ",", [], [], false, .auto, 0⟩ := by cbv
    have configured : Config.ofArguments ⟨["a.json"], some "c", ",", [], [], false, .auto, 0⟩ =
        .ok ⟨"a.json", .auto, .file "c", ⟨",", .all, false⟩⟩ := by cbv
    have refused : (out.found made).openInput "a.json" = .error .notFound := by rfl
    exact abandoned_of_openInput parsed configured opened refused
  have emptied : own.directory = made := by
    have parsed : CommandLine.parse ["c", "-o", "c"] =
        .ok ⟨["c"], some "c", ",", [], [], false, .auto, 0⟩ := by cbv
    have configured : Config.ofArguments ⟨["c"], some "c", ",", [], [], false, .auto, 0⟩ =
        .ok ⟨"c", .auto, .file "c", ⟨",", .all, false⟩⟩ := by cbv
    have same : directory.wayTo? "c" = some ⟨["w", "c"]⟩ := by rfl
    exact directory_of_wayTo? parsed configured opened rfl List.mem_cons_self same
  refine ⟨by rfl, by rfl, failed.failed, ?_, ?_⟩
  · rw [failed.directory]
    rfl
  · rw [emptied]
    rfl

/-- The input is missing, and there is a file that is neither input nor output. Then the output is
its own input: a file that was there, and one that the run creates. -/
theorem run_content_beside_others :
    let directory : Directory :=
      ⟨⟨["w"]⟩, [(⟨["w", "b"]⟩, .file "kept".toUTF8), (⟨["w", "c"]⟩, .file "old".toUTF8)]⟩
    let missing := run directory ⟨"trace2csv", ["a", "-oc"], none⟩
    let own := run directory ⟨"trace2csv", ["c", "-oc"], none⟩
    let created := run directory ⟨"trace2csv", ["d", "-od"], none⟩
    directory.content? "b" = some "kept".toUTF8 ∧
      directory.content? "c" = some "old".toUTF8 ∧ directory.content? "d" = none ∧
      missing.directory.content? "b" = some "kept".toUTF8 ∧
      missing.success = false ∧ missing.directory.content? "c" = some .empty ∧
      own.directory.content? "c" = some .empty ∧
      created.directory.find? ⟨["w", "d"]⟩ = some (.file .empty) ∧
      created.directory.content? "d" = some .empty := by
  intro directory missing own created
  let out : OutputFile := ⟨.file ⟨["w", "c"]⟩ .empty, .empty⟩
  let made : Directory := directory.put ⟨["w", "c"]⟩ (.file .empty)
  have opened : OutputFile.ofTarget directory (.file "c") = .ok (out, made) := by rfl
  have parsed : CommandLine.parse ["a", "-oc"] =
      .ok ⟨["a"], some "c", ",", [], [], false, .auto, 0⟩ := by cbv
  have configured : Config.ofArguments ⟨["a"], some "c", ",", [], [], false, .auto, 0⟩ =
      .ok ⟨"a", .auto, .file "c", ⟨",", .all, false⟩⟩ := by cbv
  have refused : (out.found made).openInput "a" = .error .notFound := by rfl
  have parsed' : CommandLine.parse ["c", "-oc"] =
      .ok ⟨["c"], some "c", ",", [], [], false, .auto, 0⟩ := by cbv
  have configured' : Config.ofArguments ⟨["c"], some "c", ",", [], [], false, .auto, 0⟩ =
      .ok ⟨"c", .auto, .file "c", ⟨",", .all, false⟩⟩ := by cbv
  have readable : (out.found made).openInput "c" = .ok ⟨.empty, none⟩ := by rfl
  let out' : OutputFile := ⟨.file ⟨["w", "d"]⟩ .empty, .empty⟩
  let made' : Directory := directory.put ⟨["w", "d"]⟩ (.file .empty)
  have opened' : OutputFile.ofTarget directory (.file "d") = .ok (out', made') := by rfl
  have parsed'' : CommandLine.parse ["d", "-od"] =
      .ok ⟨["d"], some "d", ",", [], [], false, .auto, 0⟩ := by cbv
  have configured'' : Config.ofArguments ⟨["d"], some "d", ",", [], [], false, .auto, 0⟩ =
      .ok ⟨"d", .auto, .file "d", ⟨",", .all, false⟩⟩ := by cbv
  have readable' : (out'.found made').openInput "d" = .ok ⟨.empty, none⟩ := by rfl
  have beside : directory.content? "b" = some "kept".toUTF8 := by rfl
  obtain ⟨spared, opens⟩ := run_content directory ⟨"trace2csv", ["a", "-oc"], none⟩
  obtain ⟨fails, -⟩ := opens _ _ out made parsed configured opened
  obtain ⟨failed, emptied⟩ := fails _ refused
  obtain ⟨-, opens'⟩ := run_content directory ⟨"trace2csv", ["c", "-oc"], none⟩
  obtain ⟨-, own'⟩ := opens' _ _ out made parsed' configured' opened
  obtain ⟨-, -, left⟩ := own' _ _ _ rfl List.mem_cons_self (by rfl) readable
  obtain ⟨-, opens''⟩ := run_content directory ⟨"trace2csv", ["d", "-od"], none⟩
  obtain ⟨-, created'⟩ := opens'' _ _ out' made' parsed'' configured'' opened'
  obtain ⟨-, found, left'⟩ := created' _ _ _ rfl List.mem_cons_self (by rfl) readable'
  refine ⟨beside, by rfl, by rfl, ?_, failed.failed, emptied "c" _ rfl rfl, left rfl, found,
    left' rfl⟩
  rcases spared _ _ beside with same | ⟨arguments, output, way, other, taken, -, named, stored,
    there⟩
  · exact same
  · cases parsed.symm.trans taken
    cases named
    cases stored
    cases there

end Run

end TraceTables
