import SchemaScribe.Proofs.Runs

/-! A run changes the files only when everything that the output is made of is there. It then opens the output, which
empties it, and fills it if the code can be encoded; nothing else changes. It reports that it is done exactly if the
output has been filled and the report can be shown. -/

namespace SchemaScribe
open FileTree (Writable Written SameElsewhere isTooLong)

/-- The run ends by reporting that the code has been generated. -/
def Report.IsDone (report : Report) : Prop :=
  report.exitCode = 0 ∧ ∃ shown path,
    report.transcript.stdout = shown ++ Text.plainText ("Done! Generated code in " ++ path) ++ "\n"

/-- The command line asks for code, and everything that the code is made of is there. -/
structure World.Generation (world : World) (arguments : List String) where
  request : GenerateRequest
  settings : Settings
  schema : Schema
  document : Document
  formatted : String
  code : String
  asked : Request.parse world.pathExists arguments = .ok (.generate request)
  configured : request.settings world = .ok settings
  read : Schema.load world.tree world.directory (request.schemaPath world) = .ok schema
  written : settings.write schema = .ok document
  formats : request.Formats world document.text formatted
  headed : code = GenerateRequest.headed (request.header.getD "") formatted
  shown : request.Shown world settings schema code

theorem Failure.exitCode_ne_zero (failure : Failure) : failure.exitCode ≠ 0 := by
  cases failure with
  | usage error => cases error <;> exact nofun
  | _ => exact nofun

theorem Report.not_isDone_of_error (failure : Failure) (progress : Progress) :
    ¬(Report.ofRun (.error failure, progress)).IsDone :=
  fun done => failure.exitCode_ne_zero done.1

/-- What the report is recognized by. -/
theorem Report.IsDone.mark {report : Report} (done : report.IsDone) : '!' ∈ report.transcript.stdout.toList := by
  obtain ⟨-, shown, path, ends⟩ := done
  rw [ends, Text.plainText_append (by decide)]
  simp

namespace Run

theorem run_say {world : World} {line : String} (shows : world.shows line) (progress : Progress) :
    (say world line).run.run progress = (.ok (), { progress with transcript := { progress.transcript with
      stdout := progress.transcript.stdout ++ Text.plainText line ++ "\n" } }) := by
  rw [say, shows]
  rfl

theorem run_say_of_hidden {world : World} {line : String} (hidden : ¬world.shows line) (progress : Progress) :
    (say world line).run.run progress = (.error .unencodable, progress) := by
  rw [Bool.not_eq_true] at hidden
  rw [say, hidden]
  rfl

/-- Lines without a character do not bring it in, and they leave the files alone. -/
theorem forM_say_lacks {world : World} {c : Char} (other : c ≠ '\n') {lines : List String}
    (lacks : ∀ line ∈ lines, world.shows line ∧ c ∉ (Text.plainText line).toList) {before : Progress}
    (start : c ∉ before.transcript.stdout.toList) :
    ∃ after, (lines.forM (say world)).run.run before = (.ok (), after) ∧ after.tree = before.tree ∧
      c ∉ after.transcript.stdout.toList := by
  induction lines generalizing before with
  | nil => exact ⟨before, rfl, rfl, start⟩
  | cons line rest ih =>
    obtain ⟨⟨shows, here⟩, later⟩ := List.forall_mem_cons.mp lacks
    rw [List.forM, run_bind_of_ok (run_say shows before)]
    apply ih later
    simpa using ⟨start, here, other⟩

theorem run_attempt_of_ok {toFailure : ε → Failure} {outcome : Except ε α} {value : α} (done : outcome = .ok value)
    (progress : Progress) : (attempt toFailure outcome).run.run progress = (.ok value, progress) := by
  rw [done]
  rfl

theorem run_attempt_of_error {toFailure : ε → Failure} {outcome : Except ε α} {error : ε}
    (failed : outcome = .error error) (progress : Progress) :
    (attempt toFailure outcome).run.run progress = (.error (toFailure error), progress) := by
  rw [failed]
  rfl

theorem onFiles_of_ok {access : FileAccess α} {progress : Progress} {value : α} {tree : FileTree}
    (done : access.run.run progress.tree = (.ok value, tree)) :
    (onFiles access).run.run progress = (.ok value, { progress with tree }) := by
  rw [onFiles, run_bind_of_ok (run_get progress), done]
  rfl

theorem onFiles_of_error {access : FileAccess α} {progress : Progress} {refusal : AccessError} {tree : FileTree}
    (refused : access.run.run progress.tree = (.error refusal, tree)) :
    (onFiles access).run.run progress = (.error (.output refusal), { progress with tree }) := by
  rw [onFiles, run_bind_of_ok (run_get progress), refused]
  rfl

end Run

/-- The text that is shown for an option of the program itself does not look like the report. -/
theorem Request.execute_lacks (world : World) {request : Request} (other : ∀ asked, request ≠ .generate asked) :
    ∃ after, (request.execute world).run.run { tree := world.tree } = (.ok (), after) ∧ after.tree = world.tree ∧
      '!' ∉ after.transcript.stdout.toList := by
  have shown {lines : List String}
      (ascii : lines.all fun line => line.toList.all fun c => c ≠ '\x1b' ∧ c.toNat < 0x80)
      (unmarked : lines.all fun line => !line.toList.contains '!') :
      ∃ after, (lines.forM (Run.say world)).run.run { tree := world.tree } = (.ok (), after) ∧
        after.tree = world.tree ∧ '!' ∉ after.transcript.stdout.toList := by
    refine Run.forM_say_lacks (by decide) (fun line member => ?_) List.not_mem_nil
    have each := List.all_eq_true.mp ascii line member
    refine ⟨World.showLine_eq_ok_iff.mp (world.showLine_of_ascii each), ?_⟩
    rw [Text.plainText_eq_self fun escape => by simpa using List.all_eq_true.mp each _ escape]
    simpa using List.all_eq_true.mp unmarked line member
  cases request with
  | version =>
    have alone : Run.say world versionLine = [versionLine].forM (Run.say world) := (bind_pure _).symm
    rw [execute, alone]
    exact shown (by decide) (by decide)
  | help => exact shown (by decide) (by decide)
  | generate asked => exact absurd rfl (other asked)

theorem Process.formatter_eq_ok_iff {process : Process} {standIns : StandIns} {call : FormatterCall} {output : String} :
    process.formatter standIns call = .ok output ↔ standIns.isText call.input ∧
      ∃ printed, process call.command call.input.toUTF8 = .ok printed ∧ decodeText? printed = some output := by
  rw [formatter, StandIns.encode?]
  cases standIns.isText call.input with
  | false => simp
  | true =>
    simp only [if_true, true_and]
    cases process call.command call.input.toUTF8 with
    | error failure => simp [bind, Except.bind]
    | ok printed =>
      rw [ok_bind]
      cases decoded : decodeText? printed with
      | none => simp [decoded]
      | some text => simp [decoded, pure, Except.pure]

namespace World

variable {world : World} {arguments : List String}

namespace Generation

def location (made : world.Generation arguments) : List String :=
  made.request.outputLocation world

theorem coded (made : world.Generation arguments) : made.request.code world = .ok made.code :=
  GenerateRequest.code_eq_ok_iff.mpr ⟨made.settings, made.schema, made.document, made.formatted, made.configured,
    made.read, made.written, made.formats, made.shown, made.headed⟩

/-- Once there is code, the rest of the run is about the output. -/
theorem run_eq (made : world.Generation arguments) :
    ∃ transcript, world.run arguments = .ofRun ((do
      Run.onFiles (FileAccess.openOutput made.location)
      let content ← Run.attempt id (world.encode made.code)
      Run.onFiles (FileAccess.fillFile content made.location)
      Run.say world (made.request.doneLine world) : Run Unit).run.run { transcript, tree := world.tree }) := by
  obtain ⟨transcript, generated⟩ := made.request.generate_yields world { tree := world.tree }
  rw [made.coded] at generated
  refine ⟨transcript, ?_⟩
  rw [run_of_parse made.asked, Request.execute, GenerateRequest.execute, run_bind_of_ok generated]
  rfl

theorem exists_of_code {request : GenerateRequest}
    (asked : Request.parse world.pathExists arguments = .ok (.generate request)) {code : String}
    (coded : request.code world = .ok code) :
    ∃ made : world.Generation arguments, made.request = request ∧ made.code = code := by
  obtain ⟨settings, schema, document, formatted, configured, read, written, formats, shown, headed⟩ :=
    GenerateRequest.code_eq_ok_iff.mp coded
  exact ⟨⟨request, settings, schema, document, formatted, code, asked, configured, read, written, formats, headed,
    shown⟩, rfl, rfl⟩

/-- What is printed by a program is formatted code as soon as it has been decoded. -/
theorem printed (made : world.Generation arguments) {process : Process}
    (runs : world.formatter = process.formatter world.standIns) (format : made.request.format) :
    world.standIns.isText made.document.text ∧
      ∃ printed, process ["scalafmt", "--stdin", "--non-interactive"] made.document.text.toUTF8 = .ok printed ∧
        decodeText? printed = some made.formatted := by
  have formats := made.formats
  rw [GenerateRequest.Formats, if_pos format, runs] at formats
  exact Process.formatter_eq_ok_iff.mp formats

end Generation

/-- What the output is left with once it has been opened: the code, or nothing if the code cannot be encoded. -/
def delivered (world : World) (code : String) : ByteArray :=
  if world.standIns.isText code then code.toUTF8 else .empty

theorem delivered_of_isText {code : String} (text : world.standIns.isText code) : world.delivered code = code.toUTF8 :=
  if_pos text

theorem delivered_of_not_isText {code : String} (undecoded : ¬world.standIns.isText code) :
    world.delivered code = .empty :=
  if_neg undecoded

/-- Everything is there and the output can be opened, so the run comes to its last steps. -/
structure Delivers (made : world.Generation arguments) (report : Report) : Prop where
  done_iff : report.IsDone ↔ world.standIns.isText made.code ∧ world.shows (made.request.doneLine world)
  failed : ¬report.IsDone → report.failure = some .unencodable
  written : Written (world.delivered made.code) made.location world.tree report.tree

open FileAccess (openOutput fillFile_of_opened) in
theorem delivers_of_opened (made : world.Generation arguments) {opened : FileTree}
    (ended : (openOutput made.location).run.run world.tree = (.ok (), opened))
    (short : ∀ name ∈ made.location, ¬isTooLong name) (holds : Written .empty made.location world.tree opened) :
    Delivers made (world.run arguments) := by
  obtain ⟨transcript, ran⟩ := made.run_eq
  rw [ran, run_bind_of_ok (Run.onFiles_of_ok ended)]
  -- The output is there and empty from here on, and no failure takes it away again.
  have encoded := world.encode_eq made.code
  by_cases text : world.standIns.isText made.code
  · rw [if_pos text] at encoded
    obtain ⟨after, filled, written⟩ := fillFile_of_opened holds short made.code.toUTF8
    rw [run_bind_of_ok (Run.run_attempt_of_ok encoded _), run_bind_of_ok (Run.onFiles_of_ok filled)]
    rw [← delivered_of_isText text] at written
    by_cases shows : world.shows (made.request.doneLine world)
    · rw [Run.run_say shows]
      refine ⟨iff_of_true ?done ⟨text, shows⟩, absurd ?done, written⟩
      exact ⟨rfl, transcript.stdout, _, rfl⟩
    · rw [Run.run_say_of_hidden shows]
      have notDone := Report.not_isDone_of_error .unencodable { transcript, tree := after }
      exact ⟨iff_of_false notDone fun both => shows both.2, fun _ => rfl, written⟩
  · rw [if_neg text] at encoded
    rw [run_bind_of_error (Run.run_attempt_of_error encoded _)]
    have notDone := Report.not_isDone_of_error .unencodable { transcript, tree := opened }
    rw [← delivered_of_not_isText text] at holds
    exact ⟨iff_of_false notDone fun both => text both.1, fun _ => rfl, holds⟩

/-- The ways in which a run can end. -/
inductive Outcome (world : World) (arguments : List String) (report : Report) : Prop
  | untouched (notDone : ¬report.IsDone) (same : report.tree = world.tree)
  | tooLong (request : GenerateRequest) (notDone : ¬report.IsDone)
      (failed : report.failure = some (.output .nameTooLong))
      (asked : Request.parse world.pathExists arguments = .ok (.generate request))
      (long : ∃ name ∈ request.outputLocation world, isTooLong name)
      (elsewhere : SameElsewhere (request.outputLocation world) world.tree report.tree)
  | delivered (made : world.Generation arguments) (writable : Writable made.location world.tree)
      (delivers : Delivers made report)

theorem outcome_of_generate {request : GenerateRequest}
    (asked : Request.parse world.pathExists arguments = .ok (.generate request)) :
    world.Outcome arguments (world.run arguments) := by
  cases coded : request.code world with
  | error failure =>
    obtain ⟨transcript, ran⟩ := GenerateRequest.execute_of_code_error coded { tree := world.tree }
    rw [run_of_parse asked, Request.execute, ran]
    exact .untouched (Report.not_isDone_of_error _ _) rfl
  | ok code =>
    obtain ⟨made, rfl, rfl⟩ := Generation.exists_of_code asked coded
    obtain ⟨transcript, ran⟩ := made.run_eq
    have opening := FileAccess.openOutput_opening made.location world.tree
    generalize ended : (FileAccess.openOutput made.location).run.run world.tree = result at opening
    cases opening with
    | opened writable short opened => exact .delivered made writable (delivers_of_opened made ended short opened)
    | blocked refusal blocked =>
      rw [ran, run_bind_of_error (Run.onFiles_of_error ended)]
      exact .untouched (Report.not_isDone_of_error _ _) rfl
    | tooLong long elsewhere =>
      rw [ran, run_bind_of_error (Run.onFiles_of_error ended)]
      exact .tooLong made.request (Report.not_isDone_of_error _ _) rfl asked long elsewhere

theorem outcome (world : World) (arguments : List String) : world.Outcome arguments (world.run arguments) := by
  cases parsed : Request.parse world.pathExists arguments with
  | error error =>
    rw [run_of_usageError parsed]
    exact .untouched (Report.not_isDone_of_error _ _) rfl
  | ok asked =>
    by_cases other : ∃ request, asked = .generate request
    · obtain ⟨request, rfl⟩ := other
      exact outcome_of_generate parsed
    · obtain ⟨progress, ran, same, lacks⟩ := asked.execute_lacks world fun request same => other ⟨request, same⟩
      rw [run_of_parse parsed, ran]
      exact .untouched (fun done => lacks done.mark) same

/-- Whatever can be opened under short names is opened. -/
theorem delivers (made : world.Generation arguments) (writable : Writable made.location world.tree)
    (short : ∀ name ∈ made.location, ¬isTooLong name) : Delivers made (world.run arguments) := by
  have opening := FileAccess.openOutput_opening made.location world.tree
  generalize ended : (FileAccess.openOutput made.location).run.run world.tree = result at opening
  cases opening with
  | opened writable short opened => exact delivers_of_opened made ended short opened
  | blocked refusal blocked => exact absurd writable blocked
  | tooLong long =>
    obtain ⟨name, member, long⟩ := long
    exact absurd long (short name member)

end World

/-- If a run does not end with its report, the files are as before but for two cases. The file system may refuse a name
on the way to the output because of its length; then nothing has changed but on that way. Or there is something that
cannot be encoded: if it is the code, the output has been emptied, and if it is only the report, the output holds the
code. If the run ends with its report, the output holds the code and the directories above it are there, and nothing
else has changed; a program that formats has then been given the document and has printed what is there, up to line
ends. It ends so whenever there is code, neither a file on the way to the output nor a directory in its place prevents
it from being written, and the code and the report can be encoded. -/
theorem World.run_effects (world : World) (arguments : List String) :
    let report := world.run arguments
    (¬report.IsDone → report.tree = world.tree ∨
      (report.failure = some (.output .nameTooLong) ∧
        ∃ request, Request.parse world.pathExists arguments = .ok (.generate request) ∧
          (∃ name ∈ request.outputLocation world, isTooLong name) ∧
          SameElsewhere (request.outputLocation world) world.tree report.tree) ∨
      (report.failure = some .unencodable ∧
        ∃ made : world.Generation arguments, Writable made.location world.tree ∧
          ¬(world.standIns.isText made.code ∧ world.shows (made.request.doneLine world)) ∧
          Written (world.delivered made.code) made.location world.tree report.tree)) ∧
    (report.IsDone → ∃ made : world.Generation arguments, Writable made.location world.tree ∧
      Written made.code.toUTF8 made.location world.tree report.tree ∧
      ∀ process : Process, world.formatter = process.formatter world.standIns → made.request.format →
        ∃ printed, process ["scalafmt", "--stdin", "--non-interactive"] made.document.text.toUTF8 = .ok printed ∧
          decodeText? printed = some made.formatted) ∧
    ∀ made : world.Generation arguments, Writable made.location world.tree →
      (∀ name ∈ made.location, ¬isTooLong name) →
      (report.IsDone ↔ world.standIns.isText made.code ∧ world.shows (made.request.doneLine world)) ∧
      Written (world.delivered made.code) made.location world.tree report.tree := by
  intro report
  have ending := world.outcome arguments
  refine ⟨fun notDone => ?_, fun done => ?_, fun made writable short => ?_⟩
  · cases ending with
    | untouched _ same => exact .inl same
    | tooLong request _ failed asked long elsewhere => exact .inr (.inl ⟨failed, request, asked, long, elsewhere⟩)
    | delivered made writable delivers =>
      have hindered := mt delivers.done_iff.mpr notDone
      exact .inr (.inr ⟨delivers.failed notDone, made, writable, hindered, delivers.written⟩)
  · cases ending with
    | untouched notDone => exact absurd done notDone
    | tooLong _ notDone => exact absurd done notDone
    | delivered made writable delivers =>
      have written := delivers.written
      rw [delivered_of_isText (delivers.done_iff.mp done).1] at written
      exact ⟨made, writable, written, fun process runs format => (made.printed runs format).2⟩
  · have ends := delivers made writable short
    exact ⟨ends.done_iff, ends.written⟩

/-- A program that puts a line behind the code, with a line end of its own. -/
def quayProcess : Process := fun _ input => .ok (input ++ "//\r\n".toUTF8)

/-- A directory with a schema in it, and a program that formats. -/
def quay : World where
  tree := .directory [("s.graphql", .file "type Query { up: Int! }".toUTF8)]
  directory := []
  formatter := quayProcess.formatter .none

def quayArguments : List String :=
  ["generate", "-s", "s.graphql", "-o", "gen/Api.scala", "--scalafmt", "--header", "// Quay"]

def quayRequest : GenerateRequest where
  schema := "s.graphql"
  output := "gen/Api.scala"
  header := some "// Quay"
  format := true

def quaySchema : Schema where
  definitions := [.object { name := "Query", fields := [{ name := "up", type := .named "Int" true }] }]

theorem quay_load : Schema.load quay.tree [] "/s.graphql" = .ok quaySchema := by
  have scanned : Source.scan "type Query { up: Int! }".toList =
      .next (.name "type") (.next (.name "Query") (.next (.punctuator .braceOpen) (.next (.name "up")
        (.next (.punctuator .colon) (.next (.name "Int") (.next (.punctuator .bang)
          (.next (.punctuator .braceClose) .done))))))) := by
    cbv
  have added : Schema.addSource {} "s.graphql" "type Query { up: Int! }" = .ok quaySchema := by
    rw [Schema.addSource, if_neg (by decide), Source.parseDocument, Source.parseText, scanned]
    rfl
  have file : Schema.addFile {} "/s.graphql" "type Query { up: Int! }".toUTF8 = .ok quaySchema := by
    have decoded : decodeText? "type Query { up: Int! }".toUTF8 = some "type Query { up: Int! }" := rfl
    have named : Path.fileName "/s.graphql" = "s.graphql" := rfl
    rw [Schema.addFile, if_neg (by decide)]
    simp only [decoded, named, added]
    rfl
  exact (bind_pure _).trans file

theorem quay_writable : Writable ["gen", "Api.scala"] quay.tree := by
  refine ⟨by decide, ?_, by decide⟩
  intro above way
  rcases isAbove_cons.mp way with rfl | ⟨below, rfl, inside⟩
  · exact nofun
  · rcases isAbove_cons.mp inside with rfl | ⟨_, -, impossible⟩
    · exact nofun
    · exact absurd impossible not_isAbove_nil

def quayDocument : Document where
  query := some {
    name := "Query"
    parameters := [{ name := "up", type := "zio.UIO[Int]" }]
    multiline := true }

def quayGeneration : quay.Generation quayArguments where
  request := quayRequest
  settings := {}
  schema := quaySchema
  document := quayDocument
  formatted := quayDocument.text ++ "//\n"
  code := "// Quay\n\n" ++ quayDocument.text ++ "//\n"
  asked := rfl
  configured := rfl
  read := quay_load
  written := rfl
  formats := rfl
  headed := by decide +kernel
  shown := nofun

/-- The report is made although the directory of the output is missing, and the schema is still there. -/
theorem World.run_effects_quay :
    let report := quay.run quayArguments
    report.IsDone ∧ report.tree.get? ["s.graphql"] = quay.tree.get? ["s.graphql"] ∧
      report.tree.get? ["gen", "Api.scala"] =
        some (.file ("// Quay\n\n" ++ quayDocument.text ++ "//\n").toUTF8) ∧
      ∃ made : quay.Generation quayArguments, ∃ printed,
        quayProcess ["scalafmt", "--stdin", "--non-interactive"] made.document.text.toUTF8 = .ok printed ∧
        decodeText? printed = some made.formatted := by
  intro report
  obtain ⟨-, changes, reports⟩ := run_effects quay quayArguments
  obtain ⟨done_iff, written⟩ := reports quayGeneration quay_writable (by decide)
  have text : quay.standIns.isText quayGeneration.code := List.all_eq_true.mpr fun _ _ => rfl
  have done : report.IsDone := done_iff.mpr ⟨text, List.all_eq_true.mpr fun _ _ => rfl⟩
  obtain ⟨made, -, -, prints⟩ := changes done
  have same : .generate quayRequest = Request.generate made.request :=
    Except.ok.inj (quayGeneration.asked.symm.trans made.asked)
  have format : made.request.format := by
    rw [← Request.generate.inj same]
    rfl
  have holds := written.holds
  rw [delivered_of_isText text] at holds
  exact ⟨done, written.elsewhere _ (by decide), holds, made, prints quayProcess rfl format⟩

/-- A directory with an output of an earlier run. A character for private use stands for a byte that is no text. -/
def slip : World where
  tree := .directory [("s.graphql", .file "type Query { up: Int! }".toUTF8), ("Api.scala", .file "old\n".toUTF8)]
  directory := []
  formatter _ := .error .missing
  standIns := {
    byte? := fun c => if c = '\uf8ff' then some 0xff else none
    ascii := by
      intro c ascii
      refine if_neg ?_
      rintro rfl
      exact absurd ascii (by decide) }

def slipArguments : List String :=
  ["generate", "-s", "s.graphql", "-o", "Api.scala", "--header", "\uf8ff"]

def slipGeneration : slip.Generation slipArguments where
  request := { schema := "s.graphql", output := "Api.scala", header := some "\uf8ff" }
  settings := {}
  schema := quaySchema
  document := quayDocument
  formatted := quayDocument.text
  code := "\uf8ff\n\n" ++ quayDocument.text
  asked := rfl
  configured := rfl
  read := quay_load
  written := rfl
  formats := rfl
  headed := by decide +kernel
  shown := nofun

/-- A header that cannot be encoded costs the old output: the run ends without its report and leaves an empty file. -/
theorem World.output_emptied :
    ¬(slip.run slipArguments).IsDone ∧ (slip.run slipArguments).failure = some .unencodable ∧
      slip.tree.get? ["Api.scala"] = some (.file "old\n".toUTF8) ∧
      (slip.run slipArguments).tree.get? ["Api.scala"] = some (.file .empty) := by
  have undecoded : ¬slip.standIns.isText slipGeneration.code := by
    rw [StandIns.isText_iff]
    exact fun each => absurd (each '\uf8ff' (by decide +kernel)) (by decide)
  have writable : Writable ["Api.scala"] slip.tree := by
    refine ⟨by decide, ?_, by decide⟩
    intro above way
    rcases isAbove_cons.mp way with rfl | ⟨_, -, impossible⟩
    · exact nofun
    · exact absurd impossible not_isAbove_nil
  have ends := delivers slipGeneration writable (by decide)
  have notDone : ¬(slip.run slipArguments).IsDone := fun done => undecoded (ends.done_iff.mp done).1
  have holds := ends.written.holds
  rw [delivered_of_not_isText undecoded] at holds
  exact ⟨notDone, ends.failed notDone, rfl, holds⟩

end SchemaScribe
