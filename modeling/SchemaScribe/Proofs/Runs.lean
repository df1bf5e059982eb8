import SchemaScribe.Command.Generate
import SchemaScribe.Proofs.FileChanges
import SchemaScribe.Proofs.Writing

/-! What a run comes to. Until the output is opened a run only adds to its transcript, so the text of the output, or
the failure that there is instead, depends on the request and the world alone. -/

namespace SchemaScribe
open Source (bind_eq_ok map_eq_ok)

theorem mapError_eq_ok_iff {action : Except ε α} {toFailure : ε → δ} {value : α} :
    action.mapError toFailure = .ok value ↔ action = .ok value := by
  cases action with
  | error error => exact ⟨nofun, nofun⟩
  | ok result => exact ⟨fun done => congrArg _ (Except.ok.inj done), fun done => congrArg _ (Except.ok.inj done)⟩

theorem mapError_ok (toFailure : ε → δ) (value : α) : (Except.ok value).mapError toFailure = .ok value :=
  rfl

theorem ok_bind (value : α) (next : α → Except ε β) : (Except.ok value >>= next) = next value :=
  rfl

theorem StandIns.isText_iff {standIns : StandIns} {text : String} :
    standIns.isText text ↔ ∀ c ∈ text.toList, standIns.byte? c = Option.none := by
  rw [isText, List.all_eq_true]
  exact forall₂_congr fun c _ => Option.isNone_iff_eq_none

namespace Text

theorem withoutSequences_append {before : List Char} (plain : '\x1b' ∉ before) (rest : List Char) :
    withoutSequences (before ++ rest) = before ++ withoutSequences rest := by
  induction before with
  | nil => rfl
  | cons c before ih =>
    rw [List.mem_cons, not_or] at plain
    rw [List.cons_append, withoutSequences, if_neg (Ne.symm plain.1), ih plain.2, List.cons_append]

theorem plainText_append {before : String} (plain : '\x1b' ∉ before.toList) (rest : String) :
    plainText (before ++ rest) = before ++ plainText rest := by
  rw [plainText, String.toList_append, withoutSequences_append plain, String.ofList_append, String.ofList_toList]
  rfl

theorem plainText_eq_self {text : String} (plain : '\x1b' ∉ text.toList) : plainText text = text := by
  have same := plainText_append plain ""
  have nothing : plainText "" = "" := by
    rw [plainText, String.toList_empty, withoutSequences]
  rwa [String.append_empty, nothing, String.append_empty] at same

end Text

/-- What is only done under a condition comes to nothing without it. -/
def showIf (condition : Bool) (shown : Except Failure Unit) : Except Failure Unit :=
  if condition then shown else .ok ()

theorem showIf_eq_ok_iff {condition : Bool} {shown : Except Failure Unit} :
    showIf condition shown = .ok () ↔ (condition → shown = .ok ()) := by
  cases condition <;> simp [showIf]

namespace World

/-- Showing a line fails if the line holds what is no text. -/
def showLine (world : World) (line : String) : Except Failure Unit :=
  if world.shows line then .ok () else .error .unencodable

theorem showLine_eq_ok_iff {world : World} {line : String} : world.showLine line = .ok () ↔ world.shows line := by
  rw [World.showLine]
  split
  next shows => exact ⟨fun _ => shows, fun _ => rfl⟩
  next hidden => exact ⟨nofun, fun shows => absurd shows hidden⟩

theorem forM_showLine_eq_ok_iff {world : World} {lines : List String} :
    lines.forM world.showLine = .ok () ↔ ∀ line ∈ lines, world.shows line := by
  induction lines with
  | nil => exact ⟨fun _ => List.forall_mem_nil _, fun _ => rfl⟩
  | cons line rest ih =>
    rw [List.forall_mem_cons, ← ih, ← showLine_eq_ok_iff, List.forM]
    constructor
    · intro done
      obtain ⟨⟨⟩, first, others⟩ := bind_eq_ok done
      exact ⟨first, others⟩
    · rintro ⟨first, others⟩
      rw [first]
      exact others

/-- A line of ASCII characters without an escape is always shown. -/
theorem showLine_of_ascii (world : World) {line : String}
    (ascii : line.toList.all fun c => c ≠ '\x1b' ∧ c.toNat < 0x80) : world.showLine line = .ok () := by
  have each := List.all_eq_true.mp ascii
  have plain : '\x1b' ∉ line.toList := fun escape => by simpa using each _ escape
  have text : world.standIns.isText line :=
    StandIns.isText_iff.mpr fun c member => world.standIns.ascii c (of_decide_eq_true (each c member)).2
  rw [showLine_eq_ok_iff, shows, Text.plainText_eq_self plain, text, Bool.or_true]

theorem encode_eq (world : World) (text : String) :
    world.encode text = if world.standIns.isText text then .ok text.toUTF8 else .error .unencodable := by
  rw [encode, StandIns.encode?]
  cases world.standIns.isText text <;> rfl

end World

namespace Run

/-- From wherever it starts, the action has the outcome and leaves the files alone. -/
def Yields (action : Run α) (outcome : Except Failure α) : Prop :=
  ∀ progress, ∃ transcript, action.run.run progress = (outcome, { progress with transcript })

theorem yields_pure (value : α) : Yields (pure value) (.ok value) :=
  fun progress => ⟨progress.transcript, rfl⟩

theorem yields_record (change : Transcript → Transcript) : Yields (record change) (.ok ()) :=
  fun progress => ⟨change progress.transcript, rfl⟩

theorem yields_say (world : World) (line : String) : Yields (say world line) (world.showLine line) := by
  intro progress
  rw [say, World.showLine]
  cases world.shows line with
  | false => exact ⟨progress.transcript, rfl⟩
  | true => exact ⟨_, rfl⟩

theorem yields_warn (world : World) (line : String) : Yields (warn world line) (.ok ()) := by
  rw [warn]
  exact yields_record _

theorem yields_attempt (toFailure : ε → Failure) (outcome : Except ε α) :
    Yields (attempt toFailure outcome) (outcome.mapError toFailure) := by
  intro progress
  refine ⟨progress.transcript, ?_⟩
  cases outcome <;> rfl

theorem yields_attempt_id (outcome : Except Failure α) : Yields (attempt id outcome) outcome := by
  cases outcome <;> exact yields_attempt id _

namespace Yields

variable {action : Run α} {next : α → Run β} {outcome : Except Failure α}

theorem bind {later : α → Except Failure β} (first : Yields action outcome)
    (rest : ∀ value, Yields (next value) (later value)) :
    Yields (action >>= next) (outcome >>= later) := by
  intro progress
  obtain ⟨transcript, done⟩ := first progress
  cases outcome with
  | error failure => exact ⟨transcript, run_bind_of_error done⟩
  | ok value =>
    obtain ⟨transcript, rest⟩ := rest value { progress with transcript }
    exact ⟨transcript, (run_bind_of_ok done).trans rest⟩

/-- What is only shown does not count. -/
theorem aside {shown : Run Unit} {next : Unit → Run β} {outcome : Except Failure β} (first : Yields shown (.ok ()))
    (rest : Yields (next ()) outcome) : Yields (shown >>= next) outcome := by
  change Yields (shown >>= next) ((.ok () : Except Failure Unit) >>= fun _ => outcome)
  exact first.bind fun _ => rest

theorem onlyIf {shown : Run Unit} {outcome : Except Failure Unit} (condition : Bool) (yields : Yields shown outcome) :
    Yields (Run.onlyIf condition shown) (showIf condition outcome) := by
  cases condition with
  | false => exact yields_pure ()
  | true => exact yields

theorem onlyIf_ok {shown : Run Unit} (condition : Bool) (yields : Yields shown (.ok ())) :
    Yields (Run.onlyIf condition shown) (.ok ()) := by
  cases condition with
  | false => exact yields_pure ()
  | true => exact yields

end Yields

theorem yields_forM_say (world : World) (lines : List String) :
    Yields (lines.forM (say world)) (lines.forM world.showLine) := by
  induction lines with
  | nil => exact yields_pure ()
  | cons line rest ih =>
    rw [List.forM, List.forM]
    exact (yields_say world line).bind fun _ => ih

end Run

namespace GenerateRequest

/-- The text of the output, or the first failure on the way to it. -/
def code (request : GenerateRequest) (world : World) : Except Failure String := do
  let settings ← request.settings world
  showIf request.verbose ((request.settingLines world settings).forM world.showLine)
  world.showLine "Parsing schema..."
  let schema ← (Schema.load world.tree world.directory (request.schemaPath world)).mapError .load
  showIf request.verbose do
    let roots ← schema.roots.mapError .write
    (countLines schema roots).forM world.showLine
  world.showLine "Generating code..."
  let document ← (settings.write schema).mapError .write
  let code ← (finish world.formatter document.text request.finishSteps).result.mapError .formatter
  showIf request.verbose (world.showLine (lengthLine code))
  return code

open Run in
theorem generate_yields (request : GenerateRequest) (world : World) :
    Yields (request.generate world) (request.code world) := by
  rw [generate, code]
  refine .bind (yields_attempt_id _) fun settings => ?_
  refine .bind ((yields_forM_say world _).onlyIf _) fun _ => .bind (yields_say world _) fun _ => ?_
  refine .bind (yields_attempt .load _) fun schema => .aside (.onlyIf_ok _ (yields_warn world _)) ?_
  have counted := (yields_attempt .write schema.roots).bind fun roots => yields_forM_say world (countLines schema roots)
  refine .bind (counted.onlyIf _) fun _ => .bind (yields_say world _) fun _ => ?_
  refine .bind (yields_attempt .write _) fun document => .aside (yields_record _) ?_
  refine .bind (yields_attempt .formatter _) fun code => ?_
  exact .bind ((yields_say world _).onlyIf _) fun _ => yields_pure code

/-- What the header adds: a line feed behind it if it has none, and an empty line. -/
def headed (header text : String) : String :=
  if header = "" then text
  else header ++ (if header.toList.getLast? = some '\n' then "" else "\n") ++ "\n" ++ text

/-- The document of a request is passed through the formatter if that is asked for. -/
def Formats (request : GenerateRequest) (world : World) (text formatted : String) : Prop :=
  if request.format then
    world.formatter { command := ["scalafmt", "--stdin", "--non-interactive"], input := text } = .ok formatted
  else formatted = text

theorem withHeader_eq_headed {header : String} (given : header ≠ "") (text : String) :
    withHeader header text = headed header text := by
  rw [withHeader, headed, if_neg given]
  split
  · rw [String.append_empty]
  · rfl

theorem finish_headerSteps (request : GenerateRequest) (formatter : Formatter) (text : String) :
    (finish formatter text request.headerSteps).result = .ok (headed (request.header.getD "") text) := by
  rw [headerSteps]
  cases request.header with
  | none => rfl
  | some header =>
    by_cases empty : header = ""
    · simp only [empty, if_pos]
      rfl
    · simp only [if_neg empty, Option.getD_some, ← withHeader_eq_headed empty]
      rfl

theorem finish_format_eq_ok_iff {formatter : Formatter} {text code executable : String} {configPath : Option String}
    {rest : List FinishStep} :
    (finish formatter text (.format executable configPath :: rest)).result = .ok code ↔
      ∃ formatted, formatter { command := formatterCommand executable configPath, input := text } = .ok formatted ∧
        (finish formatter formatted rest).result = .ok code := by
  simp only [finish]
  cases formatter { command := formatterCommand executable configPath, input := text } with
  | error failure => exact ⟨nofun, nofun⟩
  | ok formatted => simp

theorem finish_eq_ok_iff {request : GenerateRequest} {world : World} {text code : String} :
    (finish world.formatter text request.finishSteps).result = .ok code ↔
      ∃ formatted, request.Formats world text formatted ∧ code = headed (request.header.getD "") formatted := by
  simp only [finishSteps, Formats]
  cases request.format with
  | false =>
    simp only [Bool.false_eq_true, if_false, List.nil_append, finish_headerSteps, exists_eq_left, Except.ok.injEq]
    exact eq_comm
  | true =>
    simp only [if_true, List.singleton_append, defaultFormatter, finish_format_eq_ok_iff, finish_headerSteps,
      Except.ok.injEq]
    exact exists_congr fun formatted => and_congr_right fun _ => eq_comm

/-- Everything that is shown on demand on the way to the code can be shown. -/
def Shown (request : GenerateRequest) (world : World) (settings : Settings) (schema : Schema) (code : String) : Prop :=
  request.verbose → ∀ line ∈ request.settingLines world settings ++ countLines schema schema.rootTypes ++
    [lengthLine code], world.shows line

theorem shown_iff {request : GenerateRequest} {world : World} {settings : Settings} {schema : Schema} {code : String} :
    request.Shown world settings schema code ↔
      showIf request.verbose ((request.settingLines world settings).forM world.showLine) = .ok () ∧
      showIf request.verbose ((countLines schema schema.rootTypes).forM world.showLine) = .ok () ∧
      showIf request.verbose (world.showLine (lengthLine code)) = .ok () := by
  simp only [Shown, showIf_eq_ok_iff, World.forM_showLine_eq_ok_iff, World.showLine_eq_ok_iff, List.forall_mem_append,
    List.forall_mem_singleton, imp_and, and_assoc]

theorem code_eq_ok_iff {request : GenerateRequest} {world : World} {code : String} :
    request.code world = .ok code ↔ ∃ settings schema document formatted,
      request.settings world = .ok settings ∧
      Schema.load world.tree world.directory (request.schemaPath world) = .ok schema ∧
      settings.write schema = .ok document ∧ request.Formats world document.text formatted ∧
      request.Shown world settings schema code ∧ code = headed (request.header.getD "") formatted := by
  have parsing : world.showLine "Parsing schema..." = .ok () := world.showLine_of_ascii (by decide)
  have generating : world.showLine "Generating code..." = .ok () := world.showLine_of_ascii (by decide)
  constructor
  · intro done
    obtain ⟨settings, configured, done⟩ := bind_eq_ok done
    obtain ⟨⟨⟩, settingsShown, done⟩ := bind_eq_ok done
    obtain ⟨⟨⟩, -, done⟩ := bind_eq_ok done
    obtain ⟨schema, read, done⟩ := bind_eq_ok done
    obtain ⟨⟨⟩, countsShown, done⟩ := bind_eq_ok done
    obtain ⟨⟨⟩, -, done⟩ := bind_eq_ok done
    obtain ⟨document, written, done⟩ := bind_eq_ok done
    obtain ⟨result, finished, done⟩ := bind_eq_ok done
    obtain ⟨⟨⟩, lengthShown, same⟩ := bind_eq_ok done
    cases same
    obtain ⟨formatted, formats, same⟩ := finish_eq_ok_iff.mp (mapError_eq_ok_iff.mp finished)
    rw [mapError_eq_ok_iff] at read written
    rw [(Schema.write_parts written).1] at countsShown
    exact ⟨settings, schema, document, formatted, configured, read, written, formats,
      shown_iff.mpr ⟨settingsShown, countsShown, lengthShown⟩, same⟩
  · rintro ⟨settings, schema, document, formatted, configured, read, written, formats, shown, same⟩
    obtain ⟨settingsShown, countsShown, lengthShown⟩ := shown_iff.mp shown
    have finished := finish_eq_ok_iff.mpr ⟨formatted, formats, same⟩
    rw [GenerateRequest.code, configured, ok_bind, settingsShown, ok_bind, parsing, ok_bind, read, mapError_ok, ok_bind,
      (Schema.write_parts written).1, mapError_ok, ok_bind, countsShown, ok_bind, generating, ok_bind, written,
      mapError_ok, ok_bind, finished, mapError_ok, ok_bind, lengthShown]
    rfl

end GenerateRequest

section Reports

variable {world : World} {arguments : List String}

theorem World.run_of_parse {request : Request} (asked : Request.parse world.pathExists arguments = .ok request) :
    world.run arguments = .ofRun ((request.execute world).run.run { tree := world.tree }) := by
  rw [run, asked]
  rfl

theorem World.run_of_usageError {error : UsageError}
    (refused : Request.parse world.pathExists arguments = .error error) :
    world.run arguments = .ofRun (.error (.usage error), { tree := world.tree }) := by
  rw [run, refused]
  rfl

/-- A failure before the output ends the run. -/
theorem GenerateRequest.execute_of_code_error {request : GenerateRequest} {failure : Failure}
    (failed : request.code world = .error failure) (before : Progress) :
    ∃ transcript, (request.execute world).run.run before = (.error failure, { before with transcript }) := by
  obtain ⟨transcript, generated⟩ := request.generate_yields world before
  rw [failed] at generated
  exact ⟨transcript, run_bind_of_error generated⟩

end Reports

end SchemaScribe
