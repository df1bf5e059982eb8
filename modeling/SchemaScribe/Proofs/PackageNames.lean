import SchemaScribe.Proofs.LineOpenings
import SchemaScribe.Proofs.Vocabulary
import SchemaScribe.Proofs.Writing

/-! Which package names are accepted, and the lines that a document opens with. The check lets a line feed at the end of
a name pass, and the document then has an empty line too many. -/

namespace SchemaScribe
open Text (joinWith lines pieces lines_append lines_of_not_mem pieces_append pieces_of_not_mem)

section Grammar

def IsLetter (c : Char) : Prop :=
  'A' ≤ c ∧ c ≤ 'Z' ∨ 'a' ≤ c ∧ c ≤ 'z' ∨ c = '_'

/-- A letter or underscore, and behind it letters, underscores and digits, all of them ASCII. -/
def IsIdentifier (word : String) : Prop :=
  ∃ first rest, word.toList = first :: rest ∧ IsLetter first ∧ ∀ c ∈ rest, IsLetter c ∨ '0' ≤ c ∧ c ≤ '9'

/-- One identifier or more, with single points between them. -/
def IsDottedName (name : String) : Prop :=
  ∃ words, words ≠ [] ∧ (∀ word ∈ words, IsIdentifier word) ∧ name = joinWith "." words

theorem isNameStart_iff {c : Char} : Source.isNameStart c ↔ IsLetter c := by
  simp only [Source.isNameStart, IsLetter, Bool.or_eq_true, Bool.and_eq_true, decide_eq_true_eq, beq_iff_eq]
  rw [or_assoc, or_left_comm]

theorem isIdentifier_iff {word : String} : Settings.isIdentifier word.toList ↔ IsIdentifier word := by
  rw [IsIdentifier]
  cases word.toList with
  | nil => simp [Settings.isIdentifier]
  | cons first rest =>
    have parts : Settings.isIdentifier (first :: rest) ↔
        IsLetter first ∧ ∀ c ∈ rest, IsLetter c ∨ '0' ≤ c ∧ c ≤ '9' := by
      simp [Settings.isIdentifier, Source.isNameContinue, Source.isDigit, isNameStart_iff]
    rw [parts]
    constructor
    · intro spelled
      exact ⟨first, rest, rfl, spelled⟩
    · rintro ⟨_, _, same, spelled⟩
      cases same
      exact spelled

theorem IsIdentifier.isName {word : String} (identifier : IsIdentifier word) : IsName word :=
  isIdentifier_iff.mpr identifier

theorem Text.joinWith_pieces (chars : List Char) :
    joinWith "." ((pieces '.' chars).map String.ofList) = String.ofList chars := by
  induction chars with
  | nil => rfl
  | cons c rest ih =>
    rw [pieces]
    cases cut : pieces '.' rest with
    | nil => exact absurd cut (pieces_ne_nil rest)
    | cons piece others =>
      rw [cut] at ih
      split
      next point =>
        rw [point, List.map_cons, List.map_cons, joinWith, ← List.map_cons, ih, ← String.toList_inj]
        simp
      next =>
        cases others with
        | nil =>
          rw [← String.toList_inj] at ih ⊢
          simpa [joinWith] using ih
        | cons next others =>
          rw [← String.toList_inj] at ih ⊢
          simpa [joinWith] using ih

theorem Text.pieces_joinWith {words : List String} (some : words ≠ []) (plain : ∀ word ∈ words, '.' ∉ word.toList) :
    pieces '.' (joinWith "." words).toList = words.map String.toList := by
  induction words with
  | nil => exact absurd rfl some
  | cons first rest ih =>
    obtain ⟨here, others⟩ := List.forall_mem_cons.mp plain
    cases rest with
    | nil => exact pieces_of_not_mem here
    | cons next rest =>
      have split : (joinWith "." (first :: next :: rest)).toList =
          first.toList ++ '.' :: (joinWith "." (next :: rest)).toList := by
        simp [joinWith]
      rw [split, pieces_append, pieces_of_not_mem here, ih (List.cons_ne_nil next rest) others]
      rfl

theorem all_pieces_iff {chars : List Char} :
    (pieces '.' chars).all Settings.isIdentifier ↔ IsDottedName (String.ofList chars) := by
  rw [List.all_eq_true]
  constructor
  · intro identifiers
    refine ⟨(pieces '.' chars).map String.ofList, ?_, ?_, (Text.joinWith_pieces chars).symm⟩
    · exact fun none => Text.pieces_ne_nil chars (List.map_eq_nil_iff.mp none)
    · refine List.forall_mem_map.mpr fun piece member => isIdentifier_iff.mp ?_
      rw [String.toList_ofList]
      exact identifiers piece member
  · rintro ⟨words, some, identifiers, same⟩
    have plain : ∀ word ∈ words, '.' ∉ word.toList :=
      fun word member => (identifiers word member).isName.not_mem (by decide)
    have cut : pieces '.' chars = words.map String.toList := by
      rw [← Text.pieces_joinWith some plain, ← same, String.toList_ofList]
    rw [cut]
    exact List.forall_mem_map.mpr fun word member => isIdentifier_iff.mpr (identifiers word member)

theorem IsDottedName.oneLine {name : String} (dotted : IsDottedName name) : '\n' ∉ name.toList := by
  obtain ⟨words, -, identifiers, rfl⟩ := dotted
  exact not_mem_joinWith (by decide) fun word member => (identifiers word member).isName.not_mem (by decide)

end Grammar

namespace Document

/-- Everything but the package clause. -/
def body (document : Document) : String :=
  document.importClauses ++ document.typesGroup ++ document.groupSeparator ++ document.operationsGroup

/-- The package clause on a line of its own, one empty line, and then the first line of the imports or groups. -/
def IsHeadedBy (document : Document) (name : String) : Prop :=
  ∃ first others, first ≠ "" ∧ lines document.body = first :: others ∧
    lines document.text = ("package " ++ name) :: "" :: first :: others

/-- The text begins with a whole line, and that line is not empty. -/
def Begins (text : String) : Prop :=
  ∃ first rest, first ≠ "" ∧ '\n' ∉ first.toList ∧ text = first ++ "\n" ++ rest

theorem Begins.append {text : String} (begins : Begins text) (more : String) : Begins (text ++ more) := by
  obtain ⟨first, rest, solid, oneLine, rfl⟩ := begins
  exact ⟨first, rest ++ more, solid, oneLine, String.append_assoc ..⟩

theorem Begins.lines {text : String} (begins : Begins text) :
    ∃ first others, first ≠ "" ∧ lines text = first :: others := by
  obtain ⟨first, rest, solid, oneLine, rfl⟩ := begins
  refine ⟨first, Text.lines rest, solid, ?_⟩
  rw [lines_append, lines_of_not_mem oneLine]
  rfl

variable {document : Document}

theorem importClauses_begins (some : document.imports ≠ []) : Begins document.importClauses := by
  rw [importClauses]
  cases given : document.imports with
  | nil => exact absurd given some
  | cons clause rest =>
    have begins : Begins (clause.text ++ "\n") := by
      refine ⟨clause.text, "", ?_, ?_, String.append_empty.symm⟩ <;> cases clause <;> decide
    rw [List.map_cons, Text.joinWith_empty_cons]
    exact (begins.append _).append _

theorem typesGroup_begins (some : document.types.isEmpty = false) : Begins document.typesGroup := by
  have begins : Begins "object Types \x7b\n\n" := ⟨"object Types \x7b", "\n", by decide, by decide, by decide⟩
  rw [typesGroup, some]
  exact (begins.append _).append _

theorem operationsGroup_begins (some : document.operations.isEmpty = false) : Begins document.operationsGroup := by
  have begins : Begins "object Operations \x7b\n\n" := ⟨"object Operations \x7b", "\n", by decide, by decide, by decide⟩
  rw [operationsGroup, some]
  exact (begins.append _).append _

theorem body_begins (some : document.isEmpty = false) : Begins document.body := by
  rw [body]
  by_cases imported : document.imports = []
  · have nothing : document.importClauses = "" := by rw [importClauses, imported]; rfl
    rw [nothing, String.empty_append]
    cases types : document.types.isEmpty with
    | false => exact ((typesGroup_begins types).append _).append _
    | true =>
      have operations : document.operations.isEmpty = false := by simpa [isEmpty, types] using some
      simpa [typesGroup, groupSeparator, types] using operationsGroup_begins operations
  · exact (((importClauses_begins imported).append _).append _).append _

theorem text_of_packageName {name : String} (given : document.packageName = some name) (solid : name ≠ "")
    (some : document.isEmpty = false) : document.text = "package " ++ name ++ "\n" ++ "" ++ "\n" ++ document.body := by
  have feeds : "\n\n" = "\n" ++ "\n" := by decide
  rw [text, some, packageClause, given]
  simp only [if_neg solid, Bool.false_eq_true, if_false, body, feeds, String.append_assoc, String.empty_append]

end Document

namespace Settings

/-- What is taken for a package name: one that follows the grammar, alone or with a line feed behind it. -/
def TakenForPackage (name : String) : Prop :=
  IsDottedName name ∨ ∃ words, IsDottedName words ∧ name = words ++ "\n"

theorem isPackageName_iff {name : String} : isPackageName name.toList ↔ TakenForPackage name := by
  rw [isPackageName, TakenForPackage]
  by_cases feed : name.toList.getLast? = some '\n'
  · obtain ⟨front, split⟩ := List.getLast?_eq_some_iff.mp feed
    have same : name = String.ofList front ++ "\n" := by
      rw [← String.toList_inj, split]
      simp
    simp only [if_pos feed]
    rw [split, List.dropLast_concat, all_pieces_iff]
    constructor
    · exact fun dotted => Or.inr ⟨_, dotted, same⟩
    · rintro (dotted | ⟨words, dotted, other⟩)
      · exact absurd (by simp [split]) dotted.oneLine
      · have front : words = String.ofList front := (String.append_left_inj _).mp (other.symm.trans same)
        rwa [← front]
  · simp only [if_neg feed, all_pieces_iff, String.ofList_toList]
    refine ⟨Or.inl, ?_⟩
    rintro (dotted | ⟨words, -, rfl⟩)
    · exact dotted
    · exact absurd (by simp) feed

/-- Behind other values that are accepted, a package name is judged alone. -/
theorem validateEntries_concat_packageName {origin : ValueOrigin} {entries : Table Json} {base : Settings}
    (accepted : validateEntries origin entries = .ok base) (name : String) :
    TakenForPackage name ∧ validateEntries origin (entries ++ [("package_name", .string name)]) =
        .ok { base with packageName := some name } ∨
      ¬TakenForPackage name ∧ validateEntries origin (entries ++ [("package_name", .string name)]) =
        .error [{ location := ["package_name"], fault := .badPackageName name }] := by
  obtain ⟨effect, -, mappings, known⟩ := validateEntries_eq_ok_iff.mp accepted
  have last (key : String) : Table.last? (entries ++ [("package_name", Json.string name)]) key =
      if key = "package_name" then some (.string name) else Table.last? entries key := Table.last?_concat ..
  have allKnown : ∀ entry ∈ entries ++ [("package_name", Json.string name)], entry.1 ∈ settingNames :=
    List.forall_mem_append.mpr ⟨known, List.forall_mem_singleton.mpr (by simp [settingNames])⟩
  rw [← isPackageName_iff]
  by_cases taken : isPackageName name.toList
  · refine Or.inl ⟨taken, validateEntries_eq_ok_iff.mpr ⟨?_, ?_, ?_, allKnown⟩⟩
    · rwa [last, if_neg (by decide)]
    · rw [last, if_pos rfl]
      exact packageNameOf_eq_ok_iff.mpr (Or.inr ⟨name, rfl, taken, rfl⟩)
    · rwa [last, if_neg (by decide)]
  · have refused : packageNameOf (some (.string name)) = .error (.badPackageName name) := by
      change Except.map some (checkPackageName name) = _
      rw [checkPackageName, if_neg taken]
      rfl
    refine Or.inr ⟨taken, ?_⟩
    rw [validateEntries]
    simp only [Table.find?_ofEntries, last, if_true, if_neg (by decide : ¬"effect" = "package_name"),
      if_neg (by decide : ¬"scalar_mappings" = "package_name"), effect, refused, mappings,
      unknownIssues_eq_nil_iff.mpr allKnown]
    exact congrArg Except.error (List.mergeSort_singleton _)

theorem TakenForPackage.ne_empty {name : String} (taken : TakenForPackage name) : name ≠ "" := by
  rintro rfl
  exact absurd (isPackageName_iff.mpr taken) (by decide)

/-- A package name is accepted exactly if it is made of identifiers with single points between them, perhaps with a line
feed behind them. A document with declarations opens with the package clause, one empty line and the first line of the
rest exactly if there is no such line feed; with it, there is one more empty line. -/
theorem packageName_exact (name : String) :
    (∀ origin entries base, validate origin (.object entries) = .ok base →
      TakenForPackage name ∧ validate origin (.object (entries ++ [("package_name", .string name)])) =
          .ok { base with packageName := some name } ∨
        ¬TakenForPackage name ∧ validate origin (.object (entries ++ [("package_name", .string name)])) =
          .error [{ location := ["package_name"], fault := .badPackageName name }]) ∧
    ∀ origin values settings schema effect document, validate origin values = .ok settings →
      settings.packageName = some name → settings.write schema effect = .ok document → document.isEmpty = false →
      (document.IsHeadedBy name ↔ IsDottedName name) ∧
      ∀ words, IsDottedName words → name = words ++ "\n" →
        ∃ first others, first ≠ "" ∧ lines document.body = first :: others ∧
          lines document.text = ("package " ++ words) :: "" :: "" :: first :: others := by
  refine ⟨fun origin entries base accepted => validateEntries_concat_packageName accepted name, ?_⟩
  intro origin values settings schema effect document valid named written nonempty
  obtain ⟨-, -, -, same⟩ := Schema.write_eq_ok written
  have given : document.packageName = some name := by rw [same, ← named]; rfl
  have taken := isPackageName_iff.mp (isPackageName_of_validate valid named)
  have text := Document.text_of_packageName given taken.ne_empty nonempty
  obtain ⟨first, others, solid, body⟩ := (Document.body_begins nonempty).lines
  have blank : lines "" = [""] := by decide
  have heads {words : String} (dotted : IsDottedName words) : lines ("package " ++ words) = ["package " ++ words] :=
    lines_of_not_mem (not_mem_append (by decide) dotted.oneLine)
  have fed {words : String} (dotted : IsDottedName words) (feed : name = words ++ "\n") :
      lines document.text = ("package " ++ words) :: "" :: "" :: first :: others := by
    have clause : "package " ++ (words ++ "\n") = "package " ++ words ++ "\n" ++ "" := by
      rw [String.append_empty, String.append_assoc]
    rw [text, feed, clause, lines_append, lines_append, lines_append, heads dotted, blank, body]
    rfl
  refine ⟨⟨fun headed => ?_, fun dotted => ?_⟩, fun words dotted feed => ?_⟩
  · rcases taken with dotted | ⟨words, dotted, feed⟩
    · exact dotted
    · obtain ⟨_, _, -, -, opening⟩ := headed
      have head := (List.cons.inj ((fed dotted feed).symm.trans opening)).1
      have length := congrArg String.length head
      simp [feed] at length
  · refine ⟨first, others, solid, body, ?_⟩
    rw [text, lines_append, lines_append, heads dotted, blank, body]
    rfl
  · exact ⟨first, others, solid, body, fed dotted feed⟩

def kiosk : Schema :=
  { definitions := [.enum { name := "Size", values := [{ name := "Small" }] }] }

theorem isDottedName_shop : IsDottedName "shop.api_2" := by
  refine ⟨["shop", "api_2"], by decide, ?_, by decide⟩
  exact List.forall_mem_cons.mpr
    ⟨isIdentifier_iff.mp (by decide), List.forall_mem_singleton.mpr (isIdentifier_iff.mp (by decide))⟩

/-- A name of two identifiers is accepted next to an effect and heads the document; a name that begins with a digit is
refused. -/
theorem packageName_exact_kiosk :
    let settings : Settings := { effect := "IO", packageName := some "shop.api_2" }
    validate .file (.object [("effect", .string " IO"), ("package_name", .string "shop.api_2")]) = .ok settings ∧
      validate .file (.object [("effect", .string " IO"), ("package_name", .string "2.shop")]) =
        .error [{ location := ["package_name"], fault := .badPackageName "2.shop" }] ∧
      ∃ document, settings.write kiosk = .ok document ∧ document.isEmpty = false ∧
        document.IsHeadedBy "shop.api_2" := by
  intro settings
  have base : validate .file (.object [("effect", .string " IO")]) = .ok { effect := "IO" } := rfl
  have valid : validate .file (.object [("effect", .string " IO"), ("package_name", .string "shop.api_2")]) =
      .ok settings := by
    rcases (packageName_exact "shop.api_2").1 _ _ _ base with ⟨-, accepted⟩ | ⟨refused, -⟩
    · exact accepted
    · exact absurd (Or.inl isDottedName_shop) refused
  refine ⟨valid, ?_, _, rfl, rfl, ?_⟩
  · rcases (packageName_exact "2.shop").1 _ _ _ base with ⟨taken, -⟩ | ⟨-, refused⟩
    · exact absurd (isPackageName_iff.mpr taken) (by decide)
    · exact refused
  · have written : settings.write kiosk = .ok _ := rfl
    exact ((packageName_exact "shop.api_2").2 _ _ _ _ _ _ valid rfl written rfl).1.mpr isDottedName_shop

/-- A name with a line feed behind it is accepted, and two empty lines follow the package clause. -/
theorem lineFeed_taken :
    validate .program (.object [("package_name", .string "shop\n")]) = .ok { packageName := some "shop\n" } ∧
      ¬IsDottedName "shop\n" ∧
      ∃ document, ({ packageName := some "shop\n" } : Settings).write kiosk = .ok document ∧
        (lines document.text).take 4 = ["package shop", "", "", "object Types \x7b"] := by
  refine ⟨rfl, fun dotted => dotted.oneLine (by decide), _, rfl, by decide +kernel⟩

end Settings

end SchemaScribe
