import Mathlib.Data.List.Sort
import SchemaScribe.Proofs.LineOpenings
import SchemaScribe.Proofs.SourceOrder
import SchemaScribe.Proofs.TreeWalk

/-! The files that make up a schema. They are found by a walk over the directories and then put in the order of their
paths, so that the order in which directories list their entries is of no account. A directory whose path is too long is
passed over without an error, and everything below it is missed. -/

namespace SchemaScribe

def IsSchemaName (name : String) : Prop :=
  ∃ stem, name = stem ++ ".graphql" ∨ name = stem ++ ".graphqls"

section Paths

theorem isSchemaPath_iff_suffix {path : String} :
    isSchemaPath path ↔ ∃ ending ∈ schemaEndings, ending.toList <:+ path.toList := by
  simp only [isSchemaPath, List.any_eq_true, List.isSuffixOf_iff_suffix]

theorem isSchemaPath_iff {name : String} : isSchemaPath name ↔ IsSchemaName name := by
  have ends (ending : String) : ending.toList <:+ name.toList ↔ ∃ stem, name = stem ++ ending := by
    constructor
    · rintro ⟨stem, same⟩
      refine ⟨String.ofList stem, ?_⟩
      rw [← String.toList_inj, String.toList_append, String.toList_ofList, same]
    · rintro ⟨stem, rfl⟩
      rw [String.toList_append]
      exact List.suffix_append ..
  simp only [isSchemaPath_iff_suffix, ends, schemaEndings, IsSchemaName, List.mem_cons, List.not_mem_nil, or_false,
    exists_eq_or_imp, exists_eq_left, exists_or]

/-- An ending without a slash is looked for in the name alone. -/
theorem IsFront.suffix_iff {front name : String} {ending : List Char} (isFront : IsFront front) (plain : '/' ∉ ending) :
    ending <:+ (front ++ name).toList ↔ ending <:+ name.toList := by
  rw [String.toList_append]
  refine ⟨?_, fun ends => ends.trans (List.suffix_append ..)⟩
  rintro ⟨stem, same⟩
  rcases List.append_eq_append_iff.mp same with ⟨between, split, rfl⟩ | ⟨more, -, split⟩
  · cases between with
    | nil => exact List.suffix_rfl
    | cons c rest =>
      -- The ending would begin in front of the name, where the last character is a slash.
      rcases isFront with rfl | last
      · cases stem <;> cases split
      · rw [split, List.getLast?_append_of_ne_nil _ (List.cons_ne_nil c rest)] at last
        exact absurd (List.mem_append_left _ (List.mem_of_getLast? last)) plain
  · rw [split]
    exact List.suffix_append ..

theorem IsFront.isSchemaPath_iff {front : String} (isFront : IsFront front) (name : String) :
    isSchemaPath (front ++ name) ↔ IsSchemaName name := by
  have plain : ∀ ending ∈ schemaEndings, '/' ∉ ending.toList := by decide
  rw [← SchemaScribe.isSchemaPath_iff, isSchemaPath_iff_suffix, isSchemaPath_iff_suffix]
  exact exists_congr fun ending => and_congr_right fun member => isFront.suffix_iff (plain ending member)

theorem exists_last_slash {chars : List Char} (member : '/' ∈ chars) :
    ∃ front last, chars = front ++ '/' :: last ∧ '/' ∉ last := by
  induction chars with
  | nil => cases member
  | cons c rest ih =>
    by_cases later : '/' ∈ rest
    · obtain ⟨front, last, rfl, plain⟩ := ih later
      exact ⟨c :: front, last, rfl, plain⟩
    · rcases List.mem_cons.mp member with rfl | inside
      · exact ⟨[], rest, rfl, later⟩
      · exact absurd inside later

theorem Path.exists_front_fileName (path : String) : ∃ front, IsFront front ∧ path = front ++ fileName path := by
  rw [fileName, components]
  by_cases slash : '/' ∈ path.toList
  · obtain ⟨front, last, split, plain⟩ := exists_last_slash slash
    refine ⟨String.ofList (front ++ ['/']), Or.inr (by simp), ?_⟩
    rw [← String.toList_inj, split, Text.pieces_append, Text.pieces_of_not_mem plain]
    simp
  · refine ⟨"", Or.inl rfl, ?_⟩
    rw [Text.pieces_of_not_mem slash]
    simp

end Paths

namespace FileTree
open Source (Statement bind_eq_ok)

section Following

variable {tree : FileTree} {directory : List String} {path : String}

theorem stepFrom_eq_ok {location next : List String} {component : String}
    (done : tree.stepFrom location component = .ok next) :
    tree.hasDirectory location ∧ next = Path.step location component := by
  rw [stepFrom] at done
  cases found : tree.get? location with
  | none => simp [found] at done
  | some there =>
    cases there with
    | file content => simp [found] at done
    | directory entries =>
      simp only [found] at done
      refine ⟨hasDirectory_iff.mpr ⟨entries, found⟩, ?_⟩
      split at done
      · cases done
      · split at done
        · exact (Except.ok.inj done).symm
        · cases done

theorem hasDirectory_dropLast {location : List String} (here : tree.hasDirectory location) :
    tree.hasDirectory location.dropLast := by
  rcases List.eq_nil_or_concat location with rfl | ⟨names, name, rfl⟩
  · exact here
  · rw [List.concat_eq_append] at here ⊢
    obtain ⟨entries, found⟩ := hasDirectory_iff.mp here
    rw [List.dropLast_concat]
    exact hasDirectory_of_isAbove (Option.isSome_of_eq_some found) (isAbove_concat.mpr List.prefix_rfl)

/-- A step to a file is one to a name: all other steps lead to directories. -/
theorem step_to_file {location : List String} {component : String} {content : ByteArray}
    (here : tree.hasDirectory location) (there : tree.get? (Path.step location component) = some (file content)) :
    Path.step location component = location ++ [component] := by
  rw [Path.step] at there ⊢
  by_cases stays : component = "" ∨ component = "."
  · rw [if_pos stays] at there
    exact absurd there (ne_file_of_hasDirectory here content)
  · rw [if_neg stays] at there ⊢
    by_cases up : component = ".."
    · rw [if_pos up] at there
      exact absurd there (ne_file_of_hasDirectory (hasDirectory_dropLast here) content)
    · exact if_neg up

/-- A path leads somewhere if it is one that the operating system takes and every step of it can be made. -/
theorem follow_eq_ok_iff {location : List String} :
    tree.follow directory path = .ok location ↔
      (Path.holdsNull path = false ∧ path ≠ "" ∧ admits path) ∧
        (Path.components path).foldlM (stepFrom tree) (if Path.isAbsolute path then [] else directory) =
          .ok location := by
  rw [follow]
  constructor
  · intro reached
    split at reached
    next => cases reached
    next free =>
      split at reached
      next => cases reached
      next some =>
        split at reached
        next => cases reached
        next admitted => exact ⟨⟨Bool.eq_false_iff.mpr free, some, by simpa using admitted⟩, reached⟩
  · rintro ⟨⟨free, some, admitted⟩, steps⟩
    rw [free, if_neg Bool.false_ne_true, if_neg some, admitted]
    exact steps

theorem follow_to_file {location : List String} {content : ByteArray}
    (reached : tree.follow directory path = .ok location) (there : tree.get? location = some (file content)) :
    location.getLast? = some (Path.fileName path) := by
  have nonempty : Path.components path ≠ [] := fun none => Text.pieces_ne_nil _ (List.map_eq_nil_iff.mp none)
  have last : Path.components path = (Path.components path).dropLast ++ [Path.fileName path] := by
    rw [Path.fileName, List.getLast?_eq_some_getLast nonempty, Option.getD_some, List.dropLast_concat_getLast]
  have steps := (follow_eq_ok_iff.mp reached).2
  rw [last, List.foldlM_append] at steps
  obtain ⟨middle, -, done⟩ := bind_eq_ok steps
  rw [List.foldlM_cons] at done
  obtain ⟨next, stepped, done⟩ := bind_eq_ok done
  cases done
  obtain ⟨here, rfl⟩ := stepFrom_eq_ok stepped
  rw [step_to_file here there]
  exact List.getLast?_concat

theorem at?_eq_ok_iff {found : FileTree} :
    tree.at? directory path = .ok found ↔
      ∃ location, tree.follow directory path = .ok location ∧ tree.get? location = some found := by
  rw [at?]
  cases reached : tree.follow directory path with
  | error refusal => exact ⟨nofun, nofun⟩
  | ok location => cases there : tree.get? location <;> simp [bind, Except.bind, pure, Except.pure, there]

end Following

section Collection

/-- A file of the schema that a path leads to. It stands at the end of the path or below, and its name ends like those
of such files. -/
def HasSchemaFile (tree : FileTree) (directory : List String) (path : String) (names : List String)
    (content : ByteArray) : Prop :=
  ∃ location name, tree.follow directory path = .ok location ∧ tree.get? (location ++ names) = some (file content) ∧
    (location ++ names).getLast? = some name ∧ IsSchemaName name

/-- All directories on the way down have paths that can be listed. -/
def Listable (path : String) (names : List String) : Prop :=
  ∀ above, IsAbove above names → admits (above.foldl Path.join path)

variable {tree : FileTree} {directory : List String} {path : String} {content : ByteArray}

theorem schemaFiles_of_error {refusal : AccessError} (refused : tree.at? directory path = .error refusal) :
    tree.schemaFiles directory path = [] := by
  rw [schemaFiles, refused]

theorem schemaFiles_of_file (reached : tree.at? directory path = .ok (file content)) :
    tree.schemaFiles directory path = if isSchemaPath path then [(path, content)] else [] := by
  rw [schemaFiles, reached]

theorem schemaFiles_of_directory {entries : List (String × FileTree)}
    (reached : tree.at? directory path = .ok (.directory entries)) :
    tree.schemaFiles directory path =
      (((FileTree.directory entries).files admits path).filter (isSchemaPath ·.1)).mergeSort
        fun a b => decide (a.1 ≤ b.1) := by
  rw [schemaFiles, reached]

theorem isSchemaPath_iff_fileName : isSchemaPath path ↔ IsSchemaName (Path.fileName path) := by
  obtain ⟨front, isFront, split⟩ := Path.exists_front_fileName path
  rw [← isFront.isSchemaPath_iff, ← split]

theorem isSchemaPath_below (path : String) (names : List String) (name : String) :
    isSchemaPath ((names ++ [name]).foldl Path.join path) ↔ IsSchemaName name := by
  rw [List.foldl_append, List.foldl_cons, List.foldl_nil, Path.join_eq]
  exact (Path.isFront_front _).isSchemaPath_iff name

section Reached

variable {location : List String} (followed : tree.follow directory path = .ok location)
include followed

theorem hasSchemaFile_iff {found : FileTree} (here : tree.get? location = some found) {names : List String} :
    tree.HasSchemaFile directory path names content ↔
      ∃ name, found.get? names = some (file content) ∧ (location ++ names).getLast? = some name ∧
        IsSchemaName name := by
  have below : tree.get? (location ++ names) = found.get? names := by rw [get?_append, here, Option.bind_some]
  constructor
  · rintro ⟨_, name, same, there, last, ends⟩
    cases followed.symm.trans same
    exact ⟨name, below.symm.trans there, last, ends⟩
  · rintro ⟨name, there, last, ends⟩
    exact ⟨location, name, followed, below.trans there, last, ends⟩

theorem mem_schemaFiles_of_file {own : ByteArray} (here : tree.get? location = some (file own)) {place : String} :
    (place, content) ∈ tree.schemaFiles directory path ↔
      ∃ names, tree.HasSchemaFile directory path names content ∧ place = names.foldl Path.join path ∧
        Listable path names := by
  have last := follow_to_file followed here
  rw [schemaFiles_of_file (at?_eq_ok_iff.mpr ⟨location, followed, here⟩)]
  simp only [hasSchemaFile_iff followed here]
  constructor
  · intro member
    split at member
    next ends =>
      cases List.mem_singleton.mp member
      refine ⟨[], ⟨_, rfl, ?_, isSchemaPath_iff_fileName.mp ends⟩, rfl, fun above way => absurd way not_isAbove_nil⟩
      rw [List.append_nil, last]
    next => cases member
  · rintro ⟨names, ⟨name, there, named, ends⟩, rfl, -⟩
    cases names with
    | nil =>
      cases there
      rw [List.append_nil, last] at named
      cases named
      rw [if_pos (isSchemaPath_iff_fileName.mpr ends)]
      exact List.mem_singleton.mpr rfl
    | cons first rest => cases there

theorem mem_schemaFiles_of_directory {entries : List (String × FileTree)}
    (here : tree.get? location = some (.directory entries)) (sound : (FileTree.directory entries).Sound)
    {place : String} :
    (place, content) ∈ tree.schemaFiles directory path ↔
      ∃ names, tree.HasSchemaFile directory path names content ∧ place = names.foldl Path.join path ∧
        Listable path names := by
  rw [schemaFiles_of_directory (at?_eq_ok_iff.mpr ⟨location, followed, here⟩), List.mem_mergeSort, List.mem_filter,
    mem_files_iff sound]
  simp only [hasSchemaFile_iff followed here]
  have last (names : List String) (name : String) : (location ++ (names ++ [name])).getLast? = some name := by
    rw [← List.append_assoc, List.getLast?_concat]
  constructor
  · rintro ⟨⟨names, there, rfl, listable⟩, ends⟩
    rcases List.eq_nil_or_concat names with rfl | ⟨above, name, rfl⟩
    · cases there
    · rw [List.concat_eq_append] at *
      exact ⟨_, ⟨name, there, last above name, (isSchemaPath_below path above name).mp ends⟩, rfl, listable⟩
  · rintro ⟨names, ⟨name, there, named, ends⟩, rfl, listable⟩
    rcases List.eq_nil_or_concat names with rfl | ⟨above, other, rfl⟩
    · cases there
    · rw [List.concat_eq_append] at *
      cases (last above other).symm.trans named
      exact ⟨⟨_, there, rfl, listable⟩, (isSchemaPath_below path above name).mpr ends⟩

end Reached

/-- The files that are collected are those of the schema, but for what lies in directories that cannot be listed. -/
theorem mem_schemaFiles_iff (sound : tree.Sound) {place : String} :
    (place, content) ∈ tree.schemaFiles directory path ↔
      ∃ names, tree.HasSchemaFile directory path names content ∧ place = names.foldl Path.join path ∧
        Listable path names := by
  cases reached : tree.at? directory path with
  | error refusal =>
    rw [schemaFiles_of_error reached]
    refine ⟨nofun, ?_⟩
    rintro ⟨names, ⟨location, name, followed, there, -⟩, -⟩
    rw [get?_append] at there
    obtain ⟨found, here, -⟩ := Option.bind_eq_some_iff.mp there
    rw [at?_eq_ok_iff.mpr ⟨location, followed, here⟩] at reached
    cases reached
  | ok found =>
    obtain ⟨location, followed, here⟩ := at?_eq_ok_iff.mp reached
    cases found with
    | file own => exact mem_schemaFiles_of_file followed here
    | directory entries => exact mem_schemaFiles_of_directory followed here (sound.get? here)

theorem pairwise_mergeSort_of_nodup {found : List (String × ByteArray)} (distinct : (found.map Prod.fst).Nodup) :
    (found.mergeSort fun a b => decide (a.1 ≤ b.1)).Pairwise fun first second => first.1 < second.1 := by
  have sorted : (found.mergeSort fun a b => decide (a.1 ≤ b.1)).Pairwise fun first second =>
      decide (first.1 ≤ second.1) := by
    refine List.pairwise_mergeSort (fun _ _ _ first second => ?_) (fun a b => ?_) found
    · exact decide_eq_true (String.le_trans (of_decide_eq_true first) (of_decide_eq_true second))
    · simpa using String.le_total a.1 b.1
  have apart : (found.mergeSort fun a b => decide (a.1 ≤ b.1)).Pairwise fun first second => first.1 ≠ second.1 :=
    List.pairwise_map.mp (((List.mergeSort_perm found _).map Prod.fst).nodup_iff.mpr distinct)
  refine (sorted.and apart).imp ?_
  rintro first second ⟨before, different⟩
  refine String.not_le.mp fun after => different ?_
  exact String.le_antisymm (of_decide_eq_true before) after

theorem pairwise_schemaFiles (sound : tree.Sound) (directory : List String) (path : String) :
    (tree.schemaFiles directory path).Pairwise fun first second => first.1 < second.1 := by
  cases reached : tree.at? directory path with
  | error refusal =>
    rw [schemaFiles_of_error reached]
    exact .nil
  | ok found =>
    obtain ⟨location, -, here⟩ := at?_eq_ok_iff.mp reached
    cases found with
    | file own =>
      rw [schemaFiles_of_file reached]
      split
      · exact List.pairwise_singleton ..
      · exact .nil
    | directory entries =>
      rw [schemaFiles_of_directory reached]
      refine pairwise_mergeSort_of_nodup ?_
      exact (nodup_files (sound.get? here) admits path).sublist (List.filter_sublist.map Prod.fst)

/-- A schema file is collected under its path just when all directories above it can be listed. -/
theorem mem_schemaFiles_iff_listable (sound : tree.Sound) {names : List String}
    (has : tree.HasSchemaFile directory path names content) :
    (names.foldl Path.join path, content) ∈ tree.schemaFiles directory path ↔ Listable path names := by
  have named {others : List String} {own : ByteArray} (has : tree.HasSchemaFile directory path others own) :
      ∀ name ∈ others, IsEntryName name := by
    obtain ⟨location, _, -, there, -⟩ := has
    exact fun name member => isEntryName_of_get? sound there name (List.mem_append_right _ member)
  rw [mem_schemaFiles_iff sound]
  constructor
  · rintro ⟨others, found, same, listable⟩
    rwa [foldl_join_injective (named has) (named found) same]
  · exact fun listable => ⟨names, has, rfl, listable⟩

theorem SameView.hasSchemaFile_iff {first second : FileTree} (same : SameView first second) {names : List String} :
    second.HasSchemaFile directory path names content ↔ first.HasSchemaFile directory path names content := by
  simp only [HasSchemaFile, same.follow_eq, same.get?_eq_file_iff]

/-- A list that increases strictly is known by its members. -/
theorem Relisted.schemaFiles_eq {listing : FileTree} (relisted : Relisted tree listing) (sound : tree.Sound)
    (directory : List String) (path : String) :
    listing.schemaFiles directory path = tree.schemaFiles directory path := by
  have : Std.Irrefl fun first second : String × ByteArray => first.1 < second.1 := ⟨fun _ => String.lt_irrefl _⟩
  have : Std.Antisymm fun first second : String × ByteArray => first.1 < second.1 :=
    ⟨fun _ _ before after => absurd (String.lt_trans before after) (String.lt_irrefl _)⟩
  have listingSound := relisted.sound sound
  have increasing := pairwise_schemaFiles listingSound directory path
  refine increasing.eq_of_mem_iff (pairwise_schemaFiles sound directory path) ?_
  rintro ⟨place, content⟩
  simp only [mem_schemaFiles_iff sound, mem_schemaFiles_iff listingSound, (relisted.sameView sound).hasSchemaFile_iff]

/-- However the directories of a tree are listed, the files of a schema are collected in the order of their paths, each
once, and all of them are if and only if every directory above them can be listed. They build one schema, in which the
order of the files decides what comes first and which fields win. Only a text with a null character, which is no path,
is refused as such. -/
theorem schemaFiles_exact {tree listing : FileTree} (sound : tree.Sound) (relisted : Relisted tree listing)
    (directory : List String) (path : String) :
    let collected := listing.schemaFiles directory path
    collected.Pairwise (fun first second => first.1 < second.1) ∧
      (∀ place content, (place, content) ∈ collected ↔
        ∃ names, tree.HasSchemaFile directory path names content ∧ place = names.foldl Path.join path ∧
          Listable path names) ∧
      (∀ names content, tree.HasSchemaFile directory path names content →
        ((names.foldl Path.join path, content) ∈ collected ↔ Listable path names)) ∧
      (∀ content, tree.at? directory path = .ok (file content) →
        (IsSchemaName (Path.fileName path) → collected = [(path, content)]) ∧
          (¬IsSchemaName (Path.fileName path) → collected = [])) ∧
      (∀ refusal, tree.at? directory path = .error refusal → collected = []) ∧
      Schema.ofFiles collected = Schema.ofFiles (tree.schemaFiles directory path) ∧
      (Path.holdsNull path = false → Schema.load listing directory path = Schema.ofFiles collected) ∧
      (Path.holdsNull path → Schema.load listing directory path = .error (.unreadable path .embeddedNull)) ∧
      ∀ earlier later first whole, collected = earlier ++ later → Schema.ofFiles earlier = .ok first →
        Schema.ofFiles collected = .ok whole →
          ∃ statements, FilesHold later statements ∧ first.Leads statements whole := by
  intro collected
  have same : collected = tree.schemaFiles directory path := relisted.schemaFiles_eq sound directory path
  rw [same]
  refine ⟨pairwise_schemaFiles sound directory path, fun place content => mem_schemaFiles_iff sound,
    fun names content => mem_schemaFiles_iff_listable sound, fun content reached => ?_,
    fun refusal => schemaFiles_of_error, rfl, fun isPath => ?_, fun null => if_pos null,
    fun earlier later first whole split read all => ?_⟩
  · rw [schemaFiles_of_file reached, ← isSchemaPath_iff_fileName]
    exact ⟨fun ends => if_pos ends, fun other => if_neg other⟩
  · rw [Schema.load, isPath, ← same]
    rfl
  · rw [split] at all
    exact Schema.leads_ofFiles read all

def shipText : String := "type Ship \x7b crew: Int \x7d"

def crewText : String := "extend type Ship \x7b crew: ID, flag: ID \x7d"

def windText : String := "enum Wind \x7b North \x7d"

def berth : List (String × FileTree) :=
  [("z.graphqls", .file crewText.toUTF8), ("notes.txt", .file "type".toUTF8)]

def dock (berth : List (String × FileTree)) : List (String × FileTree) :=
  [("a.graphql", .file shipText.toUTF8), ("a", .directory berth),
    ("a0.graphql", .file windText.toUTF8), ("b.graphql", .directory [])]

/-- A directory between two files, and another one that is called like a schema. -/
def pier : FileTree :=
  .directory [("s", .directory (dock berth))]

def pierBackwards : FileTree :=
  .directory [("s", .directory (dock berth.reverse).reverse)]

def pierFiles : List (String × ByteArray) :=
  [("s/a.graphql", shipText.toUTF8), ("s/a/z.graphqls", crewText.toUTF8), ("s/a0.graphql", windText.toUTF8)]

theorem sound_pier : pier.Sound := by
  have empty : (FileTree.directory []).Sound := .directory .nil (by simp) (by simp)
  have inBerth : (FileTree.directory berth).Sound :=
    .directory (by simp [Table.Distinct, berth]) (by simp [berth, IsEntryName]) (by simp [berth, Sound.file])
  have inDock : (FileTree.directory (dock berth)).Sound :=
    .directory (by simp [Table.Distinct, dock]) (by simp [dock, IsEntryName])
      (by simp [dock, Sound.file, inBerth, empty])
  exact sound_singleton (by simp [IsEntryName]) inDock

theorem relisted_pier : Relisted pier pierBackwards := by
  have inBerth : Relisted (.directory berth) (.directory berth.reverse) := by
    refine .directory (by decide) fun name before after inside listed => ?_
    simp only [berth, List.mem_reverse, List.mem_cons, Prod.mk.injEq, List.not_mem_nil, or_false] at inside listed
    rcases inside with ⟨rfl, rfl⟩ | ⟨rfl, rfl⟩ <;> simp at listed <;> subst listed <;> exact .file _
  have inDock : Relisted (.directory (dock berth)) (.directory (dock berth.reverse).reverse) := by
    refine .directory (by decide) fun name before after inside listed => ?_
    simp only [dock, List.mem_reverse, List.mem_cons, Prod.mk.injEq, List.not_mem_nil, or_false] at inside listed
    rcases inside with ⟨rfl, rfl⟩ | ⟨rfl, rfl⟩ | ⟨rfl, rfl⟩ | ⟨rfl, rfl⟩ <;> simp at listed <;> subst listed
    · exact .file _
    · exact inBerth
    · exact .file _
    · exact .directory .nil (by simp)
  refine .directory (by decide) fun name before after inside listed => ?_
  cases List.mem_singleton.mp inside
  cases List.mem_singleton.mp listed
  exact inDock

def pierStatements : List Statement :=
  [.object { name := "Ship", fields := Schema.intField "crew" }] ++
    ([.extendObject "Ship"
        [{ name := "crew", type := .named "ID" false }, { name := "flag", type := .named "ID" false }]] ++
      [.enum { name := "Wind", values := [{ name := "North" }] }])

theorem filesHold_pier : FilesHold (pierFiles.take 1) (pierStatements.take 1) ∧
    FilesHold (pierFiles.drop 1) (pierStatements.drop 1) ∧ FilesHold pierFiles pierStatements := by
  have first : Source.statementsOf shipText = .ok (pierStatements.take 1) := by decide +kernel
  have second : Source.statementsOf crewText = .ok ((pierStatements.drop 1).take 1) := by decide +kernel
  have third : Source.statementsOf windText = .ok (pierStatements.drop 2) := by decide +kernel
  have ship : decodeText? shipText.toUTF8 = some shipText := rfl
  have crew : decodeText? crewText.toUTF8 = some crewText := rfl
  have wind : decodeText? windText.toUTF8 = some windText := rfl
  have last : FilesHold [("s/a0.graphql", windText.toUTF8)] _ := .cons rfl wind third .nil
  have others : FilesHold (("s/a/z.graphqls", crewText.toUTF8) :: _) _ := .cons rfl crew second last
  have alone : FilesHold [("s/a.graphql", shipText.toUTF8)] _ := .cons rfl ship first .nil
  have held : FilesHold (("s/a.graphql", shipText.toUTF8) :: _) _ := .cons rfl ship first others
  exact ⟨alone, others, held⟩

/-- The file of the directory is read between the two others, since a slash comes behind a full stop and before a digit.
The type keeps its field, however the directories are listed. -/
theorem schemaFiles_exact_pier :
    pier.Sound ∧ Relisted pier pierBackwards ∧ pierBackwards.schemaFiles [] "s" = pierFiles ∧
      ∃ whole ship, Schema.ofFiles (pier.schemaFiles [] "s") = .ok whole ∧ whole.objectType? "Ship" = some ship ∧
        Keeps (Schema.intField "crew") ship.fields := by
  obtain ⟨increasing, -, -, -, -, independent, -, -, leads⟩ := schemaFiles_exact sound_pier relisted_pier [] "s"
  have found : (pierBackwards.schemaFiles [] "s").Perm pierFiles := by
    rw [schemaFiles_of_directory rfl]
    exact (List.mergeSort_perm _ _).trans (List.reverse_perm pierFiles)
  have collected : pierBackwards.schemaFiles [] "s" = pierFiles := by
    have expected : pierFiles.Pairwise fun first second => first.1 < second.1 := by decide
    refine found.eq_of_pairwise (fun first second _ _ before after => ?_) increasing expected
    exact absurd (String.lt_trans before after) (String.lt_irrefl _)
  rw [collected] at independent leads
  obtain ⟨first, others, held⟩ := filesHold_pier
  have read : Schema.ofFiles (pierFiles.take 1) = .ok _ := Schema.addFiles_eq_ok_iff.mpr ⟨_, first, rfl⟩
  have all : Schema.ofFiles pierFiles = .ok _ := Schema.addFiles_eq_ok_iff.mpr ⟨_, held, rfl⟩
  obtain ⟨statements, later, leading⟩ := leads _ _ _ _ (List.take_append_drop 1 pierFiles).symm read all
  cases later.unique others
  obtain ⟨ship, there, keeps⟩ := leading.extended "Ship" _ rfl (by simp [pierStatements])
  exact ⟨sound_pier, relisted_pier, collected, _, ship, independent.symm.trans all, there, keeps⟩

/-- A path that goes down and up again a number of times. -/
def detour : Nat → String
  | 0 => "d"
  | count + 1 => "d/../" ++ detour count

/-- A schema in a directory of the given name. -/
def inlet (name : String) : FileTree :=
  .directory [("d", .directory [(name, .directory [("a.graphql", .file "type A".toUTF8)])])]

theorem size_detour (count : Nat) : (detour count).utf8ByteSize = 5 * count + 1 := by
  induction count with
  | zero => rfl
  | succ count ih =>
    rw [detour, String.utf8ByteSize_append, ih]
    have shuttle : "d/../".utf8ByteSize = 5 := rfl
    omega

theorem getLast?_detour (count : Nat) : (detour count).toList.getLast? = some 'd' := by
  induction count with
  | zero => rfl
  | succ count ih =>
    rw [detour, String.toList_append, List.getLast?_append, ih]
    rfl

theorem head?_detour (count : Nat) : (detour count).toList.head? = some 'd' := by
  cases count with
  | zero => rfl
  | succ count => simp [detour]

theorem not_isFront_detour (count : Nat) : ¬IsFront (detour count) := by
  have last := getLast?_detour count
  rintro (empty | slash)
  · rw [empty] at last
    cases last
  · cases last.symm.trans slash

theorem components_detour (count : Nat) :
    Path.components (detour (count + 1)) = "d" :: ".." :: Path.components (detour count) := by
  rw [Path.components, detour, String.toList_append]
  rfl

theorem holdsNull_detour (count : Nat) : Path.holdsNull (detour count) = false := by
  induction count with
  | zero => rfl
  | succ count ih =>
    rw [Path.holdsNull, List.contains_eq_mem, decide_eq_false_iff_not] at ih ⊢
    rw [detour, String.toList_append, List.mem_append]
    exact fun null => null.elim (by decide) ih

theorem follow_detour {count : Nat} (admitted : admits (detour count)) (name : String) :
    (inlet name).follow [] (detour count) = .ok ["d"] := by
  have some : detour count ≠ "" := fun empty => not_isFront_detour count (Or.inl empty)
  have relative : Path.isAbsolute (detour count) = false := by
    rw [Path.isAbsolute, head?_detour]
    rfl
  have steps : (Path.components (detour count)).foldlM (stepFrom (inlet name)) [] = .ok ["d"] := by
    clear admitted some relative
    induction count with
    | zero => rfl
    | succ count ih =>
      rw [components_detour, List.foldlM_cons]
      exact ih
  refine follow_eq_ok_iff.mpr ⟨⟨holdsNull_detour count, some, admitted⟩, ?_⟩
  rw [relative]
  exact steps

/-- The schema is there, but nothing is collected where the path of its directory is too long. -/
theorem schemaFiles_inlet {count : Nat} {name : String} (admitted : admits (detour count))
    (closed : admits (Path.join (detour count) name) = false) :
    (inlet name).HasSchemaFile [] (detour count) [name, "a.graphql"] "type A".toUTF8 ∧
      (inlet name).schemaFiles [] (detour count) = [] := by
  have followed := follow_detour admitted name
  have reached : (inlet name).get? ["d"] =
      some (.directory [(name, .directory [("a.graphql", .file "type A".toUTF8)])]) := rfl
  refine ⟨(hasSchemaFile_iff followed reached).mpr ⟨"a.graphql", ?_, rfl, "a", Or.inl rfl⟩, ?_⟩
  · simp [get?_directory, Table.find?]
    rfl
  · rw [schemaFiles_of_directory (at?_eq_ok_iff.mpr ⟨["d"], followed, reached⟩)]
    simp [files, entryFiles, admitted, closed]

theorem sound_inlet {name : String} (named : IsEntryName name) : (inlet name).Sound :=
  sound_singleton (by simp [IsEntryName]) (sound_singleton named (sound_singleton (by simp [IsEntryName]) (.file _)))

/-- A name of the letter x alone. -/
def longName : Nat → String
  | 0 => ""
  | length + 1 => "x" ++ longName length

theorem size_longName (length : Nat) : (longName length).utf8ByteSize = length := by
  induction length with
  | zero => rfl
  | succ length ih =>
    rw [longName, String.utf8ByteSize_append, ih]
    exact Nat.add_comm 1 length

theorem isEntryName_longName {length : Nat} (some : length ≠ 0) : IsEntryName (longName length) := by
  constructor
  · intro empty
    have size := size_longName length
    rw [empty] at size
    exact some size.symm
  · clear some
    induction length with
    | zero => exact List.not_mem_nil
    | succ length ih =>
      rw [longName, String.toList_append, List.mem_append]
      exact fun slash => slash.elim (by decide) ih

/-- With names and a path that the operating system takes, the schema is passed over and an empty one is built. -/
theorem schemaFiles_incomplete :
    let name := longName 250
    (inlet name).Sound ∧ (inlet name).HasSchemaFile [] (detour 780) [name, "a.graphql"] "type A".toUTF8 ∧
      (inlet name).schemaFiles [] (detour 780) = [] ∧
      Schema.ofFiles ((inlet name).schemaFiles [] (detour 780)) = .ok {} := by
  intro name
  have admitted : admits (detour 780) := decide_eq_true (by rw [size_detour]; decide)
  have closed : admits (Path.join (detour 780) name) = false := by
    rw [Path.join_eq, Path.front_of_not_isFront (not_isFront_detour 780)]
    refine decide_eq_false ?_
    rw [String.utf8ByteSize_append, String.utf8ByteSize_append, size_detour, size_longName]
    decide
  obtain ⟨has, none⟩ := schemaFiles_inlet admitted closed
  refine ⟨sound_inlet (isEntryName_longName (by decide)), has, none, ?_⟩
  rw [none]
  rfl

end Collection

end FileTree

end SchemaScribe
