import SchemaScribe.Files.Tree
import SchemaScribe.Proofs.Tables
import SchemaScribe.Source.Progress

/-! What writing a file does to a tree. Directories are only added, and only above the file; what does not lie on
the way to it is left alone. An attempt that is refused leaves no trace, unless a name on the way is too long: the
directories above that name have been made by then. A file that has been opened is empty until it is filled. -/

namespace SchemaScribe

/-- The location of a directory on the way to another location. -/
def IsAbove (above location : List String) : Prop :=
  above <+: location ∧ above ≠ location

theorem not_isAbove_nil {above : List String} : ¬IsAbove above [] :=
  fun way => way.2 (List.prefix_nil.mp way.1)

theorem isAbove_cons {above : List String} {name : String} {rest : List String} :
    IsAbove above (name :: rest) ↔ above = [] ∨ ∃ below, above = name :: below ∧ IsAbove below rest := by
  cases above with
  | nil => simp [IsAbove]
  | cons first below =>
    rw [IsAbove, List.cons_prefix_cons]
    constructor
    · rintro ⟨⟨rfl, way⟩, other⟩
      exact Or.inr ⟨below, rfl, way, fun same => other (congrArg _ same)⟩
    · rintro (impossible | ⟨_, same, way⟩)
      · cases impossible
      · cases same
        exact ⟨⟨rfl, way.1⟩, fun same => way.2 (List.cons.inj same).2⟩

theorem not_prefix_of_concat (names : List String) (name : String) : ¬names ++ [name] <+: names := by
  intro way
  have length := way.length_le
  rw [List.length_append, List.length_singleton] at length
  omega

theorem isAbove_concat {above names : List String} {name : String} :
    IsAbove above (names ++ [name]) ↔ above <+: names := by
  rw [IsAbove, List.prefix_concat_iff]
  constructor
  · rintro ⟨same | way, other⟩
    · exact absurd same other
    · exact way
  · intro way
    refine ⟨Or.inr way, ?_⟩
    rintro rfl
    exact not_prefix_of_concat names name way

namespace FileTree

section Locations

variable {tree : FileTree}

theorem get?_append (tree : FileTree) (first second : List String) :
    tree.get? (first ++ second) = (tree.get? first).bind (·.get? second) :=
  List.foldlM_append

theorem get?_directory (entries : List (String × FileTree)) (name : String) (rest : List String) :
    (directory entries).get? (name :: rest) = (Table.find? entries name).bind (·.get? rest) :=
  rfl

theorem get?_file (content : ByteArray) {location : List String} (inside : location ≠ []) :
    (file content).get? location = none := by
  cases location with
  | nil => exact absurd rfl inside
  | cons name rest => rfl

theorem get?_emptyDirectory {location : List String} (inside : location ≠ []) :
    (directory []).get? location = none := by
  cases location with
  | nil => exact absurd rfl inside
  | cons name rest => rfl

theorem hasDirectory_iff {location : List String} :
    tree.hasDirectory location ↔ ∃ entries, tree.get? location = some (directory entries) := by
  rw [hasDirectory]
  cases tree.get? location with
  | none => simp
  | some found => cases found <;> simp [isDirectory]

end Locations

/-- Something has been put at a location, below directories that were there. -/
inductive Placed (entry : FileTree) : List String → FileTree → FileTree → Prop
  | here (tree : FileTree) : Placed entry [] tree entry
  | added {name : String} {entries : List (String × FileTree)} (missing : Table.find? entries name = none) :
      Placed entry [name] (directory entries) (directory (Table.insert name entry entries))
  | inside {name : String} {rest : List String} {entries : List (String × FileTree)} {before after : FileTree}
      (found : Table.find? entries name = some before) (placed : Placed entry rest before after) :
      Placed entry (name :: rest) (directory entries) (directory (Table.insert name after entries))

theorem placed_of_place {entry tree changed : FileTree} {location : List String}
    (done : place entry location tree = .ok changed) : Placed entry location tree changed := by
  induction location generalizing tree changed with
  | nil =>
    cases done
    exact .here tree
  | cons name rest ih =>
    cases tree with
    | file content => cases done
    | directory entries =>
      rw [place] at done
      split at done
      next => cases done
      next =>
        split at done
        next found =>
          obtain ⟨after, placed, rfl⟩ := Source.map_eq_ok done
          exact .inside found (ih placed)
        next missing =>
          split at done
          next last =>
            cases done
            cases List.isEmpty_iff.mp last
            exact .added missing
          next => cases done

theorem not_isTooLong_of_place {entry tree changed : FileTree} {location : List String}
    (done : place entry location tree = .ok changed) : ∀ name ∈ location, ¬isTooLong name := by
  induction location generalizing tree changed with
  | nil => exact List.forall_mem_nil _
  | cons name rest ih =>
    cases tree with
    | file content => cases done
    | directory entries =>
      rw [place] at done
      split at done
      next => cases done
      next short =>
        refine List.forall_mem_cons.mpr ⟨short, ?_⟩
        split at done
        next =>
          obtain ⟨after, placed, -⟩ := Source.map_eq_ok done
          exact ih placed
        next =>
          split at done
          next last =>
            rw [List.isEmpty_iff.mp last]
            exact List.forall_mem_nil _
          next => cases done

/-- Whoever is refused finds nothing or a file on the way, or a name that is too long. -/
theorem place_eq_error {entry tree : FileTree} {location : List String} {refusal : AccessError}
    (refused : place entry location tree = .error refusal) :
    (refusal = .notFound ∧ ∃ above, IsAbove above location ∧ tree.get? above = none) ∨
      (refusal = .notADirectory ∧ ∃ above content, IsAbove above location ∧ tree.get? above = some (file content)) ∨
      (refusal = .nameTooLong ∧ ∃ name ∈ location, isTooLong name) := by
  induction location generalizing tree with
  | nil => cases refused
  | cons name rest ih =>
    cases tree with
    | file content =>
      cases refused
      exact Or.inr (Or.inl ⟨rfl, [], content, isAbove_cons.mpr (Or.inl rfl), rfl⟩)
    | directory entries =>
      rw [place] at refused
      split at refused
      next long =>
        cases refused
        exact Or.inr (Or.inr ⟨rfl, name, List.mem_cons_self .., long⟩)
      next =>
        split at refused
        next below found =>
          have deeper {above : List String} (way : IsAbove above rest) : IsAbove (name :: above) (name :: rest) :=
            isAbove_cons.mpr (Or.inr ⟨above, rfl, way⟩)
          have seen (above : List String) : (directory entries).get? (name :: above) = below.get? above := by
            rw [get?_directory, found, Option.bind_some]
          cases outcome : place entry rest below with
          | ok =>
            rw [outcome] at refused
            cases refused
          | error =>
            rw [outcome] at refused
            cases refused
            rcases ih outcome with ⟨rfl, above, way, missing⟩ | ⟨rfl, above, content, way, file⟩ | ⟨rfl, long⟩
            · exact Or.inl ⟨rfl, name :: above, deeper way, (seen above).trans missing⟩
            · exact Or.inr (Or.inl ⟨rfl, name :: above, content, deeper way, (seen above).trans file⟩)
            · exact Or.inr (Or.inr ⟨rfl, long.imp fun _ => And.imp_left (List.mem_cons_of_mem _)⟩)
        next missing =>
          split at refused
          next => cases refused
          next inside =>
            cases refused
            refine Or.inl ⟨rfl, [name], isAbove_cons.mpr (Or.inr ⟨[], rfl, List.nil_prefix, ?_⟩), ?_⟩
            · rintro rfl
              exact inside rfl
            · rw [get?_directory, missing, Option.bind_none]

namespace Placed

variable {entry before after : FileTree} {location : List String} (placed : Placed entry location before after)
include placed

theorem get?_location : after.get? location = some entry := by
  induction placed with
  | here => rfl
  | added => rw [get?_directory, Table.find?_insert, if_pos rfl]; rfl
  | inside _ _ ih => rw [get?_directory, Table.find?_insert, if_pos rfl]; exact ih

theorem hasDirectory_before {above : List String} (way : IsAbove above location) : before.hasDirectory above := by
  induction placed generalizing above with
  | here => exact absurd way not_isAbove_nil
  | added =>
    rcases isAbove_cons.mp way with rfl | ⟨_, -, impossible⟩
    · rfl
    · exact absurd impossible not_isAbove_nil
  | inside found _ ih =>
    rcases isAbove_cons.mp way with rfl | ⟨below, rfl, deeper⟩
    · rfl
    · rw [hasDirectory, get?_directory, found]
      exact ih deeper

theorem hasDirectory_after {above : List String} (way : IsAbove above location) : after.hasDirectory above := by
  induction placed generalizing above with
  | here => exact absurd way not_isAbove_nil
  | added =>
    rcases isAbove_cons.mp way with rfl | ⟨_, -, impossible⟩
    · rfl
    · exact absurd impossible not_isAbove_nil
  | inside _ _ ih =>
    rcases isAbove_cons.mp way with rfl | ⟨below, rfl, deeper⟩
    · rfl
    · rw [hasDirectory, get?_directory, Table.find?_insert, if_pos rfl]
      exact ih deeper

theorem get?_elsewhere {other : List String} (notAbove : ¬other <+: location) (notBelow : ¬location <+: other) :
    after.get? other = before.get? other := by
  induction placed generalizing other with
  | here => exact absurd List.nil_prefix notBelow
  | @added name entries =>
    cases other with
    | nil => exact absurd List.nil_prefix notAbove
    | cons first rest =>
      have different : first ≠ name := by
        rintro rfl
        exact notBelow (List.cons_prefix_cons.mpr ⟨rfl, List.nil_prefix⟩)
      rw [get?_directory, get?_directory, Table.find?_insert, if_neg different]
  | @inside name rest entries _ _ found _ ih =>
    cases other with
    | nil => exact absurd List.nil_prefix notAbove
    | cons first others =>
      rw [get?_directory, get?_directory, Table.find?_insert]
      by_cases same : first = name
      · subst same
        rw [if_pos rfl, found]
        apply ih
        · exact fun way => notAbove (List.cons_prefix_cons.mpr ⟨rfl, way⟩)
        · exact fun way => notBelow (List.cons_prefix_cons.mpr ⟨rfl, way⟩)
      · rw [if_neg same]

end Placed

end FileTree

/-! Work that keeps a state and may be refused, step by step. -/
section Steps

variable {action : ExceptT ε (StateM σ) α} {before after : σ}

theorem run_get (state : σ) : (get : ExceptT ε (StateM σ) σ).run.run state = (.ok state, state) :=
  rfl

theorem run_bind_of_ok {next : α → ExceptT ε (StateM σ) β} {value : α}
    (done : action.run.run before = (.ok value, after)) :
    (action >>= next).run.run before = (next value).run.run after := by
  simp only [ExceptT.run_bind, StateT.run_bind, done]
  rfl

theorem run_bind_of_error {next : α → ExceptT ε (StateM σ) β} {error : ε}
    (failed : action.run.run before = (.error error, after)) :
    (action >>= next).run.run before = (.error error, after) := by
  simp only [ExceptT.run_bind, StateT.run_bind, failed]
  rfl

theorem run_tryCatch_of_ok {handler : ε → ExceptT ε (StateM σ) α} {value : α}
    (done : action.run.run before = (.ok value, after)) :
    (tryCatch action handler).run.run before = (.ok value, after) := by
  simp only [tryCatch, tryCatchThe, MonadExceptOf.tryCatch, ExceptT.tryCatch, ExceptT.run_mk, StateT.run_bind]
  rw [ExceptT.run] at done
  simp only [done]
  rfl

theorem run_tryCatch_of_error {handler : ε → ExceptT ε (StateM σ) α} {error : ε}
    (failed : action.run.run before = (.error error, after)) :
    (tryCatch action handler).run.run before = (handler error).run.run after := by
  simp only [tryCatch, tryCatchThe, MonadExceptOf.tryCatch, ExceptT.tryCatch, ExceptT.run_mk, StateT.run_bind]
  rw [ExceptT.run] at failed
  simp only [failed]
  rfl

end Steps

namespace FileTree

/-- Nothing differs but what stands on the way to a location or at it. -/
def SameElsewhere (location : List String) (before after : FileTree) : Prop :=
  ∀ other, ¬other <+: location → after.get? other = before.get? other

theorem SameElsewhere.concat {names : List String} {before after : FileTree} (same : SameElsewhere names before after)
    (name : String) : SameElsewhere (names ++ [name]) before after :=
  fun other apart => same other fun way => apart (way.trans (List.prefix_append ..))

/-- The directories down to a location are there, and everything else is as it was. -/
structure MadeDown (location : List String) (before after : FileTree) : Prop where
  made : ∀ above, above <+: location → after.hasDirectory above
  noFile : ∀ above, above <+: location → ∀ content, before.get? above ≠ some (file content)
  elsewhere : SameElsewhere location before after

/-- A file has been written, the directories above it are there, and everything else is as it was. -/
structure Written (content : ByteArray) (location : List String) (before after : FileTree) : Prop where
  holds : after.get? location = some (file content)
  above : ∀ above, IsAbove above location → after.hasDirectory above
  elsewhere : SameElsewhere location before after

/-- A file can be written: only directories are in its way, and none is in its place. The top is no place for it. -/
structure Writable (location : List String) (tree : FileTree) : Prop where
  named : location ≠ []
  noFile : ∀ above, IsAbove above location → ∀ content, tree.get? above ≠ some (file content)
  noDirectory : ¬tree.hasDirectory location

/-- How an attempt to make the directories down to a location can end. -/
inductive Making (location : List String) (before : FileTree) : Except AccessError Unit × FileTree → Prop
  | made {after : FileTree} (made : MadeDown location before after)
      (unneeded : (before.get? location).isSome → after = before) : Making location before (.ok (), after)
  | blocked {above : List String} {content : ByteArray} (refusal : AccessError) (way : above <+: location)
      (found : before.get? above = some (file content)) : Making location before (.error refusal, before)
  | tooLong {after : FileTree} (long : ∃ name ∈ location, isTooLong name)
      (elsewhere : SameElsewhere location before after) :
      Making location before (.error .nameTooLong, after)

/-- How an attempt to open a file can end. -/
inductive Opening (location : List String) (before : FileTree) : Except AccessError Unit × FileTree → Prop
  | opened {after : FileTree} (writable : Writable location before) (short : ∀ name ∈ location, ¬isTooLong name)
      (opened : Written .empty location before after) : Opening location before (.ok (), after)
  | blocked (refusal : AccessError) (blocked : ¬Writable location before) :
      Opening location before (.error refusal, before)
  | tooLong {after : FileTree} (long : ∃ name ∈ location, isTooLong name)
      (elsewhere : SameElsewhere location before after) :
      Opening location before (.error .nameTooLong, after)

variable {tree before middle after : FileTree} {location : List String}

theorem hasDirectory_of_isAbove (found : (tree.get? location).isSome) {above : List String}
    (way : IsAbove above location) : tree.hasDirectory above := by
  obtain ⟨⟨below, rfl⟩, other⟩ := way
  rw [get?_append] at found
  cases reached : tree.get? above with
  | none => rw [reached] at found; cases found
  | some entry =>
    cases entry with
    | directory entries => exact hasDirectory_iff.mpr ⟨entries, reached⟩
    | file content =>
      have inside : below ≠ [] := fun last => other (by rw [last, List.append_nil])
      rw [reached, Option.bind_some, get?_file content inside] at found
      cases found

theorem ne_file_of_hasDirectory (holds : tree.hasDirectory location) (content : ByteArray) :
    tree.get? location ≠ some (file content) := by
  obtain ⟨entries, found⟩ := hasDirectory_iff.mp holds
  rw [found]
  exact fun same => nomatch same

theorem MadeDown.refl (made : ∀ above, above <+: location → tree.hasDirectory above) : MadeDown location tree tree where
  made := made
  noFile above way := ne_file_of_hasDirectory (made above way)
  elsewhere _ _ := rfl

/-- What does not lie on the way is left alone, also what would lie below. -/
theorem Placed.elsewhere {entry : FileTree} (placed : Placed entry location before after)
    (bare : ∀ below, below ≠ [] → entry.get? below = none) (free : ¬before.hasDirectory location) {other : List String}
    (apart : ¬other <+: location) : after.get? other = before.get? other := by
  by_cases under : location <+: other
  · obtain ⟨below, rfl⟩ := under
    have inside : below ≠ [] := by
      rintro rfl
      rw [List.append_nil] at apart
      exact apart List.prefix_rfl
    rw [get?_append, get?_append, placed.get?_location, Option.bind_some, bare below inside]
    cases found : before.get? location with
    | none => rfl
    | some old =>
      cases old with
      | file content => rw [Option.bind_some, get?_file content inside]
      | directory entries => exact absurd (hasDirectory_iff.mpr ⟨entries, found⟩) free
  · exact placed.get?_elsewhere apart under

theorem MadeDown.concat {names : List String} {name : String} (made : MadeDown names before middle)
    (missing : middle.get? (names ++ [name]) = none) (placed : Placed (directory []) (names ++ [name]) middle after) :
    MadeDown (names ++ [name]) before after where
  made above way := by
    rcases List.prefix_concat_iff.mp way with rfl | way
    · exact hasDirectory_iff.mpr ⟨[], placed.get?_location⟩
    · exact placed.hasDirectory_after (isAbove_concat.mpr way)
  noFile above way := by
    rcases List.prefix_concat_iff.mp way with rfl | way
    · rw [← made.elsewhere _ (not_prefix_of_concat names name), missing]
      exact fun _ same => nomatch same
    · exact made.noFile above way
  elsewhere other apart := by
    have free : ¬middle.hasDirectory (names ++ [name]) := by simp [hasDirectory, missing]
    rw [placed.elsewhere (fun _ => get?_emptyDirectory) free apart]
    exact made.elsewhere.concat name other apart

/-- Where all the directories are, only a name that is too long is refused. -/
theorem MadeDown.place {names : List String} (made : MadeDown names before middle) (entry : FileTree) (name : String) :
    (∃ after, place entry (names ++ [name]) middle = .ok after) ∨
      FileTree.place entry (names ++ [name]) middle = .error .nameTooLong ∧
        ∃ long ∈ names ++ [name], isTooLong long := by
  cases outcome : FileTree.place entry (names ++ [name]) middle with
  | ok after => exact Or.inl ⟨after, rfl⟩
  | error refusal =>
    right
    rcases place_eq_error outcome with ⟨-, above, way, missing⟩ | ⟨-, above, content, way, blocked⟩ | ⟨rfl, long⟩
    · have there := made.made above (isAbove_concat.mp way)
      rw [hasDirectory, missing] at there
      cases there
    · exact absurd blocked (ne_file_of_hasDirectory (made.made above (isAbove_concat.mp way)) content)
    · exact ⟨rfl, long⟩

end FileTree

namespace FileAccess
open FileTree

variable {tree before after : FileTree} {location : List String}

theorem change_of_ok {update : FileTree → Except AccessError FileTree} (updated : update before = .ok after) :
    (change update).run.run before = (.ok (), after) := by
  rw [change, run_bind_of_ok (run_get before), updated]
  rfl

theorem change_of_error {update : FileTree → Except AccessError FileTree} {refusal : AccessError}
    (refused : update tree = .error refusal) : (change update).run.run tree = (.error refusal, tree) := by
  rw [change, run_bind_of_ok (run_get tree), refused]
  rfl

theorem makeDirectory_eq_change (missing : tree.get? location = none) :
    (makeDirectory location).run.run tree = (change (place (directory []) location)).run.run tree := by
  have same : (if (tree.get? location).isSome then Except.error AccessError.alreadyExists
      else place (directory []) location tree) = place (directory []) location tree := by
    rw [missing]
    rfl
  cases outcome : place (directory []) location tree with
  | ok after => rw [change_of_ok outcome]; exact change_of_ok (same.trans outcome)
  | error refusal => rw [change_of_error outcome]; exact change_of_error (same.trans outcome)

section OneDirectory

variable {name : String} {names : List String}

theorem makeDirectories_of_ok (made : (makeDirectory (names.reverse ++ [name])).run.run before = (.ok (), after)) :
    (makeDirectories (name :: names)).run.run before = (.ok (), after) := by
  rw [makeDirectories, List.reverse_cons]
  exact run_tryCatch_of_ok made

theorem makeDirectories_of_notFound
    (refused : (makeDirectory (names.reverse ++ [name])).run.run tree = (.error .notFound, tree)) :
    (makeDirectories (name :: names)).run.run tree =
      (do makeDirectories names; makeDirectory (names.reverse ++ [name])).run.run tree := by
  rw [makeDirectories, List.reverse_cons, run_tryCatch_of_error refused, if_pos rfl]

theorem makeDirectories_of_error {refusal : AccessError}
    (refused : (makeDirectory (names.reverse ++ [name])).run.run tree = (.error refusal, tree))
    (other : refusal ≠ .notFound) :
    (makeDirectories (name :: names)).run.run tree =
      (if tree.hasDirectory (names.reverse ++ [name]) then .ok () else .error refusal, tree) := by
  rw [makeDirectories, List.reverse_cons, run_tryCatch_of_error refused, if_neg other, run_bind_of_ok (run_get tree)]
  split <;> rfl

theorem makeDirectories_of_found {entry : FileTree} (found : tree.get? (names.reverse ++ [name]) = some entry) :
    (makeDirectories (name :: names)).run.run tree =
      (if entry.isDirectory then .ok () else .error .alreadyExists, tree) := by
  have refused : (makeDirectory (names.reverse ++ [name])).run.run tree = (.error .alreadyExists, tree) := by
    apply change_of_error
    rw [found]
    rfl
  rw [makeDirectories_of_error refused (by decide), hasDirectory, found]
  rfl

end OneDirectory

theorem makeDirectories_found {name : String} {names : List String} {entry : FileTree}
    (found : tree.get? (names.reverse ++ [name]) = some entry) :
    Making (names.reverse ++ [name]) tree ((makeDirectories (name :: names)).run.run tree) := by
  rw [makeDirectories_of_found found]
  cases entry with
  | file content => exact .blocked .alreadyExists List.prefix_rfl found
  | directory entries =>
    refine .made (.refl fun above way => ?_) fun _ => rfl
    rcases List.prefix_concat_iff.mp way with rfl | way
    · exact hasDirectory_iff.mpr ⟨entries, found⟩
    · exact hasDirectory_of_isAbove (Option.isSome_of_eq_some found) (isAbove_concat.mpr way)

/-- The directory itself is made below those that are already there. -/
theorem makeDirectory_below {name : String} {names : List String} {middle : FileTree}
    (made : MadeDown names tree middle) (missing : tree.get? (names ++ [name]) = none) :
    Making (names ++ [name]) tree ((makeDirectory (names ++ [name])).run.run middle) := by
  have still := (made.elsewhere _ (not_prefix_of_concat names name)).trans missing
  rw [makeDirectory_eq_change still]
  rcases made.place (directory []) name with ⟨after, outcome⟩ | ⟨outcome, long⟩
  · rw [change_of_ok outcome]
    refine .made (made.concat still (placed_of_place outcome)) fun there => ?_
    rw [missing] at there
    cases there
  · rw [change_of_error outcome]
    exact .tooLong long (made.elsewhere.concat name)

theorem makeDirectories_missing {name : String} {names : List String}
    (missing : tree.get? (names.reverse ++ [name]) = none)
    (parents : Making names.reverse tree ((makeDirectories names).run.run tree)) :
    Making (names.reverse ++ [name]) tree ((makeDirectories (name :: names)).run.run tree) := by
  have absent : ¬tree.hasDirectory (names.reverse ++ [name]) := by simp [hasDirectory, missing]
  have changed := makeDirectory_eq_change missing
  cases outcome : place (directory []) (names.reverse ++ [name]) tree with
  | ok after =>
    have placed := placed_of_place outcome
    have there := MadeDown.refl fun above way => placed.hasDirectory_before (isAbove_concat.mpr way)
    have made := changed.trans (change_of_ok outcome)
    rw [makeDirectories_of_ok made, ← made]
    exact makeDirectory_below there missing
  | error refusal =>
    have refused := changed.trans (change_of_error outcome)
    rcases place_eq_error outcome with ⟨rfl, -⟩ | ⟨rfl, above, content, way, blocked⟩ | ⟨rfl, long⟩
    · rw [makeDirectories_of_notFound refused]
      generalize ended : (makeDirectories names).run.run tree = result at parents
      cases parents with
      | made made =>
        rw [run_bind_of_ok ended]
        exact makeDirectory_below made missing
      | blocked refusal way found =>
        rw [run_bind_of_error ended]
        exact .blocked refusal (way.trans (List.prefix_append ..)) found
      | tooLong long elsewhere =>
        rw [run_bind_of_error ended]
        exact .tooLong (long.imp fun _ => And.imp_left (List.mem_append_left _)) (elsewhere.concat name)
    · rw [makeDirectories_of_error refused (by decide), if_neg absent]
      exact .blocked .notADirectory way.1 blocked
    · rw [makeDirectories_of_error refused (by decide), if_neg absent]
      exact .tooLong long fun _ _ => rfl

theorem makeDirectories_making (names : List String) (tree : FileTree) :
    Making names.reverse tree ((makeDirectories names).run.run tree) := by
  induction names generalizing tree with
  | nil =>
    cases tree with
    | file content => exact .blocked .alreadyExists List.nil_prefix rfl
    | directory entries =>
      refine .made (.refl fun above way => ?_) fun _ => rfl
      rw [List.prefix_nil.mp way]
      rfl
  | cons name names ih =>
    rw [List.reverse_cons]
    cases found : tree.get? (names.reverse ++ [name]) with
    | some entry => exact makeDirectories_found found
    | none => exact makeDirectories_missing found (ih tree)

theorem openFile_of_hasDirectory (taken : tree.hasDirectory location) :
    (openFile location).run.run tree = (.error .isADirectory, tree) :=
  change_of_error (if_pos taken)

theorem openFile_of_place (free : ¬before.hasDirectory location)
    (outcome : place (file .empty) location before = .ok after) :
    (openFile location).run.run before = (.ok (), after) :=
  change_of_ok ((if_neg free).trans outcome)

theorem openFile_of_refused {refusal : AccessError} (free : ¬tree.hasDirectory location)
    (outcome : place (file .empty) location tree = .error refusal) :
    (openFile location).run.run tree = (.error refusal, tree) :=
  change_of_error ((if_neg free).trans outcome)

/-- The file itself is opened below the directories that are there by then. -/
theorem openFile_below {name : String} {names : List String} {middle : FileTree}
    (made : MadeDown names tree middle) (unneeded : (tree.get? names).isSome → middle = tree) :
    Opening (names ++ [name]) tree ((openFile (names ++ [name])).run.run middle) := by
  have kept := made.elsewhere _ (not_prefix_of_concat names name)
  by_cases taken : middle.hasDirectory (names ++ [name])
  · -- Nothing had to be made above a directory that is already there.
    rw [hasDirectory, kept, ← hasDirectory] at taken
    have present : (tree.get? names).isSome := by
      obtain ⟨entries, found⟩ := hasDirectory_iff.mp taken
      have parent := hasDirectory_of_isAbove (Option.isSome_of_eq_some found) (isAbove_concat.mpr List.prefix_rfl)
      obtain ⟨entries, found⟩ := hasDirectory_iff.mp parent
      exact Option.isSome_of_eq_some found
    rw [unneeded present, openFile_of_hasDirectory taken]
    exact .blocked .isADirectory fun writable => writable.noDirectory taken
  · rcases made.place (file .empty) name with ⟨after, outcome⟩ | ⟨outcome, long⟩
    · have placed := placed_of_place outcome
      rw [openFile_of_place taken outcome]
      refine .opened ⟨by simp, ?_, ?_⟩ (not_isTooLong_of_place outcome)
        ⟨placed.get?_location, fun above way => placed.hasDirectory_after way, ?_⟩
      · exact fun above way => made.noFile above (isAbove_concat.mp way)
      · rwa [hasDirectory, ← kept, ← hasDirectory]
      · intro other apart
        rw [placed.elsewhere (fun _ => get?_file .empty) taken apart]
        exact made.elsewhere.concat name other apart
    · rw [openFile_of_refused taken outcome]
      exact .tooLong long (made.elsewhere.concat name)

/-- Opening a file succeeds if it can, and otherwise changes nothing, unless it comes to a name that is too long. -/
theorem openOutput_opening (location : List String) (tree : FileTree) :
    Opening location tree ((openOutput location).run.run tree) := by
  rcases List.eq_nil_or_concat location with rfl | ⟨names, name, rfl⟩
  · have nowhere : ¬Writable [] tree := fun writable => writable.named rfl
    cases tree with
    | file => exact .blocked .alreadyExists nowhere
    | directory => exact .blocked .isADirectory nowhere
  rw [List.concat_eq_append, openOutput, List.dropLast_concat]
  have making := makeDirectories_making names.reverse tree
  rw [List.reverse_reverse] at making
  generalize ended : (makeDirectories names.reverse).run.run tree = result at making
  cases making with
  | made made unneeded =>
    rw [run_bind_of_ok ended]
    exact openFile_below made unneeded
  | blocked refusal way found =>
    rw [run_bind_of_error ended]
    exact .blocked refusal fun writable => writable.noFile _ (isAbove_concat.mpr way) _ found
  | tooLong long elsewhere =>
    rw [run_bind_of_error ended]
    exact .tooLong (long.imp fun _ => And.imp_left (List.mem_append_left _)) (elsewhere.concat name)

/-- A file that is open can always be filled. -/
theorem fillFile_of_opened {middle : FileTree} {old : ByteArray} (opened : Written old location tree middle)
    (short : ∀ name ∈ location, ¬isTooLong name) (content : ByteArray) :
    ∃ after, (fillFile content location).run.run middle = (.ok (), after) ∧ Written content location tree after := by
  have free : ¬middle.hasDirectory location := fun taken => ne_file_of_hasDirectory taken old opened.holds
  cases outcome : place (file content) location middle with
  | error refusal =>
    rcases place_eq_error outcome with
      ⟨-, above, way, missing⟩ | ⟨-, above, other, way, blocked⟩ | ⟨-, name, inside, long⟩
    · have there := opened.above above way
      rw [hasDirectory, missing] at there
      cases there
    · exact absurd blocked (ne_file_of_hasDirectory (opened.above above way) other)
    · exact absurd long (short name inside)
  | ok after =>
    have placed := placed_of_place outcome
    refine ⟨after, change_of_ok outcome, placed.get?_location, fun above way => placed.hasDirectory_after way, ?_⟩
    intro other apart
    rw [placed.elsewhere (fun _ => get?_file content) free apart]
    exact opened.elsewhere other apart

end FileAccess

end SchemaScribe
