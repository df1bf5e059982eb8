import Mathlib.Data.List.Nodup
import SchemaScribe.Proofs.FileListing

/-! The walk over the directories of a tree. It finds each file once, under the path that leads to it. -/

namespace SchemaScribe

/-- What can stand in front of a name in a path. -/
def IsFront (front : String) : Prop :=
  front = "" ∨ front.toList.getLast? = some '/'

/-- What a directory puts in front of the names of its entries. -/
def Path.front (directory : String) : String :=
  if directory = "" ∨ directory.toList.getLast? = some '/' then directory else directory ++ "/"

theorem Path.isFront_front (directory : String) : IsFront (front directory) := by
  rw [front]
  split
  next isFront => exact isFront
  next => exact Or.inr (by simp)

theorem Path.front_of_not_isFront {directory : String} (complete : ¬IsFront directory) :
    front directory = directory ++ "/" :=
  if_neg complete

theorem Path.join_eq (directory name : String) : join directory name = front directory ++ name := by
  rw [join, front]
  split <;> rfl

namespace FileTree

variable {enters : String → Bool} {path : String}

theorem entryFiles_eq (enters : String → Bool) (path : String) (entries : List (String × FileTree)) :
    entryFiles enters path entries = entries.flatMap fun entry => entry.2.files enters (Path.join path entry.1) := by
  induction entries with
  | nil => rfl
  | cons entry rest ih => rw [entryFiles, ih, List.flatMap_cons]

theorem mem_files_directory_iff {entries : List (String × FileTree)} {found : String × ByteArray} :
    found ∈ (directory entries).files enters path ↔
      enters path ∧ ∃ entry ∈ entries, found ∈ entry.2.files enters (Path.join path entry.1) := by
  rw [files, entryFiles_eq]
  split
  next entered => simp [entered]
  next closed => simp [closed]

/-- The walk finds each file that it can get to, under the path that leads there. -/
theorem mem_files_iff {tree : FileTree} (sound : tree.Sound) {place : String} {content : ByteArray} :
    (place, content) ∈ tree.files enters path ↔
      ∃ names, tree.get? names = some (file content) ∧ place = names.foldl Path.join path ∧
        ∀ above, IsAbove above names → enters (above.foldl Path.join path) := by
  induction sound generalizing path with
  | file own =>
    rw [files, List.mem_singleton]
    constructor
    · rintro ⟨⟩
      exact ⟨[], rfl, rfl, fun above way => absurd way not_isAbove_nil⟩
    · rintro ⟨names, there, rfl, -⟩
      cases names with
      | nil => cases there; rfl
      | cons name rest => cases there
  | @directory entries distinct named below ih =>
    rw [mem_files_directory_iff]
    constructor
    · rintro ⟨entered, ⟨name, tree⟩, member, found⟩
      obtain ⟨names, there, rfl, passed⟩ := (ih _ member).mp found
      refine ⟨name :: names, ?_, rfl, fun above way => ?_⟩
      · rw [get?_directory, distinct.find?_of_mem member]
        exact there
      · rcases isAbove_cons.mp way with rfl | ⟨deeper, rfl, inside⟩
        · exact entered
        · exact passed deeper inside
    · rintro ⟨names, there, rfl, passed⟩
      cases names with
      | nil => cases there
      | cons name rest =>
        rw [get?_directory] at there
        obtain ⟨tree, found, there⟩ := Option.bind_eq_some_iff.mp there
        have member := Table.mem_of_find? found
        refine ⟨passed [] (isAbove_cons.mpr (Or.inl rfl)), (name, tree), member, (ih _ member).mpr ?_⟩
        exact ⟨rest, there, rfl, fun above way => passed (name :: above) (isAbove_cons.mpr (Or.inr ⟨above, rfl, way⟩))⟩

theorem isEntryName_of_get? {tree found : FileTree} (sound : tree.Sound) {names : List String}
    (there : tree.get? names = some found) : ∀ name ∈ names, IsEntryName name := by
  induction names generalizing tree with
  | nil => exact List.forall_mem_nil _
  | cons name rest ih =>
    cases sound with
    | file content => cases there
    | directory distinct named below =>
      rw [get?_directory] at there
      obtain ⟨entry, listed, there⟩ := Option.bind_eq_some_iff.mp there
      have member := Table.mem_of_find? listed
      exact List.forall_mem_cons.mpr ⟨named _ member, ih (below _ member) there⟩

/-- Nothing or a slash: a name ends here. -/
def EndsName (rest : List Char) : Prop :=
  rest = [] ∨ rest.head? = some '/'

theorem eq_of_append_rest {first second rest others : List Char} (inFirst : '/' ∉ first) (inSecond : '/' ∉ second)
    (ends : EndsName rest) (othersEnd : EndsName others) (same : first ++ rest = second ++ others) :
    first = second := by
  have front {name tail : List Char} (plain : '/' ∉ name) (ends : EndsName tail) :
      (name ++ tail).takeWhile (decide <| · ≠ '/') = name := by
    have inName : ∀ c ∈ name, decide (c ≠ '/') = true := by
      intro c member
      refine decide_eq_true fun slash => plain ?_
      rwa [← slash]
    rw [List.takeWhile_append_of_pos inName]
    rcases ends with rfl | slash
    · rw [List.takeWhile_nil, List.append_nil]
    · obtain ⟨more, rfl⟩ := List.head?_eq_some_iff.mp slash
      rw [List.takeWhile_cons_of_neg (by decide), List.append_nil]
  rw [← front inFirst ends, same, front inSecond othersEnd]

theorem IsEntryName.not_isFront_join {name : String} (named : IsEntryName name) (directory : String) :
    ¬IsFront (Path.join directory name) := by
  obtain ⟨some, plain⟩ := named
  rw [Path.join_eq]
  rintro (empty | slash)
  · exact some (String.append_eq_empty_iff.mp empty).2
  · have last : name.toList ≠ [] := fun empty => some (String.toList_eq_nil_iff.mp empty)
    rw [String.toList_append, List.getLast?_append_of_ne_nil _ last] at slash
    exact plain (List.mem_of_getLast? slash)

theorem exists_rest_of_not_isFront {names : List String} (named : ∀ name ∈ names, IsEntryName name)
    (complete : ¬IsFront path) :
    ∃ rest, (names.foldl Path.join path).toList = path.toList ++ rest ∧ EndsName rest := by
  induction names generalizing path with
  | nil => exact ⟨[], (List.append_nil _).symm, Or.inl rfl⟩
  | cons name names ih =>
    obtain ⟨here, others⟩ := List.forall_mem_cons.mp named
    obtain ⟨rest, same, -⟩ := ih others (here.not_isFront_join path)
    refine ⟨'/' :: (name.toList ++ rest), ?_, Or.inr rfl⟩
    rw [List.foldl_cons, same, Path.join_eq, Path.front_of_not_isFront complete]
    simp

/-- The first name below a directory can be told from the whole path. -/
theorem exists_rest {name : String} {names : List String} (named : ∀ each ∈ name :: names, IsEntryName each)
    (path : String) :
    ∃ rest, ((name :: names).foldl Path.join path).toList = (Path.front path).toList ++ (name.toList ++ rest) ∧
      EndsName rest := by
  obtain ⟨here, others⟩ := List.forall_mem_cons.mp named
  obtain ⟨rest, same, ends⟩ := exists_rest_of_not_isFront others (here.not_isFront_join path)
  refine ⟨rest, ?_, ends⟩
  rw [List.foldl_cons, same, Path.join_eq, String.toList_append, List.append_assoc]

theorem head_eq_of_foldl_join_eq {name other : String} {names others : List String}
    (named : ∀ each ∈ name :: names, IsEntryName each) (othersNamed : ∀ each ∈ other :: others, IsEntryName each)
    (same : (name :: names).foldl Path.join path = (other :: others).foldl Path.join path) : name = other := by
  obtain ⟨rest, split, ends⟩ := exists_rest named path
  obtain ⟨more, otherSplit, otherEnds⟩ := exists_rest othersNamed path
  rw [same, otherSplit] at split
  have plain := (List.forall_mem_cons.mp named).1.2
  have otherPlain := (List.forall_mem_cons.mp othersNamed).1.2
  exact String.toList_inj.mp (eq_of_append_rest plain otherPlain ends otherEnds (List.append_cancel_left split).symm)

theorem foldl_join_ne {name : String} {names : List String} (named : ∀ each ∈ name :: names, IsEntryName each)
    (path : String) : (name :: names).foldl Path.join path ≠ path := by
  intro same
  obtain ⟨rest, split, -⟩ := exists_rest named path
  obtain ⟨more, front⟩ : ∃ more, (Path.front path).toList = path.toList ++ more := by
    rw [Path.front]
    split
    · exact ⟨[], (List.append_nil _).symm⟩
    · exact ⟨['/'], by simp⟩
  rw [same, front, List.append_assoc] at split
  have empty := List.append_eq_nil_iff.mp (List.append_right_eq_self.mp split.symm)
  exact (List.forall_mem_cons.mp named).1.1 (String.toList_eq_nil_iff.mp (List.append_eq_nil_iff.mp empty.2).1)

/-- Different locations below a directory have different paths. -/
theorem foldl_join_injective {names others : List String} (named : ∀ name ∈ names, IsEntryName name)
    (othersNamed : ∀ name ∈ others, IsEntryName name)
    (same : names.foldl Path.join path = others.foldl Path.join path) : names = others := by
  induction names generalizing others path with
  | nil =>
    cases others with
    | nil => rfl
    | cons other others => exact absurd same.symm (foldl_join_ne othersNamed path)
  | cons name names ih =>
    cases others with
    | nil => exact absurd same (foldl_join_ne named path)
    | cons other others =>
      cases head_eq_of_foldl_join_eq named othersNamed same
      rw [ih (List.forall_mem_cons.mp named).2 (List.forall_mem_cons.mp othersNamed).2 same]

/-- No path is found twice: what is found below different entries differs in the names of these. -/
theorem nodup_files {tree : FileTree} (sound : tree.Sound) (enters : String → Bool) (path : String) :
    ((tree.files enters path).map Prod.fst).Nodup := by
  induction sound generalizing path with
  | file own => exact List.nodup_singleton _
  | @directory entries distinct named below ih =>
    rw [files, entryFiles_eq]
    split
    next =>
      rw [List.map_flatMap, List.nodup_flatMap]
      refine ⟨fun entry listed => ih entry listed _, ?_⟩
      have apart : entries.Pairwise fun first second => first.1 ≠ second.1 := List.pairwise_map.mp distinct
      refine apart.imp_of_mem fun {first second} inFirst inSecond different => ?_
      have names {entry : String × FileTree} {place : String} (listed : entry ∈ entries)
          (inside : place ∈ (entry.2.files enters (Path.join path entry.1)).map Prod.fst) :
          ∃ names, (∀ each ∈ entry.1 :: names, IsEntryName each) ∧ place = (entry.1 :: names).foldl Path.join path := by
        obtain ⟨⟨_, content⟩, found, rfl⟩ := List.mem_map.mp inside
        obtain ⟨names, there, same, -⟩ := (mem_files_iff (below entry listed)).mp found
        refine ⟨names, List.forall_mem_cons.mpr ⟨named entry listed, ?_⟩, same⟩
        exact isEntryName_of_get? (below entry listed) there
      intro place firstPlace secondPlace
      obtain ⟨_, firstNamed, rfl⟩ := names inFirst firstPlace
      obtain ⟨_, secondNamed, same⟩ := names inSecond secondPlace
      exact different (head_eq_of_foldl_join_eq firstNamed secondNamed same)
    next => exact List.nodup_nil

end FileTree

end SchemaScribe
