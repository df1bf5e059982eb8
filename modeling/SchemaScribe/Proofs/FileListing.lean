import SchemaScribe.Proofs.FileChanges

/-! Directories that are listed in one order or another. Everything is found by its name, so a path leads to the same
thing in every listing. -/

namespace SchemaScribe.FileTree

def IsEntryName (name : String) : Prop :=
  name ≠ "" ∧ '/' ∉ name.toList

/-- A tree as file systems have it: the entries of a directory differ in their names, and a name can stand in a path. -/
inductive Sound : FileTree → Prop
  | file (content : ByteArray) : Sound (file content)
  | directory {entries : List (String × FileTree)} (distinct : Table.Distinct entries)
      (named : ∀ entry ∈ entries, IsEntryName entry.1) (below : ∀ entry ∈ entries, Sound entry.2) :
      Sound (directory entries)

/-- The same files and directories, where each directory may list its entries in another order. -/
inductive Relisted : FileTree → FileTree → Prop
  | file (content : ByteArray) : Relisted (file content) (file content)
  | directory {entries listed : List (String × FileTree)} (order : (listed.map Prod.fst).Perm (entries.map Prod.fst))
      (below : ∀ name before after, (name, before) ∈ entries → (name, after) ∈ listed → Relisted before after) :
      Relisted (directory entries) (directory listed)

theorem sound_singleton {name : String} {tree : FileTree} (named : IsEntryName name) (sound : tree.Sound) :
    (directory [(name, tree)]).Sound :=
  .directory (List.pairwise_singleton ..) (List.forall_mem_singleton.mpr named) (List.forall_mem_singleton.mpr sound)

theorem Sound.get? {tree found : FileTree} {location : List String} (sound : tree.Sound)
    (there : tree.get? location = some found) : found.Sound := by
  induction location generalizing tree with
  | nil =>
    cases there
    exact sound
  | cons name rest ih =>
    cases sound with
    | file content => cases there
    | @directory entries distinct named below =>
      rw [get?_directory] at there
      obtain ⟨entry, listed, there⟩ := Option.bind_eq_some_iff.mp there
      exact ih (below _ (Table.mem_of_find? listed)) there

/-- Two lists of entries with the same names. -/
theorem exists_entry_of_perm {entries listed : List (String × FileTree)} {name : String} {tree : FileTree}
    (order : (listed.map Prod.fst).Perm (entries.map Prod.fst)) (member : (name, tree) ∈ entries) :
    ∃ other, (name, other) ∈ listed := by
  have named : name ∈ listed.map Prod.fst := order.mem_iff.mpr (List.mem_map_of_mem member)
  obtain ⟨⟨_, other⟩, inside, rfl⟩ := List.mem_map.mp named
  exact ⟨other, inside⟩

theorem Relisted.sound {tree listing : FileTree} (relisted : Relisted tree listing) (sound : tree.Sound) :
    listing.Sound := by
  induction relisted with
  | file content => exact sound
  | directory order _ ih =>
    cases sound with
    | directory distinct named below =>
      refine .directory (order.nodup_iff.mpr distinct) ?_ ?_
      · rintro ⟨name, after⟩ member
        obtain ⟨before, original⟩ := exists_entry_of_perm order.symm member
        exact named (name, before) original
      · rintro ⟨name, after⟩ member
        obtain ⟨before, original⟩ := exists_entry_of_perm order.symm member
        exact ih name before after original member (below (name, before) original)

/-- What is in a file; a directory has no content of its own. -/
def content? : FileTree → Option ByteArray
  | file content => some content
  | directory _ => none

/-- A directory, or a file of the same content, stands wherever one stands in the other tree, and nothing else. -/
def SameView (first second : FileTree) : Prop :=
  ∀ location, (second.get? location).map content? = (first.get? location).map content?

theorem Relisted.sameView {tree listing : FileTree} (relisted : Relisted tree listing) (sound : tree.Sound) :
    SameView tree listing := by
  induction relisted with
  | file content => exact fun _ => rfl
  | @directory entries listed order relisted ih =>
    have listedDistinct : Table.Distinct listed := by
      cases sound with
      | directory distinct _ _ => exact order.nodup_iff.mpr distinct
    cases sound with
    | directory distinct named below =>
      intro location
      cases location with
      | nil => rfl
      | cons name rest =>
        rw [get?_directory, get?_directory]
        cases found : Table.find? entries name with
        | none =>
          have missing : Table.find? listed name = none := by
            cases other : Table.find? listed name with
            | none => rfl
            | some after =>
              obtain ⟨before, original⟩ := exists_entry_of_perm order.symm (Table.mem_of_find? other)
              rw [distinct.find?_of_mem original] at found
              cases found
          rw [missing]
        | some before =>
          have original := Table.mem_of_find? found
          obtain ⟨after, member⟩ := exists_entry_of_perm order original
          rw [listedDistinct.find?_of_mem member]
          exact ih name before after original member (below (name, before) original) rest

namespace SameView

variable {first second : FileTree} (same : SameView first second)
include same

theorem get?_cases (location : List String) :
    (first.get? location = none ∧ second.get? location = none) ∨
      (∃ content, first.get? location = some (file content) ∧ second.get? location = some (file content)) ∨
      ∃ entries listed, first.get? location = some (directory entries) ∧
        second.get? location = some (directory listed) := by
  have view := same location
  cases here : first.get? location with
  | none =>
    cases there : second.get? location with
    | none => exact Or.inl ⟨rfl, rfl⟩
    | some other => rw [here, there] at view; cases view
  | some found =>
    cases there : second.get? location with
    | none => rw [here, there] at view; cases view
    | some other =>
      rw [here, there] at view
      cases found with
      | file content =>
        cases other with
        | file => cases view; exact Or.inr (Or.inl ⟨content, rfl, rfl⟩)
        | directory => cases view
      | directory entries =>
        cases other with
        | file => cases view
        | directory listed => exact Or.inr (Or.inr ⟨entries, listed, rfl, rfl⟩)

theorem get?_eq_file_iff {location : List String} {content : ByteArray} :
    second.get? location = some (file content) ↔ first.get? location = some (file content) := by
  rcases same.get?_cases location with ⟨here, there⟩ | ⟨_, here, there⟩ | ⟨_, _, here, there⟩
  · rw [here, there]
  · rw [here, there]
  · simp [here, there]

theorem stepFrom_eq : second.stepFrom = first.stepFrom := by
  have isSome (location : List String) : (second.get? location).isSome = (first.get? location).isSome := by
    have view := congrArg Option.isSome (same location)
    rwa [Option.isSome_map, Option.isSome_map] at view
  funext location component
  rw [stepFrom, stepFrom]
  rcases same.get?_cases location with ⟨here, there⟩ | ⟨_, here, there⟩ | ⟨_, _, here, there⟩
  · rw [here, there]
  · rw [here, there]
  · simp only [here, there, isSome]

theorem follow_eq (directory : List String) (path : String) :
    second.follow directory path = first.follow directory path := by
  rw [follow, follow, same.stepFrom_eq]

end SameView

end SchemaScribe.FileTree
