import SchemaScribe.Table

/-! The entries of a table. All come from what was put in, every name that was put in is there with the last value
given for it and can be looked up, and values can be changed before or after. -/

namespace SchemaScribe.Table

theorem mem_insert {table : Table α} {name : String} {value : α} {entry : String × α}
    (member : entry ∈ table.insert name value) : entry ∈ table ∨ entry = (name, value) := by
  induction table with
  | nil => exact Or.inr (List.mem_singleton.mp member)
  | cons head rest ih =>
    rw [insert] at member
    split at member
    · rcases List.mem_cons.mp member with same | later
      · exact Or.inr same
      · exact Or.inl (List.mem_cons_of_mem _ later)
    · rcases List.mem_cons.mp member with same | later
      · exact Or.inl (List.mem_cons.mpr (Or.inl same))
      · exact (ih later).imp_left (List.mem_cons_of_mem _)

theorem mem_insertAll {table entries : Table α} {entry : String × α}
    (member : entry ∈ table.insertAll entries) : entry ∈ table ∨ entry ∈ entries := by
  induction entries generalizing table with
  | nil => exact Or.inl member
  | cons head rest ih =>
    rcases ih member with inserted | later
    · rcases mem_insert inserted with old | rfl
      · exact Or.inl old
      · exact Or.inr (List.mem_cons_self ..)
    · exact Or.inr (List.mem_cons_of_mem _ later)

theorem exists_mem_insert {table : Table α} {name key : String} (value : α)
    (known : key = name ∨ ∃ old, (key, old) ∈ table) : ∃ kept, (key, kept) ∈ table.insert name value := by
  induction table with
  | nil =>
    rcases known with rfl | ⟨old, impossible⟩
    · exact ⟨value, List.mem_singleton.mpr rfl⟩
    · cases impossible
  | cons head rest ih =>
    rw [insert]
    split
    next same =>
      rcases known with rfl | ⟨old, member⟩
      · exact ⟨value, List.mem_cons_self ..⟩
      · rcases List.mem_cons.mp member with here | later
        · cases here
          exact ⟨value, List.mem_cons.mpr (Or.inl (Prod.ext same rfl))⟩
        · exact ⟨old, List.mem_cons_of_mem _ later⟩
    next =>
      rcases known with rfl | ⟨old, member⟩
      · obtain ⟨kept, member⟩ := ih (Or.inl rfl)
        exact ⟨kept, List.mem_cons_of_mem _ member⟩
      · rcases List.mem_cons.mp member with here | later
        · exact ⟨old, List.mem_cons.mpr (Or.inl here)⟩
        · obtain ⟨kept, member⟩ := ih (Or.inr ⟨old, later⟩)
          exact ⟨kept, List.mem_cons_of_mem _ member⟩

theorem exists_mem_insertAll {table entries : Table α} {key : String}
    (known : (∃ value, (key, value) ∈ entries) ∨ ∃ old, (key, old) ∈ table) :
    ∃ kept, (key, kept) ∈ table.insertAll entries := by
  induction entries generalizing table with
  | nil =>
    rcases known with ⟨value, impossible⟩ | old
    · cases impossible
    · exact old
  | cons head rest ih =>
    rw [insertAll, List.foldl_cons]
    apply ih
    rcases known with ⟨value, member⟩ | old
    · rcases List.mem_cons.mp member with rfl | later
      · exact Or.inr (exists_mem_insert value (Or.inl rfl))
      · exact Or.inl ⟨value, later⟩
    · exact Or.inr (exists_mem_insert head.2 (Or.inr old))

theorem mem_of_find? {table : Table α} {name : String} {value : α} (found : table.find? name = some value) :
    (name, value) ∈ table := by
  obtain ⟨before, after, rfl, -⟩ := List.lookup_eq_some_iff.mp found
  simp

theorem exists_find? {table : Table α} {name : String} {value : α} (member : (name, value) ∈ table) :
    ∃ found, table.find? name = some found := by
  apply Option.isSome_iff_exists.mp
  exact List.lookup_isSome_iff.mpr ⟨_, member, beq_self_eq_true name⟩

theorem find?_insert (table : Table α) (name : String) (value : α) (key : String) :
    (table.insert name value).find? key = if key = name then some value else table.find? key := by
  induction table with
  | nil =>
    rw [insert, find?, List.lookup_cons]
    by_cases same : key = name
    · simp [same]
    · simp [same, beq_eq_false_iff_ne.mpr same, find?]
  | cons head rest ih =>
    rw [insert]
    by_cases found : head.1 = name
    · subst found
      rw [if_pos rfl, find?, find?, List.lookup_cons, List.lookup_cons]
      by_cases same : key = head.1
      · simp [same]
      · simp [same, beq_eq_false_iff_ne.mpr same]
    · rw [if_neg found, find?, find?, List.lookup_cons, List.lookup_cons]
      by_cases same : key = head.1
      · simp [same, found]
      · simp only [beq_eq_false_iff_ne.mpr same]
        exact ih

/-- The last value given for a name. -/
def last? (entries : Table α) (name : String) : Option α :=
  find? entries.reverse name

theorem last?_cons (name : String) (value : α) (rest : Table α) (key : String) :
    last? ((name, value) :: rest) key = (last? rest key).or (if key = name then some value else none) := by
  rw [last?, last?, find?, find?, List.reverse_cons, List.lookup_append, List.lookup_cons, List.lookup_nil]
  by_cases same : key = name
  · simp [same]
  · simp [same, beq_eq_false_iff_ne.mpr same]

theorem last?_concat (entries : Table α) (name : String) (value : α) (key : String) :
    last? (entries ++ [(name, value)]) key = if key = name then some value else last? entries key := by
  rw [last?, last?, find?, find?, List.reverse_concat, List.lookup_cons]
  by_cases same : key = name
  · simp [same]
  · simp [same, beq_eq_false_iff_ne.mpr same]

theorem find?_insertAll (table entries : Table α) (key : String) :
    (table.insertAll entries).find? key = (last? entries key).or (table.find? key) := by
  induction entries generalizing table with
  | nil => rfl
  | cons head rest ih =>
    rw [insertAll, List.foldl_cons, ← insertAll, ih, find?_insert, last?_cons, Option.or_assoc]
    split <;> rfl

theorem find?_ofEntries (entries : Table α) (key : String) : (ofEntries entries).find? key = last? entries key := by
  rw [ofEntries, find?_insertAll]
  exact Option.or_none

theorem mem_of_last? {entries : Table α} {name : String} {value : α} (found : last? entries name = some value) :
    (name, value) ∈ entries :=
  List.mem_reverse.mp (mem_of_find? found)

theorem isSome_last?_iff {entries : Table α} {name : String} :
    (last? entries name).isSome ↔ ∃ value, (name, value) ∈ entries := by
  constructor
  · intro given
    obtain ⟨value, found⟩ := Option.isSome_iff_exists.mp given
    exact ⟨value, mem_of_last? found⟩
  · rintro ⟨value, member⟩
    exact Option.isSome_iff_exists.mpr (exists_find? (List.mem_reverse.mpr member))

section Distinct

/-- No name stands in it twice. -/
def Distinct (table : Table α) : Prop :=
  (table.map Prod.fst).Nodup

theorem names_insert (name : String) (value : α) (table : Table α) :
    (table.insert name value).map Prod.fst =
      if name ∈ table.map Prod.fst then table.map Prod.fst else table.map Prod.fst ++ [name] := by
  induction table with
  | nil => rfl
  | cons head rest ih =>
    rw [insert]
    by_cases same : head.1 = name
    · simp [same]
    · simp only [if_neg same, List.map_cons, ih, List.mem_cons, Ne.symm same, false_or]
      split <;> rfl

theorem Distinct.insert {table : Table α} (distinct : table.Distinct) (name : String) (value : α) :
    (table.insert name value).Distinct := by
  rw [Distinct, names_insert]
  split
  next => exact distinct
  next new =>
    refine List.nodup_append.mpr ⟨distinct, by simp, fun other member last inserted same => ?_⟩
    rw [List.mem_singleton.mp inserted] at same
    exact new (same ▸ member)

theorem Distinct.insertAll {table : Table α} (distinct : table.Distinct) (entries : Table α) :
    (table.insertAll entries).Distinct := by
  induction entries generalizing table with
  | nil => exact distinct
  | cons head rest ih => exact ih (distinct.insert head.1 head.2)

theorem distinct_ofEntries (entries : Table α) : (ofEntries entries).Distinct := by
  have empty : Distinct ([] : Table α) := List.nodup_nil
  exact empty.insertAll entries

theorem insert_of_not_mem {table : Table α} {name : String} (new : name ∉ table.map Prod.fst) (value : α) :
    table.insert name value = table ++ [(name, value)] := by
  induction table with
  | nil => rfl
  | cons head rest ih =>
    obtain ⟨different, others⟩ := not_or.mp fun either => new (List.mem_cons.mpr either)
    rw [insert, if_neg (Ne.symm different), ih others, List.cons_append]

theorem Distinct.insertAll_eq_append {table entries : Table α} (distinct : Distinct (table ++ entries)) :
    table.insertAll entries = table ++ entries := by
  induction entries generalizing table with
  | nil => exact (List.append_nil table).symm
  | cons head rest ih =>
    have new : head.1 ∉ table.map Prod.fst := by
      rw [Distinct, List.map_append, List.map_cons, List.nodup_append] at distinct
      exact fun member => distinct.2.2 head.1 member head.1 (List.mem_cons_self ..) rfl
    rw [List.append_cons] at distinct ⊢
    rw [← ih distinct, ← insert_of_not_mem new]
    rfl

/-- Distinct names stay as they are. -/
theorem Distinct.ofEntries_eq {table : Table α} (distinct : table.Distinct) : ofEntries table = table :=
  insertAll_eq_append (by rwa [List.nil_append])

theorem Distinct.last?_eq_find? {table : Table α} (distinct : table.Distinct) (key : String) :
    last? table key = table.find? key := by
  induction table with
  | nil => rfl
  | cons head rest ih =>
    obtain ⟨absent, distinct⟩ := List.nodup_cons.mp distinct
    rw [last?_cons, ih distinct, find?, find?, List.lookup_cons]
    by_cases same : key = head.1
    · subst same
      have missing : List.lookup head.1 rest = none := by
        refine List.lookup_eq_none_iff.mpr fun entry member => ?_
        exact bne_iff_ne.mpr fun same => absent (same ▸ List.mem_map_of_mem member)
      simp [missing]
    · simp [same, beq_eq_false_iff_ne.mpr same]

theorem Distinct.find?_of_mem {table : Table α} (distinct : table.Distinct) {name : String} {value : α}
    (member : (name, value) ∈ table) : table.find? name = some value := by
  induction table with
  | nil => cases member
  | cons head rest ih =>
    obtain ⟨absent, distinct⟩ := List.nodup_cons.mp distinct
    rw [find?, List.lookup_cons]
    rcases List.mem_cons.mp member with rfl | later
    · simp
    · have different : name ≠ head.1 := by
        rintro rfl
        exact absent (List.mem_map.mpr ⟨_, later, rfl⟩)
      simp only [beq_eq_false_iff_ne.mpr different]
      exact ih distinct later

/-- Where the old names are distinct, what is inserted counts and otherwise what was there. -/
theorem Distinct.last?_insertAll {table : Table α} (distinct : table.Distinct) (entries : Table α) (key : String) :
    last? (table.insertAll entries) key = (last? entries key).or (last? table key) := by
  rw [(distinct.insertAll entries).last?_eq_find?, find?_insertAll, distinct.last?_eq_find?]

theorem Distinct.last?_eq_some_iff {table : Table α} (distinct : table.Distinct) {name : String} {value : α} :
    last? table name = some value ↔ (name, value) ∈ table := by
  refine ⟨mem_of_last?, fun member => ?_⟩
  rw [distinct.last?_eq_find?, distinct.find?_of_mem member]

theorem Distinct.filter {table : Table α} (distinct : table.Distinct) (keep : α → Bool) :
    Distinct (table.filter (keep ·.2)) :=
  List.Nodup.sublist (List.filter_sublist.map _) distinct

theorem Distinct.last?_filter {table : Table α} (distinct : table.Distinct) (keep : α → Bool) (key : String) :
    last? (table.filter (keep ·.2)) key = (last? table key).filter keep := by
  refine Option.ext fun value => ?_
  rw [(distinct.filter keep).last?_eq_some_iff, List.mem_filter, Option.filter_eq_some_iff, distinct.last?_eq_some_iff]

end Distinct

theorem find?_map (change : α → β) (table : Table α) (key : String) :
    Table.find? (table.map (Prod.map id change)) key = (table.find? key).map change := by
  induction table with
  | nil => rfl
  | cons head rest ih =>
    rw [List.map_cons, find?, find?, List.lookup_cons, List.lookup_cons]
    simp only [Prod.map_fst, Prod.map_snd, id_eq]
    cases key == head.1 with
    | true => rfl
    | false => exact ih

theorem insert_map {change : α → β} (name : String) (value : α) (table : Table α) :
    Table.insert name (change value) (table.map (Prod.map id change)) =
      (table.insert name value).map (Prod.map id change) := by
  induction table with
  | nil => rfl
  | cons head rest ih =>
    rw [List.map_cons, insert, insert, ih]
    simp only [Prod.map_fst, Prod.map_snd, id_eq]
    split <;> rfl

theorem insertAll_map {change : α → β} (table entries : Table α) :
    Table.insertAll (table.map (Prod.map id change)) (entries.map (Prod.map id change)) =
      (table.insertAll entries).map (Prod.map id change) := by
  induction entries generalizing table with
  | nil => rfl
  | cons head rest ih =>
    rw [List.map_cons, insertAll, List.foldl_cons]
    simp only [Prod.map_fst, Prod.map_snd, id, insert_map]
    exact ih _

end SchemaScribe.Table
