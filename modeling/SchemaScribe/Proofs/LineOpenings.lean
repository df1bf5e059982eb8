import SchemaScribe.Text.Pieces

/-! The lines of a text and what they open with. A text that is put together from lines can be asked about each of them
on its own, whatever stands in the others. -/

namespace SchemaScribe.Text

def lines (text : String) : List String :=
  (pieces '\n' text.toList).map String.ofList

/-- The lines that open with the mark, in their order. -/
def opening (mark text : String) : List String :=
  (lines text).filter fun line => mark.toList.isPrefixOf line.toList

/-- Whatever follows the start, the line does not open with the mark. -/
def NeverOpens (mark start : String) : Prop :=
  ∀ rest, ¬mark.toList <+: start.toList ++ rest

section Pieces

variable {separator : Char}

theorem pieces_ne_nil (chars : List Char) : pieces separator chars ≠ [] := by
  fun_cases pieces separator chars <;> simp

theorem pieces_of_not_mem {chars : List Char} (absent : separator ∉ chars) : pieces separator chars = [chars] := by
  induction chars with
  | nil => rfl
  | cons c rest ih =>
    obtain ⟨different, others⟩ := not_or.mp fun either => absent (List.mem_cons.mpr either)
    rw [pieces, if_neg (Ne.symm different), ih others]

theorem pieces_append (front back : List Char) :
    pieces separator (front ++ separator :: back) = pieces separator front ++ pieces separator back := by
  induction front with
  | nil => exact if_pos rfl
  | cons c rest ih =>
    rw [List.cons_append, pieces, pieces, ih]
    split
    · rfl
    · cases cut : pieces separator rest with
      | nil => exact absurd cut (pieces_ne_nil rest)
      | cons piece others => rfl

end Pieces

theorem lines_append (front back : String) : lines (front ++ "\n" ++ back) = lines front ++ lines back := by
  have split : (front ++ "\n" ++ back).toList = front.toList ++ '\n' :: back.toList := by
    rw [String.toList_append, String.toList_append, List.append_assoc]
    rfl
  rw [lines, split, pieces_append, List.map_append]
  rfl

theorem lines_of_not_mem {text : String} (oneLine : '\n' ∉ text.toList) : lines text = [text] := by
  rw [lines, pieces_of_not_mem oneLine, List.map_singleton, String.ofList_toList]

variable {mark : String}

theorem mem_opening_iff {text line : String} :
    line ∈ opening mark text ↔ line ∈ lines text ∧ mark.toList <+: line.toList := by
  rw [opening, List.mem_filter, List.isPrefixOf_iff_prefix]

theorem opening_ne_nil_iff {text : String} :
    opening mark text ≠ [] ↔ ∃ line ∈ lines text, mark.toList <+: line.toList := by
  constructor
  · intro some
    obtain ⟨line, found⟩ := List.exists_mem_of_ne_nil _ some
    exact ⟨line, mem_opening_iff.mp found⟩
  · rintro ⟨line, found⟩
    exact List.ne_nil_of_mem (mem_opening_iff.mpr found)

theorem opening_append (front back : String) :
    opening mark (front ++ "\n" ++ back) = opening mark front ++ opening mark back := by
  rw [opening, lines_append, List.filter_append]
  rfl

theorem opening_of_opens {text : String} (oneLine : '\n' ∉ text.toList) (opens : mark.toList <+: text.toList) :
    opening mark text = [text] := by
  rw [opening, lines_of_not_mem oneLine]
  exact List.filter_cons_of_pos (List.isPrefixOf_iff_prefix.mpr opens)

theorem NeverOpens.fixed {start : String}
    (apart : (!mark.toList.isPrefixOf start.toList && !start.toList.isPrefixOf mark.toList) = true) :
    NeverOpens mark start := by
  intro rest opens
  simp only [Bool.and_eq_true, Bool.not_eq_true', ← Bool.not_eq_true, List.isPrefixOf_iff_prefix] at apart
  rcases List.prefix_or_prefix_of_prefix opens (List.prefix_append ..) with longer | shorter
  · exact apart.1 longer
  · exact apart.2 shorter

theorem opening_of_neverOpens {start rest : String} (never : NeverOpens mark start)
    (oneLine : '\n' ∉ (start ++ rest).toList) : opening mark (start ++ rest) = [] := by
  rw [opening, lines_of_not_mem oneLine]
  refine List.filter_cons_of_neg fun opens => never rest.toList ?_
  rw [← String.toList_append]
  exact List.isPrefixOf_iff_prefix.mp opens

theorem joinWith_empty_cons (part : String) (parts : List String) :
    joinWith "" (part :: parts) = part ++ joinWith "" parts := by
  cases parts with
  | nil => exact (String.append_empty).symm
  | cons next rest => rw [joinWith, String.append_empty]

end SchemaScribe.Text
