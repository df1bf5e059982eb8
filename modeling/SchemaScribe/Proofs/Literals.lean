import Mathlib.Data.List.Forall2
import SchemaScribe.Proofs.Names

/-! String literals in Scala source, as a reader finds them who goes through the text once: an open literal ends at the
next quote that no backslash escapes. A written literal is closed by its own last quote and by none before. -/

namespace SchemaScribe
open Text (joinWith)

/-- Where the reader stands: outside of literals, inside of one, or behind a backslash in one. -/
inductive Place
  | outside
  | inside
  | escaped
  deriving DecidableEq

namespace Place

def step : Place → Char → Place
  | outside, c => if c = '"' then inside else outside
  | inside, c => if c = '"' then outside else if c = '\\' then escaped else inside
  | escaped, _ => inside

def after (place : Place) (chars : List Char) : Place :=
  chars.foldl step place

/-- Of a literal, only the two quotes around it show. -/
def shows : Place → Char → Bool
  | outside, _ => true
  | inside, c => c = '"'
  | escaped, _ => false

theorem after_append (place : Place) (first second : List Char) :
    place.after (first ++ second) = (place.after first).after second :=
  List.foldl_append

end Place

open Place

/-- The text with everything left out that stands inside of literals. -/
def blankFrom (place : Place) : List Char → List Char
  | [] => []
  | c :: rest => if place.shows c then c :: blankFrom (place.step c) rest else blankFrom (place.step c) rest

/-- The text with an empty literal in place of every literal. -/
def blankLiterals (text : String) : String :=
  String.ofList (blankFrom outside text.toList)

theorem blankFrom_append (place : Place) (first second : List Char) :
    blankFrom place (first ++ second) = blankFrom place first ++ blankFrom (place.after first) second := by
  induction first generalizing place with
  | nil => rfl
  | cons c rest ih =>
    simp only [List.cons_append, blankFrom, ih, after, List.foldl_cons]
    split <;> rfl

def Plain (text : String) : Prop :=
  '"' ∉ text.toList

instance (text : String) : Decidable (Plain text) :=
  inferInstanceAs (Decidable ('"' ∉ text.toList))

theorem Plain.fixed (text : String) (noQuote : text.toList.contains '"' = false) : Plain text := by
  rw [Plain, ← List.contains_iff_mem, noQuote]
  exact Bool.false_ne_true

theorem Plain.append {first second : String} (plain : Plain first) (other : Plain second) :
    Plain (first ++ second) := by
  rw [Plain, String.toList_append, List.mem_append]
  exact not_or.mpr ⟨plain, other⟩

theorem read_plain {chars : List Char} (plain : '"' ∉ chars) :
    outside.after chars = outside ∧ blankFrom outside chars = chars := by
  induction chars with
  | nil => exact ⟨rfl, rfl⟩
  | cons c rest ih =>
    obtain ⟨noQuote, others⟩ := not_or.mp (fun either => plain (List.mem_cons.mpr either))
    obtain ⟨ends, same⟩ := ih others
    have stays : outside.step c = outside := if_neg (Ne.symm noQuote)
    rw [after, List.foldl_cons, stays]
    refine ⟨ends, ?_⟩
    rw [blankFrom, stays, same]
    rfl

def isControl (c : Char) : Bool :=
  c.toNat < 0x20

/-- No character of a literal closes it, shows or is a control character. -/
theorem read_literalCharacter (c : Char) :
    inside.after (literalCharacter c) = inside ∧ blankFrom inside (literalCharacter c) = [] ∧
      (literalCharacter c).filter isControl = [] := by
  by_cases control : c.toNat < 0x20
  · refine forall_char_below (fun c => inside.after (literalCharacter c) = inside ∧
      blankFrom inside (literalCharacter c) = [] ∧ (literalCharacter c).filter isControl = []) ?_ control
    decide
  · by_cases backslash : c = '\\'
    · subst backslash
      decide
    by_cases quote : c = '"'
    · subst quote
      decide
    have spelled : literalCharacter c = [c] := by
      have feed : c ≠ '\n' := fun same => control (by rw [same]; decide)
      have carriage : c ≠ '\r' := fun same => control (by rw [same]; decide)
      have tab : c ≠ '\t' := fun same => control (by rw [same]; decide)
      simp [literalCharacter, backslash, quote, feed, carriage, tab, control]
    rw [spelled]
    simp [after, step, blankFrom, shows, isControl, backslash, quote, control]

theorem read_literalCharacters (text : List Char) :
    inside.after (text.flatMap literalCharacter) = inside ∧ blankFrom inside (text.flatMap literalCharacter) = [] ∧
      (text.flatMap literalCharacter).filter isControl = [] := by
  induction text with
  | nil => exact ⟨rfl, rfl, rfl⟩
  | cons c rest ih =>
    obtain ⟨stays, hidden, printable⟩ := read_literalCharacter c
    rw [List.flatMap_cons, after_append, blankFrom_append, List.filter_append, stays, hidden, printable]
    exact ih

theorem toList_stringLiteral (text : String) :
    (stringLiteral text).toList = '"' :: (text.toList.flatMap literalCharacter ++ ['"']) := by
  simp [stringLiteral, String.toList_append]

theorem read_stringLiteral (text : String) :
    outside.after (stringLiteral text).toList = outside ∧
      blankFrom outside (stringLiteral text).toList = ['"', '"'] ∧
      (stringLiteral text).toList.filter isControl = [] := by
  obtain ⟨stays, hidden, printable⟩ := read_literalCharacters text.toList
  have opens : outside.step '"' = inside := rfl
  rw [toList_stringLiteral]
  refine ⟨?_, ?_, ?_⟩
  · rw [after, List.foldl_cons, opens, ← after, after_append, stays]
    rfl
  · rw [blankFrom, opens, blankFrom_append, stays, hidden]
    rfl
  · rw [List.filter_cons_of_neg (by decide), List.filter_append, printable]
    rfl

example : blankLiterals "f(\"a\\\"b\") g" = "f(\"\") g" := by decide

/-- The texts are equal outside of literals, in which neither ends, and have the same control characters. -/
structure Alike (first second : String) : Prop where
  closed : outside.after first.toList = outside
  otherClosed : outside.after second.toList = outside
  blanked : blankFrom outside first.toList = blankFrom outside second.toList
  controls : first.toList.filter isControl = second.toList.filter isControl

namespace Alike

theorem symm {first second : String} (alike : Alike first second) : Alike second first :=
  { closed := alike.otherClosed
    otherClosed := alike.closed
    blanked := alike.blanked.symm
    controls := alike.controls.symm }

theorem trans {first second third : String} (alike : Alike first second) (next : Alike second third) :
    Alike first third :=
  { closed := alike.closed
    otherClosed := next.otherClosed
    blanked := alike.blanked.trans next.blanked
    controls := alike.controls.trans next.controls }

theorem plain {text : String} (plain : Plain text) : Alike text text :=
  { closed := (read_plain plain).1, otherClosed := (read_plain plain).1, blanked := rfl, controls := rfl }

theorem fixed (text : String) (noQuote : text.toList.contains '"' = false) : Alike text text :=
  .plain (.fixed text noQuote)

theorem literal (text other : String) : Alike (stringLiteral text) (stringLiteral other) := by
  obtain ⟨closed, shown, printable⟩ := read_stringLiteral text
  obtain ⟨otherClosed, otherShown, otherPrintable⟩ := read_stringLiteral other
  exact
    { closed, otherClosed
      blanked := shown.trans otherShown.symm
      controls := printable.trans otherPrintable.symm }

theorem append {first second front back : String} (alike : Alike first second) (next : Alike front back) :
    Alike (first ++ front) (second ++ back) where
  closed := by rw [String.toList_append, after_append, alike.closed, next.closed]
  otherClosed := by rw [String.toList_append, after_append, alike.otherClosed, next.otherClosed]
  blanked := by
    rw [String.toList_append, String.toList_append, blankFrom_append, blankFrom_append, alike.closed,
      alike.otherClosed, alike.blanked, next.blanked]
  controls := by
    rw [String.toList_append, String.toList_append, List.filter_append, List.filter_append, alike.controls,
      next.controls]

theorem joinWith {separator : String} {parts others : List String} (separates : Plain separator)
    (alike : List.Forall₂ Alike parts others) : Alike (joinWith separator parts) (joinWith separator others) := by
  induction alike with
  | nil => exact fixed "" rfl
  | cons head tail ih =>
    cases tail with
    | nil => exact head
    | cons next rest => exact (head.append (plain separates)).append ih

theorem blankLiterals_eq {first second : String} (alike : Alike first second) :
    blankLiterals first = blankLiterals second :=
  congrArg String.ofList alike.blanked

theorem count_eq {first second : String} (alike : Alike first second) {c : Char} (control : isControl c) :
    first.toList.count c = second.toList.count c := by
  calc first.toList.count c
    _ = (first.toList.filter isControl).count c := (List.count_filter control).symm
    _ = (second.toList.filter isControl).count c := by rw [alike.controls]
    _ = second.toList.count c := List.count_filter control

end Alike

end SchemaScribe
