/-!
Control sequences by which a terminal is told to change colours or to move its cursor. What a run shows is plain text,
so they are left out of it.
-/

namespace SchemaScribe.Text

def isSequenceParameter (c : Char) : Bool :=
  c == ';' || c == '?' || ('0' ≤ c && c ≤ '9')

def isSequenceEnd (c : Char) : Bool :=
  ('a' ≤ c && c ≤ 'z') || ('A' ≤ c && c ≤ 'Z')

/-- Behind an escape character: what follows the control sequence, if there is a whole one. -/
def skipSequence? : List Char → Option (List Char)
  | '[' :: rest =>
    match rest.dropWhile isSequenceParameter with
    | c :: rest => if isSequenceEnd c then some rest else none
    | [] => none
  | _ => none

theorem skipSequence?_shorter {chars rest} (skipped : skipSequence? chars = some rest) :
    rest.length < chars.length := by
  unfold skipSequence? at skipped
  split at skipped
  · next tail =>
    split at skipped
    · next last behind ends =>
      split at skipped
      · cases skipped
        have shorter := (List.dropWhile_suffix isSequenceParameter (l := tail)).length_le
        rw [ends] at shorter
        simp only [List.length_cons] at shorter ⊢
        omega
      · cases skipped
    · cases skipped
  · cases skipped

/-- An escape character that begins no whole sequence stays. -/
def withoutSequences (chars : List Char) : List Char :=
  match chars with
  | [] => []
  | c :: rest =>
    if c = '\x1b' then
      match _skipped : skipSequence? rest with
      | some behind => withoutSequences behind
      | none => c :: withoutSequences rest
    else c :: withoutSequences rest
termination_by chars.length
decreasing_by
  · have := skipSequence?_shorter _skipped
    simp only [List.length_cons]
    omega
  · simp
  · simp

/-- The text as it is shown where there is no terminal. -/
def plainText (text : String) : String :=
  String.ofList (withoutSequences text.toList)

end SchemaScribe.Text
