/-!
How alike two texts are, judged by the blocks that they share: the longest common block, then the longest ones to
its left and to its right, and so on. From these, the known names that a mistyped one may have been meant for.
-/

namespace SchemaScribe.Text

def commonStart : List Char → List Char → Nat
  | a :: left, b :: right => if a = b then commonStart left right + 1 else 0
  | _, _ => 0

/-- Equal characters in two texts, by the places where they begin. -/
structure Block where
  left : Nat
  right : Nat
  size : Nat

/-- The blocks that begin at one place of the left text, here its beginning. -/
def blocksAt (place : Nat) (left : List Char) (offset : Nat) : List Char → List Block
  | [] => []
  | b :: right =>
    { left := place, right := offset, size := commonStart left (b :: right) } ::
      blocksAt place left (offset + 1) right

/-- All blocks, by their places in the left text and then in the right one. -/
def blocksFrom (place : Nat) (left right : List Char) : List Block :=
  match left with
  | [] => []
  | a :: rest => blocksAt place (a :: rest) 0 right ++ blocksFrom (place + 1) rest right

/-- The first of the largest blocks; an empty one if there are none. -/
def largest (blocks : List Block) : Block :=
  blocks.foldl (fun best block => if best.size < block.size then block else best) ⟨0, 0, 0⟩

def longestBlock (left right : List Char) : Block :=
  largest (blocksFrom 0 left right)

theorem commonStart_le (left right : List Char) : commonStart left right ≤ left.length := by
  induction left generalizing right with
  | nil => simp [commonStart]
  | cons a left ih =>
    cases right with
    | nil => simp [commonStart]
    | cons b right =>
      have := ih right
      simp only [commonStart, List.length_cons]
      split <;> omega

theorem blocksAt_within {place left offset right block} (found : block ∈ blocksAt place left offset right) :
    block.left + block.size ≤ place + left.length := by
  induction right generalizing offset with
  | nil => simp [blocksAt] at found
  | cons b right ih =>
    rcases List.mem_cons.1 found with rfl | later
    · exact Nat.add_le_add_left (commonStart_le left (b :: right)) place
    · exact ih later

theorem blocksFrom_within {place left right block} (found : block ∈ blocksFrom place left right) :
    block.left + block.size ≤ place + left.length := by
  induction left generalizing place with
  | nil => simp [blocksFrom] at found
  | cons a left ih =>
    rcases List.mem_append.1 found with here | later
    · exact blocksAt_within here
    · have := ih later
      simp only [List.length_cons]
      omega

theorem largest_within {bound blocks} (within : ∀ block ∈ blocks, block.left + block.size ≤ bound) :
    (largest blocks).left + (largest blocks).size ≤ bound := by
  unfold largest
  refine List.foldlRecOn blocks _ (motive := fun best : Block => best.left + best.size ≤ bound)
    (Nat.zero_le bound) fun best kept block found => ?_
  split
  · exact within block found
  · exact kept

theorem longestBlock_within (left right : List Char) :
    (longestBlock left right).left + (longestBlock left right).size ≤ left.length := by
  refine largest_within fun block found => ?_
  have := blocksFrom_within found
  omega

/-- How many characters the shared blocks have together. -/
def sharedCount (left right : List Char) : Nat :=
  let block := longestBlock left right
  if _found : block.size = 0 then 0
  else
    sharedCount (left.take block.left) (right.take block.right) + block.size +
      sharedCount (left.drop (block.left + block.size)) (right.drop (block.right + block.size))
termination_by left.length
decreasing_by
  all_goals
    have := longestBlock_within left right
    simp only [block, List.length_take, List.length_drop] at _found ⊢
    omega

/-- A name and how alike it is to another: shared characters out of those of both. -/
structure Likeness where
  name : String
  shared : Nat
  total : Nat

namespace Likeness

def of (name wanted : String) : Likeness :=
  { name, shared := sharedCount name.toList wanted.toList, total := name.length + wanted.length }

/-- Shared blocks make up at least three fifths of the two texts. -/
def isClose (likeness : Likeness) : Bool :=
  3 * likeness.total ≤ 10 * likeness.shared

/-- The larger share first; of equal shares, the name that sorts last. -/
def precedes (a b : Likeness) : Bool :=
  if a.shared * b.total = b.shared * a.total then decide (b.name ≤ a.name)
  else decide (b.shared * a.total < a.shared * b.total)

end Likeness

/-- At most so many names are suggested. -/
def suggestionLimit : Nat := 3

/-- The known names closest to the wanted one, sorted. -/
def suggestions (known : List String) (wanted : String) : List String :=
  let close := (known.map (Likeness.of · wanted)).filter Likeness.isClose
  let chosen := (close.mergeSort Likeness.precedes).take suggestionLimit
  (chosen.map Likeness.name).mergeSort fun a b => decide (a ≤ b)

end SchemaScribe.Text
