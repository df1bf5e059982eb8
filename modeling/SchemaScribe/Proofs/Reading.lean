import SchemaScribe.Proofs.Spelling
import SchemaScribe.Source.Grammar

/-! Parsers on tokens that were written for them. A parser reads its value off the tokens and stops where other tokens
follow; from parsers that do so, so do their sequences and repetitions. The only way to fail is to nest too deeply. -/

namespace SchemaScribe.Source

namespace Tokens

theorem first?_ofList (tokens : List Token) : (ofList tokens).first? = tokens.head? := by
  cases tokens <;> rfl

theorem checked_ofList (tokens : List Token) : (ofList tokens).checked = .ok (ofList tokens) := by
  cases tokens <;> rfl

theorem length_ofList (tokens : List Token) : (ofList tokens).length = tokens.length := by
  induction tokens with
  | nil => rfl
  | cons token rest ih => exact congrArg (· + 1) ih

end Tokens

/-- What may follow a complete phrase: a name, a string, the end, or a mark that closes or separates. -/
def Boundary (rest : List Token) : Prop :=
  ∀ mark, rest.head? = some (.punctuator mark) → mark ∈ [.parenClose, .bracketClose, .braceClose, .colon]

/-- The phrase begins with a name or a string. -/
def Begins (tokens : List Token) : Prop :=
  ∃ token rest, tokens = token :: rest ∧ ∀ mark, token ≠ .punctuator mark

namespace Begins

variable {tokens : List Token} (begins : Begins tokens)
include begins

theorem append (rest : List Token) : Begins (tokens ++ rest) := by
  obtain ⟨token, others, rfl, apart⟩ := begins
  exact ⟨token, others ++ rest, rfl, apart⟩

theorem ne_nil : tokens ≠ [] := by
  obtain ⟨token, others, rfl, -⟩ := begins
  exact List.cons_ne_nil token others

theorem head?_ne (rest : List Token) (mark : Punctuator) : (tokens ++ rest).head? ≠ some (.punctuator mark) := by
  obtain ⟨token, others, rfl, apart⟩ := begins
  exact fun same => apart mark (Option.some.inj same)

theorem boundary (rest : List Token) : Boundary (tokens ++ rest) :=
  fun mark same => absurd same (begins.head?_ne rest mark)

end Begins

theorem Boundary.head?_ne {rest : List Token} (boundary : Boundary rest) {mark : Punctuator}
    (other : mark ∉ [Punctuator.parenClose, .bracketClose, .braceClose, .colon]) :
    rest.head? ≠ some (.punctuator mark) :=
  fun same => other (boundary mark same)

theorem boundary_cons {mark : Punctuator} (closing : mark ∈ [.parenClose, .bracketClose, .braceClose, .colon])
    (rest : List Token) : Boundary (.punctuator mark :: rest) := by
  intro other same
  cases same
  exact closing

namespace Parser

/-- From the written tokens the value is read, up to where the rest follows; what does not fit is refused. -/
def Reads (parser : Parser α) (written : List Token) (value : α) (fits : Prop) (follows : List Token → Prop) : Prop :=
  ∀ rest, follows rest →
    (fits → parser (.ofList (written ++ rest)) = .ok (value, .ofList rest)) ∧
      (¬fits → parser (.ofList (written ++ rest)) = .error .nestedTooDeeply)

/-- Whatever comes behind it. -/
def Anything (_ : List Token) : Prop :=
  True

/-- Reading that never fails. -/
theorem Reads.of_eq {parser : Parser α} {written : List Token} {value : α} {follows : List Token → Prop}
    (same : ∀ rest, follows rest → parser (.ofList (written ++ rest)) = .ok (value, .ofList rest)) :
    parser.Reads written value True follows := by
  intro rest after
  exact ⟨fun _ => same rest after, fun fails => absurd trivial fails⟩

namespace Reads

variable {parser : Parser α} {written more : List Token} {value : α} {fits : Prop} {follows : List Token → Prop}

theorem congr {others : Prop} (reads : parser.Reads written value fits follows) (same : fits ↔ others) :
    parser.Reads written value others follows := by
  rw [← same]
  exact reads

theorem weaken {narrower : List Token → Prop} (reads : parser.Reads written value fits follows)
    (implies : ∀ rest, narrower rest → follows rest) : parser.Reads written value fits narrower :=
  fun rest after => reads rest (implies rest after)

theorem pure : (Pure.pure value : Parser α).Reads [] value True follows :=
  of_eq fun _ _ => rfl

theorem pure_bind {next : α → Parser β} {result : β} (reads : (next value).Reads written result fits follows) :
    (Pure.pure value >>= next).Reads written result fits follows :=
  reads

/-- One phrase behind the other, where both may fail to fit. -/
theorem bindFitting {next : α → Parser β} {result : β} {fitsNext : Prop} {followsNext : List Token → Prop}
    (reads : parser.Reads written value fits follows)
    (after : (next value).Reads more result fitsNext followsNext)
    (joins : ∀ rest, followsNext rest → follows (more ++ rest)) :
    (parser >>= next).Reads (written ++ more) result (fits ∧ fitsNext) followsNext := by
  intro rest ends
  obtain ⟨first, refused⟩ := reads (more ++ rest) (joins rest ends)
  obtain ⟨second, refusedNext⟩ := after rest ends
  rw [List.append_assoc]
  have step (tokens : Tokens) : (parser >>= next) tokens = parser tokens >>= fun found => next found.1 found.2 := rfl
  rw [step]
  constructor
  · rintro ⟨here, there⟩
    rw [first here]
    exact second there
  · intro fails
    by_cases here : fits
    · rw [first here]
      exact refusedNext fun there => fails ⟨here, there⟩
    · rw [refused here]
      rfl

/-- One phrase behind another that always fits. -/
theorem bind {next : α → Parser β} {result : β} {fitsNext : Prop} {followsNext : List Token → Prop}
    (reads : parser.Reads written value True follows) (after : (next value).Reads more result fitsNext followsNext)
    (joins : ∀ rest, followsNext rest → follows (more ++ rest)) :
    (parser >>= next).Reads (written ++ more) result fitsNext followsNext :=
  (reads.bindFitting after joins).congr (iff_of_eq (true_and fitsNext))

/-- A last step for which nothing is written. -/
theorem last {next : α → Parser β} {result : β} (reads : parser.Reads written value fits follows)
    (after : (next value).Reads [] result True follows) : (parser >>= next).Reads written result fits follows := by
  have both := reads.bindFitting after fun _ ends => ends
  rw [List.append_nil] at both
  exact both.congr (iff_of_eq (and_true fits))

theorem map {f : α → β} (reads : parser.Reads written value fits follows) :
    (parser >>= fun value => Pure.pure (f value)).Reads written (f value) fits follows :=
  reads.last .pure

theorem ite_pos {test : Prop} [Decidable test] {other : Parser α} (holds : test)
    (reads : parser.Reads written value fits follows) :
    (if test then parser else other).Reads written value fits follows := by
  rw [if_pos holds]
  exact reads

theorem ite_neg {test : Prop} [Decidable test] {other : Parser α} (fails : ¬test)
    (reads : parser.Reads written value fits follows) :
    (if test then other else parser).Reads written value fits follows := by
  rw [if_neg fails]
  exact reads

/-- The number of tokens is as good a bound as any that suffices. -/
theorem bounded {next : Nat → Parser α} {enough : Nat}
    (reads : ∀ bound, enough ≤ bound → (next bound).Reads written value fits follows)
    (long : enough ≤ written.length) : (remaining >>= next).Reads written value fits follows := by
  intro rest ends
  have step : (remaining >>= next) (.ofList (written ++ rest)) =
      next (written ++ rest).length (.ofList (written ++ rest)) := by
    change next (Tokens.ofList (written ++ rest)).length _ = _
    rw [Tokens.length_ofList]
  rw [step]
  apply reads _ _ rest ends
  rw [List.length_append]
  omega

end Reads

section Steps

theorem advance_reads (token : Token) : advance.Reads [token] () True Anything := by
  apply Reads.of_eq
  intro rest _
  change (Tokens.ofList rest).checked.map _ = _
  rw [Tokens.checked_ofList]
  rfl

theorem current_reads (found : Option Token) : current.Reads [] found True fun rest => rest.head? = found := by
  apply Reads.of_eq
  intro rest same
  change Except.ok ((Tokens.ofList rest).first?, _) = _
  rw [Tokens.first?_ofList, same]
  rfl

theorem sees_present (mark : Punctuator) :
    (sees mark).Reads [] true True fun rest => rest.head? = some (.punctuator mark) := by
  have reads := (current_reads (some (.punctuator mark))).map (f := fun found => found == some (.punctuator mark))
  rw [beq_self_eq_true] at reads
  exact reads

theorem sees_absent (mark : Punctuator) :
    (sees mark).Reads [] false True fun rest => rest.head? ≠ some (.punctuator mark) := by
  intro rest absent
  have reads := (current_reads rest.head?).map (f := fun found => found == some (.punctuator mark))
  rw [beq_eq_false_iff_ne.mpr absent] at reads
  exact reads rest rfl

theorem accept_present (mark : Punctuator) : (accept mark).Reads [.punctuator mark] true True Anything :=
  (sees_present mark).bind ((advance_reads _).map) fun _ _ => rfl

theorem accept_absent (mark : Punctuator) :
    (accept mark).Reads [] false True fun rest => rest.head? ≠ some (.punctuator mark) :=
  (sees_absent mark).bind .pure fun _ absent => absent

theorem expect_reads (mark : Punctuator) : (expect mark).Reads [.punctuator mark] () True Anything :=
  (accept_present mark).bind .pure fun _ _ => trivial

theorem name_reads (text : String) : name.Reads [.name text] text True Anything :=
  (current_reads (some (.name text))).bind ((advance_reads _).map) fun _ _ => rfl

theorem acceptKeyword_present (word : String) : (acceptKeyword word).Reads [.name word] true True Anything :=
  (current_reads (some (.name word))).bind (.ite_pos (beq_self_eq_true _) ((advance_reads _).map)) fun _ _ => rfl

theorem acceptKeyword_absent (word : String) :
    (acceptKeyword word).Reads [] false True fun rest => rest.head? ≠ some (.name word) := by
  intro rest absent
  have other : ¬(rest.head? == some (.name word)) = true := fun same => absent (beq_iff_eq.mp same)
  have reads : (acceptKeyword word).Reads [] false True fun others => others.head? = rest.head? :=
    (current_reads rest.head?).bind (.ite_neg other .pure) fun _ same => same
  exact reads rest rfl

theorem expectKeyword_reads (word : String) : (expectKeyword word).Reads [.name word] () True Anything :=
  (acceptKeyword_present word).bind .pure fun _ _ => trivial

end Steps

section Repetition

variable {item : Parser α} {written : α → List Token} {fits : α → Prop} {follows : List Token → Prop} {items : List α}

/-- Each item can be read, begins with something that is no mark, and may follow another one. -/
structure ReadsEach (item : Parser α) (written : α → List Token) (fits : α → Prop) (follows : List Token → Prop)
    (items : List α) : Prop where
  reads : ∀ value ∈ items, item.Reads (written value) value (fits value) follows
  begins : ∀ value ∈ items, Begins (written value)
  joins : ∀ value ∈ items, ∀ rest, follows (written value ++ rest)

/-- There are at least as many tokens as items, which is why the number of tokens bounds the repetition. -/
theorem length_le_flatMap (given : ∀ item ∈ items, written item ≠ []) :
    items.length ≤ (items.flatMap written).length := by
  induction items with
  | nil => exact Nat.le_refl 0
  | cons first rest ih =>
    obtain ⟨head, tail⟩ := List.forall_mem_cons.mp given
    have positive := List.length_pos_iff.mpr head
    have shorter := ih tail
    rw [List.flatMap_cons, List.length_append, List.length_cons]
    omega

namespace ReadsEach

theorem of_boundary (reads : ∀ value ∈ items, item.Reads (written value) value (fits value) Boundary)
    (begins : ∀ value, Begins (written value)) : ReadsEach item written fits Boundary items :=
  { reads, begins := fun value _ => begins value, joins := fun value _ => (begins value).boundary }

theorem cons {first : α} {rest : List α} (each : ReadsEach item written fits follows (first :: rest)) :
    item.Reads (written first) first (fits first) follows ∧ Begins (written first) ∧
      ReadsEach item written fits follows rest := by
  obtain ⟨head, tail⟩ := List.forall_mem_cons.mp each.reads
  obtain ⟨begins, others⟩ := List.forall_mem_cons.mp each.begins
  exact ⟨head, begins, ⟨tail, others, (List.forall_mem_cons.mp each.joins).2⟩⟩

theorem follows_append (each : ReadsEach item written fits follows items) {rest : List Token} (ends : follows rest) :
    follows (items.flatMap written ++ rest) := by
  cases items with
  | nil => exact ends
  | cons first others =>
    rw [List.flatMap_cons, List.append_assoc]
    exact each.joins first (List.mem_cons_self ..) _

theorem follows_close (each : ReadsEach item written fits follows items) {close : Punctuator}
    (ends : ∀ rest, follows (.punctuator close :: rest)) (more : List Token) :
    follows (items.flatMap written ++ [.punctuator close] ++ more) := by
  rw [List.append_assoc]
  exact each.follows_append (ends more)

theorem length_le (each : ReadsEach item written fits follows items) :
    items.length ≤ (items.flatMap written).length :=
  length_le_flatMap fun value inside => (each.begins value inside).ne_nil

end ReadsEach

theorem itemsUntil_reads {close : Punctuator} (each : ReadsEach item written fits follows items)
    (ends : ∀ rest, follows (.punctuator close :: rest)) {bound : Nat} (enough : items.length ≤ bound) :
    (itemsUntil close item (bound + 1)).Reads (items.flatMap written ++ [.punctuator close]) items
      (∀ value ∈ items, fits value) Anything := by
  induction items generalizing bound with
  | nil =>
    have reads : (itemsUntil close item (bound + 1)).Reads [.punctuator close] [] True Anything :=
      (accept_present close).bind (.ite_pos rfl .pure) fun _ _ => trivial
    exact reads.congr (iff_of_true trivial nofun)
  | cons first rest ih =>
    cases bound with
    | zero => cases enough
    | succ bound =>
      obtain ⟨head, begins, tail⟩ := each.cons
      have others := ih tail (Nat.le_of_succ_le_succ enough)
      rw [List.flatMap_cons, List.append_assoc]
      refine (accept_absent close).bind (.ite_neg Bool.false_ne_true (.congr ?_ List.forall_mem_cons.symm)) ?_
      · exact head.bindFitting others.map fun more _ => tail.follows_close ends more
      · exact fun more _ => (begins.append _).head?_ne more close

theorem itemsToEnd_reads (each : ReadsEach item written fits follows items) (ends : follows []) {bound : Nat}
    (enough : items.length ≤ bound) :
    (itemsToEnd item (bound + 1)).Reads (items.flatMap written) items (∀ value ∈ items, fits value) (· = []) := by
  induction items generalizing bound with
  | nil =>
    have reads : (itemsToEnd item (bound + 1)).Reads [] [] True (· = []) :=
      (current_reads none).bind (.ite_pos rfl .pure) fun _ none => congrArg List.head? none
    exact reads.congr (iff_of_true trivial nofun)
  | cons first rest ih =>
    cases bound with
    | zero => cases enough
    | succ bound =>
      obtain ⟨head, ⟨token, others, same, -⟩, tail⟩ := each.cons
      have further := ih tail (Nat.le_of_succ_le_succ enough)
      have joins (more : List Token) (none : more = []) : follows (rest.flatMap written ++ more) :=
        tail.follows_append (none ▸ ends)
      rw [List.flatMap_cons]
      refine (current_reads (some token)).bind
        (.ite_neg Bool.false_ne_true (.congr (head.bindFitting further.map joins) List.forall_mem_cons.symm))
        fun more _ => ?_
      rw [same]
      rfl

theorem manyBetween_reads (opening close : Punctuator) {first : α} {rest : List α}
    (each : ReadsEach item written fits follows (first :: rest))
    (ends : ∀ rest, follows (.punctuator close :: rest)) :
    (manyBetween opening item close).Reads
      (.punctuator opening :: ((first :: rest).flatMap written ++ [.punctuator close])) (first :: rest)
      (∀ value ∈ first :: rest, fits value) Anything := by
  obtain ⟨head, -, tail⟩ := each.cons
  have others : Reads (do
        let rest ← itemsUntil close item ((← remaining) + 1)
        return first :: rest)
      (rest.flatMap written ++ [.punctuator close]) (first :: rest) (∀ value ∈ rest, fits value) Anything := by
    refine .bounded (fun bound enough => (itemsUntil_reads tail ends enough).map) ?_
    rw [List.length_append]
    exact Nat.le_add_right_of_le tail.length_le
  rw [List.flatMap_cons, List.append_assoc]
  refine (expect_reads opening).bind (.congr ?_ List.forall_mem_cons.symm) fun _ _ => trivial
  exact head.bindFitting others fun more _ => tail.follows_close ends more

/-- The items in brackets, or nothing at all if there are none. -/
def between (opening close : Punctuator) (written : α → List Token) : List α → List Token
  | [] => []
  | items => .punctuator opening :: (items.flatMap written ++ [.punctuator close])

theorem between_map {f : β → α} {other : β → List Token} {items : List β}
    (same : ∀ item ∈ items, written (f item) = other item) (opening close : Punctuator) :
    between opening close written (items.map f) = between opening close other items := by
  have inside : (items.map f).flatMap written = items.flatMap other := by
    rw [List.flatMap_map, List.flatMap_def, List.flatMap_def, List.map_congr_left same]
  cases items with
  | nil => rfl
  | cons first rest => rw [List.map_cons, between, between, ← List.map_cons, inside] <;> exact nofun

theorem optionalBetween_reads (opening close : Punctuator)
    (each : ReadsEach item written fits follows items) (ends : ∀ rest, follows (.punctuator close :: rest)) :
    (optionalBetween opening item close).Reads (between opening close written items) items
      (∀ value ∈ items, fits value) fun rest => rest.head? ≠ some (.punctuator opening) := by
  cases items with
  | nil =>
    have reads : (optionalBetween opening item close).Reads [] [] True fun rest =>
        rest.head? ≠ some (.punctuator opening) :=
      (sees_absent opening).bind (.ite_neg Bool.false_ne_true .pure) fun _ absent => absent
    exact reads.congr (iff_of_true trivial nofun)
  | cons first rest =>
    have items := manyBetween_reads opening close each ends
    exact (sees_present opening).bind (.ite_pos rfl (.weaken items fun _ _ => trivial)) fun _ _ => rfl

end Repetition

end Parser

end SchemaScribe.Source
