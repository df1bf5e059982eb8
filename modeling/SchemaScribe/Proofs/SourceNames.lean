import SchemaScribe.Proofs.Names
import SchemaScribe.Source.Grammar

/-! Names that come out of a text. A name token is spelled with the characters of names, and the grammar takes every
name of a statement from such a token, so whatever is read can be trusted to be named properly. -/

namespace SchemaScribe.Source

/-- A name token is spelled like a name. -/
def Token.Proper (token : Token) : Prop :=
  ∀ text, token = .name text → IsName text

def Tokens.Proper : Tokens → Prop
  | .done => True
  | .fault _ => True
  | .next token rest => token.Proper ∧ rest.Proper

theorem isName_ofList {c : Char} (chars : List Char) (starts : isNameStart c) :
    IsName (String.ofList (c :: chars.takeWhile isNameContinue)) := by
  rw [IsName, String.toList_ofList, Settings.isIdentifier, starts, Bool.true_and]
  exact List.all_takeWhile

theorem readNumber_proper {chars : List Char} {token : Token} {rest : List Char}
    (read : readNumber chars = .ok (token, rest)) : token.Proper := by
  obtain ⟨whole, -, read⟩ := bind_eq_ok read
  obtain ⟨fraction, -, read⟩ := bind_eq_ok read
  obtain ⟨exponent, -, read⟩ := bind_eq_ok read
  obtain ⟨-, -, read⟩ := bind_eq_ok read
  obtain ⟨rfl, -⟩ := Prod.mk.inj (Except.ok.inj read)
  intro text same
  split at same <;> cases same

theorem readToken_proper {c : Char} {chars : List Char} {token : Token} {rest : List Char}
    (read : readToken c chars = .ok (token, rest)) : token.Proper := by
  unfold readToken at read
  split at read
  · cases read
    exact nofun
  split at read
  next starts =>
    cases read
    intro text same
    cases same
    exact isName_ofList chars starts
  split at read
  · exact readNumber_proper read
  split at read
  · unfold readDots at read
    split at read
    · cases read
      exact nofun
    · cases read
    · split at read <;> cases read
  split at read
  · split at read
    · obtain ⟨inner, -, same⟩ := map_eq_ok read
      cases same
      exact nofun
    · obtain ⟨inner, -, same⟩ := map_eq_ok read
      cases same
      exact nofun
  · split at read <;> cases read

theorem scan_proper (chars : List Char) : (scan chars).Proper := by
  fun_induction scan chars with
  | case1 => trivial
  | case2 c rest ignored ih => exact ih
  | case3 rest ignored ih => exact ih
  | case4 c rest ignored comment error read => trivial
  | case5 c rest ignored comment token after read ih => exact ⟨readToken_proper read, ih⟩

namespace Parser

/-- From proper tokens, whatever is read satisfies the condition and leaves proper tokens behind. -/
def Yields (parser : Parser α) (condition : α → Prop) : Prop :=
  ∀ tokens value rest, tokens.Proper → parser tokens = .ok (value, rest) → rest.Proper ∧ condition value

/-- From proper tokens, proper tokens are left, whatever is read. -/
abbrev Keeps (parser : Parser α) : Prop :=
  parser.Yields fun _ => True

namespace Yields

variable {parser : Parser α} {condition : α → Prop}

theorem weaken {weaker : α → Prop} (yields : parser.Yields condition)
    (implies : ∀ value, condition value → weaker value) : parser.Yields weaker := by
  intro tokens value rest proper read
  obtain ⟨left, holds⟩ := yields tokens value rest proper read
  exact ⟨left, implies value holds⟩

theorem pure {value : α} (holds : condition value) : Yields (Pure.pure value) condition := by
  intro tokens result rest proper read
  cases read
  exact ⟨proper, holds⟩

theorem bind {next : α → Parser β} {post : β → Prop} (yields : parser.Yields condition)
    (after : ∀ value, condition value → (next value).Yields post) : Yields (parser >>= next) post := by
  intro tokens result rest proper read
  obtain ⟨⟨value, middle⟩, first, second⟩ := bind_eq_ok read
  obtain ⟨left, holds⟩ := yields tokens value middle proper first
  exact after value holds middle result rest left second

theorem map {f : α → β} {post : β → Prop} (yields : parser.Yields condition)
    (implies : ∀ value, condition value → post (f value)) : Yields (f <$> parser) post := by
  intro tokens result rest proper read
  obtain ⟨⟨value, middle⟩, first, second⟩ := bind_eq_ok read
  cases second
  obtain ⟨left, holds⟩ := yields tokens value rest proper first
  exact ⟨left, implies value holds⟩

theorem ite {test : Prop} [Decidable test] {other : Parser α} (first : test → parser.Yields condition)
    (second : ¬test → other.Yields condition) : Yields (if test then parser else other) condition := by
  split
  next holds => exact first holds
  next fails => exact second fails

end Yields

theorem fail_yields (error : SyntaxError) (condition : α → Prop) : (fail error : Parser α).Yields condition :=
  nofun

private theorem first?_proper {tokens : Tokens} (proper : tokens.Proper) :
    ∀ token, tokens.first? = some token → token.Proper := by
  intro token found
  cases tokens with
  | done => cases found
  | fault error => cases found
  | next head rest =>
    cases found
    exact proper.1

private theorem behind_proper {tokens rest : Tokens} (proper : tokens.Proper) (moved : tokens.behind = .ok rest) :
    rest.Proper := by
  cases tokens with
  | done =>
    cases moved
    exact proper
  | fault error =>
    cases moved
    exact proper
  | next head tail =>
    cases tail with
    | done =>
      cases moved
      exact proper.2
    | fault error => cases moved
    | next second others =>
      cases moved
      exact proper.2

theorem current_yields : current.Yields fun found => ∀ token, found = some token → token.Proper := by
  intro tokens found rest proper read
  cases read
  exact ⟨proper, first?_proper proper⟩

theorem lookahead_keeps : lookahead.Keeps := by
  intro tokens found rest proper read
  obtain ⟨after, -, same⟩ := map_eq_ok read
  cases same
  exact ⟨proper, trivial⟩

theorem advance_keeps : advance.Keeps := by
  intro tokens found rest proper read
  obtain ⟨after, moved, same⟩ := map_eq_ok read
  cases same
  exact ⟨behind_proper proper moved, trivial⟩

theorem remaining_keeps : remaining.Keeps := by
  intro tokens found rest proper read
  cases read
  exact ⟨proper, trivial⟩

theorem sees_keeps (mark : Punctuator) : (sees mark).Keeps :=
  current_yields.bind fun _ _ => .pure trivial

theorem accept_keeps (mark : Punctuator) : (accept mark).Keeps :=
  (sees_keeps mark).bind fun _ _ => .ite (fun _ => advance_keeps.bind fun _ _ => .pure trivial) fun _ => .pure trivial

theorem expect_keeps (mark : Punctuator) : (expect mark).Keeps :=
  (accept_keeps mark).bind fun _ _ => .ite (fun _ => .pure trivial) fun _ =>
    current_yields.bind fun _ _ => fail_yields _ _

theorem name_yields : name.Yields IsName := by
  refine current_yields.bind fun found proper => ?_
  split
  next text => exact advance_keeps.bind fun _ _ => .pure (proper _ rfl text rfl)
  next => exact fail_yields _ _

theorem acceptKeyword_keeps (word : String) : (acceptKeyword word).Keeps :=
  current_yields.bind fun _ _ => .ite (fun _ => advance_keeps.bind fun _ _ => .pure trivial) fun _ => .pure trivial

theorem expectKeyword_keeps (word : String) : (expectKeyword word).Keeps :=
  (acceptKeyword_keeps word).bind fun _ _ => .ite (fun _ => .pure trivial) fun _ =>
    current_yields.bind fun _ _ => fail_yields _ _

section Repetition

variable {item : Parser α} {condition : α → Prop} (yields : item.Yields condition)
include yields

/-- One item, and then others that all satisfy the condition. -/
private theorem cons_yields {others : Parser (List α)}
    (rest : others.Yields fun values => ∀ value ∈ values, condition value) :
    Yields (do
      let first ← item
      let rest ← others
      return first :: rest) fun values => ∀ value ∈ values, condition value :=
  yields.bind fun _ first => rest.bind fun _ later => .pure (List.forall_mem_cons.mpr ⟨first, later⟩)

theorem itemsUntil_yields (close : Punctuator) (bound : Nat) :
    (itemsUntil close item bound).Yields fun values => ∀ value ∈ values, condition value := by
  induction bound with
  | zero => exact .pure nofun
  | succ bound ih =>
    refine (accept_keeps close).bind fun _ _ => .ite (fun _ => .pure nofun) fun _ => ?_
    exact cons_yields yields ih

theorem anyBetween_yields (opening close : Punctuator) :
    (anyBetween opening item close).Yields fun values => ∀ value ∈ values, condition value :=
  (expect_keeps opening).bind fun _ _ => remaining_keeps.bind fun _ _ => itemsUntil_yields yields close _

theorem manyBetween_yields (opening close : Punctuator) :
    (manyBetween opening item close).Yields fun values => ∀ value ∈ values, condition value := by
  refine (expect_keeps opening).bind fun _ _ => yields.bind fun _ first => remaining_keeps.bind fun _ _ => ?_
  exact (itemsUntil_yields yields close _).bind fun _ later => .pure (List.forall_mem_cons.mpr ⟨first, later⟩)

theorem optionalBetween_yields (opening close : Punctuator) :
    (optionalBetween opening item close).Yields fun values => ∀ value ∈ values, condition value :=
  (sees_keeps opening).bind fun _ _ => .ite (fun _ => manyBetween_yields yields opening close) fun _ => .pure nofun

theorem delimitedRest_yields (delimiter : Punctuator) (bound : Nat) :
    (delimitedRest delimiter item bound).Yields fun values => ∀ value ∈ values, condition value := by
  induction bound with
  | zero => exact .pure nofun
  | succ bound ih =>
    refine (accept_keeps delimiter).bind fun _ _ => .ite (fun _ => ?_) fun _ => .pure nofun
    exact cons_yields yields ih

theorem delimited_yields (delimiter : Punctuator) :
    (delimited delimiter item).Yields fun values => ∀ value ∈ values, condition value := by
  refine (accept_keeps delimiter).bind fun _ _ => yields.bind fun _ first => remaining_keeps.bind fun _ _ => ?_
  exact (delimitedRest_yields yields delimiter _).bind fun _ later => .pure (List.forall_mem_cons.mpr ⟨first, later⟩)

theorem itemsWhile_yields (mark : Punctuator) (bound : Nat) :
    (itemsWhile mark item bound).Yields fun values => ∀ value ∈ values, condition value := by
  induction bound with
  | zero => exact .pure nofun
  | succ bound ih =>
    refine (sees_keeps mark).bind fun _ _ => .ite (fun _ => ?_) fun _ => .pure nofun
    exact cons_yields yields ih

theorem itemsToEnd_yields (bound : Nat) :
    (itemsToEnd item bound).Yields fun values => ∀ value ∈ values, condition value := by
  induction bound with
  | zero => exact .pure nofun
  | succ bound ih =>
    refine current_yields.bind fun _ _ => .ite (fun _ => .pure nofun) fun _ => ?_
    exact cons_yields yields ih

end Repetition

end Parser

open SchemaScribe.Source.Parser

/-- All names of the reference are proper, and it is not malformed. -/
def ReadsType (ref : TypeRef) : Prop :=
  (∀ name ∈ ref.names, IsName name) ∧ ref.WellFormed

theorem ReadsType.require {ref : TypeRef} (reads : ReadsType ref) : ReadsType ref.require := by
  cases ref <;> exact reads

theorem typeRef_yields (room : Nat) : (typeRef room).Yields ReadsType := by
  have ending (ref : TypeRef) (reads : ReadsType ref) :
      Yields (do return if ← accept .bang then ref.require else ref) ReadsType := by
    refine (accept_keeps .bang).bind fun banged _ => .pure ?_
    split
    · exact reads.require
    · exact reads
  have plain : name.Yields fun text => ReadsType (.named text false) :=
    name_yields.weaken fun text named => ⟨by simpa [TypeRef.names] using named, rfl⟩
  induction room with
  | zero =>
    rw [typeRef]
    refine (accept_keeps .bracketOpen).bind fun opened _ => .ite (fun _ => ?_) fun _ => ?_
    · exact (fail_yields _ ReadsType).bind ending
    · exact plain.bind fun text reads => (Yields.pure reads).bind ending
  | succ room ih =>
    rw [typeRef]
    refine (accept_keeps .bracketOpen).bind fun opened _ => .ite (fun _ => ?_) fun _ => ?_
    · refine ih.bind fun element reads => (expect_keeps .bracketClose).bind fun _ _ => ?_
      have whole : ReadsType (element.list false) := reads
      exact (Yields.pure whole).bind ending
    · exact plain.bind fun text reads => (Yields.pure reads).bind ending

end SchemaScribe.Source
