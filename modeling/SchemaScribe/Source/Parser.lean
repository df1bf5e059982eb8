import SchemaScribe.Source.Statement

/-!
Steps over the tokens of a document. A lexical fault is reported as soon as the token before it has been
accepted, since every step that accepts a token also looks at the one behind it.
-/

namespace SchemaScribe.Source

/-- From the tokens that are left, a result and the tokens behind it, or the first error. -/
abbrev Parser := StateT Tokens (Except SyntaxError)

namespace Tokens

def first? : Tokens → Option Token
  | next token _ => some token
  | _ => none

/-- The tokens themselves, unless they begin with a fault. -/
def checked : Tokens → Except SyntaxError Tokens
  | fault error => .error (.lexical error)
  | tokens => .ok tokens

/-- Behind the first token; at the end, the end. -/
def behind : Tokens → Except SyntaxError Tokens
  | next _ rest => rest.checked
  | tokens => .ok tokens

end Tokens

namespace Parser

/-- The token at the front; there is none at the end of the text. -/
def current : Parser (Option Token) := fun tokens =>
  .ok (tokens.first?, tokens)

/-- The token behind the front. -/
def lookahead : Parser (Option Token) := fun tokens =>
  tokens.behind.map fun rest => (rest.first?, tokens)

def advance : Parser Unit := fun tokens =>
  tokens.behind.map fun rest => ((), rest)

/-- How many tokens are left, which bounds every repetition. -/
def remaining : Parser Nat := fun tokens =>
  .ok (tokens.length, tokens)

def fail (error : SyntaxError) : Parser α := fun _ =>
  .error error

def sees (mark : Punctuator) : Parser Bool := do
  return (← current) == some (.punctuator mark)

def accept (mark : Punctuator) : Parser Bool := do
  if ← sees mark then
    advance
    return true
  else
    return false

def expect (mark : Punctuator) : Parser Unit := do
  unless ← accept mark do
    fail (.expected (.mark mark) (← current))

def expectEnd : Parser Unit := do
  match ← current with
  | none => return ()
  | found => fail (.expected .textEnd found)

def name : Parser String := do
  match ← current with
  | some (.name text) =>
    advance
    return text
  | found => fail (.expected .name found)

def acceptKeyword (word : String) : Parser Bool := do
  if (← current) == some (.name word) then
    advance
    return true
  else
    return false

def expectKeyword (word : String) : Parser Unit := do
  unless ← acceptKeyword word do
    fail (.expected (.keyword word) (← current))

/-- Items up to the closing mark, of which there are fewer than `bound`. -/
def itemsUntil (close : Punctuator) (item : Parser α) : Nat → Parser (List α)
  | 0 => return []
  | bound + 1 => do
    if ← accept close then
      return []
    else
      let first ← item
      let rest ← itemsUntil close item bound
      return first :: rest

/-- Items between two marks, possibly none. -/
def anyBetween (opening : Punctuator) (item : Parser α) (close : Punctuator) : Parser (List α) := do
  expect opening
  itemsUntil close item ((← remaining) + 1)

/-- One item or more between two marks. -/
def manyBetween (opening : Punctuator) (item : Parser α) (close : Punctuator) : Parser (List α) := do
  expect opening
  let first ← item
  let rest ← itemsUntil close item ((← remaining) + 1)
  return first :: rest

/-- Nothing at all, or one item or more between two marks. -/
def optionalBetween (opening : Punctuator) (item : Parser α) (close : Punctuator) : Parser (List α) := do
  if ← sees opening then manyBetween opening item close else return []

/-- Further items, each behind a delimiter. -/
def delimitedRest (delimiter : Punctuator) (item : Parser α) : Nat → Parser (List α)
  | 0 => return []
  | bound + 1 => do
    if ← accept delimiter then
      let first ← item
      let rest ← delimitedRest delimiter item bound
      return first :: rest
    else
      return []

/-- One item or more with delimiters between them, and perhaps one in front. -/
def delimited (delimiter : Punctuator) (item : Parser α) : Parser (List α) := do
  let _ ← accept delimiter
  let first ← item
  let rest ← delimitedRest delimiter item ((← remaining) + 1)
  return first :: rest

/-- Items as long as the next one begins with its mark. -/
def itemsWhile (mark : Punctuator) (item : Parser α) : Nat → Parser (List α)
  | 0 => return []
  | bound + 1 => do
    if ← sees mark then
      let first ← item
      let rest ← itemsWhile mark item bound
      return first :: rest
    else
      return []

/-- Items up to the end of the text. -/
def itemsToEnd (item : Parser α) : Nat → Parser (List α)
  | 0 => return []
  | bound + 1 => do
    if (← current).isNone then
      return []
    else
      let first ← item
      let rest ← itemsToEnd item bound
      return first :: rest

end Parser

end SchemaScribe.Source
