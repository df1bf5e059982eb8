/-!
Texts that are cut at a separator and put together again. Cutting loses the separators only, and joining puts
them back between the pieces.
-/

namespace SchemaScribe.Text

/-- The pieces between the separators. There is always at least one. -/
def pieces (separator : Char) : List Char → List (List Char)
  | [] => [[]]
  | c :: rest =>
    if c = separator then [] :: pieces separator rest
    else match pieces separator rest with
      | [] => [[c]]
      | piece :: others => (c :: piece) :: others

/-- What stands before the first separator and, if there is a separator, what stands behind it. -/
def cutAt (separator : Char) (chars : List Char) : List Char × Option (List Char) :=
  (chars.takeWhile (· ≠ separator), (chars.dropWhile (· ≠ separator)).tail?)

/-- The parts in order with the separator between them. -/
def joinWith (separator : String) : List String → String
  | [] => ""
  | [part] => part
  | part :: next :: rest => part ++ separator ++ joinWith separator (next :: rest)

end SchemaScribe.Text
