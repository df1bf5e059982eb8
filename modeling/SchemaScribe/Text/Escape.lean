/-!
Escapes in quoted texts: single letters for common characters, and code points in hexadecimal digits. A character
beyond the first 65536 is spelled by two code units, of which neither stands alone.
-/

namespace SchemaScribe.Text

def escapedCharacter? : Char → Option Char
  | '"' => some '"'
  | '\\' => some '\\'
  | '/' => some '/'
  | 'b' => some '\x08'
  | 'f' => some '\x0c'
  | 'n' => some '\n'
  | 'r' => some '\r'
  | 't' => some '\t'
  | _ => none

def hexValue? (c : Char) : Option Nat :=
  if '0' ≤ c && c ≤ '9' then some (c.toNat - '0'.toNat)
  else if 'a' ≤ c && c ≤ 'f' then some (c.toNat - 'a'.toNat + 10)
  else if 'A' ≤ c && c ≤ 'F' then some (c.toNat - 'A'.toNat + 10)
  else none

def isHexDigit (c : Char) : Bool :=
  (hexValue? c).isSome

def hexNumber (digits : List Char) : Nat :=
  digits.foldl (fun code c => code * 16 + (hexValue? c).getD 0) 0

def isLeadingSurrogate (code : Nat) : Bool :=
  0xD800 ≤ code && code ≤ 0xDBFF

def isTrailingSurrogate (code : Nat) : Bool :=
  0xDC00 ≤ code && code ≤ 0xDFFF

/-- Four hexadecimal digits at the front. -/
def readCodeUnit? (chars : List Char) : Option (Nat × List Char) :=
  let digits := chars.take 4
  if digits.length = 4 ∧ digits.all isHexDigit then some (hexNumber digits, chars.drop 4) else none

/-- The character that two surrogate code units spell. -/
def joinSurrogates (leading trailing : Nat) : Char :=
  Char.ofNat (0x10000 + (leading - 0xD800) * 0x400 + (trailing - 0xDC00))

/-- What follows the first code unit of a pair: the mark of an escape and a trailing surrogate. -/
def readTrailingSurrogate? : List Char → Option (Nat × List Char)
  | '\\' :: 'u' :: chars =>
    match readCodeUnit? chars with
    | some (code, rest) => if isTrailingSurrogate code then some (code, rest) else none
    | none => none
  | _ => none

/-- The character that is spelled behind a backslash and a `u`. -/
def readCodePoint? (chars : List Char) : Option (Char × List Char) :=
  match readCodeUnit? chars with
  | none => none
  | some (code, rest) =>
    if isLeadingSurrogate code then
      match readTrailingSurrogate? rest with
      | some (trailing, rest) => some (joinSurrogates code trailing, rest)
      | none => none
    else if isTrailingSurrogate code then none
    else some (Char.ofNat code, rest)

theorem readCodeUnit?_shorter {chars code rest} (read : readCodeUnit? chars = some (code, rest)) :
    rest.length ≤ chars.length := by
  simp only [readCodeUnit?, Option.ite_none_right_eq_some, Option.some.injEq, Prod.mk.injEq] at read
  rw [← read.2.2, List.length_drop]
  omega

theorem readTrailingSurrogate?_shorter {chars code rest}
    (read : readTrailingSurrogate? chars = some (code, rest)) : rest.length ≤ chars.length := by
  unfold readTrailingSurrogate? at read
  split at read
  · split at read
    · next unit =>
      split at read
      · cases read
        have := readCodeUnit?_shorter unit
        simp only [List.length_cons]
        omega
      · cases read
    · cases read
  · cases read

theorem readCodePoint?_shorter {chars value rest} (read : readCodePoint? chars = some (value, rest)) :
    rest.length ≤ chars.length := by
  unfold readCodePoint? at read
  split at read
  · cases read
  · next unit =>
    have shorter := readCodeUnit?_shorter unit
    split at read
    · split at read
      · next pair =>
        obtain ⟨_, rfl⟩ := Prod.mk.inj (Option.some.inj read)
        exact Nat.le_trans (readTrailingSurrogate?_shorter pair) shorter
      · cases read
    · split at read
      · cases read
      · obtain ⟨_, rfl⟩ := Prod.mk.inj (Option.some.inj read)
        exact shorter

end SchemaScribe.Text
