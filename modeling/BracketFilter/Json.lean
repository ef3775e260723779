import BracketFilter.Text.Hex

/-!
# JSON texts

* `Json` — what a JSON text says, with the members of objects in their order, repeated ones
  included, and numbers as they are written.
* `Json.read?` — reads a text that holds one value and blanks around it.

A string is `none` if one of its escapes is half of a surrogate pair: the text is JSON, but the
string is not a text.
-/

set_option autoImplicit false

namespace BracketFilter

/-- What a JSON text says. -/
inductive Json where
  | null
  | bool (value : Bool)
  | number (numeral : List Char)
  | string (text : Option String)
  | array (elements : List Json)
  | object (members : List (Option String × Json))

namespace Json

open BracketFilter.Text

/-- The blanks that may stand between tokens. -/
def isSpace (c : Char) : Bool := c == ' ' || c == '\t' || c == '\n' || c == '\r'

/-- The text behind its blanks. -/
def skip (cs : List Char) : List Char := cs.dropWhile isSpace

/-! ## Numbers -/

/-- A run of at least one digit, and the text behind it. -/
def scanDigits? (cs : List Char) : Option (List Char × List Char) :=
  let run := cs.takeWhile Char.isDigit
  if run = [] then none else some (run, cs.dropWhile Char.isDigit)

/-- A whole number without leading zeros. -/
def scanWhole? (cs : List Char) : Option (List Char × List Char) :=
  match scanDigits? cs with
  | some (run, rest) => if run.head? = some '0' ∧ 1 < run.length then none else some (run, rest)
  | none => none

/-- A point and digits, or nothing. -/
def scanFraction? : List Char → Option (List Char × List Char)
  | '.' :: rest => (scanDigits? rest).map fun (run, tail) => ('.' :: run, tail)
  | cs => some ([], cs)

/-- The sign of an exponent, if it has one. -/
def scanSign : List Char → List Char × List Char
  | '+' :: rest => (['+'], rest)
  | '-' :: rest => (['-'], rest)
  | cs => ([], cs)

/-- An exponent, or nothing. -/
def scanExponent? : List Char → Option (List Char × List Char)
  | c :: rest =>
    if c = 'e' ∨ c = 'E' then
      let (sign, digits) := scanSign rest
      (scanDigits? digits).map fun (run, tail) => (c :: sign ++ run, tail)
    else some ([], c :: rest)
  | [] => some ([], [])

/-- A number without sign. -/
def scanUnsigned? (cs : List Char) : Option (List Char × List Char) := do
  let (whole, cs) ← scanWhole? cs
  let (fraction, cs) ← scanFraction? cs
  let (exponent, cs) ← scanExponent? cs
  pure (whole ++ fraction ++ exponent, cs)

/-- A number. -/
def scanNumber? : List Char → Option (List Char × List Char)
  | '-' :: rest => (scanUnsigned? rest).map fun (numeral, tail) => ('-' :: numeral, tail)
  | cs => scanUnsigned? cs

/-! ## Strings -/

/-- The character that one letter stands for behind a backslash. -/
def escape? (c : Char) : Option Char :=
  if c = '"' ∨ c = '\\' ∨ c = '/' then some c
  else if c = 'b' then some (Char.ofNat 8)
  else if c = 'f' then some (Char.ofNat 12)
  else if c = 'n' then some '\n'
  else if c = 'r' then some '\r'
  else if c = 't' then some '\t'
  else none

/-- The units of a string behind its opening quote, and the text behind its closing quote. A unit is
a code point; half of a surrogate pair is one too. -/
def scanUnits? : List Char → Option (List Nat × List Char)
  | [] => none
  | c :: rest =>
    if c = '"' then some ([], rest)
    else if c = '\\' then
      match rest with
      | 'u' :: a :: b :: c :: d :: tail =>
        match readHex? [a, b, c, d], scanUnits? tail with
        | some unit, some (units, tail) => some (unit :: units, tail)
        | _, _ => none
      | e :: tail =>
        match escape? e, scanUnits? tail with
        | some unit, some (units, tail) => some (unit.toNat :: units, tail)
        | _, _ => none
      | [] => none
    else if c.toNat < 0x20 then none
    else (scanUnits? rest).map fun (units, tail) => (c.toNat :: units, tail)

/-- The characters of units, in which two halves of a surrogate pair are one character. -/
def characters? : List Nat → Option (List Char)
  | [] => some []
  | [unit] => if 0xD800 ≤ unit ∧ unit ≤ 0xDFFF then none else some [Char.ofNat unit]
  | unit :: next :: rest =>
    if 0xD800 ≤ unit ∧ unit ≤ 0xDBFF then
      if 0xDC00 ≤ next ∧ next ≤ 0xDFFF then
        (characters? rest).map
          (Char.ofNat (0x10000 + (unit - 0xD800) * 0x400 + (next - 0xDC00)) :: ·)
      else none
    else if 0xDC00 ≤ unit ∧ unit ≤ 0xDFFF then none
    else (characters? (next :: rest)).map (Char.ofNat unit :: ·)

/-- A string behind its opening quote. -/
def scanString? (cs : List Char) : Option (Option String × List Char) :=
  (scanUnits? cs).map fun (units, tail) => ((characters? units).map String.ofList, tail)

/-! ## Values -/

/-- The text behind a given word. -/
def scanWord? (word : String) (cs : List Char) : Option (List Char) :=
  if word.toList.isPrefixOf cs then some (cs.drop word.toList.length) else none

/-- The text behind a comma, or behind a closing character with the flag set. -/
def scanNext? (close : Char) (cs : List Char) : Option (Bool × List Char) :=
  match skip cs with
  | c :: rest =>
    if c = ',' then some (false, rest) else if c = close then some (true, rest) else none
  | [] => none

/-- The opening brace. -/
def openBrace : Char := '\x7b'

/-- The closing brace. -/
def closeBrace : Char := '\x7d'

/-- The string and the colon of an object's member. -/
def scanLabel? (cs : List Char) : Option (Option String × List Char) :=
  match skip cs with
  | '"' :: rest => do
    let (label, rest) ← scanString? rest
    match skip rest with
    | ':' :: rest => pure (label, rest)
    | _ => none
  | _ => none

mutual

/-- A value behind blanks. Every value takes a character of the text at least, so that the length of
the text is fuel enough. -/
def scanValue? : Nat → List Char → Option (Json × List Char)
  | 0, _ => none
  | fuel + 1, cs =>
    match skip cs with
    | [] => none
    | c :: rest =>
      if c = '"' then (scanString? rest).map fun (text, tail) => (.string text, tail)
      else if c = '[' then
        match skip rest with
        | ']' :: tail => some (.array [], tail)
        | _ => (scanElements? fuel rest).map fun (elements, tail) => (.array elements, tail)
      else if c = openBrace then
        if (skip rest).head? = some closeBrace then some (.object [], (skip rest).drop 1)
        else (scanMembers? fuel rest).map fun (members, tail) => (.object members, tail)
      else if c = 'n' then (scanWord? "null" (c :: rest)).map fun tail => (.null, tail)
      else if c = 't' then (scanWord? "true" (c :: rest)).map fun tail => (.bool true, tail)
      else if c = 'f' then (scanWord? "false" (c :: rest)).map fun tail => (.bool false, tail)
      else (scanNumber? (c :: rest)).map fun (numeral, tail) => (.number numeral, tail)

/-- The elements of an array from one element on. -/
def scanElements? : Nat → List Char → Option (List Json × List Char)
  | 0, _ => none
  | fuel + 1, cs => do
    let (element, cs) ← scanValue? fuel cs
    let (done, cs) ← scanNext? ']' cs
    if done then pure ([element], cs)
    else
      let (elements, cs) ← scanElements? fuel cs
      pure (element :: elements, cs)

/-- The members of an object from one member on. -/
def scanMembers? : Nat → List Char → Option (List (Option String × Json) × List Char)
  | 0, _ => none
  | fuel + 1, cs => do
    let (label, cs) ← scanLabel? cs
    let (value, cs) ← scanValue? fuel cs
    let (done, cs) ← scanNext? closeBrace cs
    if done then pure ([(label, value)], cs)
    else
      let (members, cs) ← scanMembers? fuel cs
      pure ((label, value) :: members, cs)

end

/-- The value that a text holds. -/
def read? (cs : List Char) : Option Json :=
  match scanValue? (cs.length + 1) cs with
  | some (value, rest) => if skip rest = [] then some value else none
  | none => none

end Json

end BracketFilter
