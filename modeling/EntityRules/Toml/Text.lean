import EntityRules.Hexadecimal

/-!
# `EntityRules.Toml.Text`: strings and keys

Strings come in four forms: between one or three quotation marks, with escapes,
and between one or three apostrophes, without. A form with three marks may hold
line ends, and one at its very beginning does not count. Control characters are
refused in all of them, the tab aside. A key is a sequence of words or strings
of the one-line forms, with dots between them.
-/

set_option autoImplicit false

namespace EntityRules

namespace Toml

/-- Blanks within a line. -/
def isBlank (c : Char) : Bool := c == ' ' || c == '\t'

/-- Leaves out blanks. -/
def skipBlanks (chars : List Char) : List Char := chars.dropWhile isBlank

/-- What may stand in comments and strings: no control character but the tab. -/
def isPrintable (c : Char) : Bool := c == '\t' || (0x20 ≤ c.toNat && c.toNat != 0x7F)

/-! ### Escapes -/

/-- The character with a number in base sixteen; surrogates are no characters. -/
def numbered? (digits : List Char) : Option Char := do
  let n ← Hexadecimal.value? digits
  if n < 0xD800 ∨ (0xE000 ≤ n ∧ n < 0x110000) then some (Char.ofNat n) else none

/-- The character that a letter after a backslash stands for. -/
def unescape? : Char → Option Char
  | 'b' => some '\x08'
  | 't' => some '\t'
  | 'n' => some '\n'
  | 'f' => some '\x0c'
  | 'r' => some '\r'
  | '"' => some '"'
  | '\\' => some '\\'
  | _ => none

/-- Reads an escape after its backslash. -/
def readEscape? : List Char → Option (Char × List Char)
  | 'u' :: a :: b :: c :: d :: rest => (numbered? [a, b, c, d]).map fun ch => (ch, rest)
  | 'U' :: a :: b :: c :: d :: e :: f :: g :: h :: rest =>
    (numbered? [a, b, c, d, e, f, g, h]).map fun ch => (ch, rest)
  | c :: rest => (unescape? c).map fun ch => (ch, rest)
  | [] => none

/-- Skips blanks and line ends. -/
def skipWhite : List Char → List Char
  | '\r' :: '\n' :: rest => skipWhite rest
  | c :: rest => if isBlank c || c == '\n' then skipWhite rest else c :: rest
  | [] => []

/-- Skips a line end that a backslash hides, with the blanks before it and every
blank and line end after it. -/
def skipHidden? (chars : List Char) : Option (List Char) :=
  match skipBlanks chars with
  | '\n' :: rest => some (skipWhite rest)
  | '\r' :: '\n' :: rest => some (skipWhite rest)
  | _ => none

/-! ### Strings -/

/-- Reads a string of one line up to its closing quotation mark. The fuel bounds
the number of characters; `done` holds those of the string, last one first. -/
def readBasic? : Nat → List Char → List Char → Option (String × List Char)
  | 0, _, _ => none
  | fuel + 1, done, chars =>
    match chars with
    | '"' :: rest => some (String.ofList done.reverse, rest)
    | '\\' :: rest => do
      let (c, rest) ← readEscape? rest
      readBasic? fuel (c :: done) rest
    | c :: rest => if isPrintable c then readBasic? fuel (c :: done) rest else none
    | [] => none

/-- Reads a string of several lines up to its three closing quotation marks, of
which the last three of at most five in a row are meant. -/
def readLongBasic? : Nat → List Char → List Char → Option (String × List Char)
  | 0, _, _ => none
  | fuel + 1, done, chars =>
    match chars with
    | '"' :: '"' :: '"' :: '"' :: '"' :: rest =>
      some (String.ofList ('"' :: '"' :: done).reverse, rest)
    | '"' :: '"' :: '"' :: '"' :: rest => some (String.ofList ('"' :: done).reverse, rest)
    | '"' :: '"' :: '"' :: rest => some (String.ofList done.reverse, rest)
    | '\\' :: rest =>
      match skipHidden? rest with
      | some rest => readLongBasic? fuel done rest
      | none => do
        let (c, rest) ← readEscape? rest
        readLongBasic? fuel (c :: done) rest
    | '\n' :: rest => readLongBasic? fuel ('\n' :: done) rest
    | '\r' :: '\n' :: rest => readLongBasic? fuel ('\n' :: done) rest
    | c :: rest => if isPrintable c then readLongBasic? fuel (c :: done) rest else none
    | [] => none

/-- Reads a string without escapes up to its closing apostrophe. -/
def readLiteral? (done : List Char) : List Char → Option (String × List Char)
  | '\'' :: rest => some (String.ofList done.reverse, rest)
  | c :: rest => if isPrintable c then readLiteral? (c :: done) rest else none
  | [] => none

/-- Reads a string of several lines without escapes up to its three closing
apostrophes, of which the last three of at most five in a row are meant. -/
def readLongLiteral? (done : List Char) : List Char → Option (String × List Char)
  | '\'' :: '\'' :: '\'' :: '\'' :: '\'' :: rest =>
    some (String.ofList ('\'' :: '\'' :: done).reverse, rest)
  | '\'' :: '\'' :: '\'' :: '\'' :: rest => some (String.ofList ('\'' :: done).reverse, rest)
  | '\'' :: '\'' :: '\'' :: rest => some (String.ofList done.reverse, rest)
  | '\n' :: rest => readLongLiteral? ('\n' :: done) rest
  | '\r' :: '\n' :: rest => readLongLiteral? ('\n' :: done) rest
  | c :: rest => if isPrintable c then readLongLiteral? (c :: done) rest else none
  | [] => none

/-- Skips one line end. -/
def skipLineEnd : List Char → List Char
  | '\n' :: rest => rest
  | '\r' :: '\n' :: rest => rest
  | rest => rest

/-- Reads a string of any form. -/
def readString? (chars : List Char) : Option (String × List Char) :=
  match chars with
  | '"' :: '"' :: '"' :: rest => readLongBasic? (rest.length + 1) [] (skipLineEnd rest)
  | '"' :: rest => readBasic? (rest.length + 1) [] rest
  | '\'' :: '\'' :: '\'' :: rest => readLongLiteral? [] (skipLineEnd rest)
  | '\'' :: rest => readLiteral? [] rest
  | _ => none

/-! ### Keys -/

/-- The greatest number of parts of a key, and of arrays and inline tables in one
another. -/
def depthLimit : Nat := 79

/-- What a word of a key consists of. -/
def isWordChar (c : Char) : Bool := c.isAlphanum || c == '-' || c == '_'

/-- Reads one part of a key. -/
def readWord? (chars : List Char) : Option (String × List Char) :=
  match chars with
  | '"' :: rest => readBasic? (rest.length + 1) [] rest
  | '\'' :: rest => readLiteral? [] rest
  | _ =>
    match chars.takeWhile isWordChar with
    | [] => none
    | word => some (String.ofList word, chars.dropWhile isWordChar)

/-- Reads a key of at most so many parts, with the blanks around them. -/
def readKeyParts? : Nat → List Char → Option (List String × List Char)
  | 0, _ => none
  | room + 1, chars => do
    let (word, rest) ← readWord? (skipBlanks chars)
    match skipBlanks rest with
    | '.' :: rest =>
      let (words, rest) ← readKeyParts? room rest
      return (word :: words, rest)
    | rest => return ([word], rest)

/-- Reads a key. -/
def readKey? (chars : List Char) : Option (List String × List Char) :=
  readKeyParts? depthLimit chars

end Toml

end EntityRules
