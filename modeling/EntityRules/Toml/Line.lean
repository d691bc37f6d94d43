import EntityRules.Toml.Scalar
import EntityRules.Toml.Text

/-!
# `EntityRules.Toml.Line`: values and lines

A document is a sequence of lines: the header of a table, the header of one of
several tables of one name, or a key and its value. Empty lines and comments say
nothing. A value may go over several lines, an array between any of its parts
and a string of several lines; an inline table may not.
-/

set_option autoImplicit false

namespace EntityRules

namespace Toml

/-- A line that says something. -/
inductive Line
  | table (key : List String)
  | element (key : List String)
  | entry (key : List String) (value : Toml)

/-! ### The space between things -/

/-- Skips a comment, if there is one, up to the end of its line. -/
def skipComment : List Char → List Char
  | '#' :: rest => rest.dropWhile isPrintable
  | rest => rest

/-- Reads the end of a line: blanks, a comment, and a line end or the end of the
document. -/
def readLineEnd? (chars : List Char) : Option (List Char) :=
  match skipComment (skipBlanks chars) with
  | [] => some []
  | '\n' :: rest => some rest
  | '\r' :: '\n' :: rest => some rest
  | _ => none

/-- Skips blanks, comments and line ends between the parts of an array. The fuel
bounds the number of lines. -/
def skipSpace : Nat → List Char → List Char
  | 0, chars => chars
  | fuel + 1, chars =>
    match skipComment (skipBlanks chars) with
    | '\n' :: rest => skipSpace fuel rest
    | '\r' :: '\n' :: rest => skipSpace fuel rest
    | rest => rest

/-- The key of an entry and the value of it, in a table. -/
def bindEntry? (key : List String) (value : Toml) (members : Members) : Option Members := do
  let last ← key.getLast?
  bindKey? last value key.dropLast members

/-! ### Values -/

mutual

/-- Reads a value; `room` bounds how deep arrays and inline tables nest, and the
fuel the number of characters. -/
def readValue? (room : Nat) : Nat → List Char → Option (Toml × List Char)
  | 0, _ => none
  | fuel + 1, chars =>
    match chars with
    | '[' :: rest =>
      if room = 0 then none
      else
        match skipSpace rest.length rest with
        | ']' :: rest => some (array [], rest)
        | rest => readItems? (room - 1) fuel [] rest
    | '\x7b' :: rest =>
      if room = 0 then none
      else
        match skipBlanks rest with
        | '\x7d' :: rest => some (inline [], rest)
        | rest => readMembers? (room - 1) fuel [] rest
    | 't' :: 'r' :: 'u' :: 'e' :: rest => some (boolean true, rest)
    | 'f' :: 'a' :: 'l' :: 's' :: 'e' :: rest => some (boolean false, rest)
    | '"' :: rest => (readString? ('"' :: rest)).map fun (s, rest) => (text s, rest)
    | '\'' :: rest => (readString? ('\'' :: rest)).map fun (s, rest) => (text s, rest)
    | rest => readNumeric? rest

/-- Reads the items of an array and the closing bracket; `done` holds those read
so far, last one first. -/
def readItems? (room : Nat) : Nat → List Toml → List Char → Option (Toml × List Char)
  | 0, _, _ => none
  | fuel + 1, done, chars => do
    let (v, rest) ← readValue? room fuel chars
    match skipSpace rest.length rest with
    | ',' :: rest =>
      match skipSpace rest.length rest with
      | ']' :: rest => some (array (v :: done).reverse, rest)
      | rest => readItems? room fuel (v :: done) rest
    | ']' :: rest => some (array (v :: done).reverse, rest)
    | _ => none

/-- Reads the members of an inline table and the closing brace onto those read
so far. -/
def readMembers? (room : Nat) : Nat → Members → List Char → Option (Toml × List Char)
  | 0, _, _ => none
  | fuel + 1, done, chars => do
    let (key, rest) ← readKey? chars
    match rest with
    | '=' :: rest =>
      let (v, rest) ← readValue? room fuel (skipBlanks rest)
      let done ← bindEntry? key v done
      match skipBlanks rest with
      | ',' :: rest => readMembers? room fuel done rest
      | '\x7d' :: rest => some (inline done, rest)
      | _ => none
    | _ => none

end

/-! ### Lines -/

/-- Reads a line that is no header: a key and its value. -/
def readEntry? (chars : List Char) : Option (Line × List Char) := do
  let (key, rest) ← readKey? chars
  match rest with
  | '=' :: rest =>
    let (value, rest) ← readValue? depthLimit (rest.length + 1) (skipBlanks rest)
    return (.entry key value, ← readLineEnd? rest)
  | _ => none

/-- Reads a header after its opening bracket. -/
def readHeader? : List Char → Option (Line × List Char)
  | '[' :: rest => do
    let (key, rest) ← readKey? rest
    match rest with
    | ']' :: ']' :: rest => return (.element key, ← readLineEnd? rest)
    | _ => none
  | rest => do
    let (key, rest) ← readKey? rest
    match rest with
    | ']' :: rest => return (.table key, ← readLineEnd? rest)
    | _ => none

/-- Reads the lines of a document that say something. The fuel bounds the number
of lines. -/
def readLines? : Nat → List Char → Option (List Line)
  | 0, _ => none
  | fuel + 1, chars =>
    match skipBlanks chars with
    | [] => some []
    | '#' :: rest => do readLines? fuel (← readLineEnd? ('#' :: rest))
    | '\n' :: rest => readLines? fuel rest
    | '\r' :: '\n' :: rest => readLines? fuel rest
    | '[' :: rest => do
      let (line, rest) ← readHeader? rest
      return line :: (← readLines? fuel rest)
    | rest => do
      let (line, rest) ← readEntry? rest
      return line :: (← readLines? fuel rest)

end Toml

end EntityRules
