/-
What stands between the tokens of a TOML document: blanks, ends of lines and
comments.
-/

namespace SlotTransport.Toml

/-- Text still to be read. -/
abbrev Input := List Char

def isBlank (c : Char) : Bool :=
  c == ' ' || c == '\t'

/-- A character that comments and quoted text may hold: any but the control
characters, of which the tab alone is admitted. -/
def isPlain (c : Char) : Bool :=
  c == '\t' || (' ' ≤ c && c != '\x7f')

def skipBlanks (input : Input) : Input :=
  input.dropWhile isBlank

/-- The text after the end of a line, if the text starts with one. -/
def newline? : Input → Option Input
  | '\n' :: rest => some rest
  | '\r' :: '\n' :: rest => some rest
  | _ => none

/-- The text after blanks and a comment, if there is one. -/
def skipComment (input : Input) : Input :=
  match skipBlanks input with
  | '#' :: rest => rest.dropWhile isPlain
  | rest => rest

/-- The text after the rest of a line, which may hold blanks and a comment
only; the line ends with the text or before the next line. -/
def endOfLine? (input : Input) : Option Input :=
  match skipComment input with
  | [] => some []
  | rest => newline? rest

/-- The text after any number of blanks, comments and ends of lines. -/
def skipLines : (fuel : Nat) → Input → Input
  | 0, input => input
  | fuel + 1, input =>
    let rest := skipComment input
    match newline? rest with
    | some next => skipLines fuel next
    | none => rest

/-- The text after all blanks, comments and ends of lines. -/
def skipSpace (input : Input) : Input :=
  skipLines (input.length + 1) input

end SlotTransport.Toml
