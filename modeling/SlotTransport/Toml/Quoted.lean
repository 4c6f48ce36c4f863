/-
Quoted text of a TOML document. Between double quotes a backslash starts an
escape, between single quotes it is a character like any other; three quotes of
either kind enclose text of several lines.
-/
import SlotTransport.Text.Hex
import SlotTransport.Toml.Blank

namespace SlotTransport.Toml

/-- The character of a number, if the number is one of a character. -/
def charOf? (code : Nat) : Option Char :=
  if code < 0xD800 ∨ (0xDFFF < code ∧ code < 0x110000) then some (Char.ofNat code) else none

/-- A character given by so many hexadecimal digits. -/
def hexEscape? (count : Nat) (input : Input) : Option (Char × Input) := do
  let digits := input.take count
  if digits.length < count then none
  else
    let values ← digits.mapM Hex.digitValue?
    let c ← charOf? (values.foldl (fun acc d => 16 * acc + d) 0)
    some (c, input.drop count)

/-- The character of an escape; `input` follows the backslash. -/
def escape? : Input → Option (Char × Input)
  | 'b' :: rest => some ('\x08', rest)
  | 't' :: rest => some ('\t', rest)
  | 'n' :: rest => some ('\n', rest)
  | 'f' :: rest => some ('\x0c', rest)
  | 'r' :: rest => some ('\r', rest)
  | 'e' :: rest => some ('\x1b', rest)
  | '"' :: rest => some ('"', rest)
  | '\\' :: rest => some ('\\', rest)
  | 'x' :: rest => hexEscape? 2 rest
  | 'u' :: rest => hexEscape? 4 rest
  | 'U' :: rest => hexEscape? 8 rest
  | _ => none

/-- Text of one line up to the closing `quote`; `acc` holds what was read,
last character first. -/
def lineText? (quote : Char) : (fuel : Nat) → Input → List Char → Option (String × Input)
  | 0, _, _ => none
  | _ + 1, [], _ => none
  | fuel + 1, c :: rest, acc =>
    if c = quote then some (String.ofList acc.reverse, rest)
    else if c = '\\' ∧ quote = '"' then
      match escape? rest with
      | some (e, rest) => lineText? quote fuel rest (e :: acc)
      | none => none
    else if isPlain c then lineText? quote fuel rest (c :: acc)
    else none

/-- The text after a backslash at the end of a line: blanks, the end of the
line, and all blanks and empty lines that follow. -/
def continuation? (input : Input) : Option Input := do
  let next ← newline? (skipBlanks input)
  some (go next.length next)
where
  go : Nat → Input → Input
    | 0, input => input
    | fuel + 1, input =>
      let rest := skipBlanks input
      match newline? rest with
      | some next => go fuel next
      | none => rest

/-- Text of several lines up to three closing quotes. One or two quotes more
right before them belong to the text. -/
def blockText? (quote : Char) : (fuel : Nat) → Input → List Char → Option (String × Input)
  | 0, _, _ => none
  | _ + 1, [], _ => none
  | fuel + 1, c :: rest, acc =>
    if c = quote then
      let quotes := (rest.takeWhile (· == quote)).length + 1
      if 3 ≤ quotes then
        let extra := min (quotes - 3) 2
        some (String.ofList (acc.reverse ++ List.replicate extra quote), rest.drop (extra + 2))
      else blockText? quote fuel rest (c :: acc)
    else if c = '\\' ∧ quote = '"' then
      match continuation? rest with
      | some rest => blockText? quote fuel rest acc
      | none =>
        match escape? rest with
        | some (e, rest) => blockText? quote fuel rest (e :: acc)
        | none => none
    else
      match newline? (c :: rest) with
      | some next => blockText? quote fuel next ('\n' :: acc)
      | none => if isPlain c then blockText? quote fuel rest (c :: acc) else none

/-- Quoted text of one line; `input` starts with the quote. -/
def quotedLine? : Input → Option (String × Input)
  | '"' :: rest => lineText? '"' (rest.length + 1) rest []
  | '\'' :: rest => lineText? '\'' (rest.length + 1) rest []
  | _ => none

/-- Quoted text of either form; `input` starts with the quotes. An end of line
right after three quotes is not part of the text. -/
def quoted? (input : Input) : Option (String × Input) :=
  match input with
  | '"' :: '"' :: '"' :: rest =>
    let rest := (newline? rest).getD rest
    blockText? '"' (rest.length + 1) rest []
  | '\'' :: '\'' :: '\'' :: rest =>
    let rest := (newline? rest).getD rest
    blockText? '\'' (rest.length + 1) rest []
  | _ => quotedLine? input

end SlotTransport.Toml
