/-
Reading TOML documents. A document is a sequence of lines, each of which opens a
table, gives a value to a key, or is blank; `read?` gives its table. The transport
leaves this to a library, for whose reading of version 1.0 of the format the modules
under `Toml` stand: which texts are documents, and which values they hold. Nothing is
proved of the grammar; that no table has a key twice is (`read?_keyed`).
-/
import SlotTransport.Toml.Quoted
import SlotTransport.Toml.Scalar
import SlotTransport.Toml.Tree

namespace SlotTransport.Toml

/-! ## Keys -/

/-- A character of an unquoted key. -/
def isKeyChar (c : Char) : Bool :=
  isDigit c || ('a' ≤ c && c ≤ 'z') || ('A' ≤ c && c ≤ 'Z') || c == '_' || c == '-'

/-- One part of a key, quoted or not. -/
def keyPart? (input : Input) : Option (String × Input) :=
  match input with
  | '"' :: _ => quotedLine? input
  | '\'' :: _ => quotedLine? input
  | _ =>
    let part := input.takeWhile isKeyChar
    if part.isEmpty then none else some (String.ofList part, input.dropWhile isKeyChar)

/-- The parts of a key, with dots between them, and the text after the key and
its blanks. -/
def key? : (fuel : Nat) → Input → Option (List String × Input)
  | 0, _ => none
  | fuel + 1, input => do
    let (part, rest) ← keyPart? (skipBlanks input)
    match skipBlanks rest with
    | '.' :: rest => do
      let (parts, rest) ← key? fuel rest
      some (part :: parts, rest)
    | rest => some ([part], rest)

/-- A key and the text after it. -/
def readKey? (input : Input) : Option (List String × Input) :=
  key? (input.length + 1) input

/-- The last part of a key and the path to it. -/
def splitKey? (parts : List String) : Option (List String × String) := do
  let last ← parts.getLast?
  some (parts.dropLast, last)

/-! ## Values -/

/-- How deep arrays and inline tables may be nested in one another. -/
def nestingLimit : Nat := 80

mutual

/-- A value of any form, with at most `depth` arrays and inline tables in one
another. -/
def value? : (fuel : Nat) → (depth : Nat) → Input → Option (Value × Input)
  | 0, _, _ => none
  | fuel + 1, depth, input =>
    match input, depth with
    | '"' :: _, _ => (quoted? input).map fun (text, rest) => (.string text, rest)
    | '\'' :: _, _ => (quoted? input).map fun (text, rest) => (.string text, rest)
    | '[' :: rest, depth + 1 => items? fuel depth (skipSpace rest) []
    | '{' :: rest, depth + 1 => members? fuel depth (skipSpace rest) []
    | _, _ =>
      let (text, rest) := scalarText input
      (scalar? text).map fun v => (v, rest)

/-- The items of an array up to its closing bracket; `acc` holds the items
read, last one first. -/
def items? : (fuel : Nat) → (depth : Nat) → Input → List Value → Option (Value × Input)
  | 0, _, _, _ => none
  | fuel + 1, depth, input, acc =>
    match input with
    | ']' :: rest => some (.array acc.reverse, rest)
    | _ =>
      match value? fuel depth input with
      | none => none
      | some (v, rest) =>
        match skipSpace rest with
        | ',' :: rest => items? fuel depth (skipSpace rest) (v :: acc)
        | ']' :: rest => some (.array (v :: acc).reverse, rest)
        | _ => none

/-- The members of an inline table up to its closing brace. -/
def members? : (fuel : Nat) → (depth : Nat) → Input → Entries → Option (Value × Input)
  | 0, _, _, _ => none
  | fuel + 1, depth, input, entries =>
    match input with
    | '}' :: rest => some (.table (closeEntries entries), rest)
    | _ =>
      match (readKey? input).bind fun (parts, rest) => (splitKey? parts).map (·, rest) with
      | some ((path, key), '=' :: rest) =>
        match value? fuel depth (skipBlanks rest) with
        | none => none
        | some (v, rest) =>
          match entries.assign? path key v true with
          | none => none
          | some entries =>
            match skipSpace rest with
            | ',' :: rest => members? fuel depth (skipSpace rest) entries
            | '}' :: rest => some (.table (closeEntries entries), rest)
            | _ => none
      | _ => none

end

/-- A value and the text after it. -/
def readValue? (input : Input) : Option (Value × Input) :=
  value? (2 * input.length + 2) nestingLimit input

/-! ## Lines -/

/-- A document read in part: its tables so far, and the path to the table that
is open. -/
structure Draft where
  root : Entries
  openPath : List String

/-- Reads a header in double brackets; `input` follows the brackets. -/
def nextTable? (draft : Draft) (input : Input) : Option (Draft × Input) := do
  let (parts, rest) ← readKey? input
  let (path, key) ← splitKey? parts
  let rest ← after? ']' rest
  let rest ← after? ']' rest
  let root ← draft.root.openNext? path key
  some (⟨root, parts⟩, rest)

/-- Reads a header in single brackets; `input` follows the bracket. -/
def oneTable? (draft : Draft) (input : Input) : Option (Draft × Input) := do
  let (parts, rest) ← readKey? input
  let (path, key) ← splitKey? parts
  let rest ← after? ']' rest
  let root ← draft.root.openTable? path key
  some (⟨root, parts⟩, rest)

/-- Reads a key with its value into the open table. -/
def assignment? (draft : Draft) (input : Input) : Option (Draft × Input) := do
  let (parts, rest) ← readKey? input
  let (path, key) ← splitKey? parts
  let rest ← after? '=' rest
  let (v, rest) ← readValue? (skipBlanks rest)
  let root ← draft.root.descend? draft.openPath fun entries => entries.assign? path key v true
  some ({ draft with root }, rest)

/-- Reads what stands on a line that is not blank. -/
def statement? (draft : Draft) (input : Input) : Option (Draft × Input) :=
  match input with
  | '[' :: '[' :: rest => nextTable? draft rest
  | '[' :: rest => oneTable? draft rest
  | _ => assignment? draft input

/-- Reads lines to the end of the text. -/
def lines? : (fuel : Nat) → Draft → Input → Option Draft
  | 0, _, _ => none
  | fuel + 1, draft, input =>
    match skipSpace input with
    | [] => some draft
    | input => do
      let (draft, rest) ← statement? draft input
      let rest ← endOfLine? rest
      lines? fuel draft rest

/-- Reads a document. A byte order mark at its start is passed over. -/
def read? (text : String) : Option Table := do
  let input := match text.toList with
    | '\ufeff' :: rest => rest
    | chars => chars
  let draft ← lines? (input.length + 1) ⟨[], []⟩ input
  some (closeEntries draft.root)

end SlotTransport.Toml
