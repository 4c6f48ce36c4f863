/-
Unquoted values of a TOML document: booleans, integers, floating-point numbers,
dates and times. Each is recognised from its whole text.
-/
import SlotTransport.Text.Hex
import SlotTransport.Toml.Blank
import SlotTransport.Toml.Value

namespace SlotTransport.Toml

def isDigit (c : Char) : Bool :=
  '0' ≤ c && c ≤ '9'

/-- The values of digits of a base. Underscores may stand between digits. -/
def digitValues? (base : Nat) : (text : List Char) → Option (List Nat)
  | [] => none
  | [c] => (digitIn? c).map fun d => [d]
  | c :: '_' :: rest => do
    let d ← digitIn? c
    let ds ← digitValues? base rest
    some (d :: ds)
  | c :: rest => do
    let d ← digitIn? c
    let ds ← digitValues? base rest
    some (d :: ds)
where
  digitIn? (c : Char) : Option Nat := do
    let d ← Hex.digitValue? c
    if d < base then some d else none

/-- The number that digits of a base spell. -/
def valueOf (base : Nat) (digits : List Nat) : Nat :=
  digits.foldl (fun acc d => base * acc + d) 0

/-- The digits of a decimal number, which has no leading zero. -/
def decimalDigits? (text : List Char) : Option (List Nat) := do
  let digits ← digitValues? 10 text
  if digits.head? = some 0 ∧ text.length ≠ 1 then none else some digits

/-- Splits a sign off; without one a number is positive. -/
def signed : List Char → Bool × List Char
  | '-' :: rest => (true, rest)
  | '+' :: rest => (false, rest)
  | text => (false, text)

/-- The least and the greatest integer that a reader hands on. -/
def integerRange : Int × Int :=
  (-0x80000000000000000000000000000000, 0xFFFFFFFFFFFFFFFFFFFFFFFFFFFFFFFF)

/-- An integer: decimal with or without a sign, or in base 16, 8 or 2 without
one. -/
def integer? (text : List Char) : Option Int := do
  let value ← match text with
    | '0' :: 'x' :: rest => (digitValues? 16 rest).map fun ds => Int.ofNat (valueOf 16 ds)
    | '0' :: 'o' :: rest => (digitValues? 8 rest).map fun ds => Int.ofNat (valueOf 8 ds)
    | '0' :: 'b' :: rest => (digitValues? 2 rest).map fun ds => Int.ofNat (valueOf 2 ds)
    | _ =>
      let (negative, rest) := signed text
      (decimalDigits? rest).map fun ds =>
        let n := Int.ofNat (valueOf 10 ds)
        if negative then -n else n
  if integerRange.1 ≤ value ∧ value ≤ integerRange.2 then some value else none

/-- Splits text at the first character that satisfies `p`, which is dropped. -/
def cutAt? (p : Char → Bool) (text : List Char) : Option (List Char × List Char) :=
  match text.dropWhile (fun c => !p c) with
  | [] => none
  | _ :: rest => some (text.takeWhile (fun c => !p c), rest)

def exponent? (text : List Char) : Option Int := do
  let (negative, rest) := signed text
  let digits ← digitValues? 10 rest
  let n := Int.ofNat (valueOf 10 digits)
  some (if negative then -n else n)

/-- The number nearest to `mantissa * 10 ^ exponent`, if it is finite. -/
def scaled? (mantissa : Nat) (exponent : Int) : Option Float :=
  let digits := (Nat.toDigits 10 mantissa).length
  let x :=
    if mantissa = 0 then 0
    else if exponent + digits < -400 then 0
    else if 400 < exponent + digits then 1 / 0
    else if exponent < 0 then Float.ofScientific mantissa true exponent.natAbs
    else Float.ofScientific mantissa false exponent.natAbs
  if x.isFinite then some x else none

/-- A floating-point number: a fraction, an exponent or both, or one of the
words for infinity and for what is not a number. -/
def float? (text : List Char) : Option Float :=
  let (negative, rest) := signed text
  let magnitude : Option Float :=
    if rest = "inf".toList then some (1 / 0)
    else if rest = "nan".toList then some (0 / 0)
    else do
      let (mantissa, exponent, hasExponent) ←
        match cutAt? (fun c => c == 'e' || c == 'E') rest with
        | some (mantissa, exponent) => do
          let e ← exponent? exponent
          some (mantissa, e, true)
        | none => some (rest, 0, false)
      match cutAt? (fun c => c == '.') mantissa with
      | some (whole, fraction) => do
        let ws ← decimalDigits? whole
        let fs ← digitValues? 10 fraction
        scaled? (valueOf 10 (ws ++ fs)) (exponent - fs.length)
      | none =>
        if hasExponent then do
          let ws ← decimalDigits? mantissa
          scaled? (valueOf 10 ws) exponent
        else none
  magnitude.map fun x => if negative then -x else x

/-! ## Dates and times -/

/-- The number that exactly `count` digits at the front of the text spell. -/
def fixedDigits? (count : Nat) (text : List Char) : Option (Nat × List Char) :=
  let digits := text.take count
  if digits.length = count ∧ digits.all isDigit then
    some (valueOf 10 (digits.map fun c => c.toNat - '0'.toNat), text.drop count)
  else none

/-- The text after a certain character. -/
def after? (c : Char) : List Char → Option (List Char)
  | d :: rest => if d = c then some rest else none
  | [] => none

def daysIn (year month : Nat) : Nat :=
  if month = 2 then
    if year % 4 = 0 ∧ (year % 100 ≠ 0 ∨ year % 400 = 0) then 29 else 28
  else if month = 4 ∨ month = 6 ∨ month = 9 ∨ month = 11 then 30
  else 31

/-- The text after a date of the calendar. -/
def date? (text : List Char) : Option (List Char) := do
  let (year, rest) ← fixedDigits? 4 text
  let rest ← after? '-' rest
  let (month, rest) ← fixedDigits? 2 rest
  let rest ← after? '-' rest
  let (day, rest) ← fixedDigits? 2 rest
  if 1 ≤ month ∧ month ≤ 12 ∧ 1 ≤ day ∧ day ≤ daysIn year month then some rest else none

/-- The text after an hour and a minute. -/
def hourMinute? (text : List Char) : Option (List Char) := do
  let (hour, rest) ← fixedDigits? 2 text
  let rest ← after? ':' rest
  let (minute, rest) ← fixedDigits? 2 rest
  if hour ≤ 23 ∧ minute ≤ 59 then some rest else none

/-- The text after a time of day. Seconds may be left out; the second may be a
leap second, and have a fraction. -/
def time? (text : List Char) : Option (List Char) := do
  let rest ← hourMinute? text
  match rest with
  | ':' :: rest => do
    let (second, rest) ← fixedDigits? 2 rest
    if 60 < second then none
    else
      match rest with
      | '.' :: rest =>
        if (rest.takeWhile isDigit).isEmpty then none else some (rest.dropWhile isDigit)
      | _ => some rest
  | _ => some rest

/-- Whether the text is nothing or an offset from universal time. -/
def isOffset : List Char → Bool
  | [] => true
  | ['Z'] => true
  | ['z'] => true
  | '+' :: rest => hourMinute? rest == some []
  | '-' :: rest => hourMinute? rest == some []
  | _ => false

/-- Whether the text is a date, a time, or both. -/
def isDatetime (text : List Char) : Bool :=
  match date? text with
  | some [] => true
  | some (c :: rest) =>
    (c == 'T' || c == 't' || c == ' ') && (time? rest).any isOffset
  | none => time? text == some []

/-! ## Scalars -/

/-- A character of an unquoted value. -/
def isScalarChar (c : Char) : Bool :=
  isDigit c || ('a' ≤ c && c ≤ 'z') || ('A' ≤ c && c ≤ 'Z') ||
    c == '_' || c == '+' || c == '-' || c == '.' || c == ':'

/-- The value that the whole text stands for. -/
def scalar? (text : List Char) : Option Value :=
  if text = "true".toList then some (.boolean true)
  else if text = "false".toList then some (.boolean false)
  else if isDatetime text then some .datetime
  else
    match integer? text with
    | some n => some (.integer n)
    | none => (float? text).map .float

/-- Splits the text of an unquoted value off. A blank may stand between a date
and a time. -/
def scalarText (input : Input) : List Char × Input :=
  let text := input.takeWhile isScalarChar
  let rest := input.dropWhile isScalarChar
  match date? text, rest with
  | some [], ' ' :: c :: _ =>
    if isDigit c then
      let tail := rest.drop 1
      (text ++ ' ' :: tail.takeWhile isScalarChar, tail.dropWhile isScalarChar)
    else (text, rest)
  | _, _ => (text, rest)

end SlotTransport.Toml
