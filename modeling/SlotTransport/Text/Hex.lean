/-
Lowercase hexadecimal text of numbers and of byte strings.
-/
import SlotTransport.Bytes

namespace SlotTransport.Hex

/-- The digits of `n`, without leading zeros; `0` for zero. -/
def digits (n : Nat) : String :=
  String.ofList (Nat.toDigits 16 n)

/-- The digits of `n`, filled up with zeros on the left to at least `width`. -/
def padded (width n : Nat) : String :=
  let ds := Nat.toDigits 16 n
  String.ofList (List.replicate (width - ds.length) '0' ++ ds)

def ofBytes (bs : Bytes) : String :=
  String.ofList (bs.flatMap fun b => [Nat.digitChar (b.toNat / 16), Nat.digitChar (b.toNat % 16)])

/-- The value of one digit of either case. -/
def digitValue? (c : Char) : Option Nat :=
  if '0' ≤ c ∧ c ≤ '9' then some (c.toNat - '0'.toNat)
  else if 'a' ≤ c ∧ c ≤ 'f' then some (c.toNat - 'a'.toNat + 10)
  else if 'A' ≤ c ∧ c ≤ 'F' then some (c.toNat - 'A'.toNat + 10)
  else none

/-- Reads what `ofBytes` writes; nothing if a digit is missing or foreign. -/
def toBytes? (text : String) : Option Bytes :=
  go text.toList []
where
  go : List Char → Bytes → Option Bytes
    | [], acc => some acc.reverse
    | [_], _ => none
    | a :: b :: rest, acc => do
      let high ← digitValue? a
      let low ← digitValue? b
      go rest (UInt8.ofNat (16 * high + low) :: acc)

end SlotTransport.Hex
