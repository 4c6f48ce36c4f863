/-
Arithmetic on 64-bit words. Where it is checked there is no answer if the true one does
not fit; elsewhere what does not fit is lost.
-/

namespace SlotTransport.Word

/-- The sum, if it fits into a word. -/
def add? (a b : UInt64) : Option UInt64 :=
  if a.toNat + b.toNat < UInt64.size then some (a + b) else none

/-- The product, if it fits into a word. -/
def mul? (a b : UInt64) : Option UInt64 :=
  if a.toNat * b.toNat < UInt64.size then some (a * b) else none

/-- What a word holds of a number. -/
def wrap (n : Nat) : Nat :=
  n % UInt64.size

theorem wrap_of_lt {n : Nat} (h : n < UInt64.size) : wrap n = n := by
  rw [wrap, Nat.mod_eq_of_lt h]

theorem wrap_le (n : Nat) : wrap n ≤ n := by
  rw [wrap]
  exact Nat.mod_le n _

theorem add?_eq_some_iff {a b c : UInt64} :
    add? a b = some c ↔ a.toNat + b.toNat = c.toNat := by
  have hc := c.toNat_lt
  have hsize : UInt64.size = 18446744073709551616 := rfl
  unfold add?
  split
  · simp only [Option.some.injEq, ← UInt64.toNat_inj, UInt64.toNat_add]
    omega
  · simp only [reduceCtorEq, false_iff]
    omega

theorem mul?_eq_some_iff {a b c : UInt64} :
    mul? a b = some c ↔ a.toNat * b.toNat = c.toNat := by
  have hc := c.toNat_lt
  have hsize : UInt64.size = 18446744073709551616 := rfl
  unfold mul?
  split
  · rename_i h
    simp only [Option.some.injEq, ← UInt64.toNat_inj, UInt64.toNat_mul, Nat.mod_eq_of_lt h]
  · simp only [reduceCtorEq, false_iff]
    omega

end SlotTransport.Word
