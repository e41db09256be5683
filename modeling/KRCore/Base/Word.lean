-- SUMMARY: Machine words as natural numbers: arithmetic that fails on overflow.
import Mathlib.Algebra.Group.Nat.Defs
import Mathlib.Data.Nat.Basic

/-!
# Machine words

Unsigned machine words are natural numbers below `2 ^ w`. Arithmetic with
overflow checks is partial: `none` is the panic.
-/

namespace Word

/-- Addition of `w`-bit words that panics on overflow. -/
def checkedAdd (w a b : Nat) : Option Nat :=
  if a + b < 2 ^ w then some (a + b) else none

/-- Subtraction of words that panics when the result would be negative. -/
def checkedSub (a b : Nat) : Option Nat :=
  if b ≤ a then some (a - b) else none

/-- Multiplication of `w`-bit words that panics on overflow. -/
def checkedMul (w a b : Nat) : Option Nat :=
  if a * b < 2 ^ w then some (a * b) else none

theorem checkedAdd_eq_some {w a b c : Nat} :
    checkedAdd w a b = some c ↔ a + b < 2 ^ w ∧ a + b = c := by
  unfold checkedAdd
  split
  · rename_i h; simp [h]
  · rename_i h; simp [h]

theorem checkedMul_eq_some {w a b c : Nat} :
    checkedMul w a b = some c ↔ a * b < 2 ^ w ∧ a * b = c := by
  unfold checkedMul
  split
  · rename_i h; simp [h]
  · rename_i h; simp [h]

theorem checkedSub_eq_some {a b c : Nat} : checkedSub a b = some c ↔ b ≤ a ∧ a - b = c := by
  unfold checkedSub
  split
  · rename_i h; simp [h]
  · rename_i h; simp [h]

end Word
