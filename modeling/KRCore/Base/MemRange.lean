-- SUMMARY: Pieces of memory as half-open ranges of addresses: when one lies in another, when two are apart, and tables of entries.
import Mathlib.Order.Interval.Set.Disjoint

/-!
# Ranges of addresses

A range is the set of the addresses of its bytes. An empty range lies in every other one
and is apart from every other one, wherever it begins.
-/

/-- The `len` addresses from `addr` on. -/
structure MemRange where
  addr : Nat
  len : Nat
deriving DecidableEq, Repr

namespace MemRange

variable {r s t : MemRange}

def bytes (r : MemRange) : Set Nat := Set.Ico r.addr (r.addr + r.len)

/-- All bytes of `r` are bytes of `s`. -/
def Inside (r s : MemRange) : Prop := r.bytes ⊆ s.bytes

/-- The ranges have no byte in common. -/
def Apart (r s : MemRange) : Prop := ∀ a ∈ r.bytes, a ∉ s.bytes

theorem inside_iff :
    r.Inside s ↔ r.len = 0 ∨ (s.addr ≤ r.addr ∧ r.addr + r.len ≤ s.addr + s.len) := by
  unfold Inside bytes
  by_cases hlen : r.len = 0
  · simp [hlen]
  · rw [Set.Ico_subset_Ico_iff (by omega)]
    simp [hlen]

theorem apart_iff :
    r.Apart s ↔ r.len = 0 ∨ s.len = 0 ∨ r.addr + r.len ≤ s.addr ∨ s.addr + s.len ≤ r.addr := by
  unfold Apart bytes
  rw [← Set.disjoint_left, Set.Ico_disjoint_Ico]
  omega

instance (r s : MemRange) : Decidable (r.Inside s) := decidable_of_iff _ inside_iff.symm

instance (r s : MemRange) : Decidable (r.Apart s) := decidable_of_iff _ apart_iff.symm

theorem Inside.apart (h : r.Inside s) (h' : s.Apart t) : r.Apart t := fun a ha => h' a (h ha)

/-! ## Tables -/

/-- Entry number `i` of a table of entries of `sz` bytes. -/
def entry (base sz i : Nat) : MemRange := { addr := base + i * sz, len := sz }

theorem entry_apart (base sz : Nat) {i j : Nat} (h : i ≠ j) :
    (entry base sz i).Apart (entry base sz j) := by
  rw [apart_iff]
  simp only [entry]
  rcases Nat.lt_or_gt_of_ne h with hlt | hlt
  · have := Nat.mul_le_mul_right sz (Nat.succ_le_of_lt hlt)
    rw [Nat.succ_mul] at this
    omega
  · have := Nat.mul_le_mul_right sz (Nat.succ_le_of_lt hlt)
    rw [Nat.succ_mul] at this
    omega

/-- A table that begins `off` bytes into a piece of memory lies in it if its end does. -/
theorem forall_entry_inside_iff {base off sz n size : Nat} :
    (∀ i < n, (entry (base + off) sz i).Inside { addr := base, len := size }) ↔
      n * sz = 0 ∨ off + n * sz ≤ size := by
  simp only [inside_iff, entry]
  constructor
  · intro h
    cases n with
    | zero => exact .inl (Nat.zero_mul sz)
    | succ n =>
      have hlast := h n (Nat.lt_succ_self n)
      rw [Nat.succ_mul]
      rcases hlast with hsz | ⟨-, hend⟩
      · exact .inl (by simp [hsz])
      · exact .inr (by omega)
  · intro h i hi
    have hle := Nat.mul_le_mul_right sz (Nat.succ_le_of_lt hi)
    rw [Nat.succ_mul] at hle
    omega

end MemRange
