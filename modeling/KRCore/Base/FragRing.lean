-- SUMMARY: A ring of bytes whose memory is not contiguous: the windows a writer works in, and the flat memory that the ring can be taken for.
import Mathlib.Data.Nat.ModEq
import KRCore.Base.Memory

/-!
# Rings in fragments

The positions of a ring lie at addresses that need not be consecutive: at the end of
a fragment, and at the end of the ring, the next position is somewhere else. A writer works
in a window, a range of addresses that holds consecutive positions. What it writes there
is what it would have written to a flat memory that starts at any given position.
-/

namespace FragRing

/-- A ring of `size` bytes; the byte at position `i` has the address `loc i`. -/
structure Frags where
  size : Nat
  loc : Nat → Nat
  size_pos : 0 < size
  inj : ∀ i < size, ∀ j < size, loc i = loc j → i = j

namespace Frags

variable {r : Frags} {mem v : Mem} {x o n seg edge a : Nat} {bs : List UInt8}

/-- The address of position `i`, counted around the ring. -/
def addr (r : Frags) (i : Nat) : Nat := r.loc (i % r.size)

/-- Seen from position `x` on, the ring holds what `v` holds from `0` on. -/
def Shows (r : Frags) (mem : Mem) (x : Nat) (v : Mem) : Prop :=
  ∀ i < r.size, mem (r.addr (x + i)) = v i

/-- The addresses from `seg` to `edge` hold the positions from `x` on. -/
structure Window (r : Frags) (seg edge x : Nat) : Prop where
  le : seg ≤ edge
  addr_eq : ∀ j < edge - seg, r.addr (x + j) = seg + j

/-- An address that is none of the ring's. -/
def Outside (r : Frags) (a : Nat) : Prop := ∀ i < r.size, a ≠ r.loc i

theorem addr_congr {y : Nat} (h : x % r.size = y % r.size) : r.addr x = r.addr y := by
  rw [addr, addr, h]

theorem addr_inj {i j : Nat} (hi : i < r.size) (hj : j < r.size)
    (h : r.addr (x + i) = r.addr (x + j)) : i = j := by
  have hmod : Nat.ModEq r.size (x + i) (x + j) :=
    r.inj _ (Nat.mod_lt _ r.size_pos) _ (Nat.mod_lt _ r.size_pos) h
  exact Nat.ModEq.eq_of_lt_of_lt (Nat.ModEq.add_left_cancel' x hmod) hi hj

theorem Shows.congr {w : Mem} (h : r.Shows mem x v) (hvw : ∀ i < r.size, v i = w i) :
    r.Shows mem x w := fun i hi => (h i hi).trans (hvw i hi)

/-- A ring shows itself. -/
theorem shows_self (r : Frags) (mem : Mem) (x : Nat) :
    r.Shows mem x fun i => mem (r.addr (x + i)) := fun _ _ => rfl

theorem Window.advance (h : r.Window seg edge x) (hn : n ≤ edge - seg) :
    r.Window (seg + n) edge (x + n) where
  le := by
    have := h.le
    omega
  addr_eq j hj := by
    have := h.addr_eq (n + j) (by omega)
    rwa [← Nat.add_assoc, ← Nat.add_assoc] at this

/-- Positions are counted around the ring. -/
theorem Window.congr {y : Nat} (h : r.Window seg edge x) (hxy : x % r.size = y % r.size) :
    r.Window seg edge y where
  le := h.le
  addr_eq j hj := by
    rw [← h.addr_eq j hj]
    exact addr_congr (Nat.ModEq.add_right j hxy.symm)

theorem Window.seg_eq (h : r.Window seg edge x) (hlt : seg < edge) : r.addr x = seg :=
  h.addr_eq 0 (by omega)

/-- Writing in a window is writing at its position. -/
theorem Shows.write (hv : r.Shows mem x v) (hw : r.Window seg edge (x + o))
    (hroom : bs.length ≤ edge - seg) (hsize : o + bs.length ≤ r.size) :
    r.Shows (mem.write seg bs) x (v.write o bs) := by
  intro i hi
  by_cases hin : o ≤ i ∧ i < o + bs.length
  · obtain ⟨j, rfl⟩ := Nat.exists_eq_add_of_le hin.1
    have hj : j < bs.length := by omega
    rw [← Nat.add_assoc, hw.addr_eq j (by omega), Mem.write_add _ _ hj, Mem.write_add _ _ hj]
  · have haway : r.addr (x + i) < seg ∨ seg + bs.length ≤ r.addr (x + i) := by
      by_contra hcon
      obtain ⟨j, hj⟩ := Nat.exists_eq_add_of_le (show seg ≤ r.addr (x + i) by omega)
      have hpos := hw.addr_eq j (by omega)
      rw [← hj, Nat.add_assoc] at hpos
      have := r.addr_inj (by omega) hi hpos
      omega
    rw [Mem.write_of_outside haway, Mem.write_of_outside (by omega), hv i hi]

/-- Nothing else is written. -/
theorem Window.write_outside (hw : r.Window seg edge x) (hroom : bs.length ≤ edge - seg)
    (ha : r.Outside a) : mem.write seg bs a = mem a := by
  refine Mem.write_of_outside ?_
  by_contra hcon
  obtain ⟨j, hj⟩ := Nat.exists_eq_add_of_le (show seg ≤ a by omega)
  have hpos := hw.addr_eq j (by omega)
  exact ha _ (Nat.mod_lt _ r.size_pos) (hj.trans hpos.symm)

end Frags

end FragRing
