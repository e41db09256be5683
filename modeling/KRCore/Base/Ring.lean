-- SUMMARY: Windows of consecutive positions on a ring, and the walk along a ring of next pointers that is cut at one place.
import Mathlib.Data.List.Basic
import Mathlib.Data.List.Nodup
import Mathlib.Data.Nat.ModEq

/-!
# Rings

Positions on a ring of size `N` are written as natural numbers and read modulo
`N`. `window N cur len` lists the `len` positions from `cur` on, and `follow`
walks next pointers until it meets a null pointer.
-/

namespace Ring

variable {N : Nat} [NeZero N]

/-- The ring position that the number `i` denotes. -/
def pos (N : Nat) [NeZero N] (i : Nat) : Fin N := Fin.ofNat N i

@[simp] theorem pos_val (i : Nat) : (pos N i).val = i % N := rfl

theorem pos_eq_iff {i j : Nat} : pos N i = pos N j ↔ i % N = j % N := by
  simp [Fin.ext_iff]

@[simp] theorem pos_mod (i : Nat) : pos N (i % N) = pos N i := by
  simp [pos_eq_iff]

theorem pos_mod_add (i j : Nat) : pos N (i % N + j) = pos N (i + j) := by
  simp [pos_eq_iff]

/-- Fewer than `N` steps apart, two positions differ. -/
theorem pos_add_inj (cur : Nat) {i j : Nat} (hi : i < N) (hj : j < N)
    (h : pos N (cur + i) = pos N (cur + j)) : i = j := by
  have hmod : Nat.ModEq N i j := Nat.ModEq.add_left_cancel' cur (pos_eq_iff.mp h)
  exact Nat.ModEq.eq_of_lt_of_lt hmod hi hj

/-! ## Windows -/

/-- The `len` positions from `cur` on. -/
def window (N : Nat) [NeZero N] (cur len : Nat) : List (Fin N) :=
  (List.range len).map fun j => pos N (cur + j)

@[simp] theorem window_zero (cur : Nat) : window N cur 0 = [] := rfl

@[simp] theorem window_length (cur len : Nat) : (window N cur len).length = len := by
  simp [window]

theorem window_add (cur a b : Nat) :
    window N cur (a + b) = window N cur a ++ window N (cur + a) b := by
  simp [window, List.range_add, Function.comp_def, Nat.add_assoc]

theorem window_succ (cur len : Nat) :
    window N cur (len + 1) = pos N cur :: window N (cur + 1) len := by
  rw [Nat.add_comm, window_add]
  rfl

theorem window_mod (cur len : Nat) : window N (cur % N) len = window N cur len := by
  simp [window, pos_mod_add]

theorem window_nodup {cur len : Nat} (h : len ≤ N) : (window N cur len).Nodup := by
  refine List.Nodup.map_on ?_ List.nodup_range
  intro i hi j hj heq
  exact pos_add_inj cur (by have := List.mem_range.mp hi; omega)
    (by have := List.mem_range.mp hj; omega) heq

/-! ## Next pointers -/

/-- The positions found from `p` on by following `next` until the null pointer. -/
def follow (next : Fin N → Option (Fin N)) : Nat → Option (Fin N) → List (Fin N)
  | 0, _ => []
  | _ + 1, none => []
  | fuel + 1, some i => i :: follow next fuel (next i)

omit [NeZero N] in
@[simp] theorem follow_none (next : Fin N → Option (Fin N)) (fuel : Nat) :
    follow next fuel none = [] := by
  cases fuel <;> rfl

/-- If the pointers run on for `d` steps and are cut after them, the walk finds
    exactly the window of `d + 1` positions. -/
theorem follow_eq_window {next : Fin N → Option (Fin N)} {cur d fuel : Nat}
    (hnext : ∀ j < d, next (pos N (cur + j)) = some (pos N (cur + j + 1)))
    (hcut : next (pos N (cur + d)) = none) (hfuel : d + 1 ≤ fuel) :
    follow next fuel (some (pos N cur)) = window N cur (d + 1) := by
  induction d generalizing cur fuel with
  | zero =>
    obtain ⟨fuel, rfl⟩ := Nat.exists_eq_add_of_le' hfuel
    have hcut' : next (pos N cur) = none := by simpa using hcut
    simp [follow, hcut', window]
  | succ d ih =>
    obtain ⟨fuel, rfl⟩ := Nat.exists_eq_add_of_le' hfuel
    have hfirst : next (pos N cur) = some (pos N (cur + 1)) := by
      simpa using hnext 0 (Nat.succ_pos d)
    have hrest : follow next (fuel + d + 1) (some (pos N (cur + 1))) =
        window N (cur + 1) (d + 1) := by
      refine ih (fun j hj => ?_) ?_ (by omega)
      · have := hnext (j + 1) (by omega)
        rwa [show cur + (j + 1) = cur + 1 + j by omega] at this
      · rwa [show cur + (d + 1) = cur + 1 + d by omega] at hcut
    change pos N cur :: follow next (fuel + d + 1) (next (pos N cur)) = _
    rw [window_succ, hfirst, hrest]

end Ring
