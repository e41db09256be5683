-- SUMMARY: Rings whose cells carry an owner bit that flips from lap to lap: the queue a reader finds on one, and its compaction in place.
import Mathlib.Data.List.Basic
import Mathlib.Logic.Function.Basic
import KRCore.Base.Ring

/-!
# Rings with an owner bit

Writer and reader of a ring of `n` cells do not share a counter. A cell carries an
owner bit that the writer flips from lap to lap, and the reader takes a cell as
written if the bit is that of its own lap. `Holds` says that the reader finds a
queue; writing, reading and removing entries in place keep it.
-/

namespace OwnerRing

variable {α : Type*}

/-- An owner bit, and what was written last, if anything. -/
structure Cell (α : Type*) where
  owner : Bool
  entry : Option α

/-- The owner bit of position `i`. -/
def lap (n i : Nat) : Bool := decide (i / n % 2 = 1)

/-- What the reader finds at position `i`. -/
def get (n : Nat) (cells : Nat → Cell α) (i : Nat) : Option α :=
  if (cells (i % n)).owner = lap n i then (cells (i % n)).entry else none

/-- The reader finds `l` from position `p` on, and nothing behind it. -/
structure Holds (n : Nat) (cells : Nat → Cell α) (p : Nat) (l : List α) : Prop where
  length_le : l.length ≤ n
  get_eq : ∀ j < n, get n cells (p + j) = l[j]?

/-- Write an entry at position `i`. -/
def put (n : Nat) (cells : Nat → Cell α) (i : Nat) (a : α) : Nat → Cell α :=
  Function.update cells (i % n) ⟨lap n i, some a⟩

/-- Copy an entry to another cell, which keeps its owner bit. -/
def move (n : Nat) (cells : Nat → Cell α) (src dst : Nat) : Nat → Cell α :=
  Function.update cells (dst % n) { cells (dst % n) with entry := (cells (src % n)).entry }

variable {n p i j : Nat} {cells : Nat → Cell α} {l : List α}

/-! ## Cells and laps -/

theorem lap_add (hn : 0 < n) (i : Nat) : lap n (i + n) = !lap n i := by
  rw [lap, lap, Nat.add_div_right i hn]
  rcases Nat.mod_two_eq_zero_or_one (i / n) with h | h <;> simp [Nat.add_mod, h]

theorem get_of_owner (h : (cells (i % n)).owner = lap n i) :
    get n cells i = (cells (i % n)).entry := if_pos h

/-- In the next lap, the reader does not take what it has found in this one. -/
theorem get_add_eq_none (hn : 0 < n) (h : (cells (i % n)).owner = lap n i) :
    get n cells (i + n) = none := by
  have hne : (cells (i % n)).owner ≠ lap n (i + n) := by
    rw [h, lap_add hn]
    cases lap n i <;> decide
  rw [get, Nat.add_mod_right, if_neg hne]

theorem owner_of_get {a : α} (h : get n cells i = some a) :
    (cells (i % n)).owner = lap n i := by
  by_contra hne
  rw [get, if_neg hne] at h
  cases h

theorem get_congr {cells' : Nat → Cell α} (h : cells' (i % n) = cells (i % n)) :
    get n cells' i = get n cells i := by
  rw [get, get, h]

/-- Positions less than a lap apart stand for different cells. -/
theorem mod_ne (hi : i < n) (hj : j < n) (hne : i ≠ j) : (p + i) % n ≠ (p + j) % n := by
  have : NeZero n := ⟨Nat.pos_iff_ne_zero.mp (Nat.zero_lt_of_lt hi)⟩
  exact fun h => hne (Ring.pos_add_inj p hi hj (Ring.pos_eq_iff.mpr h))

theorem get_put_self (a : α) : get n (put n cells i a) i = some a := by
  rw [get, put, Function.update_self, if_pos rfl]

theorem get_put_of_ne (a : α) (hi : i < n) (hj : j < n) (hne : j ≠ i) :
    get n (put n cells (p + i) a) (p + j) = get n cells (p + j) :=
  get_congr (Function.update_of_ne (mod_ne hj hi hne) _ _)

/-- Behind the entry that is written, and in front of it, nothing changes. -/
theorem get_put_concat (a : α) (hroom : l.length < n) (hj : j < n)
    (h : get n cells (p + j) = l[j]?) :
    get n (put n cells (p + l.length) a) (p + j) = (l ++ [a])[j]? := by
  by_cases hlast : j = l.length
  · rw [hlast, get_put_self, List.getElem?_concat_length]
  · rw [get_put_of_ne a hroom hj hlast, h]
    rcases Nat.lt_or_gt_of_ne hlast with hlt | hgt
    · rw [List.getElem?_append_left hlt]
    · rw [List.getElem?_eq_none (Nat.le_of_lt hgt), List.getElem?_eq_none]
      rw [List.length_append]
      exact hgt

theorem owner_move (src dst c : Nat) : (move n cells src dst c).owner = (cells c).owner := by
  by_cases h : c = dst % n
  · rw [move, h, Function.update_self]
  · rw [move, Function.update_of_ne h]

theorem get_move_self {src dst : Nat} (h : (cells (dst % n)).owner = lap n dst) :
    get n (move n cells src dst) dst = (cells (src % n)).entry := by
  rw [get_of_owner ((owner_move src dst _).trans h), move, Function.update_self]

theorem get_move_of_ne (src : Nat) (hi : i < n) (hj : j < n) (hne : j ≠ i) :
    get n (move n cells src (p + i)) (p + j) = get n cells (p + j) :=
  get_congr (Function.update_of_ne (mod_ne hj hi hne) _ _)

/-! ## Writing and reading -/

/-- A ring nobody has written to. -/
theorem Holds.nil (h : ∀ c, (cells c).entry = none) (p : Nat) : Holds n cells p [] where
  length_le := Nat.zero_le n
  get_eq j _ := by
    rw [get, h]
    simp

theorem Holds.push (h : Holds n cells p l) (hroom : l.length < n) (a : α) :
    Holds n (put n cells (p + l.length) a) p (l ++ [a]) where
  length_le := by
    rw [List.length_append]
    exact hroom
  get_eq j hj := get_put_concat a hroom hj (h.get_eq j hj)

theorem Holds.get_head {a : α} (h : Holds n cells p (a :: l)) : get n cells p = some a := by
  have hn : 0 < n := Nat.lt_of_lt_of_le (Nat.succ_pos _) h.length_le
  exact h.get_eq 0 hn

theorem Holds.pop {a : α} (h : Holds n cells p (a :: l)) : Holds n cells (p + 1) l where
  length_le := (Nat.le_succ _).trans h.length_le
  get_eq j hj := by
    have hn : 0 < n := Nat.zero_lt_of_lt hj
    rw [show p + 1 + j = p + (j + 1) by omega]
    by_cases hlast : j + 1 = n
    · -- the cell of the entry that was read, one lap later
      rw [hlast, get_add_eq_none hn (owner_of_get h.get_head), List.getElem?_eq_none]
      have := h.length_le
      rw [List.length_cons] at this
      omega
    · rw [h.get_eq (j + 1) (by omega), List.getElem?_cons_succ]

theorem Holds.get_nil (h : Holds n cells p []) (hn : 0 < n) : get n cells p = none :=
  h.get_eq 0 hn

/-! ## Compaction in place -/

/-- A sweep over the first `k` entries of `l`, newest first, is about to look at the `i`-th
    one. The entries it has kept have moved up over the `freed` ones it has dropped. -/
structure Swept (n : Nat) (cells : Nat → Cell α) (p : Nat) (l : List α) (drop : α → Bool)
    (k i freed : Nat) : Prop where
  length_le : l.length ≤ n
  le_length : k ≤ l.length
  le : i ≤ k
  sum : i + freed + (((l.take k).drop i).filter fun a => !drop a).length = k
  todo : ∀ j < i, get n cells (p + j) = l[j]?
  kept : ∀ j, i + freed + j < k →
    get n cells (p + (i + freed + j)) = (((l.take k).drop i).filter fun a => !drop a)[j]?
  rest : ∀ j, k ≤ j → j < n → get n cells (p + j) = l[j]?
  owner : ∀ j < k, (cells ((p + j) % n)).owner = lap n (p + j)

section Sweep

variable {drop : α → Bool} {k freed : Nat}

theorem Holds.swept (h : Holds n cells p l) (hk : k ≤ l.length) : Swept n cells p l drop k k 0 where
  length_le := h.length_le
  le_length := hk
  le := Nat.le_refl k
  sum := by simp
  todo j hj := h.get_eq j (by have := h.length_le; omega)
  kept j hj := by omega
  rest j _ hj := h.get_eq j hj
  owner j hj := by
    have hlen := h.length_le
    refine owner_of_get ((h.get_eq j (by omega)).trans (List.getElem?_eq_getElem (by omega)))

/-- The entry that the sweep looks at next. -/
theorem Swept.get_next (h : Swept n cells p l drop k (i + 1) freed) :
    ∃ hi : i < l.length, get n cells (p + i) = some l[i] := by
  have hi : i < l.length := Nat.lt_of_lt_of_le h.le h.le_length
  exact ⟨hi, (h.todo i (Nat.lt_succ_self i)).trans (List.getElem?_eq_getElem hi)⟩

theorem Swept.drop_eq (h : Swept n cells p l drop k (i + 1) freed) (hi : i < l.length) :
    (l.take k).drop i = l[i] :: (l.take k).drop (i + 1) := by
  have hik : i < (l.take k).length := by
    rw [List.length_take]
    have := h.le
    omega
  rw [List.drop_eq_getElem_cons hik, List.getElem_take]

/-- An entry is dropped. -/
theorem Swept.drop_next (h : Swept n cells p l drop k (i + 1) freed) (hi : i < l.length)
    (hdrop : drop l[i] = true) : Swept n cells p l drop k i (freed + 1) := by
  have hfilter : ((l.take k).drop i).filter (fun a => !drop a) =
      ((l.take k).drop (i + 1)).filter fun a => !drop a := by
    rw [h.drop_eq hi, List.filter_cons_of_neg (by simp [hdrop])]
  have hshift : ∀ j, i + (freed + 1) + j = i + 1 + freed + j := fun j => by omega
  exact
    { length_le := h.length_le
      le_length := h.le_length
      le := Nat.le_of_succ_le h.le
      sum := by
        have := h.sum
        rw [hfilter]
        omega
      todo := fun j hj => h.todo j (Nat.lt_succ_of_lt hj)
      kept := fun j hj => by
        rw [hfilter, hshift]
        exact h.kept j (hshift j ▸ hj)
      rest := h.rest
      owner := h.owner }

/-- An entry is kept where it is, as nothing has been dropped behind it. -/
theorem Swept.keep_next (h : Swept n cells p l drop k (i + 1) 0) (hi : i < l.length)
    (hkeep : drop l[i] = false) : Swept n cells p l drop k i 0 := by
  have hfilter : ((l.take k).drop i).filter (fun a => !drop a) =
      l[i] :: ((l.take k).drop (i + 1)).filter fun a => !drop a := by
    rw [h.drop_eq hi, List.filter_cons_of_pos (by simp [hkeep])]
  exact
    { length_le := h.length_le
      le_length := h.le_length
      le := Nat.le_of_succ_le h.le
      sum := by
        have := h.sum
        rw [hfilter, List.length_cons]
        omega
      todo := fun j hj => h.todo j (Nat.lt_succ_of_lt hj)
      kept := fun j hj => by
        rw [hfilter]
        cases j with
        | zero => exact h.todo i (Nat.lt_succ_self i) |>.trans (List.getElem?_eq_getElem hi)
        | succ j =>
          have := h.kept j (by omega)
          rwa [show i + 1 + 0 + j = i + 0 + (j + 1) by omega] at this
      rest := h.rest
      owner := h.owner }

/-- An entry is kept and moves up over the ones that have been dropped. -/
theorem Swept.move_next (h : Swept n cells p l drop k (i + 1) freed) (hi : i < l.length)
    (hfreed : 0 < freed) (hkeep : drop l[i] = false) :
    Swept n (move n cells (p + i) (p + (i + freed))) p l drop k i freed := by
  have hsum := h.sum
  have hk := h.le_length
  have hn := h.length_le
  have hfilter : ((l.take k).drop i).filter (fun a => !drop a) =
      l[i] :: ((l.take k).drop (i + 1)).filter fun a => !drop a := by
    rw [h.drop_eq hi, List.filter_cons_of_pos (by simp [hkeep])]
  have hdst : i + freed < k := by omega
  exact
    { length_le := h.length_le
      le_length := h.le_length
      le := Nat.le_of_succ_le h.le
      sum := by
        rw [hfilter, List.length_cons]
        omega
      todo := fun j hj => by
        rw [get_move_of_ne _ (by omega) (by omega) (by omega)]
        exact h.todo j (Nat.lt_succ_of_lt hj)
      kept := fun j hj => by
        rw [hfilter]
        cases j with
        | zero =>
          rw [Nat.add_zero, get_move_self (h.owner _ hdst), List.getElem?_cons_zero]
          obtain ⟨_, hget⟩ := h.get_next
          rw [← get_of_owner (h.owner i (by omega)), hget]
        | succ j =>
          rw [get_move_of_ne _ (by omega) (by omega) (by omega), List.getElem?_cons_succ,
            show i + freed + (j + 1) = i + 1 + freed + j by omega]
          exact h.kept j (by omega)
      rest := fun j hjk hj => by
        rw [get_move_of_ne _ (by omega) hj (by omega)]
        exact h.rest j hjk hj
      owner := fun j hj => (owner_move _ _ _).trans (h.owner j hj) }

/-- The writer adds an entry behind what is being swept. -/
theorem Swept.push (h : Swept n cells p l drop k i freed) (hroom : l.length < n) (a : α) :
    Swept n (put n cells (p + l.length) a) p (l ++ [a]) drop k i freed := by
  have hk := h.le_length
  have hi := h.le
  have htake : (l ++ [a]).take k = l.take k := List.take_append_of_le_length hk
  exact
    { length_le := by
        rw [List.length_append]
        exact hroom
      le_length := by
        rw [List.length_append]
        omega
      le := hi
      sum := by
        rw [htake]
        exact h.sum
      todo := fun j hj => get_put_concat a hroom (by omega) (h.todo j hj)
      kept := fun j hj => by
        rw [htake, get_put_of_ne a hroom (by omega) (by omega)]
        exact h.kept j hj
      rest := fun j hjk hj => get_put_concat a hroom hj (h.rest j hjk hj)
      owner := fun j hj => by
        have hne := mod_ne (p := p) (show j < n by omega) hroom (by omega : j ≠ l.length)
        rw [put, Function.update_of_ne hne]
        exact h.owner j hj }

/-- After the sweep, the reader goes on behind the cells that have become free. -/
theorem Swept.holds (h : Swept n cells p l drop k 0 freed) :
    Holds n cells (p + freed) ((l.take k).filter (fun a => !drop a) ++ l.drop k) := by
  have hsum := h.sum
  have hk := h.le_length
  have hn := h.length_le
  rw [List.drop_zero, Nat.zero_add] at hsum
  have hlen : ((l.take k).filter (fun a => !drop a) ++ l.drop k).length = l.length - freed := by
    rw [List.length_append, List.length_drop]
    omega
  refine ⟨by omega, fun j hj => ?_⟩
  by_cases hkept : freed + j < k
  · have hget := h.kept j (by omega)
    rw [List.drop_zero, Nat.zero_add, ← Nat.add_assoc] at hget
    rw [hget, List.getElem?_append_left (by omega)]
  · by_cases hlap : freed + j < n
    · rw [Nat.add_assoc, h.rest _ (by omega) hlap, List.getElem?_append_right (by omega),
        List.getElem?_drop]
      congr 1
      omega
    · -- the cells that have become free, one lap later
      have howner := h.owner (freed + j - n) (by omega)
      rw [show p + freed + j = p + (freed + j - n) + n by omega,
        get_add_eq_none (by omega) howner, List.getElem?_eq_none (by omega)]

end Sweep

end OwnerRing
