-- SUMMARY: Entries laid out back to back on a ring of blocks, and when none of them takes a block of another.
import Mathlib.Data.List.Flatten
import KRCore.Base.Ring

/-!
# Rings of blocks

Entries of different sizes are written one behind the other into a ring of `n`
blocks. The writer's counter is read modulo `M`, a multiple of `n`; `layout`
gives the entries of consecutive sizes from a position on. As long as the sizes
add up to at most `n`, no block belongs to two entries.
-/

namespace BlockRing

/-- The counter value an entry starts at, and how many blocks it takes. -/
structure Entry where
  start : Nat
  blocks : Nat
deriving DecidableEq, Repr

/-- The blocks of a ring of `n` blocks that an entry takes. -/
def Entry.cells (n : Nat) (e : Entry) : List Nat :=
  (List.range e.blocks).map fun i => (e.start + i) % n

def total : List Nat → Nat
  | [] => 0
  | b :: bs => b + total bs

/-- Entries of the sizes `bs`, back to back from position `p` on. -/
def layout (M : Nat) : Nat → List Nat → List Entry
  | _, [] => []
  | p, b :: bs => ⟨p % M, b⟩ :: layout M (p + b) bs

variable {M n p : Nat} {bs : List Nat}

@[simp] theorem total_nil : total [] = 0 := rfl

@[simp] theorem total_cons (b : Nat) (bs : List Nat) : total (b :: bs) = b + total bs := rfl

@[simp] theorem total_append (bs cs : List Nat) : total (bs ++ cs) = total bs + total cs := by
  induction bs with
  | nil => simp
  | cons b bs ih => simp [ih, Nat.add_assoc]

@[simp] theorem total_replicate (k b : Nat) : total (List.replicate k b) = k * b := by
  induction k with
  | zero => simp
  | succ k ih => rw [List.replicate_succ, total_cons, ih, Nat.add_comm, Nat.succ_mul]

theorem total_le {c : Nat} (h : ∀ b ∈ bs, b ≤ c) : total bs ≤ bs.length * c := by
  induction bs with
  | nil => simp
  | cons b bs ih =>
    have hb : b ≤ c := h b List.mem_cons_self
    have hrest := ih fun x hx => h x (List.mem_cons_of_mem b hx)
    rw [total_cons, List.length_cons, Nat.succ_mul]
    omega

/-- If every entry takes a block, an entry starts before the end of all. -/
theorem total_take_lt (h : ∀ b ∈ bs, 0 < b) {i : Nat} (hi : i < bs.length) :
    total (bs.take i) < total bs := by
  have hsplit : total (bs.take i) + total (bs.drop i) = total bs := by
    rw [← total_append, List.take_append_drop]
  have hhead : 0 < bs[i] := h _ (List.getElem_mem hi)
  rw [List.drop_eq_getElem_cons hi, total_cons] at hsplit
  omega

/-! ## Layouts -/

@[simp] theorem layout_nil (p : Nat) : layout M p [] = [] := rfl

@[simp] theorem layout_cons (p b : Nat) (bs : List Nat) :
    layout M p (b :: bs) = ⟨p % M, b⟩ :: layout M (p + b) bs := rfl

theorem layout_append (p : Nat) (bs cs : List Nat) :
    layout M p (bs ++ cs) = layout M p bs ++ layout M (p + total bs) cs := by
  induction bs generalizing p with
  | nil => simp
  | cons b bs ih => simp [ih, Nat.add_assoc]

theorem layout_drop (p k : Nat) (bs : List Nat) :
    (layout M p bs).drop k = layout M (p + total (bs.take k)) (bs.drop k) := by
  induction k generalizing p bs with
  | zero => simp
  | succ k ih =>
    cases bs with
    | nil => simp
    | cons b bs => simp [ih, Nat.add_assoc]

theorem layout_getElem? (p i : Nat) (bs : List Nat) :
    (layout M p bs)[i]? = bs[i]?.map fun b => ⟨(p + total (bs.take i)) % M, b⟩ := by
  induction i generalizing p bs with
  | zero => cases bs <;> simp
  | succ i ih =>
    cases bs with
    | nil => simp
    | cons b bs => simp [ih, Nat.add_assoc]

/-! ## Blocks -/

theorem cells_of_dvd (hM : n ∣ M) (b : Nat) :
    Entry.cells n ⟨p % M, b⟩ = (List.range b).map fun i => (p + i) % n := by
  refine List.map_congr_left fun i _ => ?_
  rw [Nat.add_mod, Nat.mod_mod_of_dvd p hM, ← Nat.add_mod]

/-- The blocks of all entries are consecutive. -/
theorem flatMap_cells_layout [NeZero n] (hM : n ∣ M) (p : Nat) (bs : List Nat) :
    (layout M p bs).flatMap (Entry.cells n) = (Ring.window n p (total bs)).map Fin.val := by
  induction bs generalizing p with
  | nil => rfl
  | cons b bs ih =>
    rw [layout_cons, List.flatMap_cons, ih, total_cons, Ring.window_add, List.map_append,
      cells_of_dvd hM]
    simp [Ring.window, Function.comp_def]

/-- Entries that fit on the ring do not take blocks of each other. -/
theorem cells_nodup [NeZero n] (hM : n ∣ M) (h : total bs ≤ n) :
    ((layout M p bs).flatMap (Entry.cells n)).Nodup := by
  rw [flatMap_cells_layout hM]
  exact (Ring.window_nodup h).map fun _ _ => Fin.ext

/-- The block behind all entries is not the first block of one of them, if one is free. -/
theorem first_ne [NeZero n] (hpos : ∀ b ∈ bs, 0 < b) (h : total bs < n) {i : Nat}
    (hi : i < bs.length) : (p + total (bs.take i)) % n ≠ (p + total bs) % n := by
  intro heq
  have hlt := total_take_lt hpos hi
  have := Ring.pos_add_inj p (hlt.trans h) h (Ring.pos_eq_iff.mpr heq)
  omega

/-! ## Tables by first block -/

section Marks

variable {α : Type*} {f v : Nat → α} {lo lo' : Nat}

/-- The entries stand back to back from block 0 on, and `f` has the value of each one from
    number `lo` on at its first block. -/
def Marks (n : Nat) (bs : List Nat) (lo : Nat) (f : Nat → α) (v : Nat → α) : Prop :=
  ∀ i, lo ≤ i → i < bs.length → f (total (bs.take i) % n) = v i

theorem Marks.mono (h : Marks n bs lo f v) (hle : lo ≤ lo') : Marks n bs lo' f v :=
  fun i hi => h i (hle.trans hi)

theorem total_take_add (bs : List Nat) {i j : Nat} (hij : i ≤ j) :
    total (bs.take i) + total ((bs.take j).drop i) = total (bs.take j) := by
  have htake : (bs.take j).take i = bs.take i := by rw [List.take_take, Nat.min_eq_left hij]
  rw [← htake, ← total_append, List.take_append_drop]

theorem total_take_add_drop (bs : List Nat) (i : Nat) :
    total (bs.take i) + total (bs.drop i) = total bs := by
  rw [← total_append, List.take_append_drop]

/-- The first blocks of two entries differ if the entries from the earlier one on fit on the
    ring. -/
theorem take_ne [NeZero n] (hpos : ∀ b ∈ bs, 0 < b) (hlo : total (bs.drop lo) ≤ n) {i j : Nat}
    (hi : lo ≤ i) (hij : i < j) (hj : j < bs.length) :
    total (bs.take i) % n ≠ total (bs.take j) % n := by
  have hlt := total_take_lt hpos hj
  have hstart := total_take_add_drop bs lo
  have hbefore := total_take_add bs hi
  have hgap := total_take_add bs (Nat.le_of_lt hij)
  have hgap_pos : total ((bs.take j).take i) < total (bs.take j) :=
    total_take_lt (fun b hb => hpos b (List.mem_of_mem_take hb)) (by rw [List.length_take]; omega)
  rw [List.take_take, Nat.min_eq_left (Nat.le_of_lt hij)] at hgap_pos
  intro heq
  have hinj := Ring.pos_add_inj (N := n) (total (bs.take i)) (i := 0)
    (j := total ((bs.take j).drop i)) (Nat.pos_of_neZero n) (by omega)
  rw [hgap, Nat.add_zero] at hinj
  have := hinj (Ring.pos_eq_iff.mpr heq)
  omega

/-- One more entry, whose value is written at its first block. -/
theorem Marks.push [NeZero n] (h : Marks n bs lo f v) (hpos : ∀ b ∈ bs, 0 < b)
    (hroom : total (bs.drop lo) < n) (b : Nat) (v' : Nat → α) (hv : ∀ i < bs.length, v' i = v i) :
    Marks n (bs ++ [b]) lo (Function.update f (total bs % n) (v' bs.length)) v' := by
  intro i hlo hi
  rw [List.length_append, List.length_singleton] at hi
  rcases Nat.lt_succ_iff_lt_or_eq.mp hi with hlt | rfl
  · have hne : total (bs.take i) % n ≠ total bs % n := by
      -- the new entry is put behind the others, as if it took a block that is still free
      have hfit : total ((bs ++ [1]).drop lo) ≤ n := by
        rw [List.drop_append_of_le_length (by omega), total_append]
        exact hroom
      have hpos' : ∀ b ∈ bs ++ [1], 0 < b := by simpa [or_imp, forall_and] using hpos
      have := take_ne hpos' hfit hlo hlt (by simp)
      rwa [List.take_left, List.take_append_of_le_length (Nat.le_of_lt hlt)] at this
    rw [List.take_append_of_le_length (Nat.le_of_lt hlt), Function.update_of_ne hne,
      h i hlo hlt, hv i hlt]
  · rw [List.take_left, Function.update_self]

end Marks

end BlockRing
