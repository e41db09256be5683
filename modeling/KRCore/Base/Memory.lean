-- SUMMARY: Flat byte memories, byte strings read from and written to them, and little-endian numbers.
import Mathlib.Algebra.Group.Nat.Defs
import Mathlib.Data.List.Basic
import Mathlib.Data.Nat.Basic

/-!
# Byte memories

A memory maps addresses to bytes. `write` puts a byte string at an address and
`read` takes one from there. Numbers are stored with their lowest byte first.
-/

/-- A byte-addressed memory. -/
abbrev Mem := Nat → UInt8

namespace Mem

def write (mem : Mem) (addr : Nat) (bs : List UInt8) : Mem := fun a =>
  if a < addr then mem a else bs[a - addr]?.getD (mem a)

def read (mem : Mem) (addr len : Nat) : List UInt8 :=
  (List.range len).map fun j => mem (addr + j)

@[simp] theorem read_length (mem : Mem) (addr len : Nat) : (mem.read addr len).length = len := by
  simp [read]

theorem read_add (mem : Mem) (addr m n : Nat) :
    mem.read addr (m + n) = mem.read addr m ++ mem.read (addr + m) n := by
  simp [read, List.range_add, Function.comp_def, Nat.add_assoc]

theorem read_eq_read_iff {mem mem' : Mem} {addr len : Nat} :
    mem.read addr len = mem'.read addr len ↔ ∀ j < len, mem (addr + j) = mem' (addr + j) := by
  simp [read, List.map_inj_left]

theorem read_take {mem : Mem} {addr m n : Nat} (h : m ≤ n) :
    (mem.read addr n).take m = mem.read addr m := by
  obtain ⟨d, rfl⟩ := Nat.exists_eq_add_of_le h
  rw [read_add, List.take_left' (read_length mem addr m)]

/-- When a read yields a given stretch of a byte string. -/
theorem read_eq_slice_iff {mem : Mem} {addr off len : Nat} {bs : List UInt8} :
    mem.read addr len = (bs.drop off).take len ↔
      ∀ j < len, bs[off + j]? = some (mem (addr + j)) := by
  constructor
  · intro h j hj
    have hget : (mem.read addr len)[j]? = ((bs.drop off).take len)[j]? := by rw [h]
    simpa [read, hj] using hget.symm
  · intro h
    refine List.ext_getElem? fun j => ?_
    by_cases hj : j < len
    · simp [read, hj, h j hj]
    · rw [List.getElem?_eq_none (by simpa using hj), List.getElem?_take_eq_none (by omega)]

/-- Inside the written range the memory holds the string. -/
theorem write_add (mem : Mem) (addr : Nat) {j : Nat} {bs : List UInt8} (h : j < bs.length) :
    mem.write addr bs (addr + j) = bs[j] := by
  have hge : ¬ addr + j < addr := by omega
  simp [write, hge, h]

/-- Outside the written range nothing changes. -/
theorem write_of_outside {mem : Mem} {addr a : Nat} {bs : List UInt8}
    (h : a < addr ∨ addr + bs.length ≤ a) : mem.write addr bs a = mem a := by
  unfold write
  split
  · rfl
  · rw [List.getElem?_eq_none (by omega)]
    rfl

/-- What has been written is read back. -/
theorem read_write_take {mem : Mem} {addr len : Nat} {bs : List UInt8} (h : len ≤ bs.length) :
    (mem.write addr bs).read addr len = bs.take len := by
  refine List.ext_getElem (by simp [h]) fun j hj _ => ?_
  have hlen : j < len := by simpa using hj
  simp [read, write_add mem addr (Nat.lt_of_lt_of_le hlen h)]

theorem read_write_self (mem : Mem) (addr : Nat) (bs : List UInt8) :
    (mem.write addr bs).read addr bs.length = bs := by
  rw [read_write_take le_rfl, List.take_length]

/-- A read that goes on behind what has been written. -/
theorem read_write_append (mem : Mem) (addr : Nat) (bs : List UInt8) (n : Nat) :
    (mem.write addr bs).read addr (bs.length + n) = bs ++ mem.read (addr + bs.length) n := by
  rw [read_add, read_write_self]
  congr 1
  rw [read_eq_read_iff]
  intro j _
  exact write_of_outside (by omega)

/-- Reading elsewhere does not see the write. -/
theorem read_write_of_disjoint {mem : Mem} {addr addr' len : Nat} {bs : List UInt8}
    (h : addr' + len ≤ addr ∨ addr + bs.length ≤ addr') :
    (mem.write addr bs).read addr' len = mem.read addr' len := by
  rw [read_eq_read_iff]
  intro j hj
  exact write_of_outside (by omega)

/-- Reading inside a copy. -/
theorem read_write_read {mem src : Mem} {addr addr' off len n : Nat} (h : off + len ≤ n) :
    (mem.write addr (src.read addr' n)).read (addr + off) len = src.read (addr' + off) len := by
  refine List.ext_getElem (by simp) fun j hj _ => ?_
  have hlt : off + j < (src.read addr' n).length := by
    rw [read_length] at hj ⊢
    omega
  have hbyte := write_add mem addr hlt
  simp only [read, List.getElem_map, List.getElem_range, Nat.add_assoc] at hbyte ⊢
  exact hbyte

theorem write_nil (mem : Mem) (addr : Nat) : mem.write addr [] = mem := by
  funext a
  simp [write]

theorem write_of_lt {mem : Mem} {addr a : Nat} {bs : List UInt8} (h : a < addr) :
    mem.write addr bs a = mem a := if_pos h

theorem write_add_getD (mem : Mem) (addr j : Nat) (bs : List UInt8) :
    mem.write addr bs (addr + j) = bs[j]?.getD (mem (addr + j)) := by
  rw [write, if_neg (by omega), Nat.add_sub_cancel_left]

/-- Two writes one behind the other. -/
theorem write_append (mem : Mem) (addr : Nat) (xs ys : List UInt8) :
    (mem.write addr xs).write (addr + xs.length) ys = mem.write addr (xs ++ ys) := by
  funext a
  rcases Nat.lt_or_ge a addr with hlt | hge
  · rw [write_of_lt (by omega), write_of_lt hlt, write_of_lt hlt]
  · obtain ⟨j, rfl⟩ := Nat.exists_eq_add_of_le hge
    rw [write_add_getD mem addr j (xs ++ ys)]
    rcases Nat.lt_or_ge j xs.length with hj | hj
    · rw [write_of_lt (by omega), write_add_getD, List.getElem?_append_left hj]
    · obtain ⟨k, rfl⟩ := Nat.exists_eq_add_of_le hj
      rw [← Nat.add_assoc, write_add_getD, write_of_outside (by omega), Nat.add_assoc,
        List.getElem?_append_right hj, Nat.add_sub_cancel_left]

/-- The same with the second one first. -/
theorem write_append_rev (mem : Mem) (addr : Nat) (xs ys : List UInt8) :
    (mem.write (addr + xs.length) ys).write addr xs = mem.write addr (xs ++ ys) := by
  funext a
  rcases Nat.lt_or_ge a addr with hlt | hge
  · rw [write_of_lt hlt, write_of_lt (by omega), write_of_lt hlt]
  · obtain ⟨j, rfl⟩ := Nat.exists_eq_add_of_le hge
    rw [write_add_getD _ addr j xs, write_add_getD mem addr j (xs ++ ys)]
    rcases Nat.lt_or_ge j xs.length with hj | hj
    · rw [write_of_lt (by omega), List.getElem?_append_left hj]
    · obtain ⟨k, rfl⟩ := Nat.exists_eq_add_of_le hj
      rw [List.getElem?_eq_none hj, Option.getD_none, ← Nat.add_assoc, write_add_getD, Nat.add_assoc,
        List.getElem?_append_right hj, Nat.add_sub_cancel_left]

/-- One byte of a string that has been written. -/
theorem write_set (mem : Mem) (addr : Nat) {j : Nat} {bs : List UInt8} (b : UInt8)
    (hj : j < bs.length) :
    (mem.write addr bs).write (addr + j) [b] = mem.write addr (bs.set j b) := by
  funext a
  rcases Nat.lt_or_ge a addr with hlt | hge
  · rw [write_of_lt (by omega), write_of_lt hlt, write_of_lt hlt]
  · obtain ⟨i, rfl⟩ := Nat.exists_eq_add_of_le hge
    rw [write_add_getD mem addr i (bs.set j b)]
    by_cases hij : i = j
    · subst hij
      rw [List.getElem?_set_self hj]
      exact write_add_getD _ (addr + i) 0 [b]
    · rw [write_of_outside (by simp; omega), write_add_getD, List.getElem?_set_ne (Ne.symm hij)]

end Mem

/-! ## Little-endian numbers -/

namespace Word

/-- The `n` lowest bytes of a number, the lowest first. -/
def toBytes : Nat → Nat → List UInt8
  | 0, _ => []
  | n + 1, x => UInt8.ofNat x :: toBytes n (x / 256)

def ofBytes : List UInt8 → Nat
  | [] => 0
  | b :: bs => b.toNat + 256 * ofBytes bs

@[simp] theorem toBytes_length (n x : Nat) : (toBytes n x).length = n := by
  induction n generalizing x with
  | zero => rfl
  | succ n ih => simp [toBytes, ih]

theorem ofBytes_toBytes (n x : Nat) : ofBytes (toBytes n x) = x % 256 ^ n := by
  induction n generalizing x with
  | zero => simp [toBytes, ofBytes, Nat.mod_one]
  | succ n ih =>
    rw [toBytes, ofBytes, ih, UInt8.toNat_ofNat', Nat.pow_succ' (n := n)]
    exact (Nat.mod_mul (a := 256)).symm

theorem ofBytes_lt (bs : List UInt8) : ofBytes bs < 256 ^ bs.length := by
  induction bs with
  | nil => exact Nat.one_pos
  | cons b bs ih =>
    have hb := b.toNat_lt
    rw [ofBytes, List.length_cons, Nat.pow_succ']
    omega

theorem ofBytes_toBytes_of_lt {n x : Nat} (h : x < 256 ^ n) : ofBytes (toBytes n x) = x := by
  rw [ofBytes_toBytes, Nat.mod_eq_of_lt h]

/-! ## Big-endian numbers -/

def toBe (n x : Nat) : List UInt8 := (toBytes n x).reverse

def ofBe (bs : List UInt8) : Nat := ofBytes bs.reverse

@[simp] theorem toBe_length (n x : Nat) : (toBe n x).length = n := by simp [toBe]

theorem ofBe_toBe {n x : Nat} (h : x < 256 ^ n) : ofBe (toBe n x) = x := by
  rw [ofBe, toBe, List.reverse_reverse, ofBytes_toBytes_of_lt h]

theorem toBytes_add (m n x : Nat) : toBytes (m + n) x = toBytes m x ++ toBytes n (x / 256 ^ m) := by
  induction m generalizing x with
  | zero => simp [toBytes]
  | succ m ih =>
    rw [Nat.succ_add, toBytes, toBytes, ih, List.cons_append, Nat.div_div_eq_div_mul, Nat.pow_succ']

theorem toBytes_mod (n x : Nat) : toBytes n (x % 256 ^ n) = toBytes n x := by
  induction n generalizing x with
  | zero => rfl
  | succ n ih =>
    have hlow : UInt8.ofNat (x % 256 ^ (n + 1)) = UInt8.ofNat x := by
      rw [← UInt8.toNat_inj, UInt8.toNat_ofNat', UInt8.toNat_ofNat', Nat.pow_succ']
      exact Nat.mod_mul_right_mod x 256 (256 ^ n)
    have hhigh : x % 256 ^ (n + 1) / 256 = x / 256 % 256 ^ n := by
      rw [Nat.pow_succ', Nat.mod_mul_right_div_self]
    rw [toBytes, toBytes, hlow, hhigh, ih]

/-- The upper and the lower part of a number. -/
theorem toBe_append {n b : Nat} (m a : Nat) (hb : b < 256 ^ n) :
    toBe (m + n) (a * 256 ^ n + b) = toBe m a ++ toBe n b := by
  have hdiv : (a * 256 ^ n + b) / 256 ^ n = a :=
    Nat.div_eq_of_lt_le (Nat.le_add_right _ _) (by rw [Nat.succ_mul]; omega)
  have hmod : toBytes n (a * 256 ^ n + b) = toBytes n b := by
    rw [← toBytes_mod, Nat.add_comm, Nat.add_mul_mod_self_right, Nat.mod_eq_of_lt hb]
  rw [toBe, toBe, toBe, Nat.add_comm m n, toBytes_add, List.reverse_append, hdiv, hmod]

end Word
