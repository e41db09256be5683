-- SUMMARY: A table that is overwritten cell by cell, and the first of its cells that has a property.
import Mathlib.Data.List.Basic
import Mathlib.Data.Nat.Basic

/-!
# Overwriting a table in place

A writer replaces the cells of a table by the elements of a list, from the first one
on. A reader looks for the first cell with a property. If the list has its first such
element at a place where the reader would not have stopped earlier, the reader finds a
cell at every moment, and its place never grows. Otherwise there is a moment at which
the first cell that had the property is gone and the new one is not there.
-/

namespace Overwrite

variable {α : Type*} {p : α → Prop} {cells cells' : Nat → α} {es : List α} {e : α} {j k q idx : Nat}

/-- Cell `j` is the first one with the property. -/
structure FirstAt (p : α → Prop) (cells : Nat → α) (j : Nat) : Prop where
  holds : p (cells j)
  before : ∀ k < j, ¬p (cells k)

theorem FirstAt.le (h : FirstAt p cells j) (hk : p (cells k)) : j ≤ k := by
  by_contra hlt
  exact h.before k (Nat.lt_of_not_le hlt) hk

theorem FirstAt.congr (h : FirstAt p cells j) (hsame : ∀ k ≤ j, cells' k = cells k) :
    FirstAt p cells' j where
  holds := by
    rw [hsame j le_rfl]
    exact h.holds
  before k hk := by
    rw [hsame k (le_of_lt hk)]
    exact h.before k hk

/-- Element `q` is the first one of the list with the property. -/
structure FirstIn (p : α → Prop) (es : List α) (q : Nat) : Prop where
  holds : ∃ e, es[q]? = some e ∧ p e
  before : ∀ k < q, ∀ e, es[k]? = some e → ¬p e

theorem FirstIn.lt (h : FirstIn p es q) : q < es.length := by
  obtain ⟨e, he, -⟩ := h.holds
  exact (List.getElem?_eq_some_iff.mp he).1

theorem FirstIn.firstAt (h : FirstIn p es q) (hcells : ∀ k ≤ q, es[k]? = some (cells k)) :
    FirstAt p cells q where
  holds := by
    obtain ⟨e, he, hp⟩ := h.holds
    rw [hcells q le_rfl] at he
    cases he
    exact hp
  before k hk := h.before k hk _ (hcells k (le_of_lt hk))

/-- The first `idx` cells are written, the list has its first match at `q`, and the table
    has one at `j`, which is not before that. -/
structure Writing (p : α → Prop) (es : List α) (q : Nat) (cells : Nat → α) (idx j : Nat) :
    Prop where
  target : FirstIn p es q
  first : FirstAt p cells j
  le : q ≤ j
  written : ∀ k < idx, es[k]? = some (cells k)

/-- Once the match of the list is written, it is the first one of the table. -/
theorem Writing.eq_of_lt (h : Writing p es q cells idx j) (hq : q < idx) : j = q := by
  obtain ⟨e, he, hp⟩ := h.target.holds
  have hcell : cells q = e := Option.some.inj ((h.written q hq).symm.trans he)
  exact le_antisymm (h.first.le (hcell ▸ hp)) h.le

theorem Writing.written_succ (h : Writing p es q cells idx j) (he : es[idx]? = some e)
    (hidx : cells' idx = e) (hsame : ∀ k ≠ idx, cells' k = cells k) :
    ∀ k < idx + 1, es[k]? = some (cells' k) := by
  intro k hk
  by_cases hki : k = idx
  · rw [hki, hidx, he]
  · rw [hsame k hki]
    exact h.written k (by omega)

/-- One cell is written. The first match stays, or moves to that of the list. -/
theorem Writing.step (h : Writing p es q cells idx j) (he : es[idx]? = some e)
    (hidx : cells' idx = e) (hsame : ∀ k ≠ idx, cells' k = cells k) :
    ∃ j' ≤ j, Writing p es q cells' (idx + 1) j' ∧
      (cells' j' = cells j ∨ es[q]? = some (cells' j')) := by
  have hwritten := h.written_succ he hidx hsame
  rcases lt_trichotomy idx q with hlt | heq | hgt
  · -- The match of the list is still to come, and the old one lies behind this cell.
    have hne : j ≠ idx := by have := h.le; omega
    refine ⟨j, le_rfl, ⟨h.target, ⟨?_, fun k hk => ?_⟩, h.le, hwritten⟩, .inl (hsame j hne)⟩
    · rw [hsame j hne]
      exact h.first.holds
    · by_cases hki : k = idx
      · rw [hki, hidx]
        exact h.target.before idx hlt e he
      · rw [hsame k hki]
        exact h.first.before k hk
  · -- This is the match of the list.
    subst heq
    have hfirst := h.target.firstAt fun k hk => hwritten k (Nat.lt_succ_of_le hk)
    exact ⟨idx, h.le, ⟨h.target, hfirst, le_rfl, hwritten⟩,
      .inr (hwritten idx (Nat.lt_succ_self idx))⟩
  · -- The match has been written before.
    have hj := h.eq_of_lt hgt
    exact ⟨j, le_rfl, ⟨h.target, h.first.congr fun k hk => hsame k (by omega), h.le, hwritten⟩,
      .inl (hsame j (by omega))⟩

theorem Writing.eq_of_length_le (h : Writing p es q cells idx j) (hidx : es.length ≤ idx) :
    j = q :=
  h.eq_of_lt (lt_of_lt_of_le h.target.lt hidx)

/-- If the list has no match up to `j`, then the first `j + 1` elements of it leave no match
    in a table whose only match was at `j`. -/
theorem no_match {n : Nat} (hes : ∀ k ≤ j, ∀ e, es[k]? = some e → ¬p e)
    (honly : ∀ k < n, p (cells k) → k = j) (hwritten : ∀ k ≤ j, es[k]? = some (cells' k))
    (hkeep : ∀ k < n, j < k → cells' k = cells k) : ∀ k < n, ¬p (cells' k) := by
  intro k hk hp
  rcases Nat.lt_or_ge j k with hjk | hjk
  · rw [hkeep k hk hjk] at hp
    exact absurd (honly k hk hp) (by omega)
  · exact hes k hjk _ (hwritten k hjk) hp

end Overwrite
