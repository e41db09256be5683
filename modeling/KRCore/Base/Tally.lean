-- SUMMARY: Counting the keys of a list in an accumulator, and which of them are counted for the first time.
import Mathlib.Algebra.BigOperators.Group.Finset.Piecewise
import Mathlib.Algebra.GroupWithZero.Nat
import Mathlib.Data.Finset.Card
import Mathlib.Logic.Function.Basic

/-!
# Tallies

A tally counts how often every key has been seen. A loop that treats the first
occurrence of a key differently flags as many elements as there are different
keys, and the number of elements with some property is a sum over the keys.
-/

namespace Tally

variable {κ : Type*} [DecidableEq κ]

/-- Count `k` once more. -/
def bump (n : κ → Nat) (k : κ) : κ → Nat := Function.update n k (n k + 1)

/-- Count a list of keys. -/
def bumps (n : κ → Nat) : List κ → κ → Nat
  | [] => n
  | k :: ks => bumps (bump n k) ks

/-- Every key of a list, with whether it has not been counted before. -/
def fresh (n : κ → Nat) : List κ → List (κ × Bool)
  | [] => []
  | k :: ks => (k, decide (n k = 0)) :: fresh (bump n k) ks

theorem bump_apply (n : κ → Nat) (k k' : κ) : bump n k k' = n k' + if k = k' then 1 else 0 := by
  by_cases h : k = k'
  · subst h
    simp [bump]
  · simp [bump, h, Function.update_of_ne (Ne.symm h)]

theorem bumps_apply (n : κ → Nat) (ks : List κ) (k : κ) : bumps n ks k = n k + ks.count k := by
  induction ks generalizing n with
  | nil => rfl
  | cons k' ks ih =>
    rw [bumps, ih, bump_apply, List.count_cons]
    simp only [beq_iff_eq]
    omega

theorem bumps_zero (ks : List κ) : bumps (fun _ => 0) ks = fun k => ks.count k := by
  funext k
  rw [bumps_apply, Nat.zero_add]

theorem map_fst_fresh (n : κ → Nat) (ks : List κ) : (fresh n ks).map Prod.fst = ks := by
  induction ks generalizing n with
  | nil => rfl
  | cons k ks ih => rw [fresh, List.map_cons, ih]

/-- As many elements are flagged as there are keys that were not counted before. -/
theorem countP_fresh (P : κ → Bool) (n : κ → Nat) (ks : List κ) :
    (fresh n ks).countP (fun p => P p.1 && p.2) =
      (ks.toFinset.filter fun k => P k = true ∧ n k = 0).card := by
  induction ks generalizing n with
  | nil => rfl
  | cons k ks ih =>
    -- The keys that are still new after `k` has been counted.
    have hrest : (ks.toFinset.filter fun k' => P k' = true ∧ bump n k k' = 0) =
        (ks.toFinset.filter fun k' => P k' = true ∧ n k' = 0).erase k := by
      ext k'
      simp only [bump_apply, Finset.mem_filter, Finset.mem_erase]
      by_cases hk : k = k'
      · simp [hk]
      · simp [hk, Ne.symm hk]
    rw [fresh, List.countP_cons, ih, hrest, List.toFinset_cons, Finset.filter_insert]
    by_cases hnew : P k = true ∧ n k = 0
    · rw [if_pos hnew, ← Finset.card_erase_add_one (Finset.mem_insert_self k _),
        Finset.erase_insert_eq_erase]
      simp [hnew.1, hnew.2]
    · rw [if_neg hnew, Finset.erase_eq_of_notMem (by simp_all)]
      simp_all

/-- The elements with a property, key by key. -/
theorem countP_eq_sum {ks vs : List κ} (P : κ → Bool) (hnodup : vs.Nodup)
    (hsub : ∀ k ∈ ks, k ∈ vs) :
    ks.countP P = (vs.map fun v => if P v then ks.count v else 0).sum := by
  rw [← List.sum_toFinset _ hnodup]
  induction ks with
  | nil => simp
  | cons k ks ih =>
    have hk : k ∈ vs.toFinset := List.mem_toFinset.mpr (hsub k List.mem_cons_self)
    have hone : (vs.toFinset.sum fun v => if v = k then (if P v then 1 else 0) else 0) =
        if P k then 1 else 0 := by
      rw [Finset.sum_ite_eq' vs.toFinset k, if_pos hk]
    rw [List.countP_cons, ih fun k' hk' => hsub k' (List.mem_cons_of_mem _ hk'), ← hone,
      ← Finset.sum_add_distrib]
    refine Finset.sum_congr rfl fun v _ => ?_
    rw [List.count_cons]
    by_cases hv : v = k
    · subst hv
      cases P v <;> simp
    · cases P v <;> simp [hv, Ne.symm hv]

end Tally
