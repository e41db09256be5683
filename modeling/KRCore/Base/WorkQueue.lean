-- SUMMARY: Work queues of a device: requests are posted, completed in any order, and taken from completion queues.
import Mathlib.Data.List.Basic
import Mathlib.Data.List.Perm.Subperm

/-!
# Work queues

The requests a device works on (`pending`, in posting order) and the completed
ones that nobody has polled yet (`done`, in completion order). A completion
queue is a predicate on requests: polling it takes the first completions that
satisfy the predicate.
-/

variable {R : Type*}

/-- Take the first `k` elements of a list that satisfy `p`, and what remains. -/
def List.takeFirst (p : R → Bool) : Nat → List R → List R × List R
  | 0, l => ([], l)
  | _ + 1, [] => ([], [])
  | k + 1, a :: l =>
    if p a then
      let (taken, rest) := takeFirst p k l
      (a :: taken, rest)
    else
      let (taken, rest) := takeFirst p (k + 1) l
      (taken, a :: rest)

namespace List

theorem takeFirst_fst (p : R → Bool) (k : Nat) (l : List R) :
    (takeFirst p k l).1 = (l.filter p).take k := by
  fun_induction takeFirst p k l with
  | case1 l => simp
  | case2 k => simp
  | case3 k a l hp taken rest heq ih =>
    rw [heq] at ih
    simp [hp, ← ih]
  | case4 k a l hp taken rest heq ih =>
    rw [heq] at ih
    simp [hp, ← ih]

/-- Taking elements out neither loses nor duplicates any. -/
theorem takeFirst_perm (p : R → Bool) (k : Nat) (l : List R) :
    ((takeFirst p k l).1 ++ (takeFirst p k l).2).Perm l := by
  fun_induction takeFirst p k l with
  | case1 l => simp
  | case2 k => simp
  | case3 k a l hp taken rest heq ih =>
    rw [heq] at ih
    exact ih.cons a
  | case4 k a l hp taken rest heq ih =>
    rw [heq] at ih
    exact perm_middle.trans (ih.cons a)

/-- What is taken from one queue is missing there. -/
theorem takeFirst_snd_filter (p : R → Bool) (k : Nat) (l : List R) :
    (takeFirst p k l).2.filter p = (l.filter p).drop k := by
  fun_induction takeFirst p k l with
  | case1 l => simp
  | case2 k => simp
  | case3 k a l hp taken rest heq ih =>
    rw [heq] at ih
    simpa [hp] using ih
  | case4 k a l hp taken rest heq ih =>
    rw [heq] at ih
    simpa [hp] using ih

/-- What is taken from one queue does not touch another one. -/
theorem takeFirst_snd_filter_of_disjoint {p q : R → Bool} (hpq : ∀ a, q a = true → p a = false)
    (k : Nat) (l : List R) : (takeFirst p k l).2.filter q = l.filter q := by
  fun_induction takeFirst p k l with
  | case1 l => rfl
  | case2 k => rfl
  | case3 k a l hp taken rest heq ih =>
    rw [heq] at ih
    have hq : q a = false := by
      cases hqa : q a with
      | false => rfl
      | true => rw [hpq a hqa] at hp; cases hp
    simpa [hq] using ih
  | case4 k a l hp taken rest heq ih =>
    rw [heq] at ih
    cases hq : q a with
    | false => simpa [hq] using ih
    | true => simpa [hq] using ih

theorem mem_takeFirst_fst {p : R → Bool} {k : Nat} {l : List R} {a : R}
    (h : a ∈ (takeFirst p k l).1) : a ∈ l ∧ p a = true := by
  rw [takeFirst_fst] at h
  exact mem_filter.mp (mem_of_mem_take h)

end List

/-- The requests of a device that nobody has got back yet. -/
structure WorkQueue (R : Type*) where
  pending : List R
  done : List R
deriving DecidableEq, Repr

namespace WorkQueue

def empty : WorkQueue R := ⟨[], []⟩

/-- All requests that are still with the device or in a completion queue. -/
def all (w : WorkQueue R) : List R := w.pending ++ w.done

def post (w : WorkQueue R) (rs : List R) : WorkQueue R := { w with pending := w.pending ++ rs }

/-- The device completes its `i`-th pending request. -/
def complete (w : WorkQueue R) (i : Nat) : Option (WorkQueue R) :=
  w.pending[i]?.map fun r => { pending := w.pending.eraseIdx i, done := w.done ++ [r] }

/-- The device completes the first pending request that satisfies `p`. -/
def completeFirst (w : WorkQueue R) (p : R → Bool) : Option (WorkQueue R) :=
  match w.pending.takeFirst p 1 with
  | ([], _) => none
  | (r :: _, rest) => some { pending := rest, done := w.done ++ [r] }

/-- Take up to `k` completions from the completion queue `p`. -/
def poll (w : WorkQueue R) (p : R → Bool) (k : Nat) : List R × WorkQueue R :=
  ((w.done.takeFirst p k).1, { w with done := (w.done.takeFirst p k).2 })

/-- Destroy queues: their requests and completions disappear. -/
def cancel (w : WorkQueue R) (p : R → Bool) : WorkQueue R where
  pending := w.pending.filter fun r => !p r
  done := w.done.filter fun r => !p r

@[simp] theorem post_pending (w : WorkQueue R) (rs : List R) :
    (w.post rs).pending = w.pending ++ rs := rfl

@[simp] theorem post_done (w : WorkQueue R) (rs : List R) : (w.post rs).done = w.done := rfl

@[simp] theorem poll_pending (w : WorkQueue R) (p : R → Bool) (k : Nat) :
    (w.poll p k).2.pending = w.pending := rfl

theorem complete_eq_some {w w' : WorkQueue R} {i : Nat} (h : w.complete i = some w') :
    ∃ r, w.pending[i]? = some r ∧ w' = ⟨w.pending.eraseIdx i, w.done ++ [r]⟩ := by
  simp only [complete, Option.map_eq_some_iff] at h
  obtain ⟨r, hr, rfl⟩ := h
  exact ⟨r, hr, rfl⟩

theorem complete_pending_sublist {w w' : WorkQueue R} {i : Nat} (h : w.complete i = some w') :
    w'.pending.Sublist w.pending := by
  obtain ⟨r, -, rfl⟩ := complete_eq_some h
  exact List.eraseIdx_sublist ..

theorem completeFirst_eq_some {w w' : WorkQueue R} {p : R → Bool}
    (h : w.completeFirst p = some w') :
    ∃ r, w.pending.filter p = r :: w'.pending.filter p ∧ w'.done = w.done ++ [r] ∧
      w'.pending = (w.pending.takeFirst p 1).2 := by
  have hfst := List.takeFirst_fst p 1 w.pending
  have hsnd := List.takeFirst_snd_filter p 1 w.pending
  unfold completeFirst at h
  split at h
  · cases h
  · rename_i r taken rest heq
    simp only [Option.some.injEq] at h
    subst h
    rw [heq] at hfst hsnd
    refine ⟨r, ?_, rfl, by rw [heq]⟩
    cases hf : w.pending.filter p with
    | nil => simp [hf] at hfst
    | cons x xs =>
      simp only [hf, List.take_succ_cons, List.take_zero, List.cons.injEq] at hfst
      simp only [hf, List.drop_succ_cons, List.drop_zero] at hsnd
      rw [hfst.1, hsnd]

theorem all_post (w : WorkQueue R) (rs : List R) : (w.post rs).all.Perm (w.all ++ rs) := by
  simp only [all, post, List.append_assoc]
  exact List.Perm.append_left _ List.perm_append_comm

/-- A completion moves a request; it neither loses nor duplicates any. -/
theorem all_complete {w w' : WorkQueue R} {i : Nat} (h : w.complete i = some w') :
    w'.all.Perm w.all := by
  obtain ⟨r, hr, rfl⟩ := complete_eq_some h
  obtain ⟨hi, hget⟩ := List.getElem?_eq_some_iff.mp hr
  have hperm : (r :: w.pending.eraseIdx i).Perm w.pending := by
    rw [← hget]
    exact List.getElem_cons_eraseIdx_perm hi
  have hlast : (w.pending.eraseIdx i ++ (w.done ++ [r])).Perm
      (r :: (w.pending.eraseIdx i ++ w.done)) := by
    rw [← List.append_assoc]
    exact List.perm_append_singleton ..
  exact hlast.trans (hperm.append_right w.done)

/-- Polling hands requests out; it neither loses nor duplicates any. -/
theorem all_poll (w : WorkQueue R) (p : R → Bool) (k : Nat) :
    ((w.poll p k).1 ++ (w.poll p k).2.all).Perm w.all := by
  have hswap : ((w.poll p k).1 ++ (w.pending ++ (w.poll p k).2.done)).Perm
      (w.pending ++ ((w.poll p k).1 ++ (w.poll p k).2.done)) := by
    rw [← List.append_assoc, ← List.append_assoc]
    exact List.perm_append_comm.append_right _
  exact hswap.trans ((List.takeFirst_perm p k w.done).append_left w.pending)

theorem all_cancel_sublist (w : WorkQueue R) (p : R → Bool) : (w.cancel p).all.Sublist w.all :=
  List.Sublist.append List.filter_sublist List.filter_sublist

theorem mem_poll {w : WorkQueue R} {p : R → Bool} {k : Nat} {r : R} (h : r ∈ (w.poll p k).1) :
    r ∈ w.all ∧ p r = true := by
  obtain ⟨hmem, hp⟩ := List.mem_takeFirst_fst h
  exact ⟨List.mem_append_right _ hmem, hp⟩

end WorkQueue
