-- SUMMARY: Waiting for one completion of an in-order device with a bounded number of polls, and when the wait gets its own.
import Mathlib.Data.List.Basic

/-!
# Bounded waits

A device completes its requests in the order in which they were posted, after any delay.
A wait polls for one completion, a bounded number of times, and takes the oldest one that
is there. It gets the completion of the request that was posted last only if no other is
on the way, and if this one comes in time.
-/

namespace PollWait

variable {α : Type*}

/-- The requests that a device works on, oldest first, and the completions that nobody has
    polled. -/
structure Device (α : Type*) where
  pending : List α
  ready : List α
deriving DecidableEq

namespace Device

/-- Nothing is under way. -/
def idle : Device α := { pending := [], ready := [] }

def post (d : Device α) (a : α) : Device α := { d with pending := d.pending ++ [a] }

/-- The `n` oldest requests complete. -/
def complete (d : Device α) (n : Nat) : Device α where
  pending := d.pending.drop n
  ready := d.ready ++ d.pending.take n

@[simp] theorem complete_zero (d : Device α) : d.complete 0 = d := by
  simp [complete]

theorem complete_single (a : α) {n : Nat} (h : 0 < n) :
    (idle.post a).complete n = { pending := [], ready := [a] } := by
  obtain ⟨m, rfl⟩ := Nat.exists_eq_succ_of_ne_zero (Nat.pos_iff_ne_zero.mp h)
  simp [complete, post, idle]

end Device

/-- How many requests complete before a poll, and whether the poll fails. -/
structure Poll where
  arrivals : Nat
  failed : Bool

/-- Poll until there is a completion, at most `fuel` times. -/
def waitOne (polls : Nat → Poll) : Nat → Nat → Device α → Option α × Device α
  | 0, _, d => (none, d)
  | fuel + 1, i, d =>
    let d := d.complete (polls i).arrivals
    if (polls i).failed then (none, d)
    else
      match d.ready with
      | a :: ready => (some a, { d with ready })
      | [] => waitOne polls fuel (i + 1) d

/-- A completion arrives before one of the next `fuel` polls, and no poll fails up to then. -/
def InTime (polls : Nat → Poll) (fuel i : Nat) : Prop :=
  ∃ k < fuel, 0 < (polls (i + k)).arrivals ∧ ∀ j ≤ k, (polls (i + j)).failed = false

theorem not_inTime_zero (polls : Nat → Poll) (i : Nat) : ¬ InTime polls 0 i :=
  fun ⟨k, hk, _⟩ => Nat.not_lt_zero k hk

theorem inTime_succ {polls : Nat → Poll} {fuel i : Nat} :
    InTime polls (fuel + 1) i ↔
      (polls i).failed = false ∧ (0 < (polls i).arrivals ∨ InTime polls fuel (i + 1)) := by
  have hshift : ∀ j, i + 1 + j = i + (j + 1) := fun j => by omega
  constructor
  · rintro ⟨k, hk, harr, hall⟩
    refine ⟨hall 0 (Nat.zero_le k), ?_⟩
    cases k with
    | zero => exact .inl harr
    | succ k =>
      refine .inr ⟨k, Nat.lt_of_succ_lt_succ hk, by rwa [hshift], fun j hj => ?_⟩
      rw [hshift]
      exact hall (j + 1) (Nat.succ_le_succ hj)
  · rintro ⟨hfirst, harr | ⟨k, hk, harr, hall⟩⟩
    · refine ⟨0, Nat.succ_pos fuel, harr, fun j hj => ?_⟩
      obtain rfl := Nat.le_zero.mp hj
      exact hfirst
    · refine ⟨k + 1, Nat.succ_lt_succ hk, by rwa [← hshift], fun j hj => ?_⟩
      cases j with
      | zero => exact hfirst
      | succ j =>
        rw [← hshift]
        exact hall j (Nat.le_of_succ_le_succ hj)

/-- The wait for the only request of a device, if its completion comes in time. -/
theorem waitOne_of_inTime {polls : Nat → Poll} {fuel i : Nat} (a : α)
    (h : InTime polls fuel i) : waitOne polls fuel i (Device.idle.post a) = (some a, .idle) := by
  induction fuel generalizing i with
  | zero => exact absurd h (not_inTime_zero polls i)
  | succ fuel ih =>
    obtain ⟨hok, harr⟩ := inTime_succ.mp h
    rw [waitOne]
    rcases Nat.eq_zero_or_pos (polls i).arrivals with hzero | hpos
    · have hrest := harr.resolve_left (by omega)
      simp only [hzero, Device.complete_zero, hok, Bool.false_eq_true, if_false]
      exact ih hrest
    · simp only [Device.complete_single a hpos, hok, Bool.false_eq_true, if_false]
      rfl

/-- And if it does not. -/
theorem waitOne_of_not_inTime {polls : Nat → Poll} {fuel i : Nat} (a : α)
    (h : ¬ InTime polls fuel i) : (waitOne polls fuel i (Device.idle.post a)).1 = none := by
  induction fuel generalizing i with
  | zero => rfl
  | succ fuel ih =>
    rw [inTime_succ, not_and_or, not_or] at h
    rw [waitOne]
    cases hfail : (polls i).failed with
    | true => simp only [if_true]
    | false =>
      obtain ⟨hzero, hrest⟩ := h.resolve_left (not_not.mpr hfail)
      have hnone : (polls i).arrivals = 0 := by omega
      simp only [hnone, Device.complete_zero, Bool.false_eq_true, if_false]
      exact ih hrest

theorem waitOne_eq_some_iff {polls : Nat → Poll} {fuel i : Nat} (a : α) :
    (waitOne polls fuel i (Device.idle.post a)).1 = some a ↔ InTime polls fuel i := by
  constructor
  · intro h
    by_contra hnot
    rw [waitOne_of_not_inTime a hnot] at h
    cases h
  · intro h
    rw [waitOne_of_inTime a h]

/-- If nothing happens, the wait uses up its polls. -/
theorem waitOne_of_silent (fuel i : Nat) (pending : List α) :
    waitOne (fun _ => ⟨0, false⟩) fuel i { pending, ready := [] } =
      (none, { pending, ready := [] }) := by
  induction fuel generalizing i with
  | zero => rfl
  | succ fuel ih =>
    rw [waitOne]
    simp only [Device.complete_zero, Bool.false_eq_true, if_false]
    exact ih (i + 1)

end PollWait
