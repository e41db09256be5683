-- SUMMARY: Resources that are held by exactly one holder each, and the rules for acquiring, moving and releasing them.
import Mathlib.Logic.ExistsUnique
import Mathlib.Logic.Function.Basic

/-!
# Ownership

`held i` is the resource that holder `i` holds, if it holds one, and `live` are the
resources that exist. `Exclusive` says that these are the same resources, and that no two
holders share one.
-/

namespace Ownership

variable {ι α : Type*}

/-- Every resource that exists is held by exactly one holder, and what is held exists. -/
structure Exclusive (held : ι → Option α) (live : α → Prop) : Prop where
  unique : ∀ a, live a → ∃! i, held i = some a
  live : ∀ i a, held i = some a → live a

/-- Who holds `b` does not depend on a holder that neither held it nor holds it now. -/
theorem update_eq_some_iff [DecidableEq ι] {held : ι → Option α} {i : ι} {v : Option α} {b : α}
    (hi : held i ≠ some b) (hv : v ≠ some b) {j : ι} :
    Function.update held i v j = some b ↔ held j = some b := by
  by_cases hj : j = i
  · subst hj
    rw [Function.update_self]
    exact iff_of_false hv hi
  · rw [Function.update_of_ne hj]

namespace Exclusive

variable {held : ι → Option α} {live : α → Prop}

theorem inj (h : Exclusive held live) {i j : ι} {a : α} (hi : held i = some a)
    (hj : held j = some a) : i = j :=
  (h.unique a (h.live i a hi)).unique hi hj

/-- If every holder is without a resource, none exists. -/
theorem not_live_of_forall (h : Exclusive held live) (hnone : ∀ i, held i = none) (a : α) :
    ¬ live a := by
  intro ha
  obtain ⟨i, hi, -⟩ := h.unique a ha
  rw [hnone i] at hi
  cases hi

variable [DecidableEq ι]

/-- A holder without a resource gets a new one. -/
theorem acquire (h : Exclusive held live) {i : ι} {a : α} (hi : held i = none) (ha : ¬ live a) :
    Exclusive (Function.update held i (some a)) fun b => b = a ∨ live b := by
  have hother : ∀ b j, b ≠ a → (Function.update held i (some a) j = some b ↔ held j = some b) :=
    fun b j hne => update_eq_some_iff (by simp [hi]) fun heq => hne (Option.some.inj heq).symm
  constructor
  · intro b hb
    by_cases hba : b = a
    · subst hba
      refine ⟨i, Function.update_self .., fun j hj => ?_⟩
      by_contra hne
      have hold : Function.update held i (some b) j = some b := hj
      rw [Function.update_of_ne hne] at hold
      exact ha (h.live j b hold)
    · simp only [hother b _ hba]
      exact h.unique b (hb.resolve_left hba)
  · intro j b hj
    by_cases hba : b = a
    · exact .inl hba
    · exact .inr (h.live j b ((hother b j hba).mp hj))

/-- A holder gives its resource up. -/
theorem release (h : Exclusive held live) {i : ι} {a : α} (hi : held i = some a) :
    Exclusive (Function.update held i none) fun b => live b ∧ b ≠ a := by
  have hother : ∀ b j, b ≠ a → (Function.update held i none j = some b ↔ held j = some b) := by
    intro b j hne
    have hold : held i ≠ some b := by
      rw [hi]
      exact fun heq => hne (Option.some.inj heq).symm
    exact update_eq_some_iff hold (Option.some_ne_none b).symm
  constructor
  · rintro b ⟨hb, hne⟩
    simp only [hother b _ hne]
    exact h.unique b hb
  · intro j b hj
    have hne : b ≠ a := by
      rintro rfl
      by_cases hji : j = i
      · subst hji
        rw [Function.update_self] at hj
        cases hj
      · rw [Function.update_of_ne hji] at hj
        exact hji (h.inj hj hi)
    exact ⟨h.live j b ((hother b j hne).mp hj), hne⟩

/-- A holder hands what it holds to one that has nothing. -/
theorem move (h : Exclusive held live) {i j : ι} (hij : i ≠ j) (hj : held j = none) :
    Exclusive (Function.update (Function.update held i none) j (held i)) live := by
  cases hi : held i with
  | none =>
    rw [← hi, Function.update_eq_self, hi, ← hj, Function.update_eq_self]
    exact h
  | some a =>
    have hj' : Function.update held i none j = none := by rw [Function.update_of_ne hij.symm, hj]
    have hmoved := (h.release hi).acquire hj' (a := a) fun hlive => hlive.2 rfl
    refine ⟨fun b hb => ?_, fun k b hk => ?_⟩
    · by_cases hba : b = a
      · exact hmoved.unique b (.inl hba)
      · exact hmoved.unique b (.inr ⟨hb, hba⟩)
    · rcases hmoved.live k b hk with rfl | hlive
      · exact h.live i b hi
      · exact hlive.1

end Exclusive

end Ownership
