-- SUMMARY: Runs of partial step functions: the states a run reaches, invariants, and runs whose steps all meet a condition.
import Mathlib.Data.List.Basic
import Mathlib.Data.List.Infix

/-!
# Runs

A system is a partial step function `step : σ → α → Option σ`: the event carries
every choice of the environment, and `none` means that the event cannot happen
in that state. A run is a list of events. `Always` and `Guarded` speak about
all states and all steps of a run, and `always_iff_guarded` says when a
condition on the steps is exactly what keeps a property of the states.
-/

namespace Run

variable {σ α : Type*} {step : σ → α → Option σ}

/-- Execute a list of events. A run stops with `none` at the first event that
    cannot happen. -/
def exec (step : σ → α → Option σ) : σ → List α → Option σ
  | s, [] => some s
  | s, a :: as => (step s a).bind fun s' => exec step s' as

@[simp] theorem exec_nil (s : σ) : exec step s [] = some s := rfl

@[simp] theorem exec_cons (s : σ) (a : α) (as : List α) :
    exec step s (a :: as) = (step s a).bind fun s' => exec step s' as := rfl

theorem exec_append (s : σ) (as bs : List α) :
    exec step s (as ++ bs) = (exec step s as).bind fun t => exec step t bs := by
  induction as generalizing s with
  | nil => simp
  | cons a as ih =>
    cases h : step s a with
    | none => simp [h]
    | some s' => simp [h, ih]

theorem exec_cons_eq_some {s t : σ} {a : α} {as : List α} :
    exec step s (a :: as) = some t ↔ ∃ s', step s a = some s' ∧ exec step s' as = some t := by
  simp [Option.bind_eq_some_iff]

theorem exec_concat_eq_some {s t : σ} {a : α} {as : List α} :
    exec step s (as ++ [a]) = some t ↔ ∃ s', exec step s as = some s' ∧ step s' a = some t := by
  simp [exec_append, Option.bind_eq_some_iff]

/-- What holds initially and is kept by every step holds at the end of every run. -/
theorem exec_invariant {I : σ → Prop} (hstep : ∀ s a s', I s → step s a = some s' → I s')
    {s t : σ} {as : List α} (hs : I s) (hrun : exec step s as = some t) : I t := by
  induction as generalizing s with
  | nil => cases hrun; exact hs
  | cons a as ih =>
    obtain ⟨s', ha, hrest⟩ := exec_cons_eq_some.mp hrun
    exact ih (hstep s a s' hs ha) hrest

/-- If `f` takes the steps of one system to steps of another one, it takes the runs to runs. -/
theorem exec_simulation {τ : Type*} {step' : τ → α → Option τ} {f : σ → τ}
    (hstep : ∀ s a s', step s a = some s' → step' (f s) a = some (f s')) {s t : σ} {as : List α}
    (hrun : exec step s as = some t) : exec step' (f s) as = some (f t) := by
  induction as generalizing s with
  | nil => cases hrun; rfl
  | cons a as ih =>
    obtain ⟨s', ha, hrest⟩ := exec_cons_eq_some.mp hrun
    exact exec_cons_eq_some.mpr ⟨f s', hstep s a s' ha, ih hrest⟩

/-- If related states take related steps, or both refuse the event, then runs from related
    states end in related states, or are both refused. -/
theorem exec_rel {τ : Type*} {step' : τ → α → Option τ} {R : σ → τ → Prop}
    (hstep : ∀ s t a, R s t → Option.Rel R (step s a) (step' t a)) {s : σ} {t : τ} (hR : R s t)
    (as : List α) : Option.Rel R (exec step s as) (exec step' t as) := by
  induction as generalizing s t with
  | nil => exact .some hR
  | cons a as ih =>
    rw [exec_cons, exec_cons]
    have h := hstep s t a hR
    generalize step s a = x at h ⊢
    generalize step' t a = y at h ⊢
    cases h with
    | none => exact .none
    | some hR' => exact ih hR'

/-- As `exec_invariant`, for the runs of events that satisfy `Q`. -/
theorem exec_invariant_of_forall {I : σ → Prop} {Q : α → Prop}
    (hstep : ∀ s a s', Q a → I s → step s a = some s' → I s') {s t : σ} {as : List α}
    (hall : ∀ a ∈ as, Q a) (hs : I s) (hrun : exec step s as = some t) : I t := by
  induction as generalizing s with
  | nil => cases hrun; exact hs
  | cons a as ih =>
    obtain ⟨s', ha, hrest⟩ := exec_cons_eq_some.mp hrun
    have hs' := hstep s a s' (hall a List.mem_cons_self) hs ha
    exact ih (fun b hb => hall b (List.mem_cons_of_mem a hb)) hs' hrest

/-! ## All states and all steps of a run -/

/-- `P` holds in every state that a prefix of the run reaches. -/
def Always (step : σ → α → Option σ) (P : σ → Prop) (s : σ) (as : List α) : Prop :=
  ∀ pre t, pre <+: as → exec step s pre = some t → P t

/-- Every step the run takes meets the condition `C` in the state it is taken from. -/
def Guarded (step : σ → α → Option σ) (C : σ → α → Prop) (s : σ) (as : List α) : Prop :=
  ∀ pre a t t', pre ++ [a] <+: as → exec step s pre = some t → step t a = some t' → C t a

theorem always_nil {P : σ → Prop} {s : σ} : Always step P s [] ↔ P s := by
  constructor
  · intro h
    exact h [] s List.prefix_rfl rfl
  · intro h pre t hpre hrun
    obtain rfl := List.prefix_nil.mp hpre
    cases hrun
    exact h

theorem always_cons {P : σ → Prop} {s : σ} {a : α} {as : List α} :
    Always step P s (a :: as) ↔ P s ∧ ∀ s', step s a = some s' → Always step P s' as := by
  constructor
  · intro h
    refine ⟨h [] s (List.nil_prefix) rfl, fun s' hs' pre t hpre hrun => ?_⟩
    exact h (a :: pre) t (List.cons_prefix_cons.mpr ⟨rfl, hpre⟩)
      (exec_cons_eq_some.mpr ⟨s', hs', hrun⟩)
  · rintro ⟨hs, hrest⟩ pre t hpre hrun
    cases pre with
    | nil => cases hrun; exact hs
    | cons b pre =>
      obtain ⟨rfl, htail⟩ := List.cons_prefix_cons.mp hpre
      obtain ⟨s', hs', hrun⟩ := exec_cons_eq_some.mp hrun
      exact hrest s' hs' pre t htail hrun

theorem guarded_nil {C : σ → α → Prop} {s : σ} : Guarded step C s [] := by
  intro pre a t t' hpre
  simp at hpre

theorem guarded_cons {C : σ → α → Prop} {s : σ} {a : α} {as : List α} :
    Guarded step C s (a :: as) ↔
      ∀ s', step s a = some s' → C s a ∧ Guarded step C s' as := by
  constructor
  · intro h s' hs'
    refine ⟨h [] a s s' (by simp) rfl hs', fun pre b t t' hpre hrun hb => ?_⟩
    exact h (a :: pre) b t t' (by simpa using hpre) (exec_cons_eq_some.mpr ⟨s', hs', hrun⟩) hb
  · intro h pre b t t' hpre hrun hb
    cases pre with
    | nil =>
      obtain ⟨rfl, -⟩ := List.cons_prefix_cons.mp hpre
      cases hrun
      exact (h t' hb).1
    | cons c pre =>
      obtain ⟨rfl, htail⟩ := List.cons_prefix_cons.mp hpre
      obtain ⟨s', hs', hrun⟩ := exec_cons_eq_some.mp hrun
      exact (h s' hs').2 pre b t t' htail hrun hb

theorem guarded_cons_of_step {C : σ → α → Prop} {s s' : σ} {a : α} {as : List α}
    (hs : step s a = some s') (hC : C s a) (h : Guarded step C s' as) :
    Guarded step C s (a :: as) := by
  rw [guarded_cons]
  intro t ht
  rw [hs] at ht
  cases ht
  exact ⟨hC, h⟩

/-- A run that is given can be checked. -/
def decidableGuarded {C : σ → α → Prop} [∀ s a, Decidable (C s a)] :
    ∀ (s : σ) (as : List α), Decidable (Guarded step C s as)
  | _, [] => .isTrue guarded_nil
  | s, a :: as =>
    match hs : step s a with
    | none => .isTrue (guarded_cons.mpr fun s' hs' => by rw [hs] at hs'; cases hs')
    | some s' =>
      have := decidableGuarded (C := C) s' as
      decidable_of_iff (C s a ∧ Guarded step C s' as)
        ⟨fun h => guarded_cons_of_step hs h.1 h.2, fun h => guarded_cons.mp h s' hs⟩

instance {C : σ → α → Prop} [∀ s a, Decidable (C s a)] (s : σ) (as : List α) :
    Decidable (Guarded step C s as) :=
  decidableGuarded s as

theorem Guarded.of_prefix {C : σ → α → Prop} {s : σ} {as bs : List α} (h : Guarded step C s bs)
    (hpre : as <+: bs) : Guarded step C s as :=
  fun pre a t t' hp => h pre a t t' (hp.trans hpre)

/-- A condition on the events alone. -/
theorem guarded_of_forall {C : σ → α → Prop} {s : σ} {as : List α} (h : ∀ a ∈ as, ∀ t, C t a) :
    Guarded step C s as := fun _ a t _ hpre _ _ =>
  h a (hpre.subset (List.mem_append_right _ List.mem_cons_self)) t

theorem guarded_congr {C D : σ → α → Prop}
    (h : ∀ s a s', step s a = some s' → (C s a ↔ D s a)) {s : σ} {as : List α} :
    Guarded step C s as ↔ Guarded step D s as :=
  ⟨fun hC pre a t t' hpre hrun hstep => (h t a t' hstep).mp (hC pre a t t' hpre hrun hstep),
    fun hD pre a t t' hpre hrun hstep => (h t a t' hstep).mpr (hD pre a t t' hpre hrun hstep)⟩

/-- If one step from a good state leads to a good state exactly when the step
    meets `C`, then a run stays good exactly when all its steps meet `C`. `I` is
    what the argument for one step may rely on; it is kept as long as the run
    stays good. Only runs whose steps all meet `D` are considered. -/
theorem always_iff_guarded_under {I P : σ → Prop} {C D : σ → α → Prop}
    (hinv : ∀ s a s', I s → D s a → step s a = some s' → P s' → I s')
    (hstep : ∀ s a s', I s → P s → D s a → step s a = some s' → (P s' ↔ C s a))
    {s : σ} (hI : I s) (hP : P s) {as : List α} (hD : Guarded step D s as) :
    Always step P s as ↔ Guarded step C s as := by
  induction as generalizing s with
  | nil => exact ⟨fun _ => guarded_nil, fun _ => always_nil.mpr hP⟩
  | cons a as ih =>
    rw [guarded_cons] at hD
    rw [always_cons, guarded_cons]
    constructor
    · rintro ⟨-, h⟩ s' hs'
      obtain ⟨hDs, hDrest⟩ := hD s' hs'
      have hP' : P s' := by
        cases as with
        | nil => exact always_nil.mp (h s' hs')
        | cons b bs => exact (always_cons.mp (h s' hs')).1
      exact ⟨(hstep s a s' hI hP hDs hs').mp hP',
        (ih (hinv s a s' hI hDs hs' hP') hP' hDrest).mp (h s' hs')⟩
    · intro h
      refine ⟨hP, fun s' hs' => ?_⟩
      obtain ⟨hC, hrest⟩ := h s' hs'
      obtain ⟨hDs, hDrest⟩ := hD s' hs'
      have hP' := (hstep s a s' hI hP hDs hs').mpr hC
      exact (ih (hinv s a s' hI hDs hs' hP') hP' hDrest).mpr hrest

/-- As `always_iff_guarded_under`, for all runs. -/
theorem always_iff_guarded {I P : σ → Prop} {C : σ → α → Prop}
    (hinv : ∀ s a s', I s → step s a = some s' → P s' → I s')
    (hstep : ∀ s a s', I s → P s → step s a = some s' → (P s' ↔ C s a))
    {s : σ} (hI : I s) (hP : P s) (as : List α) :
    Always step P s as ↔ Guarded step C s as :=
  always_iff_guarded_under (D := fun _ _ => True) (fun s a s' hI _ => hinv s a s' hI)
    (fun s a s' hI hP _ => hstep s a s' hI hP) hI hP (fun _ _ _ _ _ _ _ => trivial)

/-- What holds initially and is kept by the steps that meet a condition holds in
    every state of a run whose steps all meet it. -/
theorem always_of_guarded {I : σ → Prop} {C : σ → α → Prop}
    (hstep : ∀ s a s', I s → C s a → step s a = some s' → I s')
    {s : σ} {as : List α} (hI : I s) (h : Guarded step C s as) : Always step I s as := by
  induction as generalizing s with
  | nil => exact always_nil.mpr hI
  | cons a as ih =>
    rw [guarded_cons] at h
    refine always_cons.mpr ⟨hI, fun s' hs' => ?_⟩
    obtain ⟨hC, hrest⟩ := h s' hs'
    exact ih (hstep s a s' hI hC hs') hrest

/-- A condition that keeps `I` and, under `I`, implies `C` may stand for `C`. -/
theorem guarded_of_guarded {I : σ → Prop} {C D : σ → α → Prop}
    (hstep : ∀ s a s', I s → D s a → step s a = some s' → I s' ∧ C s a)
    {s : σ} {as : List α} (hI : I s) (h : Guarded step D s as) : Guarded step C s as := by
  induction as generalizing s with
  | nil => exact guarded_nil
  | cons a as ih =>
    rw [guarded_cons] at h ⊢
    intro s' hs'
    obtain ⟨hD, hrest⟩ := h s' hs'
    obtain ⟨hI', hC⟩ := hstep s a s' hI hD hs'
    exact ⟨hC, ih hI' hrest⟩

end Run
