-- SUMMARY: A computation behind a table of its results, and for which calls the table does not show.
import Mathlib.Data.List.Induction
import Mathlib.Logic.Function.Basic
import KRCore.Base.Run

/-!
# Memoisation

The results of a computation are kept in a table, under a key of the query, and given
out again. A call that finds nothing there may fail, and then nothing is kept. The
table is transparent if every result is the one that the computation would give.
`transparent_iff` says for every sequence of calls when it is.
-/

namespace Memo

/-- A call: the query, and the error if the computation fails this time. -/
structure Call (α ε : Type) where
  query : α
  fault : Option ε
deriving DecidableEq, Repr

/-- The table, and the calls so far with their results. -/
structure State (α β ε κ : Type) where
  table : κ → Option β
  log : List (Call α ε × Except ε β)

variable {α β ε κ : Type}

def State.empty : State α β ε κ := { table := fun _ => none, log := [] }

/-- The computation; `none` if it does not come to an end. -/
def compute (fresh : α → Option β) (c : Call α ε) : Option (Except ε β) :=
  match c.fault with
  | some e => some (.error e)
  | none => (fresh c.query).map .ok

/-- Every result that was given is the one that the computation gives. -/
def Transparent (fresh : α → Option β) (s : State α β ε κ) : Prop :=
  ∀ c y, (c, .ok y) ∈ s.log → fresh c.query = some y

/-- A query that has been computed has the same result as the later ones with its key. -/
def Consistent (key : α → κ) (fresh : α → Option β) (calls : List (Call α ε)) : Prop :=
  calls.Pairwise fun c c' =>
    key c.query = key c'.query → c.fault = none → fresh c.query = fresh c'.query

variable {key : α → κ} {fresh : α → Option β} {s s' : State α β ε κ} {c : Call α ε}

/-- A call with the given result of the computation. -/
def State.store [DecidableEq κ] (key : α → κ) (s : State α β ε κ) (c : Call α ε) :
    Except ε β → State α β ε κ
  | .error e => { s with log := s.log ++ [(c, .error e)] }
  | .ok y =>
    { table := Function.update s.table (key c.query) (some y), log := s.log ++ [(c, .ok y)] }

/-- A call: the computation is only done if there is nothing in the table. -/
def step [DecidableEq κ] (key : α → κ) (fresh : α → Option β) (s : State α β ε κ) (c : Call α ε) :
    Option (State α β ε κ) :=
  match s.table (key c.query) with
  | some y => some { s with log := s.log ++ [(c, .ok y)] }
  | none => (compute fresh c).map (s.store key c)

/-! ## One call -/

/-- What a call with result `r` does to the table. -/
structure Answered (key : α → κ) (fresh : α → Option β) (s : State α β ε κ) (c : Call α ε)
    (s' : State α β ε κ) (r : Except ε β) : Prop where
  log : s'.log = s.log ++ [(c, r)]
  hit : ∀ y, s.table (key c.query) = some y → r = .ok y
  result : c.fault = none → ∃ y, r = .ok y
  stored : ∀ y, r = .ok y → s'.table (key c.query) = some y
  kept : ∀ k y, s.table k = some y → s'.table k = some y
  origin : ∀ k y, s'.table k = some y →
    s.table k = some y ∨ (k = key c.query ∧ c.fault = none ∧ fresh c.query = some y)

theorem answered_hit {y : β} (hhit : s.table (key c.query) = some y) :
    Answered key fresh s c { s with log := s.log ++ [(c, .ok y)] } (.ok y) where
  log := rfl
  hit y' hy' := by
    rw [hhit, Option.some.injEq] at hy'
    rw [hy']
  result _ := ⟨y, rfl⟩
  stored y' hy' := by
    cases hy'
    exact hhit
  kept _ _ hk := hk
  origin _ _ hk := .inl hk

theorem answered_error [DecidableEq κ] {e : ε} (hmiss : s.table (key c.query) = none)
    (hfault : c.fault = some e) :
    Answered key fresh s c (s.store key c (.error e)) (.error e) where
  log := rfl
  hit y hy := by
    rw [hmiss] at hy
    cases hy
  result hnone := by
    rw [hfault] at hnone
    cases hnone
  stored y hy := by cases hy
  kept _ _ hk := hk
  origin _ _ hk := .inl hk

theorem answered_ok [DecidableEq κ] {y : β} (hmiss : s.table (key c.query) = none)
    (hfault : c.fault = none) (hfresh : fresh c.query = some y) :
    Answered key fresh s c (s.store key c (.ok y)) (.ok y) where
  log := rfl
  hit y' hy' := by
    rw [hmiss] at hy'
    cases hy'
  result _ := ⟨y, rfl⟩
  stored y' hy' := by
    cases hy'
    exact Function.update_self ..
  kept k y' hk := by
    have hne : k ≠ key c.query := by
      rintro rfl
      rw [hmiss] at hk
      cases hk
    exact (Function.update_of_ne hne ..).trans hk
  origin k y' hk := by
    by_cases heq : k = key c.query
    · subst heq
      simp only [State.store, Function.update_self] at hk
      exact .inr ⟨rfl, hfault, hfresh.trans hk⟩
    · simp only [State.store, Function.update_of_ne heq] at hk
      exact .inl hk

theorem step_answered [DecidableEq κ] (h : step key fresh s c = some s') :
    ∃ r, Answered key fresh s c s' r := by
  unfold step at h
  split at h
  · rename_i y hhit
    cases h
    exact ⟨.ok y, answered_hit hhit⟩
  · rename_i hmiss
    obtain ⟨r, hr, rfl⟩ := Option.map_eq_some_iff.mp h
    unfold compute at hr
    split at hr
    · rename_i e hfault
      cases hr
      exact ⟨.error e, answered_error hmiss hfault⟩
    · rename_i hfault
      obtain ⟨y, hfresh, rfl⟩ := Option.map_eq_some_iff.mp hr
      exact ⟨.ok y, answered_ok hmiss hfault hfresh⟩

/-- What is in the table has been computed by a call before, the results that were given are
    in the table, and a call without a fault has a result. -/
structure Inv (key : α → κ) (fresh : α → Option β) (s : State α β ε κ) : Prop where
  origin : ∀ k y, s.table k = some y →
    ∃ c r, (c, r) ∈ s.log ∧ c.fault = none ∧ key c.query = k ∧ fresh c.query = some y
  stored : ∀ c y, (c, .ok y) ∈ s.log → s.table (key c.query) = some y
  result : ∀ c r, (c, r) ∈ s.log → c.fault = none → ∃ y, r = .ok y

theorem Answered.mem_log {r r' : Except ε β} {c' : Call α ε} (h : Answered key fresh s c s' r) :
    (c', r') ∈ s'.log ↔ (c', r') ∈ s.log ∨ (c' = c ∧ r' = r) := by
  rw [h.log, List.mem_append, List.mem_singleton, Prod.mk.injEq]

theorem Inv.answered {r : Except ε β} (h : Inv key fresh s) (ha : Answered key fresh s c s' r) :
    Inv key fresh s' where
  origin k y hk := by
    rcases ha.origin k y hk with hold | ⟨rfl, hfault, hfresh⟩
    · obtain ⟨c', r', hmem, hrest⟩ := h.origin k y hold
      exact ⟨c', r', ha.mem_log.mpr (.inl hmem), hrest⟩
    · exact ⟨c, r, ha.mem_log.mpr (.inr ⟨rfl, rfl⟩), hfault, rfl, hfresh⟩
  stored c' y hmem := by
    rcases ha.mem_log.mp hmem with hmem | ⟨rfl, hr⟩
    · exact ha.kept _ y (h.stored c' y hmem)
    · exact ha.stored y hr.symm
  result c' r' hmem hfault := by
    rcases ha.mem_log.mp hmem with hmem | ⟨rfl, rfl⟩
    · exact h.result c' r' hmem hfault
    · exact ha.result hfault

/-- A call stays transparent exactly if the calls before it with its key agree with it. -/
theorem Answered.transparent_iff {r : Except ε β} (h : Inv key fresh s)
    (ha : Answered key fresh s c s' r) :
    Transparent fresh s' ↔ Transparent fresh s ∧
      ∀ c' r', (c', r') ∈ s.log → key c'.query = key c.query → c'.fault = none →
        fresh c'.query = fresh c.query := by
  constructor
  · intro htrans
    refine ⟨fun c' y hmem => htrans c' y (ha.mem_log.mpr (.inl hmem)), ?_⟩
    intro c' r' hmem hkey hfault
    obtain ⟨y, rfl⟩ := h.result c' r' hmem hfault
    have hstored := h.stored c' y hmem
    rw [hkey] at hstored
    have hr := ha.hit y hstored
    rw [htrans c' y (ha.mem_log.mpr (.inl hmem)),
      htrans c y (ha.mem_log.mpr (.inr ⟨rfl, hr.symm⟩))]
  · rintro ⟨htrans, hagree⟩ c' y hmem
    rcases ha.mem_log.mp hmem with hmem | ⟨rfl, hr⟩
    · exact htrans c' y hmem
    · rcases ha.origin _ y (ha.stored y hr.symm) with hold | ⟨-, -, hfresh⟩
      · obtain ⟨c₀, r₀, hmem₀, hfault, hkey, hfresh⟩ := h.origin _ y hold
        rw [← hagree c₀ r₀ hmem₀ hkey hfault, hfresh]
      · exact hfresh

/-! ## Sequences of calls -/

/-- After a sequence of calls the invariant holds, and all of them have been answered. -/
theorem exec_inv [DecidableEq κ] {calls : List (Call α ε)}
    (h : Run.exec (step key fresh) State.empty calls = some s) :
    Inv key fresh s ∧ s.log.map Prod.fst = calls := by
  induction calls using List.reverseRecOn generalizing s with
  | nil =>
    cases h
    exact ⟨⟨nofun, nofun, nofun⟩, rfl⟩
  | append_singleton calls c ih =>
    obtain ⟨s₁, hrun, hstep⟩ := Run.exec_concat_eq_some.mp h
    obtain ⟨hinv, hlog⟩ := ih hrun
    obtain ⟨r, ha⟩ := step_answered hstep
    refine ⟨hinv.answered ha, ?_⟩
    rw [ha.log, List.map_append, hlog]
    rfl

/-- For every sequence of calls: the table does not show if and only if the queries that have
    been computed agree with the later ones under the same key. -/
theorem transparent_iff [DecidableEq κ] {calls : List (Call α ε)}
    (h : Run.exec (step key fresh) State.empty calls = some s) :
    Transparent fresh s ↔ Consistent key fresh calls := by
  induction calls using List.reverseRecOn generalizing s with
  | nil =>
    cases h
    exact iff_of_true nofun List.Pairwise.nil
  | append_singleton calls c ih =>
    obtain ⟨s₁, hrun, hstep⟩ := Run.exec_concat_eq_some.mp h
    obtain ⟨hinv, hlog⟩ := exec_inv hrun
    obtain ⟨r, ha⟩ := step_answered hstep
    rw [ha.transparent_iff hinv, ih hrun, Consistent, Consistent, List.pairwise_append]
    simp only [List.pairwise_singleton, List.mem_singleton, forall_eq, true_and]
    refine and_congr_right fun _ => ?_
    constructor
    · intro hagree c' hmem
      rw [← hlog] at hmem
      obtain ⟨⟨c', r'⟩, hlogged, rfl⟩ := List.mem_map.mp hmem
      exact hagree c' r' hlogged
    · intro hagree c' r' hmem
      exact hagree c' (hlog ▸ List.mem_map_of_mem hmem)

end Memo
