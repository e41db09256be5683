-- SUMMARY: Send queues whose slots are reclaimed through signalled requests only, when a full queue is stuck, and which polls free it.
import Mathlib.Data.List.Basic
import Mathlib.Logic.Function.Iterate
import KRCore.Base.Run

/-!
# Send queues

A send queue is the list of its unreclaimed requests, oldest first; of each only
matters whether it is signalled. Only signalled requests complete visibly, in
order, and polling a completion reclaims that request and all older ones. How many
unsignalled requests stand behind the last signalled one depends on what has been
posted alone: no poll changes it. A poller that goes over several queues in order
gets to the completions of each of them, if nothing more is posted.
-/

namespace SendQueue

/-- Poll the oldest completion: it reclaims the first signalled request and what stands
    before it. -/
def poll : List Bool → Option (List Bool)
  | [] => none
  | true :: q => some q
  | false :: q => poll q

/-- The number of unsignalled requests at the end of a queue, if `n` stand before it. -/
def unsignaledFrom : Nat → List Bool → Nat
  | n, [] => n
  | _, true :: q => unsignaledFrom 0 q
  | n, false :: q => unsignaledFrom (n + 1) q

def unsignaled (q : List Bool) : Nat := unsignaledFrom 0 q

/-- A queue that is full has a request whose completion can be polled. -/
def Drainable (max : Nat) (q : List Bool) : Prop := q.length = max → (poll q).isSome = true

theorem poll_isSome_iff (q : List Bool) : (poll q).isSome = true ↔ true ∈ q := by
  induction q with
  | nil => simp [poll]
  | cons b q ih =>
    cases b with
    | true => simp [poll]
    | false => simpa [poll] using ih

theorem poll_length_lt {q q' : List Bool} (h : poll q = some q') : q'.length < q.length := by
  induction q with
  | nil => cases h
  | cons b q ih =>
    cases b with
    | true =>
      cases h
      exact Nat.lt_succ_self _
    | false => exact Nat.lt_succ_of_lt (ih h)

/-! ## Unsignalled requests -/

theorem unsignaledFrom_append (n : Nat) (q q' : List Bool) :
    unsignaledFrom n (q ++ q') = unsignaledFrom (unsignaledFrom n q) q' := by
  induction q generalizing n with
  | nil => rfl
  | cons b q ih =>
    cases b with
    | true => exact ih 0
    | false => exact ih (n + 1)

/-- A poll does not change what stands behind the last signalled request. -/
theorem unsignaledFrom_of_poll {q q' : List Bool} (h : poll q = some q') (n : Nat) :
    unsignaledFrom n q = unsignaled q' := by
  induction q generalizing n with
  | nil => cases h
  | cons b q ih =>
    cases b with
    | true =>
      cases h
      rfl
    | false => exact ih h (n + 1)

theorem unsignaledFrom_of_not_mem {q : List Bool} (h : true ∉ q) (n : Nat) :
    unsignaledFrom n q = n + q.length := by
  induction q generalizing n with
  | nil => rfl
  | cons b q ih =>
    cases b with
    | true => exact absurd List.mem_cons_self h
    | false =>
      have hrest := ih (fun hmem => h (List.mem_cons_of_mem _ hmem)) (n + 1)
      rw [List.length_cons]
      exact hrest.trans (by omega)

theorem unsignaledFrom_le (n : Nat) (q : List Bool) : unsignaledFrom n q ≤ n + q.length := by
  induction q generalizing n with
  | nil => exact Nat.le_refl n
  | cons b q ih =>
    rw [List.length_cons]
    cases b with
    | true => exact (ih 0).trans (by omega)
    | false => exact (ih (n + 1)).trans (by omega)

theorem unsignaledFrom_lt_of_mem {q : List Bool} (h : true ∈ q) (n : Nat) :
    unsignaledFrom n q < q.length := by
  induction q generalizing n with
  | nil => cases h
  | cons b q ih =>
    rw [List.length_cons]
    cases b with
    | true =>
      have := unsignaledFrom_le 0 q
      change unsignaledFrom 0 q < q.length + 1
      omega
    | false =>
      rcases List.mem_cons.mp h with hhead | hmem
      · cases hhead
      · exact Nat.lt_succ_of_lt (ih hmem (n + 1))

/-- Signalled requests do not add to it. -/
theorem unsignaledFrom_le_of_signaled {q : List Bool} (h : ∀ b ∈ q, b = true) (n : Nat) :
    unsignaledFrom n q ≤ n := by
  cases q with
  | nil => exact Nat.le_refl n
  | cons b q =>
    have hrest : unsignaledFrom 0 q ≤ 0 := by
      clear n
      induction q with
      | nil => exact Nat.le_refl 0
      | cons b' q ih =>
        rw [h b' (List.mem_cons_of_mem _ List.mem_cons_self)]
        refine ih fun x hx => h x ?_
        rcases List.mem_cons.mp hx with rfl | hx
        · exact List.mem_cons_self
        · exact List.mem_cons_of_mem _ (List.mem_cons_of_mem _ hx)
    rw [h b List.mem_cons_self]
    exact hrest.trans (Nat.zero_le n)

/-- A queue within its bound can be drained exactly if fewer requests than fit stand
    behind the last signalled one. -/
theorem drainable_iff {max : Nat} {q : List Bool} (h : q.length ≤ max) :
    Drainable max q ↔ unsignaled q < max := by
  rw [Drainable, poll_isSome_iff]
  constructor
  · intro hdrain
    by_cases hfull : q.length = max
    · exact hfull ▸ unsignaledFrom_lt_of_mem (hdrain hfull) 0
    · have := unsignaledFrom_le 0 q
      unfold unsignaled
      omega
  · intro hlt hfull
    by_contra hmem
    have := unsignaledFrom_of_not_mem hmem 0
    unfold unsignaled at hlt
    omega

/-! ## Requests that come in blocks -/

/-- A sequence of requests that keeps the number of unsignalled ones at `m` or below. -/
def Keeps (m : Nat) (q : List Bool) : Prop := ∀ n, n ≤ m → unsignaledFrom n q ≤ m

theorem Keeps.nil (m : Nat) : Keeps m [] := fun _ h => h

theorem Keeps.append {m : Nat} {q q' : List Bool} (h : Keeps m q) (h' : Keeps m q') :
    Keeps m (q ++ q') := by
  intro n hn
  rw [unsignaledFrom_append]
  exact h' _ (h n hn)

/-- A block that starts with a signalled request. -/
theorem Keeps.block {m : Nat} {q : List Bool} (h : q.length ≤ m) : Keeps m (true :: q) := by
  intro n _
  have := unsignaledFrom_le 0 q
  change unsignaledFrom 0 q ≤ m
  omega

/-! ## Several queues -/

section Queues

variable {κ : Type*} [DecidableEq κ]

inductive Op (κ : Type*) where
  | post (k : κ) (signaled : Bool)
  | poll (k : κ)
  deriving DecidableEq

/-- A request is accepted while there is room; a completion is found if there is one. -/
def apply (max : κ → Nat) (s : κ → List Bool) : Op κ → Option (κ → List Bool)
  | .post k signaled =>
    if (s k).length < max k then some (Function.update s k (s k ++ [signaled])) else none
  | .poll k => (poll (s k)).map (Function.update s k)

/-- What is posted to queue `k`. -/
def posted (k : κ) : List (Op κ) → List Bool
  | [] => []
  | .post k' signaled :: ops => if k' = k then signaled :: posted k ops else posted k ops
  | .poll _ :: ops => posted k ops

variable {max : κ → Nat} {s s' : κ → List Bool} {ops : List (Op κ)}

theorem length_le_of_apply {op : Op κ} (h : ∀ k, (s k).length ≤ max k)
    (happly : apply max s op = some s') (k : κ) : (s' k).length ≤ max k := by
  cases op with
  | post k' signaled =>
    simp only [apply] at happly
    split at happly
    · rename_i hroom
      cases happly
      by_cases hk : k = k'
      · subst hk
        rw [Function.update_self, List.length_append]
        exact hroom
      · simpa [Function.update_of_ne hk] using h k
    · cases happly
  | poll k' =>
    simp only [apply, Option.map_eq_some_iff] at happly
    obtain ⟨q, hq, rfl⟩ := happly
    by_cases hk : k = k'
    · subst hk
      simpa using (Nat.le_of_lt (poll_length_lt hq)).trans (h k)
    · simpa [Function.update_of_ne hk] using h k

theorem length_le_of_exec (h : ∀ k, (s k).length ≤ max k)
    (hexec : Run.exec (apply max) s ops = some s') (k : κ) : (s' k).length ≤ max k :=
  Run.exec_invariant (I := fun s => ∀ k, (s k).length ≤ max k)
    (fun _ _ _ h happly => length_le_of_apply h happly) h hexec k

/-- The unsignalled requests at the end of a queue only depend on what is posted. -/
theorem unsignaled_of_exec (hexec : Run.exec (apply max) s ops = some s') (k : κ) :
    unsignaled (s' k) = unsignaledFrom (unsignaled (s k)) (posted k ops) := by
  induction ops generalizing s with
  | nil =>
    cases hexec
    rfl
  | cons op ops ih =>
    obtain ⟨s₁, happly, hrest⟩ := Run.exec_cons_eq_some.mp hexec
    rw [ih hrest]
    cases op with
    | post k' signaled =>
      simp only [apply] at happly
      split at happly
      · cases happly
        by_cases hk : k' = k
        · subst hk
          simp only [Function.update_self, posted, if_true, unsignaled, unsignaledFrom_append]
          cases signaled <;> rfl
        · simp only [Function.update_of_ne (Ne.symm hk), posted, if_neg hk]
      · cases happly
    | poll k' =>
      simp only [apply, Option.map_eq_some_iff] at happly
      obtain ⟨q, hq, rfl⟩ := happly
      by_cases hk : k = k'
      · subst hk
        rw [Function.update_self, ← unsignaledFrom_of_poll hq 0]
        rfl
      · rw [Function.update_of_ne hk]
        rfl

theorem posted_append (k : κ) (ops ops' : List (Op κ)) :
    posted k (ops ++ ops') = posted k ops ++ posted k ops' := by
  induction ops with
  | nil => rfl
  | cons op ops ih =>
    cases op with
    | post k' signaled =>
      simp only [List.cons_append, posted, ih]
      split <;> rfl
    | poll k' => exact ih

/-! ## What is left in one queue -/

/-- What a list of operations leaves of queue `k`. -/
def left (k : κ) : List Bool → List (Op κ) → List Bool
  | q, [] => q
  | q, .post k' signaled :: ops => left k (if k' = k then q ++ [signaled] else q) ops
  | q, .poll k' :: ops => left k (if k' = k then (poll q).getD [] else q) ops

theorem left_of_exec (hexec : Run.exec (apply max) s ops = some s') (k : κ) :
    left k (s k) ops = s' k := by
  induction ops generalizing s with
  | nil =>
    cases hexec
    rfl
  | cons op ops ih =>
    obtain ⟨s₁, happly, hrest⟩ := Run.exec_cons_eq_some.mp hexec
    rw [← ih hrest]
    cases op with
    | post k' signaled =>
      simp only [apply] at happly
      split at happly
      · cases happly
        by_cases hk : k' = k
        · subst hk
          rw [left, if_pos rfl, Function.update_self]
        · rw [left, if_neg hk, Function.update_of_ne (Ne.symm hk)]
      · cases happly
    | poll k' =>
      simp only [apply, Option.map_eq_some_iff] at happly
      obtain ⟨q, hq, rfl⟩ := happly
      by_cases hk : k' = k
      · subst hk
        rw [left, if_pos rfl, Function.update_self, hq, Option.getD_some]
      · rw [left, if_neg hk, Function.update_of_ne (Ne.symm hk)]

/-- One poll of somebody who goes over the queues `ks` in order and takes the first
    completion there is. -/
def pollFirst (ks : List κ) (s : κ → List Bool) : κ → List Bool :=
  match ks.find? fun k => (poll (s k)).isSome with
  | none => s
  | some k => Function.update s k ((poll (s k)).getD [])

@[simp] theorem pollFirst_nil (s : κ → List Bool) : pollFirst [] s = s := rfl

theorem pollFirst_cons (k : κ) (ks : List κ) (s : κ → List Bool) :
    pollFirst (k :: ks) s =
      if (poll (s k)).isSome then Function.update s k ((poll (s k)).getD [])
      else pollFirst ks s := by
  unfold pollFirst
  rw [List.find?_cons]
  cases (poll (s k)).isSome <;> rfl

theorem pollFirst_of_not_mem {ks : List κ} {k : κ} (hk : k ∉ ks) (s : κ → List Bool) :
    pollFirst ks s k = s k := by
  unfold pollFirst
  cases hfind : ks.find? fun k => (poll (s k)).isSome with
  | none => rfl
  | some k' =>
    have hne : k ≠ k' := fun heq => hk (heq ▸ List.mem_of_find?_eq_some hfind)
    exact Function.update_of_ne hne _ _

theorem pollFirst_iterate_of_not_mem {ks : List κ} {k : κ} (hk : k ∉ ks) (n : Nat)
    (s : κ → List Bool) : (pollFirst ks)^[n] s k = s k := by
  induction n generalizing s with
  | zero => rfl
  | succ n ih => rw [Function.iterate_succ_apply, ih, pollFirst_of_not_mem hk]

/-- All requests in the queues of a poller, which become fewer with every completion. -/
theorem flatMap_update_length {ks : List κ} {k : κ} {q : List Bool} (hq : q.length < (s k).length) :
    (ks.flatMap (Function.update s k q)).length ≤ (ks.flatMap s).length ∧
      (k ∈ ks → (ks.flatMap (Function.update s k q)).length < (ks.flatMap s).length) := by
  induction ks with
  | nil => exact ⟨Nat.le_refl _, fun hk => (List.not_mem_nil hk).elim⟩
  | cons k' ks ih =>
    simp only [List.flatMap_cons, List.length_append]
    by_cases heq : k' = k
    · subst heq
      rw [Function.update_self]
      exact ⟨by omega, fun _ => by omega⟩
    · rw [Function.update_of_ne heq]
      refine ⟨by omega, fun hmem => ?_⟩
      have := ih.2 ((List.mem_cons.mp hmem).resolve_left (Ne.symm heq))
      omega

/-- A poller gets to the completions of each of its queues, behind those that it finds
    before. -/
theorem exists_pollFirst_lt {ks : List κ} {k : κ} (hk : k ∈ ks) (s : κ → List Bool)
    (hpoll : (poll (s k)).isSome = true) :
    ∃ n, ((pollFirst ks)^[n] s k).length < (s k).length := by
  -- By induction on the requests in all of its queues.
  generalize hn : (ks.flatMap s).length = m
  induction m using Nat.strongRecOn generalizing s with
  | ind m ih =>
    have hsome : (ks.find? fun k => (poll (s k)).isSome).isSome = true :=
      List.find?_isSome.mpr ⟨k, hk, hpoll⟩
    obtain ⟨k', hfind⟩ := Option.isSome_iff_exists.mp hsome
    have hfound := List.find?_some hfind
    obtain ⟨q, hq⟩ := Option.isSome_iff_exists.mp hfound
    have hstep : pollFirst ks s = Function.update s k' q := by
      simp only [pollFirst, hfind, hq, Option.getD_some]
    by_cases heq : k' = k
    · subst heq
      refine ⟨1, ?_⟩
      rw [Function.iterate_one, hstep, Function.update_self]
      exact poll_length_lt hq
    · have hsame : Function.update s k' q k = s k := Function.update_of_ne (Ne.symm heq) _ _
      obtain ⟨n, hlt⟩ := ih _ (hn ▸ (flatMap_update_length (poll_length_lt hq)).2
        (List.mem_of_find?_eq_some hfind)) (Function.update s k' q) (by rw [hsame]; exact hpoll) rfl
      refine ⟨n + 1, ?_⟩
      rw [Function.iterate_succ_apply, hstep]
      rwa [hsame] at hlt

end Queues

end SendQueue
