-- SUMMARY: Every live address handle belongs to exactly one endpoint, and is destroyed exactly once.
import Mathlib.Data.List.Count
import KRCore.Base.Ownership
import KRCore.Base.Run
import KRCore.Verbs.AddressHandle

/-!
# Who owns the address handles

Any number of endpoints are created, moved with `transfer`, copied with `self_clone`,
bound to a protection domain and dropped, in any order, and the kernel may refuse any
address handle. The pool of the endpoints keeps a log of the handles that were created
and of those that were destroyed; an address may be used again for a later handle.
-/

/-- The address handle that an endpoint refers to. -/
def EndPoint.handle (e : EndPoint) : Option (BitVec 64) := if e.valid then some e.ah else none

namespace HandleOwnership

open Ownership (Exclusive)

/-! ## The pool -/

structure Pool where
  eps : Nat → Option EndPoint
  ahs : Ahs
  created : List (BitVec 64)
  destroyed : List (BitVec 64)

def Pool.empty : Pool where
  eps _ := none
  ahs _ := none
  created := []
  destroyed := []

/-- The operations on the endpoints, with what `rdma_create_ah` answers. `transfer` and
    `selfClone` go from an endpoint to a new one. -/
inductive Event where
  | new (i : Nat) (peer : EndPoint) (res : BitVec 64)
  | transfer (i j : Nat)
  | selfClone (i j : Nat)
  | bindPd (i : Nat) (res : BitVec 64)
  | drop (i : Nat)

/-- The endpoints of the operation are there or not there as it needs them, and the kernel
    answers with an error or a handle that is not in use. `bind_pd` may get the address of
    the handle that it has just destroyed. -/
def Pool.Enabled (p : Pool) : Event → Prop
  | .new i _ res => p.eps i = none ∧ (ptrIsErr res = false → p.ahs.Fresh res)
  | .transfer i j => (p.eps i).isSome = true ∧ p.eps j = none
  | .selfClone i j => (p.eps i).isSome = true ∧ p.eps j = none
  | .bindPd i res => ∃ e ∈ p.eps i, ptrIsErr res = false → res ≠ 0 ∧ (p.ahs res = none ∨ res = e.ah)
  | .drop i => (p.eps i).isSome = true

instance (p : Pool) : (ev : Event) → Decidable (p.Enabled ev)
  | .new .. => inferInstanceAs (Decidable (_ ∧ _))
  | .transfer .. => inferInstanceAs (Decidable (_ ∧ _))
  | .selfClone .. => inferInstanceAs (Decidable (_ ∧ _))
  | .bindPd i res => inferInstanceAs (Decidable (∃ e ∈ p.eps i, ptrIsErr res = false →
      res ≠ 0 ∧ (p.ahs res = none ∨ res = e.ah)))
  | .drop .. => inferInstanceAs (Decidable (_ = _))

/-- What a `create_ib_ah` adds to the log. -/
def createdBy (res : BitVec 64) : List (BitVec 64) := if ptrIsErr res then [] else [res]

/-- What the code does; `none` when it destroys a handle that is not alive. -/
def Pool.run (p : Pool) : Event → Option Pool
  | .new i peer res =>
    let (ah, ahs) := createIbAh p.ahs res peer.lid peer.gid
    some
      { p with
        eps := Function.update p.eps i (some (peer.new ah)), ahs
        created := createdBy res ++ p.created }
  | .transfer i j => do
    let (moved, left) := (← p.eps i).transfer
    some { p with eps := Function.update (Function.update p.eps i (some left)) j (some moved) }
  | .selfClone i j => do
    let e ← p.eps i
    some { p with eps := Function.update p.eps j (some e.selfClone) }
  | .bindPd i res => do
    let e ← p.eps i
    let (bound, ahs) ← e.bindPd p.ahs res
    some
      { eps := Function.update p.eps i (some bound), ahs
        created := createdBy res ++ p.created
        destroyed := e.handle.toList ++ p.destroyed }
  | .drop i => do
    let e ← p.eps i
    let ahs ← e.drop p.ahs
    some
      { p with
        eps := Function.update p.eps i none, ahs
        destroyed := e.handle.toList ++ p.destroyed }

def Pool.step (p : Pool) (ev : Event) : Option Pool := if p.Enabled ev then p.run ev else none

/-- Each live handle is referenced by exactly one endpoint, no endpoint refers to a destroyed
    handle, and of the handles created at an address all but the live one were destroyed. -/
structure Owned (p : Pool) : Prop where
  unique : ∀ a, (p.ahs a).isSome = true → ∃! i, ∃ e, p.eps i = some e ∧ e.ah = a
  alive : ∀ i e, p.eps i = some e → e.valid = true → (p.ahs e.ah).isSome = true
  once : ∀ a, p.created.count a = p.destroyed.count a + if (p.ahs a).isSome then 1 else 0

/-! ## What the functions do -/

theorem handle_eq_some {e : EndPoint} {a : BitVec 64} : e.handle = some a ↔ a ≠ 0 ∧ e.ah = a := by
  unfold EndPoint.handle EndPoint.valid
  by_cases h : e.ah = 0
  · simp only [h, ne_eq, not_true_eq_false, decide_false, Bool.false_eq_true, if_false]
    exact iff_of_false nofun fun hne => hne.1 hne.2.symm
  · simp only [h, ne_eq, not_false_eq_true, decide_true, if_true, Option.some.injEq]
    exact ⟨fun heq => ⟨fun hz => h (heq.trans hz), heq⟩, fun heq => heq.2⟩

@[simp] theorem handle_of_null {e : EndPoint} (h : e.ah = 0) : e.handle = none := by
  simp [EndPoint.handle, EndPoint.valid, h]

/-- A drop does nothing to an endpoint without a handle, and destroys the handle otherwise. -/
theorem drop_eq_some {e : EndPoint} {ahs ahs' : Ahs} (h : e.drop ahs = some ahs') :
    (e.handle = none ∧ ahs' = ahs) ∨
      ∃ a, e.handle = some a ∧ (ahs a).isSome = true ∧ ahs' = Function.update ahs a none := by
  unfold EndPoint.drop EndPoint.handle at *
  split at h
  · rename_i hvalid
    rw [rdmaDestroyAh, Option.ite_none_right_eq_some, Option.some.injEq] at h
    exact .inr ⟨e.ah, if_pos hvalid, h.1, h.2.symm⟩
  · rename_i hvalid
    exact .inl ⟨if_neg hvalid, (Option.some.inj h).symm⟩

theorem drop_isSome_of {e : EndPoint} {ahs : Ahs}
    (h : ∀ a, e.handle = some a → (ahs a).isSome = true) : (e.drop ahs).isSome = true := by
  unfold EndPoint.drop EndPoint.handle at *
  split
  · rename_i hvalid
    rw [rdmaDestroyAh, if_pos (h e.ah (if_pos hvalid))]
    rfl
  · rfl

/-! ## The steps -/

/-- The invariant, over what the endpoints hold. -/
structure Ledger {ι : Type} (held : ι → Option (BitVec 64)) (ahs : Ahs)
    (created destroyed : List (BitVec 64)) : Prop where
  exclusive : Exclusive held fun a => (ahs a).isSome = true
  null : ahs 0 = none
  once : ∀ a, created.count a = destroyed.count a + if (ahs a).isSome then 1 else 0

namespace Ledger

variable {ι : Type} [DecidableEq ι] {held : ι → Option (BitVec 64)} {ahs : Ahs}
  {created destroyed : List (BitVec 64)}

omit [DecidableEq ι] in
/-- No drop of a holder faults. -/
theorem drop_isSome (h : Ledger held ahs created destroyed) {i : ι} {e : EndPoint}
    (hi : held i = e.handle) : (e.drop ahs).isSome = true :=
  drop_isSome_of fun a ha => h.exclusive.live i a (hi.trans ha)

/-- An endpoint is dropped. -/
theorem drop (h : Ledger held ahs created destroyed) {i : ι} {e : EndPoint} {ahs' : Ahs}
    (hi : held i = e.handle) (hdrop : e.drop ahs = some ahs') :
    Ledger (Function.update held i none) ahs' created (e.handle.toList ++ destroyed) := by
  rcases drop_eq_some hdrop with ⟨hnone, rfl⟩ | ⟨a, ha, halive, rfl⟩
  · have hkeep : Function.update held i none = held := by
      rw [← hi.trans hnone, Function.update_eq_self]
    rw [hnone, hkeep]
    exact h
  · refine ⟨?_, ?_, fun b => ?_⟩
    · have hrel := h.exclusive.release (hi.trans ha)
      refine ⟨fun b hb => hrel.unique b ?_, fun j b hj => ?_⟩
      · by_cases hba : b = a
        · simp [hba] at hb
        · rw [Function.update_of_ne hba] at hb
          exact ⟨hb, hba⟩
      · obtain ⟨hb, hba⟩ := hrel.live j b hj
        rw [Function.update_of_ne hba]
        exact hb
    · by_cases hzero : a = 0
      · simp [hzero]
      · rw [Function.update_of_ne (Ne.symm hzero)]
        exact h.null
    · rw [ha, h.once b]
      by_cases hba : b = a
      · subst hba
        simp [halive]
      · simp [Function.update_of_ne hba, List.count_cons_of_ne (Ne.symm hba)]

/-- An endpoint without a handle is given what `create_ib_ah` returns. -/
theorem create (h : Ledger held ahs created destroyed) {i : ι} (hi : held i = none)
    {res : BitVec 64} (hfresh : ptrIsErr res = false → ahs.Fresh res) (e : EndPoint) :
    Ledger (Function.update held i (e.new (createIbAh ahs res e.lid e.gid).1).handle)
      (createIbAh ahs res e.lid e.gid).2 (createdBy res ++ created) destroyed := by
  cases herr : ptrIsErr res with
  | true =>
    rw [createIbAh_of_err herr, createdBy, if_pos herr, handle_of_null rfl, ← hi,
      Function.update_eq_self]
    exact h
  | false =>
    obtain ⟨hres, hnew⟩ := hfresh herr
    have hhandle : (e.new res).handle = some res := handle_eq_some.mpr ⟨hres, rfl⟩
    rw [createIbAh_of_ok herr, createdBy, if_neg (by simp [herr]), hhandle]
    dsimp only
    refine ⟨?_, ?_, fun b => ?_⟩
    · have hacq := h.exclusive.acquire hi (a := res) (by simp [hnew])
      refine ⟨fun b hb => hacq.unique b ?_, fun j b hj => ?_⟩
      · by_cases hba : b = res
        · exact .inl hba
        · rw [Function.update_of_ne hba] at hb
          exact .inr hb
      · by_cases hba : b = res
        · simp [hba]
        · rw [Function.update_of_ne hba]
          exact (hacq.live j b hj).resolve_left hba
    · rw [Function.update_of_ne (Ne.symm hres)]
      exact h.null
    · rw [List.singleton_append]
      by_cases hba : b = res
      · subst hba
        have := h.once b
        rw [hnew] at this
        simpa using this
      · rw [List.count_cons_of_ne (Ne.symm hba), Function.update_of_ne hba]
        exact h.once b

end Ledger

/-- What the endpoint number `i` of a pool holds. -/
def Pool.held (p : Pool) : Nat → Option (BitVec 64) := (Option.bind · EndPoint.handle) ∘ p.eps

def Pool.Ledger (p : Pool) : Prop := HandleOwnership.Ledger p.held p.ahs p.created p.destroyed

theorem held_eq {p : Pool} {i : Nat} {e : EndPoint} (h : p.eps i = some e) :
    p.held i = e.handle := by
  simp [Pool.held, h]

theorem held_eq_none {p : Pool} {i : Nat} (h : p.eps i = none) : p.held i = none := by
  simp [Pool.held, h]

theorem held_update (eps : Nat → Option EndPoint) (i : Nat) (v : Option EndPoint) :
    (Option.bind · EndPoint.handle) ∘ Function.update eps i v =
      Function.update ((Option.bind · EndPoint.handle) ∘ eps) i (v.bind EndPoint.handle) :=
  Function.comp_update _ _ _ _

theorem ledger_empty : Pool.empty.Ledger where
  exclusive :=
    ⟨fun _ h => (Bool.false_ne_true h).elim, fun _ _ h => (Option.some_ne_none _ h.symm).elim⟩
  null := rfl
  once _ := rfl

theorem Pool.Ledger.new {p : Pool} (h : p.Ledger) {i : Nat} {peer : EndPoint} {res : BitVec 64}
    (hev : p.Enabled (.new i peer res)) :
    ∃ p', p.run (.new i peer res) = some p' ∧ p'.Ledger := by
  obtain ⟨hfree, hfresh⟩ := hev
  refine ⟨_, rfl, ?_⟩
  unfold Pool.Ledger Pool.held
  rw [held_update]
  exact HandleOwnership.Ledger.create h (held_eq_none hfree) hfresh peer

theorem Pool.Ledger.transfer {p : Pool} (h : p.Ledger) {i j : Nat}
    (hev : p.Enabled (.transfer i j)) : ∃ p', p.run (.transfer i j) = some p' ∧ p'.Ledger := by
  obtain ⟨hsome, hfree⟩ := hev
  obtain ⟨e, he⟩ := Option.isSome_iff_exists.mp hsome
  have hij : i ≠ j := by
    rintro rfl
    rw [hfree] at he
    cases he
  refine ⟨_, by rw [Pool.run, he]; rfl, ?_⟩
  have hmove := h.exclusive.move hij (held_eq_none hfree)
  rw [held_eq he] at hmove
  refine ⟨?_, h.null, h.once⟩
  rw [Pool.held, held_update, held_update]
  exact hmove

theorem Pool.Ledger.selfClone {p : Pool} (h : p.Ledger) {i j : Nat}
    (hev : p.Enabled (.selfClone i j)) : ∃ p', p.run (.selfClone i j) = some p' ∧ p'.Ledger := by
  obtain ⟨hsome, hfree⟩ := hev
  obtain ⟨e, he⟩ := Option.isSome_iff_exists.mp hsome
  refine ⟨_, by rw [Pool.run, he]; rfl, ?_⟩
  unfold Pool.Ledger Pool.held
  rw [held_update]
  have hclone : (some e.selfClone).bind EndPoint.handle = none := handle_of_null rfl
  have hkeep : Function.update p.held j none = p.held := by
    rw [← held_eq_none hfree, Function.update_eq_self]
  rw [hclone]
  exact hkeep ▸ h

theorem Pool.Ledger.bindPd {p : Pool} (h : p.Ledger) {i : Nat} {res : BitVec 64}
    (hev : p.Enabled (.bindPd i res)) : ∃ p', p.run (.bindPd i res) = some p' ∧ p'.Ledger := by
  obtain ⟨e, he, hfresh⟩ := hev
  have hi := held_eq he
  obtain ⟨ahs, hdrop⟩ := Option.isSome_iff_exists.mp (HandleOwnership.Ledger.drop_isSome h hi)
  have hdropped := HandleOwnership.Ledger.drop h hi hdrop
  -- The address that was just given up is free again.
  have hfresh' : ptrIsErr res = false → ahs.Fresh res := by
    intro herr
    obtain ⟨hres, hfree⟩ := hfresh herr
    refine ⟨hres, ?_⟩
    have := @EndPoint.drop_isSome e p.ahs ahs res hres hdrop
    rcases hfree with hfree | hsame
    · rw [← Option.not_isSome_iff_eq_none, this, hfree]
      exact fun hand => Bool.false_ne_true hand.1
    · rw [← Option.not_isSome_iff_eq_none, this]
      exact fun hand => hand.2 hsame
  have hcreated := hdropped.create (Function.update_self i none p.held) hfresh' e
  rw [Function.update_idem] at hcreated
  refine ⟨_, by rw [Pool.run, he]; simp only [Option.bind_eq_bind, Option.bind_some,
    EndPoint.bindPd, hdrop, Option.map_some]; rfl, ?_⟩
  unfold Pool.Ledger Pool.held
  rw [held_update]
  exact hcreated

theorem Pool.Ledger.drop {p : Pool} (h : p.Ledger) {i : Nat} (hev : p.Enabled (.drop i)) :
    ∃ p', p.run (.drop i) = some p' ∧ p'.Ledger := by
  obtain ⟨e, he⟩ := Option.isSome_iff_exists.mp hev
  have hi := held_eq he
  obtain ⟨ahs, hdrop⟩ := Option.isSome_iff_exists.mp (HandleOwnership.Ledger.drop_isSome h hi)
  refine ⟨_, by rw [Pool.run, he]; simp only [Option.bind_eq_bind, Option.bind_some, hdrop]; rfl,
    ?_⟩
  unfold Pool.Ledger Pool.held
  rw [held_update]
  exact HandleOwnership.Ledger.drop h hi hdrop

/-- An operation that can happen does not fault, and keeps the invariant. -/
theorem Pool.Ledger.run {p : Pool} (h : p.Ledger) {ev : Event} (hev : p.Enabled ev) :
    ∃ p', p.run ev = some p' ∧ p'.Ledger := by
  cases ev with
  | new i peer res => exact h.new hev
  | transfer i j => exact h.transfer hev
  | selfClone i j => exact h.selfClone hev
  | bindPd i res => exact h.bindPd hev
  | drop i => exact h.drop hev

theorem Pool.Ledger.step {p p' : Pool} {ev : Event} (h : p.Ledger) (hstep : p.step ev = some p') :
    p'.Ledger := by
  rw [Pool.step, Option.ite_none_right_eq_some] at hstep
  obtain ⟨q, hq, hledger⟩ := h.run hstep.1
  rw [hstep.2] at hq
  cases hq
  exact hledger

/-- The invariant in terms of the endpoints. -/
theorem Pool.Ledger.owned {p : Pool} (h : p.Ledger) : Owned p := by
  have hheld : ∀ a, (p.ahs a).isSome = true → ∀ i,
      (p.held i = some a ↔ ∃ e, p.eps i = some e ∧ e.ah = a) := by
    intro a ha i
    have hne : a ≠ 0 := by
      rintro rfl
      rw [h.null] at ha
      cases ha
    simp only [Pool.held, Function.comp_apply, Option.bind_eq_some_iff, handle_eq_some, hne, ne_eq,
      not_false_eq_true, true_and]
  refine ⟨fun a ha => ?_, fun i e he hvalid => ?_, h.once⟩
  · simp only [← hheld a ha]
    exact h.exclusive.unique a ha
  · refine h.exclusive.live i e.ah ?_
    rw [held_eq he, EndPoint.handle, if_pos hvalid]

/-- For every sequence of operations on any number of endpoints, with the creation of handles
    failing arbitrarily: at every moment each live handle is referenced by exactly one endpoint
    and no endpoint refers to a destroyed one, so that no operation destroys a handle twice;
    and once all endpoints are dropped, every handle created has been destroyed exactly once. -/
theorem endpoint_handles_owned (evs : List Event) (p : Pool)
    (h : Run.exec Pool.step Pool.empty evs = some p) :
    Owned p ∧ (∀ ev, p.Enabled ev → (p.step ev).isSome = true) ∧
      ((∀ i, p.eps i = none) →
        (∀ a, p.ahs a = none) ∧ ∀ a, p.destroyed.count a = p.created.count a) := by
  have hledger : p.Ledger :=
    Run.exec_invariant (fun s ev s' hs hstep => hs.step hstep) ledger_empty h
  refine ⟨hledger.owned, fun ev hev => ?_, fun hnone => ?_⟩
  · obtain ⟨q, hq, -⟩ := hledger.run hev
    rw [Pool.step, if_pos hev, hq]
    rfl
  · have hdead : ∀ a, p.ahs a = none := fun a => Option.not_isSome_iff_eq_none.mp
      (hledger.exclusive.not_live_of_forall (fun i => held_eq_none (hnone i)) a)
    refine ⟨hdead, fun a => ?_⟩
    have honce := hledger.once a
    rw [hdead a] at honce
    exact honce.symm

/-- An endpoint is created, moved and bound again, which gets the same address; its clone is
    bound in vain; all three are dropped. -/
def sampleEvents : List Event :=
  [.new 0 default 4096, .transfer 0 1, .bindPd 1 4096, .selfClone 1 2, .bindPd 2 (-12), .drop 0,
    .drop 1, .drop 2]

/-- The handle that is created twice at one address is destroyed twice. -/
theorem endpoint_handles_sample :
    ∃ p, Run.exec Pool.step Pool.empty sampleEvents = some p ∧ Owned p ∧
      p.destroyed = [4096, 4096] := by
  obtain ⟨p, hp, hdestroyed⟩ : ∃ p, Run.exec Pool.step Pool.empty sampleEvents = some p ∧
      p.destroyed = [4096, 4096] := ⟨_, rfl, rfl⟩
  exact ⟨p, hp, (endpoint_handles_owned sampleEvents p hp).1, hdestroyed⟩

end HandleOwnership
