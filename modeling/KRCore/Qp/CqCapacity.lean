-- SUMMARY: Completion queues and the queue pairs that report to them: when a completion queue has an entry for every outstanding request.
import Mathlib.Algebra.GroupWithZero.Nat
import Mathlib.Algebra.Order.BigOperators.Group.List
import Mathlib.Algebra.Order.Group.Nat
import Mathlib.Data.List.Basic
import KRCore.Base.Run

/-!
# The capacity of completion queues

A completion queue is created with a number of entries, and every queue pair that
reports to it may have up to `max_send_wr` or `max_recv_wr` requests outstanding. The
setters of `Config` keep the number of send requests below that of the entries of the
send CQ, and the number of receives below that of the entries of the receive CQ. But
a constructor may be given a receive CQ that others use too, and an RC without one
receives on its send CQ.
-/

namespace CqCapacity

/-! ## Configurations -/

/-- The fields of `Config` that size the queues. The setters keep the two bounds. -/
structure QpConfig where
  maxSendWrSz : Nat
  maxRecvWrSz : Nat
  maxCqe : Nat
  maxRecvCqe : Nat
  send_le : maxSendWrSz ≤ maxCqe
  recv_le : maxRecvWrSz ≤ maxRecvCqe

namespace QpConfig

/-- `Config::new`. -/
def new : QpConfig where
  maxSendWrSz := 2048
  maxRecvWrSz := 4096
  maxCqe := 2048
  maxRecvCqe := 4096
  send_le := Nat.le_refl 2048
  recv_le := Nat.le_refl 4096

def setMaxSendWrSz (cfg : QpConfig) (v : Nat) : QpConfig :=
  { cfg with maxSendWrSz := min cfg.maxCqe v, send_le := Nat.min_le_left _ _ }

def setMaxRecvWrSz (cfg : QpConfig) (v : Nat) : QpConfig :=
  { cfg with maxRecvWrSz := min cfg.maxRecvCqe v, recv_le := Nat.min_le_left _ _ }

def setMaxCqe (cfg : QpConfig) (v : Nat) : QpConfig :=
  { cfg with maxCqe := max cfg.maxSendWrSz v, send_le := Nat.le_max_left _ _ }

def setMaxRecvCqe (cfg : QpConfig) (v : Nat) : QpConfig :=
  { cfg with maxRecvCqe := max cfg.maxRecvWrSz v, recv_le := Nat.le_max_left _ _ }

end QpConfig

/-- A `usize` that is converted to `u32`. -/
def asU32 (x : Nat) : Nat := x % 4294967296

/-! ## Completion queues and queue pairs -/

/-- A completion queue: the number of entries that was asked for, and whether `create_dc_qp`
    has created it. -/
structure Cq where
  entries : Nat
  byDc : Bool
deriving DecidableEq, Repr

/-- A queue pair with the numbers of its completion queues. -/
structure QueuePair where
  sendCq : Nat
  recvCq : Nat
  maxSendWr : Nat
  maxRecvWr : Nat
deriving DecidableEq, Repr

/-- How many completions of a queue pair can be outstanding on completion queue `c`. -/
def QueuePair.demand (c : Nat) (qp : QueuePair) : Nat :=
  (if qp.sendCq = c then qp.maxSendWr else 0) + if qp.recvCq = c then qp.maxRecvWr else 0

/-- The completion queues that were created, and the queue pairs that are alive. -/
structure Queues where
  cqs : List Cq
  qps : List QueuePair
  attached : ∀ qp ∈ qps, qp.sendCq < cqs.length ∧ qp.recvCq < cqs.length

namespace Queues

def empty : Queues := ⟨[], [], fun _ h => (List.not_mem_nil h).elim⟩

/-- The requests that the queue pairs on completion queue `c` can have outstanding. -/
def demand (s : Queues) (c : Nat) : Nat := (s.qps.map (QueuePair.demand c)).sum

def createCq (s : Queues) (entries : Nat) (byDc : Bool) : Queues where
  cqs := s.cqs ++ [{ entries, byDc }]
  qps := s.qps
  attached qp hqp := by
    have := s.attached qp hqp
    simp only [List.length_append, List.length_singleton]
    omega

def createQp (s : Queues) (qp : QueuePair)
    (h : qp.sendCq < s.cqs.length ∧ qp.recvCq < s.cqs.length) : Queues where
  cqs := s.cqs
  qps := qp :: s.qps
  attached := List.forall_mem_cons.mpr ⟨h, s.attached⟩

/-- A new send CQ, and a queue pair that receives on the given CQ or else on the new one. -/
def createOwn (s : Queues) (entries : Nat) (byDc : Bool) (maxSendWr maxRecvWr : Nat) :
    Option Nat → Option Queues
  | none =>
    some ((s.createCq entries byDc).createQp
      { sendCq := s.cqs.length, recvCq := s.cqs.length, maxSendWr, maxRecvWr }
      (by simp [createCq]))
  | some c =>
    if h : c < s.cqs.length then
      some ((s.createCq entries byDc).createQp
        { sendCq := s.cqs.length, recvCq := c, maxSendWr, maxRecvWr }
        (by simp only [createCq, List.length_append, List.length_singleton]; omega))
    else none

/-- `RC::new_with_srq`. -/
def newRc (s : Queues) (cfg : QpConfig) (recvCq : Option Nat) : Option Queues :=
  s.createOwn (asU32 cfg.maxCqe) false (asU32 cfg.maxSendWrSz) (asU32 cfg.maxRecvWrSz) recvCq

/-- `UD::new_from_config`: without a receive CQ it creates one. -/
def newUd (s : Queues) (cfg : QpConfig) : Option Nat → Option Queues
  | none =>
    some (((s.createCq (asU32 cfg.maxCqe) false).createCq (asU32 cfg.maxRecvCqe) false).createQp
      { sendCq := s.cqs.length, recvCq := s.cqs.length + 1
        maxSendWr := asU32 cfg.maxSendWrSz, maxRecvWr := asU32 cfg.maxRecvWrSz }
      (by simp [createCq]))
  | some c =>
    s.createOwn (asU32 cfg.maxCqe) false (asU32 cfg.maxSendWrSz) (asU32 cfg.maxRecvWrSz) (some c)

/-- `DCTServer::new_from_config`: two CQs of the same size, and no queue pair. -/
def newDctServer (s : Queues) (cfg : QpConfig) : Queues :=
  (s.createCq (asU32 cfg.maxCqe) false).createCq (asU32 cfg.maxCqe) false

/-- `DC::new_with_srq`. -/
def newDc (s : Queues) (recvCq : Option Nat) : Option Queues :=
  s.createOwn 128 true 128 0 recvCq

/-- A queue pair is destroyed. -/
def drop (s : Queues) (i : Nat) : Queues where
  cqs := s.cqs
  qps := s.qps.eraseIdx i
  attached qp hqp := s.attached qp (List.mem_of_mem_eraseIdx hqp)

end Queues

/-! ## The system -/

inductive Event where
  | rc (cfg : QpConfig) (recvCq : Option Nat)
  | ud (cfg : QpConfig) (recvCq : Option Nat)
  | dctServer (cfg : QpConfig)
  | dc (recvCq : Option Nat)
  | drop (i : Nat)

def step (s : Queues) : Event → Option Queues
  | .rc cfg recvCq => s.newRc cfg recvCq
  | .ud cfg recvCq => s.newUd cfg recvCq
  | .dctServer cfg => some (s.newDctServer cfg)
  | .dc recvCq => s.newDc recvCq
  | .drop i => some (s.drop i)

/-- Every CQ that was created by an RC, a UD or a DCT server has an entry for every request
    that can be outstanding on it. -/
def NoOverrun (s : Queues) : Prop :=
  ∀ c cq, s.cqs[c]? = some cq → cq.byDc = false → s.demand c ≤ cq.entries

/-- There is room for `wr` more requests on completion queue `c`. -/
def Room (s : Queues) (c wr : Nat) : Prop :=
  ∀ cq, s.cqs[c]? = some cq → cq.byDc = false → s.demand c + wr ≤ cq.entries

/-- The CQs that a new queue pair reports to have room for it. -/
def Fits (s : Queues) : Event → Prop
  | .rc cfg none => asU32 cfg.maxSendWrSz + asU32 cfg.maxRecvWrSz ≤ asU32 cfg.maxCqe
  | .rc cfg (some c) =>
    asU32 cfg.maxSendWrSz ≤ asU32 cfg.maxCqe ∧ Room s c (asU32 cfg.maxRecvWrSz)
  | .ud cfg none =>
    asU32 cfg.maxSendWrSz ≤ asU32 cfg.maxCqe ∧ asU32 cfg.maxRecvWrSz ≤ asU32 cfg.maxRecvCqe
  | .ud cfg (some c) =>
    asU32 cfg.maxSendWrSz ≤ asU32 cfg.maxCqe ∧ Room s c (asU32 cfg.maxRecvWrSz)
  | .dctServer _ => True
  | .dc _ => True
  | .drop _ => True

/-! ## One step -/

namespace Queues

@[simp] theorem demand_createCq (s : Queues) (entries : Nat) (byDc : Bool) (c : Nat) :
    (s.createCq entries byDc).demand c = s.demand c := rfl

@[simp] theorem demand_createQp (s : Queues) (qp : QueuePair)
    (h : qp.sendCq < s.cqs.length ∧ qp.recvCq < s.cqs.length) (c : Nat) :
    (s.createQp qp h).demand c = qp.demand c + s.demand c := by
  simp [demand, createQp]

/-- Nothing reports to a CQ that does not exist yet. -/
theorem demand_eq_zero {s : Queues} {c : Nat} (h : s.cqs.length ≤ c) : s.demand c = 0 := by
  have hall : ∀ qp ∈ s.qps, qp.demand c = 0 := by
    intro qp hqp
    have := s.attached qp hqp
    simp only [QueuePair.demand]
    rw [if_neg (by omega), if_neg (by omega)]
  unfold demand
  rw [List.map_congr_left hall]
  simp

theorem demand_drop_le (s : Queues) (i c : Nat) : (s.drop i).demand c ≤ s.demand c := by
  unfold demand drop
  exact (((List.eraseIdx_sublist s.qps i).map _).sum_le_sum) fun _ _ => Nat.zero_le _

theorem cqs_createCq_getElem? (s : Queues) (entries : Nat) (byDc : Bool) (c : Nat) :
    (s.createCq entries byDc).cqs[c]? =
      if c < s.cqs.length then s.cqs[c]? else if c = s.cqs.length then some { entries, byDc }
      else none := by
  simp only [createCq, List.getElem?_append]
  split
  · rfl
  · split
    · rename_i heq
      simp [heq]
    · rw [List.getElem?_eq_none]
      simp only [List.length_singleton]
      omega

end Queues

theorem noOverrun_createCq {s : Queues} (h : NoOverrun s) (entries : Nat) (byDc : Bool) :
    NoOverrun (s.createCq entries byDc) := by
  intro c cq hcq hby
  rw [Queues.cqs_createCq_getElem?] at hcq
  rw [Queues.demand_createCq]
  split at hcq
  · exact h c cq hcq hby
  · rename_i hlt
    rw [Queues.demand_eq_zero (Nat.le_of_not_lt hlt)]
    exact Nat.zero_le _

theorem room_createCq_new {s : Queues} {entries wr : Nat} {byDc : Bool} :
    Room (s.createCq entries byDc) s.cqs.length wr ↔ (byDc = false → wr ≤ entries) := by
  have hnew : (s.createCq entries byDc).cqs[s.cqs.length]? = some { entries, byDc } := by
    rw [Queues.cqs_createCq_getElem?, if_neg (Nat.lt_irrefl _), if_pos rfl]
  unfold Room
  rw [Queues.demand_createCq, Queues.demand_eq_zero (Nat.le_refl _), Nat.zero_add]
  constructor
  · intro h hby
    exact h _ hnew hby
  · intro h cq hcq hby
    rw [hnew] at hcq
    cases hcq
    exact h hby

theorem room_createCq_of_lt {s : Queues} {c entries wr : Nat} {byDc : Bool}
    (hc : c < s.cqs.length) : Room (s.createCq entries byDc) c wr ↔ Room s c wr := by
  unfold Room
  rw [Queues.demand_createCq, Queues.cqs_createCq_getElem?, if_pos hc]

/-- A new queue pair overruns nothing if its CQs have room for it. -/
theorem noOverrun_createQp_iff {s : Queues} (hs : NoOverrun s) {qp : QueuePair}
    (h : qp.sendCq < s.cqs.length ∧ qp.recvCq < s.cqs.length) :
    NoOverrun (s.createQp qp h) ↔
      Room s qp.sendCq (qp.demand qp.sendCq) ∧ Room s qp.recvCq (qp.demand qp.recvCq) := by
  have hroom : ∀ c, Room s c (qp.demand c) ↔ ∀ cq, s.cqs[c]? = some cq → cq.byDc = false →
      (s.createQp qp h).demand c ≤ cq.entries := by
    intro c
    unfold Room
    rw [Queues.demand_createQp, Nat.add_comm]
  constructor
  · intro hall
    exact ⟨(hroom _).mpr (hall _), (hroom _).mpr (hall _)⟩
  · rintro ⟨hsend, hrecv⟩ c cq hcq hby
    by_cases hc : qp.sendCq = c ∨ qp.recvCq = c
    · rcases hc with rfl | rfl
      · exact (hroom _).mp hsend cq hcq hby
      · exact (hroom _).mp hrecv cq hcq hby
    · -- The other CQs are as they were.
      rw [not_or] at hc
      rw [Queues.demand_createQp, QueuePair.demand, if_neg hc.1, if_neg hc.2, Nat.zero_add]
      exact hs c cq hcq hby

/-- A queue pair with its own send CQ. -/
theorem noOverrun_createOwn_iff {s s' : Queues} (hs : NoOverrun s) {entries : Nat} {byDc : Bool}
    {maxSendWr maxRecvWr : Nat} {recvCq : Option Nat}
    (h : s.createOwn entries byDc maxSendWr maxRecvWr recvCq = some s') :
    NoOverrun s' ↔
      match recvCq with
      | none => byDc = false → maxSendWr + maxRecvWr ≤ entries
      | some c => (byDc = false → maxSendWr ≤ entries) ∧ Room s c maxRecvWr := by
  have hs' := noOverrun_createCq hs entries byDc
  cases recvCq with
  | none =>
    cases h
    simp only [noOverrun_createQp_iff hs', QueuePair.demand, if_true, and_self, room_createCq_new]
  | some c =>
    simp only [Queues.createOwn] at h
    split at h
    · rename_i hc
      cases h
      simp only [noOverrun_createQp_iff hs', QueuePair.demand, if_true, Nat.ne_of_lt hc,
        Nat.ne_of_gt hc, if_false, Nat.add_zero, Nat.zero_add, room_createCq_new,
        room_createCq_of_lt hc]
    · cases h

/-- A UD with CQs of its own. -/
theorem noOverrun_newUd_iff {s s' : Queues} (hs : NoOverrun s) {cfg : QpConfig}
    (h : s.newUd cfg none = some s') :
    NoOverrun s' ↔ asU32 cfg.maxSendWrSz ≤ asU32 cfg.maxCqe ∧
      asU32 cfg.maxRecvWrSz ≤ asU32 cfg.maxRecvCqe := by
  have hs₁ := noOverrun_createCq hs (asU32 cfg.maxCqe) false
  have hs₂ := noOverrun_createCq hs₁ (asU32 cfg.maxRecvCqe) false
  have hlen : (s.createCq (asU32 cfg.maxCqe) false).cqs.length = s.cqs.length + 1 := by
    simp [Queues.createCq]
  cases h
  rw [noOverrun_createQp_iff hs₂]
  refine and_congr ?_ ?_
  · -- The first CQ lies before the second.
    have hlt : s.cqs.length < (s.createCq (asU32 cfg.maxCqe) false).cqs.length := by
      rw [hlen]
      exact Nat.lt_succ_self _
    simp only [room_createCq_of_lt hlt, room_createCq_new]
    simp [QueuePair.demand]
  · simp only [← hlen, room_createCq_new]
    simp [QueuePair.demand, hlen]

theorem step_noOverrun_iff {s s' : Queues} {e : Event} (hs : NoOverrun s)
    (h : step s e = some s') : NoOverrun s' ↔ Fits s e := by
  cases e with
  | rc cfg recvCq =>
    rw [noOverrun_createOwn_iff hs h]
    cases recvCq <;> simp [Fits]
  | ud cfg recvCq =>
    cases recvCq with
    | none => exact noOverrun_newUd_iff hs h
    | some c =>
      change s.newRc cfg (some c) = some s' at h
      rw [noOverrun_createOwn_iff hs h]
      simp [Fits]
  | dctServer cfg =>
    cases h
    exact iff_of_true (noOverrun_createCq (noOverrun_createCq hs _ _) _ _) trivial
  | dc recvCq =>
    rw [noOverrun_createOwn_iff hs h]
    cases recvCq with
    | none => simp [Fits]
    | some c =>
      refine iff_of_true ⟨nofun, fun cq hcq hby => ?_⟩ trivial
      exact hs c cq hcq hby
  | drop i =>
    cases h
    refine iff_of_true (fun c cq hcq hby => ?_) trivial
    exact (s.demand_drop_le i c).trans (hs c cq hcq hby)

/-! ## Runs -/

/-- However queues are created, with configurations that the setters can make, and destroyed:
    no CQ of an RC, a UD or a DCT server can ever be overrun if and only if the CQs of every
    new queue pair had room for it. -/
theorem cqs_never_overrun_iff (es : List Event) :
    Run.Always step NoOverrun Queues.empty es ↔ Run.Guarded step Fits Queues.empty es :=
  Run.always_iff_guarded (I := fun _ => True) (fun _ _ _ _ _ _ => trivial)
    (fun _ _ _ _ hs hstep => step_noOverrun_iff hs hstep) trivial
    (fun _ _ hcq => by simp [Queues.empty] at hcq) es

/-! ## Controllers -/

/-- `RCtrl::create`: the DCT server, whose receive CQ gets number 1, the default UD and the
    DC, which both receive on it. -/
def rctrlCreate : List Event :=
  [.dctServer (QpConfig.new.setMaxRecvWrSz 4096),
    .ud ((QpConfig.new.setMaxRecvWrSz 2048).setMaxRecvCqe 2048) (some 1), .dc (some 1)]

/-- An RC that is attached to the controller: accepted by `rc_conn_callback`, or created by
    `qp_connect`. -/
def attachRc (accepted : Bool) : Event :=
  .rc (if accepted then QpConfig.new.setMaxSendWrSz 256 else QpConfig.new) (some 1)

theorem exec_attachRcs {s s' : Queues} {rcs : List Bool} (hlen : 1 < s.cqs.length)
    (h : Run.exec step s (rcs.map attachRc) = some s') :
    s'.cqs[1]? = s.cqs[1]? ∧ s'.demand 1 = s.demand 1 + 4096 * rcs.length := by
  induction rcs generalizing s with
  | nil =>
    cases h
    exact ⟨rfl, rfl⟩
  | cons accepted rcs ih =>
    obtain ⟨s₁, hstep, hrest⟩ := Run.exec_cons_eq_some.mp h
    simp only [attachRc, step, Queues.newRc, Queues.createOwn, dif_pos hlen,
      Option.some.injEq] at hstep
    have hrecv : asU32 (if accepted then QpConfig.new.setMaxSendWrSz 256
        else QpConfig.new).maxRecvWrSz = 4096 := by
      cases accepted <;> rfl
    have hcqs : s₁.cqs[1]? = s.cqs[1]? := by
      rw [← hstep, Queues.createQp, Queues.cqs_createCq_getElem?, if_pos hlen]
    have hdemand : s₁.demand 1 = s.demand 1 + 4096 := by
      rw [← hstep, Queues.demand_createQp, Queues.demand_createCq]
      simp only [QueuePair.demand, hrecv, if_true]
      rw [if_neg (Nat.ne_of_gt hlen), Nat.zero_add, Nat.add_comm]
    have hlen₁ : 1 < s₁.cqs.length := by
      rw [← hstep]
      simp only [Queues.createQp, Queues.createCq, List.length_append]
      omega
    obtain ⟨hcqs', hdemand'⟩ := ih hlen₁ hrest
    refine ⟨hcqs'.trans hcqs, ?_⟩
    rw [hdemand', hdemand, List.length_cons]
    omega

/-- The receive CQ of a controller has 2048 entries, for the 2048 receives of the UD and 4096
    of every RC. -/
theorem rctrl_demand {rcs : List Bool} {s : Queues}
    (h : Run.exec step Queues.empty (rctrlCreate ++ rcs.map attachRc) = some s) :
    s.cqs[1]? = some { entries := 2048, byDc := false } ∧
      s.demand 1 = 2048 + 4096 * rcs.length := by
  rw [Run.exec_append, Option.bind_eq_some_iff] at h
  obtain ⟨s₀, hcreate, hattach⟩ := h
  have hlen : 1 < s₀.cqs.length := by
    rw [← Option.some.inj hcreate]
    decide
  obtain ⟨hcqs, hdemand⟩ := exec_attachRcs hlen hattach
  rw [hcqs, hdemand, ← Option.some.inj hcreate]
  exact ⟨rfl, rfl⟩

/-- A controller with one accepted RC, and an RC without a receive CQ: the receive CQ of the
    one has 2048 entries for 6144 receives, the only CQ of the other 2048 for 6144 requests. -/
theorem cqs_overrun :
    (∃ s, Run.exec step Queues.empty (rctrlCreate ++ [attachRc true]) = some s ∧
        s.cqs[1]? = some { entries := 2048, byDc := false } ∧ s.demand 1 = 6144) ∧
      ∃ s, Run.exec step Queues.empty [.rc QpConfig.new none] = some s ∧
        s.cqs[0]? = some { entries := 2048, byDc := false } ∧ s.demand 0 = 6144 :=
  ⟨⟨_, rfl, rfl, rfl⟩, ⟨_, rfl, rfl, rfl⟩⟩

end CqCapacity
