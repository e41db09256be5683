-- SUMMARY: When every slot of a receive ring is outstanding at most once, over all runs of a node.
import KRCore.Base.Run
import KRCore.Node.Model

/-!
# Ownership of receive buffers

A slot of a receive ring is outstanding while a request for it is pending on
some queue pair. `outstandingOnce_iff` characterises the runs of a node in which
no slot is ever outstanding twice: those in which every call that posts
receives finds the slots it is about to hand over free.
-/

namespace Node

variable {M : Nat}

/-! ## Outstanding slots -/

def slot? (r : Request M) : Option (RingSlot M) :=
  match r.work with
  | .send _ => none
  | .recv slot => some slot

/-- The slots that the device holds, with repetitions. -/
def outstanding (s : Node M) : List (RingSlot M) := s.nic.pending.filterMap slot?

/-- The slots that are still outstanding once a queue pair has been destroyed. -/
def outstandingBut (s : Node M) (qp : QueuePair) : List (RingSlot M) :=
  (s.nic.pending.filter fun r => !decide (r.qp = qp)).filterMap slot?

/-- Every slot is outstanding at most once, counting all queue pairs together. -/
def OutstandingOnce (s : Node M) : Prop := ∀ slot, s.outstanding.count slot ≤ 1

/-- The memory that the device writes a message for a slot to: start and length. -/
def buffer (s : Node M) : RingSlot M → Option (Nat × Nat)
  | .ctrl c i => (s.ctrls c).map fun ctrl =>
      ((ctrl.recvBuffer.sges i).addr, (ctrl.recvBuffer.sges i).length)
  | .rpc c i => (s.rpcs c).map fun helper => ((helper.sges i).addr, (helper.sges i).length)

/-- Two pieces of memory that do not overlap. -/
def Apart (b b' : Nat × Nat) : Prop := b.1 + b.2 ≤ b'.1 ∨ b'.1 + b'.2 ≤ b.1

/-- The messages in flight go to different buffers. -/
def BuffersApart (s : Node M) : Prop :=
  s.outstanding.Pairwise fun x y =>
    ∃ b b', s.buffer x = some b ∧ s.buffer y = some b' ∧ Apart b b'

/-! ## What a call hands over -/

/-- The slots that a `post_recvs` call with count `cnt` hands over: as far as the
    driver accepts it, the window of the ring at its cursor. -/
def handedOver [NeZero M] (s : Node M) (cnt : Nat) (ans : PostAnswer) : RingId → List (RingSlot M)
  | .ctrl c =>
    ((s.ctrls c).map fun ctrl =>
      (ans.accepted (Ring.window ctrlRingSize ctrl.recvBuffer.curIdx
        (RecvHelper.span ctrlRingSize cnt))).map (.ctrl c)).getD []
  | .rpc c =>
    ((s.rpcs c).map fun helper =>
      (ans.accepted (Ring.window M helper.curIdx (RecvHelper.span M cnt))).map (.rpc c)).getD []

/-- The controller whose ring `push_recv_impl` posts from, if it posts. -/
def pushRecvCtrl (cfg : NodeConfig) (s : Node M) (v : Nat) : Option Nat :=
  match (s.vqs v).bindPort with
  | some port =>
    let c := cfg.machine.getGlobalRctrl (port * 2)
    (s.getTrc c 1).map fun _ => c
  | none => (s.vqs v).localConnectPort.map cfg.machine.getGlobalRctrl

/-- The RC that `rc_conn_callback` replaces in `registered_rcs`. -/
def replacedRc (s : Node M) (c qd : Nat) : Option Nat :=
  (s.ctrls c).bind fun ctrl => ctrl.registeredRcs (if qd = 0 then ctrl.freeInQpKey else qd)

/-- The slots that the call is about to hand over are free. Only `RCtrl::create`
    and `RPCClient::create`, which post a ring of their own, need no condition. -/
def FindsFree [NeZero M] (cfg : NodeConfig) (s : Node M) : NodeEvent → Prop
  | .rcConnCallback c qd rtr ans =>
    rtr = true → (s.handedOver connPostCnt ans (.ctrl c)).Disjoint
      ((s.replacedRc c qd).elim s.outstanding fun id => s.outstandingBut (.rc c id))
  | .trcPostRecv _ c _ cnt ans => (s.handedOver cnt ans (.ctrl c)).Disjoint s.outstanding
  | .udPostRecv _ c cnt ans => (s.handedOver cnt ans (.ctrl c)).Disjoint s.outstanding
  | .pushRecv v cnt ans =>
    ∀ c, s.pushRecvCtrl cfg v = some c → (s.handedOver cnt ans (.ctrl c)).Disjoint s.outstanding
  | .rpcCallRecv c ans => (s.handedOver 1 ans (.rpc c)).Disjoint s.outstanding
  | .rpcPollAll c k ans => (s.handedOver k ans (.rpc c)).Disjoint s.outstanding
  | _ => True

/-! ## The rings of a node -/

theorem outstandingOnce_iff_nodup {s : Node M} : s.OutstandingOnce ↔ s.outstanding.Nodup :=
  List.nodup_iff_count_le_one.symm

/-- The rings are as their creator built them, up to the cursor, and only slots
    of existing rings are outstanding. -/
structure Rings [NeZero M] (cfg : NodeConfig) (s : Node M) : Prop where
  ctrl : ∀ c ctrl, s.ctrls c = some ctrl →
    ctrl.recvBuffer.Built cfg.paToVa (maxKmallocSz / ctrlRingSize) (cfg.machine.lkey c).toNat
      (cfg.base (.ctrl c))
  rpc : ∀ c helper, s.rpcs c = some helper →
    helper.Built cfg.paToVa rpcSlotSz (cfg.machine.lkey c).toNat (cfg.base (.rpc c))
  exist : ∀ slot ∈ s.outstanding, (s.buffer slot).isSome = true

/-- The steps that post no receives: the rings stay, and slots are only given
    back. -/
structure Quiet (s s' : Node M) : Prop where
  ctrls : ∀ c, (s'.ctrls c).map RCtrl.recvBuffer = (s.ctrls c).map RCtrl.recvBuffer
  rpcs : s'.rpcs = s.rpcs
  outstanding : s'.outstanding.Sublist s.outstanding

theorem Quiet.refl (s : Node M) : s.Quiet s := ⟨fun _ => rfl, rfl, List.Sublist.refl _⟩

theorem Quiet.trans {s s' s'' : Node M} (h : s.Quiet s') (h' : s'.Quiet s'') : s.Quiet s'' :=
  ⟨fun c => (h'.ctrls c).trans (h.ctrls c), h'.rpcs.trans h.rpcs,
    h'.outstanding.trans h.outstanding⟩

theorem Quiet.buffer {s s' : Node M} (h : s.Quiet s') (slot : RingSlot M) :
    s'.buffer slot = s.buffer slot := by
  cases slot with
  | ctrl c i =>
    have := congrArg (Option.map fun ring : RecvHelper ctrlRingSize =>
      ((ring.sges i).addr, (ring.sges i).length)) (h.ctrls c)
    simpa [Node.buffer, Option.map_map, Function.comp_def] using this
  | rpc c i => simp [Node.buffer, h.rpcs]

theorem Quiet.handedOver [NeZero M] {s s' : Node M} (h : s.Quiet s') (cnt : Nat) (ans : PostAnswer)
    (ring : RingId) : s'.handedOver cnt ans ring = s.handedOver cnt ans ring := by
  cases ring with
  | ctrl c =>
    have := congrArg (Option.map fun ring : RecvHelper ctrlRingSize =>
      (ans.accepted (Ring.window ctrlRingSize ring.curIdx
        (RecvHelper.span ctrlRingSize cnt))).map (RingSlot.ctrl (M := M) c)) (h.ctrls c)
    simp only [Option.map_map, Function.comp_def] at this
    simp only [Node.handedOver, this]
  | rpc c => simp [Node.handedOver, h.rpcs]

theorem Quiet.rings [NeZero M] {cfg : NodeConfig} {s s' : Node M} (h : s.Quiet s')
    (hr : s.Rings cfg) : s'.Rings cfg where
  ctrl c ctrl hctrl := by
    have hring := h.ctrls c
    rw [hctrl] at hring
    obtain ⟨ctrl₀, hctrl₀, heq⟩ := Option.map_eq_some_iff.mp hring.symm
    rw [← heq]
    exact hr.ctrl c ctrl₀ hctrl₀
  rpc c helper hhelper := hr.rpc c helper (h.rpcs ▸ hhelper)
  exist slot hslot := by
    rw [h.buffer]
    exact hr.exist slot (h.outstanding.subset hslot)

/-! ## The pieces of the calls -/

theorem quiet_of_pending {s : Node M} {nic : WorkQueue (Request M)} {delivered : List (Delivery M)}
    (h : nic.pending.Sublist s.nic.pending) : s.Quiet { s with nic, delivered } :=
  ⟨fun _ => rfl, rfl, h.filterMap slot?⟩

theorem quiet_of_device {s s' : Node M} (hctrls : s'.ctrls = s.ctrls) (hrpcs : s'.rpcs = s.rpcs)
    (hnic : s'.nic = s.nic) : s.Quiet s' :=
  ⟨fun _ => by rw [hctrls], hrpcs, by rw [Node.outstanding, hnic, ← Node.outstanding]⟩

theorem quiet_take (s : Node M) (call : Call) (cq : CompletionQueue) (k : Nat) :
    s.Quiet (s.take call cq k).2 :=
  quiet_of_pending (List.Sublist.refl _)

theorem quiet_destroyRc (s : Node M) (c id : Nat) : s.Quiet (s.destroyRc c id) :=
  quiet_of_pending List.filter_sublist

theorem quiet_setVq (s : Node M) (v : Nat) (vq : VQ) : s.Quiet (s.setVq v vq) :=
  quiet_of_device rfl rfl rfl

theorem quiet_setCtrl {s : Node M} {c : Nat} {ctrl ctrl' : RCtrl} (hctrl : s.ctrls c = some ctrl)
    (hring : ctrl'.recvBuffer = ctrl.recvBuffer) : s.Quiet (s.setCtrl c ctrl') where
  ctrls c' := by
    by_cases hc : c' = c
    · subst hc
      simp [setCtrl, hctrl, hring]
    · simp [setCtrl, hc]
  rpcs := rfl
  outstanding := List.Sublist.refl _

theorem quiet_enqueue_sends (s : Node M) (owner : Party) (qp : QueuePair) (serials : List Nat) :
    s.Quiet (s.enqueue (serials.map fun serial => { owner, qp, work := .send serial })) where
  ctrls _ := rfl
  rpcs := rfl
  outstanding := by
    have hnone : (serials.map fun serial =>
        ({ owner, qp, work := .send serial } : Request M)).filterMap slot? = [] := by
      simp [List.filterMap_map, slot?, Function.comp_def]
    simp [Node.outstanding, enqueue, List.filterMap_append, hnone]

theorem quiet_popRc (s : Node M) (v : Nat) : s.Quiet (s.popRc v) := by
  unfold popRc
  split
  · exact .refl s
  · exact quiet_take s _ _ _

theorem deregRc_quiet {s s' : Node M} {c key : Nat} (h : s.deregRc c key = some s') :
    s.Quiet s' := by
  simp only [deregRc, Option.bind_eq_bind, Option.bind_eq_some_iff] at h
  obtain ⟨ctrl, hctrl, h⟩ := h
  split at h
  · simp only [Option.some.injEq] at h
    subst h
    exact .refl s
  · simp only [Option.some.injEq] at h
    subst h
    refine Quiet.trans ?_ (quiet_destroyRc _ _ _)
    exact quiet_setCtrl hctrl rfl

theorem migrate_quiet {cfg : NodeConfig} {s s' : Node M} {v : Nat} {rc : RcAnswer}
    (h : s.migrate cfg v rc = some s') : s.Quiet s' := by
  simp only [migrate] at h
  split at h
  · simp only [Option.bind_eq_bind, Option.bind_eq_some_iff] at h
    obtain ⟨param, -, h⟩ := h
    split at h
    · simp only [Option.some.injEq] at h
      subst h
      exact quiet_of_device rfl rfl rfl
    · simp only [Option.some.injEq] at h
      subst h
      cases (s.vqs v).virtualQueue with
      | none => exact quiet_of_device rfl rfl rfl
      | some old =>
        refine Quiet.trans ?_ (quiet_destroyRc _ _ _)
        exact quiet_of_device rfl rfl rfl
  · cases h

theorem popImpl_quiet {cfg : NodeConfig} {s s' : Node M} {v vid : Nat}
    (h : s.popImpl cfg v vid = some s') : s.Quiet s' := by
  cases hbind : (s.vqs v).bindPort with
  | some port =>
    simp only [popImpl, hbind] at h
    split at h
    · simp only [Option.some.injEq] at h
      subst h
      exact .refl s
    · simp only [Option.some.injEq] at h
      subst h
      exact quiet_take s _ _ _
  | none =>
    simp only [popImpl, hbind] at h
    split at h
    · simp only [Option.map_eq_some_iff] at h
      obtain ⟨d, -, rfl⟩ := h
      have hq := quiet_take s (.pop v) (.send (.dc d)) 1
      split
      · rename_i heq
        rw [heq] at hq
        exact hq.trans (quiet_popRc _ v)
      · rename_i heq
        rw [heq] at hq
        exact hq
    · simp only [Option.some.injEq] at h
      subst h
      exact quiet_popRc s v

theorem popMsgs_quiet {cfg : NodeConfig} {s s' : Node M} {v k : Nat}
    (h : s.popMsgs cfg v k = some s') : s.Quiet s' := by
  simp only [popMsgs] at h
  split at h
  · split at h
    · simp only [Option.some.injEq] at h
      subst h
      exact quiet_take s _ _ _
    · split at h
      · simp only [Option.some.injEq] at h
        subst h
        exact .refl s
      · simp only [Option.some.injEq] at h
        subst h
        exact quiet_take s _ _ _
  · cases h

theorem outstanding_enqueue_recvs {α : Type*} (s : Node M) (owner : Party) (qp : QueuePair)
    (slots : List α) (f : α → RingSlot M) :
    (s.enqueue (slots.map fun i => { owner, qp, work := .recv (f i) })).outstanding =
      s.outstanding ++ slots.map f := by
  simp [Node.outstanding, enqueue, List.filterMap_append, List.filterMap_map, slot?,
    Function.comp_def]

/-- New slots are outstanding once exactly if they are distinct and free. -/
private theorem nodup_append_iff_disjoint {α : Type*} {old new : List α} (hold : old.Nodup)
    (hnew : new.Nodup) : (old ++ new).Nodup ↔ new.Disjoint old := by
  rw [List.nodup_append']
  rw [List.disjoint_comm]
  exact ⟨fun h => h.2.2, fun h => ⟨hold, hnew, h⟩⟩

theorem nodup_handedOver [NeZero M] (s : Node M) (cnt : Nat) (ans : PostAnswer) (ring : RingId) :
    (s.handedOver cnt ans ring).Nodup := by
  cases ring with
  | ctrl c =>
    cases h : s.ctrls c with
    | none => simp [Node.handedOver, h]
    | some ctrl =>
      have hwin : (Ring.window ctrlRingSize ctrl.recvBuffer.curIdx
          (RecvHelper.span ctrlRingSize cnt)).Nodup := Ring.window_nodup (RecvHelper.span_le cnt)
      simpa [Node.handedOver, h] using
        ((ans.accepted_sublist _).nodup hwin).map (f := RingSlot.ctrl (M := M) c) fun _ _ => by simp
  | rpc c =>
    cases h : s.rpcs c with
    | none => simp [Node.handedOver, h]
    | some helper =>
      have hwin : (Ring.window M helper.curIdx (RecvHelper.span M cnt)).Nodup :=
        Ring.window_nodup (RecvHelper.span_le cnt)
      simpa [Node.handedOver, h] using
        ((ans.accepted_sublist _).nodup hwin).map (f := RingSlot.rpc (M := M) c) fun _ _ => by simp

theorem ring_of_mem_handedOver [NeZero M] {s : Node M} {cnt : Nat} {ans : PostAnswer}
    {ring : RingId} {slot : RingSlot M} (h : slot ∈ s.handedOver cnt ans ring) :
    slot.ring = ring := by
  cases ring with
  | ctrl c =>
    cases hc : s.ctrls c with
    | none => simp [Node.handedOver, hc] at h
    | some ctrl =>
      simp only [Node.handedOver, hc, Option.map_some, Option.getD_some, List.mem_map] at h
      obtain ⟨i, -, rfl⟩ := h
      rfl
  | rpc c =>
    cases hc : s.rpcs c with
    | none => simp [Node.handedOver, hc] at h
    | some helper =>
      simp only [Node.handedOver, hc, Option.map_some, Option.getD_some, List.mem_map] at h
      obtain ⟨i, -, rfl⟩ := h
      rfl

/-- A slot is only outstanding if its ring exists. -/
def HasRing (s : Node M) : RingId → Prop
  | .ctrl c => (s.ctrls c).isSome = true
  | .rpc c => (s.rpcs c).isSome = true

theorem buffer_isSome_iff {s : Node M} {slot : RingSlot M} :
    (s.buffer slot).isSome = true ↔ s.HasRing slot.ring := by
  cases slot with
  | ctrl c i => simp [Node.buffer, HasRing, RingSlot.ring]
  | rpc c i => simp [Node.buffer, HasRing, RingSlot.ring]

section Posting

variable [NeZero M] {cfg : NodeConfig}

/-- What a step does to the slots: the rings stay well-formed, and if every slot
    was outstanding at most once, then it still is exactly if `free` holds. -/
def StepOnce (cfg : NodeConfig) (s s' : Node M) (free : Prop) : Prop :=
  s'.Rings cfg ∧ (s.outstanding.Nodup → (s'.outstanding.Nodup ↔ free))

theorem Quiet.stepOnce {s s' : Node M} (h : s.Quiet s') (hr : s.Rings cfg) :
    StepOnce cfg s s' True :=
  ⟨h.rings hr, fun hs => iff_of_true (h.outstanding.nodup hs) trivial⟩

theorem Quiet.trans_stepOnce {s s' s'' : Node M} {free : Prop} (h : s.Quiet s')
    (h' : StepOnce cfg s' s'' free) : StepOnce cfg s s'' free :=
  ⟨h'.1, fun hs => h'.2 (h.outstanding.nodup hs)⟩

theorem StepOnce.of_free {s s' : Node M} {free : Prop} (h : StepOnce cfg s s' free)
    (hfree : free) : StepOnce cfg s s' True :=
  ⟨h.1, fun hs => iff_of_true ((h.2 hs).mpr hfree) trivial⟩

theorem StepOnce.congr {s s' : Node M} {free free' : Prop} (h : StepOnce cfg s s' free)
    (hfree : free' ↔ free) : StepOnce cfg s s' free' :=
  ⟨h.1, fun hs => (h.2 hs).trans hfree.symm⟩

/-- A call that adds the slots it hands over to the outstanding ones. -/
theorem stepOnce_of_append {s s' : Node M} {cnt : Nat} {ans : PostAnswer} {ring : RingId}
    (hr : s'.Rings cfg) (hout : s'.outstanding = s.outstanding ++ s.handedOver cnt ans ring) :
    StepOnce cfg s s' ((s.handedOver cnt ans ring).Disjoint s.outstanding) :=
  ⟨hr, fun hs => by
    rw [hout]
    exact nodup_append_iff_disjoint hs (nodup_handedOver s cnt ans ring)⟩

theorem Rings.setCtrl {s : Node M} (hr : s.Rings cfg) {c : Nat} {ctrl : RCtrl}
    (hb : ctrl.recvBuffer.Built cfg.paToVa (maxKmallocSz / ctrlRingSize)
      (cfg.machine.lkey c).toNat (cfg.base (.ctrl c))) :
    (s.setCtrl c ctrl).Rings cfg where
  ctrl c' ctrl' hctrl' := by
    by_cases hc : c' = c
    · subst hc
      simp only [Node.setCtrl, Function.update_self, Option.some.injEq] at hctrl'
      rwa [← hctrl']
    · exact hr.ctrl c' ctrl' (by simpa [Node.setCtrl, hc] using hctrl')
  rpc := hr.rpc
  exist slot hslot := by
    have hring := buffer_isSome_iff.mp (hr.exist slot hslot)
    rw [buffer_isSome_iff]
    cases hrs : slot.ring with
    | ctrl c' =>
      rw [hrs] at hring
      by_cases hc : c' = c
      · subst hc
        simp [HasRing, Node.setCtrl]
      · simpa [HasRing, Node.setCtrl, hc] using hring
    | rpc c' => rw [hrs] at hring; exact hring

theorem Rings.setRpc {s : Node M} (hr : s.Rings cfg) {c : Nat} {helper : RecvHelper M}
    (hb : helper.Built cfg.paToVa rpcSlotSz (cfg.machine.lkey c).toNat (cfg.base (.rpc c))) :
    Rings cfg { s with rpcs := Function.update s.rpcs c (some helper) } where
  ctrl := hr.ctrl
  rpc c' helper' hhelper' := by
    by_cases hc : c' = c
    · subst hc
      simp only [Function.update_self, Option.some.injEq] at hhelper'
      rwa [← hhelper']
    · exact hr.rpc c' helper' (by simpa [hc] using hhelper')
  exist slot hslot := by
    have hring := buffer_isSome_iff.mp (hr.exist slot hslot)
    rw [buffer_isSome_iff]
    cases hrs : slot.ring with
    | ctrl c' => rw [hrs] at hring; exact hring
    | rpc c' =>
      rw [hrs] at hring
      by_cases hc : c' = c
      · subst hc
        simp [HasRing]
      · simpa [HasRing, hc] using hring

/-- New requests for slots of existing rings keep the rings well-formed. -/
theorem Rings.enqueue {s : Node M} (hr : s.Rings cfg) {rs : List (Request M)}
    (hnew : ∀ slot ∈ rs.filterMap slot?, s.HasRing slot.ring) : (s.enqueue rs).Rings cfg where
  ctrl := hr.ctrl
  rpc := hr.rpc
  exist slot hslot := by
    simp only [Node.outstanding, Node.enqueue, WorkQueue.post_pending, List.filterMap_append,
      List.mem_append] at hslot
    rcases hslot with hold | hslot
    · exact hr.exist slot hold
    · exact buffer_isSome_iff.mpr (hnew slot hslot)

theorem postCtrl_spec {s s' : Node M} (hr : s.Rings cfg) {c : Nat} {owner : Party}
    {qp : QueuePair} {cnt : Nat} {ans : PostAnswer} {res : Except Int Unit}
    (h : s.postCtrl c owner qp cnt ans = some (s', res)) :
    s'.Rings cfg ∧ s'.outstanding = s.outstanding ++ s.handedOver cnt ans (.ctrl c) := by
  simp only [postCtrl, Option.bind_eq_bind, Option.bind_eq_some_iff, Option.some.injEq,
    Prod.mk.injEq] at h
  obtain ⟨ctrl, hctrl, out, hpost, rfl, -⟩ := h
  have hb := hr.ctrl c ctrl hctrl
  obtain ⟨-, hslots, -⟩ := hb.linked.postRecvs_eq_some hpost
  refine ⟨(hr.setCtrl (hb.postRecvs hpost)).enqueue fun slot hslot => ?_, ?_⟩
  · simp only [List.filterMap_map, List.mem_filterMap, Function.comp_apply, slot?,
      Option.some.injEq] at hslot
    obtain ⟨i, -, rfl⟩ := hslot
    simp [HasRing, RingSlot.ring, setCtrl]
  · rw [outstanding_enqueue_recvs]
    simp [handedOver, hctrl, hslots, Node.outstanding, setCtrl]

theorem postRpc_spec {s s' : Node M} (hr : s.Rings cfg) {c cnt : Nat} {ans : PostAnswer}
    (h : s.postRpc c cnt ans = some s') :
    s'.Rings cfg ∧ s'.outstanding = s.outstanding ++ s.handedOver cnt ans (.rpc c) := by
  simp only [postRpc, Option.bind_eq_bind, Option.bind_eq_some_iff, Option.some.injEq] at h
  obtain ⟨helper, hhelper, out, hpost, rfl⟩ := h
  have hb := hr.rpc c helper hhelper
  obtain ⟨-, hslots, -⟩ := hb.linked.postRecvs_eq_some hpost
  refine ⟨(hr.setRpc (hb.postRecvs hpost)).enqueue fun slot hslot => ?_, ?_⟩
  · simp only [List.filterMap_map, List.mem_filterMap, Function.comp_apply, slot?,
      Option.some.injEq] at hslot
    obtain ⟨i, -, rfl⟩ := hslot
    simp [HasRing, RingSlot.ring]
  · rw [outstanding_enqueue_recvs]
    simp [handedOver, hhelper, hslots, Node.outstanding]

theorem postCtrl_stepOnce {s s' : Node M} (hr : s.Rings cfg) {c : Nat} {owner : Party}
    {qp : QueuePair} {cnt : Nat} {ans : PostAnswer} {res : Except Int Unit}
    (h : s.postCtrl c owner qp cnt ans = some (s', res)) :
    StepOnce cfg s s' ((s.handedOver cnt ans (.ctrl c)).Disjoint s.outstanding) :=
  stepOnce_of_append (postCtrl_spec hr h).1 (postCtrl_spec hr h).2

theorem postRpc_stepOnce {s s' : Node M} (hr : s.Rings cfg) {c cnt : Nat} {ans : PostAnswer}
    (h : s.postRpc c cnt ans = some s') :
    StepOnce cfg s s' ((s.handedOver cnt ans (.rpc c)).Disjoint s.outstanding) :=
  stepOnce_of_append (postRpc_spec hr h).1 (postRpc_spec hr h).2

/-- The slots of a new ring are free. -/
theorem handedOver_disjoint_of_new {s s' : Node M} (hr : s.Rings cfg) {cnt : Nat}
    {ans : PostAnswer} {ring : RingId} (hnew : ¬ s.HasRing ring) :
    (s'.handedOver cnt ans ring).Disjoint s.outstanding := by
  intro slot hslot hout
  have hring := buffer_isSome_iff.mp (hr.exist slot hout)
  rw [ring_of_mem_handedOver hslot] at hring
  exact hnew hring

/-! ## The calls -/

theorem create_stepOnce {s s' : Node M} (hr : s.Rings cfg) {c : Nat} {ans : PostAnswer}
    (h : s.create cfg c ans = some s') : StepOnce cfg s s' True := by
  unfold create at h
  split at h
  · cases h
  · rename_i hctrl
    simp only [Option.map_eq_some_iff, Prod.exists, exists_and_right, exists_eq_right] at h
    obtain ⟨res, hpost⟩ := h
    have hstep := postCtrl_stepOnce (hr.setCtrl RecvHelper.built_create) hpost
    exact hstep.of_free (handedOver_disjoint_of_new hr (by simp [HasRing, hctrl]))

theorem rpcCreate_stepOnce {s s' : Node M} (hr : s.Rings cfg) {c : Nat} {ans : PostAnswer}
    (h : s.rpcCreate cfg c ans = some s') : StepOnce cfg s s' True := by
  unfold rpcCreate at h
  split at h
  · rename_i hctrl hrpc
    have hstep := postRpc_stepOnce (hr.setRpc RecvHelper.built_create) h
    exact hstep.of_free (handedOver_disjoint_of_new hr (by simp [HasRing, hrpc]))
  · cases h

theorem takeInQpKey_eq_some {ctrl ctrl' : RCtrl} {vid key : Nat}
    (h : ctrl.takeInQpKey vid = some (key, ctrl')) :
    key = (if vid = 0 then ctrl.freeInQpKey else vid) ∧ ctrl'.recvBuffer = ctrl.recvBuffer ∧
      ctrl'.registeredRcs = ctrl.registeredRcs := by
  simp only [RCtrl.takeInQpKey, Option.map_eq_some_iff, Prod.exists, Prod.mk.injEq] at h
  obtain ⟨key', free, hkey, rfl, rfl⟩ := h
  exact ⟨getNextInQpKey_fst hkey, rfl, rfl⟩

/-- The new RC is registered before the ring is posted to it, so the requests of
    the RC it replaces are gone by then. -/
theorem rcConnCallback_stepOnce {s s' : Node M} (hr : s.Rings cfg) {c qd : Nat} {rtr : Bool}
    {ans : PostAnswer} (h : s.rcConnCallback c qd rtr ans = some s') :
    StepOnce cfg s s' (s.FindsFree cfg (.rcConnCallback c qd rtr ans)) := by
  simp only [rcConnCallback, Option.bind_eq_bind, Option.bind_eq_some_iff, Prod.exists] at h
  obtain ⟨ctrl, hctrl, key, ctrl', hkey, h⟩ := h
  obtain ⟨hkeyeq, hring, hregs⟩ := takeInQpKey_eq_some hkey
  have hset : ∀ ctrl'' : RCtrl, ctrl''.recvBuffer = ctrl.recvBuffer →
      s.Quiet ({ s with nextRc := s.nextRc + 1 }.setCtrl c ctrl'') := by
    intro ctrl'' heq
    have hq := quiet_setCtrl hctrl heq
    exact ⟨hq.ctrls, hq.rpcs, hq.outstanding⟩
  cases rtr with
  | false =>
    simp only [Bool.false_eq_true, if_false, Option.some.injEq] at h
    subst h
    simpa [FindsFree] using (hset ctrl' hring).stepOnce hr
  | true =>
    simp only [if_true, Option.map_eq_some_iff, Prod.exists, exists_and_right,
      exists_eq_right] at h
    obtain ⟨res, hpost⟩ := h
    have hreplaced : s.replacedRc c qd = ctrl'.registeredRcs key := by
      simp [replacedRc, hctrl, hregs, hkeyeq]
    have hq := hset
      { ctrl' with registeredRcs := Function.update ctrl'.registeredRcs key (some s.nextRc) } hring
    cases hold : ctrl'.registeredRcs key with
    | none =>
      rw [hold] at hpost
      have hstep := hq.trans_stepOnce (postCtrl_stepOnce (hq.rings hr) hpost)
      rw [hq.handedOver] at hstep
      exact hstep.congr (by simp [FindsFree, hreplaced, hold]; rfl)
    | some id =>
      rw [hold] at hpost
      have hq' := hq.trans (quiet_destroyRc _ c id)
      have hstep := hq'.trans_stepOnce (postCtrl_stepOnce (hq'.rings hr) hpost)
      rw [hq'.handedOver] at hstep
      exact hstep.congr (by simp [FindsFree, hreplaced, hold]; rfl)

theorem pushRecvImpl_stepOnce {s s' : Node M} (hr : s.Rings cfg) {v cnt : Nat} {ans : PostAnswer}
    {status : ReplyStatus} (h : s.pushRecvImpl cfg v cnt ans = some (s', status)) :
    StepOnce cfg s s' (s.FindsFree cfg (.pushRecv v cnt ans)) := by
  have hposted : ∀ c owner qp, s.pushRecvCtrl cfg v = some c →
      (s.postCtrl c owner qp cnt ans).map postReply = some (s', status) →
      StepOnce cfg s s' (s.FindsFree cfg (.pushRecv v cnt ans)) := by
    intro c owner qp hc hpost
    simp only [Option.map_eq_some_iff, Prod.exists] at hpost
    obtain ⟨s₁, res, hpost, hreply⟩ := hpost
    obtain rfl : s₁ = s' := by cases res <;> exact (Prod.mk.inj hreply).1
    simpa [FindsFree, hc] using postCtrl_stepOnce hr hpost
  have hquiet : s.pushRecvCtrl cfg v = none → (s, ReplyStatus.notConnected) = (s', status) →
      StepOnce cfg s s' (s.FindsFree cfg (.pushRecv v cnt ans)) := by
    intro hc heq
    rw [← (Prod.mk.inj heq).1]
    simpa [FindsFree, hc] using (Quiet.refl s).stepOnce hr
  unfold pushRecvImpl at h
  cases hbind : (s.vqs v).bindPort with
  | some port =>
    simp only [hbind] at h
    cases htrc : s.getTrc (cfg.machine.getGlobalRctrl (port * 2)) 1 with
    | none =>
      simp only [htrc, Option.some.injEq] at h
      exact hquiet (by simp [pushRecvCtrl, hbind, htrc]) h
    | some id =>
      simp only [htrc] at h
      exact hposted _ _ _ (by simp [pushRecvCtrl, hbind, htrc]) h
  | none =>
    simp only [hbind] at h
    cases hport : (s.vqs v).localConnectPort with
    | none =>
      simp only [hport, Option.some.injEq] at h
      exact hquiet (by simp [pushRecvCtrl, hbind, hport]) h
    | some port =>
      simp only [hport, Option.bind_eq_some_iff] at h
      obtain ⟨qp, -, hpost⟩ := h
      exact hposted _ _ _ (by simp [pushRecvCtrl, hbind, hport]) hpost

theorem rpcCallRecv_stepOnce {s s' : Node M} (hr : s.Rings cfg) {c : Nat} {ans : PostAnswer}
    (h : s.rpcCallRecv c ans = some s') :
    StepOnce cfg s s' ((s.handedOver 1 ans (.rpc c)).Disjoint s.outstanding) := by
  have hq := quiet_take s (.rpcRecv c) (.recv c) 1
  unfold rpcCallRecv at h
  split at h
  · cases h
  · rename_i taken s₁ _ heq
    rw [heq] at hq
    have hout : s₁.outstanding = s.outstanding := by
      have : (s.take (.rpcRecv c) (.recv c) 1).2.outstanding = s.outstanding := rfl
      rwa [heq] at this
    have hstep := hq.trans_stepOnce (postRpc_stepOnce (hq.rings hr) h)
    rwa [hq.handedOver, hout] at hstep

theorem rpcPollAll_stepOnce {s s' : Node M} (hr : s.Rings cfg) {c k : Nat} {ans : PostAnswer}
    (h : s.rpcPollAll c k ans = some s') :
    StepOnce cfg s s' ((s.handedOver k ans (.rpc c)).Disjoint s.outstanding) := by
  have hq := quiet_take s (.rpcRecv c) (.recv c) k
  unfold rpcPollAll at h
  split at h
  · have hstep := hq.trans_stepOnce (postRpc_stepOnce (hq.rings hr) h)
    rwa [hq.handedOver] at hstep
  · cases h

/-- What one step does to the slots. -/
theorem step_stepOnce {s s' : Node M} {e : NodeEvent} (hr : s.Rings cfg)
    (h : s.step cfg e = some s') : StepOnce cfg s s' (s.FindsFree cfg e) := by
  cases e with
  | create c ans => exact create_stepOnce hr h
  | rcConnCallback c qd rtr ans => exact rcConnCallback_stepOnce hr h
  | deregRc c key => exact (deregRc_quiet h).stepOnce hr
  | trcPostRecv v c vid cnt ans =>
    obtain ⟨id, res, hpost⟩ := step_trcPostRecv h
    exact postCtrl_stepOnce hr hpost
  | udPostRecv v c cnt ans =>
    obtain ⟨res, hpost⟩ := step_udPostRecv h
    exact postCtrl_stepOnce hr hpost
  | pushRecv v cnt ans =>
    obtain ⟨status, hpush⟩ := step_pushRecv h
    exact pushRecvImpl_stepOnce hr hpush
  | rpcCreate c ans => exact rpcCreate_stepOnce hr h
  | rpcSend c serial =>
    rw [rpcSend_eq_some h]
    exact (quiet_enqueue_sends s (.rpc c) (.ud c) [serial]).stepOnce hr
  | rpcSendWait c =>
    rw [rpcSendWait_eq_some h]
    exact (quiet_take s _ _ _).stepOnce hr
  | rpcCallRecv c ans => exact rpcCallRecv_stepOnce hr h
  | rpcPollAll c k ans => exact rpcPollAll_stepOnce hr h
  | connect v req =>
    simp only [step, connect, Option.bind_eq_bind, Option.bind_eq_some_iff, Prod.exists,
      Option.some.injEq] at h
    obtain ⟨vq, status, point, -, rfl⟩ := h
    refine Quiet.stepOnce ?_ hr
    exact quiet_of_device rfl rfl rfl
  | migrate v rc => exact (migrate_quiet h).stepOnce hr
  | binds v port =>
    simp only [step, Option.some.injEq, binds] at h
    subst h
    split
    · exact (Quiet.refl s).stepOnce hr
    · split
      · exact (Quiet.refl s).stepOnce hr
      · exact (quiet_setVq s v _).stepOnce hr
  | unBinds v port =>
    simp only [step, Option.some.injEq, unBinds] at h
    subst h
    split
    · exact ((quiet_take s _ _ _).trans (quiet_setVq _ v _)).stepOnce hr
    · exact (Quiet.refl s).stepOnce hr
  | push v serials =>
    obtain ⟨qp, -, rfl⟩ := push_eq_some h
    exact (quiet_enqueue_sends s (.vq v) qp serials).stepOnce hr
  | pushWait v =>
    obtain ⟨qp, -, rfl⟩ := pushWait_eq_some h
    exact (quiet_take s _ _ _).stepOnce hr
  | pop v vid => exact (popImpl_quiet h).stepOnce hr
  | popMsgs v k => exact (popMsgs_quiet h).stepOnce hr
  | complete i =>
    obtain ⟨nic, hnic, rfl⟩ := step_complete h
    exact (quiet_of_pending (WorkQueue.complete_pending_sublist hnic)).stepOnce hr

theorem rings_init (localMr : TempMR) : (init (M := M) localMr).Rings cfg where
  ctrl _ _ h := by cases h
  rpc _ _ h := by cases h
  exist _ h := by cases h

/-! ## Buffers -/

/-- Where the device writes messages for a slot of a well-formed ring. -/
theorem Rings.buffer_eq {s : Node M} (hr : s.Rings cfg) {slot : RingSlot M} {b : Nat × Nat}
    (h : s.buffer slot = some b) :
    match slot with
    | .ctrl c i => b = (cfg.base (.ctrl c) + i * 2097152, 2097152)
    | .rpc c i => b = (cfg.base (.rpc c) + i * 512, 512) := by
  cases slot with
  | ctrl c i =>
    simp only [Node.buffer, Option.map_eq_some_iff] at h
    obtain ⟨ctrl, hctrl, rfl⟩ := h
    simp [(hr.ctrl c ctrl hctrl).sges i, maxKmallocSz, ctrlRingSize]
  | rpc c i =>
    simp only [Node.buffer, Option.map_eq_some_iff] at h
    obtain ⟨helper, hhelper, rfl⟩ := h
    simp [(hr.rpc c helper hhelper).sges i, rpcSlotSz]

/-- If the rings of the RPC clients fit into their memory, a buffer lies in the
    memory of its ring. -/
theorem Rings.buffer_inside {s : Node M} (hr : s.Rings cfg) (hfit : M * rpcSlotSz ≤ rpcRecvBufferSz)
    {slot : RingSlot M} {b : Nat × Nat} (h : s.buffer slot = some b) :
    cfg.base slot.ring ≤ b.1 ∧ b.1 + b.2 ≤ cfg.base slot.ring + slot.ring.size := by
  have hb := hr.buffer_eq h
  cases slot with
  | ctrl c i =>
    have := i.isLt
    simp only [ctrlRingSize] at this
    simp only [hb, RingSlot.ring, RingId.size, maxKmallocSz]
    omega
  | rpc c i =>
    have hle : i.val * 512 + 512 ≤ M * 512 := by
      have := Nat.mul_le_mul_right 512 i.isLt
      omega
    simp only [rpcSlotSz] at hfit
    simp only [hb, RingSlot.ring, RingId.size]
    omega

/-- Different slots have different buffers. -/
theorem Rings.apart {s : Node M} (hr : s.Rings cfg) (hfit : M * rpcSlotSz ≤ rpcRecvBufferSz)
    {x y : RingSlot M} {b b' : Nat × Nat} (hx : s.buffer x = some b) (hy : s.buffer y = some b')
    (hne : x ≠ y) : Apart b b' := by
  by_cases hring : x.ring = y.ring
  · -- In one ring the entries lie one after the other.
    have hb := hr.buffer_eq hx
    have hb' := hr.buffer_eq hy
    cases x with
    | ctrl c i =>
      cases y with
      | ctrl c' j =>
        obtain rfl : c = c' := by simpa [RingSlot.ring] using hring
        have hij : i.val ≠ j.val := fun h => hne (by rw [Fin.ext h])
        simp only [Apart, hb, hb']
        omega
      | rpc c' j => simp [RingSlot.ring] at hring
    | rpc c i =>
      cases y with
      | ctrl c' j => simp [RingSlot.ring] at hring
      | rpc c' j =>
        obtain rfl : c = c' := by simpa [RingSlot.ring] using hring
        have hij : i.val ≠ j.val := fun h => hne (by rw [Fin.ext h])
        simp only [Apart, hb, hb']
        omega
  · have hin := hr.buffer_inside hfit hx
    have hin' := hr.buffer_inside hfit hy
    have := cfg.apart x.ring y.ring hring
    unfold Apart
    omega

theorem Rings.buffersApart {s : Node M} (hr : s.Rings cfg)
    (hfit : M * rpcSlotSz ≤ rpcRecvBufferSz) (hs : s.OutstandingOnce) : s.BuffersApart := by
  refine (outstandingOnce_iff_nodup.mp hs).pairwise_of_forall_ne fun x hx y hy hne => ?_
  obtain ⟨b, hb⟩ := Option.isSome_iff_exists.mp (hr.exist x hx)
  obtain ⟨b', hb'⟩ := Option.isSome_iff_exists.mp (hr.exist y hy)
  exact ⟨b, b', hb, hb', hr.apart hfit hb hb' hne⟩

/-! ## All runs -/

/-- In a run of a node every slot is outstanding at most once in every state
    reached exactly if every call that posts receives finds the slots it hands
    over free; and then messages in flight go to different buffers, if the rings
    of the RPC clients fit into the memory allocated for them. -/
theorem outstandingOnce_iff (cfg : NodeConfig) (localMr : TempMR) (es : List NodeEvent) :
    (Run.Always (step cfg) OutstandingOnce (init localMr : Node M) es ↔
      Run.Guarded (step cfg) (FindsFree cfg) (init localMr : Node M) es) ∧
    (M * rpcSlotSz ≤ rpcRecvBufferSz →
      Run.Guarded (step cfg) (FindsFree cfg) (init localMr : Node M) es →
      Run.Always (step cfg) BuffersApart (init localMr : Node M) es) := by
  have hiff : Run.Always (step cfg) OutstandingOnce (init localMr : Node M) es ↔
      Run.Guarded (step cfg) (FindsFree cfg) (init localMr : Node M) es := by
    refine Run.always_iff_guarded (I := Rings cfg) (fun s e s' hr h _ => (step_stepOnce hr h).1)
      (fun s e s' hr hs h => ?_) (rings_init localMr) ?_ es
    · rw [outstandingOnce_iff_nodup] at hs ⊢
      exact (step_stepOnce hr h).2 hs
    · rw [outstandingOnce_iff_nodup]
      exact List.nodup_nil
  refine ⟨hiff, fun hfit hfree pre t hpre hrun => ?_⟩
  have hrings : t.Rings cfg :=
    Run.exec_invariant (fun s e s' hr h => (step_stepOnce hr h).1) (rings_init localMr) hrun
  exact hrings.buffersApart hfit (hiff.mpr hfree pre t hpre hrun)

end Posting

/-- The ring of a new controller is on its UD when the first RC is accepted, and
    `rc_conn_callback` posts the same two slots to that RC. -/
theorem accepted_rc_shares_slots :
    ∃ s : Node rpcBufferN, Run.exec (step (.sample .plain)) (init default)
        [.create 0 .ok, .rcConnCallback 0 5 true .ok] = some s ∧ ¬ s.OutstandingOnce :=
  ⟨_, rfl, fun h => absurd (h (.ctrl 0 0)) (by decide)⟩

/-- The RPC client on the UD of controller 0 takes a message and hands its slot
    over again. -/
def repostRun : List NodeEvent :=
  [.create 0 .ok, .rpcCreate 0 .ok, .complete 2, .rpcCallRecv 0 .ok]

theorem outstandingOnce_repostRun :
    (Run.exec (step (.sample .plain)) (init default : Node rpcBufferN) repostRun).isSome = true ∧
    Run.Always (step (.sample .plain)) OutstandingOnce (init default : Node rpcBufferN)
      repostRun := by
  refine ⟨rfl, (outstandingOnce_iff (.sample .plain) default repostRun).1.mpr ?_⟩
  refine Run.guarded_cons_of_step rfl trivial (Run.guarded_cons_of_step rfl trivial ?_)
  refine Run.guarded_cons_of_step rfl trivial (Run.guarded_cons_of_step rfl ?_ Run.guarded_nil)
  -- Slot 0 is the only one that is not on its way, and the one that is posted.
  change List.Disjoint [RingSlot.rpc 0 0] _
  rw [List.singleton_disjoint]
  decide

end Node
