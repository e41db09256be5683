-- SUMMARY: Whose requests the completions belong to that Pop, PopMsgs and the RPC clients of a node take.
import KRCore.Base.Run
import KRCore.Node.Model

/-!
# Whose completions a call takes

The virtual queues and RPC clients that use one controller share its receive CQ
and, with `dct_qp`, the send CQ of its DC; a completion carries no owner. What
holds for virtual queues in client mode is `delivered_fair`: a call only takes
completions of the CQ it polls, each is taken once, and a CQ that belongs to one
party (the send CQ of a queue's RC, the send CQ of the UD) only gives it
completions of its own requests.
-/

/-- A completion of a send CQ belongs to a send. -/
theorem Request.work_of_cq_send {M : Nat} {r : Request M} {qp : QueuePair} (h : r.cq = .send qp) :
    r.qp = qp ∧ ∃ serial, r.work = .send serial := by
  unfold Request.cq at h
  split at h
  · rename_i serial hw
    exact ⟨CompletionQueue.send.inj h, serial, hw⟩
  · cases h

namespace Node

variable {M : Nat}

/-- A completion of the RC that queue `v` holds in `s`, which belongs to a send of
    the queue itself. -/
def FromRc (s : Node M) (v : Nat) (d : Delivery M) : Prop :=
  ∃ rc, (s.vqs v).virtualQueue = some rc ∧ d.cq = .send (.rc rc.recvCtrl rc.id) ∧
    d.req.owner = .vq v

/-- What event `e`, called in state `s`, may take: a completion of the CQ that the
    call polls there. Pop polls the RC of the queue and with `dct_qp` the DC the
    queue uses; PopMsgs polls the receive CQ of the controller the queue connected
    over; a Push waits on the RC of the queue, or without one on the UD it uses;
    the RPC client polls the receive CQ of its controller and waits for its own
    sends on the UD. -/
def Fair (cfg : NodeConfig) (s : Node M) (e : NodeEvent) (d : Delivery M) : Prop :=
  d.req.cq = d.cq ∧
    match e with
    | .pop v _ =>
      d.call = .pop v ∧ (s.FromRc v d ∨
        cfg.feat.dctQp = true ∧ ∃ c, (s.vqs v).localDc = some c ∧ d.cq = .send (.dc c))
    | .popMsgs v _ =>
      d.call = .popMsgs v ∧ ∃ port, (s.vqs v).localConnectPort = some port ∧
        d.cq = .recv (cfg.machine.getGlobalRctrl port)
    | .pushWait v =>
      d.call = .pushWait v ∧ (s.FromRc v d ∨
        (s.vqs v).virtualQueue = none ∧
          ∃ c, (s.vqs v).localUd = some c ∧ d.cq = .send (.ud c))
    | .rpcCallRecv c _ => d.call = .rpcRecv c ∧ d.cq = .recv c
    | .rpcPollAll c _ _ => d.call = .rpcRecv c ∧ d.cq = .recv c
    | .rpcSendWait c => d.call = .rpcSend c ∧ d.cq = .send (.ud c) ∧ d.req.owner = .rpc c
    | _ => False

/-- The RCs of different queues differ, and the sends that are on their way were
    posted by the holder of the RC, or by the RPC client of the UD. Requests are
    handed out at most as often as they were posted, and what was handed out after
    `old` satisfies `P`. -/
structure Traffic (old : List (Delivery M)) (P : Delivery M → Prop) (s : Node M) : Prop where
  client : ∀ v, (s.vqs v).bindPort = none
  rc_lt : ∀ v rc, (s.vqs v).virtualQueue = some rc → rc.id < s.nextRc
  rc_inj : ∀ v v' rc rc', (s.vqs v).virtualQueue = some rc → (s.vqs v').virtualQueue = some rc' →
    rc.id = rc'.id → v = v'
  send_lt : ∀ r ∈ s.nic.all, ∀ serial c id, r.work = .send serial → r.qp = .rc c id → id < s.nextRc
  send_own : ∀ r ∈ s.nic.all, ∀ serial v rc c, r.work = .send serial →
    (s.vqs v).virtualQueue = some rc → r.qp = .rc c rc.id → r.owner = .vq v
  ud_own : ∀ r ∈ s.nic.all, ∀ serial c, r.work = .send serial → r.qp = .ud c → r.owner = .rpc c
  conserved : List.Subperm (s.nic.all ++ s.delivered.map Delivery.req) s.posted
  cqs : ∀ d ∈ s.delivered, d.req.cq = d.cq
  since : ∃ new, s.delivered = old ++ new ∧ ∀ d ∈ new, P d

theorem traffic_init (P : Delivery M → Prop) (localMr : TempMR) :
    (init (M := M) localMr).Traffic [] P where
  client _ := rfl
  rc_lt _ _ h := by cases h
  rc_inj _ _ _ _ h := by cases h
  send_lt _ h := by cases h
  send_own _ h := by cases h
  ud_own _ h := by cases h
  conserved := List.Subperm.refl _
  cqs _ h := by cases h
  since := ⟨[], rfl, nofun⟩

/-- A call starts with nothing taken yet. -/
theorem Traffic.start {old : List (Delivery M)} {P : Delivery M → Prop} {s : Node M}
    (h : s.Traffic old P) (Q : Delivery M → Prop) : s.Traffic s.delivered Q :=
  { h with since := ⟨[], (List.append_nil _).symm, nofun⟩ }

/-! ## The pieces of the calls -/

variable {old : List (Delivery M)} {P : Delivery M → Prop}

/-- Requests may disappear, and the controllers, the rings and the counter for RC
    numbers may change. -/
theorem Traffic.mono {s s' : Node M} (h : s.Traffic old P)
    (hvqs : s'.vqs = s.vqs) (hnext : s.nextRc ≤ s'.nextRc)
    (hnic : List.Subperm s'.nic.all s.nic.all) (hposted : s'.posted = s.posted)
    (hdel : s'.delivered = s.delivered) : s'.Traffic old P where
  client := by rw [hvqs]; exact h.client
  rc_lt v rc hrc := (h.rc_lt v rc (hvqs ▸ hrc)).trans_le hnext
  rc_inj := by rw [hvqs]; exact h.rc_inj
  send_lt r hr serial c id hw hqp :=
    (h.send_lt r (hnic.subset hr) serial c id hw hqp).trans_le hnext
  send_own r hr := by rw [hvqs]; exact h.send_own r (hnic.subset hr)
  ud_own r hr := h.ud_own r (hnic.subset hr)
  conserved := by
    rw [hposted, hdel]
    exact ((List.subperm_append_right _).mpr hnic).trans h.conserved
  cqs := by rw [hdel]; exact h.cqs
  since := by rw [hdel]; exact h.since

theorem Traffic.destroyRc {s : Node M} (h : s.Traffic old P) (c id : Nat) :
    (s.destroyRc c id).Traffic old P :=
  h.mono rfl le_rfl (s.nic.all_cancel_sublist _).subperm rfl rfl

theorem Traffic.setCtrl {s : Node M} (h : s.Traffic old P) (c : Nat)
    (ctrl : RCtrl) : (s.setCtrl c ctrl).Traffic old P :=
  h.mono rfl le_rfl (List.Subperm.refl _) rfl rfl

/-- Posting requests whose sends belong to the holder of the queue pair. -/
theorem Traffic.enqueue {s : Node M} (h : s.Traffic old P)
    {rs : List (Request M)}
    (hlt : ∀ r ∈ rs, ∀ serial c id, r.work = .send serial → r.qp = .rc c id → id < s.nextRc)
    (hown : ∀ r ∈ rs, ∀ serial v rc c, r.work = .send serial →
      (s.vqs v).virtualQueue = some rc → r.qp = .rc c rc.id → r.owner = .vq v)
    (hud : ∀ r ∈ rs, ∀ serial c, r.work = .send serial → r.qp = .ud c → r.owner = .rpc c) :
    (s.enqueue rs).Traffic old P := by
  have hmem : ∀ r ∈ (s.enqueue rs).nic.all, r ∈ s.nic.all ∨ r ∈ rs := fun r hr =>
    List.mem_append.mp ((s.nic.all_post rs).subset hr)
  refine { client := h.client, rc_lt := h.rc_lt, rc_inj := h.rc_inj, send_lt := ?_, send_own := ?_,
           ud_own := ?_, conserved := ?_, cqs := h.cqs, since := h.since }
  · intro r hr
    rcases hmem r hr with hr | hr
    · exact h.send_lt r hr
    · exact hlt r hr
  · intro r hr
    rcases hmem r hr with hr | hr
    · exact h.send_own r hr
    · exact hown r hr
  · intro r hr
    rcases hmem r hr with hr | hr
    · exact h.ud_own r hr
    · exact hud r hr
  · have hperm : ((s.enqueue rs).nic.all ++ s.delivered.map Delivery.req).Perm
        ((s.nic.all ++ s.delivered.map Delivery.req) ++ rs) := by
      refine ((s.nic.all_post rs).append_right _).trans ?_
      rw [List.append_assoc, List.append_assoc]
      exact List.perm_append_comm.append_left _
    exact hperm.subperm_right.mpr ((List.subperm_append_right rs).mpr h.conserved)

theorem Traffic.enqueue_recvs {s : Node M} (h : s.Traffic old P) {α : Type*}
    (owner : Party) (qp : QueuePair) (slots : List α) (f : α → RingSlot M) :
    (s.enqueue (slots.map fun i => { owner, qp, work := .recv (f i) })).Traffic old P := by
  have hno : ∀ r ∈ slots.map fun i => ({ owner, qp, work := .recv (f i) } : Request M),
      ∀ serial, r.work ≠ .send serial := by
    intro r hr serial
    obtain ⟨i, -, rfl⟩ := List.mem_map.mp hr
    simp
  exact h.enqueue (fun r hr serial _ _ hw => absurd hw (hno r hr serial))
    (fun r hr serial _ _ _ hw => absurd hw (hno r hr serial))
    (fun r hr serial _ hw => absurd hw (hno r hr serial))

theorem Traffic.postCtrl {s s' : Node M} (h : s.Traffic old P) {c : Nat}
    {owner : Party} {qp : QueuePair} {cnt : Nat} {ans : PostAnswer} {res : Except Int Unit}
    (hpost : s.postCtrl c owner qp cnt ans = some (s', res)) : s'.Traffic old P := by
  simp only [Node.postCtrl, Option.bind_eq_bind, Option.bind_eq_some_iff, Option.some.injEq,
    Prod.mk.injEq] at hpost
  obtain ⟨ctrl, -, out, -, rfl, -⟩ := hpost
  exact (h.setCtrl c _).enqueue_recvs owner qp out.slots (.ctrl c)

theorem Traffic.postRpc [NeZero M] {s s' : Node M} (h : s.Traffic old P)
    {c cnt : Nat} {ans : PostAnswer} (hpost : s.postRpc c cnt ans = some s') : s'.Traffic old P := by
  simp only [Node.postRpc, Option.bind_eq_bind, Option.bind_eq_some_iff, Option.some.injEq] at hpost
  obtain ⟨helper, -, out, -, rfl⟩ := hpost
  refine Traffic.enqueue_recvs ?_ (.rpc c) (.ud c) out.slots (.rpc c)
  exact h.mono rfl le_rfl (List.Subperm.refl _) rfl rfl

/-- Taking completions that the call may take. -/
theorem Traffic.take {s : Node M} (h : s.Traffic old P) {call : Call}
    {cq : CompletionQueue} (k : Nat)
    (hP : ∀ req ∈ s.nic.all, req.cq = cq → P { call, cq, req }) :
    (s.take call cq k).2.Traffic old P := by
  have hperm := s.nic.all_poll (fun r => r.cq = cq) k
  have hsub : ∀ r ∈ (s.take call cq k).2.nic.all, r ∈ s.nic.all := fun r hr =>
    hperm.subset (List.mem_append_right _ hr)
  refine { client := h.client, rc_lt := h.rc_lt, rc_inj := h.rc_inj,
           send_lt := fun r hr => h.send_lt r (hsub r hr),
           send_own := fun r hr => h.send_own r (hsub r hr),
           ud_own := fun r hr => h.ud_own r (hsub r hr), conserved := ?_, cqs := ?_, since := ?_ }
  · -- What is handed out moves from the device to the history.
    set taken := (s.nic.poll (fun r => r.cq = cq) k).1 with htaken
    set rest := (s.nic.poll (fun r => r.cq = cq) k).2.all with hrest
    have hmap : (s.take call cq k).2.delivered.map Delivery.req =
        s.delivered.map Delivery.req ++ taken := by
      simp [Node.take, Function.comp_def, htaken]
    have hmove : (rest ++ (s.delivered.map Delivery.req ++ taken)).Perm
        (s.nic.all ++ s.delivered.map Delivery.req) := by
      rw [← List.append_assoc]
      refine List.perm_append_comm.trans ?_
      rw [← List.append_assoc]
      exact hperm.append_right _
    change List.Subperm (rest ++ (s.take call cq k).2.delivered.map Delivery.req) s.posted
    rw [hmap]
    exact hmove.subperm_right.mpr h.conserved
  · intro d hd
    simp only [Node.take, List.mem_append, List.mem_map] at hd
    rcases hd with hold | ⟨req, hreq, rfl⟩
    · exact h.cqs d hold
    · simpa using (WorkQueue.mem_poll hreq).2
  · obtain ⟨new, hnew, hall⟩ := h.since
    refine ⟨new ++ (s.nic.poll (fun r => r.cq = cq) k).1.map (Delivery.mk call cq), ?_, ?_⟩
    · simp [Node.take, hnew]
    · intro d hd
      simp only [List.mem_append, List.mem_map] at hd
      rcases hd with hold | ⟨req, hreq, rfl⟩
      · exact hall d hold
      · obtain ⟨hmem, hcq⟩ := WorkQueue.mem_poll hreq
        exact hP req hmem (by simpa using hcq)

/-- A queue keeps its RC, loses it, or gets one with a fresh number. -/
theorem Traffic.setVq {s : Node M} (h : s.Traffic old P) {v next : Nat} {vq : VQ}
    (hnext : s.nextRc ≤ next) (hbind : vq.bindPort = none)
    (hrc : ∀ rc, vq.virtualQueue = some rc →
      (s.vqs v).virtualQueue = some rc ∨ (rc.id = s.nextRc ∧ s.nextRc < next)) :
    ({ s with nextRc := next }.setVq v vq).Traffic old P := by
  -- Every RC that is held afterwards was held by the same queue, or is the new one.
  have hheld : ∀ v' rc, (Function.update s.vqs v vq v').virtualQueue = some rc →
      (s.vqs v').virtualQueue = some rc ∨ (v' = v ∧ rc.id = s.nextRc ∧ s.nextRc < next) := by
    intro v' rc hv'
    by_cases hv : v' = v
    · subst hv
      rw [Function.update_self] at hv'
      rcases hrc rc hv' with hold | hnew
      · exact .inl hold
      · exact .inr ⟨rfl, hnew⟩
    · rw [Function.update_of_ne hv] at hv'
      exact .inl hv'
  refine { client := ?_, rc_lt := ?_, rc_inj := ?_, send_lt := ?_, send_own := ?_,
           ud_own := h.ud_own, conserved := h.conserved, cqs := h.cqs, since := h.since }
  · intro v'
    by_cases hv : v' = v
    · subst hv
      simpa [Node.setVq] using hbind
    · simpa [Node.setVq, hv] using h.client v'
  · intro v' rc hv'
    rcases hheld v' rc hv' with hold | ⟨-, hid, hlt⟩
    · exact (h.rc_lt v' rc hold).trans_le hnext
    · rw [hid]; exact hlt
  · intro v₁ v₂ rc₁ rc₂ h₁ h₂ hid
    rcases hheld v₁ rc₁ h₁ with hold₁ | ⟨hv₁, hid₁, -⟩ <;>
      rcases hheld v₂ rc₂ h₂ with hold₂ | ⟨hv₂, hid₂, -⟩
    · exact h.rc_inj v₁ v₂ rc₁ rc₂ hold₁ hold₂ hid
    · have := h.rc_lt v₁ rc₁ hold₁
      omega
    · have := h.rc_lt v₂ rc₂ hold₂
      omega
    · rw [hv₁, hv₂]
  · intro r hr serial c id hw hqp
    exact (h.send_lt r hr serial c id hw hqp).trans_le hnext
  · intro r hr serial v' rc c hw hv' hqp
    rcases hheld v' rc hv' with hold | ⟨-, hid, -⟩
    · exact h.send_own r hr serial v' rc c hw hold hqp
    · have := h.send_lt r hr serial c rc.id hw hqp
      omega

/-! ## The calls -/

section Step

variable {cfg : NodeConfig}

theorem Traffic.rcConnCallback {s s' : Node M} (h : s.Traffic old P) {c qd : Nat}
    {rtr : Bool} {ans : PostAnswer} (hstep : s.rcConnCallback c qd rtr ans = some s') :
    s'.Traffic old P := by
  simp only [Node.rcConnCallback, Option.bind_eq_bind, Option.bind_eq_some_iff,
    Prod.exists] at hstep
  obtain ⟨ctrl, -, key, ctrl', -, hstep⟩ := hstep
  have hnext : Traffic old P { s with nextRc := s.nextRc + 1 } :=
    h.mono rfl (Nat.le_succ _) (List.Subperm.refl _) rfl rfl
  cases rtr with
  | false =>
    simp only [Bool.false_eq_true, if_false, Option.some.injEq] at hstep
    subst hstep
    exact hnext.setCtrl c ctrl'
  | true =>
    simp only [if_true, Option.map_eq_some_iff, Prod.exists, exists_and_right,
      exists_eq_right] at hstep
    obtain ⟨res, hpost⟩ := hstep
    refine Traffic.postCtrl ?_ hpost
    cases ctrl'.registeredRcs key with
    | none => exact hnext.setCtrl c _
    | some id => exact (hnext.setCtrl c _).destroyRc c id

theorem Traffic.deregRc {s s' : Node M} (h : s.Traffic old P) {c key : Nat}
    (hstep : s.deregRc c key = some s') : s'.Traffic old P := by
  simp only [Node.deregRc, Option.bind_eq_bind, Option.bind_eq_some_iff] at hstep
  obtain ⟨ctrl, -, hstep⟩ := hstep
  split at hstep
  · simp only [Option.some.injEq] at hstep
    subst hstep
    exact h
  · simp only [Option.some.injEq] at hstep
    subst hstep
    exact (h.setCtrl c _).destroyRc c _

theorem Traffic.pushRecvImpl {s s' : Node M} (h : s.Traffic old P) {v cnt : Nat}
    {ans : PostAnswer} {status : ReplyStatus}
    (hstep : s.pushRecvImpl cfg v cnt ans = some (s', status)) : s'.Traffic old P := by
  simp only [Node.pushRecvImpl, h.client v] at hstep
  split at hstep
  · simp only [Option.some.injEq, Prod.mk.injEq] at hstep
    rw [← hstep.1]
    exact h
  · simp only [Option.bind_eq_some_iff, Option.map_eq_some_iff, Prod.exists] at hstep
    obtain ⟨qp, -, s₁, res, hpost, hreply⟩ := hstep
    obtain rfl : s₁ = s' := by cases res <;> exact (Prod.mk.inj hreply).1
    exact h.postCtrl hpost

theorem Traffic.connect {s s' : Node M} (h : s.Traffic old P) {v : Nat}
    {req : ConnectReq} (hstep : s.connect cfg v req = some s') : s'.Traffic old P := by
  simp only [Node.connect, Option.bind_eq_bind, Option.bind_eq_some_iff, Prod.exists,
    Option.some.injEq] at hstep
  obtain ⟨vq, status, point, himpl, rfl⟩ := hstep
  have hout := VQ.connectImpl_outcome himpl
  refine h.setVq (Nat.le_succ _) (hout.bindPort.trans (h.client v)) fun rc hrc => ?_
  rcases hout.virtualQueue with hsame | hnone | ⟨rc', hrc', hans⟩
  · exact .inl (hsame ▸ hrc)
  · rw [hnone] at hrc; cases hrc
  · obtain rfl : rc' = rc := Option.some.inj (hrc'.symm.trans hrc)
    refine .inr ⟨?_, Nat.lt_succ_self _⟩
    cases hr : req.ans.rc with
    | notCreated => simp [hr, RcAnswer.withId] at hans
    | failed errno => simp [hr, RcAnswer.withId] at hans
    | connected id =>
      simp only [hr, RcAnswer.withId, RcAnswer.connected.injEq] at hans
      exact hans.symm

theorem Traffic.migrate {s s' : Node M} (h : s.Traffic old P) {v : Nat}
    {rc : RcAnswer} (hstep : s.migrate cfg v rc = some s') : s'.Traffic old P := by
  simp only [Node.migrate] at hstep
  split at hstep
  · simp only [Option.bind_eq_bind, Option.bind_eq_some_iff] at hstep
    obtain ⟨param, -, hstep⟩ := hstep
    split at hstep
    · simp only [Option.some.injEq] at hstep
      subst hstep
      exact h.mono rfl (Nat.le_succ _) (List.Subperm.refl _) rfl rfl
    · rename_i qp hqp
      simp only [Option.some.injEq] at hstep
      subst hstep
      have hset : ({ s with nextRc := s.nextRc + 1 }.setVq v
          { s.vqs v with virtualQueue := qp }).Traffic old P := by
        refine h.setVq (Nat.le_succ _) (h.client v) fun rc' hrc' => .inr ⟨?_, Nat.lt_succ_self _⟩
        cases hr : rc with
        | notCreated =>
          simp only [hr, RcAnswer.withId, VQ.qpConnect, Except.ok.injEq] at hqp
          rw [← hqp] at hrc'
          cases hrc'
        | failed errno => simp [hr, RcAnswer.withId, VQ.qpConnect] at hqp
        | connected id =>
          simp only [hr, RcAnswer.withId, VQ.qpConnect, Except.ok.injEq] at hqp
          rw [← hqp] at hrc'
          rw [← Option.some.inj hrc']
      cases (s.vqs v).virtualQueue with
      | none => exact hset
      | some old => exact hset.destroyRc old.recvCtrl old.id
  · cases hstep

/-- The completions of the RC that a queue holds are its own sends. -/
theorem Traffic.takeRc {s : Node M} (h : s.Traffic old P) {v : Nat} {rc : RC} (call : Call)
    (hrc : (s.vqs v).virtualQueue = some rc)
    (hP : ∀ req, req.cq = .send (.rc rc.recvCtrl rc.id) → req.owner = .vq v →
      P { call, cq := .send (.rc rc.recvCtrl rc.id), req }) :
    (s.take call (.send (.rc rc.recvCtrl rc.id)) 1).2.Traffic old P := by
  refine h.take 1 fun r hr hcq => hP r hcq ?_
  obtain ⟨hqp, serial, hw⟩ := Request.work_of_cq_send hcq
  exact h.send_own r hr serial v rc rc.recvCtrl hw hrc hqp

theorem Traffic.popRc {s s₀ : Node M} {v vid : Nat} (h : s.Traffic old (Fair cfg s₀ (.pop v vid)))
    (hvqs : s.vqs = s₀.vqs) : (s.popRc v).Traffic old (Fair cfg s₀ (.pop v vid)) := by
  unfold Node.popRc
  split
  · exact h
  · rename_i rc hrc
    exact h.takeRc (.pop v) hrc fun req hcq hown =>
      ⟨hcq, rfl, .inl ⟨rc, hvqs ▸ hrc, rfl, hown⟩⟩

theorem Traffic.popImpl {s s' : Node M} {v vid : Nat} (h : s.Traffic old (Fair cfg s (.pop v vid)))
    (hstep : s.popImpl cfg v vid = some s') : s'.Traffic old (Fair cfg s (.pop v vid)) := by
  simp only [Node.popImpl, h.client v] at hstep
  split at hstep
  · rename_i hdct
    simp only [Option.map_eq_some_iff] at hstep
    obtain ⟨d, hd, rfl⟩ := hstep
    have htake : (s.take (.pop v) (.send (.dc d)) 1).2.Traffic old (Fair cfg s (.pop v vid)) :=
      h.take 1 fun _ _ hcq => ⟨hcq, rfl, .inr ⟨hdct, d, hd, rfl⟩⟩
    have hvqs : (s.take (.pop v) (.send (.dc d)) 1).2.vqs = s.vqs := rfl
    split
    · rename_i heq
      rw [heq] at htake hvqs
      exact htake.popRc hvqs
    · rename_i heq
      rw [heq] at htake
      exact htake
  · simp only [Option.some.injEq] at hstep
    subst hstep
    exact h.popRc rfl

theorem Traffic.push {s s' : Node M} (h : s.Traffic old P) {v : Nat}
    {serials : List Nat} (hstep : s.push v serials = some s') : s'.Traffic old P := by
  obtain ⟨qp, hqp, rfl⟩ := Node.push_eq_some hstep
  have hreq : ∀ r ∈ serials.map fun serial =>
      ({ owner := .vq v, qp, work := .send serial } : Request M), r.owner = .vq v ∧ r.qp = qp := by
    intro r hr
    obtain ⟨serial, -, rfl⟩ := List.mem_map.mp hr
    exact ⟨rfl, rfl⟩
  -- An RC that is pushed to is the one of the queue itself.
  have hrc : ∀ c id, qp = .rc c id → ∃ rc, (s.vqs v).virtualQueue = some rc ∧ rc.id = id := by
    intro c id hqp'
    subst hqp'
    unfold VQ.rcOrDc at hqp
    split at hqp
    · rename_i rc hrc
      simp only [Option.some.injEq, QueuePair.rc.injEq] at hqp
      exact ⟨rc, hrc, hqp.2⟩
    · simp at hqp
  refine h.enqueue (fun r hr serial c id _ hid => ?_) (fun r hr serial v' rc c _ hv' hid => ?_)
    (fun r hr serial c _ hud => ?_)
  · obtain ⟨rc, hv, rfl⟩ := hrc c id ((hreq r hr).2.symm.trans hid)
    exact h.rc_lt v rc hv
  · obtain ⟨rc', hv, hid'⟩ := hrc c rc.id ((hreq r hr).2.symm.trans hid)
    rw [(hreq r hr).1, h.rc_inj v v' rc' rc hv hv' hid']
  · have hud' : qp = .ud c := (hreq r hr).2.symm.trans hud
    subst hud'
    unfold VQ.rcOrDc at hqp
    split at hqp <;> simp at hqp

theorem Traffic.step [NeZero M] {s s' : Node M} {e : NodeEvent}
    (hclient : ∀ v port, e ≠ .binds v port) (hs : s.Traffic old P)
    (hstep : s.step cfg e = some s') : s'.Traffic s.delivered (Fair cfg s e) := by
  have h := hs.start (Fair cfg s e)
  cases e with
  | create c ans =>
    simp only [Node.step, Node.create] at hstep
    split at hstep
    · cases hstep
    · simp only [Option.map_eq_some_iff, Prod.exists, exists_and_right, exists_eq_right] at hstep
      obtain ⟨res, hpost⟩ := hstep
      exact (h.setCtrl c _).postCtrl hpost
  | rcConnCallback c qd rtr ans => exact h.rcConnCallback hstep
  | deregRc c key => exact h.deregRc hstep
  | trcPostRecv v c vid cnt ans =>
    obtain ⟨id, res, hpost⟩ := Node.step_trcPostRecv hstep
    exact h.postCtrl hpost
  | udPostRecv v c cnt ans =>
    obtain ⟨res, hpost⟩ := Node.step_udPostRecv hstep
    exact h.postCtrl hpost
  | pushRecv v cnt ans =>
    obtain ⟨status, hpush⟩ := Node.step_pushRecv hstep
    exact h.pushRecvImpl hpush
  | rpcCreate c ans =>
    simp only [Node.step, Node.rpcCreate] at hstep
    split at hstep
    · refine Traffic.postRpc ?_ hstep
      exact h.mono rfl le_rfl (List.Subperm.refl _) rfl rfl
    · cases hstep
  | rpcSend c serial =>
    rw [Node.rpcSend_eq_some hstep]
    refine h.enqueue ?_ ?_ ?_ <;> simp
  | rpcSendWait c =>
    rw [Node.rpcSendWait_eq_some hstep]
    -- In client mode nobody else sends on the UD of a controller.
    refine h.take 1 fun r hr hcq => ⟨hcq, rfl, rfl, ?_⟩
    obtain ⟨hqp, serial, hw⟩ := Request.work_of_cq_send hcq
    exact h.ud_own r hr serial c hw hqp
  | rpcCallRecv c ans =>
    simp only [Node.step, Node.rpcCallRecv] at hstep
    split at hstep
    · cases hstep
    · rename_i heq
      have htake := h.take 1 fun _ _ hcq => ⟨hcq, rfl, rfl⟩
      rw [heq] at htake
      exact htake.postRpc hstep
  | rpcPollAll c k ans =>
    simp only [Node.step, Node.rpcPollAll] at hstep
    split at hstep
    · exact (h.take k fun _ _ hcq => ⟨hcq, rfl, rfl⟩).postRpc hstep
    · cases hstep
  | connect v req => exact h.connect hstep
  | migrate v rc => exact h.migrate hstep
  | binds v port => exact absurd rfl (hclient v port)
  | unBinds v port =>
    simp only [Node.step, Node.unBinds, h.client v, Option.some.injEq] at hstep
    subst hstep
    exact h
  | push v serials => exact h.push hstep
  | pushWait v =>
    obtain ⟨qp, hqp, rfl⟩ := Node.pushWait_eq_some hstep
    -- The wait does not look at the queue that the requests went to: without an RC it is the UD.
    cases hrc : (s.vqs v).virtualQueue with
    | some rc =>
      simp only [VQ.rcOrUd, hrc, Option.some.injEq] at hqp
      subst hqp
      exact h.takeRc (.pushWait v) hrc fun req hcq hown =>
        ⟨hcq, rfl, .inl ⟨rc, hrc, rfl, hown⟩⟩
    | none =>
      simp only [VQ.rcOrUd, hrc, Option.map_eq_some_iff] at hqp
      obtain ⟨c, hc, rfl⟩ := hqp
      exact h.take 1 fun _ _ hcq => ⟨hcq, rfl, .inr ⟨hrc, c, hc, rfl⟩⟩
  | pop v vid => exact h.popImpl hstep
  | popMsgs v k =>
    simp only [Node.step, Node.popMsgs, h.client v] at hstep
    split at hstep
    · split at hstep
      · simp only [Option.some.injEq] at hstep
        subst hstep
        exact h
      · rename_i port hport
        simp only [Option.some.injEq] at hstep
        subst hstep
        exact h.take k fun _ _ hcq => ⟨hcq, rfl, port, hport, rfl⟩
    · cases hstep
  | complete i =>
    obtain ⟨nic, hnic, rfl⟩ := Node.step_complete hstep
    exact h.mono rfl le_rfl (WorkQueue.all_complete hnic).subperm rfl rfl

theorem traffic_run [NeZero M] {localMr : TempMR} {es : List NodeEvent} {s : Node M}
    (hclient : ∀ e ∈ es, ∀ v port, e ≠ .binds v port)
    (hrun : Run.exec (Node.step cfg) (init localMr) es = some s) :
    s.Traffic s.delivered fun _ => True :=
  Run.exec_invariant_of_forall (I := fun s => s.Traffic s.delivered fun _ => True)
    (fun _ _ _ hc hi hs => (Traffic.step hc hi hs).start _) hclient (traffic_init _ localMr) hrun

/-- In every run of a node whose queues stay in client mode, whatever a call
    takes is a completion of the CQ that the call polls, and its own where that CQ
    is its own. Nothing is handed out more often than it was posted, and whoever
    posted all requests of a CQ gets only its own from it. -/
theorem delivered_fair [NeZero M] (cfg : NodeConfig) (localMr : TempMR) (es : List NodeEvent)
    (s : Node M) (hclient : ∀ e ∈ es, ∀ v port, e ≠ .binds v port)
    (hrun : Run.exec (Node.step cfg) (init localMr) es = some s) :
    (∀ pre e (t t' : Node M), pre ++ [e] <+: es → Run.exec (Node.step cfg) (init localMr) pre = some t →
      Node.step cfg t e = some t' →
      ∃ new, t'.delivered = t.delivered ++ new ∧ ∀ d ∈ new, Fair cfg t e d) ∧
    List.Subperm (s.delivered.map Delivery.req) s.posted ∧
    ∀ p cq, (∀ r ∈ s.posted, r.cq = cq → r.owner = p) →
      ∀ d ∈ s.delivered, d.cq = cq → d.req.owner = p := by
  have h := traffic_run hclient hrun
  have hsub : List.Subperm (s.delivered.map Delivery.req) s.posted :=
    (List.sublist_append_right _ _).subperm.trans h.conserved
  refine ⟨fun pre e t t' hpre ht hstep => ?_, hsub, fun p cq hown d hd hcq => ?_⟩
  · have hpos := traffic_run
      (fun e' he' => hclient e' (hpre.subset (List.mem_append_left _ he'))) ht
    exact (hpos.step (hclient e (hpre.subset (by simp))) hstep).since
  · exact hown d.req (hsub.subset (List.mem_map_of_mem hd)) ((h.cqs d hd).trans hcq)

end Step

/-- Queues 1 and 2 connect over RCs to services of controller 0; queue 1 posts a
    receive, a message arrives on its RC, and queue 2 asks for messages. -/
def sharedRecvRun : List NodeEvent :=
  [.create 0 .ok, .connect 1 (.sample 'a' 1 (.connected 0)),
    .connect 2 (.sample 'b' 2 (.connected 0)), .pushRecv 1 1 .ok, .complete 2, .popMsgs 2 1]

/-- With `dct_qp` both queues use the DC of controller 0; the send of queue 1
    completes, and queue 2 pops. -/
def sharedDcRun : List NodeEvent :=
  [.create 0 .ok, .connect 1 (.sample 'a' 1 .notCreated), .connect 2 (.sample 'b' 2 .notCreated),
    .push 1 [7], .complete 2, .pop 2 0]

/-- The RPC client on controller 0 takes the message that queue 1 waits for. -/
def sharedRpcRun : List NodeEvent :=
  [.create 0 .ok, .rpcCreate 0 .ok, .connect 1 (.sample 'a' 1 (.connected 0)), .pushRecv 1 1 .ok,
    .complete 18, .rpcCallRecv 0 .ok]

/-- PopMsgs, Pop over DC and the RPC client each take a completion of a request
    that another party posted. -/
theorem shared_cq_mixes_parties :
    (∃ s : Node rpcBufferN, Run.exec (step (.sample .plain)) (init default) sharedRecvRun = some s ∧
      ∃ d ∈ s.delivered, d.call = .popMsgs 2 ∧ d.req.owner = .vq 1) ∧
    (∃ s : Node rpcBufferN, Run.exec (step (.sample .dct)) (init default) sharedDcRun = some s ∧
      ∃ d ∈ s.delivered, d.call = .pop 2 ∧ d.req.owner = .vq 1) ∧
    ∃ s : Node rpcBufferN, Run.exec (step (.sample .plain)) (init default) sharedRpcRun = some s ∧
      ∃ d ∈ s.delivered, d.call = .rpcRecv 0 ∧ d.req.owner = .vq 1 :=
  ⟨⟨_, rfl, _, List.mem_cons_self, rfl, rfl⟩, ⟨_, rfl, _, List.mem_cons_self, rfl, rfl⟩,
    ⟨_, rfl, _, List.mem_cons_self, rfl, rfl⟩⟩

/-- In `sharedRecvRun` what queue 2 takes comes from the controller it connected
    over. -/
theorem delivered_fair_sharedRecvRun :
    ∃ t t' : Node rpcBufferN,
      Run.exec (step (.sample .plain)) (init default) (sharedRecvRun.take 5) = some t ∧
      step (.sample .plain) t (.popMsgs 2 1) = some t' ∧ t'.delivered ≠ t.delivered ∧
      ∃ new, t'.delivered = t.delivered ++ new ∧
        ∀ d ∈ new, Fair (.sample .plain) t (.popMsgs 2 1) d :=
  ⟨_, _, rfl, rfl, nofun, (delivered_fair (.sample .plain) default sharedRecvRun _
    (fun e he v port h => by subst h; simp [sharedRecvRun] at he) rfl).1 (sharedRecvRun.take 5)
    (.popMsgs 2 1) _ _ (List.prefix_refl _) rfl rfl⟩

end Node
