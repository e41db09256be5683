-- SUMMARY: When the client-side resources of a virtual queue all belong to the controller of its last Connect.
import KRCore.Base.Run
import KRCore.VirtualQueue.Ioctl

/-!
# The controller of a queue

Every Connect sets `local_mr` and `local_connect_port`, but `local_dc` and
`local_ud` are only set while there is no DC, and the RC of a migration thread is
made on the controller that the thread was started for. `Owned` says that all of
them belong to the controller of `local_connect_port`, and that PopMsgs polls the
receive CQ of the queue that PushRecv posts to.
-/

/-- The local memory region that a Connect to a port of controller `c` sets. -/
def Machine.localMr (m : Machine) (c : Nat) : TempMR where
  addr := (m.testMr c).addr
  capacity := BitVec.ofNat 32 maxKmallocSz
  rkey := m.lkey c

/-- `RCtrl::get_dc`. -/
def Machine.getDc (m : Machine) (c : Nat) : Option Nat := if m.dcCreated c then some c else none

theorem Machine.getDc_eq_some {m : Machine} {c d : Nat} :
    m.getDc c = some d ↔ m.dcCreated c = true ∧ c = d := by
  unfold getDc
  split
  · rename_i h
    simp [h]
  · rename_i h
    simp [h]

namespace Ioctl

/-- The CQ that PopMsgs polls is the receive CQ of the queue that PushRecv posts to. -/
def SameCq (cfg : Config) (s : State) : Prop :=
  ∀ cnt ans r q ring slots, pushRecvImpl cfg s cnt ans = some r → .recv q ring slots ∈ r.ops →
    ∀ least polls c n, popMsgImpl cfg s least polls = some (some (c, n)) → c = q.recvCtrl

/-- The resources of the queue are those of controller `c`. -/
structure OwnedBy (cfg : Config) (s : State) (c : Nat) : Prop where
  dc : s.vq.localDc = cfg.machine.getDc c
  ud : s.vq.localUd = some c
  mr : s.vq.localCache.localMr = cfg.machine.localMr c
  cq : SameCq cfg s

def Owned (cfg : Config) (s : State) : Prop :=
  ∀ port, s.vq.localConnectPort = some port → OwnedBy cfg s (cfg.machine.getGlobalRctrl port)

/-! ## PushRecv and PopMsgs -/

theorem State.postRecvs_ops {s : State} {c : Nat} {q : Queue} {cnt : Nat} {ans : PostAnswer}
    {r : Reply} (h : s.postRecvs c q cnt ans = some r) : ∃ slots, r.ops = [.recv q c slots] := by
  simp only [State.postRecvs, Option.bind_eq_bind, Option.bind_eq_some_iff, Option.some.injEq] at h
  obtain ⟨out, -, rfl⟩ := h
  exact ⟨_, rfl⟩

/-- In bind mode both commands work on the controller that the queue is bound to. -/
theorem sameCq_of_bind {cfg : Config} {s : State} {port : Nat}
    (hbind : s.vq.bindPort = some port) : SameCq cfg s := by
  intro cnt ans r q ring slots hpush hmem least polls c n hpop
  simp only [popMsgImpl, hbind] at hpop
  split at hpop
  · cases hpop
  · simp only [Option.some.injEq, Prod.mk.injEq] at hpop
    simp only [pushRecvImpl, hbind] at hpush
    split at hpush
    · cases hpush
      cases hmem
    · obtain ⟨slots', hops⟩ := State.postRecvs_ops hpush
      rw [hops, List.mem_singleton] at hmem
      cases hmem
      rw [← hpop.1, Nat.mul_comm]
      rfl

/-- In client mode receives go to `clientQueue`. -/
theorem pushRecvImpl_client {cfg : Config} {s : State} {port cnt : Nat} {ans : PostAnswer}
    {r : Reply} {q : Queue} {ring : Nat} {slots : List (Fin ctrlRingSize)}
    (hbind : s.vq.bindPort = none) (hport : s.vq.localConnectPort = some port)
    (h : pushRecvImpl cfg s cnt ans = some r) (hmem : .recv q ring slots ∈ r.ops) :
    clientQueue s.vq = some q := by
  simp only [pushRecvImpl, hbind, hport, Option.bind_eq_bind, Option.bind_eq_some_iff] at h
  obtain ⟨q', hq, h⟩ := h
  obtain ⟨slots', hops⟩ := State.postRecvs_ops h
  rw [hops, List.mem_singleton] at hmem
  cases hmem
  exact hq

/-- In client mode the controller of the last Connect is polled. -/
theorem popMsgImpl_client {cfg : Config} {s : State} {port least c n : Nat} {polls : Nat → Int}
    (hbind : s.vq.bindPort = none) (hport : s.vq.localConnectPort = some port)
    (h : popMsgImpl cfg s least polls = some (some (c, n))) :
    c = cfg.machine.getGlobalRctrl port := by
  simp only [popMsgImpl, hbind, hport, Option.map_eq_some_iff, Option.some.injEq,
    Prod.mk.injEq] at h
  obtain ⟨_, -, hc, -⟩ := h
  exact hc.symm

/-- In client mode the two commands agree exactly if the queue that receives are posted to
    is on the controller of the last Connect. -/
theorem sameCq_iff {cfg : Config} {s : State} {port : Nat}
    (hport : s.vq.localConnectPort = some port)
    (hud : s.vq.localUd = some (cfg.machine.getGlobalRctrl port)) :
    SameCq cfg s ↔ (s.vq.bindPort = none → ∀ rc, s.vq.virtualQueue = some rc →
      rc.recvCtrl = cfg.machine.getGlobalRctrl port) := by
  constructor
  · intro h hbind rc hrc
    -- One receive and one poll that finds nothing tell the two controllers apart.
    obtain ⟨r, slots, hr, hops⟩ :=
      s.exists_postRecvs (cfg.machine.getGlobalRctrl port) (.rc rc.recvCtrl rc.id)
        (Nat.le_refl 1) (by decide) .ok
    have hpush : pushRecvImpl cfg s 1 .ok = some r := by
      simp only [pushRecvImpl, hbind, hport, clientQueue, hrc, Option.bind_eq_bind,
        Option.bind_some]
      exact hr
    have hpop : popMsgImpl cfg s 0 (fun _ => 0) =
        some (some (cfg.machine.getGlobalRctrl port, 0)) := by
      simp only [popMsgImpl, hbind, hport]
      rfl
    have hmem : DeviceOp.recv (.rc rc.recvCtrl rc.id) (cfg.machine.getGlobalRctrl port) slots ∈
        r.ops := by
      rw [hops]
      exact List.mem_singleton_self _
    exact (h 1 .ok r _ _ _ hpush hmem 0 _ _ _ hpop).symm
  · intro h
    cases hbind : s.vq.bindPort with
    | some bport => exact sameCq_of_bind hbind
    | none =>
      intro cnt ans r q ring slots hpush hmem least polls c n hpop
      have hq := pushRecvImpl_client hbind hport hpush hmem
      rw [popMsgImpl_client hbind hport hpop]
      -- Receives go to the RC if there is one, else to the UD of that controller.
      cases hrc : s.vq.virtualQueue with
      | some rc =>
        simp only [clientQueue, hrc, Option.some.injEq] at hq
        rw [← hq]
        exact (h hbind rc hrc).symm
      | none =>
        simp only [clientQueue, hrc, hud, Option.map_some, Option.some.injEq] at hq
        rw [← hq]
        rfl

/-! ## What a step must meet -/

/-- A Connect that is carried out goes to the controller of the DC that the queue has,
    if it has one. An RC that a thread stores in client mode, or that the queue has when
    it leaves bind mode, is on the controller of the last Connect. -/
def OnCtrl (cfg : Config) (s : State) : Event → Prop
  | .ioctl _ _ (.connect addr port _ _ _) =>
    s.vq.virtualQueue = none → ∀ a : Address, addr.text = some a.text →
      (cfg.machine.parseGid a.text).isSome = true → ∀ d, s.vq.localDc = some d →
        d = cfg.machine.getGlobalRctrl (servicePort port)
  | .ioctl _ _ (.unBinds port _) =>
    s.vq.bindPort = some (toUsize port) → ∀ rc p, s.vq.virtualQueue = some rc →
      s.vq.localConnectPort = some p → rc.recvCtrl = cfg.machine.getGlobalRctrl p
  | .thread i _ =>
    cfg.feat.virtualQueue = true → s.vq.bindPort = none → ∀ param rc p,
      s.threads[i]? = some (.connected param (some rc)) → s.vq.localConnectPort = some p →
        rc.recvCtrl = cfg.machine.getGlobalRctrl p
  | _ => True

/-- The DC and the UD of a queue are set together, by a Connect. -/
structure Paired (cfg : Config) (vq : VQ) : Prop where
  created : ∀ d, vq.localDc = some d → cfg.machine.dcCreated d = true
  ud : ∀ d, vq.localDc = some d → vq.localUd = some d
  dc : vq.localConnectPort = none → vq.localDc = none

theorem Paired.congr {cfg : Config} {vq vq' : VQ} (h : Paired cfg vq)
    (hdc : vq'.localDc = vq.localDc) (hud : vq'.localUd = vq.localUd)
    (hport : vq'.localConnectPort = vq.localConnectPort) : Paired cfg vq' where
  created d hd := h.created d (hdc ▸ hd)
  ud d hd := by
    rw [hud]
    exact h.ud d (hdc ▸ hd)
  dc hnone := by
    rw [hdc]
    exact h.dc (hport ▸ hnone)

theorem Paired.selectCtrl {cfg : Config} {vq : VQ} (h : Paired cfg vq) (port : Nat) :
    Paired cfg (VQ.selectCtrl cfg.machine vq port) := by
  have hsel : ∀ d, (VQ.selectCtrl cfg.machine vq port).localDc = some d →
      cfg.machine.dcCreated d = true ∧ (VQ.selectCtrl cfg.machine vq port).localUd = some d := by
    intro d hd
    cases hdc : vq.localDc with
    | none =>
      simp only [VQ.selectCtrl, hdc, Option.isNone_none, if_true] at hd ⊢
      obtain ⟨hcreated, rfl⟩ := Machine.getDc_eq_some.mp hd
      exact ⟨hcreated, rfl⟩
    | some d' =>
      simp only [VQ.selectCtrl, hdc, Option.isNone_some, Bool.false_eq_true, if_false,
        Option.some.injEq] at hd ⊢
      rw [← hd]
      exact ⟨h.created d' hdc, h.ud d' hdc⟩
  exact ⟨fun d hd => (hsel d hd).1, fun d hd => (hsel d hd).2, nofun⟩

/-- What a Connect does to the fields that matter here: nothing, or it selects the
    controller and leaves the queue with no RC or one on that controller. -/
inductive Selected (cfg : Config) (vq : VQ) (a : Address) (port : Nat) : VQ → Prop
  | refused (h : vq.virtualQueue.isSome = true ∨ cfg.machine.parseGid a.text = none) :
      Selected cfg vq a port vq
  | selected {vq' : VQ} (hfree : vq.virtualQueue = none)
      (hgid : (cfg.machine.parseGid a.text).isSome = true)
      (hdc : vq'.localDc = (VQ.selectCtrl cfg.machine vq port).localDc)
      (hud : vq'.localUd = (VQ.selectCtrl cfg.machine vq port).localUd)
      (hmr : vq'.localCache.localMr = cfg.machine.localMr (cfg.machine.getGlobalRctrl port))
      (hport : vq'.localConnectPort = some port) (hbind : vq'.bindPort = vq.bindPort)
      (hrc : ∀ rc, vq'.virtualQueue = some rc → rc.recvCtrl = cfg.machine.getGlobalRctrl port) :
      Selected cfg vq a port vq'

theorem Selected.of_explored {cfg : Config} {vq vq' : VQ} {a : Address} {port : Nat} {dgid : Gid}
    (hfree : vq.virtualQueue = none) (hgid : cfg.machine.parseGid a.text = some dgid)
    (hexp : VQ.Explored a dgid (VQ.selectCtrl cfg.machine vq port) vq') :
    Selected cfg vq a port vq' := by
  refine .selected hfree (by rw [hgid]; rfl) hexp.localDc hexp.localUd hexp.localMr
    hexp.localConnectPort hexp.bindPort fun rc hrc => ?_
  rw [hexp.virtualQueue, show (VQ.selectCtrl cfg.machine vq port).virtualQueue = none from hfree]
    at hrc
  cases hrc

theorem connectImpl_selected {cfg : Config} {vq vq' : VQ} {a : Address} {port vid : Nat}
    {ans : ConnectAnswers} {status : ReplyStatus} {pt : Option EndPoint}
    (h : VQ.connectImpl cfg.feat cfg.machine vq a port vid ans = some (vq', status, pt)) :
    Selected cfg vq a port vq' := by
  cases VQ.connectImpl_outcome h with
  | connected hrc => exact .refused (.inl hrc)
  | unparsable hgid => exact .refused (.inr hgid)
  | failed hfree hgid hexp => exact .of_explored hfree hgid hexp
  | @rc dgid vq₁ path qp _ hfree hgid hexp _ hqp =>
    split
    · refine .selected hfree (by rw [hgid]; rfl) hexp.localDc hexp.localUd hexp.localMr
        hexp.localConnectPort hexp.bindPort fun rc hrc => ?_
      -- The RC that `qp_connect` returns is on the controller of the port.
      cases hans : ans.rc with
      | notCreated =>
        rw [hans] at hqp
        cases hqp
        cases hrc
      | failed errno =>
        rw [hans] at hqp
        cases hqp
      | connected id =>
        rw [hans] at hqp
        cases hqp
        cases hrc
        rfl
    · exact .of_explored hfree hgid hexp
  | @hit dgid _ hfree hgid _ => exact .of_explored hfree hgid (.refl a dgid _)
  | @fetched dgid vq₁ point _ hfree hgid _ hexp =>
    refine .selected hfree (by rw [hgid]; rfl) hexp.localDc hexp.localUd hexp.localMr
      hexp.localConnectPort hexp.bindPort fun rc hrc => ?_
    have hnone : vq₁.virtualQueue = none := hexp.virtualQueue.trans hfree
    rw [show (VQ.storeEndpoint cfg.feat vq₁ a port point ans.ah).virtualQueue = none from hnone]
      at hrc
    cases hrc

theorem Paired.stepped {cfg : Config} {s s' : State} {e : Event} (h : Paired cfg s.vq)
    (hstep : Stepped cfg s e s') : Paired cfg s'.vq := by
  cases hstep with
  | kept _ hframe =>
    rw [hframe.vq]
    exact h
  | refused _ => exact h
  | @connect _ _ _ port _ _ _ a vq' status pt _ himpl =>
    cases connectImpl_selected himpl with
    | refused _ => exact h
    | selected _ _ hdc hud _ hport _ _ =>
      exact (h.selectCtrl (servicePort port)).congr hdc hud hport
  | binds _ => exact h.congr rfl rfl rfl
  | notBound _ => exact h
  | unBinds _ => exact h.congr rfl rfl rfl
  | thread _ => exact h
  | stored _ _ => exact h.congr rfl rfl rfl
  | others => exact h

/-! ## Runs -/

/-- `Owned` in terms of the fields. -/
theorem owned_iff {cfg : Config} {s : State} : Owned cfg s ↔
    ∀ port, s.vq.localConnectPort = some port →
      s.vq.localDc = cfg.machine.getDc (cfg.machine.getGlobalRctrl port) ∧
      s.vq.localUd = some (cfg.machine.getGlobalRctrl port) ∧
      s.vq.localCache.localMr = cfg.machine.localMr (cfg.machine.getGlobalRctrl port) ∧
      (s.vq.bindPort = none → ∀ rc, s.vq.virtualQueue = some rc →
        rc.recvCtrl = cfg.machine.getGlobalRctrl port) := by
  constructor
  · intro h port hport
    obtain ⟨hdc, hud, hmr, hcq⟩ := h port hport
    exact ⟨hdc, hud, hmr, (sameCq_iff hport hud).mp hcq⟩
  · intro h port hport
    obtain ⟨hdc, hud, hmr, hcq⟩ := h port hport
    exact ⟨hdc, hud, hmr, (sameCq_iff hport hud).mpr hcq⟩

theorem Owned.congr {cfg : Config} {s s' : State} (h : Owned cfg s) (hvq : s'.vq = s.vq) :
    Owned cfg s' := by
  rw [owned_iff] at h ⊢
  rw [hvq]
  exact h

theorem Owned.connect_iff {cfg : Config} {s s' : State} (hpair : Paired cfg s.vq) {port : Nat}
    (hdc : s'.vq.localDc = (VQ.selectCtrl cfg.machine s.vq port).localDc)
    (hud : s'.vq.localUd = (VQ.selectCtrl cfg.machine s.vq port).localUd)
    (hmr : s'.vq.localCache.localMr = cfg.machine.localMr (cfg.machine.getGlobalRctrl port))
    (hport : s'.vq.localConnectPort = some port)
    (hrc : ∀ rc, s'.vq.virtualQueue = some rc →
      rc.recvCtrl = cfg.machine.getGlobalRctrl port) :
    Owned cfg s' ↔ ∀ d, s.vq.localDc = some d → d = cfg.machine.getGlobalRctrl port := by
  rw [owned_iff]
  cases hold : s.vq.localDc with
  | none =>
    simp only [VQ.selectCtrl, hold, Option.isNone_none, if_true] at hdc hud
    refine ⟨fun _ => nofun, fun _ p hp => ?_⟩
    rw [hport, Option.some.injEq] at hp
    subst hp
    exact ⟨hdc, hud, hmr, fun _ => hrc⟩
  | some d =>
    simp only [VQ.selectCtrl, hold, Option.isNone_some, Bool.false_eq_true, if_false] at hdc hud
    constructor
    · intro h d' hd'
      obtain ⟨hdc', -⟩ := h port hport
      rw [hdc] at hdc'
      rw [Option.some.injEq] at hd'
      rw [← hd']
      exact (Machine.getDc_eq_some.mp hdc'.symm).2.symm
    · intro h p hp
      rw [hport, Option.some.injEq] at hp
      subst hp
      have hd := h d rfl
      refine ⟨?_, ?_, hmr, fun _ => hrc⟩
      · rw [hdc, eq_comm, Machine.getDc_eq_some]
        exact ⟨hd ▸ hpair.created d hold, hd.symm⟩
      · rw [hud, hpair.ud d hold, hd]

theorem Owned.step_iff {cfg : Config} {s s' : State} {e : Event} (hpair : Paired cfg s.vq)
    (h : Owned cfg s) (hstep : Stepped cfg s e s') : Owned cfg s' ↔ OnCtrl cfg s e := by
  cases hstep with
  | @kept _ _ call _ hcall hframe =>
    refine ⟨fun _ => ?_, fun _ => h.congr hframe.vq⟩
    cases call with
    | connect | unBinds => cases hcall
    | _ => trivial
  | refused hrefused =>
    refine ⟨fun _ hfree a ha => ?_, fun _ => h⟩
    rcases hrefused with hrc | htext
    · rw [hfree] at hrc
      cases hrc
    · exact absurd ha (htext a)
  | @connect _ _ addr port _ _ _ a vq' status pt htext himpl =>
    -- The text determines the address.
    have haddr : ∀ a' : Address, addr.text = some a'.text → a'.text = a.text := by
      intro a' ha'
      rw [htext, Option.some.injEq] at ha'
      exact ha'.symm
    cases connectImpl_selected himpl with
    | refused hrefused =>
      refine ⟨fun _ hfree a' ha' hgid => ?_, fun _ => h.congr rfl⟩
      rcases hrefused with hrc | hnone
      · rw [hfree] at hrc
        cases hrc
      · rw [haddr a' ha', hnone] at hgid
        cases hgid
    | selected hfree hgid hdc hud hmr hport _ hrc =>
      rw [Owned.connect_iff hpair hdc hud hmr hport hrc]
      exact ⟨fun hd _ _ _ _ => hd, fun hc => hc hfree a htext hgid⟩
  | @binds _ _ _ bindPort hbind =>
    refine ⟨fun _ => trivial, fun _ => ?_⟩
    rw [owned_iff] at h ⊢
    intro port hport
    obtain ⟨hdc, hud, hmr, hcq⟩ := h port hport
    refine ⟨hdc, hud, hmr, fun hnone => ?_⟩
    have hnone : bindPort = none := hnone
    rcases hbind with hsame | hsome
    · exact hcq (hsame.symm.trans hnone)
    · rw [hnone] at hsome
      cases hsome
  | notBound hne => exact ⟨fun _ heq => absurd heq hne, fun _ => h⟩
  | unBinds hport =>
    rw [owned_iff] at h ⊢
    constructor
    · intro h' _ rc p hrc hp
      exact (h' p hp).2.2.2 rfl rc hrc
    · intro hc p hp
      obtain ⟨hdc, hud, hmr, -⟩ := h p hp
      exact ⟨hdc, hud, hmr, fun _ rc hrc => hc hport rc p hrc hp⟩
  | thread hnot =>
    refine ⟨fun _ hfeat _ param rc p hthread => ?_, fun _ => h.congr rfl⟩
    rw [hnot param (some rc) hthread] at hfeat
    cases hfeat
  | @stored i _ param qp threads hthread hfeat =>
    rw [owned_iff] at h ⊢
    constructor
    · intro h' _ hbind param' rc p hthread' hp
      rw [hthread, Option.some.injEq] at hthread'
      cases hthread'
      exact (h' p hp).2.2.2 hbind rc rfl
    · intro hc p hp
      obtain ⟨hdc, hud, hmr, -⟩ := h p hp
      refine ⟨hdc, hud, hmr, fun hbind rc hrc => ?_⟩
      cases hrc
      exact hc hfeat hbind param rc p hthread hp
  | others => exact ⟨fun _ => trivial, fun _ => h.congr rfl⟩

/-- In every run of a queue from its opening, whatever the calls, the threads and the
    answers are, the resources of the queue belong to the controller of its last Connect
    in every state exactly if every step keeps to that controller. -/
theorem owned_always_iff (cfg : Config) (localMr : TempMR) (ctrls : Nat → Ctrl) (rpc : RpcRing)
    (es : List Event) :
    Run.Always (step cfg) (Owned cfg) (State.opened localMr ctrls rpc) es ↔
      Run.Guarded (step cfg) (OnCtrl cfg) (State.opened localMr ctrls rpc) es := by
  refine Run.always_iff_guarded (I := fun s => Paired cfg s.vq)
    (fun s e s' hpair hstep _ => hpair.stepped (step_stepped hstep))
    (fun s e s' hpair howned hstep => howned.step_iff hpair (step_stepped hstep)) ?_ ?_ es
  · exact ⟨nofun, nofun, fun _ => rfl⟩
  · intro port hport
    cases hport

/-- After a Connect to port 0 and another one to port 1, receives are posted to the UD
    of controller 0, and PopMsgs polls the CQ of controller 1. -/
theorem second_connect_mixes_ctrls :
    ∃ s, Run.exec (step (.sample .dct)) State.sample
        [.ioctl 0 0 (.sampleConnect 0 (.ok default)),
          .ioctl 0 0 (.sampleConnect 1 (.ok default))] = some s ∧
      s.vq.localConnectPort = some 1 ∧ s.vq.localDc = some 0 ∧ clientQueue s.vq = some (.ud 0) ∧
      popMsgImpl (.sample .dct) s 0 (fun _ => 0) = some (some (1, 0)) ∧ ¬Owned (.sample .dct) s := by
  refine ⟨_, rfl, rfl, rfl, rfl, rfl, fun h => ?_⟩
  have hud := (h 1 rfl).ud
  cases hud

end Ioctl
