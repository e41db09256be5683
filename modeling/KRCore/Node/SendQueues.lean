-- SUMMARY: The send queues that the virtual queues of a node share, and when a full one has a completion to be polled.
import KRCore.Base.SendQueue
import KRCore.VirtualQueue.Ioctl

/-!
# The send queues of a node

Any number of virtual queues push to the RCs, DCs and UDs of a node and poll their
completions. In bind mode the first request for every destination of a batch is
signalled, so that the requests of a batch bring their own completion. In client
mode the flags of the user are passed on unchanged.
-/

namespace Ioctl

/-! ## Queues and requests to the device -/

/-- `max_send_wr`: the default of `Config`, what `rc_conn_callback` sets for an accepted
    RC, and what `create_dc_qp` sets. -/
def maxSendWr : Queue → Nat
  | .rc _ _ => 2048
  | .trc _ _ => 256
  | .dc _ => 128
  | .ud _ => 2048

/-- What a request to the device does to the send queues: a request that is refused, and
    a poll that finds nothing, do nothing. -/
def DeviceOp.sends : DeviceOp → List (SendQueue.Op Queue)
  | .send q wr errno => if errno = 0 then [.post q wr.signaled] else []
  | .poll q found => if found then [.poll q] else []
  | .recv _ _ _ => []
  | .pollRecv _ _ => []

/-- The flags of the requests that queue `q` accepts. -/
def postedTo (q : Queue) (ops : List DeviceOp) : List Bool :=
  SendQueue.posted q (ops.flatMap DeviceOp.sends)

theorem postedTo_append (q : Queue) (ops ops' : List DeviceOp) :
    postedTo q (ops ++ ops') = postedTo q ops ++ postedTo q ops' := by
  rw [postedTo, List.flatMap_append, SendQueue.posted_append]
  rfl

theorem postedTo_cons (q : Queue) (op : DeviceOp) (ops : List DeviceOp) :
    postedTo q (op :: ops) = postedTo q [op] ++ postedTo q ops :=
  postedTo_append q [op] ops

theorem postedTo_send (q q' : Queue) (wr : SendRequest) (errno : Int) :
    postedTo q [.send q' wr errno] = if errno = 0 ∧ q' = q then [wr.signaled] else [] := by
  unfold postedTo DeviceOp.sends
  by_cases herr : errno = 0
  · simp [herr, SendQueue.posted]
  · simp [herr, SendQueue.posted]

@[simp] theorem postedTo_nil (q : Queue) : postedTo q [] = [] := rfl

@[simp] theorem postedTo_recv (q q' : Queue) (c : Nat) (slots : List (Fin ctrlRingSize)) :
    postedTo q [.recv q' c slots] = [] := rfl

@[simp] theorem postedTo_poll (q q' : Queue) (found : Bool) : postedTo q [.poll q' found] = [] := by
  cases found <;> rfl

@[simp] theorem postedTo_pollRecv (q : Queue) (c cnt : Nat) : postedTo q [.pollRecv c cnt] = [] := rfl

/-! ## The system -/

/-- The virtual queues of a node, and the unreclaimed requests of every send queue. -/
structure Fabric where
  vqs : Nat → State
  sends : Queue → List Bool

inductive Fabric.Event where
  /-- Something happens to virtual queue `v`. -/
  | vq (v : Nat) (e : Ioctl.Event)
  /-- An RPC client sends over the UD of controller `c`, signalled, and polls for the
      completion for a while. -/
  | rpcSend (c : Nat) (wr : UdWr) (errno : Int) (found : Bool)

namespace Fabric

def opened (localMr : TempMR) (ctrls : Nat → Ctrl) (rpc : RpcRing) : Fabric where
  vqs _ := State.opened localMr ctrls rpc
  sends _ := []

/-- The device serves a list of requests. -/
def serve (sends : Queue → List Bool) (ops : List DeviceOp) : Option (Queue → List Bool) :=
  Run.exec (SendQueue.apply maxSendWr) sends (ops.flatMap DeviceOp.sends)

/-- `UDOp::send`, with `wait_one_cq` if the request has been posted. -/
def rpcOps (c : Nat) (wr : UdWr) (errno : Int) (found : Bool) : List DeviceOp :=
  let wr := { wr with sendFlags := { signaled := true, inline := false } }
  .send (.ud c) (.ud wr) errno :: if errno = 0 then [.poll (.ud c) found] else []

def step (cfg : Config) (f : Fabric) : Event → Option Fabric
  | .vq v (.ioctl arg replyBuf call) => do
    let r ← ioctrl cfg (f.vqs v) arg replyBuf call
    let sends ← serve f.sends r.ops
    some { vqs := Function.update f.vqs v r.state, sends }
  | .vq v e => do
    let s ← Ioctl.step cfg (f.vqs v) e
    some { f with vqs := Function.update f.vqs v s }
  | .rpcSend c wr errno found => do
    let sends ← serve f.sends (rpcOps c wr errno found)
    some { f with sends }

/-- Every full send queue holds a signalled request whose completion has not been polled. -/
def Signalled (f : Fabric) : Prop :=
  ∀ q, SendQueue.Drainable (maxSendWr q) (f.sends q)

end Fabric

/-! ## What a client-mode Push posts -/

/-- The flags of the requests of a batch before the first that the driver refuses. -/
def acceptedFlags (ans : Nat → Int) : Nat → List CoreReq → List Bool
  | _, [] => []
  | idx, req :: reqs =>
    if ans idx = 0 then decide (req.sendFlags ≠ 0) :: acceptedFlags ans (idx + 1) reqs else []

/-- The flags of the requests of a Push before the first that the driver refuses. -/
def PushReq.accepted (p : PushReq) (ans : PushAnswers) : List Nat → List Bool
  | [] => []
  | k :: ks =>
    let flags := acceptedFlags (ans.send k) 0 (p.batch k)
    flags ++ if flags.length = (p.batch k).length then p.accepted ans ks else []

/-- The queue that a client-mode Push goes to: the RC if there is one, else the DC. -/
def sendTarget (vq : VQ) : Option Queue :=
  match vq.virtualQueue with
  | some rc => some (.rc rc.recvCtrl rc.id)
  | none => vq.localDc.map .dc

section ClientMode

variable {ω : Type} {build : CoreReq → Option ω} {send : ω → SendRequest}

/-- A batch that gets its reply has posted the requests before the first refused one, and
    it replies err exactly if there is a refused one. -/
theorem pushLoop_postedTo
    (hflag : ∀ req wr, build req = some wr → (send wr).signaled = decide (req.sendFlags ≠ 0))
    (q q' : Queue) {ans : Nat → Int} {idx : Nat} {reqs : List CoreReq} {status : ReplyStatus}
    (h : (pushLoop build ans idx reqs).reply = some status) :
    postedTo q ((pushLoop build ans idx reqs).posted.map fun p => .send q' (send p.1) p.2) =
        (if q' = q then acceptedFlags ans idx reqs else []) ∧
      (status = .err ↔ (acceptedFlags ans idx reqs).length ≠ reqs.length) := by
  induction reqs generalizing idx with
  | nil =>
    cases h
    refine ⟨?_, nofun, fun hne => absurd rfl hne⟩
    split <;> rfl
  | cons req reqs ih =>
    unfold pushLoop at h ⊢
    cases hb : build req with
    | none =>
      rw [hb] at h
      cases h
    | some wr =>
      simp only [hb] at h ⊢
      unfold acceptedFlags
      by_cases hans : ans idx = 0
      · simp only [hans, if_true] at h ⊢
        obtain ⟨hposted, hstatus⟩ := ih h
        refine ⟨?_, ?_⟩
        · rw [List.map_cons, postedTo_cons, postedTo_send, hposted, hflag req wr hb]
          by_cases hq : q' = q
          · simp [hq]
          · simp [hq]
        · rw [hstatus, List.length_cons, List.length_cons]
          omega
      · simp only [hans, if_false, Option.some.injEq] at h ⊢
        refine ⟨?_, fun _ => ?_, fun _ => h.symm⟩
        · rw [List.map_cons, List.map_nil, postedTo_send, if_neg fun hand => hans hand.1]
          split <;> rfl
        · rw [List.length_cons, List.length_nil]
          omega

theorem rcWr_signaled {paToVa : Nat → Nat} {localMr remoteMr : TempMR} (req : CoreReq) (wr : SendWr)
    (h : rcWr paToVa localMr remoteMr req = some wr) :
    (SendRequest.rdma wr).signaled = decide (req.sendFlags ≠ 0) := by
  simp only [rcWr, Option.map_eq_some_iff] at h
  obtain ⟨p, hp, rfl⟩ := h
  exact (sendParams_eq_some hp).2

theorem dcWr_signaled {paToVa : Nat → Nat} {localMr : TempMR} {point : EndPoint} (req : CoreReq)
    (wr : DcWr) (h : dcWr paToVa localMr point req = some wr) :
    (SendRequest.dc wr).signaled = decide (req.sendFlags ≠ 0) := by
  simp only [dcWr, Option.map_eq_some_iff] at h
  obtain ⟨p, hp, rfl⟩ := h
  exact (sendParams_eq_some hp).2

/-- What a batch does: nothing without a target, else it posts there. -/
theorem clientPush_postedTo {cfg : Config} {s : State} {reqs : List CoreReq} {ans : Nat → Int}
    {r : Reply} (h : clientPush cfg s reqs ans = some r) (q : Queue) :
    (sendTarget s.vq = none → postedTo q r.ops = []) ∧
      ∀ q', sendTarget s.vq = some q' →
        postedTo q r.ops = (if q' = q then acceptedFlags ans 0 reqs else []) ∧
          (r.status = .err ↔ (acceptedFlags ans 0 reqs).length ≠ reqs.length) := by
  unfold clientPush at h
  unfold sendTarget
  cases hrc : s.vq.virtualQueue with
  | some rc =>
    simp only [hrc, VQ.rcPushImpl, Option.map_eq_some_iff] at h
    obtain ⟨status, hreply, rfl⟩ := h
    refine ⟨fun hnone => (Option.some_ne_none _ hnone).elim, fun q' hq' => ?_⟩
    cases hq'
    exact pushLoop_postedTo rcWr_signaled q _ hreply
  | none =>
    cases hdc : s.vq.localDc with
    | none =>
      simp only [hrc, hdc, Option.map_eq_some_iff] at h
      obtain ⟨status, -, rfl⟩ := h
      exact ⟨fun _ => rfl, fun q' hq' => (Option.some_ne_none _ hq'.symm).elim⟩
    | some d =>
      cases hpoint : s.vq.localCache.remoteEndpoint with
      | none => simp [hrc, hdc, hpoint, VQ.dcPushImpl] at h
      | some point =>
        simp only [hrc, hdc, hpoint, VQ.dcPushImpl, Option.map_eq_some_iff, Option.elim_some] at h
        obtain ⟨status, hreply, rfl⟩ := h
        refine ⟨fun hnone => (Option.some_ne_none _ hnone).elim, fun q' hq' => ?_⟩
        cases hq'
        exact pushLoop_postedTo dcWr_signaled q _ hreply

/-- The batches post to the target of the queue, up to the first refused request. -/
theorem pushBatches_postedTo_client {cfg : Config} {p : PushReq} {ans : PushAnswers}
    {ks : List Nat} {s : State} {ret : ReplyStatus} {r : Reply} (hbind : s.vq.bindPort = none)
    (h : pushBatches cfg p ans ks s ret = some r) (q : Queue) :
    postedTo q r.ops = if sendTarget s.vq = some q then p.accepted ans ks else [] := by
  induction ks generalizing s ret r with
  | nil =>
    cases h
    change ([] : List Bool) = if _ then [] else []
    split <;> rfl
  | cons k ks ih =>
    obtain ⟨r₁, hbatch, hcases⟩ := pushBatches_cons_eq_some h
    have hvq := (pushBatch_frame hbatch).vq
    have hclient : clientPush cfg s (p.batch k) (ans.send k) = some r₁ := by
      simpa only [pushBatch, hbind] using hbatch
    have hrest := @ih r₁.state r₁.status
    rw [hvq] at hrest
    obtain ⟨hnone, hsome⟩ := clientPush_postedTo hclient q
    cases htarget : sendTarget s.vq with
    | none =>
      rcases hcases with ⟨-, rfl⟩ | ⟨-, r₂, hr₂, rfl⟩
      · exact hnone htarget
      · rw [postedTo_append, hnone htarget, hrest hbind hr₂, htarget]
        rfl
    | some q' =>
      obtain ⟨hposted, hstatus⟩ := hsome q' htarget
      simp only [PushReq.accepted, Option.some.injEq]
      rcases hcases with ⟨herr, rfl⟩ | ⟨herr, r₂, hr₂, rfl⟩
      · -- The batch has met an error: the rest is not posted.
        rw [hposted, if_neg (hstatus.mp herr), List.append_nil]
      · have hall : (acceptedFlags (ans.send k) 0 (p.batch k)).length = (p.batch k).length := by
          by_contra hne
          exact herr (hstatus.mpr hne)
        rw [postedTo_append, hposted, hrest hbind hr₂, htarget, if_pos hall]
        simp only [Option.some.injEq]
        split <;> rfl

end ClientMode

/-! ## What the other parts of Push post -/

theorem State.postRecvs_postedTo {s : State} {c : Nat} {q' : Queue} {cnt : Nat} {ans : PostAnswer}
    {r : Reply} (h : s.postRecvs c q' cnt ans = some r) (q : Queue) : postedTo q r.ops = [] := by
  simp only [State.postRecvs, Option.bind_eq_bind, Option.bind_eq_some_iff, Option.some.injEq] at h
  obtain ⟨out, -, rfl⟩ := h
  rfl

theorem pushRecvImpl_postedTo {cfg : Config} {s : State} {cnt : Nat} {ans : PostAnswer} {r : Reply}
    (h : pushRecvImpl cfg s cnt ans = some r) (q : Queue) : postedTo q r.ops = [] := by
  unfold pushRecvImpl at h
  split at h
  · simp only at h
    split at h
    · cases h
      rfl
    · exact State.postRecvs_postedTo h q
  · split at h
    · cases h
      rfl
    · simp only [Option.bind_eq_bind, Option.bind_eq_some_iff] at h
      obtain ⟨_, -, h⟩ := h
      exact State.postRecvs_postedTo h q

theorem pushWait_postedTo {r r' : Reply} {p : PushReq} {comp : Bool}
    (h : pushWait r p comp = some r') (q : Queue) : postedTo q r'.ops = postedTo q r.ops := by
  unfold pushWait at h
  split at h
  · simp only [Option.bind_eq_bind, Option.bind_eq_some_iff] at h
    obtain ⟨q', -, h⟩ := h
    split at h
    · cases h
      rw [postedTo_append, postedTo_poll, List.append_nil]
    · cases h
  · cases h
    rfl

/-- A Push posts what its batches post. -/
theorem push_postedTo {cfg : Config} {s : State} {arg : Nat} {p : PushReq} {ans : PushAnswers}
    {r : Reply} (h : push cfg s arg p ans = some r) :
    ∃ s₁ ret r₁, s₁.vq = s.vq ∧
      pushBatches cfg p ans (List.range p.batchCnt) s₁ ret = some r₁ ∧
      ∀ q, postedTo q r.ops = postedTo q r₁.ops := by
  simp only [push, Option.bind_eq_bind, Option.bind_eq_some_iff] at h
  obtain ⟨_, -, _, -, r₁, hfirst, r₂, hbatches, hwait⟩ := h
  refine ⟨r₁.state, r₁.status, r₂, (pushRecvFirst_frame hfirst).vq, hbatches, fun q => ?_⟩
  have hrecv : postedTo q r₁.ops = [] := by
    unfold pushRecvFirst at hfirst
    split at hfirst
    · exact pushRecvImpl_postedTo hfirst q
    · cases hfirst
      rfl
  rw [pushWait_postedTo hwait, postedTo_append, hrecv]
  rfl

/-! ## What a bind-mode Push posts -/

section BindMode

variable {localMr : TempMR} {rkey : BitVec 32} {c : Nat} {registered : Nat → Option Nat}
  {ans : BindAnswers}

/-- Nothing has been counted for queue `q` in this batch yet, so that the next request to
    it is signalled. -/
def BindLoop.Idle (c : Nat) (registered : Nat → Option Nat) (b : BindLoop) (q : Queue) : Prop :=
  (q = .ud c → ∀ vid, b.udPopCnt vid = 0) ∧
    ∀ id, q = .trc c id → ∀ vid, registered vid = some id → b.rcPopCnt vid = 0

/-- One request: it goes to the UD or an accepted RC of the controller; it is signalled if
    it is the first one there; the other queues stay idle. -/
theorem bindPushOne_spec {idx : Nat} {req : CoreReq} {b b' : BindLoop} {op : DeviceOp}
    (h : bindPushOne localMr rkey c registered ans idx req b = some (b', op)) :
    ∃ q₀ wr, op = .send q₀ wr (ans.send idx) ∧ (q₀ = .ud c ∨ ∃ id, q₀ = .trc c id) ∧
      (b.Idle c registered q₀ → wr.signaled = true) ∧
      ∀ q, q ≠ q₀ → b.Idle c registered q → b'.Idle c registered q := by
  cases bindPushOne_sent h with
  | ud _ _ _ =>
    refine ⟨_, _, rfl, .inl rfl, fun hidle => ?_, fun q hne hidle => ?_⟩
    · exact decide_eq_true (hidle.1 rfl _)
    · exact ⟨fun hq => absurd hq hne, hidle.2⟩
  | @rc _ id hid _ =>
    refine ⟨_, _, rfl, .inr ⟨id, rfl⟩, fun hidle => ?_, fun q hne hidle => ?_⟩
    · exact decide_eq_true (hidle.2 id rfl _ hid)
    · refine ⟨hidle.1, fun id' hq vid hvid => ?_⟩
      have hother : vid ≠ req.vid.toNat % hostLen := by
        rintro rfl
        rw [hid, Option.some.injEq] at hvid
        exact hne (by rw [hq, hvid])
      simpa [Function.update_of_ne hother] using hidle.2 id' hq vid hvid

/-- The requests of a batch to a queue: at most as many as the batch has, only to the UD
    and the accepted RCs, and the first one is signalled. -/
theorem bindPushLoop_postedTo {idx : Nat} {reqs : List CoreReq} {b b' : BindLoop}
    {status : ReplyStatus} {ops : List DeviceOp}
    (h : bindPushLoop localMr rkey c registered ans idx reqs b = some (b', status, ops))
    (q : Queue) :
    (postedTo q ops).length ≤ reqs.length ∧
      (postedTo q ops ≠ [] → q = .ud c ∨ ∃ id, q = .trc c id) ∧
      (b.Idle c registered q → ∀ flag ∈ (postedTo q ops).head?, flag = true) := by
  induction reqs generalizing idx b b' status ops with
  | nil =>
    cases h
    exact ⟨Nat.le_refl 0, fun hne => absurd rfl hne, fun _ => nofun⟩
  | cons req reqs ih =>
    simp only [bindPushLoop, Option.bind_eq_bind, Option.bind_eq_some_iff, Prod.exists] at h
    obtain ⟨b₁, op, hone, h⟩ := h
    obtain ⟨q₀, wr, rfl, hq₀, hsignaled, hidle⟩ := bindPushOne_spec hone
    split at h
    · rename_i hans
      simp only [Option.bind_eq_some_iff, Option.some.injEq, Prod.mk.injEq, Prod.exists] at h
      obtain ⟨b₂, status₂, ops₂, hrest, rfl, rfl, rfl⟩ := h
      obtain ⟨hlen, hwhere, hhead⟩ := ih hrest
      rw [postedTo_cons, postedTo_send, List.length_cons]
      by_cases hq : q₀ = q
      · subst hq
        simp only [hans, and_self, if_true, List.singleton_append, List.length_cons]
        refine ⟨Nat.succ_le_succ hlen, fun _ => hq₀, fun hi flag hflag => ?_⟩
        rw [List.head?_cons, Option.mem_def, Option.some.injEq] at hflag
        rw [← hflag]
        exact hsignaled hi
      · simp only [hq, and_false, if_false, List.nil_append]
        exact ⟨Nat.le_succ_of_le hlen, hwhere, fun hi => hhead (hidle q (Ne.symm hq) hi)⟩
    · -- A refused request ends the batch and is not posted.
      rename_i hans
      cases h
      rw [postedTo_send, if_neg fun hand => hans hand.1]
      exact ⟨Nat.zero_le _, fun hne => absurd rfl hne, fun _ => nofun⟩

theorem repost_postedTo {s : State} {q' : Queue} {cnt : Nat} {popAtOnce : Bool} {post : PostAnswer}
    {comp : Bool} {r : Reply} (h : repost s c q' cnt popAtOnce post comp = some r) (q : Queue) :
    postedTo q r.ops = [] := by
  unfold repost at h
  split at h
  · cases h
    rfl
  · simp only [Option.bind_eq_bind, Option.bind_eq_some_iff] at h
    obtain ⟨r', hpost, h⟩ := h
    have hnil := State.postRecvs_postedTo hpost q
    split at h
    · split at h
      · cases h
        rw [postedTo_append, hnil, postedTo_poll]
        rfl
      · cases h
    · cases h
      exact hnil

theorem repostRc_postedTo {s : State} {vid cnt : Nat} {popAtOnce : Bool} {r : Reply}
    (h : repostRc s c vid cnt popAtOnce ans = some r) (q : Queue) : postedTo q r.ops = [] := by
  unfold repostRc at h
  split at h
  · cases h
    rfl
  · simp only [Option.bind_eq_bind, Option.bind_eq_some_iff] at h
    obtain ⟨_, -, h⟩ := h
    exact repost_postedTo h q

theorem bindRepost_postedTo {b : BindLoop} {popAtOnce : Bool} {vids : List Nat} {s : State}
    {r : Reply} (h : bindRepost c b popAtOnce ans vids s = some r) (q : Queue) :
    postedTo q r.ops = [] := by
  induction vids generalizing s r with
  | nil =>
    cases h
    rfl
  | cons vid vids ih =>
    simp only [bindRepost, Option.bind_eq_bind, Option.bind_eq_some_iff] at h
    obtain ⟨r₁, hud, h⟩ := h
    split at h
    · simp only [Option.bind_eq_some_iff] at h
      obtain ⟨r₂, hrc, h⟩ := h
      split at h
      · simp only [Option.bind_eq_some_iff, Option.some.injEq] at h
        obtain ⟨r₃, hrest, rfl⟩ := h
        rw [postedTo_append, postedTo_append, repost_postedTo hud, repostRc_postedTo hrc, ih hrest]
        rfl
      · cases h
        rw [postedTo_append, repost_postedTo hud, repostRc_postedTo hrc]
        rfl
    · cases h
      exact repost_postedTo hud q

theorem bindServerPushImpl_postedTo {cfg : Config} {s : State} {port : Nat} {reqs : List CoreReq}
    {popAtOnce : Bool} {r : Reply} (h : bindServerPushImpl cfg s port reqs popAtOnce ans = some r)
    (q : Queue) :
    (postedTo q r.ops).length ≤ reqs.length ∧
      (postedTo q r.ops ≠ [] → (∃ d, q = .ud d) ∨ ∃ d id, q = .trc d id) ∧
      ∀ flag ∈ (postedTo q r.ops).head?, flag = true := by
  simp only [bindServerPushImpl, Option.bind_eq_bind, Option.bind_eq_some_iff, Prod.exists] at h
  obtain ⟨b, status, ops, hloop, h⟩ := h
  obtain ⟨hlen, hwhere, hhead⟩ := bindPushLoop_postedTo hloop q
  have hops : postedTo q r.ops = postedTo q ops := by
    split at h
    · simp only [Option.bind_eq_some_iff, Option.some.injEq] at h
      obtain ⟨r', hrepost, rfl⟩ := h
      rw [postedTo_append, bindRepost_postedTo hrepost, List.append_nil]
    · cases h
      rfl
  rw [hops]
  refine ⟨hlen, fun hne => ?_, hhead ⟨fun _ _ => rfl, fun _ _ _ _ => rfl⟩⟩
  rcases hwhere hne with hud | ⟨id, hrc⟩
  · exact .inl ⟨_, hud⟩
  · exact .inr ⟨_, id, hrc⟩

/-- The queues that bind mode pushes to. -/
def Queue.isServer : Queue → Bool
  | .ud _ => true
  | .trc _ _ => true
  | _ => false

/-- A batch of a bind-mode Push keeps the unsignalled requests below its size, and does not
    touch the queues of clients. -/
theorem bindServerPushImpl_keeps {cfg : Config} {s : State} {port : Nat} {reqs : List CoreReq}
    {popAtOnce : Bool} {r : Reply} (h : bindServerPushImpl cfg s port reqs popAtOnce ans = some r)
    (hsize : reqs.length ≤ defaultBatchSz) (q : Queue) :
    SendQueue.Keeps (defaultBatchSz - 1) (postedTo q r.ops) ∧
      (q.isServer = false → postedTo q r.ops = []) := by
  obtain ⟨hlen, hwhere, hhead⟩ := bindServerPushImpl_postedTo h q
  constructor
  · cases hposted : postedTo q r.ops with
    | nil => exact SendQueue.Keeps.nil _
    | cons flag flags =>
      rw [hposted] at hlen hhead
      rw [hhead flag rfl]
      refine SendQueue.Keeps.block ?_
      rw [List.length_cons] at hlen
      omega
  · intro hclient
    by_contra hne
    rcases hwhere hne with ⟨d, rfl⟩ | ⟨d, id, rfl⟩ <;> cases hclient

theorem pushBatches_postedTo_bind {cfg : Config} {p : PushReq} {pans : PushAnswers}
    {ks : List Nat} {s : State} {ret : ReplyStatus} {r : Reply} {port : Nat}
    (hbind : s.vq.bindPort = some port) (h : pushBatches cfg p pans ks s ret = some r) (q : Queue) :
    SendQueue.Keeps (defaultBatchSz - 1) (postedTo q r.ops) ∧
      (q.isServer = false → postedTo q r.ops = []) := by
  induction ks generalizing s ret r with
  | nil =>
    cases h
    exact ⟨SendQueue.Keeps.nil _, fun _ => rfl⟩
  | cons k ks ih =>
    obtain ⟨r₁, hbatch, hcases⟩ := pushBatches_cons_eq_some h
    have hserver : bindServerPushImpl cfg s port (p.batch k) (p.popRes ≠ 0) (pans.bind k) =
        some r₁ := by
      simpa only [pushBatch, hbind] using hbatch
    have hone := bindServerPushImpl_keeps hserver (p.batch_length_le k) q
    rcases hcases with ⟨-, rfl⟩ | ⟨-, r₂, hrest, rfl⟩
    · exact hone
    · rw [← (pushBatch_frame hbatch).vq] at hbind
      obtain ⟨hkeeps, hclient⟩ := ih hbind hrest
      rw [postedTo_append]
      refine ⟨hone.1.append hkeeps, fun hq => ?_⟩
      rw [hone.2 hq, hclient hq]
      rfl

end BindMode

/-! ## What the other calls post -/

/-- A signalled request, with a poll if it has been posted. -/
theorem sendThenPoll_signaled {q' : Queue} {wr : SendRequest} (hwr : wr.signaled = true)
    (errno : Int) (found : Bool) (q : Queue) :
    ∀ flag ∈ postedTo q (.send q' wr errno :: if errno = 0 then [.poll q' found] else []),
      flag = true := by
  intro flag hflag
  have hpoll : postedTo q (if errno = 0 then [.poll q' found] else []) = [] := by
    split
    · exact postedTo_poll q q' found
    · rfl
  rw [postedTo_cons, postedTo_send, hpoll, List.append_nil] at hflag
  split at hflag
  · rw [List.mem_singleton.mp hflag, hwr]
  · cases hflag

theorem dcRead_signaled (d : Nat) (vq : VQ) (point : EndPoint) (localPa sz remotePa : Nat)
    (ans : ReadAnswer) (q : Queue) :
    ∀ flag ∈ postedTo q (dcRead d vq point localPa sz remotePa ans), flag = true :=
  sendThenPoll_signaled rfl ans.errno ans.comp q

/-- A query of the metadata server is two reads. -/
theorem MetaScan.run_eq_some {cfg : Config} {vq : VQ} {scan : MetaScan} {ops : List DeviceOp}
    (h : scan.run cfg vq = some ops) :
    ∃ point d localBase remoteBase,
      ops = dcRead d vq point vq.localCache.localMr.addr.toNat 8 scan.kvPa.toNat scan.head ++
        dcRead d vq point localBase (scan.entriesNum.toNat * endPointSz) remoteBase scan.list := by
  simp only [MetaScan.run, Option.bind_eq_bind, Option.bind_eq_some_iff] at h
  obtain ⟨point, -, d, -, remoteBase, -, localBase, -, h⟩ := h
  refine ⟨point, d, localBase, remoteBase, ?_⟩
  split at h
  · cases h
  · split at h
    · exact (Option.some.inj h).symm
    · simp only [Option.bind_eq_some_iff, Option.some.injEq] at h
      obtain ⟨_, -, h⟩ := h
      exact h.symm

theorem fetch_signaled {cfg : Config} {scan : MetaScan} {start : VQ.Started} {ops : List DeviceOp}
    (h : fetch cfg scan start = some ops) (q : Queue) : ∀ flag ∈ postedTo q ops, flag = true := by
  intro flag hflag
  unfold fetch at h
  split at h
  · cases h
    cases hflag
  · split at h
    · obtain ⟨point, d, localBase, remoteBase, rfl⟩ := MetaScan.run_eq_some h
      rw [postedTo_append] at hflag
      rcases List.mem_append.mp hflag with hflag | hflag
      · exact dcRead_signaled d _ point _ _ _ _ q flag hflag
      · exact dcRead_signaled d _ point _ _ _ _ q flag hflag
    · cases h
      cases hflag

/-- A Connect posts signalled reads only. -/
theorem connect_signaled {cfg : Config} {s : State} {arg : Nat} {addr : UserAddr}
    {port vid : BitVec 32} {scan : MetaScan} {ans : ConnectAnswers} {r : Reply}
    (h : connect cfg s arg addr port vid scan ans = some r) (q : Queue) :
    ∀ flag ∈ postedTo q r.ops, flag = true := by
  unfold connect at h
  split at h
  · cases h
    simp [State.reply]
  · simp only [Option.bind_eq_bind, Option.bind_eq_some_iff] at h
    obtain ⟨_, -, text, -, h⟩ := h
    split at h
    · simp only [Option.bind_eq_some_iff, Option.some.injEq, Prod.exists] at h
      obtain ⟨ops, hops, _, _, _, -, rfl⟩ := h
      exact fetch_signaled hops q
    · cases h
      simp [State.reply]

/-- The commands that post send requests. -/
def Call.sends : Call → Bool
  | .connect .. => true
  | .push .. => true
  | _ => false

theorem popImpl_postedTo {cfg : Config} {s : State} {vid : Nat} {ans : PopAnswers}
    {out : Bool × List DeviceOp} (h : popImpl cfg s vid ans = some out) (q : Queue) :
    postedTo q out.2 = [] := by
  have hrc : ∀ found, postedTo q (popRc s.vq found).2 = [] := by
    intro found
    unfold popRc
    split
    · rfl
    · exact postedTo_poll q _ found
  unfold popImpl at h
  split at h
  · simp only at h
    split at h
    · cases h
      rfl
    · cases h
      exact postedTo_poll q _ ans.rc
  · split at h
    · simp only [Option.map_eq_some_iff] at h
      obtain ⟨d, -, rfl⟩ := h
      split
      · rfl
      · rw [postedTo_cons, postedTo_poll]
        exact hrc ans.rc
    · cases h
      exact hrc ans.rc

theorem rpcPoll_ops {s : State} {rounds : List (BitVec 32 × PostAnswer)} {r : Reply}
    (h : rpcPoll s rounds = some r) : r.ops = [] := by
  induction rounds generalizing s with
  | nil =>
    cases h
    rfl
  | cons round rounds ih =>
    unfold rpcPoll at h
    split at h
    · simp only [Option.bind_eq_bind, Option.bind_eq_some_iff] at h
      obtain ⟨_, -, h⟩ := h
      exact ih h
    · exact ih h

theorem ioctrl_postedTo {cfg : Config} {s : State} {arg replyBuf : BitVec 64} {call : Call}
    {r : Reply} (hcall : call.sends = false) (h : ioctrl cfg s arg replyBuf call = some r)
    (q : Queue) : postedTo q r.ops = [] := by
  cases call with
  | connect => cases hcall
  | push => cases hcall
  | nil | unknown =>
    cases h
    rfl
  | regMRs size =>
    simp only [ioctrl, regMRs, Option.bind_eq_bind, Option.bind_eq_some_iff, Option.some.injEq] at h
    obtain ⟨_, -, _, -, rfl⟩ := h
    rfl
  | pushRecv cnt ans =>
    simp only [ioctrl, pushRecv, Option.bind_eq_bind, Option.bind_eq_some_iff] at h
    obtain ⟨_, -, h⟩ := h
    exact pushRecvImpl_postedTo h q
  | pop vid ans =>
    simp only [ioctrl, pop, Option.bind_eq_bind, Option.bind_eq_some_iff, Option.some.injEq] at h
    obtain ⟨_, -, out, hout, _, -, rfl⟩ := h
    exact popImpl_postedTo hout q
  | popMsgs least payloadSz polls wrIds =>
    simp only [ioctrl, popMsgs, Option.bind_eq_bind, Option.bind_eq_some_iff] at h
    obtain ⟨_, -, _, -, found, -, h⟩ := h
    split at h
    · cases h
      rfl
    · simp only [Option.bind_eq_some_iff, Option.some.injEq] at h
      obtain ⟨_, -, rfl⟩ := h
      rfl
  | binds port =>
    simp only [ioctrl, binds, Option.bind_eq_bind, Option.bind_eq_some_iff] at h
    obtain ⟨_, -, h⟩ := h
    split at h
    · cases h
      rfl
    · split at h <;> (cases h; rfl)
  | unBinds port ret =>
    simp only [ioctrl, unBinds, Option.bind_eq_bind, Option.bind_eq_some_iff] at h
    obtain ⟨_, -, h⟩ := h
    split at h
    · split at h
      · cases h
      · cases h
        rfl
    · cases h
      rfl
  | rpcPoll rounds =>
    rw [rpcPoll_ops h]
    rfl

/-! ## Runs -/

namespace Fabric

/-- The requests that a client-mode Push leaves at the end of its queue: behind the last
    signalled request there are fewer than fit into the queue. -/
def Signals (f : Fabric) : Event → Prop
  | .vq v (.ioctl _ _ (.push p ans)) =>
    (f.vqs v).vq.bindPort = none → ∀ q, sendTarget (f.vqs v).vq = some q →
      SendQueue.unsignaledFrom (SendQueue.unsignaled (f.sends q))
        (p.accepted ans (List.range p.batchCnt)) < maxSendWr q
  | _ => True

/-- No queue is overfull, and those of the server side have few unsignalled requests at
    their end. -/
structure Inv (f : Fabric) : Prop where
  bounded : ∀ q, (f.sends q).length ≤ maxSendWr q
  server : ∀ q, q.isServer = true → SendQueue.unsignaled (f.sends q) ≤ defaultBatchSz - 1

theorem Inv.signalled_iff {f : Fabric} (h : f.Inv) :
    f.Signalled ↔ ∀ q, SendQueue.unsignaled (f.sends q) < maxSendWr q :=
  forall_congr' fun q => SendQueue.drainable_iff (h.bounded q)

theorem batch_lt_maxSendWr (q : Queue) : defaultBatchSz - 1 < maxSendWr q := by
  cases q with
  | rc => exact Nat.lt_of_sub_eq_succ rfl
  | trc => exact Nat.lt_of_sub_eq_succ rfl
  | dc => exact Nat.lt_of_sub_eq_succ rfl
  | ud => exact Nat.lt_of_sub_eq_succ rfl

/-- What the requests of a step post: what a client-mode Push has been given, or few
    unsignalled requests, and none of these to the queues of clients. -/
inductive Posts (f : Fabric) : Event → List DeviceOp → Prop
  | push {v : Nat} {arg replyBuf : BitVec 64} {p : PushReq} {ans : PushAnswers}
      {ops : List DeviceOp} (hbind : (f.vqs v).vq.bindPort = none)
      (hposts : ∀ q, postedTo q ops =
        if sendTarget (f.vqs v).vq = some q then p.accepted ans (List.range p.batchCnt) else []) :
      Posts f (.vq v (.ioctl arg replyBuf (.push p ans))) ops
  | tame {e : Event} {ops : List DeviceOp} (hsignals : f.Signals e)
      (hkeeps : ∀ q, SendQueue.Keeps (defaultBatchSz - 1) (postedTo q ops))
      (hclient : ∀ q, q.isServer = false → ∀ flag ∈ postedTo q ops, flag = true) : Posts f e ops

theorem Posts.of_signaled {f : Fabric} {e : Event} {ops : List DeviceOp} (hsignals : f.Signals e)
    (h : ∀ q, ∀ flag ∈ postedTo q ops, flag = true) : Posts f e ops :=
  .tame hsignals
    (fun q n hn => (SendQueue.unsignaledFrom_le_of_signaled (h q) n).trans hn) fun q _ => h q

theorem Posts.of_nil {f : Fabric} {e : Event} {ops : List DeviceOp} (hsignals : f.Signals e)
    (h : ∀ q, postedTo q ops = []) : Posts f e ops :=
  .of_signaled hsignals fun q flag hflag => by
    rw [h q] at hflag
    cases hflag

theorem rpcOps_signaled (c : Nat) (wr : UdWr) (errno : Int) (found : Bool) (q : Queue) :
    ∀ flag ∈ postedTo q (rpcOps c wr errno found), flag = true :=
  sendThenPoll_signaled rfl errno found q

theorem push_posts {cfg : Config} {f : Fabric} {v : Nat} {arg replyBuf : BitVec 64} {p : PushReq}
    {ans : PushAnswers} {r : Reply} (h : push cfg (f.vqs v) arg.toNat p ans = some r) :
    Posts f (.vq v (.ioctl arg replyBuf (.push p ans))) r.ops := by
  obtain ⟨s₁, ret, r₁, hvq, hbatches, hops⟩ := push_postedTo h
  cases hbind : (f.vqs v).vq.bindPort with
  | none =>
    refine .push hbind fun q => ?_
    rw [hops q, pushBatches_postedTo_client (by rw [hvq]; exact hbind) hbatches, hvq]
  | some port =>
    have hbatch := pushBatches_postedTo_bind (by rw [hvq]; exact hbind) hbatches
    refine .tame (fun hnone => ?_) (fun q => ?_) (fun q hq => ?_)
    · rw [hbind] at hnone
      cases hnone
    · rw [hops q]
      exact (hbatch q).1
    · rw [hops q, (hbatch q).2 hq]
      exact nofun

/-- What a step does to the send queues. -/
theorem step_posts {cfg : Config} {f f' : Fabric} {e : Event} (h : step cfg f e = some f') :
    ∃ ops, serve f.sends ops = some f'.sends ∧ Posts f e ops := by
  cases e with
  | rpcSend c wr errno found =>
    simp only [step, Option.bind_eq_bind, Option.bind_eq_some_iff, Option.some.injEq] at h
    obtain ⟨sends, hserve, rfl⟩ := h
    exact ⟨_, hserve, .of_signaled trivial (rpcOps_signaled c wr errno found)⟩
  | vq v e =>
    cases e with
    | thread | others =>
      simp only [step, Option.bind_eq_bind, Option.bind_eq_some_iff, Option.some.injEq] at h
      obtain ⟨s, -, rfl⟩ := h
      exact ⟨[], rfl, .of_nil trivial fun _ => rfl⟩
    | ioctl arg replyBuf call =>
      simp only [step, Option.bind_eq_bind, Option.bind_eq_some_iff, Option.some.injEq] at h
      obtain ⟨r, hr, sends, hserve, rfl⟩ := h
      refine ⟨r.ops, hserve, ?_⟩
      cases call with
      | connect => exact .of_signaled trivial (connect_signaled hr)
      | push => exact push_posts hr
      | _ => exact .of_nil trivial (ioctrl_postedTo rfl hr)

theorem sendTarget_isServer {vq : VQ} {q : Queue} (h : sendTarget vq = some q) :
    q.isServer = false := by
  unfold sendTarget at h
  split at h
  · cases h
    rfl
  · simp only [Option.map_eq_some_iff] at h
    obtain ⟨d, -, rfl⟩ := h
    rfl

theorem Inv.step {cfg : Config} {f f' : Fabric} {e : Event} (h : f.Inv)
    (hstep : step cfg f e = some f') : f'.Inv := by
  obtain ⟨ops, hserve, hposts⟩ := step_posts hstep
  refine ⟨SendQueue.length_le_of_exec h.bounded hserve, fun q hq => ?_⟩
  rw [SendQueue.unsignaled_of_exec hserve q]
  cases hposts with
  | push _ hposts =>
    -- A client does not push to a queue of the server side.
    have hother : ∀ vq, sendTarget vq ≠ some q := by
      intro vq htarget
      rw [sendTarget_isServer htarget] at hq
      cases hq
    rw [show SendQueue.posted q (ops.flatMap DeviceOp.sends) = postedTo q ops from rfl, hposts q,
      if_neg (hother _)]
    exact h.server q hq
  | tame _ hkeeps _ => exact hkeeps q _ (h.server q hq)

theorem Signalled.step_iff {cfg : Config} {f f' : Fabric} {e : Event} (hinv : f.Inv)
    (h : f.Signalled) (hstep : step cfg f e = some f') : f'.Signalled ↔ f.Signals e := by
  rw [hinv.signalled_iff] at h
  rw [(hinv.step hstep).signalled_iff]
  obtain ⟨ops, hserve, hposts⟩ := step_posts hstep
  have htail : ∀ q, SendQueue.unsignaled (f'.sends q) =
      SendQueue.unsignaledFrom (SendQueue.unsignaled (f.sends q)) (postedTo q ops) :=
    SendQueue.unsignaled_of_exec hserve
  cases hposts with
  | push hbind hposts =>
    constructor
    · intro h' _ q hq
      have hlt := h' q
      rwa [htail q, hposts q, if_pos hq] at hlt
    · intro hsignals q
      rw [htail q, hposts q]
      split
      · rename_i hq
        exact hsignals hbind q hq
      · exact h q
  | tame hsignals hkeeps hclient =>
    refine ⟨fun _ => hsignals, fun _ q => ?_⟩
    rw [htail q]
    cases hq : q.isServer with
    | true => exact (hkeeps q _ (hinv.server q hq)).trans_lt (batch_lt_maxSendWr q)
    | false => exact (SendQueue.unsignaledFrom_le_of_signaled (hclient q hq) _).trans_lt (h q)

theorem inv_of_empty {f : Fabric} (h : ∀ q, f.sends q = []) : f.Inv :=
  ⟨fun q => by rw [h q]; exact Nat.zero_le _, fun q _ => by rw [h q]; exact Nat.zero_le _⟩

theorem signalled_of_empty {f : Fabric} (h : ∀ q, f.sends q = []) : f.Signalled := by
  rw [(inv_of_empty h).signalled_iff]
  intro q
  rw [h q]
  exact (Nat.zero_le _).trans_lt (batch_lt_maxSendWr q)

/-- In every run of any number of virtual queues over their shared send queues, with any
    calls, flags, `vid`s, batches and answers, a full send queue has a completion to be
    polled in every state exactly if no client-mode Push ends in `max_send_wr` unsignalled
    requests. -/
theorem signalled_always_iff (cfg : Config) (localMr : TempMR) (ctrls : Nat → Ctrl) (rpc : RpcRing)
    (es : List Event) :
    Run.Always (step cfg) Signalled (opened localMr ctrls rpc) es ↔
      Run.Guarded (step cfg) Signals (opened localMr ctrls rpc) es :=
  Run.always_iff_guarded (I := Inv) (fun _ _ _ h hstep _ => h.step hstep)
    (fun _ _ _ h hsignalled hstep => hsignalled.step_iff h hstep) (inv_of_empty fun _ => rfl)
    (signalled_of_empty fun _ => rfl) es

end Fabric

end Ioctl
