-- SUMMARY: A node of the system: its controllers, RPC clients, virtual queues and the queue pairs of its device.
import KRCore.Base.WorkQueue
import KRCore.Qp.Handshake
import KRCore.Qp.RecvHelper
import KRCore.Rpc.RecvRing
import KRCore.VirtualQueue.Connect

/-!
# A node

All controllers (`RCtrl`), RPC clients and virtual queues of one machine, with
the work queues of its device. Requests carry their poster, which the code does
not record; `posted` and `delivered` are the history of all requests and of all
completions handed out. One event is one call that reaches the device, or one
completion by the device.

A virtual queue in bind mode sends through `bind_server_push_impl`; of that
function only the receives it reposts (`trc_post_recv`, `ud_post_recv`) are
events here.
-/

/-- `const N` of `ctrl.rs`: the size of a controller's receive ring. -/
abbrev ctrlRingSize : Nat := 2

instance : NeZero ctrlRingSize := ⟨by decide⟩

/-- The receives that `rc_conn_callback` asks for. -/
def connPostCnt : Nat := 512

/-- The receive rings of a node. -/
inductive RingId where
  | ctrl (c : Nat)
  | rpc (c : Nat)
deriving DecidableEq, Repr

/-- `RPC_BUFFER_N`: the size of an RPC client's receive ring. -/
abbrev rpcBufferN : Nat := 16

/-- The size of the receive buffer that an RPC client allocates. -/
def rpcRecvBufferSz : Nat := 1024 * 4

/-- The memory that has been allocated for a ring. -/
def RingId.size : RingId → Nat
  | .ctrl _ => maxKmallocSz
  | .rpc _ => rpcRecvBufferSz

/-- A queue pair; an RC has a number of its own and reports its receives to the
    CQ of a controller. -/
inductive QueuePair where
  | ud (ctrl : Nat)
  | dc (ctrl : Nat)
  | rc (ctrl id : Nat)
deriving DecidableEq, Repr

/-- Those who post requests. -/
inductive Party where
  | ctrl (c : Nat)
  | rpc (c : Nat)
  | vq (v : Nat)
deriving DecidableEq, Repr

/-- A slot of a receive ring. -/
inductive RingSlot (M : Nat) where
  | ctrl (c : Nat) (i : Fin ctrlRingSize)
  | rpc (c : Nat) (i : Fin M)
deriving DecidableEq

def RingSlot.ring {M : Nat} : RingSlot M → RingId
  | .ctrl c _ => .ctrl c
  | .rpc c _ => .rpc c

inductive Work (M : Nat) where
  | send (serial : Nat)
  | recv (slot : RingSlot M)
deriving DecidableEq

/-- A request on a queue pair. -/
structure Request (M : Nat) where
  owner : Party
  qp : QueuePair
  work : Work M
deriving DecidableEq

/-- The completion queues: each controller has one for the receives of all its
    queues, and each queue pair has one for its sends. -/
inductive CompletionQueue where
  | recv (ctrl : Nat)
  | send (qp : QueuePair)
deriving DecidableEq, Repr

def QueuePair.recvCtrl : QueuePair → Nat
  | .ud c => c
  | .dc c => c
  | .rc c _ => c

def Request.cq {M : Nat} (r : Request M) : CompletionQueue :=
  match r.work with
  | .send _ => .send r.qp
  | .recv _ => .recv r.qp.recvCtrl

/-- The calls that take completions. -/
inductive Call where
  | pop (v : Nat)
  | popMsgs (v : Nat)
  | pushWait (v : Nat)
  | unBinds (v : Nat)
  | rpcSend (c : Nat)
  | rpcRecv (c : Nat)
deriving DecidableEq, Repr

/-- A completion that a call took from a completion queue. -/
structure Delivery (M : Nat) where
  call : Call
  cq : CompletionQueue
  req : Request M
deriving DecidableEq

/-- A controller. `registered_rcs` maps keys to the numbers of accepted RCs. -/
structure RCtrl where
  recvBuffer : RecvHelper ctrlRingSize
  registeredRcs : Nat → Option Nat
  freeInQpKey : Nat

/-- What is fixed on a node. The pieces of memory allocated for the rings do not
    overlap. -/
structure NodeConfig where
  feat : Features
  machine : Machine
  paToVa : Nat → Nat
  base : RingId → Nat
  apart : ∀ r r', r ≠ r' →
    base r + r.size ≤ base r' ∨ base r' + r'.size ≤ base r

structure Node (M : Nat) where
  ctrls : Nat → Option RCtrl
  rpcs : Nat → Option (RecvHelper M)
  vqs : Nat → VQ
  nextRc : Nat
  nic : WorkQueue (Request M)
  posted : List (Request M)
  delivered : List (Delivery M)

inductive NodeEvent where
  | create (c : Nat) (ans : PostAnswer)
  | rcConnCallback (c qd : Nat) (rtr : Bool) (ans : PostAnswer)
  | deregRc (c key : Nat)
  | trcPostRecv (v c vid cnt : Nat) (ans : PostAnswer)
  | udPostRecv (v c cnt : Nat) (ans : PostAnswer)
  | pushRecv (v cnt : Nat) (ans : PostAnswer)
  | rpcCreate (c : Nat) (ans : PostAnswer)
  | rpcSend (c serial : Nat)
  | rpcSendWait (c : Nat)
  | rpcCallRecv (c : Nat) (ans : PostAnswer)
  | rpcPollAll (c k : Nat) (ans : PostAnswer)
  | connect (v : Nat) (req : ConnectReq)
  | migrate (v : Nat) (rc : RcAnswer)
  | binds (v port : Nat)
  | unBinds (v port : Nat)
  | push (v : Nat) (serials : List Nat)
  | pushWait (v : Nat)
  | pop (v vid : Nat)
  | popMsgs (v k : Nat)
  | complete (i : Nat)

/-- A new RC gets the next free number. -/
def RcAnswer.withId (ans : RcAnswer) (id : Nat) : RcAnswer :=
  match ans with
  | .connected _ => .connected id
  | ans => ans

/-- The key for a new RC. -/
def RCtrl.takeInQpKey (ctrl : RCtrl) (vid : Nat) : Option (Nat × RCtrl) :=
  (getNextInQpKey ctrl.freeInQpKey vid).map fun (key, free) =>
    (key, { ctrl with freeInQpKey := free })

/-- The queue that `push_recv_impl` posts to, and that a Push with `pop_res` waits
    for, in client mode: the RC if there is one, else `get_ud` (`none` is its
    panic). -/
def VQ.rcOrUd (vq : VQ) : Option QueuePair :=
  match vq.virtualQueue with
  | some rc => some (.rc rc.recvCtrl rc.id)
  | none => vq.localUd.map .ud

/-- The queue that a batch of a client-mode Push goes to: the RC if there is one,
    else the DC. -/
def VQ.rcOrDc (vq : VQ) : Option QueuePair :=
  match vq.virtualQueue with
  | some rc => some (.rc rc.recvCtrl rc.id)
  | none => vq.localDc.map .dc

namespace Node

variable {M : Nat}

/-- Before `Client::create` has made any controller. `localMr` is what a new
    queue starts with. -/
def init (localMr : TempMR) : Node M where
  ctrls _ := none
  rpcs _ := none
  vqs _ := VQ.opened localMr
  nextRc := 0
  nic := WorkQueue.empty
  posted := []
  delivered := []

/-! ## Pieces of the calls -/

def setCtrl (s : Node M) (c : Nat) (ctrl : RCtrl) : Node M :=
  { s with ctrls := Function.update s.ctrls c (some ctrl) }

def setVq (s : Node M) (v : Nat) (vq : VQ) : Node M :=
  { s with vqs := Function.update s.vqs v vq }

/-- Hand requests to the device. -/
def enqueue (s : Node M) (rs : List (Request M)) : Node M :=
  { s with nic := s.nic.post rs, posted := s.posted ++ rs }

/-- Dropping an RC destroys its queue pair. -/
def destroyRc (s : Node M) (c id : Nat) : Node M :=
  { s with nic := s.nic.cancel fun r => r.qp = .rc c id }

def dropRc (s : Node M) : Option RC → Node M
  | none => s
  | some rc => s.destroyRc rc.recvCtrl rc.id

/-- Poll up to `k` completions from a completion queue. -/
def take (s : Node M) (call : Call) (cq : CompletionQueue) (k : Nat) :
    List (Request M) × Node M :=
  let (taken, nic) := s.nic.poll (fun r => r.cq = cq) k
  (taken, { s with nic, delivered := s.delivered ++ taken.map fun req => { call, cq, req } })

/-- `post_recvs` on the ring of controller `c`. -/
def postCtrl (s : Node M) (c : Nat) (owner : Party) (qp : QueuePair) (cnt : Nat)
    (ans : PostAnswer) : Option (Node M × Except Int Unit) := do
  let ctrl ← s.ctrls c
  let out ← ctrl.recvBuffer.postRecvs cnt ans
  let rs := out.slots.map fun i => { owner, qp, work := .recv (.ctrl c i) }
  some ((s.setCtrl c { ctrl with recvBuffer := out.helper }).enqueue rs, out.result)

/-- `RPCClient::post_recv` of the client on the UD of controller `c`. -/
def postRpc [NeZero M] (s : Node M) (c cnt : Nat) (ans : PostAnswer) : Option (Node M) := do
  let helper ← s.rpcs c
  let out ← helper.postRecvs cnt ans
  let rs := out.slots.map fun i => { owner := .rpc c, qp := .ud c, work := .recv (.rpc c i) }
  some ({ s with rpcs := Function.update s.rpcs c (some out.helper) }.enqueue rs)

def getTrc (s : Node M) (c vid : Nat) : Option Nat :=
  (s.ctrls c).bind fun ctrl => ctrl.registeredRcs vid

/-! ## The calls -/

/-- The part of `RCtrl::create` that touches the device: the ring over the test
    memory is posted to the default UD. -/
def create (cfg : NodeConfig) (s : Node M) (c : Nat) (ans : PostAnswer) : Option (Node M) :=
  match s.ctrls c with
  | some _ => none
  | none =>
    let recvBuffer := RecvHelper.create cfg.paToVa (maxKmallocSz / ctrlRingSize)
      (cfg.machine.lkey c).toNat (cfg.base (.ctrl c))
    let ctrl : RCtrl := { recvBuffer, registeredRcs := fun _ => none, freeInQpKey := 0 }
    ((s.setCtrl c ctrl).postCtrl c (.ctrl c) (.ud c) ctrlRingSize ans).map Prod.fst

/-- `rc_conn_callback`. With `rtr` the new RC could be brought to RTR; otherwise
    it is dropped again. Registering an RC drops the one it replaces. -/
def rcConnCallback (s : Node M) (c qd : Nat) (rtr : Bool) (ans : PostAnswer) :
    Option (Node M) := do
  let ctrl ← s.ctrls c
  let (key, ctrl) ← ctrl.takeInQpKey qd
  let id := s.nextRc
  let s := { s with nextRc := id + 1 }
  if rtr then
    let released := ctrl.registeredRcs key
    let s := s.setCtrl c
      { ctrl with registeredRcs := Function.update ctrl.registeredRcs key (some id) }
    let s := released.elim s (s.destroyRc c)
    (s.postCtrl c (.ctrl c) (.rc c id) connPostCnt ans).map Prod.fst
  else some (s.setCtrl c ctrl)

/-- `dereg_rc`, on a disconnect request. -/
def deregRc (s : Node M) (c key : Nat) : Option (Node M) := do
  let ctrl ← s.ctrls c
  match ctrl.registeredRcs key with
  | none => some s
  | some id =>
    let s := s.setCtrl c
      { ctrl with registeredRcs := Function.update ctrl.registeredRcs key none }
    some (s.destroyRc c id)

/-- `trc_post_recv`; no RC under the key is a panic. -/
def trcPostRecv (s : Node M) (v c vid cnt : Nat) (ans : PostAnswer) :
    Option (Node M × Except Int Unit) := do
  let id ← s.getTrc c vid
  s.postCtrl c (.vq v) (.rc c id) cnt ans

/-- `ud_post_recv`. -/
def udPostRecv (s : Node M) (v c cnt : Nat) (ans : PostAnswer) :
    Option (Node M × Except Int Unit) :=
  s.postCtrl c (.vq v) (.ud c) cnt ans

/-- The reply to a posting. -/
def postReply : Node M × Except Int Unit → Node M × ReplyStatus
  | (s, .ok _) => (s, .ok)
  | (s, .error _) => (s, .err)

/-- `push_recv_impl`. -/
def pushRecvImpl (cfg : NodeConfig) (s : Node M) (v cnt : Nat) (ans : PostAnswer) :
    Option (Node M × ReplyStatus) :=
  let vq := s.vqs v
  match vq.bindPort with
  | some port =>
    let c := cfg.machine.getGlobalRctrl (port * 2)
    match s.getTrc c 1 with
    | none => some (s, .notConnected)
    | some id => (s.postCtrl c (.vq v) (.rc c id) cnt ans).map postReply
  | none =>
    match vq.localConnectPort with
    | none => some (s, .notConnected)
    | some port =>
      vq.rcOrUd.bind fun qp =>
        (s.postCtrl (cfg.machine.getGlobalRctrl port) (.vq v) qp cnt ans).map postReply

/-- `RPCClient::create` on the UD of controller `c`. -/
def rpcCreate [NeZero M] (cfg : NodeConfig) (s : Node M) (c : Nat) (ans : PostAnswer) :
    Option (Node M) :=
  match s.ctrls c, s.rpcs c with
  | some _, none =>
    let helper := RecvHelper.create cfg.paToVa rpcSlotSz (cfg.machine.lkey c).toNat
      (cfg.base (.rpc c))
    { s with rpcs := Function.update s.rpcs c (some helper) }.postRpc c M ans
  | _, _ => none

/-- `UDOp::send` of the RPC client: a signalled send on the shared UD. -/
def rpcSend (s : Node M) (c serial : Nat) : Option (Node M) :=
  (s.rpcs c).map fun _ => s.enqueue [{ owner := .rpc c, qp := .ud c, work := .send serial }]

/-- `wait_one_cq`: at most one completion of the UD's send CQ. -/
def rpcSendWait (s : Node M) (c : Nat) : Option (Node M) :=
  (s.rpcs c).map fun _ => (s.take (.rpcSend c) (.send (.ud c)) 1).2

/-- The receive side of `call` when it finds a completion. -/
def rpcCallRecv [NeZero M] (s : Node M) (c : Nat) (ans : PostAnswer) : Option (Node M) :=
  match s.take (.rpcRecv c) (.recv c) 1 with
  | ([], _) => none
  | (_, s) => s.postRpc c 1 ans

/-- One round of `poll_all` that finds `k` completions, at most the ring size. -/
def rpcPollAll [NeZero M] (s : Node M) (c k : Nat) (ans : PostAnswer) : Option (Node M) :=
  if 1 ≤ k ∧ k ≤ M ∧ (s.take (.rpcRecv c) (.recv c) k).1.length = k then
    (s.take (.rpcRecv c) (.recv c) k).2.postRpc c k ans
  else none

/-- Connect on queue `v`. A new RC gets the next free number. -/
def connect (cfg : NodeConfig) (s : Node M) (v : Nat) (req : ConnectReq) : Option (Node M) := do
  let ans := { req.ans with rc := req.ans.rc.withId s.nextRc }
  let (vq, _) ← (s.vqs v).connectImpl cfg.feat cfg.machine req.addr req.port req.vid ans
  some ({ s with nextRc := s.nextRc + 1 }.setVq v vq)

/-- A migration thread of queue `v` that has passed its check: it runs
    `qp_connect` and stores the RC. -/
def migrate (cfg : NodeConfig) (s : Node M) (v : Nat) (rc : RcAnswer) : Option (Node M) := do
  if cfg.feat.migrateQp && cfg.feat.virtualQueue then
    let param ← (s.vqs v).rcConnectParam
    match VQ.qpConnect cfg.machine param.port param.path (rc.withId s.nextRc) with
    | .error _ => some { s with nextRc := s.nextRc + 1 }
    | .ok qp =>
      let old := (s.vqs v).virtualQueue
      some (({ s with nextRc := s.nextRc + 1 }.setVq v
        { s.vqs v with virtualQueue := qp }).dropRc old)
  else none

/-- `MAX_SERVICE_NUM`. -/
def maxServiceNum : Nat := 25

/-- `Binds`. -/
def binds (s : Node M) (v port : Nat) : Node M × ReplyStatus :=
  if (s.vqs v).bindPort.isSome then (s, .alreadyBind)
  else if maxServiceNum < port then (s, .nil)
  else (s.setVq v { s.vqs v with bindPort := some port }, .ok)

/-- `UnBinds`: it also throws away the messages that have arrived. -/
def unBinds (cfg : NodeConfig) (s : Node M) (v port : Nat) : Node M × ReplyStatus :=
  if (s.vqs v).bindPort = some port then
    let s := (s.take (.unBinds v) (.recv (cfg.machine.getGlobalRctrl (port * 2))) 2048).2
    (s.setVq v { s.vqs v with bindPort := none }, .ok)
  else (s, .notBind)

/-- One batch of a client-mode Push: the signalled requests that were accepted. -/
def push (s : Node M) (v : Nat) (serials : List Nat) : Option (Node M) :=
  if (s.vqs v).isBindMode then none
  else
    (s.vqs v).rcOrDc.map fun qp =>
      s.enqueue (serials.map fun serial => { owner := .vq v, qp, work := .send serial })

/-- The wait at the end of a client-mode Push with `pop_res`. -/
def pushWait (s : Node M) (v : Nat) : Option (Node M) :=
  if (s.vqs v).isBindMode then none
  else (s.vqs v).rcOrUd.map fun qp => (s.take (.pushWait v) (.send qp) 1).2

/-- Pop from the RC of the queue. -/
def popRc (s : Node M) (v : Nat) : Node M :=
  match (s.vqs v).virtualQueue with
  | none => s
  | some rc => (s.take (.pop v) (.send (.rc rc.recvCtrl rc.id)) 1).2

/-- `pop_impl`: with `dct_qp` the CQ of the DC is polled first. -/
def popImpl (cfg : NodeConfig) (s : Node M) (v vid : Nat) : Option (Node M) :=
  let vq := s.vqs v
  match vq.bindPort with
  | some port =>
    let c := cfg.machine.getGlobalRctrl (port * 2)
    match s.getTrc c vid with
    | none => some s
    | some id => some (s.take (.pop v) (.send (.rc c id)) 1).2
  | none =>
    if cfg.feat.dctQp then
      vq.localDc.map fun d =>
        match s.take (.pop v) (.send (.dc d)) 1 with
        | ([], s) => s.popRc v
        | (_, s) => s
    else some (s.popRc v)

/-- One poll of `pop_msg_impl`, which finds up to `k` of the 2048 completions it
    asks for. -/
def popMsgs (cfg : NodeConfig) (s : Node M) (v k : Nat) : Option (Node M) :=
  if k ≤ 2048 then
    let vq := s.vqs v
    match vq.bindPort with
    | some port =>
      some (s.take (.popMsgs v) (.recv (cfg.machine.getGlobalRctrl (2 * port))) k).2
    | none =>
      match vq.localConnectPort with
      | none => some s
      | some port => some (s.take (.popMsgs v) (.recv (cfg.machine.getGlobalRctrl port)) k).2
  else none

def step [NeZero M] (cfg : NodeConfig) (s : Node M) : NodeEvent → Option (Node M)
  | .create c ans => s.create cfg c ans
  | .rcConnCallback c qd rtr ans => s.rcConnCallback c qd rtr ans
  | .deregRc c key => s.deregRc c key
  | .trcPostRecv v c vid cnt ans => (s.trcPostRecv v c vid cnt ans).map Prod.fst
  | .udPostRecv v c cnt ans => (s.udPostRecv v c cnt ans).map Prod.fst
  | .pushRecv v cnt ans => (s.pushRecvImpl cfg v cnt ans).map Prod.fst
  | .rpcCreate c ans => s.rpcCreate cfg c ans
  | .rpcSend c serial => s.rpcSend c serial
  | .rpcSendWait c => s.rpcSendWait c
  | .rpcCallRecv c ans => s.rpcCallRecv c ans
  | .rpcPollAll c k ans => s.rpcPollAll c k ans
  | .connect v req => s.connect cfg v req
  | .migrate v rc => s.migrate cfg v rc
  | .binds v port => some (s.binds v port).1
  | .unBinds v port => some (s.unBinds cfg v port).1
  | .push v serials => s.push v serials
  | .pushWait v => s.pushWait v
  | .pop v vid => s.popImpl cfg v vid
  | .popMsgs v k => s.popMsgs cfg v k
  | .complete i => (s.nic.complete i).map fun nic => { s with nic }

/-! ## What single events do -/

section Inversion

variable [NeZero M] {cfg : NodeConfig} {s s' : Node M}

theorem step_trcPostRecv {v c vid cnt : Nat} {ans : PostAnswer}
    (h : s.step cfg (.trcPostRecv v c vid cnt ans) = some s') :
    ∃ id res, s.postCtrl c (.vq v) (.rc c id) cnt ans = some (s', res) := by
  simp only [step, trcPostRecv, Option.bind_eq_bind, Option.map_eq_some_iff,
    Option.bind_eq_some_iff, Prod.exists] at h
  obtain ⟨s₁, res, ⟨id, -, hpost⟩, rfl⟩ := h
  exact ⟨id, res, hpost⟩

theorem step_udPostRecv {v c cnt : Nat} {ans : PostAnswer}
    (h : s.step cfg (.udPostRecv v c cnt ans) = some s') :
    ∃ res, s.postCtrl c (.vq v) (.ud c) cnt ans = some (s', res) := by
  simp only [step, udPostRecv, Option.map_eq_some_iff, Prod.exists] at h
  obtain ⟨s₁, res, hpost, rfl⟩ := h
  exact ⟨res, hpost⟩

theorem step_pushRecv {v cnt : Nat} {ans : PostAnswer}
    (h : s.step cfg (.pushRecv v cnt ans) = some s') :
    ∃ status, s.pushRecvImpl cfg v cnt ans = some (s', status) := by
  simp only [step, Option.map_eq_some_iff, Prod.exists] at h
  obtain ⟨s₁, status, hpush, rfl⟩ := h
  exact ⟨status, hpush⟩

omit [NeZero M] in
theorem rpcSend_eq_some {c serial : Nat} (h : s.rpcSend c serial = some s') :
    s' = s.enqueue [{ owner := .rpc c, qp := .ud c, work := .send serial }] := by
  simp only [rpcSend, Option.map_eq_some_iff] at h
  obtain ⟨helper, -, rfl⟩ := h
  rfl

omit [NeZero M] in
theorem rpcSendWait_eq_some {c : Nat} (h : s.rpcSendWait c = some s') :
    s' = (s.take (.rpcSend c) (.send (.ud c)) 1).2 := by
  simp only [rpcSendWait, Option.map_eq_some_iff] at h
  obtain ⟨helper, -, rfl⟩ := h
  rfl

omit [NeZero M] in
theorem push_eq_some {v : Nat} {serials : List Nat} (h : s.push v serials = some s') :
    ∃ qp, (s.vqs v).rcOrDc = some qp ∧
      s' = s.enqueue (serials.map fun serial => { owner := .vq v, qp, work := .send serial }) := by
  simp only [push] at h
  split at h
  · cases h
  · simp only [Option.map_eq_some_iff] at h
    obtain ⟨qp, hqp, rfl⟩ := h
    exact ⟨qp, hqp, rfl⟩

omit [NeZero M] in
theorem pushWait_eq_some {v : Nat} (h : s.pushWait v = some s') :
    ∃ qp, (s.vqs v).rcOrUd = some qp ∧ s' = (s.take (.pushWait v) (.send qp) 1).2 := by
  simp only [pushWait] at h
  split at h
  · cases h
  · simp only [Option.map_eq_some_iff] at h
    obtain ⟨qp, hqp, rfl⟩ := h
    exact ⟨qp, hqp, rfl⟩

theorem step_complete {i : Nat} (h : s.step cfg (.complete i) = some s') :
    ∃ nic, s.nic.complete i = some nic ∧ s' = { s with nic } := by
  simp only [step, Option.map_eq_some_iff] at h
  obtain ⟨nic, hnic, rfl⟩ := h
  exact ⟨nic, hnic, rfl⟩

end Inversion

end Node

/-- A node with one piece of memory after the other. -/
def NodeConfig.sample (feat : Features) : NodeConfig where
  feat
  machine := .sample
  paToVa pa := pa
  base
    | .ctrl c => 2 * c * maxKmallocSz
    | .rpc c => (2 * c + 1) * maxKmallocSz
  apart r r' hne := by
    cases r <;> cases r' <;> simp only [RingId.size, maxKmallocSz, rpcRecvBufferSz, ne_eq,
      RingId.ctrl.injEq, RingId.rpc.injEq] at hne ⊢ <;> omega
