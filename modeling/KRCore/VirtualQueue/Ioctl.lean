-- SUMMARY: The ioctl interface of a virtual queue: every command, where it panics, and what it asks of the device.
import KRCore.Node.Model
import KRCore.Verbs.Layout
import KRCore.VirtualQueue.MigrationTarget
import KRCore.VirtualQueue.WorkRequest

/-!
# The ioctl interface

`VQ::ioctrl` with all its commands, for one virtual queue on a node whose
controllers are also used by others. A call carries what it finds in user memory
and what the kernel answers to it. It has an outcome if it gets to its reply;
`none` is a panic (an `unwrap` of nothing, `unimplemented!()`, an overflow) or a
wait for a completion that never comes. What panics in a callback of the
connection manager, on another thread, is not part of the call. The migration
threads take their steps between the calls.

The requests to the device are recorded in the order in which they are made.
-/

namespace Ioctl

open MigrationTarget (Thread)

/-! ## The device -/

/-- The queues that a call works with: the RC of the virtual queue, an accepted RC
    of a controller, and the DC and the default UD of a controller. -/
inductive Queue where
  | rc (recvCtrl id : Nat)
  | trc (ctrl id : Nat)
  | dc (ctrl : Nat)
  | ud (ctrl : Nat)
deriving DecidableEq, Repr

/-- The controller whose receive CQ the queue reports to. -/
def Queue.recvCtrl : Queue → Nat
  | .rc c _ => c
  | .trc c _ => c
  | .dc c => c
  | .ud c => c

inductive SendRequest where
  | rdma (wr : SendWr)
  | dc (wr : DcWr)
  | ud (wr : UdWr)
deriving DecidableEq, Repr

def SendRequest.signaled : SendRequest → Bool
  | .rdma wr => wr.sendFlags.signaled
  | .dc wr => wr.sendFlags.signaled
  | .ud wr => wr.sendFlags.signaled

/-- What is asked of the device: to send (with its answer), to receive into slots
    of a controller's ring, to return a completion of a send queue, or completions
    of a receive CQ. -/
inductive DeviceOp where
  | send (q : Queue) (wr : SendRequest) (errno : Int)
  | recv (q : Queue) (ring : Nat) (slots : List (Fin ctrlRingSize))
  | poll (q : Queue) (found : Bool)
  | pollRecv (ctrl : Nat) (cnt : Nat)
deriving DecidableEq, Repr

/-- A receive ring between two calls. -/
structure Ring (N : Nat) [NeZero N] where
  helper : RecvHelper N
  linked : helper.Linked

/-- `post_recvs`. -/
def Ring.post {N : Nat} [NeZero N] (r : Ring N) (cnt : Nat) (ans : PostAnswer) :
    Option (Ring N × RecvHelper.Posted N) :=
  match h : r.helper.postRecvs cnt ans with
  | none => none
  | some out => some (⟨out.helper, r.linked.postRecvs h⟩, out)

/-! ## The state -/

/-- The ring of the RPC client. -/
abbrev RpcRing : Type := Ring rpcBufferN

/-- The part of a controller that calls work with. -/
structure Ctrl where
  recvBuffer : Ring ctrlRingSize
  registeredRcs : Nat → Option Nat

/-- What is fixed. `remoteMr` is the memory region that the peer of an RC sent in its
    reply, and `wcAddr` the address of a controller's completion array. -/
structure Config where
  feat : Features
  machine : Machine
  paToVa : Nat → Nat
  remoteMr : Nat → TempMR
  wcAddr : Nat → Nat
  wcSz : Nat

/-- A virtual queue with its cache of client endpoints, the controllers of the node,
    the ring of the RPC client that `RpcPoll` serves, and the migration threads that
    are running. -/
structure State where
  vq : VQ
  clientEndpoint : Nat → Option EndPoint
  ctrls : Nat → Ctrl
  rpc : RpcRing
  threads : List Thread

/-- `VQ::open`. -/
def State.opened (localMr : TempMR) (ctrls : Nat → Ctrl) (rpc : RpcRing) : State where
  vq := VQ.opened localMr
  clientEndpoint _ := none
  ctrls
  rpc
  threads := []

/-- What a call comes to. -/
structure Reply where
  state : State
  status : ReplyStatus
  ops : List DeviceOp

/-- A call that has done nothing yet. -/
def State.reply (s : State) (status : ReplyStatus) : Reply := { state := s, status, ops := [] }

/-- `get_bind_ctrl`. -/
def Config.bindCtrl (cfg : Config) (port : Nat) : Nat := cfg.machine.getGlobalRctrl (port * 2)

/-- An `int` of the user that is converted to `usize`. -/
def toUsize (x : BitVec 32) : Nat := (x.signExtend 64).toNat

/-! ## Posting receives -/

/-- `post_recvs` on the ring of controller `c`. -/
def State.postRecvs (s : State) (c : Nat) (q : Queue) (cnt : Nat) (ans : PostAnswer) :
    Option Reply := do
  let (ring, out) ← (s.ctrls c).recvBuffer.post cnt ans
  some
    { state :=
        { s with ctrls := Function.update s.ctrls c { s.ctrls c with recvBuffer := ring } }
      status := match out.result with
        | .ok _ => .ok
        | .error _ => .err
      ops := [.recv q c out.slots] }

/-- In client mode, receives are posted to the RC if there is one, else to
    `get_ud`. -/
def clientQueue (vq : VQ) : Option Queue :=
  match vq.virtualQueue with
  | some rc => some (.rc rc.recvCtrl rc.id)
  | none => vq.localUd.map .ud

/-- `push_recv_impl`. -/
def pushRecvImpl (cfg : Config) (s : State) (cnt : Nat) (ans : PostAnswer) : Option Reply :=
  match s.vq.bindPort with
  | some port =>
    let c := cfg.bindCtrl port
    match (s.ctrls c).registeredRcs 1 with
    | none => some (s.reply .notConnected)
    | some id => s.postRecvs c (.trc c id) cnt ans
  | none =>
    match s.vq.localConnectPort with
    | none => some (s.reply .notConnected)
    | some port => do
      let q ← clientQueue s.vq
      s.postRecvs (cfg.machine.getGlobalRctrl port) q cnt ans

/-! ## Push in client mode -/

/-- A batch of a client-mode Push. -/
def clientPush (cfg : Config) (s : State) (reqs : List CoreReq) (ans : Nat → Int) : Option Reply :=
  match s.vq.virtualQueue with
  | some rc =>
    let out := s.vq.rcPushImpl cfg.paToVa cfg.remoteMr reqs ans
    out.reply.map fun status =>
      { state := s, status,
        ops := out.posted.map fun p => .send (.rc rc.recvCtrl rc.id) (.rdma p.1) p.2 }
  | none =>
    let out := s.vq.dcPushImpl cfg.paToVa reqs ans
    out.reply.map fun status =>
      { state := s, status,
        ops := s.vq.localDc.elim [] fun d => out.posted.map fun p => .send (.dc d) (.dc p.1) p.2 }

/-! ## Push in bind mode -/

/-- `HOST_LEN`. -/
def hostLen : Nat := 12

/-- What a batch in bind mode meets: the answers to its sends, what stands at the
    addresses that the user names, the address handles for new client endpoints, and
    for each `vid` how posting receives goes and whether a completion comes. -/
structure BindAnswers where
  send : Nat → Int
  message : Nat → EndPoint
  ah : Nat → BitVec 64
  udPost : Nat → PostAnswer
  udComp : Nat → Bool
  rcPost : Nat → PostAnswer
  rcComp : Nat → Bool

/-- The state of the first loop of `bind_server_push_impl`. -/
structure BindLoop where
  clientEndpoint : Nat → Option EndPoint
  rcPopCnt : Nat → Nat
  udPopCnt : Nat → Nat

/-- A request for a `vid` without an RC: it goes over the default UD, to the client
    endpoint in the cache, or else to the one found at the address of the request. -/
def bindPushUd (localMr : TempMR) (c vid : Nat) (b : BindLoop) (req : CoreReq) (errno : Int)
    (ans : BindAnswers) : Option (BindLoop × DeviceOp) := do
  let wrId ← Word.checkedAdd 64 req.remoteAddr.toNat udHeaderSz
  let endpoint := (b.clientEndpoint vid).getD ((ans.message wrId).new (ans.ah vid))
  let opCode ← opCodeTable req.type
  let sendFlag : SendFlags := { signaled := b.udPopCnt vid = 0, inline := false }
  some
    ({ b with
        clientEndpoint := Function.update b.clientEndpoint vid (some endpoint)
        udPopCnt := Function.update b.udPopCnt vid (b.udPopCnt vid + 1) },
      .send (.ud c)
        (.ud (UDOp.push opCode localMr.addr.toNat localMr.rkey endpoint 0 0 sendFlag)) errno)

/-- A request for a `vid` with an RC. -/
def bindPushRc (localMr : TempMR) (rkey : BitVec 32) (c id vid : Nat) (b : BindLoop) (req : CoreReq)
    (errno : Int) : Option (BindLoop × DeviceOp) := do
  let laddr ← Word.checkedAdd 64 localMr.addr.toNat req.addr.toNat
  let raddr ← Word.checkedAdd 64 req.remoteAddr.toNat localMr.addr.toNat
  let opCode ← opCodeTable req.type
  let sendFlag : SendFlags := { signaled := b.rcPopCnt vid = 0, inline := false }
  some
    ({ b with rcPopCnt := Function.update b.rcPopCnt vid (b.rcPopCnt vid + 1) },
      .send (.trc c id)
        (.rdma (RCOp.pushWithImm opCode laddr localMr.rkey req.length.toNat raddr rkey
          (BitVec.ofNat 32 vid) sendFlag)) errno)

/-- The body of the first loop. -/
def bindPushOne (localMr : TempMR) (rkey : BitVec 32) (c : Nat) (registered : Nat → Option Nat)
    (ans : BindAnswers) (idx : Nat) (req : CoreReq) (b : BindLoop) : Option (BindLoop × DeviceOp) :=
  let vid := req.vid.toNat % hostLen
  match registered vid with
  | none => bindPushUd localMr c vid b req (ans.send idx) ans
  | some id => bindPushRc localMr rkey c id vid b req (ans.send idx)

/-- The first loop: the requests of the batch. The first error ends it. -/
def bindPushLoop (localMr : TempMR) (rkey : BitVec 32) (c : Nat) (registered : Nat → Option Nat)
    (ans : BindAnswers) : Nat → List CoreReq → BindLoop →
    Option (BindLoop × ReplyStatus × List DeviceOp)
  | _, [], b => some (b, .ok, [])
  | idx, req :: reqs, b => do
    let (b, op) ← bindPushOne localMr rkey c registered ans idx req b
    if ans.send idx = 0 then
      let (b, status, ops) ← bindPushLoop localMr rkey c registered ans (idx + 1) reqs b
      some (b, status, op :: ops)
    else some (b, .err, [op])

/-- After the sends to one queue: post as many receives, and with `pop_at_once` wait
    for a completion. -/
def repost (s : State) (c : Nat) (q : Queue) (cnt : Nat) (popAtOnce : Bool) (ans : PostAnswer)
    (comp : Bool) : Option Reply :=
  if cnt = 0 then some (s.reply .ok)
  else do
    let r ← s.postRecvs c q cnt ans
    if r.status = .ok ∧ popAtOnce then
      if comp then some { r with ops := r.ops ++ [.poll q true] } else none
    else some r

/-- The receives for the accepted RC of a `vid`. -/
def repostRc (s : State) (c vid cnt : Nat) (popAtOnce : Bool) (ans : BindAnswers) : Option Reply :=
  if cnt = 0 then some (s.reply .ok)
  else do
    let id ← (s.ctrls c).registeredRcs vid
    repost s c (.trc c id) cnt popAtOnce (ans.rcPost vid) (ans.rcComp vid)

/-- The second loop, over the `vid`s from 1 on. -/
def bindRepost (c : Nat) (b : BindLoop) (popAtOnce : Bool) (ans : BindAnswers) :
    List Nat → State → Option Reply
  | [], s => some (s.reply .ok)
  | vid :: vids, s => do
    let r ← repost s c (.ud c) (b.udPopCnt vid) popAtOnce (ans.udPost vid) (ans.udComp vid)
    if r.status = .ok then
      let r' ← repostRc r.state c vid (b.rcPopCnt vid) popAtOnce ans
      if r'.status = .ok then
        let r'' ← bindRepost c b popAtOnce ans vids r'.state
        some { r'' with ops := r.ops ++ r'.ops ++ r''.ops }
      else some { r' with ops := r.ops ++ r'.ops }
    else some r

/-- `bind_server_push_impl`. -/
def bindServerPushImpl (cfg : Config) (s : State) (port : Nat) (reqs : List CoreReq)
    (popAtOnce : Bool) (ans : BindAnswers) : Option Reply := do
  let c := cfg.bindCtrl port
  let (b, status, ops) ← bindPushLoop s.vq.localCache.localMr (cfg.machine.testMr c).rkey c
    (s.ctrls c).registeredRcs ans 0 reqs
    { clientEndpoint := s.clientEndpoint, rcPopCnt := fun _ => 0, udPopCnt := fun _ => 0 }
  let s := { s with clientEndpoint := b.clientEndpoint }
  if status = .ok then
    let r ← bindRepost c b popAtOnce ans (List.range' 1 (hostLen - 1)) s
    some { r with ops := ops ++ r.ops }
  else some { state := s, status, ops }

/-! ## Push -/

/-- `sizeof(req_t)`, `sizeof(push_core_req_t)` and `sizeof(core_req_t)`. -/
def reqSz : Nat := 16
def pushCoreReqSz : Nat := 16
def coreReqSz : Nat := 40

/-- `DEFAULT_BATCH_SZ`. -/
def defaultBatchSz : Nat := 64

/-- What a Push finds in user memory. -/
structure PushReq where
  reqList : BitVec 64
  reqs : List CoreReq
  pushRecvCnt : BitVec 32
  popRes : BitVec 8
  reqLen_lt : reqs.length < 2 ^ 32

/-- What a Push meets: how its receives and its sends are posted, what its bind-mode batches
    meet, and whether the completion comes that it waits for in client mode. `wcStatus i` is
    the status of the completion that its wait number `i` takes; the code prints it and does
    not look at it otherwise. -/
structure PushAnswers where
  recv : PostAnswer
  send : Nat → Nat → Int
  bind : Nat → BindAnswers
  comp : Bool
  wcStatus : Nat → BitVec 32

/-- The requests from `send_offset = 64 * k` on, at most 64. -/
def PushReq.batch (p : PushReq) (k : Nat) : List CoreReq :=
  (p.reqs.drop (k * defaultBatchSz)).take defaultBatchSz

/-- The number of rounds of the batch loop. -/
def PushReq.batchCnt (p : PushReq) : Nat :=
  (p.reqs.length + (defaultBatchSz - 1)) / defaultBatchSz

/-- One batch. -/
def pushBatch (cfg : Config) (p : PushReq) (ans : PushAnswers) (k : Nat) (s : State) :
    Option Reply :=
  match s.vq.bindPort with
  | some port => bindServerPushImpl cfg s port (p.batch k) (p.popRes ≠ 0) (ans.bind k)
  | none => clientPush cfg s (p.batch k) (ans.send k)

/-- The batch loop. Only an error ends it early. -/
def pushBatches (cfg : Config) (p : PushReq) (ans : PushAnswers) :
    List Nat → State → ReplyStatus → Option Reply
  | [], s, ret => some (s.reply ret)
  | k :: ks, s, _ => do
    let _ ← Word.checkedAdd 64 p.reqList.toNat (k * defaultBatchSz * coreReqSz)
    let r ← pushBatch cfg p ans k s
    if r.status = .err then some r
    else
      let r' ← pushBatches cfg p ans ks r.state r.status
      some { r' with ops := r.ops ++ r'.ops }

/-- In client mode receives are posted first. -/
def pushRecvFirst (cfg : Config) (s : State) (p : PushReq) (ans : PushAnswers) : Option Reply :=
  if s.vq.bindPort = none ∧ p.pushRecvCnt ≠ 0 then
    pushRecvImpl cfg s p.pushRecvCnt.toNat ans.recv
  else some (s.reply .ok)

/-- The wait at the end of a client-mode Push with `pop_res`: on the RC if there is
    one, else on `get_ud`. -/
def pushWait (r : Reply) (p : PushReq) (comp : Bool) : Option Reply :=
  if r.state.vq.bindPort = none ∧ p.popRes ≠ 0 ∧ r.status = .ok then do
    let q ← clientQueue r.state.vq
    if comp then some { r with ops := r.ops ++ [.poll q true] } else none
  else some r

/-- `Push`. -/
def push (cfg : Config) (s : State) (arg : Nat) (p : PushReq) (ans : PushAnswers) :
    Option Reply := do
  let arg ← Word.checkedAdd 64 arg reqSz
  let _ ← Word.checkedAdd 64 arg pushCoreReqSz
  let r ← pushRecvFirst cfg s p ans
  let r' ← pushBatches cfg p ans (List.range p.batchCnt) r.state r.status
  pushWait { r' with ops := r.ops ++ r'.ops } p ans.comp

/-! ## Pop and PopMsgs -/

/-- `sizeof(reply_t)`, `sizeof(user_wc_t)` and `pop_wc_len`. -/
def replySz : Nat := 16
def userWcSz : Nat := 24
def popWcLen : Nat := 2048

/-- The addresses that `handle_pop_ret` computes for the completions from number `i`
    on, whose `wr_id`s are given. -/
def popAddrs (replyBuf wcAddr wcSz payloadSz : Nat) : Nat → List Nat → Option Unit
  | _, [] => some ()
  | i, wrId :: wrIds => do
    let _ ← Word.checkedAdd 64 wcAddr (i * wcSz)
    let _ ← Word.checkedAdd 64 wrId payloadSz
    let _ ← Word.checkedAdd 64 replyBuf (replySz + i * userWcSz)
    popAddrs replyBuf wcAddr wcSz payloadSz (i + 1) wrIds

/-- `handle_pop_ret` when there is something. -/
def handlePopRet (replyBuf wcAddr wcSz payloadSz : Nat) (wrIds : List Nat) : Option ReplyStatus := do
  popAddrs replyBuf wcAddr wcSz payloadSz 0 wrIds
  let _ ← Word.checkedAdd 64 replyBuf (replySz + popWcLen * userWcSz)
  some .ok

/-- Whether the CQ of the DC and that of the RC have a completion, and the `wr_id` of
    what is popped. -/
structure PopAnswers where
  dc : Bool
  rc : Bool
  wrId : BitVec 64

/-- Poll the RC of the queue, if there is one. -/
def popRc (vq : VQ) (found : Bool) : Bool × List DeviceOp :=
  match vq.virtualQueue with
  | none => (false, [])
  | some rc => (found, [.poll (.rc rc.recvCtrl rc.id) found])

/-- `pop_impl`, up to `handle_pop_ret`. -/
def popImpl (cfg : Config) (s : State) (vid : Nat) (ans : PopAnswers) :
    Option (Bool × List DeviceOp) :=
  match s.vq.bindPort with
  | some port =>
    let c := cfg.bindCtrl port
    match (s.ctrls c).registeredRcs vid with
    | none => some (false, [])
    | some id => some (ans.rc, [.poll (.trc c id) ans.rc])
  | none =>
    if cfg.feat.dctQp then
      s.vq.localDc.map fun d =>
        if ans.dc then (true, [.poll (.dc d) true])
        else
          let (found, ops) := popRc s.vq ans.rc
          (found, .poll (.dc d) false :: ops)
    else some (popRc s.vq ans.rc)

/-- `handle_pop_ret` for the result of `pop_impl`. -/
def popReply (replyBuf wrId : Nat) (found : Bool) : Option ReplyStatus :=
  if found then handlePopRet replyBuf 0 0 0 [wrId] else some .nil

/-- `Pop`. What is popped lies on the stack, so its address does not overflow. -/
def pop (cfg : Config) (s : State) (arg replyBuf : Nat) (vid : Nat) (ans : PopAnswers) :
    Option Reply := do
  let _ ← Word.checkedAdd 64 arg reqSz
  let (found, ops) ← popImpl cfg s vid ans
  let status ← popReply replyBuf ans.wrId.toNat found
  some { state := s, status, ops }

/-- The retries of `pop_msg_impl` after the first round. -/
def popRetries : Nat := 50001

/-- The loop of `pop_msg_impl` in client mode, with the number of retries left, the
    next poll and what has been found so far. A negative answer is an `unwrap` of an
    error. -/
def popMsgLoop (polls : Nat → Int) (least : Nat) : Nat → Nat → Nat → Option Nat
  | 0, i, act => if polls i < 0 then none else some (act + (polls i).toNat)
  | retries + 1, i, act =>
    if polls i < 0 then none
    else
      let act := act + (polls i).toNat
      if least ≤ act then some act else popMsgLoop polls least retries (i + 1) act

/-- What `PopMsgs` polls, and how many completions it hands over; nothing is polled
    when the queue has never been connected. -/
def popMsgImpl (cfg : Config) (s : State) (least : Nat) (polls : Nat → Int) :
    Option (Option (Nat × Nat)) :=
  match s.vq.bindPort with
  | some port =>
    if polls 0 < 0 then none
    else some (some (cfg.machine.getGlobalRctrl (2 * port), (polls 0).toNat))
  | none =>
    match s.vq.localConnectPort with
    | none => some none
    | some port =>
      (popMsgLoop polls least popRetries 0 0).map fun act =>
        some (cfg.machine.getGlobalRctrl port, act)

/-- `PopMsgs`; `wrIds` is what stands in the completion array. -/
def popMsgs (cfg : Config) (s : State) (arg replyBuf : Nat) (least payloadSz : Nat)
    (polls : Nat → Int) (wrIds : Nat → BitVec 64) : Option Reply := do
  let arg ← Word.checkedAdd 64 arg reqSz
  let _ ← Word.checkedAdd 64 arg 4
  match ← popMsgImpl cfg s least polls with
  | none => some (s.reply .nil)
  | some (c, act) =>
    let status ← handlePopRet replyBuf (cfg.wcAddr c) cfg.wcSz payloadSz
      ((List.range act).map fun i => (wrIds i).toNat)
    some { state := s, status, ops := [.pollRecv c act] }

/-! ## Connect -/

/-- The bytes of an address as they are copied from the user. -/
structure UserAddr where
  bytes : List UInt8
  size : bytes.length = 39

/-- `core::str::from_utf8`. -/
def UserAddr.text (addr : UserAddr) : Option (List Char) :=
  (ByteArray.utf8Decode? ⟨addr.bytes.toArray⟩).map Array.toList

/-- `conn.port % MAX_SERVICE_NUM as i32`, converted to `usize`. -/
def servicePort (port : BitVec 32) : Nat :=
  (Int.tmod port.toInt Node.maxServiceNum % 2 ^ 64).toNat

/-- How a read of the metadata image goes: what `post_send` answers, and whether the
    completion comes in time. -/
structure ReadAnswer where
  errno : Int
  comp : Bool
deriving DecidableEq, Repr

/-- What `query_dct_meta` meets: the endpoint of the metadata server, the address of
    its image, the answers to the two reads, the number of entries that it finds, and
    the entry for the gid with its position. -/
structure MetaScan where
  metaPoint : Option EndPoint
  kvPa : BitVec 64
  head : ReadAnswer
  entriesNum : BitVec 64
  list : ReadAnswer
  found : Option (Fin entriesNum.toNat × EndPoint)

/-- The number of entries that the loop of `query_dct_meta` looks at. -/
def MetaScan.looked (scan : MetaScan) : Nat :=
  match scan.found with
  | some (i, _) => i + 1
  | none => scan.entriesNum.toNat

/-- A signalled read over the DC of controller `d`, with `wait_til_comp` if it has been
    posted. On a DC that wait gives up after a while. -/
def dcRead (d : Nat) (vq : VQ) (point : EndPoint) (localPa sz remotePa : Nat) (ans : ReadAnswer) :
    List DeviceOp :=
  let wr := DCOp.push .rdmaRead localPa vq.localCache.localMr.rkey sz remotePa point.mr.rkey point
    { signaled := true, inline := false }
  .send (.dc d) (.dc wr) ans.errno :: if ans.errno = 0 then [.poll (.dc d) ans.comp] else []

/-- The way of `query_dct_meta` to its result. The addresses of the entries grow, so
    the last one is the one that can overflow. -/
def MetaScan.run (cfg : Config) (vq : VQ) (scan : MetaScan) : Option (List DeviceOp) := do
  let point ← scan.metaPoint
  let d ← vq.localDc
  let localPa := vq.localCache.localMr.addr.toNat
  let remoteBase ← Word.checkedAdd 64 scan.kvPa.toNat 8
  let localBase ← Word.checkedAdd 64 localPa 8
  let readLen := scan.entriesNum.toNat * endPointSz
  let ops := dcRead d vq point localPa 8 scan.kvPa.toNat scan.head ++
    dcRead d vq point localBase readLen remoteBase scan.list
  if 2 ^ 64 ≤ readLen then none
  else if scan.looked = 0 then some ops
  else do
    let _ ← Word.checkedAdd 64 (cfg.paToVa localBase) ((scan.looked - 1) * endPointSz)
    some ops

/-- The migration thread that a Connect starts. -/
def startThread (cfg : Config) : VQ.Started → List Thread
  | .replied _ _ => []
  | .fetching _ => if cfg.feat.migrateQp then [.started] else []

/-- What a Connect asks of the device. -/
def fetch (cfg : Config) (scan : MetaScan) : VQ.Started → Option (List DeviceOp)
  | .replied _ _ => some []
  | .fetching vq => if cfg.feat.metaKv then scan.run cfg vq else some []

/-- `Connect`. A text with a character of several bytes is no gid. -/
def connect (cfg : Config) (s : State) (arg : Nat) (addr : UserAddr) (port vid : BitVec 32)
    (scan : MetaScan) (ans : ConnectAnswers) : Option Reply :=
  if s.vq.isRcConnected then some (s.reply .alreadyConnected)
  else do
    let _ ← Word.checkedAdd 64 arg reqSz
    let text ← addr.text
    if h : text.length = 39 then
      let ans := { ans with metaQuery := scan.found.map Prod.snd }
      let start := VQ.connectStart cfg.feat cfg.machine s.vq ⟨text, h⟩ (servicePort port)
        (toUsize vid) ans
      let ops ← fetch cfg scan start
      let (vq, status, _) ← VQ.connectImpl cfg.feat cfg.machine s.vq ⟨text, h⟩ (servicePort port)
        (toUsize vid) ans
      some
        { state := { s with vq, threads := s.threads ++ startThread cfg start }, status, ops }
    else some (s.reply .addrError)

/-! ## The other commands -/

/-- `RegMRs`: the number of pages. -/
def regMRs (s : State) (arg : Nat) (size : BitVec 32) : Option Reply := do
  let _ ← Word.checkedAdd 64 arg reqSz
  let _ ← Word.checkedAdd 32 1 (size.toNat / 4096)
  some (s.reply .ok)

/-- `PushRecv`. -/
def pushRecv (cfg : Config) (s : State) (arg : Nat) (cnt : BitVec 32) (ans : PostAnswer) :
    Option Reply := do
  let _ ← Word.checkedAdd 64 arg reqSz
  pushRecvImpl cfg s (toUsize cnt) ans

/-- `Binds`. -/
def binds (s : State) (arg : Nat) (port : BitVec 32) : Option Reply := do
  let _ ← Word.checkedAdd 64 arg reqSz
  if s.vq.bindPort.isSome then some (s.reply .alreadyBind)
  else if Node.maxServiceNum < toUsize port then some (s.reply .nil)
  else some (State.reply { s with vq := { s.vq with bindPort := some (toUsize port) } } .ok)

/-- `UnBinds`, with the answer to the poll that throws the messages away. -/
def unBinds (cfg : Config) (s : State) (arg : Nat) (port : BitVec 32) (ret : Int) :
    Option Reply := do
  let _ ← Word.checkedAdd 64 arg reqSz
  if s.vq.bindPort = some (toUsize port) then
    if ret < 0 then none
    else
      some
        { state := { s with vq := { s.vq with bindPort := none } }
          status := .ok
          ops := [.pollRecv (cfg.machine.getGlobalRctrl (toUsize port * 2)) ret.toNat] }
  else some (s.reply .notBind)

/-- `RpcPoll`: the rounds of `poll_all`, with what `ib_poll_cq` returns and how the
    receives are posted again if that is a number of requests. -/
def rpcPoll : State → List (BitVec 32 × PostAnswer) → Option Reply
  | s, [] => some (s.reply .ok)
  | s, (ret, ans) :: rounds =>
    if 0 < ret.toInt then do
      let (rpc, _) ← s.rpc.post ret.toNat ans
      rpcPoll { s with rpc } rounds
    else rpcPoll s rounds

/-! ## The interface -/

/-- A command with what it finds in user memory and what the kernel answers. -/
inductive Call where
  | nil
  | connect (addr : UserAddr) (port vid : BitVec 32) (scan : MetaScan) (ans : ConnectAnswers)
  | regMRs (size : BitVec 32)
  | push (p : PushReq) (ans : PushAnswers)
  | pushRecv (cnt : BitVec 32) (ans : PostAnswer)
  | pop (vid : BitVec 32) (ans : PopAnswers)
  | popMsgs (least payloadSz : BitVec 32) (polls : Nat → Int) (wrIds : Nat → BitVec 64)
  | binds (port : BitVec 32)
  | unBinds (port : BitVec 32) (ret : Int)
  | rpcPoll (rounds : List (BitVec 32 × PostAnswer))
  | unknown (cmd : BitVec 32)

/-- `VQ::ioctrl` at the user address `arg`, where the reply is to go to `replyBuf`. -/
def ioctrl (cfg : Config) (s : State) (arg replyBuf : BitVec 64) : Call → Option Reply
  | .nil => some (s.reply .ok)
  | .connect addr port vid scan ans => connect cfg s arg.toNat addr port vid scan ans
  | .regMRs size => regMRs s arg.toNat size
  | .push p ans => push cfg s arg.toNat p ans
  | .pushRecv cnt ans => pushRecv cfg s arg.toNat cnt ans
  | .pop vid ans => pop cfg s arg.toNat replyBuf.toNat vid.toNat ans
  | .popMsgs least payloadSz polls wrIds =>
    popMsgs cfg s arg.toNat replyBuf.toNat least.toNat payloadSz.toNat polls wrIds
  | .binds port => binds s arg.toNat port
  | .unBinds port ret => unBinds cfg s arg.toNat port ret
  | .rpcPoll rounds => rpcPoll s rounds
  | .unknown _ => some (s.reply .err)

inductive Event where
  | ioctl (arg replyBuf : BitVec 64) (call : Call)
  /-- Migration thread number `i` takes a step. -/
  | thread (i : Nat) (rc : RcAnswer)
  /-- Other queues, the RPC client and the connection manager have worked with the
      controllers. -/
  | others (ctrls : Nat → Ctrl) (rpc : RpcRing)

/-- The steps of `bg_rc_migrate_thread`, with the queue and the thread afterwards, if it
    has not ended. -/
def threadStep (cfg : Config) (vq : VQ) (ans : RcAnswer) : Thread → Option (VQ × Option Thread)
  | .started => vq.rcConnectParam.map fun param => (vq, some (.read param))
  | .read param => some (vq, if vq.virtualQueue.isNone then some (.checked param) else none)
  | .checked param =>
    match VQ.qpConnect cfg.machine param.port param.path ans with
    | .ok qp => some (vq, some (.connected param qp))
    | .error _ => some (vq, none)
  | .connected _ qp =>
    some (if cfg.feat.virtualQueue then { vq with virtualQueue := qp } else vq, none)

def State.thread (cfg : Config) (s : State) (i : Nat) (ans : RcAnswer) : Option State := do
  let t ← s.threads[i]?
  let (vq, t') ← threadStep cfg s.vq ans t
  some { s with vq, threads := t'.elim (s.threads.eraseIdx i) (s.threads.set i) }

def step (cfg : Config) (s : State) : Event → Option State
  | .ioctl arg replyBuf call => (ioctrl cfg s arg replyBuf call).map Reply.state
  | .thread i rc => s.thread cfg i rc
  | .others ctrls rpc => some { s with ctrls, rpc }

/-! ## Posting receives -/

theorem Ring.exists_post {N : Nat} [NeZero N] (r : Ring N) {cnt : Nat} (hpos : 1 ≤ cnt)
    (hcnt : cnt + N ≤ 2 ^ 64) (ans : PostAnswer) : ∃ out, r.post cnt ans = some out := by
  obtain ⟨out, hout⟩ := r.linked.exists_postRecvs hpos hcnt ans
  unfold Ring.post
  split
  · rename_i hnone
    rw [hout] at hnone
    cases hnone
  · exact ⟨_, rfl⟩

/-- Receives can always be posted, up to the range of an `int`. -/
theorem State.exists_postRecvs (s : State) (c : Nat) (q : Queue) {cnt : Nat} (hpos : 1 ≤ cnt)
    (hcnt : cnt ≤ 2 ^ 32) (ans : PostAnswer) :
    ∃ r slots, s.postRecvs c q cnt ans = some r ∧ r.ops = [.recv q c slots] := by
  have hfit : cnt + ctrlRingSize ≤ 2 ^ 64 := by
    simp only [ctrlRingSize]
    omega
  obtain ⟨out, hout⟩ := (s.ctrls c).recvBuffer.exists_post hpos hfit ans
  exact ⟨_, _, by simp only [State.postRecvs, hout, Option.bind_eq_bind, Option.bind_some]; rfl,
    rfl⟩

/-! ## One request in bind mode -/

/-- What the body of the first loop does with a request: without an RC for the `vid` it goes
    over the UD, and else over the RC. -/
inductive OneSent (localMr : TempMR) (rkey : BitVec 32) (c : Nat) (registered : Nat → Option Nat)
    (ans : BindAnswers) (idx vid : Nat) (req : CoreReq) (b : BindLoop) :
    BindLoop → DeviceOp → Prop where
  | ud {opCode : WrOpcode} {endpoint : EndPoint} (hvid : registered vid = none)
      (hop : opCodeTable req.type = some opCode)
      (hclient : endpoint = (b.clientEndpoint vid).getD
        ((ans.message (req.remoteAddr.toNat + udHeaderSz)).new (ans.ah vid))) :
      OneSent localMr rkey c registered ans idx vid req b
        { b with
          clientEndpoint := Function.update b.clientEndpoint vid (some endpoint)
          udPopCnt := Function.update b.udPopCnt vid (b.udPopCnt vid + 1) }
        (.send (.ud c)
          (.ud (UDOp.push opCode localMr.addr.toNat localMr.rkey endpoint 0 0
            { signaled := b.udPopCnt vid = 0, inline := false })) (ans.send idx))
  | rc {opCode : WrOpcode} {id : Nat} (hvid : registered vid = some id)
      (hop : opCodeTable req.type = some opCode) :
      OneSent localMr rkey c registered ans idx vid req b
        { b with rcPopCnt := Function.update b.rcPopCnt vid (b.rcPopCnt vid + 1) }
        (.send (.trc c id)
          (.rdma (RCOp.pushWithImm opCode (localMr.addr.toNat + req.addr.toNat) localMr.rkey
            req.length.toNat (req.remoteAddr.toNat + localMr.addr.toNat) rkey
            (BitVec.ofNat 32 vid) { signaled := b.rcPopCnt vid = 0, inline := false }))
          (ans.send idx))

theorem bindPushOne_sent {localMr : TempMR} {rkey : BitVec 32} {c : Nat}
    {registered : Nat → Option Nat} {ans : BindAnswers} {idx : Nat} {req : CoreReq}
    {b b' : BindLoop} {op : DeviceOp}
    (h : bindPushOne localMr rkey c registered ans idx req b = some (b', op)) :
    OneSent localMr rkey c registered ans idx (req.vid.toNat % hostLen) req b b' op := by
  unfold bindPushOne at h
  simp only at h
  split at h
  · rename_i hvid
    simp only [bindPushUd, Option.bind_eq_bind, Option.bind_eq_some_iff, Option.some.injEq,
      Prod.mk.injEq, Word.checkedAdd_eq_some] at h
    obtain ⟨_, ⟨-, rfl⟩, _, hop, rfl, rfl⟩ := h
    exact .ud hvid hop rfl
  · rename_i hvid
    simp only [bindPushRc, Option.bind_eq_bind, Option.bind_eq_some_iff, Option.some.injEq,
      Prod.mk.injEq, Word.checkedAdd_eq_some] at h
    obtain ⟨_, ⟨-, rfl⟩, _, ⟨-, rfl⟩, _, hop, rfl, rfl⟩ := h
    exact .rc hvid hop

/-! ## What a call leaves alone -/

/-- The queue, the migration threads and the accepted RCs are as before. -/
structure Frame (s s' : State) : Prop where
  vq : s'.vq = s.vq
  threads : s'.threads = s.threads
  registered : ∀ c, (s'.ctrls c).registeredRcs = (s.ctrls c).registeredRcs

theorem Frame.refl (s : State) : Frame s s := ⟨rfl, rfl, fun _ => rfl⟩

theorem Frame.trans {s s' s'' : State} (h : Frame s s') (h' : Frame s' s'') : Frame s s'' where
  vq := h'.vq.trans h.vq
  threads := h'.threads.trans h.threads
  registered c := (h'.registered c).trans (h.registered c)

theorem State.postRecvs_frame {s : State} {c : Nat} {q : Queue} {cnt : Nat} {ans : PostAnswer}
    {r : Reply} (h : s.postRecvs c q cnt ans = some r) : Frame s r.state := by
  unfold State.postRecvs at h
  simp only [Option.bind_eq_bind, Option.bind_eq_some_iff, Option.some.injEq] at h
  obtain ⟨out, -, rfl⟩ := h
  refine ⟨rfl, rfl, fun d => ?_⟩
  by_cases hd : d = c
  · subst hd
    simp
  · simp [Function.update_of_ne hd]

theorem pushRecvImpl_frame {cfg : Config} {s : State} {cnt : Nat} {ans : PostAnswer} {r : Reply}
    (h : pushRecvImpl cfg s cnt ans = some r) : Frame s r.state := by
  unfold pushRecvImpl at h
  split at h
  · simp only at h
    split at h
    · cases h
      exact .refl s
    · exact State.postRecvs_frame h
  · split at h
    · cases h
      exact .refl s
    · simp only [Option.bind_eq_bind, Option.bind_eq_some_iff] at h
      obtain ⟨q, -, h⟩ := h
      exact State.postRecvs_frame h

theorem clientPush_frame {cfg : Config} {s : State} {reqs : List CoreReq} {ans : Nat → Int}
    {r : Reply} (h : clientPush cfg s reqs ans = some r) : Frame s r.state := by
  unfold clientPush at h
  split at h
  · simp only [Option.map_eq_some_iff] at h
    obtain ⟨status, -, rfl⟩ := h
    exact .refl s
  · simp only [Option.map_eq_some_iff] at h
    obtain ⟨status, -, rfl⟩ := h
    exact .refl s

theorem repost_frame {s : State} {c : Nat} {q : Queue} {cnt : Nat} {popAtOnce : Bool}
    {ans : PostAnswer} {comp : Bool} {r : Reply}
    (h : repost s c q cnt popAtOnce ans comp = some r) : Frame s r.state := by
  unfold repost at h
  split at h
  · cases h
    exact .refl s
  · simp only [Option.bind_eq_bind, Option.bind_eq_some_iff] at h
    obtain ⟨r', hpost, h⟩ := h
    have hframe := State.postRecvs_frame hpost
    split at h
    · split at h
      · cases h
        exact hframe
      · cases h
    · cases h
      exact hframe

theorem repostRc_frame {s : State} {c vid cnt : Nat} {popAtOnce : Bool} {ans : BindAnswers}
    {r : Reply} (h : repostRc s c vid cnt popAtOnce ans = some r) : Frame s r.state := by
  unfold repostRc at h
  split at h
  · cases h
    exact .refl s
  · simp only [Option.bind_eq_bind, Option.bind_eq_some_iff] at h
    obtain ⟨id, -, h⟩ := h
    exact repost_frame h

theorem bindRepost_frame {c : Nat} {b : BindLoop} {popAtOnce : Bool} {ans : BindAnswers}
    {vids : List Nat} {s : State} {r : Reply}
    (h : bindRepost c b popAtOnce ans vids s = some r) : Frame s r.state := by
  induction vids generalizing s r with
  | nil =>
    cases h
    exact .refl s
  | cons vid vids ih =>
    simp only [bindRepost, Option.bind_eq_bind, Option.bind_eq_some_iff] at h
    obtain ⟨r₁, hud, h⟩ := h
    have hframe := repost_frame hud
    split at h
    · simp only [Option.bind_eq_some_iff] at h
      obtain ⟨r₂, hrc, h⟩ := h
      have hframe' := repostRc_frame hrc
      split at h
      · simp only [Option.bind_eq_some_iff, Option.some.injEq] at h
        obtain ⟨r₃, hrest, rfl⟩ := h
        have hrest := hframe'.trans (ih hrest)
        exact hframe.trans ⟨hrest.vq, hrest.threads, hrest.registered⟩
      · cases h
        exact hframe.trans hframe'
    · cases h
      exact hframe

theorem bindServerPushImpl_frame {cfg : Config} {s : State} {port : Nat} {reqs : List CoreReq}
    {popAtOnce : Bool} {ans : BindAnswers} {r : Reply}
    (h : bindServerPushImpl cfg s port reqs popAtOnce ans = some r) : Frame s r.state := by
  simp only [bindServerPushImpl, Option.bind_eq_bind, Option.bind_eq_some_iff] at h
  obtain ⟨⟨b, status, ops⟩, -, h⟩ := h
  -- The cache of client endpoints is not part of the frame.
  have hcache : Frame s { s with clientEndpoint := b.clientEndpoint } := ⟨rfl, rfl, fun _ => rfl⟩
  split at h
  · simp only [Option.bind_eq_some_iff, Option.some.injEq] at h
    obtain ⟨r', hrepost, rfl⟩ := h
    have hframe := bindRepost_frame hrepost
    exact hcache.trans ⟨hframe.vq, hframe.threads, hframe.registered⟩
  · cases h
    exact hcache

theorem pushBatch_frame {cfg : Config} {p : PushReq} {ans : PushAnswers} {k : Nat} {s : State}
    {r : Reply} (h : pushBatch cfg p ans k s = some r) : Frame s r.state := by
  unfold pushBatch at h
  split at h
  · exact bindServerPushImpl_frame h
  · exact clientPush_frame h

theorem PushReq.batch_length_le (p : PushReq) (k : Nat) : (p.batch k).length ≤ defaultBatchSz := by
  rw [PushReq.batch, List.length_take]
  exact Nat.min_le_left _ _

/-- A batch that meets an error is the last one. -/
theorem pushBatches_cons_eq_some {cfg : Config} {p : PushReq} {ans : PushAnswers} {k : Nat}
    {ks : List Nat} {s : State} {ret : ReplyStatus} {r : Reply}
    (h : pushBatches cfg p ans (k :: ks) s ret = some r) :
    ∃ r₁, pushBatch cfg p ans k s = some r₁ ∧
      (r₁.status = .err ∧ r = r₁ ∨
        r₁.status ≠ .err ∧ ∃ r₂, pushBatches cfg p ans ks r₁.state r₁.status = some r₂ ∧
          r = { r₂ with ops := r₁.ops ++ r₂.ops }) := by
  simp only [pushBatches, Option.bind_eq_bind, Option.bind_eq_some_iff] at h
  obtain ⟨_, -, r₁, hbatch, h⟩ := h
  refine ⟨r₁, hbatch, ?_⟩
  split at h
  · rename_i herr
    cases h
    exact .inl ⟨herr, rfl⟩
  · rename_i herr
    simp only [Option.bind_eq_some_iff, Option.some.injEq] at h
    obtain ⟨r₂, hrest, rfl⟩ := h
    exact .inr ⟨herr, r₂, hrest, rfl⟩

theorem pushBatches_frame {cfg : Config} {p : PushReq} {ans : PushAnswers} {ks : List Nat}
    {s : State} {ret : ReplyStatus} {r : Reply}
    (h : pushBatches cfg p ans ks s ret = some r) : Frame s r.state := by
  induction ks generalizing s ret r with
  | nil =>
    cases h
    exact .refl s
  | cons k ks ih =>
    obtain ⟨r₁, hbatch, ⟨-, rfl⟩ | ⟨-, r₂, hrest, rfl⟩⟩ := pushBatches_cons_eq_some h
    · exact pushBatch_frame hbatch
    · have hrest := ih hrest
      exact (pushBatch_frame hbatch).trans ⟨hrest.vq, hrest.threads, hrest.registered⟩

theorem pushRecvFirst_frame {cfg : Config} {s : State} {p : PushReq} {ans : PushAnswers}
    {r : Reply} (h : pushRecvFirst cfg s p ans = some r) : Frame s r.state := by
  unfold pushRecvFirst at h
  split at h
  · exact pushRecvImpl_frame h
  · cases h
    exact .refl s

theorem pushWait_state {r r' : Reply} {p : PushReq} {comp : Bool} (h : pushWait r p comp = some r') :
    r'.state = r.state := by
  unfold pushWait at h
  split at h
  · simp only [Option.bind_eq_bind, Option.bind_eq_some_iff] at h
    obtain ⟨q, -, h⟩ := h
    split at h
    · cases h
      rfl
    · cases h
  · cases h
    rfl

theorem push_frame {cfg : Config} {s : State} {arg : Nat} {p : PushReq} {ans : PushAnswers}
    {r : Reply} (h : push cfg s arg p ans = some r) : Frame s r.state := by
  simp only [push, Option.bind_eq_bind, Option.bind_eq_some_iff] at h
  obtain ⟨_, -, _, -, r₁, hfirst, r₂, hbatches, hwait⟩ := h
  have hframe := (pushRecvFirst_frame hfirst).trans (pushBatches_frame hbatches)
  rw [pushWait_state hwait]
  exact ⟨hframe.vq, hframe.threads, hframe.registered⟩

theorem rpcPoll_frame {s : State} {rounds : List (BitVec 32 × PostAnswer)} {r : Reply}
    (h : rpcPoll s rounds = some r) : Frame s r.state := by
  induction rounds generalizing s with
  | nil =>
    cases h
    exact .refl s
  | cons round rounds ih =>
    unfold rpcPoll at h
    split at h
    · simp only [Option.bind_eq_bind, Option.bind_eq_some_iff] at h
      obtain ⟨out, -, h⟩ := h
      have hring : Frame s { s with rpc := out.1 } := ⟨rfl, rfl, fun _ => rfl⟩
      exact hring.trans (ih h)
    · exact ih h

/-- The commands that can change the queue itself. -/
def Call.reconfigures : Call → Bool
  | .connect .. => true
  | .binds .. => true
  | .unBinds .. => true
  | _ => false

/-- All other commands leave the queue, the threads and the accepted RCs alone. -/
theorem ioctrl_frame {cfg : Config} {s : State} {arg replyBuf : BitVec 64} {call : Call} {r : Reply}
    (hcall : call.reconfigures = false) (h : ioctrl cfg s arg replyBuf call = some r) :
    Frame s r.state := by
  cases call with
  | connect => cases hcall
  | binds => cases hcall
  | unBinds => cases hcall
  | nil | unknown =>
    cases h
    exact .refl s
  | regMRs size =>
    simp only [ioctrl, regMRs, Option.bind_eq_bind, Option.bind_eq_some_iff, Option.some.injEq] at h
    obtain ⟨_, -, _, -, rfl⟩ := h
    exact .refl s
  | push p ans => exact push_frame h
  | pushRecv cnt ans =>
    simp only [ioctrl, pushRecv, Option.bind_eq_bind, Option.bind_eq_some_iff] at h
    obtain ⟨_, -, h⟩ := h
    exact pushRecvImpl_frame h
  | pop vid ans =>
    simp only [ioctrl, pop, Option.bind_eq_bind, Option.bind_eq_some_iff, Option.some.injEq] at h
    obtain ⟨_, -, _, -, _, -, rfl⟩ := h
    exact .refl s
  | popMsgs least payloadSz polls wrIds =>
    simp only [ioctrl, popMsgs, Option.bind_eq_bind, Option.bind_eq_some_iff] at h
    obtain ⟨_, -, _, -, found, -, h⟩ := h
    split at h
    · cases h
      exact .refl s
    · simp only [Option.bind_eq_some_iff, Option.some.injEq] at h
      obtain ⟨_, -, rfl⟩ := h
      exact .refl s
  | rpcPoll rounds => exact rpcPoll_frame h

/-- What the metadata server has answered is part of the answers to a Connect. -/
def MetaScan.answers (scan : MetaScan) (ans : ConnectAnswers) : ConnectAnswers :=
  { ans with metaQuery := scan.found.map Prod.snd }

/-! ## What a step can do to the queue -/

/-- Everything a step can do to the queue and its threads. -/
inductive Stepped (cfg : Config) (s : State) : Event → State → Prop
  | kept {arg replyBuf : BitVec 64} {call : Call} {s' : State}
      (hcall : call.reconfigures = false) (hframe : Frame s s') :
      Stepped cfg s (.ioctl arg replyBuf call) s'
  | refused {arg replyBuf : BitVec 64} {addr : UserAddr} {port vid : BitVec 32} {scan : MetaScan}
      {ans : ConnectAnswers}
      (h : s.vq.virtualQueue.isSome = true ∨ ∀ a : Address, addr.text ≠ some a.text) :
      Stepped cfg s (.ioctl arg replyBuf (.connect addr port vid scan ans)) s
  | connect {arg replyBuf : BitVec 64} {addr : UserAddr} {port vid : BitVec 32} {scan : MetaScan}
      {ans : ConnectAnswers} {a : Address} {vq' : VQ} {status : ReplyStatus} {pt : Option EndPoint}
      (htext : addr.text = some a.text)
      (himpl : VQ.connectImpl cfg.feat cfg.machine s.vq a (servicePort port) (toUsize vid)
        (scan.answers ans) = some (vq', status, pt)) :
      Stepped cfg s (.ioctl arg replyBuf (.connect addr port vid scan ans))
        { s with
          vq := vq'
          threads := s.threads ++ startThread cfg (VQ.connectStart cfg.feat cfg.machine s.vq a
            (servicePort port) (toUsize vid) (scan.answers ans)) }
  | binds {arg replyBuf : BitVec 64} {port : BitVec 32} {bindPort : Option Nat}
      (h : bindPort = s.vq.bindPort ∨ bindPort.isSome = true) :
      Stepped cfg s (.ioctl arg replyBuf (.binds port)) { s with vq := { s.vq with bindPort } }
  | notBound {arg replyBuf : BitVec 64} {port : BitVec 32} {ret : Int}
      (h : s.vq.bindPort ≠ some (toUsize port)) :
      Stepped cfg s (.ioctl arg replyBuf (.unBinds port ret)) s
  | unBinds {arg replyBuf : BitVec 64} {port : BitVec 32} {ret : Int}
      (h : s.vq.bindPort = some (toUsize port)) :
      Stepped cfg s (.ioctl arg replyBuf (.unBinds port ret))
        { s with vq := { s.vq with bindPort := none } }
  | thread {i : Nat} {rc : RcAnswer} {threads : List Thread}
      (h : ∀ param qp, s.threads[i]? = some (.connected param qp) →
        cfg.feat.virtualQueue = false) :
      Stepped cfg s (.thread i rc) { s with threads }
  | stored {i : Nat} {rc : RcAnswer} {param : RCConnectParam} {qp : Option RC}
      {threads : List Thread} (hthread : s.threads[i]? = some (.connected param qp))
      (hfeat : cfg.feat.virtualQueue = true) :
      Stepped cfg s (.thread i rc) { s with vq := { s.vq with virtualQueue := qp }, threads }
  | others {ctrls : Nat → Ctrl} {rpc : RpcRing} :
      Stepped cfg s (.others ctrls rpc) { s with ctrls, rpc }

/-- A Connect refuses, or it runs `connect_impl` on the address. -/
theorem connect_eq_some {cfg : Config} {s : State} {arg : Nat} {addr : UserAddr}
    {port vid : BitVec 32} {scan : MetaScan} {ans : ConnectAnswers} {r : Reply}
    (h : connect cfg s arg addr port vid scan ans = some r) :
    (r.state = s ∧ (s.vq.virtualQueue.isSome = true ∨ ∀ a : Address, addr.text ≠ some a.text)) ∨
      ∃ (a : Address) (vq' : VQ) (pt : Option EndPoint), addr.text = some a.text ∧
        VQ.connectImpl cfg.feat cfg.machine s.vq a (servicePort port) (toUsize vid)
          (scan.answers ans) = some (vq', r.status, pt) ∧
        r.state = { s with
          vq := vq'
          threads := s.threads ++ startThread cfg (VQ.connectStart cfg.feat cfg.machine s.vq a
            (servicePort port) (toUsize vid) (scan.answers ans)) } := by
  unfold connect at h
  split at h
  · rename_i hrc
    cases h
    exact .inl ⟨rfl, .inl hrc⟩
  · simp only [Option.bind_eq_bind, Option.bind_eq_some_iff] at h
    obtain ⟨_, -, text, htext, h⟩ := h
    split at h
    · rename_i hlen
      simp only [Option.bind_eq_some_iff, Option.some.injEq, Prod.exists] at h
      obtain ⟨ops, -, vq, status, pt, himpl, rfl⟩ := h
      exact .inr ⟨⟨text, hlen⟩, vq, pt, htext, himpl, rfl⟩
    · rename_i hlen
      cases h
      refine .inl ⟨rfl, .inr fun a ha => hlen ?_⟩
      rw [htext, Option.some.injEq] at ha
      rw [ha]
      exact a.size

theorem connect_stepped {cfg : Config} {s : State} {arg replyBuf : BitVec 64} {addr : UserAddr}
    {port vid : BitVec 32} {scan : MetaScan} {ans : ConnectAnswers} {r : Reply}
    (h : connect cfg s arg.toNat addr port vid scan ans = some r) :
    Stepped cfg s (.ioctl arg replyBuf (.connect addr port vid scan ans)) r.state := by
  rcases connect_eq_some h with ⟨hstate, hrefused⟩ | ⟨a, vq', pt, htext, himpl, hstate⟩
  · rw [hstate]
    exact .refused hrefused
  · rw [hstate]
    exact .connect htext himpl

theorem binds_stepped {cfg : Config} {s : State} {arg replyBuf : BitVec 64} {port : BitVec 32}
    {r : Reply} (h : binds s arg.toNat port = some r) :
    Stepped cfg s (.ioctl arg replyBuf (.binds port)) r.state := by
  simp only [binds, Option.bind_eq_bind, Option.bind_eq_some_iff] at h
  obtain ⟨_, -, h⟩ := h
  split at h
  · cases h
    exact .binds (.inl rfl)
  · split at h
    · cases h
      exact .binds (.inl rfl)
    · cases h
      exact .binds (.inr rfl)

theorem unBinds_stepped {cfg : Config} {s : State} {arg replyBuf : BitVec 64} {port : BitVec 32}
    {ret : Int} {r : Reply} (h : unBinds cfg s arg.toNat port ret = some r) :
    Stepped cfg s (.ioctl arg replyBuf (.unBinds port ret)) r.state := by
  simp only [unBinds, Option.bind_eq_bind, Option.bind_eq_some_iff] at h
  obtain ⟨_, -, h⟩ := h
  split at h
  · rename_i hport
    split at h
    · cases h
    · cases h
      exact .unBinds hport
  · rename_i hport
    cases h
    exact .notBound hport

theorem thread_stepped {cfg : Config} {s s' : State} {i : Nat} {rc : RcAnswer}
    (h : s.thread cfg i rc = some s') : Stepped cfg s (.thread i rc) s' := by
  simp only [State.thread, Option.bind_eq_bind, Option.bind_eq_some_iff, Option.some.injEq,
    Prod.exists] at h
  obtain ⟨t, hthread, vq, t', ht, rfl⟩ := h
  cases t with
  | started =>
    simp only [threadStep, Option.map_eq_some_iff, Prod.mk.injEq] at ht
    obtain ⟨_, -, rfl, rfl⟩ := ht
    exact .thread fun param qp hconn => by rw [hthread] at hconn; cases hconn
  | read param =>
    cases ht
    exact .thread fun param qp hconn => by rw [hthread] at hconn; cases hconn
  | checked param =>
    unfold threadStep at ht
    simp only at ht
    split at ht <;>
      (cases ht; exact .thread fun param qp hconn => by rw [hthread] at hconn; cases hconn)
  | connected param qp =>
    cases hfeat : cfg.feat.virtualQueue with
    | true =>
      simp only [threadStep, hfeat, if_true, Option.some.injEq, Prod.mk.injEq] at ht
      obtain ⟨rfl, rfl⟩ := ht
      exact .stored hthread hfeat
    | false =>
      simp only [threadStep, hfeat, Bool.false_eq_true, if_false, Option.some.injEq,
        Prod.mk.injEq] at ht
      obtain ⟨rfl, rfl⟩ := ht
      exact .thread fun _ _ _ => hfeat

theorem ioctrl_stepped {cfg : Config} {s : State} {arg replyBuf : BitVec 64} {call : Call}
    {r : Reply} (h : ioctrl cfg s arg replyBuf call = some r) :
    Stepped cfg s (.ioctl arg replyBuf call) r.state := by
  cases hrec : call.reconfigures with
  | false => exact .kept hrec (ioctrl_frame hrec h)
  | true =>
    cases call with
    | connect => exact connect_stepped h
    | binds => exact binds_stepped h
    | unBinds => exact unBinds_stepped h
    | _ => cases hrec

theorem step_stepped {cfg : Config} {s s' : State} {e : Event} (h : step cfg s e = some s') :
    Stepped cfg s e s' := by
  cases e with
  | ioctl arg replyBuf call =>
    simp only [step, Option.map_eq_some_iff] at h
    obtain ⟨r, hr, rfl⟩ := h
    exact ioctrl_stepped hr
  | thread i rc => exact thread_stepped h
  | others ctrls rpc =>
    cases h
    exact .others

/-! ## Sample values -/

def Ring.sample (N : Nat) [NeZero N] : Ring N :=
  ⟨RecvHelper.create id 0 0 0, RecvHelper.create_linked id 0 0 0⟩

/-- No RC has been accepted. -/
def Ctrl.sample : Ctrl where
  recvBuffer := Ring.sample ctrlRingSize
  registeredRcs _ := none

def Config.sample (feat : Features) : Config where
  feat
  machine := Machine.sample
  paToVa := id
  remoteMr _ := default
  wcAddr _ := 0
  wcSz := 64

def RpcRing.sample : RpcRing := Ring.sample rpcBufferN

def State.sample : State := State.opened default (fun _ => Ctrl.sample) RpcRing.sample

/-- The address `Address.sample 'a'` in user memory. -/
def UserAddr.sample : UserAddr where
  bytes := List.replicate 39 97
  size := List.length_replicate

def MetaScan.sample : MetaScan where
  metaPoint := none
  kvPa := 0
  head := { errno := 0, comp := true }
  entriesNum := 0
  list := { errno := 0, comp := true }
  found := none

def Call.sampleConnect (port : BitVec 32) (sidr : Except Int EndPoint) : Call :=
  .connect UserAddr.sample port 1 MetaScan.sample
    { (ConnectReq.sample 'a' 7 .notCreated).ans with sidr }

def BindAnswers.sample : BindAnswers where
  send _ := 0
  message _ := default
  ah _ := 1
  udPost _ := .ok
  udComp _ := true
  rcPost _ := .ok
  rcComp _ := true

def PushAnswers.sample : PushAnswers where
  recv := .ok
  send _ _ := 0
  bind _ := BindAnswers.sample
  comp := true
  wcStatus _ := 0

/-- A Push of one request. -/
def Call.samplePush (type : BitVec 32) : Call :=
  .push { reqList := 0, reqs := [.sample type 1 0], pushRecvCnt := 0, popRes := 0,
          reqLen_lt := by simp } PushAnswers.sample

end Ioctl
