-- SUMMARY: Queue pairs and completion queues of the mlx5 driver together, over interleavings of posts, the device, polls, resets and destructions.
import KRCore.Base.Run
import KRCore.Driver.CqRing
import KRCore.Driver.WorkQueue

/-!
# Queue pairs and completion queues

Many queue pairs share completion queues. A post call writes its requests one by
one under the lock of the queue and tells the device at its end; the device works on
each queue in order and writes completions; `mlx5_poll_one` looks up the queue pair
that a completion names. To move a queue pair to RESET or to destroy it, the driver
stops the device, removes the completions from the two completion queues, one
after the other, and starts the counters anew. All of that interleaves.

A log of what the callers and the device see is replayed on the histories of the
queues.
-/

namespace Driver

/-! ## Queue pairs -/

/-- The entry of a send request as the device finds it. -/
structure SqEntry where
  start : Nat
  signaled : Bool

/-- A call of `_mlx5_ib_post_send` that holds the lock: the requests it has taken, and whether
    one was refused, which ends the loop. -/
structure SqCall where
  entries : List SqEntry
  failed : Bool

/-- A call of `_mlx5_ib_post_recv` that holds the lock. -/
structure RqCall where
  nreq : Nat
  ind : Nat
  failed : Bool

/-- What the device has to do for a queue pair. After an error it only reports errors. -/
structure DevQp where
  sq : List SqEntry
  rq : Nat
  failed : Bool

/-- How far the driver has got with stopping a queue pair; a queue pair that is `gone` is not
    in the table. -/
inductive Down where
  | recvCq
  | recvCqLocked
  | sendCq
  | sendCqLocked
  | cleaned
  | gone
deriving DecidableEq, Repr

structure Qp where
  sq : Wq
  rq : Wq
  sqCall : Option SqCall
  rqCall : Option RqCall
  dev : DevQp
  down : Option Down

/-- What is fixed when the queues are created, and the number of blocks that a send queue has
    for a request. -/
structure HcaCfg where
  qpns : List Nat
  sendCq : Nat → Nat
  recvCq : Nat → Nat
  logCqe : Nat → Nat
  sqCnt : Nat → Nat
  sqMax : Nat → Nat
  rqCnt : Nat → Nat
  rqMax : Nat → Nat
  room : Nat → Nat

structure HcaCfg.Ok (cfg : HcaCfg) : Prop where
  cq : ∀ cqn, cfg.logCqe cqn ≤ 23
  sq : ∀ qpn, (Wq.init (cfg.sqCnt qpn) (cfg.sqMax qpn)).Roomy (cfg.room qpn)
  rq : ∀ qpn, (Wq.init (cfg.rqCnt qpn) (cfg.rqMax qpn)).Roomy 1

/-- A queue pair whose counters start anew. Its tables keep what is in them. -/
def Qp.fresh (qp : Qp) : Qp where
  sq := qp.sq.reset
  rq := qp.rq.reset
  sqCall := none
  rqCall := none
  dev := ⟨[], 0, false⟩
  down := none

def Qp.init (cfg : HcaCfg) (qpn : Nat) : Qp where
  sq := .init (cfg.sqCnt qpn) (cfg.sqMax qpn)
  rq := .init (cfg.rqCnt qpn) (cfg.rqMax qpn)
  sqCall := none
  rqCall := none
  dev := ⟨[], 0, false⟩
  down := some .gone

/-! ## Completions -/

def CqeOpcode.isSend : CqeOpcode → Bool
  | .req | .reqErr => true
  | _ => false

def CqeOpcode.isRecv : CqeOpcode → Bool
  | .respWrImm | .respSend | .respSendImm | .respSendInv | .respErr => true
  | _ => false

/-- The completion of a send request. -/
def Cqe.IsSendOf (c : Cqe) (qpn start : Nat) (ok : Bool) : Prop :=
  c.qpn = qpn ∧ c.wqeCounter = start ∧ c.opcode = if ok then .req else .reqErr

instance (c : Cqe) (qpn start : Nat) (ok : Bool) : Decidable (c.IsSendOf qpn start ok) :=
  inferInstanceAs (Decidable (_ ∧ _ ∧ _))

/-- The completion of a receive request. -/
def Cqe.IsRecvOf (c : Cqe) (qpn : Nat) (ok : Bool) : Prop :=
  c.qpn = qpn ∧ c.opcode.isRecv = true ∧ (ok = true ↔ c.opcode ≠ .respErr)

instance (c : Cqe) (qpn : Nat) (ok : Bool) : Decidable (c.IsRecvOf qpn ok) :=
  inferInstanceAs (Decidable (_ ∧ _ ∧ _))

/-! ## Steps -/

/-- What the callers and the device see of a queue pair. -/
inductive QpLog where
  | sendPosted (w : SendWqe)
  | sendRefused
  | recvPosted (wrId : Nat)
  | recvRefused
  | executed (ok : Bool)
  | received
  | polledSend (wrId : Nat) (ok : Bool)
  | polledRecv (wrId : Nat)
  | down
  | up

inductive HcaLog where
  | qp (qpn : Nat) (l : QpLog)
  | pollEmpty (cqn : Nat)

structure HcaState where
  cqs : Nat → CqState
  qps : Nat → Qp
  log : List HcaLog

def HcaState.init (cfg : HcaCfg) : HcaState where
  cqs := fun cqn => .init (cfg.logCqe cqn)
  qps := Qp.init cfg
  log := []

/-- `sendOne` and `recvOne` are a round of the loop of a post call; `none` is a request that
    fails a check of its own. `execute` and `receive` are steps of the device. -/
inductive HcaEvent where
  | sendBegin (qpn : Nat)
  | sendOne (qpn : Nat) (w : Option SendWqe)
  | sendEnd (qpn : Nat)
  | recvBegin (qpn : Nat)
  | recvOne (qpn : Nat) (wrId : Option Nat)
  | recvEnd (qpn : Nat)
  | execute (qpn : Nat) (ok : Bool) (c : Cqe)
  | receive (qpn : Nat) (ok : Bool) (c : Cqe)
  | poll (cqn : Nat)
  | report (cqn : Nat)
  | down (qpn : Nat)
  | clean (qpn : Nat)
  | cleanStep (qpn : Nat)
  | gone (qpn : Nat)
  | up (qpn : Nat)

def HcaState.setQp (s : HcaState) (qpn : Nat) (qp : Qp) (log : List QpLog) : HcaState :=
  { s with qps := Function.update s.qps qpn qp, log := s.log ++ log.map (.qp qpn) }

def HcaState.setCq (s : HcaState) (cqn : Nat) (cq : CqState) : HcaState :=
  { s with cqs := Function.update s.cqs cqn cq }

/-- A round of the loop of `_mlx5_ib_post_send`. -/
def Qp.sendOne (qp : Qp) (call : SqCall) : Option SendWqe → Qp × List QpLog
  | none => ({ qp with sqCall := some { call with failed := true } }, [])
  | some w =>
    if qp.sq.overflow call.entries.length = true then
      ({ qp with sqCall := some { call with failed := true } }, [.sendRefused])
    else
      ({ qp with
          sq := qp.sq.finishWqe w call.entries.length
          sqCall := some { call with entries := call.entries ++ [⟨qp.sq.curPost, w.signaled⟩] } },
        [.sendPosted w])

/-- A round of the loop of `_mlx5_ib_post_recv`. -/
def Qp.recvOne (qp : Qp) (call : RqCall) : Option Nat → Qp × List QpLog
  | none =>
    -- the room is checked before the number of segments
    ({ qp with rqCall := some { call with failed := true } },
      if qp.rq.overflow call.nreq = true then [.recvRefused] else [])
  | some wrId =>
    if qp.rq.overflow call.nreq = true then
      ({ qp with rqCall := some { call with failed := true } }, [.recvRefused])
    else
      ({ qp with
          rq := qp.rq.writeRecv call.ind wrId
          rqCall := some { call with nreq := call.nreq + 1, ind := qp.rq.idx (call.ind + 1) } },
        [.recvPosted wrId])

/-- `mlx5_poll_one` for the completion `c`. The lookup of a queue pair that is gone gives a null
    pointer, which nobody checks. -/
def Qp.pollOne (qp : Qp) (c : Cqe) : Option (Qp × QpLog) :=
  if qp.down = some .gone then none
  else
    match c.opcode with
    | .req =>
      (qp.sq.pollSend c.wqeCounter true).map fun (wrId, sq) =>
        ({ qp with sq }, .polledSend wrId true)
    | .reqErr =>
      (qp.sq.pollSend c.wqeCounter false).map fun (wrId, sq) =>
        ({ qp with sq }, .polledSend wrId false)
    | .respWrImm | .respSend | .respSendImm | .respSendInv | .respErr =>
      some ({ qp with rq := qp.rq.pollRecv.2 }, .polledRecv qp.rq.pollRecv.1)
    | .sigErr | .invalid => none

/-- The completion queue that is cleaned next. -/
def Qp.toClean (cfg : HcaCfg) (qpn : Nat) (qp : Qp) : Option (Nat × Down) :=
  match qp.down with
  | some .recvCq => some (cfg.recvCq qpn, .recvCqLocked)
  | some .sendCq => some (cfg.sendCq qpn, .sendCqLocked)
  | _ => none

/-- The completion queue that is being cleaned, and what comes after it. -/
def Qp.cleaning (cfg : HcaCfg) (qpn : Nat) (qp : Qp) : Option (Nat × Down) :=
  match qp.down with
  | some .recvCqLocked =>
    some (cfg.recvCq qpn, if cfg.sendCq qpn = cfg.recvCq qpn then .cleaned else .sendCq)
  | some .sendCqLocked => some (cfg.sendCq qpn, .cleaned)
  | _ => none

def hcaStep (cfg : HcaCfg) (s : HcaState) : HcaEvent → Option HcaState
  | .sendBegin qpn =>
    let qp := s.qps qpn
    if qp.down = none ∧ qp.sqCall.isNone then
      some (s.setQp qpn { qp with sqCall := some ⟨[], false⟩ } [])
    else none
  | .sendOne qpn w =>
    let qp := s.qps qpn
    match qp.sqCall with
    | some ⟨entries, false⟩ =>
      let (qp', log) := qp.sendOne ⟨entries, false⟩ w
      some (s.setQp qpn qp' log)
    | _ => none
  | .sendEnd qpn =>
    let qp := s.qps qpn
    qp.sqCall.map fun call =>
      s.setQp qpn
        { qp with
          sq := qp.sq.advance call.entries.length
          sqCall := none
          dev := { qp.dev with sq := qp.dev.sq ++ call.entries } } []
  | .recvBegin qpn =>
    let qp := s.qps qpn
    if qp.down = none ∧ qp.rqCall.isNone then
      some (s.setQp qpn { qp with rqCall := some ⟨0, qp.rq.idx qp.rq.head, false⟩ } [])
    else none
  | .recvOne qpn wrId =>
    let qp := s.qps qpn
    match qp.rqCall with
    | some ⟨nreq, ind, false⟩ =>
      let (qp', log) := qp.recvOne ⟨nreq, ind, false⟩ wrId
      some (s.setQp qpn qp' log)
    | _ => none
  | .recvEnd qpn =>
    let qp := s.qps qpn
    qp.rqCall.map fun call =>
      s.setQp qpn
        { qp with
          rq := qp.rq.advance call.nreq
          rqCall := none
          dev := { qp.dev with rq := qp.dev.rq + call.nreq } } []
  | .execute qpn ok c =>
    let qp := s.qps qpn
    match qp.dev.sq with
    | [] => none
    | e :: rest =>
      if qp.down = none ∧ (ok = true → qp.dev.failed = false) then
        let s' := s.setQp qpn
          { qp with dev := { qp.dev with sq := rest, failed := qp.dev.failed || !ok } }
          [.executed ok]
        if (e.signaled || !ok) = true then
          if c.IsSendOf qpn e.start ok then
            (cqStep (s.cqs (cfg.sendCq qpn)) (.write c)).map (s'.setCq (cfg.sendCq qpn))
          else none
        else some s'
      else none
  | .receive qpn ok c =>
    let qp := s.qps qpn
    if qp.down = none ∧ 0 < qp.dev.rq ∧ (ok = true → qp.dev.failed = false) ∧ c.IsRecvOf qpn ok then
      let s' := s.setQp qpn
        { qp with dev := { qp.dev with rq := qp.dev.rq - 1, failed := qp.dev.failed || !ok } }
        [.received]
      (cqStep (s.cqs (cfg.recvCq qpn)) (.write c)).map (s'.setCq (cfg.recvCq qpn))
    else none
  | .poll cqn =>
    (cqStep (s.cqs cqn) .poll).bind fun cq =>
      match (s.cqs cqn).cq.nextCqeSw with
      | none => some { s.setCq cqn cq with log := s.log ++ [.pollEmpty cqn] }
      | some c =>
        ((s.qps c.qpn).pollOne c).map fun (qp, l) => (s.setQp c.qpn qp [l]).setCq cqn cq
  | .report cqn => (cqStep (s.cqs cqn) .report).map (s.setCq cqn)
  | .down qpn =>
    let qp := s.qps qpn
    if qp.down = none ∧ qp.sqCall.isNone ∧ qp.rqCall.isNone then
      some (s.setQp qpn
        { qp with dev := { qp.dev with sq := [], rq := 0 }, down := some .recvCq } [.down])
    else none
  | .clean qpn =>
    let qp := s.qps qpn
    (qp.toClean cfg qpn).bind fun (cqn, next) =>
      (cqStep (s.cqs cqn) (.clean qpn false)).map fun cq =>
        (s.setQp qpn { qp with down := some next } []).setCq cqn cq
  | .cleanStep qpn =>
    let qp := s.qps qpn
    (qp.cleaning cfg qpn).bind fun (cqn, next) =>
      (cqStep (s.cqs cqn) .cleanStep).map fun cq =>
        let down := if cq.clean.isSome then qp.down else some next
        (s.setQp qpn { qp with down } []).setCq cqn cq
  | .gone qpn =>
    let qp := s.qps qpn
    if qp.down = some .cleaned then some (s.setQp qpn { qp with down := some .gone } []) else none
  | .up qpn =>
    let qp := s.qps qpn
    if qp.down = some .cleaned ∨ qp.down = some .gone then
      some (s.setQp qpn qp.fresh [.up])
    else none

/-- What callers keep to: a request takes no more blocks than the queue has for it, and a
    completion queue is not full when the completions of a queue pair are to be removed. -/
def HcaGuard (cfg : HcaCfg) (s : HcaState) : HcaEvent → Prop
  | .sendOne qpn (some w) => w.blocks ≤ cfg.room qpn
  | .clean qpn =>
    match (s.qps qpn).toClean cfg qpn with
    | none => True
    | some (cqn, _) => (s.cqs cqn).cq.swCqes.length < 2 ^ cfg.logCqe cqn
  | _ => True

instance (cfg : HcaCfg) (s : HcaState) (e : HcaEvent) : Decidable (HcaGuard cfg s e) := by
  unfold HcaGuard
  split
  · infer_instance
  · split <;> infer_instance
  · infer_instance

/-! ## Histories -/

/-- The queues of a queue pair since it came up, and whether it is up. -/
structure QpHist where
  send : SendHist
  recv : RecvHist
  up : Bool

def QpHist.init (up : Bool) : QpHist := ⟨.init, .init, up⟩

def QpHist.step (cfg : HcaCfg) (qpn : Nat) (h : QpHist) : QpLog → Option QpHist
  | .sendPosted w => (h.send.post (cfg.sqMax qpn) w).map fun send => { h with send }
  | .sendRefused => (h.send.refuse (cfg.sqMax qpn)).map fun send => { h with send }
  | .recvPosted wrId => (h.recv.post (cfg.rqMax qpn) wrId).map fun recv => { h with recv }
  | .recvRefused => (h.recv.refuse (cfg.rqMax qpn)).map fun recv => { h with recv }
  | .executed ok => (h.send.execute ok).map fun send => { h with send }
  | .received => h.recv.consume.map fun recv => { h with recv }
  | .polledSend wrId ok => (h.send.poll wrId ok).map fun send => { h with send }
  | .polledRecv wrId => (h.recv.poll wrId).map fun recv => { h with recv }
  | .down => some { h with up := false }
  | .up => some (.init true)

/-- The histories of all queues. A poll that finds nothing means that there is nothing: no
    queue pair that is up has a completion on that queue. -/
def histStep (cfg : HcaCfg) (h : Nat → QpHist) : HcaLog → Option (Nat → QpHist)
  | .qp qpn l => ((h qpn).step cfg qpn l).map (Function.update h qpn)
  | .pollEmpty cqn =>
    if ∀ qpn ∈ cfg.qpns, (h qpn).up = true →
        (cfg.sendCq qpn = cqn → (h qpn).send.done.isEmpty = true) ∧
        (cfg.recvCq qpn = cqn → (h qpn).recv.polled = (h qpn).recv.consumed) then some h
    else none

end Driver
