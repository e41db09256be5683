-- SUMMARY: The connection manager of one device: its identifiers and tables, and what every call, message and timeout does to them.
import Mathlib.Logic.Function.Basic

/-!
# The connection manager

`drivers/infiniband/core/cm.c`, for connections of type RC and for service resolution (SIDR). Nobody
asks for more time (MRA) or for another path (LAP), so these messages and their states are
left out. A device is named by its GUID, which also stands for its address. Sending a message can
fail, which is an argument `ok` of what sends it.

The tables of remote identifiers and remote queue pairs are search trees over timewait infos in the
source; here they are maps from the key to what is read of the info that is found.
-/

namespace IbCm

abbrev Guid := Nat

/-- `local_id` and `remote_id`; a remote identifier that is not known is 0. -/
abbrev CommId := Nat

/-- `ib_cm_state`. -/
inductive State where
  | idle
  | listen
  | reqSent
  | reqRcvd
  | repSent
  | repRcvd
  | established
  | dreqSent
  | dreqRcvd
  | timewait
  | sidrReqSent
  | sidrReqRcvd
deriving DecidableEq, Repr

/-- `ib_cm_rej_reason`, as far as it is set or looked at. -/
inductive RejReason where
  | timeout
  | invalidServiceId
  | staleConn
  | invalidGid
  | consumerDefined
  | other (code : Nat)
deriving DecidableEq, Repr

/-- `cm_msg_response`: the message that is rejected. -/
inductive MsgResponse where
  | req
  | rep
  | other
deriving DecidableEq, Repr

/-- `ib_cm_sidr_status`. -/
inductive SidrStatus where
  | success
  | unsupported
  | reject
  | other (code : Nat)
deriving DecidableEq, Repr

/-! ## Messages -/

structure ReqMsg where
  localCommId : CommId
  serviceId : Nat
  localCaGuid : Guid
  localQpn : Nat
  startingPsn : Nat
  privateData : List UInt8
deriving DecidableEq

structure RepMsg where
  localCommId : CommId
  remoteCommId : CommId
  localCaGuid : Guid
  localQpn : Nat
  startingPsn : Nat
  privateData : List UInt8
deriving DecidableEq

structure RejMsg where
  localCommId : CommId
  remoteCommId : CommId
  msgRejected : MsgResponse
  reason : RejReason
  /-- The GUID in the additional information, 0 if there is none. -/
  ari : Guid
deriving DecidableEq

structure SidrRepMsg where
  requestId : CommId
  status : SidrStatus
  qpn : Nat
  serviceId : Nat
  qkey : Nat
  info : List UInt8
deriving DecidableEq

inductive Msg where
  | req (m : ReqMsg)
  | rep (m : RepMsg)
  | rtu (localCommId remoteCommId : CommId) (privateData : List UInt8)
  | rej (m : RejMsg)
  | dreq (localCommId remoteCommId : CommId) (remoteQpn : Nat) (privateData : List UInt8)
  | drep (localCommId remoteCommId : CommId) (privateData : List UInt8)
  | sidrReq (requestId : CommId) (serviceId : Nat) (privateData : List UInt8)
  | sidrRep (m : SidrRepMsg)
deriving DecidableEq

/-- What the handler of an identifier is told. -/
inductive Event where
  | reqReceived (remoteCaGuid : Guid) (remoteQpn startingPsn : Nat) (privateData : List UInt8)
  | repReceived (remoteCaGuid : Guid) (remoteQpn startingPsn : Nat) (privateData : List UInt8)
  | rtuReceived (privateData : List UInt8)
  | rejReceived (reason : RejReason)
  | dreqReceived (privateData : List UInt8)
  | drepReceived (privateData : List UInt8)
  | reqError
  | repError
  | dreqError
  | timewaitExit
  | sidrReqReceived (serviceId : Nat) (privateData : List UInt8)
  | sidrRepReceived (status : SidrStatus) (qpn qkey : Nat) (info : List UInt8)
  | sidrReqError
deriving DecidableEq

/-! ## Identifiers and tables -/

/-- `cm_timewait_info`. -/
structure TimewaitInfo where
  localId : CommId
  remoteId : CommId
  remoteCaGuid : Guid
  remoteQpn : Nat
  insertedRemoteId : Bool
  insertedRemoteQp : Bool
deriving DecidableEq

/-- `cm_id_private`; `peer` is the destination of the address vector. -/
structure CmId where
  state : State
  remoteId : CommId
  serviceId : Nat
  peer : Guid
  localQpn : Nat
  remoteQpn : Nat
  sqPsn : Nat
  rqPsn : Nat
  privateData : List UInt8
  timewaitInfo : Option TimewaitInfo
deriving DecidableEq

/-- `ib_create_cm_id`. -/
def CmId.new : CmId where
  state := .idle
  remoteId := 0
  serviceId := 0
  peer := 0
  localQpn := 0
  remoteQpn := 0
  sqPsn := 0
  rqPsn := 0
  privateData := []
  timewaitInfo := none

/-- Where a thread is in `cm_destroy_id`: it takes and drops the lock of the identifier in between. -/
inductive Destroy where
  | retest
  | sendRej (reason : RejReason)
  | sendDreq
  | sendDrep
  | rejectSidr
  | free
deriving DecidableEq

/-- The state of the module on a device. -/
structure Cm where
  /-- `local_id_table`. -/
  ids : CommId → Option CmId
  /-- `listen_service_table`. -/
  listeners : Nat → Option CommId
  /-- `remote_id_table`, to the local identifier. -/
  remoteIds : Guid × CommId → Option CommId
  /-- `remote_qp_table`, to the local and the remote identifier. -/
  remoteQps : Guid × Nat → Option (CommId × CommId)
  /-- `remote_sidr_table`. -/
  remoteSidrs : Guid × CommId → Option CommId
  timewaitList : List TimewaitInfo
  destroying : CommId → Option Destroy

def Cm.new : Cm where
  ids _ := none
  listeners _ := none
  remoteIds _ := none
  remoteQps _ := none
  remoteSidrs _ := none
  timewaitList := []
  destroying _ := none

/-- What a call or a message leads to: the manager afterwards, what is sent to whom, and who is
    told what. -/
structure Effect where
  cm : Cm
  out : List (Guid × Msg)
  events : List (CommId × Event)

def Effect.none (cm : Cm) : Effect := ⟨cm, [], []⟩

/-- Queue pair numbers and sequence numbers have 24 bits in the messages. -/
def low24 (x : Nat) : Nat := x % 16777216

namespace Cm

def setId (cm : Cm) (id : CommId) (c : CmId) : Cm :=
  { cm with ids := Function.update cm.ids id (some c) }

/-- `cm_free_id`. -/
def freeId (cm : Cm) (id : CommId) : Cm := { cm with ids := Function.update cm.ids id none }

/-- `cm_get_id`. -/
def getId (cm : Cm) (localId remoteId : CommId) : Option CmId :=
  (cm.ids localId).filter (·.remoteId = remoteId)

def cleanupTimewait (cm : Cm) (info : TimewaitInfo) : Cm :=
  { cm with
    remoteIds :=
      if info.insertedRemoteId then
        Function.update cm.remoteIds (info.remoteCaGuid, info.remoteId) none
      else cm.remoteIds
    remoteQps :=
      if info.insertedRemoteQp then
        Function.update cm.remoteQps (info.remoteCaGuid, info.remoteQpn) none
      else cm.remoteQps }

/-- `cm_enter_timewait`. The source reads the info without a check that there is one. -/
def enterTimewait (cm : Cm) (id : CommId) (c : CmId) : Cm :=
  let cm := match c.timewaitInfo with
    | none => cm
    | some info =>
      { cm.cleanupTimewait info with
        timewaitList := cm.timewaitList ++
          [{ info with insertedRemoteId := false, insertedRemoteQp := false }] }
  cm.setId id { c with state := .timewait, timewaitInfo := none }

/-- `cm_reset_to_idle`. -/
def resetToIdle (cm : Cm) (id : CommId) (c : CmId) : Cm :=
  let cm := match c.timewaitInfo with
    | none => cm
    | some info => cm.cleanupTimewait info
  cm.setId id { c with state := .idle, timewaitInfo := none }

/-! ## Calls -/

structure ReqParam where
  serviceId : Nat
  qpNum : Nat
  startingPsn : Nat
  privateData : List UInt8
deriving DecidableEq

structure RepParam where
  qpNum : Nat
  startingPsn : Nat
  privateData : List UInt8
deriving DecidableEq

/-- `ib_send_cm_req`. -/
def sendReq (cm : Cm) (me : Guid) (id : CommId) (c : CmId) (dst : Guid) (param : ReqParam)
    (ok : Bool) : Effect :=
  if c.state ≠ .idle ∨ 92 < param.privateData.length ∨ ok = false then .none cm
  else
    { cm := cm.setId id
        { c with
          state := .reqSent
          serviceId := param.serviceId
          peer := dst
          localQpn := low24 param.qpNum
          rqPsn := low24 param.startingPsn
          timewaitInfo := some ⟨id, 0, 0, 0, false, false⟩ }
      out := [(dst, .req
        { localCommId := id
          serviceId := param.serviceId
          localCaGuid := me
          localQpn := low24 param.qpNum
          startingPsn := low24 param.startingPsn
          privateData := param.privateData })]
      events := [] }

/-- `ib_send_cm_rep`. -/
def sendRep (cm : Cm) (me : Guid) (id : CommId) (c : CmId) (param : RepParam) (ok : Bool) : Effect :=
  if 196 < param.privateData.length ∨ c.state ≠ .reqRcvd ∨ ok = false then .none cm
  else
    { cm := cm.setId id
        { c with
          state := .repSent
          localQpn := low24 param.qpNum
          rqPsn := low24 param.startingPsn }
      out := [(c.peer, .rep
        { localCommId := id
          remoteCommId := c.remoteId
          localCaGuid := me
          localQpn := low24 param.qpNum
          startingPsn := low24 param.startingPsn
          privateData := param.privateData })]
      events := [] }

/-- `ib_send_cm_rtu`. -/
def sendRtu (cm : Cm) (id : CommId) (c : CmId) (privateData : List UInt8) (ok : Bool) : Effect :=
  if 224 < privateData.length ∨ c.state ≠ .repRcvd ∨ ok = false then .none cm
  else ⟨cm.setId id { c with state := .established, privateData },
    [(c.peer, .rtu id c.remoteId privateData)], []⟩

/-- `ib_send_cm_dreq`. -/
def sendDreq (cm : Cm) (id : CommId) (c : CmId) (privateData : List UInt8) (ok : Bool) : Effect :=
  if 220 < privateData.length ∨ c.state ≠ .established then .none cm
  else if ok = false then .none (cm.enterTimewait id c)
  else ⟨cm.setId id { c with state := .dreqSent },
    [(c.peer, .dreq id c.remoteId c.remoteQpn privateData)], []⟩

/-- `ib_send_cm_drep`. -/
def sendDrep (cm : Cm) (id : CommId) (c : CmId) (privateData : List UInt8) (ok : Bool) : Effect :=
  if 224 < privateData.length ∨ c.state ≠ .dreqRcvd then .none cm
  else ⟨cm.enterTimewait id { c with privateData },
    if ok then [(c.peer, .drep id c.remoteId privateData)] else [], []⟩

/-- `cm_format_rej`. -/
def formatRej (id : CommId) (c : CmId) (reason : RejReason) (ari : Guid) : Msg :=
  .rej
    { localCommId := if c.state = .reqRcvd then 0 else id
      remoteCommId := c.remoteId
      msgRejected :=
        match c.state with
        | .reqRcvd => .req
        | .repRcvd => .rep
        | _ => .other
      reason
      ari }

/-- `ib_send_cm_rej`. -/
def sendRej (cm : Cm) (id : CommId) (c : CmId) (reason : RejReason) (ari : Guid) (ok : Bool) : Effect :=
  let out := if ok then [(c.peer, formatRej id c reason ari)] else []
  match c.state with
  | .reqSent | .reqRcvd | .repRcvd => ⟨cm.resetToIdle id c, out, []⟩
  | .repSent => ⟨cm.enterTimewait id c, out, []⟩
  | _ => .none cm

/-- `ib_cm_listen` with a mask of 0: the service is matched exactly. -/
def listen (cm : Cm) (id : CommId) (c : CmId) (serviceId : Nat) : Effect :=
  if c.state ≠ .idle then .none cm
  else if cm.listeners serviceId ≠ none then .none (cm.setId id { c with serviceId })
  else .none
    { cm.setId id { c with state := .listen, serviceId } with
      listeners := Function.update cm.listeners serviceId (some id) }

/-- `ib_send_cm_sidr_req`. -/
def sendSidrReq (cm : Cm) (id : CommId) (c : CmId) (dst : Guid) (serviceId : Nat)
    (privateData : List UInt8) (ok : Bool) : Effect :=
  if 216 < privateData.length ∨ c.state ≠ .idle ∨ ok = false then .none cm
  else ⟨cm.setId id { c with state := .sidrReqSent, serviceId, peer := dst },
    [(dst, .sidrReq id serviceId privateData)], []⟩

structure SidrRepParam where
  status : SidrStatus
  qpNum : Nat
  qkey : Nat
  info : List UInt8
deriving DecidableEq

/-- `ib_send_cm_sidr_rep`. -/
def sendSidrRep (cm : Cm) (id : CommId) (c : CmId) (param : SidrRepParam) (ok : Bool) : Effect :=
  if 72 < param.info.length ∨ c.state ≠ .sidrReqRcvd ∨ ok = false then .none cm
  else
    { cm :=
        { cm.setId id { c with state := .idle } with
          remoteSidrs := Function.update cm.remoteSidrs (c.peer, c.remoteId) none }
      out := [(c.peer, .sidrRep
        { requestId := c.remoteId
          status := param.status
          qpn := low24 param.qpNum
          serviceId := c.serviceId
          qkey := param.qkey
          info := param.info })]
      events := [] }

/-- `cm_reject_sidr_req`. -/
def rejectSidrReq (cm : Cm) (id : CommId) (c : CmId) (status : SidrStatus) (ok : Bool) : Effect :=
  cm.sendSidrRep id c ⟨status, 0, 0, []⟩ ok

/-- `cm_destroy_id` up to the next point where other threads can come in between. -/
def destroyStep (cm : Cm) (me : Guid) (id : CommId) (c : CmId) (pc : Destroy) (ok : Bool) : Effect :=
  let goto (e : Effect) (pc : Destroy) : Effect :=
    { e with cm := { e.cm with destroying := Function.update e.cm.destroying id (some pc) } }
  match pc with
  | .retest =>
    match c.state with
    | .listen => goto (.none { cm with listeners := Function.update cm.listeners c.serviceId none }) .free
    | .sidrReqSent => goto (.none (cm.setId id { c with state := .idle })) .free
    | .sidrReqRcvd => goto (.none cm) .rejectSidr
    | .reqSent => goto (.none cm) (.sendRej .timeout)
    | .reqRcvd | .repSent | .repRcvd => goto (.none cm) (.sendRej .consumerDefined)
    | .established => goto (.none cm) .sendDreq
    | .dreqSent => goto (.none (cm.enterTimewait id c)) .free
    | .dreqRcvd => goto (.none cm) .sendDrep
    | .idle | .timewait => goto (.none cm) .free
  | .sendRej reason =>
    goto (cm.sendRej id c reason (if reason = .timeout then me else 0) ok) .free
  | .sendDreq => goto (cm.sendDreq id c [] ok) .retest
  | .sendDrep => goto (cm.sendDrep id c [] ok) .free
  | .rejectSidr =>
    let e := cm.rejectSidrReq id c .reject ok
    goto { e with cm :=
      { e.cm with remoteSidrs := Function.update e.cm.remoteSidrs (c.peer, c.remoteId) none } } .free
  | .free => .none
      { cm.freeId id with destroying := Function.update cm.destroying id none }

/-! ## Messages that come in -/

/-- `cm_dup_req_handler`: a request that is known is rejected if its connection is in timewait. -/
def dupReqHandler (cm : Cm) (localId remoteId : CommId) (src : Guid) : List (Guid × Msg) :=
  match cm.getId localId remoteId with
  | some c => if c.state = .timewait then [(src, formatRej localId c .staleConn 0)] else []
  | none => []

/-- The connection that a new one shows to be stale is asked to disconnect. -/
def dreqStale (cm : Cm) (localId remoteId : CommId) (ok : Bool) : Effect :=
  match cm.getId localId remoteId with
  | some c => cm.sendDreq localId c [] ok
  | none => .none cm

/-- `cm_req_handler` with `cm_match_req`. The identifier `newId` is taken first and given back if there
    is no connection; `ok` says whether the path in the request can be used. -/
def reqHandler (cm : Cm) (newId : CommId) (src : Guid) (m : ReqMsg) (ok : Bool) : Effect :=
  match cm.remoteIds (m.localCaGuid, m.localCommId) with
  | some localId => ⟨cm, cm.dupReqHandler localId m.localCommId src, []⟩
  | none =>
    match cm.remoteQps (m.localCaGuid, m.localQpn) with
    | some (localId, remoteId) =>
      let e := cm.dreqStale localId remoteId ok
      { e with out := (src, .rej ⟨0, m.localCommId, .req, .staleConn, 0⟩) :: e.out }
    | none =>
      match cm.listeners m.serviceId with
      | none => ⟨cm, [(src, .rej ⟨0, m.localCommId, .req, .invalidServiceId, 0⟩)], []⟩
      | some _ =>
        let c : CmId :=
          { CmId.new with
            state := .reqRcvd
            remoteId := m.localCommId
            serviceId := m.serviceId
            peer := src
            remoteQpn := m.localQpn
            sqPsn := m.startingPsn
            timewaitInfo := some ⟨newId, m.localCommId, m.localCaGuid, m.localQpn, true, true⟩ }
        let cm :=
          { cm.setId newId c with
            remoteIds := Function.update cm.remoteIds (m.localCaGuid, m.localCommId) (some newId)
            remoteQps := Function.update cm.remoteQps (m.localCaGuid, m.localQpn)
              (some (newId, m.localCommId)) }
        if ok then
          ⟨cm, [], [(newId, .reqReceived m.localCaGuid m.localQpn m.startingPsn m.privateData)]⟩
        else
          let e := cm.sendRej newId c .invalidGid 0 true
          { e with cm := e.cm.freeId newId }

/-- `cm_dup_rep_handler`: the reply came before, and the RTU may be lost. -/
def dupRepHandler (cm : Cm) (src : Guid) (m : RepMsg) : List (Guid × Msg) :=
  match cm.getId m.remoteCommId m.localCommId with
  | some c =>
    if c.state = .established then [(src, .rtu m.remoteCommId c.remoteId c.privateData)] else []
  | none => []

/-- `cm_rep_handler`. -/
def repHandler (cm : Cm) (src : Guid) (m : RepMsg) (ok : Bool) : Effect :=
  let id := m.remoteCommId
  match cm.getId id 0 with
  | none => ⟨cm, cm.dupRepHandler src m, []⟩
  | some c =>
    if c.state ≠ .reqSent then .none cm
    else
      let info : TimewaitInfo := ⟨id, m.localCommId, m.localCaGuid, m.localQpn, false, false⟩
      match cm.remoteIds (m.localCaGuid, m.localCommId) with
      | some _ => .none (cm.setId id { c with timewaitInfo := some info })
      | none =>
        match cm.remoteQps (m.localCaGuid, m.localQpn) with
        | some (localId, remoteId) =>
          let e := (cm.setId id { c with timewaitInfo := some info }).dreqStale localId remoteId ok
          { e with out := (src, .rej ⟨m.remoteCommId, m.localCommId, .rep, .staleConn, 0⟩) :: e.out }
        | none =>
          { cm :=
              { cm.setId id
                  { c with
                    state := .repRcvd
                    remoteId := m.localCommId
                    remoteQpn := m.localQpn
                    sqPsn := m.startingPsn
                    timewaitInfo := some { info with insertedRemoteId := true, insertedRemoteQp := true } } with
                remoteIds := Function.update cm.remoteIds (m.localCaGuid, m.localCommId) (some id)
                remoteQps := Function.update cm.remoteQps (m.localCaGuid, m.localQpn)
                  (some (id, m.localCommId)) }
            out := []
            events := [(id, .repReceived m.localCaGuid m.localQpn m.startingPsn m.privateData)] }

/-- `cm_rtu_handler`. -/
def rtuHandler (cm : Cm) (localCommId remoteCommId : CommId) (privateData : List UInt8) : Effect :=
  match cm.getId remoteCommId localCommId with
  | some c =>
    if c.state ≠ .repSent then .none cm
    else ⟨cm.setId remoteCommId { c with state := .established }, [],
      [(remoteCommId, .rtuReceived privateData)]⟩
  | none => .none cm

/-- `cm_dreq_handler`. -/
def dreqHandler (cm : Cm) (src : Guid) (localCommId remoteCommId : CommId) (remoteQpn : Nat)
    (privateData : List UInt8) : Effect :=
  match cm.getId remoteCommId localCommId with
  | none => ⟨cm, [(src, .drep remoteCommId localCommId [])], []⟩
  | some c =>
    if c.localQpn ≠ remoteQpn then .none cm
    else
      match c.state with
      | .repSent | .dreqSent | .established =>
        ⟨cm.setId remoteCommId { c with state := .dreqRcvd }, [],
          [(remoteCommId, .dreqReceived privateData)]⟩
      | .timewait => ⟨cm, [(src, .drep remoteCommId c.remoteId c.privateData)], []⟩
      | _ => .none cm

/-- `cm_drep_handler`. -/
def drepHandler (cm : Cm) (localCommId remoteCommId : CommId) (privateData : List UInt8) : Effect :=
  match cm.getId remoteCommId localCommId with
  | some c =>
    if c.state = .dreqSent ∨ c.state = .dreqRcvd then
      ⟨cm.enterTimewait remoteCommId c, [], [(remoteCommId, .drepReceived privateData)]⟩
    else .none cm
  | none => .none cm

/-- `cm_acquire_rejected_id`. -/
def acquireRejectedId (cm : Cm) (m : RejMsg) : Option (CommId × CmId) :=
  if m.reason = .timeout then
    (cm.remoteIds (m.ari, m.localCommId)).bind fun id =>
      (cm.getId id m.localCommId).map (id, ·)
  else if m.msgRejected = .req then (cm.getId m.remoteCommId 0).map (m.remoteCommId, ·)
  else (cm.getId m.remoteCommId m.localCommId).map (m.remoteCommId, ·)

/-- `cm_rej_handler`. -/
def rejHandler (cm : Cm) (m : RejMsg) : Effect :=
  match cm.acquireRejectedId m with
  | none => .none cm
  | some (id, c) =>
    let told := [(id, Event.rejReceived m.reason)]
    match c.state with
    | .reqSent | .repSent | .reqRcvd =>
      if m.reason = .staleConn then ⟨cm.enterTimewait id c, [], told⟩
      else ⟨cm.resetToIdle id c, [], told⟩
    | .dreqSent | .repRcvd | .established => ⟨cm.enterTimewait id c, [], told⟩
    | _ => .none cm

/-- `cm_sidr_req_handler`. -/
def sidrReqHandler (cm : Cm) (newId : CommId) (src : Guid) (requestId : CommId) (serviceId : Nat)
    (privateData : List UInt8) (ok : Bool) : Effect :=
  match cm.remoteSidrs (src, requestId) with
  | some _ => .none cm
  | none =>
    let c : CmId := { CmId.new with state := .sidrReqRcvd, remoteId := requestId, peer := src, serviceId }
    let cm' :=
      { cm.setId newId c with
        remoteSidrs := Function.update cm.remoteSidrs (src, requestId) (some newId) }
    match cm.listeners serviceId with
    | none =>
      -- the service is read from an identifier that does not have it yet
      let e := cm'.rejectSidrReq newId { c with serviceId := 0 } .unsupported ok
      let e := if ok then e else cm'.rejectSidrReq newId { c with serviceId := 0 } .reject true
      { e with cm := e.cm.freeId newId }
    | some _ => ⟨cm', [], [(newId, .sidrReqReceived serviceId privateData)]⟩

/-- `cm_sidr_rep_handler`. -/
def sidrRepHandler (cm : Cm) (m : SidrRepMsg) : Effect :=
  match cm.getId m.requestId 0 with
  | some c =>
    if c.state ≠ .sidrReqSent then .none cm
    else ⟨cm.setId m.requestId { c with state := .idle }, [],
      [(m.requestId, .sidrRepReceived m.status m.qpn m.qkey m.info)]⟩
  | none => .none cm

/-- `cm_work_handler`. -/
def recv (cm : Cm) (newId : CommId) (src : Guid) (ok : Bool) : Msg → Effect
  | .req m => cm.reqHandler newId src m ok
  | .rep m => cm.repHandler src m ok
  | .rtu l r data => cm.rtuHandler l r data
  | .rej m => cm.rejHandler m
  | .dreq l r qpn data => cm.dreqHandler src l r qpn data
  | .drep l r data => cm.drepHandler l r data
  | .sidrReq r service data => cm.sidrReqHandler newId src r service data ok
  | .sidrRep m => cm.sidrRepHandler m

/-! ## Timeouts -/

/-- `cm_process_send_error`: no response to the message of the current state. -/
def sendError (cm : Cm) (id : CommId) (c : CmId) : Effect :=
  match c.state with
  | .reqSent => ⟨cm.resetToIdle id c, [], [(id, .reqError)]⟩
  | .repSent => ⟨cm.resetToIdle id c, [], [(id, .repError)]⟩
  | .dreqSent => ⟨cm.enterTimewait id c, [], [(id, .dreqError)]⟩
  | .sidrReqSent => ⟨cm.setId id { c with state := .idle }, [], [(id, .sidrReqError)]⟩
  | _ => .none cm

/-- `cm_timewait_handler`. -/
def timewaitHandler (cm : Cm) (info : TimewaitInfo) : Effect :=
  let cm := { cm with timewaitList := cm.timewaitList.erase info }
  match cm.getId info.localId info.remoteId with
  | some c =>
    if c.state ≠ .timewait ∨ c.remoteQpn ≠ info.remoteQpn then .none cm
    else ⟨cm.setId info.localId { c with state := .idle }, [], [(info.localId, .timewaitExit)]⟩
  | none => .none cm

end Cm

end IbCm
