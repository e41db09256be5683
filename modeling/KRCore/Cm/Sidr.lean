-- SUMMARY: The SIDR handshake: the lookup on the server, its reply on the wire, and the endpoint that the client gets.
import KRCore.Qp.Handshake
import KRCore.Verbs.AddressHandle
import KRCore.Verbs.Layout

/-!
# The SIDR handshake

`RCtrl::sidr_callback` on the server and `SidrCM` on the client. The number and the
key of the UD travel in the fields of the CM reply, the rest in its info bytes as a
raw `SidrPayload`. The client creates an address handle in its callback and moves
it out to the caller.
-/

/-! ## The messages -/

/-- The number of a `conn::reply::Status`. -/
def ConnStatus.value : ConnStatus → BitVec 16
  | .ok => 1
  | .err => 2
  | .nil => 3
  | .exist => 4
  | .notExist => 5

def ConnStatus.ofValue (v : BitVec 16) : Option ConnStatus :=
  [ConnStatus.ok, .err, .nil, .exist, .notExist].find? fun s => s.value = v

theorem ConnStatus.ofValue_value (s : ConnStatus) : ofValue s.value = some s := by
  cases s <;> rfl

/-- `conn::Request` as the private data of the SIDR request. -/
def connRequest (qd : BitVec 64) : List UInt8 := Word.toBytes 8 qd.toNat

/-- The `qd` in the private data of a request. -/
def connRequestQd (bs : List UInt8) : BitVec 64 := BitVec.ofNat 64 (Word.fieldAt bs 0 8)

theorem connRequestQd_connRequest (qd : BitVec 64) : connRequestQd (connRequest qd) = qd := by
  have h : BitVec.ofNat 64 (Word.fieldAt (Word.toBytes 8 qd.toNat ++ []) 0 8) = qd :=
    Word.fieldAt_zero qd rfl
  rwa [List.append_nil] at h

/-- `conn::reply::SidrPayload`. -/
structure SidrPayload where
  qd : BitVec 64
  lid : BitVec 16
  gid : Gid
  dctNum : BitVec 32
  mr : TempMR
  status : ConnStatus
deriving DecidableEq

/-- The bytes that are sent without having been set: the padding of `SidrPayload` and what
    follows it in the reply. -/
structure SidrPayload.Junk where
  lid : Nat
  dctNum : Nat
  status : Nat
  post : List UInt8

namespace SidrPayload

/-- The 64 bytes of a payload, each field at its alignment, and what follows them. -/
def enc (p : SidrPayload) (junk : Junk) : List UInt8 :=
  Word.toBytes 8 p.qd.toNat ++ (Word.toBytes 2 p.lid.toNat ++ (Word.toBytes 6 junk.lid ++
    (Word.toBytes 16 p.gid.toNat ++ (Word.toBytes 4 p.dctNum.toNat ++
      (Word.toBytes 4 junk.dctNum ++ (Word.toBytes 8 p.mr.addr.toNat ++
        (Word.toBytes 4 p.mr.capacity.toNat ++ (Word.toBytes 4 p.mr.rkey.toNat ++
          (Word.toBytes 2 p.status.value.toNat ++ (Word.toBytes 6 junk.status ++
            junk.post))))))))))

/-- The payload in the info bytes of a reply, if its status is one. -/
def dec (bs : List UInt8) : Option SidrPayload :=
  (ConnStatus.ofValue (BitVec.ofNat 16 (Word.fieldAt bs 56 2))).map fun status =>
    { qd := BitVec.ofNat 64 (Word.fieldAt bs 0 8)
      lid := BitVec.ofNat 16 (Word.fieldAt bs 8 2)
      gid := BitVec.ofNat 128 (Word.fieldAt bs 16 16)
      dctNum := BitVec.ofNat 32 (Word.fieldAt bs 32 4)
      mr :=
        { addr := BitVec.ofNat 64 (Word.fieldAt bs 40 8)
          capacity := BitVec.ofNat 32 (Word.fieldAt bs 48 4)
          rkey := BitVec.ofNat 32 (Word.fieldAt bs 52 4) }
      status }

theorem dec_enc (p : SidrPayload) (junk : Junk) : dec (p.enc junk) = some p := by
  have hstatus : BitVec.ofNat 16 (Word.fieldAt (p.enc junk) 56 2) = p.status.value := by
    simp [enc, Word.fieldAt_skip, Word.fieldAt_zero]
  rw [dec, hstatus, ConnStatus.ofValue_value]
  simp [enc, Word.fieldAt_skip, Word.fieldAt_zero]

end SidrPayload

/-- The fields of a SIDR reply that the client reads. The QPN is in the upper 24 bits of
    `offset8`. -/
structure SidrRep where
  offset8 : BitVec 32
  qkey : BitVec 32
  info : List UInt8

namespace SidrRep

/-- `cm_sidr_rep_set_qpn`. -/
def setQpn (offset8 qpn : BitVec 32) : BitVec 32 := qpn <<< 8 ||| (offset8 &&& 0xFF)

/-- `cm_sidr_rep_get_qpn`. -/
def getQpn (rep : SidrRep) : BitVec 32 := rep.offset8 >>> 8

theorem setQpn_shift (offset8 : BitVec 32) {qpn : BitVec 32} (h : qpn.toNat < 2 ^ 24) :
    setQpn offset8 qpn >>> 8 = qpn := by
  refine BitVec.eq_of_getLsbD_eq fun i hi => ?_
  have hlow : (0xFF : BitVec 32).getLsbD (8 + i) = false := by
    have hall : ∀ j : Fin 32, 8 ≤ j.val → (0xFF : BitVec 32).getLsbD j = false := by decide
    by_cases hj : 8 + i < 32
    · exact hall ⟨8 + i, hj⟩ (Nat.le_add_right 8 i)
    · exact BitVec.getLsbD_of_ge _ _ (Nat.le_of_not_lt hj)
  simp only [setQpn, BitVec.getLsbD_ushiftRight, BitVec.getLsbD_or, BitVec.getLsbD_and,
    BitVec.getLsbD_shiftLeft, hlow, Bool.and_false, Bool.or_false]
  by_cases hj : 8 + i < 32
  · simp [hj]
  · -- The bits that are shifted out are zero.
    have hhigh : qpn.getLsbD i = false := by
      refine Nat.testBit_lt_two_pow (h.trans_le (Nat.pow_le_pow_right (by decide) ?_))
      omega
    simp [hj, hhigh]

/-- What the CM of the server sends if nobody listens to the service. -/
def rejected : SidrRep where
  offset8 := 0
  qkey := 0
  info := List.replicate 72 0

end SidrRep

/-! ## The server -/

/-- A UD, as its peers see it. The numbers of queue pairs have 24 bits. -/
structure RegisteredUd where
  qpn : BitVec 32
  qkey : BitVec 32
  qpn_lt : qpn.toNat < 2 ^ 24

/-- What `sidr_callback` reads of an `RCtrl`: the registered UDs, the lid and the gid of
    its context, and `get_self_dct_meta`. -/
structure SidrServer where
  registeredUds : BitVec 64 → Option RegisteredUd
  lid : BitVec 16
  gid : Gid
  dctNum : BitVec 32
  mr : TempMR

namespace SidrServer

/-- `SidrPayload::new`. -/
def payload (ctrl : SidrServer) (qd : BitVec 64) (status : ConnStatus) : SidrPayload where
  qd := qd
  lid := ctrl.lid
  gid := ctrl.gid
  dctNum := ctrl.dctNum
  mr := ctrl.mr
  status := status

/-- `sidr_callback`: the reply to the private data of a request. -/
def sidrCallback (ctrl : SidrServer) (req : List UInt8) (offset8 : BitVec 32)
    (junk : SidrPayload.Junk) : SidrRep :=
  let qd := connRequestQd req
  match ctrl.registeredUds qd with
  | some ud =>
    { offset8 := SidrRep.setQpn offset8 ud.qpn
      qkey := ud.qkey
      info := (ctrl.payload qd .ok).enc junk }
  | none =>
    { offset8 := SidrRep.setQpn offset8 0
      qkey := 0
      info := (ctrl.payload qd .notExist).enc junk }

/-- The endpoint of a UD of the controller, with the address handle `ah`. -/
def endPoint (ctrl : SidrServer) (ud : RegisteredUd) (ah : BitVec 64) : EndPoint where
  qpn := ud.qpn
  qkey := ud.qkey
  lid := ctrl.lid
  gid := ctrl.gid
  dctNum := ctrl.dctNum
  mr := ctrl.mr
  ah := ah

end SidrServer

/-! ## The client -/

/-- The endpoint that has been received, and whether the wait is over. -/
structure SidrCM where
  endPoint : EndPoint
  done : Bool

inductive SidrEvent where
  | repReceived (rep : SidrRep)
  | reqError
  | unknown

namespace SidrCM

/-- `SidrCM::new`. -/
def new : SidrCM where
  endPoint := default
  done := false

/-- `self.end_point = …`, which drops the old value. -/
def setEndPoint (cm : SidrCM) (ahs : Ahs) (e : EndPoint) : Option (SidrCM × Ahs) :=
  (cm.endPoint.drop ahs).map fun ahs => ({ cm with endPoint := e }, ahs)

/-- `handle_sidr_reply` up to `done`. A number that is no status goes to the last arm. -/
def takeReply (cm : SidrCM) (ahs : Ahs) (rep : SidrRep) (res : BitVec 64) :
    Option (SidrCM × Ahs) :=
  match SidrPayload.dec rep.info with
  | none => some (cm, ahs)
  | some reply =>
    match reply.status with
    | .ok =>
      let (ah, ahs) := createIbAh ahs res reply.lid reply.gid
      cm.setEndPoint ahs
        { qpn := rep.getQpn, qkey := rep.qkey, lid := reply.lid, gid := reply.gid,
          dctNum := reply.dctNum, mr := reply.mr, ah }
    | .notExist => cm.setEndPoint ahs default
    | _ => some (cm, ahs)

/-- `cm_handler`. -/
def cmHandler (cm : SidrCM) (ahs : Ahs) (res : BitVec 64) : SidrEvent → Option (SidrCM × Ahs)
  | .repReceived rep => (cm.takeReply ahs rep res).map fun s => ({ s.1 with done := true }, s.2)
  | .reqError => some ({ cm with done := true }, ahs)
  | .unknown => some (cm, ahs)

/-- The event that comes during the wait, if one does. -/
def delivered (cm : SidrCM) (ahs : Ahs) (res : BitVec 64) :
    Option SidrEvent → Option (SidrCM × Ahs)
  | none => some (cm, ahs)
  | some event => cm.cmHandler ahs res event

def einval : Int := -22

/-- The rest of `sidr_connect` after the wait. `waitErr` is how the wait ends if it is not
    completed. -/
def extract (cm : SidrCM) (ahs : Ahs) (waitErr : Int) : Except Int EndPoint × SidrCM × Ahs :=
  if !cm.done then (.error waitErr, cm, ahs)
  else if !cm.endPoint.valid then (.error einval, cm, ahs)
  else
    let (out, left) := cm.endPoint.transfer
    (.ok out, { cm with endPoint := left }, ahs)

/-- `sidr_connect`. -/
def sidrConnect (cm : SidrCM) (ahs : Ahs) (sendErr : Int) (event : Option SidrEvent)
    (waitErr : Int) (res : BitVec 64) : Option (Except Int EndPoint × SidrCM × Ahs) :=
  let cm := { cm with done := false }
  if sendErr ≠ 0 then some (.error sendErr, cm, ahs)
  else (cm.delivered ahs res event).map fun s => s.1.extract s.2 waitErr

/-- `Drop for SidrCM`, with the endpoint in it. -/
def drop (cm : SidrCM) (ahs : Ahs) : Option Ahs := cm.endPoint.drop ahs

end SidrCM

/-! ## Both sides -/

/-- What becomes of the request: the reply of the controller that it was sent to arrives,
    nobody listens there, the CM gives up, or nothing happens before the wait ends. -/
inductive SidrDelivery where
  | reply (offset8 : BitVec 32) (junk : SidrPayload.Junk)
  | rejected
  | reqError
  | nothing

namespace SidrDelivery

def isReply : SidrDelivery → Bool
  | .reply _ _ => true
  | _ => false

/-- What the client gets to see after a request for `hint`. -/
def event (ctrl : SidrServer) (hint : BitVec 64) : SidrDelivery → Option SidrEvent
  | .reply offset8 junk => some (.repReceived (ctrl.sidrCallback (connRequest hint) offset8 junk))
  | .rejected => some (.repReceived .rejected)
  | .reqError => some .reqError
  | .nothing => none

end SidrDelivery

namespace SidrCM

variable {ahs : Ahs}

/-- A client that has no endpoint returns an error, and has no address handle. -/
theorem extract_of_not_valid {cm : SidrCM} (h : cm.endPoint.valid = false) (ahs : Ahs)
    (waitErr : Int) :
    ∃ errno, cm.extract ahs waitErr = (.error errno, cm, ahs) ∧ cm.drop ahs = some ahs := by
  have hdrop : cm.drop ahs = some ahs := EndPoint.drop_of_not_valid h ahs
  unfold extract
  by_cases hdone : cm.done = true
  · exact ⟨einval, by simp [hdone, h], hdrop⟩
  · exact ⟨waitErr, by simp [hdone], hdrop⟩

/-- The reply of a controller without the UD leaves the client as it was. -/
theorem takeReply_notExist {ctrl : SidrServer} {hint : BitVec 64}
    (h : ctrl.registeredUds hint = none) (offset8 : BitVec 32) (junk : SidrPayload.Junk)
    (ahs : Ahs) (res : BitVec 64) :
    new.takeReply ahs (ctrl.sidrCallback (connRequest hint) offset8 junk) res =
      some (new, ahs) := by
  simp only [SidrServer.sidrCallback, connRequestQd_connRequest, h, takeReply,
    SidrPayload.dec_enc]
  rfl

/-- The reply of a controller with the UD brings its endpoint. -/
theorem takeReply_ok {ctrl : SidrServer} {hint : BitVec 64} {ud : RegisteredUd}
    (h : ctrl.registeredUds hint = some ud) (offset8 : BitVec 32) (junk : SidrPayload.Junk)
    (ahs : Ahs) (res : BitVec 64) :
    new.takeReply ahs (ctrl.sidrCallback (connRequest hint) offset8 junk) res =
      some ({ new with endPoint := ctrl.endPoint ud (createIbAh ahs res ctrl.lid ctrl.gid).1 },
        (createIbAh ahs res ctrl.lid ctrl.gid).2) := by
  simp only [SidrServer.sidrCallback, connRequestQd_connRequest, h, takeReply,
    SidrPayload.dec_enc, SidrRep.getQpn, SidrRep.setQpn_shift offset8 ud.qpn_lt]
  rfl

/-- The endpoint and its address handle are moved out. -/
theorem extract_of_valid {e : EndPoint} (h : e.valid = true) (ahs : Ahs) (waitErr : Int) :
    extract { endPoint := e, done := true } ahs waitErr =
      (.ok e, { endPoint := e.transfer.2, done := true }, ahs) := by
  simp [extract, EndPoint.transfer, h]

/-- The three parts of a successful handshake. -/
structure Succeeds (ctrl : SidrServer) (hint : BitVec 64) (sendErr : Int) (dl : SidrDelivery)
    (res : BitVec 64) (ud : RegisteredUd) : Prop where
  registered : ctrl.registeredUds hint = some ud
  arrives : sendErr = 0 ∧ dl.isReply = true
  created : ptrIsErr res = false

theorem sidrConnect_ok {ctrl : SidrServer} {hint : BitVec 64} {sendErr : Int} {dl : SidrDelivery}
    {ud : RegisteredUd} {ans : AhAnswer ahs} (h : Succeeds ctrl hint sendErr dl ans.res ud)
    (waitErr : Int) :
    ∃ cm, new.sidrConnect ahs sendErr (dl.event ctrl hint) waitErr ans.res =
        some (.ok (ctrl.endPoint ud ans.res), cm,
          Function.update ahs ans.res (some ⟨ctrl.lid, ctrl.gid⟩)) ∧
      ∀ ahs, cm.drop ahs = some ahs := by
  obtain ⟨hud, ⟨rfl, hreply⟩, hah⟩ := h
  cases dl with
  | reply offset8 junk =>
    have hvalid : (ctrl.endPoint ud ans.res).valid = true := decide_eq_true (ans.fresh hah).1
    have htake := takeReply_ok hud offset8 junk ahs ans.res
    rw [createIbAh_of_ok hah] at htake
    refine ⟨{ endPoint := (ctrl.endPoint ud ans.res).transfer.2, done := true }, ?_, fun _ => rfl⟩
    change Option.map _ (Option.map _ (new.takeReply ahs _ ans.res)) = _
    rw [htake]
    exact congrArg some (extract_of_valid hvalid _ waitErr)
  | rejected => cases hreply
  | reqError => cases hreply
  | nothing => cases hreply

/-- Whatever arrives, a handshake that does not succeed leaves the client without an
    endpoint and the address handles as they were. -/
theorem delivered_of_fails {ctrl : SidrServer} {hint : BitVec 64} {dl : SidrDelivery}
    {res : BitVec 64} (h : ∀ ud, ¬Succeeds ctrl hint 0 dl res ud) :
    ∃ cm, new.delivered ahs res (dl.event ctrl hint) = some (cm, ahs) ∧
      cm.endPoint.valid = false := by
  cases dl with
  | reply offset8 junk =>
    simp only [SidrDelivery.event, delivered, cmHandler]
    cases hud : ctrl.registeredUds hint with
    | none =>
      rw [takeReply_notExist hud]
      exact ⟨_, rfl, rfl⟩
    | some ud =>
      have hah : ptrIsErr res = true := by
        by_contra hne
        exact h ud ⟨hud, ⟨rfl, rfl⟩, Bool.eq_false_iff.mpr hne⟩
      rw [takeReply_ok hud, createIbAh_of_err hah]
      exact ⟨_, rfl, rfl⟩
  | rejected => exact ⟨_, rfl, rfl⟩
  | reqError => exact ⟨_, rfl, rfl⟩
  | nothing => exact ⟨_, rfl, rfl⟩

theorem sidrConnect_error {ctrl : SidrServer} {hint : BitVec 64} {sendErr : Int} {dl : SidrDelivery}
    {res : BitVec 64} (h : ∀ ud, ¬Succeeds ctrl hint sendErr dl res ud) (waitErr : Int) :
    ∃ errno cm, new.sidrConnect ahs sendErr (dl.event ctrl hint) waitErr res =
        some (.error errno, cm, ahs) ∧ cm.drop ahs = some ahs := by
  by_cases hsend : sendErr = 0
  · subst hsend
    obtain ⟨cm, hdelivered, hvalid⟩ := delivered_of_fails h
    obtain ⟨errno, hextract, hdrop⟩ := extract_of_not_valid hvalid ahs waitErr
    refine ⟨errno, cm, ?_, hdrop⟩
    change Option.map _ (new.delivered ahs res (dl.event ctrl hint)) = _
    rw [hdelivered]
    exact congrArg some hextract
  · exact ⟨sendErr, new, by simp [sidrConnect, hsend, new], rfl⟩

/-- One `sidr_connect` of a new `SidrCM`, for every controller, hint, answer of the kernel
    and fate of the request. It returns an endpoint exactly if the UD is registered, the
    reply arrives and the address handle is created; the endpoint is then the UD's and
    the controller's, and only it holds the new handle. Otherwise no handle is left. -/
theorem sidrConnect_agrees (ctrl : SidrServer) (hint : BitVec 64) (ahs : Ahs)
    (ans : AhAnswer ahs) (sendErr waitErr : Int) (dl : SidrDelivery) :
    ∃ out cm ahs',
      new.sidrConnect ahs sendErr (dl.event ctrl hint) waitErr ans.res = some (out, cm, ahs') ∧
      cm.drop ahs' = some ahs' ∧
      (∀ ep, out = .ok ep ↔
        ∃ ud, Succeeds ctrl hint sendErr dl ans.res ud ∧ ep = ctrl.endPoint ud ans.res) ∧
      (∀ ep, out = .ok ep →
        ahs.Fresh ep.ah ∧ ahs' = Function.update ahs ep.ah (some ⟨ep.lid, ep.gid⟩)) ∧
      ∀ errno, out = .error errno → ahs' = ahs := by
  by_cases h : ∃ ud, Succeeds ctrl hint sendErr dl ans.res ud
  · obtain ⟨ud, h⟩ := h
    obtain ⟨cm, hrun, hdrop⟩ := sidrConnect_ok h waitErr
    refine ⟨_, cm, _, hrun, hdrop _, fun ep => ⟨fun hep => ?_, fun hep => ?_⟩, fun ep hep => ?_,
      nofun⟩
    · cases hep
      exact ⟨ud, h, rfl⟩
    · obtain ⟨ud', h', rfl⟩ := hep
      have hud : ud' = ud := Option.some.inj (h'.registered.symm.trans h.registered)
      rw [hud]
    · cases hep
      exact ⟨ans.fresh h.created, rfl⟩
  · rw [not_exists] at h
    obtain ⟨errno, cm, hrun, hdrop⟩ := sidrConnect_error h waitErr
    refine ⟨_, cm, _, hrun, hdrop, fun ep => ⟨nofun, fun hep => ?_⟩, nofun, fun _ _ => rfl⟩
    obtain ⟨ud, hud, -⟩ := hep
    exact absurd hud (h ud)

/-! ## Any answer -/

/-- What a new `SidrCM` may make of whatever arrives: no endpoint, and the ledger as it
    was, or an endpoint with the handle that was created for it. -/
inductive Ended (ahs : Ahs) (res : BitVec 64) (cm : SidrCM) : Except Int EndPoint → Ahs → Prop
  | error (errno : Int) (hcm : cm.endPoint.valid = false) : Ended ahs res cm (.error errno) ahs
  | ok (point : EndPoint) (av : AddressVector) (hcm : cm.endPoint.valid = false)
      (hah : point.ah = res) (hfresh : ahs.Fresh res) :
      Ended ahs res cm (.ok point) (Function.update ahs res (some av))

theorem Ended.of_not_valid {cm cm' : SidrCM} {ahs' : Ahs} {res : BitVec 64} {waitErr : Int}
    {out : Except Int EndPoint} (h : cm.endPoint.valid = false)
    (hout : cm.extract ahs waitErr = (out, cm', ahs')) : Ended ahs res cm' out ahs' := by
  obtain ⟨errno, hextract, -⟩ := extract_of_not_valid h ahs waitErr
  rw [hextract] at hout
  cases hout
  exact .error errno h

/-- A reply with any bytes. -/
theorem Ended.of_takeReply {cm cm' : SidrCM} {ahs₁ ahs' : Ahs} {rep : SidrRep} {res : BitVec 64}
    {waitErr : Int} {out : Except Int EndPoint} (hfresh : ptrIsErr res = false → ahs.Fresh res)
    (h : new.takeReply ahs rep res = some (cm, ahs₁))
    (hout : extract { cm with done := true } ahs₁ waitErr = (out, cm', ahs')) :
    Ended ahs res cm' out ahs' := by
  unfold takeReply at h
  cases hdec : SidrPayload.dec rep.info with
  | none =>
    rw [hdec] at h
    cases h
    exact .of_not_valid rfl hout
  | some reply =>
    rw [hdec] at h
    cases hstatus : reply.status with
    | ok =>
      simp only [hstatus] at h
      cases herr : ptrIsErr res with
      | true =>
        rw [createIbAh_of_err herr] at h
        cases h
        exact .of_not_valid rfl hout
      | false =>
        rw [createIbAh_of_ok herr] at h
        cases h
        rw [extract_of_valid (decide_eq_true (hfresh herr).1)] at hout
        cases hout
        exact .ok _ _ rfl rfl (hfresh herr)
    | err | nil | exist | notExist =>
      simp only [hstatus] at h
      cases h
      exact .of_not_valid rfl hout

theorem sidrConnect_ended {ahs' : Ahs} {sendErr waitErr : Int} {event : Option SidrEvent}
    {res : BitVec 64} {out : Except Int EndPoint} {cm : SidrCM}
    (hfresh : ptrIsErr res = false → ahs.Fresh res)
    (h : new.sidrConnect ahs sendErr event waitErr res = some (out, cm, ahs')) :
    Ended ahs res cm out ahs' := by
  unfold sidrConnect at h
  by_cases hsend : sendErr = 0
  · rw [if_neg (not_not_intro hsend), Option.map_eq_some_iff] at h
    obtain ⟨⟨cm₁, ahs₁⟩, hdelivered, hout⟩ := h
    cases event with
    | none =>
      cases hdelivered
      exact .of_not_valid rfl hout
    | some event =>
      cases event with
      | repReceived rep =>
        obtain ⟨⟨cm₂, ahs₂⟩, htake, heq⟩ := Option.map_eq_some_iff.mp hdelivered
        cases heq
        exact .of_takeReply hfresh htake hout
      | reqError | unknown =>
        cases hdelivered
        exact .of_not_valid rfl hout
  · rw [if_pos hsend] at h
    cases h
    exact .error sendErr rfl

end SidrCM
