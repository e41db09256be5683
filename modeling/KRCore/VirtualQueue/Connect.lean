-- SUMMARY: The virtual queue and its Connect request, over every feature set and every answer of the kernel.
import Mathlib.Logic.Function.Basic
import KRCore.Verbs.Types

/-!
# Connect

The state of a virtual queue (`VQ`) and `connect_impl`. The subnet
administrator, the connection manager and the metadata server answer through
`ConnectAnswers`. The DC branch is split where the migration thread has been
started and the endpoint of the peer is still to be fetched, because other
threads may run there.
-/

/-- The build features that `connect_impl` depends on. `dct_qp` switches on
    `meta_cache`. -/
structure Features where
  virtualQueue : Bool
  dctQp : Bool
  migrateQp : Bool
  metaKv : Bool
  metaCache : Bool
  dct_meta_cache : dctQp = true → metaCache = true

/-- What is fixed on the machine a queue lives on. The controllers are numbered
    as in `RCTRL`. -/
structure Machine where
  rctrlLen : Nat
  parseGid : List Char → Option Gid
  gid : Nat → Gid
  testMr : Nat → TempMR
  lkey : Nat → BitVec 32
  dcCreated : Nat → Bool
  rctrl_pos : 0 < rctrlLen

/-- `get_global_rctrl`. -/
def Machine.getGlobalRctrl (m : Machine) (idx : Nat) : Nat := idx % m.rctrlLen

/-- The address of a Connect request: the 39 bytes that are copied from the
    user. Only ASCII text is a gid, so a character is a byte. -/
structure Address where
  text : List Char
  size : text.length = 39
deriving DecidableEq

/-- A client-side RC: its number, the controller whose receive CQ it reports to,
    and what it has been connected to. -/
structure RC where
  id : Nat
  recvCtrl : Nat
  path : SaPathRec
  serviceId : Nat
deriving DecidableEq, Repr

/-- The parameter block of the migration thread. -/
structure RCConnectParam where
  vid : Nat
  port : Nat
  path : SaPathRec
deriving DecidableEq, Repr

structure LocalCache where
  pathRecCache : List Char → Option SaPathRec
  dctMetaCache : List Char → Option DCTargetMeta
  localMr : TempMR
  remoteEndpoint : Option EndPoint

structure VQ where
  virtualQueue : Option RC
  localDc : Option Nat
  localUd : Option Nat
  rcConnectParam : Option RCConnectParam
  localCache : LocalCache
  bindPort : Option Nat
  localConnectPort : Option Nat

/-- How `qp_connect` goes: no RC can be created, the handshake fails, or the RC
    with the given number gets connected. -/
inductive RcAnswer where
  | notCreated
  | failed (errno : Int)
  | connected (id : Nat)
deriving DecidableEq, Repr

/-- What the kernel and the peers answer during one Connect. -/
structure ConnectAnswers where
  resolve : Except Int (BitVec 16)
  metaQuery : Option EndPoint
  sidrCm : Bool
  sidr : Except Int EndPoint
  ah : BitVec 64
  rc : RcAnswer

/-- One Connect request and what the kernel answers to it. -/
structure ConnectReq where
  addr : Address
  port : Nat
  vid : Nat
  ans : ConnectAnswers

/-- `MAX_KMALLOC_SZ`. -/
def maxKmallocSz : Nat := 1024 * 1024 * 4

namespace VQ

/-- `VQ::open`. -/
def opened (localMr : TempMR) : VQ where
  virtualQueue := none
  localDc := none
  localUd := none
  rcConnectParam := none
  localCache :=
    { pathRecCache := fun _ => none, dctMetaCache := fun _ => none, localMr, remoteEndpoint := none }
  bindPort := none
  localConnectPort := none

def isBindMode (vq : VQ) : Bool := vq.bindPort.isSome

def isRcConnected (vq : VQ) : Bool := vq.virtualQueue.isSome

/-! ## Connect -/

/-- The key of the DC metadata cache: the address followed by the decimal port. -/
def dctMetaCacheKey (addr : Address) (port : Nat) : List Char :=
  addr.text ++ Nat.toDigits 10 port

/-- `explore_path`. The path cache is keyed by the address alone. -/
def explorePath (m : Machine) (vq : VQ) (port : Nat) (addr : Address) (dgid : Gid)
    (resolve : Except Int (BitVec 16)) : Except Int SaPathRec × VQ :=
  match vq.localCache.pathRecCache addr.text with
  | some path => (.ok path, vq)
  | none =>
    match resolve with
    | .error errno => (.error errno, vq)
    | .ok dlid =>
      let path : SaPathRec :=
        { dgid, sgid := m.gid (m.getGlobalRctrl port), serviceId := port, dlid }
      (.ok path,
        { vq with localCache :=
          { vq.localCache with
            pathRecCache := Function.update vq.localCache.pathRecCache addr.text (some path) } })

/-- `qp_connect`. `Ok(None)` is the result when no RC can be created. -/
def qpConnect (m : Machine) (port : Nat) (path : SaPathRec) : RcAnswer → Except Int (Option RC)
  | .notCreated => .ok none
  | .failed errno => .error errno
  | .connected id =>
    .ok (some { id, recvCtrl := m.getGlobalRctrl port, path, serviceId := port })

/-- The fields that every Connect with a parsable address sets. -/
def selectCtrl (m : Machine) (vq : VQ) (port : Nat) : VQ :=
  let ctrl := m.getGlobalRctrl port
  { vq with
    localCache :=
      { vq.localCache with
        localMr :=
          { addr := (m.testMr ctrl).addr, capacity := BitVec.ofNat 32 maxKmallocSz,
            rkey := m.lkey ctrl } }
    localConnectPort := some port
    localDc :=
      if vq.localDc.isNone then (if m.dcCreated ctrl then some ctrl else none) else vq.localDc
    localUd := if vq.localDc.isNone then some ctrl else vq.localUd }

/-- Where `connect_impl` stands after its first part: it has replied, or the
    endpoint of the peer is to be fetched. -/
inductive Started where
  | replied (vq : VQ) (status : ReplyStatus)
  | fetching (vq : VQ)

/-- The branch of `connect_impl` without `dct_qp`. -/
def connectRc (feat : Features) (m : Machine) (vq : VQ) (addr : Address) (port : Nat) (dgid : Gid)
    (ans : ConnectAnswers) : VQ × ReplyStatus :=
  match explorePath m vq port addr dgid ans.resolve with
  | (.error _, vq) => (vq, .err)
  | (.ok path, vq) =>
    match qpConnect m port path ans.rc with
    | .error _ => (vq, .err)
    | .ok qp => (if feat.virtualQueue then { vq with virtualQueue := qp } else vq, .ok)

/-- The branch with `dct_qp` up to the start of the migration thread. A hit in
    the metadata cache is answered at once. -/
def connectDctStart (feat : Features) (m : Machine) (vq : VQ) (addr : Address) (port vid : Nat)
    (dgid : Gid) (ans : ConnectAnswers) : Started :=
  match vq.localCache.dctMetaCache (dctMetaCacheKey addr port) with
  | some _ => .replied vq .ok
  | none =>
    if feat.migrateQp then
      match explorePath m vq port addr dgid ans.resolve with
      | (.error _, vq) => .replied vq .err
      | (.ok path, vq) => .fetching { vq with rcConnectParam := some { vid, port, path } }
    else .fetching vq

/-- `connect_impl` up to the point where the endpoint is fetched. -/
def connectStart (feat : Features) (m : Machine) (vq : VQ) (addr : Address) (port vid : Nat)
    (ans : ConnectAnswers) : Started :=
  if vq.isRcConnected then .replied vq .alreadyConnected
  else
    match m.parseGid addr.text with
    | none => .replied vq .addrError
    | some dgid =>
      if feat.dctQp then connectDctStart feat m (selectCtrl m vq port) addr port vid dgid ans
      else
        let (vq, status) := connectRc feat m (selectCtrl m vq port) addr port dgid ans
        .replied vq status

/-- Fetch the endpoint of the peer: from the metadata server, else over SIDR.
    `none` is the panic when no `SidrCM` can be created. -/
def fetchEndpoint (feat : Features) (m : Machine) (vq : VQ) (addr : Address) (port : Nat)
    (dgid : Gid) (ans : ConnectAnswers) : Option (Except Int EndPoint × VQ) :=
  match (if feat.metaKv then ans.metaQuery else none) with
  | some point => some (.ok point, vq)
  | none =>
    match explorePath m vq port addr dgid ans.resolve with
    | (.error errno, vq) => some (.error errno, vq)
    | (.ok _, vq) => if ans.sidrCm then some (ans.sidr, vq) else none

/-- What is done with a fetched endpoint. -/
def storeEndpoint (feat : Features) (vq : VQ) (addr : Address) (port : Nat) (point : EndPoint)
    (ah : BitVec 64) : VQ :=
  let metaInfo : DCTargetMeta :=
    { dctNum := point.dctNum, lid := point.lid, gid := point.gid, mr := point.mr }
  { vq with
    localCache :=
      { vq.localCache with
        remoteEndpoint := some (point.new ah)
        dctMetaCache :=
          if feat.metaCache then
            Function.update vq.localCache.dctMetaCache (dctMetaCacheKey addr port) (some metaInfo)
          else vq.localCache.dctMetaCache } }

/-- `connect_impl` from the point where the endpoint is fetched, with the
    endpoint it got. -/
def connectFinish (feat : Features) (m : Machine) (vq : VQ) (addr : Address) (port : Nat)
    (dgid : Gid) (ans : ConnectAnswers) : Option (VQ × ReplyStatus × Option EndPoint) := do
  let (res, vq) ← fetchEndpoint feat m vq addr port dgid ans
  match res with
  | .error _ => some (vq, .err, none)
  | .ok point => some (storeEndpoint feat vq addr port point ans.ah, .ok, some point)

/-- `connect_impl`. The last component is the endpoint that this call fetched,
    if it did. -/
def connectImpl (feat : Features) (m : Machine) (vq : VQ) (addr : Address) (port vid : Nat)
    (ans : ConnectAnswers) : Option (VQ × ReplyStatus × Option EndPoint) :=
  match connectStart feat m vq addr port vid ans with
  | .replied vq status => some (vq, status, none)
  | .fetching vq =>
    -- The address has been parsed, so `str_to_gid` succeeds as well.
    match m.parseGid addr.text with
    | none => none
    | some dgid => connectFinish feat m vq addr port dgid ans

/-! ## What Connect does to the queue -/

/-- `vq'` is `vq` after looking for the path to `addr`: only the path cache and
    the parameter block of the migration thread may differ, and a new path leads
    to `dgid`. -/
structure Explored (addr : Address) (dgid : Gid) (vq vq' : VQ) : Prop where
  virtualQueue : vq'.virtualQueue = vq.virtualQueue
  localDc : vq'.localDc = vq.localDc
  localUd : vq'.localUd = vq.localUd
  bindPort : vq'.bindPort = vq.bindPort
  localConnectPort : vq'.localConnectPort = vq.localConnectPort
  localMr : vq'.localCache.localMr = vq.localCache.localMr
  dctMetaCache : vq'.localCache.dctMetaCache = vq.localCache.dctMetaCache
  remoteEndpoint : vq'.localCache.remoteEndpoint = vq.localCache.remoteEndpoint
  paths : ∀ text path, vq'.localCache.pathRecCache text = some path →
    vq.localCache.pathRecCache text = some path ∨ (text = addr.text ∧ path.dgid = dgid)

theorem Explored.refl (addr : Address) (dgid : Gid) (vq : VQ) : Explored addr dgid vq vq :=
  ⟨rfl, rfl, rfl, rfl, rfl, rfl, rfl, rfl, fun _ _ h => .inl h⟩

theorem Explored.trans {addr : Address} {dgid : Gid} {vq vq' vq'' : VQ}
    (h : Explored addr dgid vq vq') (h' : Explored addr dgid vq' vq'') :
    Explored addr dgid vq vq'' where
  virtualQueue := h'.virtualQueue.trans h.virtualQueue
  localDc := h'.localDc.trans h.localDc
  localUd := h'.localUd.trans h.localUd
  bindPort := h'.bindPort.trans h.bindPort
  localConnectPort := h'.localConnectPort.trans h.localConnectPort
  localMr := h'.localMr.trans h.localMr
  dctMetaCache := h'.dctMetaCache.trans h.dctMetaCache
  remoteEndpoint := h'.remoteEndpoint.trans h.remoteEndpoint
  paths text path hpath := by
    rcases h'.paths text path hpath with hold | hnew
    · exact h.paths text path hold
    · exact .inr hnew

theorem Explored.setParam {addr : Address} {dgid : Gid} {vq vq' : VQ}
    (h : Explored addr dgid vq vq') (param : Option RCConnectParam) :
    Explored addr dgid vq { vq' with rcConnectParam := param } :=
  { h with }

theorem explorePath_explored (m : Machine) (vq : VQ) (port : Nat) (addr : Address) (dgid : Gid)
    (resolve : Except Int (BitVec 16)) :
    Explored addr dgid vq (explorePath m vq port addr dgid resolve).2 := by
  unfold explorePath
  split
  · exact .refl addr dgid vq
  · split
    · exact .refl addr dgid vq
    · refine { Explored.refl addr dgid vq with paths := fun text path hpath => ?_ }
      by_cases htext : text = addr.text
      · subst htext
        simp only [Function.update_self, Option.some.injEq] at hpath
        exact .inr ⟨rfl, by rw [← hpath]⟩
      · exact .inl (by simpa [htext] using hpath)

/-- A path that has been found is in the cache afterwards. -/
theorem explorePath_cached {m : Machine} {vq vq' : VQ} {port : Nat} {addr : Address} {dgid : Gid}
    {resolve : Except Int (BitVec 16)} {path : SaPathRec}
    (h : explorePath m vq port addr dgid resolve = (.ok path, vq')) :
    vq'.localCache.pathRecCache addr.text = some path := by
  unfold explorePath at h
  split at h
  · rename_i hhit
    obtain ⟨hpath, rfl⟩ := Prod.mk.inj h
    rw [hhit, Except.ok.inj hpath]
  · split at h
    · simp at h
    · obtain ⟨hpath, rfl⟩ := Prod.mk.inj h
      simp [Except.ok.inj hpath]

/-- The outcomes of a Connect request. -/
inductive ConnectOutcome (feat : Features) (m : Machine) (vq : VQ) (addr : Address) (port : Nat)
    (ans : ConnectAnswers) : VQ → ReplyStatus → Option EndPoint → Prop
  | connected (h : vq.isRcConnected = true) :
      ConnectOutcome feat m vq addr port ans vq .alreadyConnected none
  | unparsable (h : m.parseGid addr.text = none) :
      ConnectOutcome feat m vq addr port ans vq .addrError none
  | failed {dgid : Gid} {vq' : VQ} (hfree : vq.virtualQueue = none)
      (hgid : m.parseGid addr.text = some dgid)
      (hexp : Explored addr dgid (selectCtrl m vq port) vq') :
      ConnectOutcome feat m vq addr port ans vq' .err none
  | rc {dgid : Gid} {vq' : VQ} {path : SaPathRec} {qp : Option RC} (hdct : feat.dctQp = false)
      (hfree : vq.virtualQueue = none) (hgid : m.parseGid addr.text = some dgid)
      (hexp : Explored addr dgid (selectCtrl m vq port) vq')
      (hpath : vq'.localCache.pathRecCache addr.text = some path)
      (hqp : qpConnect m port path ans.rc = .ok qp) :
      ConnectOutcome feat m vq addr port ans
        (if feat.virtualQueue then { vq' with virtualQueue := qp } else vq') .ok none
  | hit {dgid : Gid} (hdct : feat.dctQp = true) (hfree : vq.virtualQueue = none)
      (hgid : m.parseGid addr.text = some dgid)
      (hhit : (vq.localCache.dctMetaCache (dctMetaCacheKey addr port)).isSome = true) :
      ConnectOutcome feat m vq addr port ans (selectCtrl m vq port) .ok none
  | fetched {dgid : Gid} {vq' : VQ} {point : EndPoint} (hdct : feat.dctQp = true)
      (hfree : vq.virtualQueue = none) (hgid : m.parseGid addr.text = some dgid)
      (hmiss : vq.localCache.dctMetaCache (dctMetaCacheKey addr port) = none)
      (hexp : Explored addr dgid (selectCtrl m vq port) vq') :
      ConnectOutcome feat m vq addr port ans (storeEndpoint feat vq' addr port point ans.ah) .ok
        (some point)

theorem fetchEndpoint_explored {feat : Features} {m : Machine} {vq vq' : VQ} {addr : Address}
    {port : Nat} {dgid : Gid} {ans : ConnectAnswers} {res : Except Int EndPoint}
    (h : fetchEndpoint feat m vq addr port dgid ans = some (res, vq')) :
    Explored addr dgid vq vq' := by
  have hexp := explorePath_explored m vq port addr dgid ans.resolve
  unfold fetchEndpoint at h
  split at h
  · simp only [Option.some.injEq, Prod.mk.injEq] at h
    rw [← h.2]
    exact .refl addr dgid vq
  · split at h
    · rename_i hpath
      simp only [Option.some.injEq, Prod.mk.injEq] at h
      rwa [hpath, h.2] at hexp
    · rename_i hpath
      split at h
      · simp only [Option.some.injEq, Prod.mk.injEq] at h
        rwa [hpath, h.2] at hexp
      · simp at h

/-- The part of `connect_impl` after the start: it keeps the fetched endpoint, or
    it fails. -/
theorem connectFinish_eq_some {feat : Features} {m : Machine} {vq vq' : VQ} {addr : Address}
    {port : Nat} {dgid : Gid} {ans : ConnectAnswers} {status : ReplyStatus} {pt : Option EndPoint}
    (h : connectFinish feat m vq addr port dgid ans = some (vq', status, pt)) :
    ∃ vq₁, Explored addr dgid vq vq₁ ∧
      ((vq' = vq₁ ∧ status = .err ∧ pt = none) ∨
        ∃ point, vq' = storeEndpoint feat vq₁ addr port point ans.ah ∧ status = .ok ∧
          pt = some point) := by
  simp only [connectFinish, Option.bind_eq_bind, Option.bind_eq_some_iff, Prod.exists] at h
  obtain ⟨res, vq₁, hfetch, hres⟩ := h
  refine ⟨vq₁, fetchEndpoint_explored hfetch, ?_⟩
  cases res with
  | error errno =>
    simp only [Option.some.injEq, Prod.mk.injEq] at hres
    exact .inl ⟨hres.1.symm, hres.2.1.symm, hres.2.2.symm⟩
  | ok point =>
    simp only [Option.some.injEq, Prod.mk.injEq] at hres
    exact .inr ⟨point, hres.1.symm, hres.2.1.symm, hres.2.2.symm⟩

theorem connectRc_outcome {feat : Features} {m : Machine} {vq : VQ} {addr : Address}
    {port : Nat} {dgid : Gid} {ans : ConnectAnswers} (hdct : feat.dctQp = false)
    (hfree : vq.virtualQueue = none) (hgid : m.parseGid addr.text = some dgid) :
    ConnectOutcome feat m vq addr port ans
      (connectRc feat m (selectCtrl m vq port) addr port dgid ans).1
      (connectRc feat m (selectCtrl m vq port) addr port dgid ans).2 none := by
  have hexp := explorePath_explored m (selectCtrl m vq port) port addr dgid ans.resolve
  unfold connectRc
  cases hpath : explorePath m (selectCtrl m vq port) port addr dgid ans.resolve with
  | mk res vq₁ =>
    rw [hpath] at hexp
    cases res with
    | error errno => exact .failed hfree hgid hexp
    | ok path =>
      cases hqp : qpConnect m port path ans.rc with
      | error errno => simpa [hqp] using .failed hfree hgid hexp
      | ok qp => simpa [hqp] using .rc hdct hfree hgid hexp (explorePath_cached hpath) hqp

theorem connectImpl_outcome {feat : Features} {m : Machine} {vq vq' : VQ} {addr : Address}
    {port vid : Nat} {ans : ConnectAnswers} {status : ReplyStatus} {pt : Option EndPoint}
    (h : connectImpl feat m vq addr port vid ans = some (vq', status, pt)) :
    ConnectOutcome feat m vq addr port ans vq' status pt := by
  unfold connectImpl connectStart at h
  by_cases hconn : vq.isRcConnected = true
  · simp only [hconn, if_true, Option.some.injEq, Prod.mk.injEq] at h
    obtain ⟨rfl, rfl, rfl⟩ := h
    exact .connected hconn
  have hfree : vq.virtualQueue = none := by simpa [isRcConnected] using hconn
  simp only [hconn] at h
  cases hgid : m.parseGid addr.text with
  | none =>
    simp only [hgid, Bool.false_eq_true, if_false, Option.some.injEq, Prod.mk.injEq] at h
    obtain ⟨rfl, rfl, rfl⟩ := h
    exact .unparsable hgid
  | some dgid =>
    simp only [hgid, Bool.false_eq_true, if_false] at h
    cases hdct : feat.dctQp with
    | false =>
      simp only [hdct, Bool.false_eq_true, if_false, Option.some.injEq, Prod.mk.injEq] at h
      obtain ⟨rfl, rfl, rfl⟩ := h
      exact connectRc_outcome hdct hfree hgid
    | true =>
      simp only [hdct, if_true] at h
      cases hkey : vq.localCache.dctMetaCache (dctMetaCacheKey addr port) with
      | some metaInfo =>
        have hkey' : (selectCtrl m vq port).localCache.dctMetaCache (dctMetaCacheKey addr port) =
            some metaInfo := hkey
        simp only [connectDctStart, hkey', Option.some.injEq, Prod.mk.injEq] at h
        obtain ⟨rfl, rfl, rfl⟩ := h
        exact .hit hdct hfree hgid (by rw [hkey]; rfl)
      | none =>
        have hkey' : (selectCtrl m vq port).localCache.dctMetaCache (dctMetaCacheKey addr port) =
            none := hkey
        -- Both ways to the fetching part leave an explored queue behind.
        have hfinish : ∀ vq₁, Explored addr dgid (selectCtrl m vq port) vq₁ →
            connectFinish feat m vq₁ addr port dgid ans = some (vq', status, pt) →
            ConnectOutcome feat m vq addr port ans vq' status pt := by
          intro vq₁ hexp hfin
          obtain ⟨vq₂, hexp₂, ⟨rfl, rfl, rfl⟩ | ⟨point, rfl, rfl, rfl⟩⟩ :=
            connectFinish_eq_some hfin
          · exact .failed hfree hgid (hexp.trans hexp₂)
          · exact .fetched hdct hfree hgid hkey (hexp.trans hexp₂)
        have hexp := explorePath_explored m (selectCtrl m vq port) port addr dgid ans.resolve
        simp only [connectDctStart, hkey'] at h
        cases hmig : feat.migrateQp with
        | false =>
          simp only [hmig, Bool.false_eq_true, if_false] at h
          exact hfinish _ (.refl addr dgid _) h
        | true =>
          simp only [hmig, if_true] at h
          cases hpath : explorePath m (selectCtrl m vq port) port addr dgid ans.resolve with
          | mk res vq₁ =>
            rw [hpath] at h hexp
            cases res with
            | error errno =>
              simp only [Option.some.injEq, Prod.mk.injEq] at h
              obtain ⟨rfl, rfl, rfl⟩ := h
              exact .failed hfree hgid hexp
            | ok path => exact hfinish _ (hexp.setParam _) h

/-- Connect keeps the RC of the queue, or gives it none or the new one. -/
theorem ConnectOutcome.virtualQueue {feat : Features} {m : Machine} {vq vq' : VQ} {addr : Address}
    {port : Nat} {ans : ConnectAnswers} {status : ReplyStatus} {pt : Option EndPoint}
    (h : ConnectOutcome feat m vq addr port ans vq' status pt) :
    vq'.virtualQueue = vq.virtualQueue ∨ vq'.virtualQueue = none ∨
      ∃ rc, vq'.virtualQueue = some rc ∧ ans.rc = .connected rc.id := by
  cases h with
  | connected h => exact .inl rfl
  | unparsable h => exact .inl rfl
  | failed hfree hgid hexp => exact .inl hexp.virtualQueue
  | rc hdct hfree hgid hexp hpath hqp =>
    cases feat.virtualQueue with
    | false => exact .inl hexp.virtualQueue
    | true =>
      cases hrc : ans.rc with
      | notCreated =>
        simp only [hrc, qpConnect, Except.ok.injEq] at hqp
        exact .inr (.inl hqp.symm)
      | failed errno => simp [hrc, qpConnect] at hqp
      | connected id =>
        simp only [hrc, qpConnect, Except.ok.injEq] at hqp
        exact .inr (.inr ⟨_, hqp.symm, rfl⟩)
  | hit hdct hfree hgid hhit => exact .inl rfl
  | fetched hdct hfree hgid hmiss hexp => exact .inl hexp.virtualQueue

theorem ConnectOutcome.bindPort {feat : Features} {m : Machine} {vq vq' : VQ} {addr : Address}
    {port : Nat} {ans : ConnectAnswers} {status : ReplyStatus} {pt : Option EndPoint}
    (h : ConnectOutcome feat m vq addr port ans vq' status pt) : vq'.bindPort = vq.bindPort := by
  cases h with
  | connected h => rfl
  | unparsable h => rfl
  | failed hfree hgid hexp => exact hexp.bindPort
  | rc hdct hfree hgid hexp hpath hqp =>
    split
    · exact hexp.bindPort
    · exact hexp.bindPort
  | hit hdct hfree hgid hhit => rfl
  | fetched hdct hfree hgid hmiss hexp => exact hexp.bindPort

end VQ

/-! ## Samples

A machine with two controllers, and requests whose SIDR answer is told apart by
its queue number. -/

def Machine.sample : Machine where
  rctrlLen := 2
  parseGid text := some (BitVec.ofNat 128 (text.headD ' ').toNat)
  gid _ := 0
  testMr _ := default
  lkey _ := 0
  dcCreated _ := true
  rctrl_pos := by decide

/-- The default build. -/
def Features.plain : Features where
  virtualQueue := true
  dctQp := false
  migrateQp := false
  metaKv := false
  metaCache := false
  dct_meta_cache h := by cases h

/-- The build with `dct_qp`. -/
def Features.dct : Features where
  virtualQueue := true
  dctQp := true
  migrateQp := false
  metaKv := false
  metaCache := true
  dct_meta_cache _ := rfl

def Address.sample (c : Char) : Address where
  text := List.replicate 39 c
  size := List.length_replicate

def ConnectReq.sample (c : Char) (qpn : BitVec 32) (rc : RcAnswer) : ConnectReq where
  addr := Address.sample c
  port := 0
  vid := 1
  ans :=
    { resolve := .ok 1, metaQuery := none, sidrCm := true,
      sidr := .ok { (default : EndPoint) with qpn },
      ah := 1, rc }
