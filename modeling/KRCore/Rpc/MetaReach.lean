-- SUMMARY: The entry of the metadata server in `META_INFO`: how `conn_meta` makes it, and which messages leave it usable.
import KRCore.Base.Run
import KRCore.Cm.Sidr
import KRCore.Rpc.Protocol

/-!
# The way to the metadata server

`META_INFO` is used for two things. `conn_meta` puts the endpoint of the metadata
server there, with an address handle, and `query_dct_meta` and the deregistration
send to it. The RPC handlers fill the same map with what peers register, without
address handles. An endpoint that leaves the map is dropped, and so is every endpoint
that comes with a message.

`stays_reachable_iff` says which messages leave the endpoint of the metadata server
as `conn_meta` made it.
-/

/-- `META_SERVER_GID`. -/
def metaServerGid : List Char := "fe80:0000:0000:0000:ec0d:9a03:0078:645e".toList

/-- What the kernel, the network and the metadata server answer to a `conn_meta`:
    whether each attempt finds a path, whether the `SidrCM` can be created, how the
    handshake goes, and what the registration returns. -/
structure ConnMetaAnswers where
  paths : Nat → Bool
  sidrCm : Bool
  sendErr : Int
  event : Option SidrEvent
  waitErr : Int
  res : BitVec 64
  metaPa : Option (BitVec 64)

/-- A node that handles messages and has address handles. `connected` tells whether a
    `conn_meta` has succeeded. -/
structure MetaNode where
  rpc : RpcServer MetaServer
  ahs : Ahs
  metaKvPa : Nat
  connected : Bool

namespace MetaReq

/-- The gid whose entry the request writes or removes. -/
def changes : MetaReq → Option Gid
  | .register gid _ _ => some gid
  | .deregister gid => some gid
  | _ => none

/-- The endpoints in the payload. -/
def points : MetaReq → List EndPoint
  | .register _ _ point => [point]
  | _ => []

end MetaReq

namespace MetaNode

def info (s : MetaNode) : MetaInfo := s.rpc.app.info

/-! ## Connecting -/

/-- A value that leaves the map is dropped. -/
def dropEntry (info : MetaInfo) (key : List Char) (ahs : Ahs) : Option Ahs :=
  match info.get key with
  | none => some ahs
  | some e => e.drop ahs

/-- `META_INFO.insert` of the endpoint that the handshake brought. -/
def putMetaServer (s : MetaNode) (point : EndPoint) : MetaNode :=
  { s with rpc := { s.rpc with app :=
      { s.rpc.app with info := s.info.insert metaServerGid point } } }

/-- `conn_meta` after the path has been found. An answer of `rdma_create_ah` that is
    neither an error nor a new handle is not possible. -/
def connSidr (s : MetaNode) (ans : ConnMetaAnswers) : Option MetaNode :=
  if ptrIsErr ans.res = false → s.ahs.Fresh ans.res then do
    let (out, cm, ahs) ←
      SidrCM.new.sidrConnect s.ahs ans.sendErr ans.event ans.waitErr ans.res
    match out with
    | .error _ =>
      let ahs ← cm.drop ahs
      some { s with ahs }
    | .ok point =>
      let ahs ← dropEntry s.info metaServerGid ahs
      let ahs ← cm.drop ahs
      some
        { s.putMetaServer point with
          ahs
          metaKvPa := (ans.metaPa.map BitVec.toNat).getD s.metaKvPa
          connected := true }
  else none

/-- `conn_meta`. It tries sixteen times to find a path, and panics if there is no
    `SidrCM`. -/
def connMeta (cfg : MetaConfig) (s : MetaNode) (ans : ConnMetaAnswers) : Option MetaNode :=
  let s := { s with metaKvPa := cfg.getGlobalTestMemPa 1 }
  if (List.range 16).any ans.paths then
    if ans.sidrCm then s.connSidr ans else none
  else some s

/-! ## Handling a message -/

/-- What the handler of a request drops: the entry that it replaces or removes, and its
    payload. -/
def handlerDrops (cfg : MetaConfig) (info : MetaInfo) (ahs : Ahs) : MetaReq → Option Ahs
  | .register gid _ point => (dropEntry info (cfg.gidToStr gid) ahs).bind point.drop
  | .deregister gid => dropEntry info (cfg.gidToStr gid) ahs
  | _ => some ahs

/-- One message of `poll_all`: the handler runs, and the endpoint of the header gets an
    address handle for the reply and is dropped. -/
def message (cfg : MetaConfig) (s : MetaNode) (slot : Mem) (res : BitVec 64) :
    Option MetaNode := do
  let (rpc, _, remotePoint) := RpcServer.handleOne cfg.layout (metaHandlers cfg) slot s.rpc
  let ahs ← handlerDrops cfg s.info s.ahs (MetaReq.decode cfg.layout slot)
  let freed ← remotePoint.drop ahs
  if ptrIsErr res = false → freed.Fresh res then
    let (remotePoint, ahs) ← remotePoint.bindPd ahs res
    let ahs ← remotePoint.drop ahs
    some { s with rpc, ahs }
  else none

inductive Event where
  | connMeta (ans : ConnMetaAnswers)
  | message (slot : Mem) (res : BitVec 64)

def step (cfg : MetaConfig) (s : MetaNode) : Event → Option MetaNode
  | .connMeta ans => s.connMeta cfg ans
  | .message slot res => s.message cfg slot res

/-- The node before anything has happened, with the address handles of other parts of the
    kernel. -/
def boot (ahs : Ahs) : MetaNode where
  rpc := MetaServer.boot
  ahs
  metaKvPa := 0
  connected := false

/-! ## What a step does -/

variable {cfg : MetaConfig} {s s' : MetaNode}

/-- The two outcomes of `conn_meta`. -/
inductive ConnMetaed (s : MetaNode) : MetaNode → Prop
  | failed (metaKvPa : Nat) : ConnMetaed s { s with metaKvPa }
  | ok (point : EndPoint) (av : AddressVector) (ahs : Ahs) (metaKvPa : Nat)
      (hfresh : s.ahs.Fresh point.ah)
      (hold : dropEntry s.info metaServerGid (Function.update s.ahs point.ah (some av)) =
        some ahs) :
      ConnMetaed s { s.putMetaServer point with ahs, metaKvPa, connected := true }

theorem connSidr_stepped {ans : ConnMetaAnswers} (h : s.connSidr ans = some s') :
    ConnMetaed s s' := by
  simp only [connSidr, Option.ite_none_right_eq_some] at h
  obtain ⟨hfresh, h⟩ := h
  obtain ⟨⟨out, cm, ahs⟩, hconnect, h⟩ := Option.bind_eq_some_iff.mp h
  cases SidrCM.sidrConnect_ended hfresh hconnect with
  | error errno hcm =>
    rw [show cm.drop s.ahs = some s.ahs from EndPoint.drop_of_not_valid hcm _] at h
    cases h
    exact .failed s.metaKvPa
  | ok point av hcm hah hres =>
    obtain ⟨ahs, hold, h⟩ := Option.bind_eq_some_iff.mp h
    rw [show cm.drop ahs = some ahs from EndPoint.drop_of_not_valid hcm _] at h
    cases h
    rw [← hah] at hres hold
    exact .ok point av ahs _ hres hold

theorem connMeta_stepped {ans : ConnMetaAnswers} (h : s.connMeta cfg ans = some s') :
    ConnMetaed s s' := by
  simp only [connMeta] at h
  split at h
  · rw [Option.ite_none_right_eq_some] at h
    cases connSidr_stepped h.2 with
    | failed metaKvPa => exact .failed metaKvPa
    | ok point av ahs metaKvPa hfresh hold => exact .ok point av ahs metaKvPa hfresh hold
  · cases h
    exact .failed _

/-- The endpoints that come with a message. All of them are dropped. -/
def wirePoints (cfg : MetaConfig) (slot : Mem) : List EndPoint :=
  (Header.readAt cfg.layout slot udHeaderSz).endPoint :: (MetaReq.decode cfg.layout slot).points

theorem handleOne_remotePoint (L : EndPointLayout) (handlers : UInt8 → Option (RpcHandler MetaServer))
    (slot : Mem) (rpc : RpcServer MetaServer) :
    (RpcServer.handleOne L handlers slot rpc).2.2 = (Header.readAt L slot udHeaderSz).endPoint := by
  unfold RpcServer.handleOne
  dsimp only
  split <;> rfl

/-- The handle that is created for the reply does not outlive the message. -/
theorem message_eq_some {slot : Mem} {res : BitVec 64} (h : s.message cfg slot res = some s') :
    ∃ ahs freed,
      handlerDrops cfg s.info s.ahs (MetaReq.decode cfg.layout slot) = some ahs ∧
      (Header.readAt cfg.layout slot udHeaderSz).endPoint.drop ahs = some freed ∧
      s' = { s with
        rpc := (RpcServer.handleOne cfg.layout (metaHandlers cfg) slot s.rpc).1, ahs := freed } := by
  simp only [message, handleOne_remotePoint] at h
  obtain ⟨ahs, hdrops, h⟩ := Option.bind_eq_some_iff.mp h
  obtain ⟨freed, hfreed, h⟩ := Option.bind_eq_some_iff.mp h
  rw [Option.ite_none_right_eq_some] at h
  obtain ⟨hfresh, h⟩ := h
  obtain ⟨⟨point, ahs₁⟩, hbind, h⟩ := Option.bind_eq_some_iff.mp h
  obtain ⟨ahs₂, hdrop, h⟩ := Option.bind_eq_some_iff.mp h
  cases h
  refine ⟨ahs, freed, hdrops, hfreed, ?_⟩
  rw [EndPoint.bindPd_drop hfreed hfresh hbind hdrop]

/-! ## The entries -/

theorem get_apply_of_ne {app : MetaServer} {req : MetaReq} {key : List Char}
    (h : ∀ gid, req.changes = some gid → cfg.gidToStr gid ≠ key) :
    (app.apply cfg req).info.get key = app.info.get key := by
  cases req with
  | register gid port point => exact MetaInfo.get_insert_of_ne _ (h gid rfl).symm
  | deregister gid => exact MetaInfo.get_erase_of_ne (h gid rfl).symm
  | dummy | query | unknown => rfl

/-- A request leaves no handle in the entry that it changes. -/
theorem get_apply_changed {app : MetaServer} {req : MetaReq} {gid : Gid} {e : EndPoint}
    (h : req.changes = some gid)
    (he : (app.apply cfg req).info.get (cfg.gidToStr gid) = some e) : e.ah = 0 := by
  cases req with
  | register gid' port point =>
    cases h
    rw [MetaServer.apply, MetaServer.register, MetaInfo.get_insert_self] at he
    cases he
    rfl
  | deregister gid' =>
    cases h
    rw [MetaServer.apply, MetaServer.deregister, MetaInfo.get_erase_self] at he
    cases he
  | dummy | query | unknown => cases h

/-- Only the entry of the metadata server may have a handle, and only after a
    `conn_meta`. -/
structure Owned (s : MetaNode) : Prop where
  peers : ∀ key e, s.info.get key = some e → key ≠ metaServerGid → e.ah = 0
  early : s.connected = false → ∀ e, s.info.get metaServerGid = some e → e.ah = 0

theorem owned_boot (ahs : Ahs) : Owned (boot ahs) where
  peers _ _ h := by cases h
  early _ _ h := by cases h

theorem message_info {slot : Mem} {res : BitVec 64} (h : s.message cfg slot res = some s') :
    s'.info = (s.rpc.app.apply cfg (MetaReq.decode cfg.layout slot)).info ∧
      s'.connected = s.connected := by
  obtain ⟨ahs, freed, -, -, rfl⟩ := message_eq_some h
  exact ⟨by rw [info, handleOne_meta], rfl⟩

theorem Owned.message {slot : Mem} {res : BitVec 64} (hs : Owned s)
    (h : s.message cfg slot res = some s') : Owned s' := by
  obtain ⟨hinfo, hconn⟩ := message_info h
  -- An entry has been there before, or the request has left it without a handle.
  have hentry : ∀ key e, s'.info.get key = some e → s.info.get key = some e ∨ e.ah = 0 := by
    intro key e he
    rw [hinfo] at he
    by_cases hch : ∃ gid, (MetaReq.decode cfg.layout slot).changes = some gid ∧
        cfg.gidToStr gid = key
    · obtain ⟨gid, hgid, rfl⟩ := hch
      exact .inr (get_apply_changed hgid he)
    · rw [get_apply_of_ne fun gid hgid hkey => hch ⟨gid, hgid, hkey⟩] at he
      exact .inl he
  refine ⟨fun key e he hkey => ?_, fun hc e he => ?_⟩
  · exact (hentry key e he).elim (fun hold => hs.peers key e hold hkey) id
  · exact (hentry _ e he).elim (hs.early (hconn ▸ hc) e) id

theorem get_putMetaServer_of_ne {point : EndPoint} {key : List Char} (h : key ≠ metaServerGid) :
    (s.putMetaServer point).info.get key = s.info.get key := MetaInfo.get_insert_of_ne _ h

theorem Owned.connMeta (hs : Owned s) (h : ConnMetaed s s') : Owned s' := by
  cases h with
  | failed metaKvPa => exact ⟨hs.peers, hs.early⟩
  | ok point av ahs metaKvPa hfresh hold =>
    refine ⟨fun key e he hkey => hs.peers key e ?_ hkey, nofun⟩
    rwa [← get_putMetaServer_of_ne hkey]

theorem Owned.step {a : Event} (hs : Owned s) (h : s.step cfg a = some s') : Owned s' := by
  cases a with
  | connMeta ans => exact hs.connMeta (connMeta_stepped h)
  | message slot res => exact hs.message h

/-! ## The handles -/

theorem dropEntry_isSome {info : MetaInfo} {key : List Char} {ahs ahs' : Ahs} {ah : BitVec 64}
    (hah : ah ≠ 0) (h : dropEntry info key ahs = some ahs') :
    (ahs' ah).isSome = true ↔
      (ahs ah).isSome = true ∧ ∀ e, info.get key = some e → ah ≠ e.ah := by
  unfold dropEntry at h
  cases hget : info.get key with
  | none =>
    rw [hget] at h
    cases h
    exact (and_iff_left nofun).symm
  | some e =>
    rw [hget] at h
    rw [EndPoint.drop_isSome hah h]
    simp

/-- The drop of an entry other than that of the metadata server takes no handle. -/
theorem Owned.dropEntry_isSome {key : List Char} {ahs ahs' : Ahs} {ah : BitVec 64} (hs : Owned s)
    (hkey : key ≠ metaServerGid) (hah : ah ≠ 0) (h : dropEntry s.info key ahs = some ahs') :
    (ahs' ah).isSome = true ↔ (ahs ah).isSome = true := by
  rw [MetaNode.dropEntry_isSome hah h]
  refine and_iff_left fun e he => ?_
  rwa [hs.peers key e he hkey]

/-- A request that does not change the entry of the metadata server takes the handles of its
    payload, and no other. -/
theorem Owned.handlerDrops_isSome {req : MetaReq} {ahs ahs' : Ahs} {ah : BitVec 64} (hs : Owned s)
    (hreq : ∀ gid, req.changes = some gid → cfg.gidToStr gid ≠ metaServerGid) (hah : ah ≠ 0)
    (h : handlerDrops cfg s.info ahs req = some ahs') :
    (ahs' ah).isSome = true ↔ (ahs ah).isSome = true ∧ ∀ p ∈ req.points, ah ≠ p.ah := by
  cases req with
  | register gid port point =>
    obtain ⟨ahs₁, hentry, hpoint⟩ := Option.bind_eq_some_iff.mp h
    rw [EndPoint.drop_isSome hah hpoint, hs.dropEntry_isSome (hreq gid rfl) hah hentry]
    simp [MetaReq.points]
  | deregister gid =>
    rw [hs.dropEntry_isSome (hreq gid rfl) hah h]
    simp [MetaReq.points]
  | dummy | query | unknown =>
    cases h
    simp [MetaReq.points]

/-! ## Staying reachable -/

/-- Once a `conn_meta` has succeeded, there is an entry for the metadata server with an
    address handle that is alive. -/
def Reachable (s : MetaNode) : Prop :=
  s.connected = true →
    ∃ e, s.info.get metaServerGid = some e ∧ e.valid = true ∧ (s.ahs e.ah).isSome = true

/-- After a `conn_meta`, a message does not register or deregister the gid of the metadata
    server, and none of the endpoints that come with it carries the handle of its entry. -/
def Spares (cfg : MetaConfig) (s : MetaNode) : Event → Prop
  | .connMeta _ => True
  | .message slot _ => s.connected = true →
      (∀ gid, (MetaReq.decode cfg.layout slot).changes = some gid →
        cfg.gidToStr gid ≠ metaServerGid) ∧
      ∀ e, s.info.get metaServerGid = some e → ∀ p ∈ wirePoints cfg slot, e.ah ≠ p.ah

theorem Reachable.connMeta (hs : Owned s) (hreach : Reachable s) (h : ConnMetaed s s') :
    Reachable s' := by
  cases h with
  | failed metaKvPa => exact hreach
  | ok point av ahs metaKvPa hfresh hold =>
    intro _
    refine ⟨point, MetaInfo.get_insert_self _ _ _, decide_eq_true hfresh.1, ?_⟩
    refine (MetaNode.dropEntry_isSome hfresh.1 hold).mpr ⟨by simp, fun e he hsame => ?_⟩
    -- The old entry has no handle, or one that was alive before the new one was created.
    cases hc : s.connected with
    | false => exact hfresh.1 (hsame.trans (hs.early hc e he))
    | true =>
      obtain ⟨e', he', -, halive⟩ := hreach hc
      rw [he] at he'
      cases he'
      rw [← hsame, hfresh.2] at halive
      cases halive

/-- The handles after a message that leaves the entry of the metadata server. -/
theorem message_isSome {slot : Mem} {res ah : BitVec 64} (hs : Owned s)
    (hreq : ∀ gid, (MetaReq.decode cfg.layout slot).changes = some gid →
      cfg.gidToStr gid ≠ metaServerGid) (hah : ah ≠ 0) (h : s.message cfg slot res = some s') :
    (s'.ahs ah).isSome = true ↔
      (s.ahs ah).isSome = true ∧ ∀ p ∈ wirePoints cfg slot, ah ≠ p.ah := by
  obtain ⟨ahs, freed, hdrops, hfreed, rfl⟩ := message_eq_some h
  rw [EndPoint.drop_isSome hah hfreed, hs.handlerDrops_isSome hreq hah hdrops, wirePoints,
    List.forall_mem_cons, and_assoc, and_comm (b := ah ≠ _)]

theorem reachable_message {slot : Mem} {res : BitVec 64} (hs : Owned s) (hreach : Reachable s)
    (h : s.message cfg slot res = some s') :
    Reachable s' ↔ Spares cfg s (.message slot res) := by
  obtain ⟨hinfo, hconn⟩ := message_info h
  unfold Reachable Spares
  rw [hconn]
  refine forall_congr' fun hc => ?_
  obtain ⟨e, he, hvalid, halive⟩ := hreach hc
  have hah : e.ah ≠ 0 := of_decide_eq_true hvalid
  constructor
  · rintro ⟨e', he', hvalid', halive'⟩
    rw [hinfo] at he'
    have hreq : ∀ gid, (MetaReq.decode cfg.layout slot).changes = some gid →
        cfg.gidToStr gid ≠ metaServerGid := by
      intro gid hgid hkey
      rw [← hkey] at he'
      exact of_decide_eq_true hvalid' (get_apply_changed hgid he')
    refine ⟨hreq, fun e₁ he₁ => ?_⟩
    rw [get_apply_of_ne hreq] at he'
    have hsame : e₁ = e' := Option.some.inj (he₁.symm.trans he')
    rw [hsame]
    exact ((message_isSome hs hreq (of_decide_eq_true hvalid') h).mp halive').2
  · rintro ⟨hreq, hpoints⟩
    refine ⟨e, ?_, hvalid, (message_isSome hs hreq hah h).mpr ⟨halive, hpoints e he⟩⟩
    rw [hinfo, get_apply_of_ne hreq]
    exact he

theorem reachable_step {a : Event} (hs : Owned s) (hreach : Reachable s)
    (h : s.step cfg a = some s') : Reachable s' ↔ Spares cfg s a := by
  cases a with
  | connMeta ans => exact iff_of_true (hreach.connMeta hs (connMeta_stepped h)) trivial
  | message slot res => exact reachable_message hs hreach h

/-- For every sequence of `conn_meta` and of messages with any bytes: the metadata server
    stays reachable exactly if every message spares its entry. -/
theorem stays_reachable_iff (cfg : MetaConfig) (ahs : Ahs) (events : List Event) :
    Run.Always (step cfg) Reachable (boot ahs) events ↔
      Run.Guarded (step cfg) (Spares cfg) (boot ahs) events :=
  Run.always_iff_guarded (I := Owned) (fun _ _ _ hs h _ => hs.step h)
    (fun _ _ _ hs hreach h => reachable_step hs hreach h) (owned_boot ahs) nofun events

/-! ## The metadata server registers itself -/

/-- Eight groups of four hexadecimal digits, from the first byte on. -/
def guidText (gid : Gid) : List Char :=
  let byte := fun i => gid.toNat / 256 ^ i % 256
  let digits := fun i => [(byte i / 16).digitChar, (byte i % 16).digitChar]
  [':'].intercalate ((List.range 8).map fun i => digits (2 * i) ++ digits (2 * i + 1))

def sampleConfig : MetaConfig := { MetaConfig.sample with gidToStr := guidText }

/-- The gid that `META_SERVER_GID` is the text of. -/
def sampleMetaGid : Gid := 0x5e647800039a0dec00000000000080fe

/-- The handshake with the metadata server, which has the UD 7. -/
def sampleConn : ConnMetaAnswers where
  paths _ := true
  sidrCm := true
  sendErr := 0
  event := some (.repReceived
    { offset8 := 7 <<< 8
      qkey := 0
      info := SidrPayload.enc
        { qd := 73, lid := 1, gid := sampleMetaGid, dctNum := 5, mr := default, status := .ok }
        { lid := 0, dctNum := 0, status := 0, post := [] } })
  waitErr := 0
  res := 4096
  metaPa := none

/-- An entry without a handle is of no use. -/
theorem not_reachable {s : MetaNode} (hc : s.connected = true)
    (h : (s.info.get metaServerGid).map EndPoint.valid ≠ some true) : ¬Reachable s := by
  intro hreach
  obtain ⟨e, he, hvalid, -⟩ := hreach hc
  exact h (by rw [he, Option.map_some, hvalid])

def sampleMetaPoint : EndPoint := { nodeOne with gid := sampleMetaGid }

/-- The metadata server registers itself: its entry is replaced by one without an address
    handle. If its gid is deregistered, there is no entry. -/
theorem unreachable_after_registration :
    (∃ s, Run.exec (step sampleConfig) (boot fun _ => none)
        [.connMeta sampleConn,
          .message (registerSlot EndPointLayout.packed sampleMetaGid 0 sampleMetaPoint) 8192] =
        some s ∧ s.connected = true ∧
      (s.info.get metaServerGid).map EndPoint.valid = some false ∧ ¬Reachable s) ∧
    ∃ s, Run.exec (step sampleConfig) (boot fun _ => none)
        [.connMeta sampleConn, .message (deregisterSlot sampleMetaGid) 8192] = some s ∧
      s.connected = true ∧ s.info.get metaServerGid = none ∧ ¬Reachable s := by
  refine ⟨⟨_, rfl, rfl, by decide +kernel, not_reachable rfl (by decide +kernel)⟩,
    ⟨_, rfl, rfl, by decide +kernel, not_reachable rfl (by decide +kernel)⟩⟩

end MetaNode
