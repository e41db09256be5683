-- SUMMARY: When the endpoint that Connect finds at the metadata server is the one that SIDR would have brought.
import KRCore.Cm.Sidr
import KRCore.Node.Model
import KRCore.VirtualQueue.Connect
import KRCore.VirtualQueue.MetaRoundTrip

/-!
# The metadata fast path

With `meta_kv` a Connect looks the gid of the peer up in an image of the registry,
and uses SIDR only if there is no entry. The peer has put one endpoint there in
`conn_meta`: that of its second RPC client, which uses the UD of controller 2. SIDR
is answered by the controller that listens to the port of the request. And the image
gets to the client by two READs, whose outcome `query_dct_meta` does not look at.
-/

namespace FastPath

open MetaImage MetaRead

/-! ## A remote node -/

/-- A node after `Client::create`: the contexts of its NICs, and the UD, the DC target and
    the buffer of each controller. Every controller allocates a buffer of its own. -/
structure Host where
  nics : Nat
  nics_pos : 0 < nics
  lid : Nat → BitVec 16
  gid : Nat → Gid
  ud : Nat → RegisteredUd
  dctNum : Nat → BitVec 32
  testMr : Nat → TempMR
  testMr_inj : ∀ c c', c < Node.maxServiceNum * nics → c' < Node.maxServiceNum * nics →
    testMr c = testMr c' → c = c'

/-- `DEFAULT_RPC_HINT`. -/
def defaultRpcHint : BitVec 64 := 73

namespace Host

/-- The length of `RCTRL`: one controller for each service and NIC. -/
def rctrlLen (h : Host) : Nat := Node.maxServiceNum * h.nics

/-- Controller `c` serves service `c / nics` on NIC `c % nics`. -/
def server (h : Host) (c : Nat) : SidrServer where
  registeredUds hint := if hint = defaultRpcHint then some (h.ud c) else none
  lid := h.lid (c % h.nics)
  gid := h.gid (c % h.nics)
  dctNum := h.dctNum c
  mr := h.testMr c

/-- The endpoint of the RPC client `i`: the UD of a controller, with the context of the
    first NIC. -/
def rpcEndPoint (h : Host) (i : Nat) : EndPoint :=
  let c := i * 2 % h.rctrlLen
  { qpn := (h.ud c).qpn, qkey := (h.ud c).qkey, lid := h.lid 0, gid := h.gid 0,
    dctNum := h.dctNum c, mr := h.testMr c, ah := 0 }

/-- The slot holds the request of `call_reg_dc_meta`, whose port is a random byte. -/
def Registers (h : Host) (L : EndPointLayout) (slot : Mem) : Prop :=
  ∃ rand < 256, MetaReq.decode L slot = .register (h.gid 0) rand (h.rpcEndPoint 1)

/-- The controller that listens to service `port` on the NIC with gid `g`. -/
def listener (h : Host) (g : Gid) (port : Nat) : Option Nat :=
  if port < Node.maxServiceNum then
    ((List.range h.nics).find? fun j => h.gid j = g).map fun j => port * h.nics + j
  else none

/-- What a client gets to see of a SIDR request for the UD, if nothing gets lost. -/
def sidrEvent (h : Host) (g : Gid) (port : Nat) (offset8 : BitVec 32) (junk : SidrPayload.Junk) :
    Option SidrEvent :=
  match h.listener g port with
  | some c => (SidrDelivery.reply offset8 junk).event (h.server c) defaultRpcHint
  | none => some (.repReceived .rejected)

theorem listener_gid_zero (h : Host) (port : Nat) :
    h.listener (h.gid 0) port =
      if port < Node.maxServiceNum then some (port * h.nics) else none := by
  have hfind : (List.range h.nics).find? (fun j => h.gid j = h.gid 0) = some 0 := by
    obtain ⟨n, hn⟩ := Nat.exists_eq_succ_of_ne_zero h.nics_pos.ne'
    rw [hn, List.range_succ_eq_map]
    exact List.find?_cons_of_pos (by simp)
  rw [listener, hfind]
  rfl

/-- A `sidr_connect` to the NIC with gid `g`, during which nothing gets lost and the kernel
    grants the address handle, returns `out`. -/
def SidrReturns (h : Host) (g : Gid) (port : Nat) (out : Except Int EndPoint) : Prop :=
  ∃ (ahs : Ahs) (ans : AhAnswer ahs) (offset8 : BitVec 32) (junk : SidrPayload.Junk)
    (waitErr : Int) (cm : SidrCM) (ahs' : Ahs), ptrIsErr ans.res = false ∧
    SidrCM.new.sidrConnect ahs 0 (h.sidrEvent g port offset8 junk) waitErr ans.res =
      some (out, cm, ahs')

/-- `sidr_connect` to a controller that listens. -/
theorem sidrConnect_server (h : Host) (c : Nat) {ahs : Ahs} {ans : AhAnswer ahs}
    (hah : ptrIsErr ans.res = false) (offset8 : BitVec 32) (junk : SidrPayload.Junk)
    (waitErr : Int) :
    ∃ cm ahs', SidrCM.new.sidrConnect ahs 0
        ((SidrDelivery.reply offset8 junk).event (h.server c) defaultRpcHint) waitErr ans.res =
      some (.ok ((h.server c).endPoint (h.ud c) ans.res), cm, ahs') := by
  have hsucceeds : SidrCM.Succeeds (h.server c) defaultRpcHint 0 (.reply offset8 junk) ans.res
      (h.ud c) := ⟨by simp [server], ⟨rfl, rfl⟩, hah⟩
  obtain ⟨cm, hok, -⟩ := SidrCM.sidrConnect_ok hsucceeds waitErr
  exact ⟨cm, _, hok⟩

theorem sidrReturns_ok (h : Host) {port : Nat} (hport : port < Node.maxServiceNum) {ahs : Ahs}
    (ans : AhAnswer ahs) (hah : ptrIsErr ans.res = false) :
    h.SidrReturns (h.gid 0) port
      (.ok ((h.server (port * h.nics)).endPoint (h.ud (port * h.nics)) ans.res)) := by
  obtain ⟨cm, ahs', hok⟩ := h.sidrConnect_server (port * h.nics) hah 0 ⟨0, 0, 0, []⟩ 0
  refine ⟨ahs, ans, 0, ⟨0, 0, 0, []⟩, 0, cm, ahs', hah, ?_⟩
  rwa [sidrEvent, listener_gid_zero, if_pos hport]

/-- What SIDR brings for the first NIC. -/
theorem SidrReturns.eq_ok_iff {h : Host} {port : Nat} {out : Except Int EndPoint}
    (hout : h.SidrReturns (h.gid 0) port out) :
    ∃ ah, ∀ ep, out = .ok ep ↔ port < Node.maxServiceNum ∧
      ep = (h.server (port * h.nics)).endPoint (h.ud (port * h.nics)) ah := by
  obtain ⟨ahs, ans, offset8, junk, waitErr, cm, ahs', hah, hrun⟩ := hout
  refine ⟨ans.res, fun ep => ?_⟩
  rw [sidrEvent, listener_gid_zero] at hrun
  by_cases hport : port < Node.maxServiceNum
  · obtain ⟨cm', ahs₁, hok⟩ := h.sidrConnect_server (port * h.nics) hah offset8 junk waitErr
    rw [if_pos hport] at hrun
    simp only [hok, Option.some.injEq, Prod.mk.injEq] at hrun
    rw [← hrun.1, Except.ok.injEq]
    exact ⟨fun he => ⟨hport, he.symm⟩, fun he => he.2.symm⟩
  · rw [if_neg hport] at hrun
    cases hrun
    exact ⟨nofun, fun he => absurd he.1 hport⟩

/-- The endpoint of the second RPC client is that of the listening controller exactly if
    this is controller 2. -/
theorem selfClone_eq_rpcEndPoint_iff (h : Host) {port : Nat} (hport : port < Node.maxServiceNum)
    (ah : BitVec 64) :
    ((h.server (port * h.nics)).endPoint (h.ud (port * h.nics)) ah).selfClone = h.rpcEndPoint 1 ↔
      port * h.nics = 2 := by
  have hlen : Node.maxServiceNum ≤ h.rctrlLen := Nat.le_mul_of_pos_right _ h.nics_pos
  have hctrl : 1 * 2 % h.rctrlLen = 2 := Nat.mod_eq_of_lt (Nat.lt_of_lt_of_le (by decide) hlen)
  have hnic : port * h.nics % h.nics = 0 := Nat.mul_mod_left port h.nics
  constructor
  · intro heq
    have hmr : h.testMr (port * h.nics) = h.testMr 2 := by
      have := congrArg EndPoint.mr heq
      rwa [rpcEndPoint, hctrl] at this
    refine h.testMr_inj _ _ ?_ (Nat.lt_of_lt_of_le (by decide) hlen) hmr
    exact Nat.mul_lt_mul_of_pos_right hport h.nics_pos
  · intro heq
    simp only [rpcEndPoint, hctrl, SidrServer.endPoint, server, hnic, EndPoint.selfClone]
    rw [heq]

end Host

/-! ## What the images hold -/

variable {cfg : MetaConfig} {h : Host}

/-- Every endpoint with the gid of the node, in the registry and in the images, is the one
    that the node has registered, and the images fit into their regions. -/
structure Current (cfg : MetaConfig) (h : Host) (s : MetaServer) : Prop where
  keyed : Keyed cfg s.info
  info : ∀ p, s.info.get (cfg.gidToStr (h.gid 0)) = some p → p.gid = h.gid 0 → p = h.rpcEndPoint 1
  image : ∃ es : List EndPoint, 8 + es.length * endPointSz ≤ globalMemSz ∧
    (∀ e ∈ es, e.gid = h.gid 0 → e = h.rpcEndPoint 1) ∧
    ∀ i, ImageAt cfg.layout s.mem (cfg.memPa i) es

/-- A registration rewrites the images from the registry. -/
theorem current_register {s : MetaServer} {gid : Gid} {point : EndPoint}
    (hkeyed : Keyed cfg s.info) (hgid : point.gid = gid)
    (hfit : 8 + (s.register cfg gid point).info.entries.length * endPointSz ≤ globalMemSz)
    (hinfo : ∀ p, (s.register cfg gid point).info.get (cfg.gidToStr (h.gid 0)) = some p →
      p.gid = h.gid 0 → p = h.rpcEndPoint 1) : Current cfg h (s.register cfg gid point) := by
  have hkeyed' : Keyed cfg (s.register cfg gid point).info := keyed_insert hkeyed hgid
  have hperm := cfg.order_perm s.registrations (s.register cfg gid point).info
  generalize hes : (cfg.order s.registrations (s.register cfg gid point).info).map Sigma.snd = es
  have hfit' : 8 + es.length * endPointSz ≤ globalMemSz := by
    rw [← hes, List.length_map, hperm.length_eq]
    exact hfit
  have hmem : (s.register cfg gid point).mem = writeImages cfg es (List.finRange 12) s.mem := by
    rw [← hes]
    rfl
  refine ⟨hkeyed', hinfo, es, hfit', fun e he hegid => ?_, fun i => ?_⟩
  · rw [← hes] at he
    obtain ⟨⟨key, e'⟩, hmem, rfl⟩ := List.mem_map.mp he
    have hget : (s.register cfg gid point).info.get key = some e' :=
      MetaInfo.get_eq_some_iff.mpr (hperm.subset hmem)
    have hkey := hkeyed' key e' hget
    rw [hkey, hegid] at hget
    exact hinfo e' hget hegid
  · rw [hmem]
    exact imageAt_writeImages hfit' (List.nodup_finRange 12) (List.mem_finRange i)

theorem Current.deregister {s : MetaServer} (hs : Current cfg h s) (gid : Gid) :
    Current cfg h (s.deregister cfg gid) := by
  have hget : ∀ key p, (s.deregister cfg gid).info.get key = some p → s.info.get key = some p := by
    intro key p hp
    by_cases hkey : key = cfg.gidToStr gid
    · subst hkey
      rw [MetaServer.deregister, MetaInfo.get_erase_self] at hp
      cases hp
    · rwa [MetaServer.deregister, MetaInfo.get_erase_of_ne hkey] at hp
  exact ⟨fun key p hp => hs.keyed key p (hget key p hp), fun p hp => hs.info p (hget _ p hp),
    hs.image⟩

/-- The registration of another gid. -/
theorem Current.register {s : MetaServer} (hs : Current cfg h s) {gid : Gid} {point : EndPoint}
    (hgid : point.gid = gid) (hne : gid ≠ h.gid 0)
    (hfit : 8 + (s.register cfg gid point).info.entries.length * endPointSz ≤ globalMemSz) :
    Current cfg h (s.register cfg gid point) := by
  refine current_register hs.keyed hgid hfit fun p hp hpgid => ?_
  by_cases hkey : cfg.gidToStr (h.gid 0) = cfg.gidToStr gid
  · -- The entry has been replaced by one with another gid.
    rw [MetaServer.register, hkey, MetaInfo.get_insert_self] at hp
    cases hp
    exact absurd (hgid.symm.trans hpgid) hne
  · rw [MetaServer.register, MetaInfo.get_insert_of_ne _ hkey] at hp
    exact hs.info p hp hpgid

/-- The request does not register the gid of the node. -/
def Foreign (cfg : MetaConfig) (h : Host) (slot : Mem) : Prop :=
  ∀ rand point, MetaReq.decode cfg.layout slot ≠ .register (h.gid 0) rand point

theorem Current.step {s s' : RpcServer MetaServer} {slot : Mem} (hs : Current cfg h s.app)
    (hadm : Admissible cfg s slot) (hforeign : Foreign cfg h slot)
    (hstep : MetaImage.step cfg s slot = some s') : Current cfg h s'.app := by
  rw [step_app hstep]
  unfold Admissible at hadm
  cases hreq : MetaReq.decode cfg.layout slot with
  | register gid port point =>
    rw [hreq] at hadm
    refine hs.register hadm.1 ?_ hadm.2
    rintro rfl
    exact hforeign port point hreq
  | deregister gid => exact hs.deregister gid
  | dummy => exact hs
  | query gid => exact hs
  | unknown => exact hs

theorem Current.exec {s s' : RpcServer MetaServer} {slots : List Mem} (hs : Current cfg h s.app)
    (hadm : Run.Guarded (MetaImage.step cfg) (Admissible cfg) s slots)
    (hforeign : ∀ slot ∈ slots, Foreign cfg h slot)
    (hrun : Run.exec (MetaImage.step cfg) s slots = some s') : Current cfg h s'.app := by
  induction slots generalizing s with
  | nil =>
    cases hrun
    exact hs
  | cons slot slots ih =>
    obtain ⟨s₁, hstep, hrest⟩ := Run.exec_cons_eq_some.mp hrun
    obtain ⟨hone, hadm'⟩ := Run.guarded_cons.mp hadm s₁ hstep
    have hs₁ := hs.step hone (hforeign slot List.mem_cons_self) hstep
    exact ih hs₁ hadm' (fun slot' hmem => hforeign slot' (List.mem_cons_of_mem _ hmem)) hrest

/-- The node registers. -/
theorem current_of_registers {s s' : RpcServer MetaServer} {slot : Mem}
    (hkeyed : Keyed cfg s.app.info) (hreg : h.Registers cfg.layout slot)
    (hadm : Admissible cfg s slot) (hstep : MetaImage.step cfg s slot = some s') :
    Current cfg h s'.app := by
  obtain ⟨rand, -, hreq⟩ := hreg
  rw [step_app hstep, hreq]
  simp only [Admissible, hreq] at hadm
  refine current_register hkeyed hadm.1 hadm.2 fun p hp _ => ?_
  rw [MetaServer.register, MetaInfo.get_insert_self] at hp
  cases hp
  rfl

/-- The metadata server has served a registration of the node, from any registry that has
    every endpoint under its own gid, and no later one under its gid. -/
def LastRegistered (cfg : MetaConfig) (h : Host) (s : RpcServer MetaServer) : Prop :=
  ∃ s₀ slot post, Keyed cfg s₀.app.info ∧ h.Registers cfg.layout slot ∧
    (∀ slot' ∈ post, Foreign cfg h slot') ∧
    Run.Guarded (MetaImage.step cfg) (Admissible cfg) s₀ (slot :: post) ∧
    Run.exec (MetaImage.step cfg) s₀ (slot :: post) = some s

theorem LastRegistered.current {s : RpcServer MetaServer} (hs : LastRegistered cfg h s) :
    Current cfg h s.app := by
  obtain ⟨s₀, slot, post, hkeyed, hreg, hforeign, hadm, hrun⟩ := hs
  obtain ⟨s₁, hstep, hrest⟩ := Run.exec_cons_eq_some.mp hrun
  obtain ⟨hone, hadm'⟩ := Run.guarded_cons.mp hadm s₁ hstep
  exact (current_of_registers hkeyed hreg hone hstep).exec hadm' hforeign hrest

theorem Current.eq_of_found {s : MetaServer} (hs : Current cfg h s) {i : Fin 12} {p : EndPoint}
    (hq : queryDctMeta cfg.layout s.mem (cfg.memPa i) (h.gid 0) = some p) : p = h.rpcEndPoint 1 := by
  obtain ⟨es, -, hes, himage⟩ := hs.image
  obtain ⟨e, he, hgid, rfl⟩ := (himage i).queryDctMeta_eq_some hq
  rw [hes e he hgid]
  rfl

/-- The image that a client READs is not longer than its region, and not empty if there is
    something to be found. -/
theorem Current.imageCount {s : MetaServer} (hs : Current cfg h s) {i : Fin 12} {q : QueryCfg}
    (hkvPa : q.kvPa = cfg.memPa i) :
    q.imageCount s.mem * endPointSz ≤ globalMemSz ∧
      ((queryDctMeta cfg.layout s.mem (cfg.memPa i) (h.gid 0)).isSome = true →
        0 < q.imageCount s.mem) := by
  obtain ⟨es, hfit, -, himage⟩ := hs.image
  have hcount : q.imageCount s.mem = es.length := by
    rw [QueryCfg.imageCount, hkvPa]
    exact (himage i).count
  rw [hcount]
  refine ⟨Nat.le_trans (Nat.le_add_left _ 8) hfit, fun hsome => ?_⟩
  obtain ⟨p, hp⟩ := Option.isSome_iff_exists.mp hsome
  obtain ⟨e, he, -, -⟩ := (himage i).queryDctMeta_eq_some hp
  exact List.length_pos_of_mem he

/-! ## Connect -/

/-- A Connect that gets to the fetching part takes the endpoint that the query finds. -/
theorem connectImpl_meta {feat : Features} (hkv : feat.metaKv = true) {m : Machine} {vq vq₁ : VQ}
    {addr : Address} {port vid : Nat} {ans : ConnectAnswers} {dgid : Gid}
    (hgid : m.parseGid addr.text = some dgid)
    (hstart : VQ.connectStart feat m vq addr port vid ans = .fetching vq₁) (found : EndPoint) :
    ∃ vq', VQ.connectImpl feat m vq addr port vid { ans with metaQuery := some found } =
      some (vq', .ok, some found) := by
  have hstart' : VQ.connectStart feat m vq addr port vid { ans with metaQuery := some found } =
      .fetching vq₁ := hstart
  refine ⟨VQ.storeEndpoint feat vq₁ addr port found ans.ah, ?_⟩
  simp [VQ.connectImpl, hstart', hgid, VQ.connectFinish, VQ.fetchEndpoint, hkv]

/-- The same Connect without an entry at the metadata server: the part before the fetching
    does not look at what is fetched, and the rest brings what SIDR returns. -/
theorem connectImpl_sidr_iff {feat : Features} {m : Machine} {vq vq₁ : VQ} {addr : Address}
    {port vid : Nat} {ans : ConnectAnswers} {dgid : Gid} {dlid : BitVec 16}
    (hgid : m.parseGid addr.text = some dgid)
    (hstart : VQ.connectStart feat m vq addr port vid ans = .fetching vq₁)
    (hresolve : ans.resolve = .ok dlid) (out : Except Int EndPoint) (ep : EndPoint) :
    (∃ vq', VQ.connectImpl feat m vq addr port vid
        { ans with metaQuery := none, sidrCm := true, sidr := out } = some (vq', .ok, some ep)) ↔
      out = .ok ep := by
  have hstart' : VQ.connectStart feat m vq addr port vid
      { ans with metaQuery := none, sidrCm := true, sidr := out } = .fetching vq₁ := hstart
  obtain ⟨path, vq₂, hpath⟩ : ∃ path vq₂,
      VQ.explorePath m vq₁ port addr dgid ans.resolve = (.ok path, vq₂) := by
    rw [hresolve]
    unfold VQ.explorePath
    split
    · exact ⟨_, _, rfl⟩
    · exact ⟨_, _, rfl⟩
  simp only [VQ.connectImpl, hstart', hgid, VQ.connectFinish, VQ.fetchEndpoint, ite_self, hpath,
    if_true, Option.bind_eq_bind, Option.bind_some]
  cases out with
  | error errno => simp
  | ok point => simp

/-- What a Connect takes from the query is what the same Connect would have got from SIDR,
    which answers `out`. The handle of the endpoint apart, which is made afterwards. -/
def Agrees (feat : Features) (m : Machine) (vq : VQ) (addr : Address) (port vid : Nat)
    (ans : ConnectAnswers) (out : Except Int EndPoint) (found : EndPoint) : Prop :=
  ∀ vq' status fetched,
    VQ.connectImpl feat m vq addr port vid { ans with metaQuery := some found } =
      some (vq', status, some fetched) →
    ∃ vq'' ep, VQ.connectImpl feat m vq addr port vid
        { ans with metaQuery := none, sidrCm := true, sidr := out } = some (vq'', .ok, some ep) ∧
      ep.selfClone = fetched.selfClone

section Agreement

variable {feat : Features} {m : Machine} {vq vq₁ : VQ} {addr : Address} {port vid : Nat}
  {ans : ConnectAnswers} {dlid : BitVec 16} {out : Except Int EndPoint}

theorem agrees_iff (hkv : feat.metaKv = true) (hgid : m.parseGid addr.text = some (h.gid 0))
    (hstart : VQ.connectStart feat m vq addr port vid ans = .fetching vq₁)
    (hresolve : ans.resolve = .ok dlid) (found : EndPoint) :
    Agrees feat m vq addr port vid ans out found ↔
      ∃ ep, out = .ok ep ∧ ep.selfClone = found.selfClone := by
  have hbranch := connectImpl_sidr_iff hgid hstart hresolve out
  obtain ⟨vq', hmeta⟩ := connectImpl_meta hkv hgid hstart found
  constructor
  · intro hagrees
    obtain ⟨vq'', ep, hrun, heq⟩ := hagrees vq' .ok found hmeta
    exact ⟨ep, (hbranch ep).mp ⟨vq'', hrun⟩, heq⟩
  · rintro ⟨ep, hok, heq⟩ vq₂ status fetched hconn
    rw [hmeta] at hconn
    cases hconn
    obtain ⟨vq'', hrun⟩ := (hbranch ep).mpr hok
    exact ⟨vq'', ep, hrun, heq⟩

/-- SIDR does not agree with everything that can lie in a buffer. -/
theorem exists_disagreeing (out : Except Int EndPoint) (gid : Gid) :
    ∃ point : EndPoint, point.gid = gid ∧
      ¬ ∃ ep, out = .ok ep ∧ ep.selfClone = point.selfClone.selfClone := by
  cases out with
  | error errno =>
    refine ⟨{ (default : EndPoint) with gid }, rfl, ?_⟩
    rintro ⟨ep, hout, -⟩
    cases hout
  | ok ep =>
    refine ⟨{ (default : EndPoint) with gid, qpn := ~~~ ep.qpn }, rfl, ?_⟩
    rintro ⟨ep', hout, heq⟩
    cases hout
    have hqpn : ep.qpn = ~~~ ep.qpn := congrArg EndPoint.qpn heq
    have hbit := congrArg (fun x : BitVec 32 => x.getLsbD 0) hqpn
    simp at hbit

/-- Whatever the metadata server has served, as long as the last registration under the gid
    of a node is the node's own and the image still has it, and in whatever way the two READs
    of a Connect to the first NIC of the node end: what the query finds, for any contents of
    the buffer and whatever part of a READ has arrived, is what the SIDR branch would have
    returned, if and only if both READs are successful and the controller that listens to
    the port is controller 2. -/
theorem fetched_agrees_iff {s : RpcServer MetaServer} (hs : LastRegistered cfg h s) {i : Fin 12}
    (hentry : (queryDctMeta cfg.layout s.app.mem (cfg.memPa i) (h.gid 0)).isSome = true)
    (hkv : feat.metaKv = true) (hgid : m.parseGid addr.text = some (h.gid 0)) {q : QueryCfg}
    (hlayout : q.layout = cfg.layout) (hkvPa : q.kvPa = cfg.memPa i)
    (htext : q.strToGid addr.text = some (h.gid 0))
    (hstart : VQ.connectStart feat m vq addr port vid ans = .fetching vq₁)
    (hresolve : ans.resolve = .ok dlid) (hout : h.SidrReturns (h.gid 0) port out)
    (k₁ k₂ : ReadKind) :
    (∀ mem head list found, head.kind = k₁ → list.kind = k₂ →
        q.queryDctMeta s.app.mem mem addr.text head list = some (some found) →
        Agrees feat m vq addr port vid ans out found) ↔
      k₁ = .success ∧ k₂ = .success ∧ port * h.nics = 2 := by
  obtain ⟨hlen, hpos⟩ := hs.current.imageCount hkvPa
  -- Two successful READs find what the node has registered.
  have hsuccess : ∀ mem, q.queryDctMeta s.app.mem mem addr.text .success .success =
      some (some (h.rpcEndPoint 1)) := by
    intro mem
    obtain ⟨p, hp⟩ := Option.isSome_iff_exists.mp hentry
    rw [MetaRoundTrip.queryDctMeta_success htext (Nat.le_trans hlen (by decide)), hlayout, hkvPa,
      hp, hs.current.eq_of_found hp]
  have hagrees := @agrees_iff h feat m vq vq₁ addr port vid ans dlid out hkv hgid hstart hresolve
  obtain ⟨ah, hok⟩ := hout.eq_ok_iff
  constructor
  · intro hall
    -- What SIDR does not return may have been left in the buffer by an earlier query.
    obtain ⟨point, hpoint, hdiffers⟩ := exists_disagreeing out (h.gid 0)
    have hnot : ∀ mem, q.queryDctMeta s.app.mem mem addr.text k₁.bare k₂.bare ≠
        some (some point.selfClone) := fun mem hquery =>
      hdiffers ((hagrees _).mp (hall mem _ _ _ k₁.kind_bare k₂.kind_bare hquery))
    rw [← hpoint] at htext
    obtain ⟨rfl, rfl⟩ := QueryCfg.kinds_success_of_forall_ne point htext (hpos hentry)
      (Nat.lt_of_le_of_lt hlen (by decide)) hnot
    obtain ⟨ep, hep, heq⟩ := (hagrees _).mp
      (hall (fun _ => 0) .success .success _ rfl rfl (hsuccess _))
    obtain ⟨hport, rfl⟩ := (hok ep).mp hep
    exact ⟨rfl, rfl, (h.selfClone_eq_rpcEndPoint_iff hport ah).mp heq⟩
  · rintro ⟨rfl, rfl, hctrl⟩ mem head list found hhead hlist hquery
    obtain rfl := ReadOutcome.eq_success hhead
    obtain rfl := ReadOutcome.eq_success hlist
    rw [hsuccess, Option.some.injEq, Option.some.injEq] at hquery
    subst hquery
    have hport : port < Node.maxServiceNum := by
      have hle : port ≤ port * h.nics := Nat.le_mul_of_pos_right port h.nics_pos
      rw [hctrl] at hle
      exact Nat.lt_of_le_of_lt hle (by decide)
    exact (hagrees _).mpr ⟨_, (hok _).mpr ⟨hport, rfl⟩,
      (h.selfClone_eq_rpcEndPoint_iff hport ah).mpr hctrl⟩

end Agreement

/-! ## A node with two NICs -/

theorem sampleQpn_lt (c : Nat) : (BitVec.ofNat 32 (c % 0x1000000)).toNat < 2 ^ 24 := by
  rw [BitVec.toNat_ofNat]
  exact Nat.lt_of_le_of_lt (Nat.mod_le _ _) (Nat.mod_lt _ (by decide))

def sampleMr (c : Nat) : TempMR := { addr := BitVec.ofNat 64 c, capacity := 0, rkey := 0 }

theorem sampleMr_inj (c c' : Nat) (hc : c < Node.maxServiceNum * 2)
    (hc' : c' < Node.maxServiceNum * 2) (heq : sampleMr c = sampleMr c') : c = c' := by
  have haddr := congrArg (fun mr => mr.addr.toNat) heq
  simp only [Node.maxServiceNum] at hc hc'
  simp only [sampleMr, BitVec.toNat_ofNat] at haddr
  omega

def Host.sample : Host where
  nics := 2
  nics_pos := Nat.two_pos
  lid j := BitVec.ofNat 16 j
  gid j := BitVec.ofNat 128 (97 + j)
  ud c := { qpn := BitVec.ofNat 32 (c % 0x1000000), qkey := 0, qpn_lt := sampleQpn_lt c }
  dctNum c := BitVec.ofNat 32 c
  testMr := sampleMr
  testMr_inj := sampleMr_inj

def sampleAns (metaQuery : Option EndPoint) (sidr : Except Int EndPoint) : ConnectAnswers where
  resolve := .ok 1
  metaQuery := metaQuery
  sidrCm := true
  sidr := sidr
  ah := 1
  rc := .notCreated

def sampleFeatures : Features := { Features.dct with metaKv := true }

/-- The node has registered with an empty registry. -/
theorem lastRegistered_sample :
    ∃ s, LastRegistered MetaConfig.sample .sample s ∧
      queryDctMeta EndPointLayout.packed s.app.mem (MetaConfig.sample.memPa 0) 97 =
        some (Host.sample.rpcEndPoint 1) := by
  have hreq : MetaReq.decode MetaConfig.sample.layout
      (registerSlot EndPointLayout.packed 97 0 (Host.sample.rpcEndPoint 1)) =
        .register 97 0 (Host.sample.rpcEndPoint 1) :=
    decode_register EndPointLayout.packed 97 (by decide) _
  refine ⟨_, ⟨MetaServer.boot, _, [], keyed_boot, ⟨0, by decide, hreq⟩, nofun, ?_, rfl⟩,
    by decide +kernel⟩
  refine Run.guarded_cons_of_step rfl ?_ Run.guarded_nil
  simp only [Admissible, hreq]
  decide

def sampleAh : AhAnswer fun _ => none where
  res := 1
  fresh := fun _ => ⟨by decide, rfl⟩

/-- A client that looks gids up as Connect parses them. -/
def sampleQuery : QueryCfg := { QueryCfg.sample with strToGid := Machine.sample.parseGid }

theorem sampleQuery_success {s : RpcServer MetaServer}
    (hs : LastRegistered MetaConfig.sample .sample s)
    (hquery : queryDctMeta EndPointLayout.packed s.app.mem (MetaConfig.sample.memPa 0) 97 =
      some (Host.sample.rpcEndPoint 1)) (mem : Mem) :
    sampleQuery.queryDctMeta s.app.mem mem (Address.sample 'a').text .success .success =
      some (some (Host.sample.rpcEndPoint 1)) := by
  have hkvPa : sampleQuery.kvPa = MetaConfig.sample.memPa 0 := rfl
  have hlen := (hs.current.imageCount hkvPa).1
  rw [MetaRoundTrip.queryDctMeta_success rfl (Nat.le_trans hlen (by decide))]
  exact congrArg some hquery

/-- Port 0 of a node with two NICs: the entry at the metadata server names another UD,
    another DC target and another buffer than the reply to SIDR. And at port 1, if both READs
    are rejected, the query returns what lies in the buffer. -/
theorem port_zero_fetches_other_ctrl :
    (∃ s found ep vq₁ vq₂, LastRegistered MetaConfig.sample .sample s ∧
      sampleQuery.queryDctMeta s.app.mem (fun _ => 0) (Address.sample 'a').text .success .success =
        some (some found) ∧
      Host.sample.SidrReturns 97 0 (.ok ep) ∧
      VQ.connectImpl sampleFeatures Machine.sample (VQ.opened default) (Address.sample 'a') 0 1
        (sampleAns (some found) (.ok ep)) = some (vq₁, .ok, some found) ∧
      VQ.connectImpl sampleFeatures Machine.sample (VQ.opened default) (Address.sample 'a') 0 1
        (sampleAns none (.ok ep)) = some (vq₂, .ok, some ep) ∧
      found.qpn ≠ ep.qpn ∧ found.dctNum ≠ ep.dctNum ∧ found.mr ≠ ep.mr) ∧
    ∃ s mem found ep vq₁ vq₂, LastRegistered MetaConfig.sample .sample s ∧
      sampleQuery.queryDctMeta s.app.mem mem (Address.sample 'a').text (.rejected (-12))
        (.rejected (-12)) = some (some found) ∧
      Host.sample.SidrReturns 97 1 (.ok ep) ∧
      VQ.connectImpl sampleFeatures Machine.sample (VQ.opened default) (Address.sample 'a') 1 1
        (sampleAns (some found) (.ok ep)) = some (vq₁, .ok, some found) ∧
      VQ.connectImpl sampleFeatures Machine.sample (VQ.opened default) (Address.sample 'a') 1 1
        (sampleAns none (.ok ep)) = some (vq₂, .ok, some ep) ∧
      found.qpn ≠ ep.qpn := by
  obtain ⟨s, hs, hquery⟩ := lastRegistered_sample
  have hport : ∀ port < 2, port < Node.maxServiceNum := fun _ hlt => Nat.lt_trans hlt (by decide)
  constructor
  · exact ⟨s, Host.sample.rpcEndPoint 1, _, _, _, hs, sampleQuery_success hs hquery _,
      Host.sample.sidrReturns_ok (hport 0 (by decide)) sampleAh rfl, rfl, rfl, by decide, by decide,
      by decide⟩
  · have htext : sampleQuery.strToGid (Address.sample 'a').text = some 97 := rfl
    have hrejected : ReadKind.rejected ≠ .success := nofun
    obtain ⟨mem, hstale⟩ := QueryCfg.exists_believed_of_head
      { (default : EndPoint) with gid := 97, qpn := 9 } htext hrejected s.app.mem .rejected
    exact ⟨s, mem, _, _, _, _, hs, hstale,
      Host.sample.sidrReturns_ok (hport 1 (by decide)) sampleAh rfl, rfl, rfl, by decide⟩

/-- Port 1 is served by controller 2, and with both READs successful both branches bring the
    same. -/
theorem fetched_agrees_iff_port_one :
    ∃ s out, LastRegistered MetaConfig.sample .sample s ∧ Host.sample.SidrReturns 97 1 out ∧
      sampleQuery.queryDctMeta s.app.mem (fun _ => 0) (Address.sample 'a').text .success .success =
        some (some (Host.sample.rpcEndPoint 1)) ∧
      Agrees sampleFeatures Machine.sample (VQ.opened default) (Address.sample 'a') 1 1
        (sampleAns none out) out (Host.sample.rpcEndPoint 1) := by
  obtain ⟨s, hs, hquery⟩ := lastRegistered_sample
  have hport : 1 < Node.maxServiceNum := by decide
  have hsidr := Host.sample.sidrReturns_ok hport sampleAh rfl
  have hsuccess := sampleQuery_success hs hquery fun _ => 0
  have hentry : (queryDctMeta MetaConfig.sample.layout s.app.mem (MetaConfig.sample.memPa 0)
      (Host.sample.gid 0)).isSome = true := Option.isSome_iff_exists.mpr ⟨_, hquery⟩
  exact ⟨s, _, hs, hsidr, hsuccess, (fetched_agrees_iff hs hentry rfl rfl rfl rfl rfl rfl rfl hsidr
    .success .success).mpr ⟨rfl, rfl, rfl⟩ _ _ _ _ rfl rfl hsuccess⟩

end FastPath
