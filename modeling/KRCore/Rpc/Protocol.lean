-- SUMMARY: The metadata service: its registry, the memory images it publishes, its RPC handlers, and the one-sided query.
import Mathlib.Data.List.AList
import KRCore.Rpc.Server

/-!
# The metadata service

The metadata server keeps the endpoints of all nodes twice: in the map
`META_INFO`, which the RPC handlers use, and as an image in each of twelve
memory regions, which clients read with one-sided operations. Memory is
addressed by physical addresses.
-/

/-- `META_INFO`. -/
abbrev MetaInfo := AList fun _ : List Char => EndPoint

/-- `get_remote_dc_meta`. -/
def MetaInfo.get (info : MetaInfo) (key : List Char) : Option EndPoint := AList.lookup key info

theorem MetaInfo.get_erase_self (info : MetaInfo) (key : List Char) :
    MetaInfo.get (info.erase key) key = none := AList.lookup_erase ..

theorem MetaInfo.get_erase_of_ne {info : MetaInfo} {key key' : List Char} (h : key' ≠ key) :
    MetaInfo.get (info.erase key) key' = info.get key' := AList.lookup_erase_ne h

theorem MetaInfo.get_insert_self (info : MetaInfo) (key : List Char) (point : EndPoint) :
    MetaInfo.get (info.insert key point) key = some point := AList.lookup_insert _

theorem MetaInfo.get_insert_of_ne {info : MetaInfo} {key key' : List Char} (point : EndPoint)
    (h : key' ≠ key) : MetaInfo.get (info.insert key point) key' = info.get key' :=
  AList.lookup_insert_ne h

theorem MetaInfo.get_eq_some_iff {info : MetaInfo} {key : List Char} {point : EndPoint} :
    info.get key = some point ↔ (⟨key, point⟩ : Sigma fun _ => EndPoint) ∈ info.entries :=
  AList.mem_lookup_iff

/-- The size of a region of `GLOBAL_MEM`. -/
def globalMemSz : Nat := 1024 * 4

/-- What is fixed on the metadata server. `order n` is the order in which the
    `n`-th registration finds the entries of the map. -/
structure MetaConfig where
  layout : EndPointLayout
  gidToStr : Gid → List Char
  memPa : Fin 12 → Nat
  order : Nat → MetaInfo → List (Sigma fun _ : List Char => EndPoint)
  order_perm : ∀ n info, (order n info).Perm info.entries
  apart : ∀ i j, i ≠ j → memPa i + globalMemSz ≤ memPa j ∨ memPa j + globalMemSz ≤ memPa i
  memPa_lt : ∀ i, memPa i < 256 ^ 8

/-- `get_global_test_mem_pa`. -/
def MetaConfig.getGlobalTestMemPa (cfg : MetaConfig) (idx : Nat) : Nat :=
  cfg.memPa (Fin.ofNat 12 idx)

/-- The state that the handlers work on. -/
structure MetaServer where
  info : MetaInfo
  mem : Mem
  registrations : Nat

/-- `RPCReqType`. -/
inductive RPCReqType where
  | dummy
  | registerDCMeta
  | deregisterDcMeta
  | queryDCMeta
deriving DecidableEq

def RPCReqType.value : RPCReqType → UInt8
  | .dummy => 0
  | .registerDCMeta => 1
  | .deregisterDcMeta => 2
  | .queryDCMeta => 3

def RPCReqType.ofValue (v : UInt8) : Option RPCReqType :=
  [RPCReqType.dummy, .registerDCMeta, .deregisterDcMeta, .queryDCMeta].find? fun t => t.value = v

theorem RPCReqType.ofValue_value (t : RPCReqType) : ofValue t.value = some t := by
  cases t <;> rfl

/-! ## The images -/

/-- The 16 raw bytes of a gid at an address. -/
def readGid (mem : Mem) (addr : Nat) : Gid := BitVec.ofNat 128 (Word.ofBytes (mem.read addr 16))

/-- The entries of an image, from number `idx` on. -/
def writeEntries (L : EndPointLayout) (base : Nat) : Nat → List EndPoint → Mem → Mem
  | _, [], mem => mem
  | idx, e :: es, mem =>
    writeEntries L base (idx + 1) es (mem.write (base + 8 + idx * endPointSz) (L.enc e.selfClone))

/-- An image: the number of entries, and the entries behind it. -/
def writeImage (L : EndPointLayout) (base : Nat) (es : List EndPoint) (mem : Mem) : Mem :=
  (writeEntries L base 0 es mem).write base (Word.toBytes 8 es.length)

/-- The loop of `reg_dc_meta_handler` over the regions. -/
def writeImages (cfg : MetaConfig) (es : List EndPoint) : List (Fin 12) → Mem → Mem
  | [], mem => mem
  | i :: is, mem => writeImages cfg es is (writeImage cfg.layout (cfg.memPa i) es mem)

/-- `VQ::query_dct_meta` on the image at `base`. -/
def queryDctMeta (L : EndPointLayout) (mem : Mem) (base : Nat) (gid : Gid) : Option EndPoint :=
  (List.range (Word.ofBytes (mem.read base 8))).findSome? fun i =>
    let point := L.readAt mem (base + 8 + i * endPointSz)
    if point.gid = gid then some point.selfClone else none

/-! ## The handlers -/

section Handlers

variable (cfg : MetaConfig)

/-- `put_remote_dc_meta` and the images. -/
def MetaServer.register (s : MetaServer) (gid : Gid) (point : EndPoint) : MetaServer :=
  let info := s.info.insert (cfg.gidToStr gid) point.selfClone
  { info
    mem := writeImages cfg ((cfg.order s.registrations info).map Sigma.snd) (List.finRange 12) s.mem
    registrations := s.registrations + 1 }

/-- `evict_remote_dc_meta`. The images are not touched. -/
def MetaServer.deregister (s : MetaServer) (gid : Gid) : MetaServer :=
  { s with info := s.info.erase (cfg.gidToStr gid) }

def regDcMetaHandler : RpcHandler MetaServer := fun s req va buf =>
  let gid := readGid req va
  let port := Word.ofBytes (req.read (va + 16) 8)
  let point := cfg.layout.readAt req (va + 24)
  (s.register cfg gid point, buf.write 0 (Word.toBytes 8 (cfg.getGlobalTestMemPa port)), 64)

def deregDcMetaHandler : RpcHandler MetaServer := fun s req va buf =>
  (s.deregister cfg (readGid req va), buf.write 0 (Word.toBytes 8 0), 64)

/-- When there is no entry, nothing is written. -/
def queryDcMetaHandler : RpcHandler MetaServer := fun s req va buf =>
  match s.info.get (cfg.gidToStr (readGid req va)) with
  | none => (s, buf, 0)
  | some point => (s, buf.write 0 (cfg.layout.enc point.selfClone), endPointSz)

/-- The handlers that `RPCClient::create` and `fill_handler_table` register. -/
def metaHandler : RPCReqType → RpcHandler MetaServer
  | .dummy => RpcServer.dummyHandler
  | .registerDCMeta => regDcMetaHandler cfg
  | .deregisterDcMeta => deregDcMetaHandler cfg
  | .queryDCMeta => queryDcMetaHandler cfg

def metaHandlers (reqType : UInt8) : Option (RpcHandler MetaServer) :=
  (RPCReqType.ofValue reqType).map (metaHandler cfg)

end Handlers

/-! ## What the server does with a request -/

/-- A request as the server reads it from a receive slot. -/
inductive MetaReq where
  | dummy
  | register (gid : Gid) (port : Nat) (point : EndPoint)
  | deregister (gid : Gid)
  | query (gid : Gid)
  | unknown

namespace MetaReq

def decode (L : EndPointLayout) (slot : Mem) : MetaReq :=
  let va := udHeaderSz + headerSz
  match RPCReqType.ofValue (slot udHeaderSz) with
  | none => .unknown
  | some .dummy => .dummy
  | some .registerDCMeta =>
    .register (readGid slot va) (Word.ofBytes (slot.read (va + 16) 8)) (L.readAt slot (va + 24))
  | some .deregisterDcMeta => .deregister (readGid slot va)
  | some .queryDCMeta => .query (readGid slot va)

/-- The bytes that a request makes the server write into its send buffer. -/
def written (cfg : MetaConfig) (info : MetaInfo) : MetaReq → List UInt8
  | .dummy => Word.toBytes 8 1024
  | .register _ port _ => Word.toBytes 8 (cfg.getGlobalTestMemPa port)
  | .deregister _ => Word.toBytes 8 0
  | .query gid => ((info.get (cfg.gidToStr gid)).map fun p => cfg.layout.enc p.selfClone).getD []
  | .unknown => []

end MetaReq

def MetaServer.apply (cfg : MetaConfig) (s : MetaServer) : MetaReq → MetaServer
  | .register gid _ point => s.register cfg gid point
  | .deregister gid => s.deregister cfg gid
  | _ => s

/-- One request: the state changes as the request says, and the reply is written
    at the beginning of the send buffer. -/
theorem handleOne_meta (cfg : MetaConfig) (slot : Mem) (s : RpcServer MetaServer) :
    (RpcServer.handleOne cfg.layout (metaHandlers cfg) slot s).1 =
      { app := s.app.apply cfg (MetaReq.decode cfg.layout slot)
        sendBuf := s.sendBuf.write 0 ((MetaReq.decode cfg.layout slot).written cfg s.app.info) } := by
  simp only [RpcServer.handleOne, metaHandlers, MetaReq.decode, Header.readAt]
  cases RPCReqType.ofValue (slot udHeaderSz) with
  | none => simp [MetaReq.written, MetaServer.apply, Mem.write_nil]
  | some t =>
    cases t with
    | dummy => rfl
    | registerDCMeta => rfl
    | deregisterDcMeta => rfl
    | queryDCMeta =>
      simp only [Option.map_some, metaHandler, queryDcMetaHandler, MetaReq.written, MetaServer.apply]
      cases s.app.info.get (cfg.gidToStr (readGid slot (udHeaderSz + headerSz))) with
      | none => simp [Mem.write_nil]
      | some point => rfl

/-- The server after a list of requests. -/
def RpcServer.serveAll (cfg : MetaConfig) (s : RpcServer MetaServer) (slots : List Mem) :
    RpcServer MetaServer :=
  slots.foldl (fun s slot => (RpcServer.handleOne cfg.layout (metaHandlers cfg) slot s).1) s

theorem RpcServer.serveAll_concat (cfg : MetaConfig) (s : RpcServer MetaServer) (slots : List Mem)
    (slot : Mem) : s.serveAll cfg (slots ++ [slot]) =
      (RpcServer.handleOne cfg.layout (metaHandlers cfg) slot (s.serveAll cfg slots)).1 := by
  simp [serveAll, List.foldl_append]

/-! ## Requests in memory -/

/-- A receive slot that holds a request with the given type and payload. -/
def requestSlot (t : UInt8) (payload : List UInt8) : Mem :=
  (Mem.write (fun _ => 0) udHeaderSz [t]).write (udHeaderSz + headerSz) payload

theorem requestSlot_type (t : UInt8) (payload : List UInt8) :
    requestSlot t payload udHeaderSz = t := by
  rw [requestSlot, Mem.write_of_outside (.inl (by decide))]
  have h : 0 < [t].length := by simp
  exact Mem.write_add (fun _ => 0) udHeaderSz h

theorem requestSlot_payload (t : UInt8) (payload : List UInt8) :
    (requestSlot t payload).read (udHeaderSz + headerSz) payload.length = payload :=
  Mem.read_write_self ..

theorem readGid_toBytes {mem : Mem} {addr : Nat} {gid : Gid}
    (h : mem.read addr 16 = Word.toBytes 16 gid.toNat) : readGid mem addr = gid := by
  rw [readGid, h, Word.ofBytes_toBytes_of_lt gid.isLt, BitVec.ofNat_toNat, BitVec.setWidth_eq]

theorem decode_dummy (L : EndPointLayout) :
    MetaReq.decode L (requestSlot RPCReqType.dummy.value []) = .dummy := by
  simp only [MetaReq.decode, requestSlot_type, RPCReqType.ofValue_value]

def deregisterSlot (gid : Gid) : Mem :=
  requestSlot RPCReqType.deregisterDcMeta.value (Word.toBytes 16 gid.toNat)

def querySlot (gid : Gid) : Mem :=
  requestSlot RPCReqType.queryDCMeta.value (Word.toBytes 16 gid.toNat)

theorem decode_deregister (L : EndPointLayout) (gid : Gid) :
    MetaReq.decode L (deregisterSlot gid) = .deregister gid := by
  have hgid := requestSlot_payload RPCReqType.deregisterDcMeta.value (Word.toBytes 16 gid.toNat)
  rw [Word.toBytes_length] at hgid
  simp only [deregisterSlot, MetaReq.decode, requestSlot_type, RPCReqType.ofValue_value,
    readGid_toBytes hgid]

/-- The slot with a registration, as `call_reg_dc_meta` sends it. -/
def registerSlot (L : EndPointLayout) (gid : Gid) (port : Nat) (point : EndPoint) : Mem :=
  requestSlot RPCReqType.registerDCMeta.value
    (Word.toBytes 16 gid.toNat ++ (Word.toBytes 8 port ++ L.enc point))

/-- The server reads the registration that the client wrote. -/
theorem decode_register (L : EndPointLayout) (gid : Gid) {port : Nat} (hport : port < 256 ^ 8)
    (point : EndPoint) :
    MetaReq.decode L (registerSlot L gid port point) = .register gid port point := by
  have hpayload := requestSlot_payload RPCReqType.registerDCMeta.value
    (Word.toBytes 16 gid.toNat ++ (Word.toBytes 8 port ++ L.enc point))
  rw [List.length_append, List.length_append, Word.toBytes_length, Word.toBytes_length,
    L.enc_length, Mem.read_add, Mem.read_add] at hpayload
  obtain ⟨hgid, hrest⟩ := List.append_inj hpayload (by simp)
  obtain ⟨hword, hpoint⟩ := List.append_inj hrest (by simp)
  rw [Nat.add_assoc _ 16 8] at hpoint
  simp only [registerSlot, MetaReq.decode, requestSlot_type, RPCReqType.ofValue_value,
    readGid_toBytes hgid, hword, Word.ofBytes_toBytes_of_lt hport,
    EndPointLayout.readAt_of_read hpoint]

/-! ## A sample server -/

def MetaConfig.sample : MetaConfig where
  layout := EndPointLayout.packed
  gidToStr gid := List.replicate gid.toNat '0'
  memPa i := globalMemSz * i
  order _ info := info.entries
  order_perm _ _ := List.Perm.refl _
  apart i j h := by
    have : (i : Nat) ≠ j := fun heq => h (Fin.ext heq)
    simp only [globalMemSz]
    omega
  memPa_lt i := by
    have := i.isLt
    simp only [globalMemSz]
    omega

/-- The server before the first request. All its memory is zero. -/
def MetaServer.boot : RpcServer MetaServer where
  app := { info := ∅, mem := fun _ => 0, registrations := 0 }
  sendBuf := fun _ => 0

/-- The endpoint of the node with gid 1. -/
def nodeOne : EndPoint := { (default : EndPoint) with qpn := 7, gid := 1 }
