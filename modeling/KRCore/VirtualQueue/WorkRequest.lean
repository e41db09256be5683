-- SUMMARY: The user's requests, the work requests that RC and DC make of them, and when the two transports agree.
import Mathlib.Data.List.TakeWhile
import KRCore.Base.Word
import KRCore.Qp.RecvHelper
import KRCore.VirtualQueue.Connect

/-!
# Work requests

A client-mode Push turns the requests of the user into send work requests, in
`rc_push_impl` if the queue has an RC and in `dc_push_impl` otherwise. The two
loops compute the same parameters; what they hand them to differs. The driver
answers every `ib_post_send` with an error code, zero for success.
-/

/-- `ib_wr_opcode`, the five operations that the module uses. -/
inductive WrOpcode where
  | rdmaRead
  | rdmaWrite
  | send
  | sendWithImm
  | rdmaWriteWithImm
deriving DecidableEq, Repr

/-- The operation carries immediate data. -/
def WrOpcode.hasImm : WrOpcode → Bool
  | .sendWithImm => true
  | .rdmaWriteWithImm => true
  | _ => false

/-- The operation names memory of the peer. -/
def WrOpcode.oneSided : WrOpcode → Bool
  | .rdmaRead => true
  | .rdmaWrite => true
  | .rdmaWriteWithImm => true
  | .send => false
  | .sendWithImm => false

/-- `op_code_table` on the numbers of `lib_r_req`; `none` is `unimplemented!()`. -/
def opCodeTable (op : BitVec 32) : Option WrOpcode :=
  match op.toNat with
  | 0 => some .rdmaRead
  | 1 => some .rdmaWrite
  | 2 => some .send
  | 3 => some .sendWithImm
  | 4 => some .rdmaWriteWithImm
  | _ => none

theorem opCodeTable_isSome_iff (op : BitVec 32) : (opCodeTable op).isSome = true ↔ op.toNat < 5 := by
  unfold opCodeTable
  split <;> simp_all
  omega

/-- `core_req_t`, without the keys, which nothing reads. -/
structure CoreReq where
  addr : BitVec 64
  length : BitVec 32
  remoteAddr : BitVec 64
  sendFlags : BitVec 32
  vid : BitVec 32
  type : BitVec 32
deriving DecidableEq, Repr

/-- The two `ib_send_flags` that the module sets. -/
structure SendFlags where
  signaled : Bool
  inline : Bool
deriving DecidableEq, Repr

/-- An `ib_rdma_wr` with its scatter entry. -/
structure SendWr where
  opcode : WrOpcode
  sge : IbSge
  sendFlags : SendFlags
  immData : BitVec 32
  remoteAddr : Nat
  rkey : BitVec 32
deriving DecidableEq, Repr

/-- An `ib_dc_wr`. -/
structure DcWr extends SendWr where
  ah : BitVec 64
  dctAccessKey : Nat
  dctNumber : BitVec 32
deriving DecidableEq, Repr

/-- An `ib_ud_wr`. -/
structure UdWr where
  opcode : WrOpcode
  sge : IbSge
  sendFlags : SendFlags
  immData : BitVec 32
  remoteQpn : BitVec 32
  remoteQkey : BitVec 32
  ah : BitVec 64
deriving DecidableEq, Repr

/-! ## The operations -/

/-- `RCOp::push_with_imm`, up to `post_send`. -/
def RCOp.pushWithImm (op : WrOpcode) (localPtr : Nat) (lkey : BitVec 32) (sz remoteAddr : Nat)
    (rkey immData : BitVec 32) (sendFlag : SendFlags) : SendWr where
  opcode := op
  sge := { addr := localPtr, length := sz % 2 ^ 32, lkey := lkey.toNat }
  sendFlags := sendFlag
  immData
  remoteAddr
  rkey

/-- `DCOp::push_with_imm`, up to `post_send`. -/
def DCOp.pushWithImm (op : WrOpcode) (localPtr : Nat) (lkey : BitVec 32) (sz remoteAddr : Nat)
    (rkey : BitVec 32) (endPoint : EndPoint) (sendFlag : SendFlags) (immData : BitVec 32) : DcWr where
  opcode := op
  sge := { addr := localPtr, length := sz % 2 ^ 32, lkey := lkey.toNat }
  sendFlags := sendFlag
  immData
  remoteAddr
  rkey
  ah := endPoint.ah
  dctAccessKey := 73
  dctNumber := endPoint.dctNum

/-- `DCOp::push`, up to `post_send`: the immediate data keeps its default. -/
def DCOp.push (op : WrOpcode) (localPtr : Nat) (lkey : BitVec 32) (sz remoteAddr : Nat)
    (rkey : BitVec 32) (endPoint : EndPoint) (sendFlag : SendFlags) : DcWr :=
  DCOp.pushWithImm op localPtr lkey sz remoteAddr rkey endPoint sendFlag 0

/-- `UDOp::push`, up to `post_send`. -/
def UDOp.push (op : WrOpcode) (localPtr : Nat) (lkey : BitVec 32) (endPoint : EndPoint) (sz : Nat)
    (immData : BitVec 32) (sendFlag : SendFlags) : UdWr where
  opcode := op
  sge := { addr := localPtr, length := sz % 2 ^ 32, lkey := lkey.toNat }
  sendFlags := sendFlag
  immData
  remoteQpn := endPoint.qpn
  remoteQkey := endPoint.qkey
  ah := endPoint.ah

/-- `UDOp::send`, up to `post_send`. -/
def UDOp.send (localPtr : Nat) (lkey : BitVec 32) (endPoint : EndPoint) (sz : Nat) : UdWr :=
  UDOp.push .send localPtr lkey endPoint sz 0 { signaled := true, inline := false }

/-! ## The translation of a request -/

/-- What both loops compute for a request. -/
structure SendParams where
  opCode : WrOpcode
  laddr : Nat
  raddr : Nat
  length : Nat
  sendFlag : SendFlags
deriving DecidableEq, Repr

/-- The inline check: a short write is sent inline, from its virtual address. -/
def inlineCheck (paToVa : Nat → Nat) (opCode : WrOpcode) (length laddr : Nat) : Nat × Bool :=
  if length < 64 then
    match opCode with
    | .rdmaWrite => (paToVa laddr, true)
    | .rdmaWriteWithImm => (paToVa laddr, true)
    | _ => (laddr, false)
  else (laddr, false)

/-- The body of the two loops up to the operation. `none` is a panic: an address
    overflows, or the type is unknown. -/
def sendParams (paToVa : Nat → Nat) (localMr remoteMr : TempMR) (req : CoreReq) :
    Option SendParams := do
  let laddr ← Word.checkedAdd 64 localMr.addr.toNat req.addr.toNat
  let raddr ← Word.checkedAdd 64 req.remoteAddr.toNat remoteMr.addr.toNat
  let opCode ← opCodeTable req.type
  let (laddr, inline) := inlineCheck paToVa opCode req.length.toNat laddr
  some
    { opCode, laddr, raddr, length := req.length.toNat,
      sendFlag := { signaled := req.sendFlags ≠ 0, inline } }

/-- The addresses of the request do not overflow, and its type is one of the five. -/
def CoreReq.translatable (localMr remoteMr : TempMR) (req : CoreReq) : Bool :=
  localMr.addr.toNat + req.addr.toNat < 2 ^ 64 &&
    req.remoteAddr.toNat + remoteMr.addr.toNat < 2 ^ 64 && req.type.toNat < 5

theorem sendParams_isSome_iff (paToVa : Nat → Nat) (localMr remoteMr : TempMR) (req : CoreReq) :
    (sendParams paToVa localMr remoteMr req).isSome = true ↔
      req.translatable localMr remoteMr = true := by
  have hop := opCodeTable_isSome_iff req.type
  simp only [sendParams, CoreReq.translatable, Word.checkedAdd, Option.bind_eq_bind,
    Bool.and_eq_true, decide_eq_true_eq, ← hop]
  split
  · split
    · cases opCodeTable req.type <;> simp_all
    · simp_all
  · simp_all

theorem sendParams_eq_some {paToVa : Nat → Nat} {localMr remoteMr : TempMR} {req : CoreReq}
    {p : SendParams} (h : sendParams paToVa localMr remoteMr req = some p) :
    opCodeTable req.type = some p.opCode ∧ p.sendFlag.signaled = decide (req.sendFlags ≠ 0) := by
  simp only [sendParams, Option.bind_eq_bind, Option.bind_eq_some_iff] at h
  obtain ⟨laddr, -, raddr, -, opCode, hop, hp⟩ := h
  cases hp
  exact ⟨hop, rfl⟩

/-! ## The loops -/

/-- What a batch has handed to the driver, with the answers, and the reply; `none`
    is a panic. -/
structure Pushed (ω : Type) where
  posted : List (ω × Int)
  reply : Option ReplyStatus

/-- The loop over a batch: the first error ends it. -/
def pushLoop {ω : Type} (build : CoreReq → Option ω) (ans : Nat → Int) :
    Nat → List CoreReq → Pushed ω
  | _, [] => { posted := [], reply := some .ok }
  | idx, req :: reqs =>
    match build req with
    | none => { posted := [], reply := none }
    | some wr =>
      if ans idx = 0 then
        let rest := pushLoop build ans (idx + 1) reqs
        { posted := (wr, 0) :: rest.posted, reply := rest.reply }
      else { posted := [(wr, ans idx)], reply := some .err }

namespace Pushed

def map {ω ω' : Type} (f : ω → ω') (p : Pushed ω) : Pushed ω' :=
  { posted := p.posted.map fun q => (f q.1, q.2), reply := p.reply }

theorem map_map {ω ω' ω'' : Type} (g : ω' → ω'') (f : ω → ω') (p : Pushed ω) :
    (p.map f).map g = p.map fun wr => g (f wr) := by
  simp only [map, List.map_map, Pushed.mk.injEq, and_true]
  rfl

end Pushed

section Loop

variable {ω ω' : Type} {build : CoreReq → Option ω}

/-- Two builders that correspond make two loops that do. -/
theorem pushLoop_map {build' : CoreReq → Option ω'} {f : ω → ω'}
    (h : ∀ req, build' req = (build req).map f) (ans : Nat → Int) (idx : Nat)
    (reqs : List CoreReq) :
    pushLoop build' ans idx reqs = (pushLoop build ans idx reqs).map f := by
  induction reqs generalizing idx with
  | nil => rfl
  | cons req reqs ih =>
    unfold pushLoop
    rw [h req, ih]
    cases build req with
    | none => rfl
    | some wr =>
      simp only [Option.map_some]
      split <;> rfl

/-- What has been posted stems from requests before the first that cannot be built. -/
theorem exists_of_mem_posted {ans : Nat → Int} {idx : Nat} {reqs : List CoreReq} {p : ω × Int}
    (h : p ∈ (pushLoop build ans idx reqs).posted) :
    ∃ req ∈ reqs.takeWhile fun req => (build req).isSome, build req = some p.1 := by
  induction reqs generalizing idx with
  | nil => cases h
  | cons req reqs ih =>
    unfold pushLoop at h
    cases hb : build req with
    | none => simp [hb] at h
    | some wr =>
      rw [List.takeWhile_cons_of_pos (by simp [hb])]
      simp only [hb] at h
      split at h
      · rcases List.mem_cons.mp h with rfl | h
        · exact ⟨req, List.mem_cons_self, hb⟩
        · obtain ⟨r, hr, hbr⟩ := ih h
          exact ⟨r, List.mem_cons_of_mem _ hr, hbr⟩
      · rw [List.mem_singleton.mp h]
        exact ⟨req, List.mem_cons_self, hb⟩

/-- A driver that accepts everything gets all of these. -/
theorem mem_posted_of_accepting {idx : Nat} {reqs : List CoreReq} {req : CoreReq} {wr : ω}
    (hreq : req ∈ reqs.takeWhile fun req => (build req).isSome) (hwr : build req = some wr) :
    (wr, 0) ∈ (pushLoop build (fun _ => 0) idx reqs).posted := by
  induction reqs generalizing idx with
  | nil => cases hreq
  | cons r reqs ih =>
    unfold pushLoop
    cases hb : build r with
    | none =>
      rw [List.takeWhile_cons_of_neg (by simp [hb])] at hreq
      cases hreq
    | some wr₀ =>
      rw [List.takeWhile_cons_of_pos (by simp [hb])] at hreq
      rcases List.mem_cons.mp hreq with rfl | hreq
      · rw [hb, Option.some.injEq] at hwr
        simp [hwr]
      · exact List.mem_cons_of_mem _ (ih hreq)

/-- A batch of which every request can be built gets its reply. -/
theorem pushLoop_reply_isSome {ans : Nat → Int} {idx : Nat} {reqs : List CoreReq}
    (h : ∀ req ∈ reqs, (build req).isSome = true) :
    (pushLoop build ans idx reqs).reply.isSome = true := by
  induction reqs generalizing idx with
  | nil => rfl
  | cons req reqs ih =>
    obtain ⟨wr, hwr⟩ := Option.isSome_iff_exists.mp (h req List.mem_cons_self)
    unfold pushLoop
    simp only [hwr]
    split
    · exact ih fun r hr => h r (List.mem_cons_of_mem _ hr)
    · rfl

end Loop

/-- The work request of `rc_push_impl`. -/
def rcWr (paToVa : Nat → Nat) (localMr remoteMr : TempMR) (req : CoreReq) : Option SendWr :=
  (sendParams paToVa localMr remoteMr req).map fun p =>
    RCOp.pushWithImm p.opCode p.laddr localMr.rkey p.length p.raddr remoteMr.rkey req.vid p.sendFlag

/-- The work request of `dc_push_impl`. -/
def dcWr (paToVa : Nat → Nat) (localMr : TempMR) (point : EndPoint) (req : CoreReq) : Option DcWr :=
  (sendParams paToVa localMr point.mr req).map fun p =>
    DCOp.push p.opCode p.laddr localMr.rkey p.length p.raddr point.mr.rkey point p.sendFlag

namespace VQ

/-- `rc_push_impl`. `remoteMr` is the memory region that the peer of an RC sent in
    its reply. -/
def rcPushImpl (paToVa : Nat → Nat) (remoteMr : Nat → TempMR) (vq : VQ) (reqs : List CoreReq)
    (ans : Nat → Int) : Pushed SendWr :=
  match vq.virtualQueue with
  | none => { posted := [], reply := some .nil }
  | some rc => pushLoop (rcWr paToVa vq.localCache.localMr (remoteMr rc.id)) ans 0 reqs

/-- `dc_push_impl`. Without a remote endpoint it panics. -/
def dcPushImpl (paToVa : Nat → Nat) (vq : VQ) (reqs : List CoreReq) (ans : Nat → Int) :
    Pushed DcWr :=
  match vq.localDc, vq.localCache.remoteEndpoint with
  | none, _ => { posted := [], reply := some .nil }
  | some _, none => { posted := [], reply := none }
  | some _, some point => pushLoop (dcWr paToVa vq.localCache.localMr point) ans 0 reqs

end VQ

/-! ## RC and DC -/

/-- A work request without its immediate data. -/
def SendWr.withoutImm (wr : SendWr) : SendWr := { wr with immData := 0 }

/-- What the peer can see of a work request: immediate data only if the operation
    carries it. -/
def SendWr.visible (wr : SendWr) : SendWr := if wr.opcode.hasImm then wr else wr.withoutImm

/-- The two transports have posted the same, request by request, as far as `view`
    shows it, got the same answers and reply the same. -/
def Interchangeable (view : SendWr → SendWr) (rc : Pushed SendWr) (dc : Pushed DcWr) : Prop :=
  rc.map view = dc.map fun wr => view wr.toSendWr

theorem SendWr.withoutImm_eq_iff (wr : SendWr) : wr = wr.withoutImm ↔ wr.immData = 0 := by
  constructor
  · intro h
    rw [h]
    rfl
  · intro h
    rw [withoutImm, ← h]

theorem SendWr.visible_withoutImm_iff (wr : SendWr) :
    wr.visible = wr.withoutImm.visible ↔ (wr.opcode.hasImm = true → wr.immData = 0) := by
  unfold visible
  cases himm : wr.opcode.hasImm with
  | false => simp [withoutImm, himm]
  | true =>
    rw [if_pos rfl, if_pos (show wr.withoutImm.opcode.hasImm = true from himm), withoutImm_eq_iff]
    exact ⟨fun h _ => h, fun h => h rfl⟩

section Agreement

variable {paToVa : Nat → Nat} {localMr : TempMR} {point : EndPoint} {view : SendWr → SendWr}

/-- The DC's work request is the RC's without the immediate data. -/
theorem dcWr_toSendWr (req : CoreReq) :
    (dcWr paToVa localMr point req).map DcWr.toSendWr =
      (rcWr paToVa localMr point.mr req).map SendWr.withoutImm := by
  simp only [dcWr, rcWr, Option.map_map]
  rfl

theorem rcWr_isSome {remoteMr : TempMR} (req : CoreReq) :
    (rcWr paToVa localMr remoteMr req).isSome = req.translatable localMr remoteMr := by
  rw [rcWr, Option.isSome_map, Bool.eq_iff_iff, sendParams_isSome_iff]

theorem rcWr_eq_some {remoteMr : TempMR} {req : CoreReq} {wr : SendWr}
    (h : rcWr paToVa localMr remoteMr req = some wr) :
    opCodeTable req.type = some wr.opcode ∧ wr.immData = req.vid := by
  simp only [rcWr, Option.map_eq_some_iff] at h
  obtain ⟨p, hp, rfl⟩ := h
  exact ⟨(sendParams_eq_some hp).1, rfl⟩

/-- The loops agree exactly if nothing the RC loop has posted shows its immediate
    data. -/
theorem interchangeable_pushLoop_iff (ans : Nat → Int) (reqs : List CoreReq) :
    Interchangeable view (pushLoop (rcWr paToVa localMr point.mr) ans 0 reqs)
        (pushLoop (dcWr paToVa localMr point) ans 0 reqs) ↔
      ∀ p ∈ (pushLoop (rcWr paToVa localMr point.mr) ans 0 reqs).posted,
        view p.1 = view p.1.withoutImm := by
  have hdc : (pushLoop (dcWr paToVa localMr point) ans 0 reqs).map DcWr.toSendWr =
      (pushLoop (rcWr paToVa localMr point.mr) ans 0 reqs).map SendWr.withoutImm := by
    rw [← @pushLoop_map _ _ (dcWr paToVa localMr point) _ DcWr.toSendWr (fun _ => rfl),
      ← @pushLoop_map _ _ (rcWr paToVa localMr point.mr) _ SendWr.withoutImm (fun _ => rfl)]
    exact congrArg (pushLoop · ans 0 reqs) (funext dcWr_toSendWr)
  have hview : (pushLoop (dcWr paToVa localMr point) ans 0 reqs).map (fun wr => view wr.toSendWr) =
      (pushLoop (rcWr paToVa localMr point.mr) ans 0 reqs).map fun wr => view wr.withoutImm := by
    rw [← Pushed.map_map view, hdc, Pushed.map_map]
  rw [Interchangeable, hview]
  simp only [Pushed.map, Pushed.mk.injEq, and_true, List.map_inj_left, Prod.mk.injEq]

theorem interchangeable_iff (reqs : List CoreReq) :
    (∀ ans, Interchangeable view (pushLoop (rcWr paToVa localMr point.mr) ans 0 reqs)
        (pushLoop (dcWr paToVa localMr point) ans 0 reqs)) ↔
      ∀ req ∈ reqs.takeWhile (·.translatable localMr point.mr), ∀ wr,
        rcWr paToVa localMr point.mr req = some wr → view wr = view wr.withoutImm := by
  simp only [interchangeable_pushLoop_iff, ← @rcWr_isSome paToVa]
  constructor
  · intro h req hreq wr hwr
    exact h (fun _ => 0) _ (mem_posted_of_accepting hreq hwr)
  · intro h ans p hp
    obtain ⟨req, hreq, hwr⟩ := exists_of_mem_posted hp
    exact h req hreq p.1 hwr

end Agreement

/-- The immediate data of a request shows in what its RC sends. -/
theorem forall_rcWr_iff {paToVa : Nat → Nat} {localMr remoteMr : TempMR} {req : CoreReq}
    {Q : WrOpcode → BitVec 32 → Prop} (h : req.translatable localMr remoteMr = true) :
    (∀ wr, rcWr paToVa localMr remoteMr req = some wr → Q wr.opcode wr.immData) ↔
      ∀ op ∈ opCodeTable req.type, Q op req.vid := by
  rw [← @rcWr_isSome paToVa, Option.isSome_iff_exists] at h
  obtain ⟨wr, hwr⟩ := h
  obtain ⟨hop, himm⟩ := rcWr_eq_some hwr
  simp [hwr, hop, himm]

/-- A queue with an RC and a DC that lead to the same memory posts the same over
    both, for every request list and every driver: what the peer can see agrees
    exactly if the requests that carry immediate data have the `vid` zero, and every
    field agrees exactly if all requests have it. Requests after one whose addresses
    overflow do not matter, since both loops panic there. -/
theorem VQ.rc_dc_interchangeable_iff (paToVa : Nat → Nat) (remoteMr : Nat → TempMR) (vq : VQ)
    {rc : RC} {dc : Nat} {point : EndPoint} (hrc : vq.virtualQueue = some rc)
    (hdc : vq.localDc = some dc) (hpoint : vq.localCache.remoteEndpoint = some point)
    (hmr : remoteMr rc.id = point.mr) (reqs : List CoreReq) :
    ((∀ ans, Interchangeable SendWr.visible (vq.rcPushImpl paToVa remoteMr reqs ans)
        (vq.dcPushImpl paToVa reqs ans)) ↔
      ∀ req ∈ reqs.takeWhile (·.translatable vq.localCache.localMr point.mr),
        ∀ op ∈ opCodeTable req.type, op.hasImm = true → req.vid = 0) ∧
    ((∀ ans, Interchangeable id (vq.rcPushImpl paToVa remoteMr reqs ans)
        (vq.dcPushImpl paToVa reqs ans)) ↔
      ∀ req ∈ reqs.takeWhile (·.translatable vq.localCache.localMr point.mr), req.vid = 0) := by
  simp only [rcPushImpl, dcPushImpl, hrc, hdc, hpoint, hmr, interchangeable_iff]
  constructor
  · refine forall₂_congr fun req hreq => ?_
    have htr : req.translatable vq.localCache.localMr point.mr = true :=
      List.mem_takeWhile_imp hreq
    simp only [SendWr.visible_withoutImm_iff]
    exact forall_rcWr_iff (Q := fun op imm => op.hasImm = true → imm = 0) htr
  · refine forall₂_congr fun req hreq => ?_
    have htr : req.translatable vq.localCache.localMr point.mr = true :=
      List.mem_takeWhile_imp hreq
    obtain ⟨op, hop⟩ := Option.isSome_iff_exists.mp ((opCodeTable_isSome_iff req.type).mpr (by
      simp only [CoreReq.translatable, Bool.and_eq_true, decide_eq_true_eq] at htr
      exact htr.2))
    simp only [id, SendWr.withoutImm_eq_iff]
    rw [forall_rcWr_iff (Q := fun _ imm => imm = 0) htr, hop]
    simp

/-! ## Samples -/

def CoreReq.sample (type sendFlags vid : BitVec 32) : CoreReq where
  addr := 0
  length := 8
  remoteAddr := 0
  sendFlags
  vid
  type

/-- A queue that has a DC and has got an RC as well. -/
def VQ.sampleBoth : VQ :=
  let vq := VQ.opened default
  { vq with
    virtualQueue := some { id := 0, recvCtrl := 0, path := default, serviceId := 0 }
    localDc := some 0
    localUd := some 0
    localCache := { vq.localCache with remoteEndpoint := some default }
    localConnectPort := some 0 }

/-- A write with immediate data and the `vid` zero. -/
theorem VQ.rc_dc_interchangeable_zeroVid :
    sampleBoth.virtualQueue = some { id := 0, recvCtrl := 0, path := default, serviceId := 0 } ∧
      ∀ ans, Interchangeable SendWr.visible
        (sampleBoth.rcPushImpl id (fun _ => default) [.sample 4 1 0] ans)
        (sampleBoth.dcPushImpl id [.sample 4 1 0] ans) :=
  ⟨rfl, (rc_dc_interchangeable_iff id (fun _ => default) sampleBoth rfl rfl rfl rfl
    [.sample 4 1 0]).1.mpr (by decide)⟩

/-- A write with immediate data and the `vid` five arrives with five over the RC and
    with zero over the DC. -/
theorem VQ.dc_drops_immData :
    (sampleBoth.rcPushImpl id (fun _ => default) [.sample 4 1 5] fun _ => 0).posted.map
        (fun p => (p.1.opcode, p.1.immData)) = [(.rdmaWriteWithImm, 5)] ∧
      (sampleBoth.dcPushImpl id [.sample 4 1 5] fun _ => 0).posted.map
        (fun p => (p.1.opcode, p.1.immData)) = [(.rdmaWriteWithImm, 0)] := by
  decide
