-- SUMMARY: The entries of a send queue as bytes: what the driver writes for a request, and that a device reads the request back.
import Mathlib.Algebra.Group.Nat.Defs
import KRCore.Base.Memory
import KRCore.Driver.WqeSize

/-!
# The format of send entries

An entry of a send queue is a control segment, for a datagram or a DC request an address
vector, for an RDMA request the remote address, and then the data: pointers to it, or
the data itself. `DataWr.entry` is what the driver writes, segment by segment, and
`parse` is how a device takes an entry apart; the second is stated from the format
and uses nothing of the driver.

Requests that register or invalidate memory are not in here; `postSend` has their sizes.
-/

namespace Driver

open Word (toBe ofBe toBe_length ofBe_toBe)

/-! ## Address vectors -/

/-- `mlx5_av`. -/
structure Av where
  key : UInt64
  dqpDct : UInt32
  statRateSl : UInt8
  flMlid : UInt8
  /-- The source port in the case of RoCE. -/
  rlid : UInt16
  rmac : BitVec 48
  tclass : UInt8
  hopLimit : UInt8
  grhGidFl : UInt32
  rgid : BitVec 128
deriving DecidableEq

/-- An `ib_global_route`. -/
structure GlobalRoute where
  dgid : BitVec 128
  flowLabel : BitVec 20
  sgidIndex : UInt8
  hopLimit : UInt8
  trafficClass : UInt8
deriving DecidableEq

inductive AhKind where
  | ib (dlid : UInt16) (pathBits : UInt8)
  /-- `udpEncap` is the type of the source gid, `ttl` the entry of the port in `ttld` and
      `minSport` the capability `r_roce_min_src_udp_port`. -/
  | roce (dmac : BitVec 48) (udpEncap : Bool) (ttl : UInt8) (sport minSport : UInt16)
deriving DecidableEq

/-- A `rdma_ah_attr`. -/
structure AhAttr where
  grh : Option GlobalRoute
  staticRate : UInt8
  sl : UInt8
  kind : AhKind
deriving DecidableEq

/-- `mlx5_valid_roce_udp_sport`. -/
def validRoceUdpSport (sport : UInt16) : Bool := 49152 ≤ sport

/-- `mlx5_get_roce_udp_sport_min`. -/
def getRoceUdpSportMin (udpEncap : Bool) (minSport : UInt16) : UInt16 :=
  if udpEncap then minSport else 0

/-- `create_ib_ah`, on a handle that is all zero. The port stands where the lid would. -/
def createIbAh (attr : AhAttr) : Av :=
  let av : Av := ⟨0, 0, attr.staticRate <<< 4, 0, 0, 0, 0, 0, 0, 0⟩
  let av := match attr.grh with
    | none => av
    | some grh =>
      { av with
        rgid := grh.dgid
        grhGidFl := UInt32.ofNat grh.flowLabel.toNat ||| (1073741824 : UInt32) |||
          (grh.sgidIndex.toUInt32 <<< 20)
        hopLimit := grh.hopLimit
        tclass := grh.trafficClass }
  match attr.kind with
  | .ib dlid pathBits =>
    { av with
      rlid := dlid
      flMlid := pathBits &&& 127
      statRateSl := av.statRateSl ||| (attr.sl &&& 15) }
  | .roce dmac udpEncap ttl sport minSport =>
    let hopLimit := (attr.grh.map GlobalRoute.hopLimit).getD 0
    let tmpHopLimit := if udpEncap ∧ hopLimit < 2 then 64 else hopLimit
    { av with
      hopLimit := if ttl ≠ 0 then ttl else tmpHopLimit
      rmac := dmac
      rlid := if validRoceUdpSport sport then sport else getRoceUdpSportMin udpEncap minSport
      statRateSl := av.statRateSl ||| ((attr.sl &&& 7) <<< 1)
      tclass := if udpEncap then av.tclass ||| 2 else av.tclass }

/-- `xhas_grh`: the bit `MLX5_EXTENDED_UD_AV`. -/
def Av.hasGrh (av : Av) : Bool := 2147483648 ≤ av.dqpDct.toNat

/-- An address handle never has the bit, so the route of a DC request stays out of its entry. -/
theorem createIbAh_hasGrh (attr : AhAttr) : (createIbAh attr).hasGrh = false := by
  obtain ⟨grh, _, _, kind⟩ := attr
  cases grh <;> cases kind <;> rfl

/-- Bytes 12 to 16. -/
def Av.lidPart (av : Av) : List UInt8 := av.statRateSl :: av.flMlid :: toBe 2 av.rlid.toNat

/-- Bytes 16 to 48. -/
def Av.grhPart (av : Av) : List UInt8 :=
  [0, 0, 0, 0] ++ toBe 6 av.rmac.toNat ++ [av.tclass, av.hopLimit] ++ toBe 4 av.grhGidFl.toNat ++
    toBe 16 av.rgid.toNat

/-! ## Requests -/

structure WrSge where
  addr : UInt64
  length : UInt32
  lkey : UInt32
deriving DecidableEq

/-- The opcodes that carry data. -/
inductive DataOp where
  | rdmaRead
  | rdmaWrite
  | rdmaWriteWithImm
  | send
  | sendWithImm
  | sendWithInv
deriving DecidableEq, Repr

/-- `mlx5_ib_opcode`. -/
def DataOp.code : DataOp → Nat
  | .rdmaRead => 16
  | .rdmaWrite => 8
  | .rdmaWriteWithImm => 9
  | .send => 10
  | .sendWithImm => 11
  | .sendWithInv => 1

def DataOp.isRdma : DataOp → Bool
  | .rdmaRead | .rdmaWrite | .rdmaWriteWithImm => true
  | _ => false

/-- Where a request goes, by the type of the queue pair. -/
inductive WrDest where
  | rc
  | dc (av : Av) (dctNumber : UInt32) (dctAccessKey : UInt64)
  | ud (av : Av) (remoteQpn remoteQkey : UInt32)
deriving DecidableEq

structure DataWr where
  op : DataOp
  /-- `imm_data` or `invalidate_rkey`. -/
  ex : UInt32
  signaled : Bool
  solicited : Bool
  fence : Bool
  inl : Bool
  dest : WrDest
  remoteAddr : UInt64
  rkey : UInt32
  sgList : List WrSge
deriving DecidableEq

/-- `send_ieth`. -/
def DataWr.sendIeth (wr : DataWr) : Nat :=
  match wr.op with
  | .sendWithImm | .rdmaWriteWithImm | .sendWithInv => wr.ex.toNat
  | _ => 0

/-! ## What the driver writes -/

/-- What a queue pair puts into its control segments: its number, `sq_signal_bits` and
    `next_fence`. -/
structure CtrlCfg where
  qpn : BitVec 24
  signalAll : Bool
  nextFence : Bool
deriving DecidableEq

/-- `fm_ce_se` as `begin_wqe` sets it. -/
def DataWr.ceSe (cfg : CtrlCfg) (wr : DataWr) : UInt8 :=
  (if cfg.signalAll then 8 else 0) ||| (if wr.signaled then 8 else 0) |||
    (if wr.solicited then 2 else 0)

/-- The fence that `finish_wqe` adds. -/
def DataWr.fenceBits (cfg : CtrlCfg) (wr : DataWr) : UInt8 :=
  if wr.fence then (if cfg.nextFence then 128 else 64) else if cfg.nextFence then 32 else 0

/-- Bytes 8 to 16 of the control segment. -/
def DataWr.ctrlTail (cfg : CtrlCfg) (wr : DataWr) : List UInt8 :=
  [0, 0, 0, wr.ceSe cfg] ++ toBe 4 wr.sendIeth

/-- Bytes 0 to 8 of the control segment: `opmod_idx_opcode` and `qpn_ds`. -/
def DataWr.ctrlHead (cfg : CtrlCfg) (wr : DataWr) (curPost size : Nat) : List UInt8 :=
  toBe 4 (curPost <<< 8 ||| wr.op.code) ++ toBe 4 (size % 256 ||| cfg.qpn.toNat <<< 8)

/-- The address vector: `xset_dci_seg` or `set_datagram_seg`. -/
def DataWr.avSeg (wr : DataWr) : List UInt8 :=
  match wr.dest with
  | .rc => []
  | .dc av dctNumber dctAccessKey =>
    toBe 8 dctAccessKey.toNat ++ toBe 4 dctNumber.toNat ++ av.lidPart ++
      if av.hasGrh then av.grhPart else []
  | .ud av remoteQpn remoteQkey =>
    toBe 4 remoteQkey.toNat ++ toBe 4 (av.key.toNat % 4294967296) ++
      toBe 4 (remoteQpn.toNat ||| 2147483648) ++ av.lidPart ++ av.grhPart

/-- `set_raddr_seg`. -/
def DataWr.raddrSeg (wr : DataWr) : List UInt8 :=
  match wr.dest with
  | .ud .. => []
  | _ => if wr.op.isRdma then toBe 8 wr.remoteAddr.toNat ++ toBe 4 wr.rkey.toNat ++ [0, 0, 0, 0] else []

/-- `set_data_ptr_seg`; an entry without bytes gets no segment. -/
def WrSge.ptrSeg (sge : WrSge) : List UInt8 :=
  if sge.length = 0 then []
  else toBe 4 sge.length.toNat ++ toBe 4 sge.lkey.toNat ++ toBe 8 sge.addr.toNat

/-- The bytes of an inline request. -/
def inlineData (src : Mem) (sgList : List WrSge) : List UInt8 :=
  sgList.flatMap fun sge => src.read sge.addr.toNat sge.length.toNat

/-- `set_data_inl_seg`, without the bytes that fill up its last 16. -/
def inlineSegBytes (data : List UInt8) : List UInt8 :=
  toBe 4 (data.length ||| 2147483648) ++ data

/-- The data segments. -/
def DataWr.dataSegs (src : Mem) (wr : DataWr) : List UInt8 :=
  if wr.inl ∧ wr.sgList ≠ [] then inlineSegBytes (inlineData src wr.sgList)
  else wr.sgList.flatMap WrSge.ptrSeg

/-! ## What a device reads -/

def WrDest.kind : WrDest → QpKind
  | .rc => .rc
  | .dc .. => .dc
  | .ud .. => .ud

/-- The part of an address vector behind its first 16 bytes. -/
structure Route where
  rmac : Nat
  tclass : Nat
  hopLimit : Nat
  grhGidFl : Nat
  rgid : Nat
deriving DecidableEq, Repr

/-- An address vector: the key and the number of the other side, how to get there on the subnet, and
    beyond it. -/
structure AvView where
  key : Nat
  number : Nat
  statRateSl : Nat
  flMlid : Nat
  rlid : Nat
  route : Option Route
deriving DecidableEq, Repr

inductive SegView where
  | ptr (byteCount lkey addr : Nat)
  | inl (data : List UInt8)
deriving DecidableEq, Repr

/-- An entry as a device understands it. -/
structure WqeView where
  idx : Nat
  opcode : Nat
  qpn : Nat
  fence : Nat
  cqUpdate : Bool
  solicited : Bool
  ex : Nat
  av : Option AvView
  raddr : Option (Nat × Nat)
  segs : List SegView
deriving DecidableEq, Repr

def field (bs : List UInt8) (off len : Nat) : Nat := ofBe ((bs.drop off).take len)

def parseRoute (bs : List UInt8) : Route :=
  ⟨field bs 4 6, field bs 10 1, field bs 11 1, field bs 12 4, field bs 16 16⟩

/-- An address vector and what follows it. The vector of a DC request has its second part only if the
    bit for it is set. -/
def parseAv (kind : QpKind) (bs : List UInt8) : Option AvView × List UInt8 :=
  match kind with
  | .rc => (none, bs)
  | .dc =>
    let word := field bs 8 4
    let av : AvView := ⟨field bs 0 8, word % 16777216, field bs 12 1, field bs 13 1, field bs 14 2, none⟩
    if 2147483648 ≤ word then (some { av with route := parseRoute (bs.drop 16) }, bs.drop 48)
    else (some av, bs.drop 16)
  | .ud =>
    (some ⟨field bs 0 4, field bs 8 4 % 16777216, field bs 12 1, field bs 13 1, field bs 14 2,
      some (parseRoute (bs.drop 16))⟩, bs.drop 48)

def parseRaddr (kind : QpKind) (opcode : Nat) (bs : List UInt8) :
    Option (Nat × Nat) × List UInt8 :=
  if kind ≠ .ud ∧ (opcode = 16 ∨ opcode = 8 ∨ opcode = 9) then
    (some (field bs 0 8, field bs 8 4), bs.drop 16)
  else (none, bs)

/-- The data segments, in units of 16 bytes to the end of the entry. -/
def parseSegs : Nat → List UInt8 → List SegView
  | 0, _ => []
  | fuel + 1, bs =>
    if bs = [] then []
    else
      let byteCount := field bs 0 4
      if 2147483648 ≤ byteCount then
        let n := byteCount - 2147483648
        .inl ((bs.drop 4).take n) :: parseSegs fuel (bs.drop ((n + 4 + 15) / 16 * 16))
      else .ptr byteCount (field bs 4 4) (field bs 8 8) :: parseSegs fuel (bs.drop 16)

def parse (kind : QpKind) (bs : List UInt8) : WqeView :=
  let opcode := field bs 3 1
  let flags := field bs 11 1
  let (av, bs₁) := parseAv kind (bs.drop 16)
  let (raddr, bs₂) := parseRaddr kind opcode bs₁
  { idx := field bs 1 2
    opcode
    qpn := field bs 4 3
    fence := flags / 32
    cqUpdate := flags / 8 % 2 = 1
    solicited := flags / 2 % 2 = 1
    ex := field bs 12 4
    av
    raddr
    segs := parseSegs bs₂.length bs₂ }

/-- The entry at the start of a memory. Byte 7 has its length in units of 16 bytes. -/
def fetch (kind : QpKind) (v : Mem) : WqeView := parse kind (v.read 0 (16 * (v 7).toNat))

/-! ## The request in an entry -/

def Av.route (av : Av) : Route :=
  ⟨av.rmac.toNat, av.tclass.toNat, av.hopLimit.toNat, av.grhGidFl.toNat, av.rgid.toNat⟩

/-- The address of a request, as far as the entry has it. -/
def WrDest.view : WrDest → Option AvView
  | .rc => none
  | .dc av dctNumber dctAccessKey =>
    some ⟨dctAccessKey.toNat, dctNumber.toNat, av.statRateSl.toNat, av.flMlid.toNat, av.rlid.toNat,
      none⟩
  | .ud av remoteQpn remoteQkey =>
    some ⟨remoteQkey.toNat, remoteQpn.toNat, av.statRateSl.toNat, av.flMlid.toNat, av.rlid.toNat,
      some av.route⟩

def DataWr.segViews (src : Mem) (wr : DataWr) : List SegView :=
  if wr.inl ∧ wr.sgList ≠ [] then [.inl (inlineData src wr.sgList)]
  else (wr.sgList.filter (·.length ≠ 0)).map fun sge =>
    .ptr sge.length.toNat sge.lkey.toNat sge.addr.toNat

/-- What a device should be told about a request. -/
def DataWr.view (cfg : CtrlCfg) (src : Mem) (curPost : Nat) (wr : DataWr) : WqeView :=
  { idx := curPost
    opcode := wr.op.code
    qpn := cfg.qpn.toNat
    fence := if wr.fence then (if cfg.nextFence then 4 else 2) else if cfg.nextFence then 1 else 0
    cqUpdate := cfg.signalAll || wr.signaled
    solicited := wr.solicited
    ex := wr.sendIeth
    av := wr.dest.view
    raddr := if wr.dest.kind ≠ .ud ∧ wr.op.isRdma then some (wr.remoteAddr.toNat, wr.rkey.toNat) else none
    segs := wr.segViews src }

/-- The numbers of a request fit the format: queue pairs have 24 bits, lengths 31. -/
structure DataWr.Encodable (src : Mem) (wr : DataWr) : Prop where
  number : match wr.dest with
    | .rc => True
    | .dc av dctNumber _ => dctNumber.toNat < 16777216 ∧ av.hasGrh = false
    | .ud _ remoteQpn _ => remoteQpn.toNat < 16777216
  lengths : ∀ sge ∈ wr.sgList, sge.length.toNat < 2147483648
  inline : wr.inl → (inlineData src wr.sgList).length < 2147483648

/-! ## Reading fields -/

section Fields

variable {xs ys : List UInt8} {off len : Nat}

@[simp] theorem field_left (h : off + len ≤ xs.length) : field (xs ++ ys) off len = field xs off len := by
  rw [field, field, List.drop_append_of_le_length (by omega),
    List.take_append_of_le_length (by rw [List.length_drop]; omega)]

@[simp] theorem field_right (h : xs.length ≤ off) :
    field (xs ++ ys) off len = field ys (off - xs.length) len := by
  rw [field, field, List.drop_append, List.drop_eq_nil_of_le h, List.nil_append]

theorem field_toBe {n x : Nat} (h : x < 256 ^ n) : field (toBe n x) 0 n = x := by
  rw [field, List.drop_zero, List.take_of_length_le (by simp), ofBe_toBe h]

@[simp] theorem field_cons (b : UInt8) (h : 0 < off) :
    field (b :: xs) off len = field xs (off - 1) len := by
  rw [← List.singleton_append, field_right (show [b].length ≤ off from h),
    List.length_singleton]

@[simp] theorem field_byte (b : UInt8) (xs : List UInt8) : field (b :: xs) 0 1 = b.toNat := by
  simp [field, ofBe, Word.ofBytes]

end Fields

/-- The control segment of a finished entry. -/
def DataWr.ctrl (cfg : CtrlCfg) (wr : DataWr) (curPost size : Nat) : List UInt8 :=
  wr.ctrlHead cfg curPost size ++ [0, 0, 0, wr.ceSe cfg ||| wr.fenceBits cfg] ++ toBe 4 wr.sendIeth

variable {cfg : CtrlCfg} {wr : DataWr} {src : Mem} {curPost size : Nat}

theorem DataOp.code_lt (op : DataOp) : op.code < 256 := by cases op <;> decide

theorem shift_or {a b : Nat} (hb : b < 256) : a <<< 8 ||| b = a * 256 + b := by
  rw [Nat.shiftLeft_eq, Nat.mul_comm]
  exact (Nat.two_pow_add_eq_or_of_lt (i := 8) hb a).symm

theorem or_high {n : Nat} (h : n < 2147483648) : n ||| 2147483648 = 2147483648 + n := by
  rw [Nat.or_comm]
  exact (Nat.two_pow_add_eq_or_of_lt (i := 31) h 1).symm

theorem ctrlHead_eq (cfg : CtrlCfg) (wr : DataWr) (hpost : curPost < 65536) (hsize : size < 256) :
    wr.ctrlHead cfg curPost size =
      toBe 1 0 ++ toBe 2 curPost ++ toBe 1 wr.op.code ++ (toBe 3 cfg.qpn.toNat ++ toBe 1 size) := by
  rw [DataWr.ctrlHead, Nat.or_comm (size % 256), Nat.mod_eq_of_lt hsize, shift_or wr.op.code_lt,
    shift_or hsize]
  have hidx : toBe 3 curPost = toBe 1 0 ++ toBe 2 curPost := by
    have := Word.toBe_append 1 0 (n := 2) hpost
    rwa [Nat.zero_mul, Nat.zero_add] at this
  rw [← hidx]
  exact congrArg₂ (· ++ ·) (Word.toBe_append 3 curPost (n := 1) wr.op.code_lt)
    (Word.toBe_append 3 cfg.qpn.toNat (n := 1) hsize)

theorem sendIeth_lt (wr : DataWr) : wr.sendIeth < 4294967296 := by
  have := wr.ex.toNat_lt
  rw [DataWr.sendIeth]
  split <;> omega

theorem ctrl_length (cfg : CtrlCfg) (wr : DataWr) (curPost size : Nat) :
    (wr.ctrl cfg curPost size).length = 16 := by
  simp [DataWr.ctrl, DataWr.ctrlHead]

theorem ctrl_fields (cfg : CtrlCfg) (wr : DataWr) (hpost : curPost < 65536) (hsize : size < 256)
    (rest : List UInt8) :
    let bs := wr.ctrl cfg curPost size ++ rest
    field bs 1 2 = curPost ∧ field bs 3 1 = wr.op.code ∧ field bs 4 3 = cfg.qpn.toNat ∧
    field bs 7 1 = size ∧ field bs 11 1 = (wr.ceSe cfg ||| wr.fenceBits cfg).toNat ∧
    field bs 12 4 = wr.sendIeth := by
  have hidx : field (toBe 2 curPost) 0 2 = curPost := field_toBe hpost
  have hop : field (toBe 1 wr.op.code) 0 1 = wr.op.code := field_toBe wr.op.code_lt
  have hqpn : field (toBe 3 cfg.qpn.toNat) 0 3 = cfg.qpn.toNat := field_toBe cfg.qpn.isLt
  have hds : field (toBe 1 size) 0 1 = size := field_toBe hsize
  have hex : field (toBe 4 wr.sendIeth) 0 4 = wr.sendIeth := field_toBe (sendIeth_lt wr)
  rw [DataWr.ctrl, ctrlHead_eq cfg wr hpost hsize]
  simp [hidx, hop, hqpn, hds, hex]

/-- The flags of a request are bits of one byte. -/
theorem flags_bits (cfg : CtrlCfg) (wr : DataWr) :
    let flags := (wr.ceSe cfg ||| wr.fenceBits cfg).toNat
    flags / 32 = (if wr.fence then (if cfg.nextFence then 4 else 2) else
      if cfg.nextFence then 1 else 0) ∧
    decide (flags / 8 % 2 = 1) = (cfg.signalAll || wr.signaled) ∧
    decide (flags / 2 % 2 = 1) = wr.solicited := by
  rw [DataWr.ceSe, DataWr.fenceBits]
  cases cfg.signalAll <;> cases cfg.nextFence <;> cases wr.signaled <;> cases wr.solicited <;>
    cases wr.fence <;> decide

/-! ## Reading back -/

theorem lidPart_length (av : Av) : av.lidPart.length = 4 := by simp [Av.lidPart]

theorem grhPart_length (av : Av) : av.grhPart.length = 32 := by simp [Av.grhPart]

theorem parseRoute_grhPart (av : Av) (rest : List UInt8) :
    parseRoute (av.grhPart ++ rest) = av.route := by
  have hrmac : field (toBe 6 av.rmac.toNat) 0 6 = av.rmac.toNat := field_toBe av.rmac.isLt
  have hgrh : field (toBe 4 av.grhGidFl.toNat) 0 4 = av.grhGidFl.toNat :=
    field_toBe av.grhGidFl.toNat_lt
  have hrgid : field (toBe 16 av.rgid.toNat) 0 16 = av.rgid.toNat := field_toBe av.rgid.isLt
  simp [parseRoute, Av.grhPart, Av.route, hrmac, hgrh, hrgid]

/-- Bytes 12 to 16 of an address vector, behind the key and the number. -/
theorem lidPart_fields (av : Av) (rest : List UInt8) :
    field (av.lidPart ++ rest) 0 1 = av.statRateSl.toNat ∧
    field (av.lidPart ++ rest) 1 1 = av.flMlid.toNat ∧
    field (av.lidPart ++ rest) 2 2 = av.rlid.toNat := by
  have hrlid : field (toBe 2 av.rlid.toNat) 0 2 = av.rlid.toNat := field_toBe av.rlid.toNat_lt
  simp [Av.lidPart, hrlid]

theorem parseAv_dc (av : Av) {dctNumber : UInt32} (dctAccessKey : UInt64) (rest : List UInt8)
    (hnumber : dctNumber.toNat < 16777216) :
    parseAv .dc (toBe 8 dctAccessKey.toNat ++ toBe 4 dctNumber.toNat ++ av.lidPart ++ rest) =
      ((WrDest.dc av dctNumber dctAccessKey).view, rest) := by
  have hkey : field (toBe 8 dctAccessKey.toNat) 0 8 = dctAccessKey.toNat :=
    field_toBe dctAccessKey.toNat_lt
  have hdct : field (toBe 4 dctNumber.toNat) 0 4 = dctNumber.toNat := field_toBe dctNumber.toNat_lt
  have hdrop : (toBe 8 dctAccessKey.toNat ++ toBe 4 dctNumber.toNat ++ av.lidPart ++ rest).drop 16 =
      rest := List.drop_left' (by simp [lidPart_length])
  obtain ⟨hrate, hmlid, hrlid⟩ := lidPart_fields av rest
  rw [parseAv, hdrop]
  simp [hkey, hdct, hrate, hmlid, hrlid, WrDest.view, Nat.mod_eq_of_lt hnumber,
    show dctNumber.toNat < 2147483648 by omega]

theorem parseAv_ud (av : Av) {remoteQpn : UInt32} (remoteQkey : UInt32) (rest : List UInt8)
    (hnumber : remoteQpn.toNat < 16777216) :
    parseAv .ud (toBe 4 remoteQkey.toNat ++ toBe 4 (av.key.toNat % 4294967296) ++
        toBe 4 (remoteQpn.toNat ||| 2147483648) ++ av.lidPart ++ (av.grhPart ++ rest)) =
      ((WrDest.ud av remoteQpn remoteQkey).view, rest) := by
  have hkey : field (toBe 4 remoteQkey.toNat) 0 4 = remoteQkey.toNat :=
    field_toBe remoteQkey.toNat_lt
  have hqpn : field (toBe 4 (remoteQpn.toNat ||| 2147483648)) 0 4 % 16777216 = remoteQpn.toNat := by
    rw [or_high (by omega), field_toBe (by omega)]
    omega
  generalize hfirst : toBe 4 remoteQkey.toNat ++ toBe 4 (av.key.toNat % 4294967296) ++
    toBe 4 (remoteQpn.toNat ||| 2147483648) ++ av.lidPart = first
  have hlen : first.length = 16 := by simp [← hfirst, lidPart_length]
  have hroute : (first ++ (av.grhPart ++ rest)).drop 16 = av.grhPart ++ rest := List.drop_left' hlen
  have hdrop : (first ++ (av.grhPart ++ rest)).drop 48 = rest := by
    rw [← List.append_assoc]
    exact List.drop_left' (by rw [List.length_append, hlen, grhPart_length])
  obtain ⟨hrate, hmlid, hrlid⟩ := lidPart_fields av (av.grhPart ++ rest)
  rw [parseAv, hroute, hdrop, parseRoute_grhPart, ← hfirst]
  simp [hkey, hqpn, hrate, hmlid, hrlid, WrDest.view]

theorem parseAv_avSeg (h : wr.Encodable src) (rest : List UInt8) :
    parseAv wr.dest.kind (wr.avSeg ++ rest) = (wr.dest.view, rest) := by
  have hnumber := h.number
  rw [DataWr.avSeg]
  cases hdest : wr.dest with
  | rc => rfl
  | dc av dctNumber dctAccessKey =>
    rw [hdest] at hnumber
    simpa [WrDest.kind, hnumber.2] using parseAv_dc av dctAccessKey rest hnumber.1
  | ud av remoteQpn remoteQkey =>
    rw [hdest] at hnumber
    simpa [WrDest.kind] using parseAv_ud av remoteQkey rest hnumber

theorem isRdma_iff (op : DataOp) : op.isRdma ↔ op.code = 16 ∨ op.code = 8 ∨ op.code = 9 := by
  cases op <;> decide

theorem raddrSeg_eq (wr : DataWr) :
    wr.raddrSeg = if wr.dest.kind ≠ .ud ∧ wr.op.isRdma then
      toBe 8 wr.remoteAddr.toNat ++ toBe 4 wr.rkey.toNat ++ [0, 0, 0, 0] else [] := by
  rw [DataWr.raddrSeg]
  cases wr.dest <;> simp [WrDest.kind]

theorem parseRaddr_raddrSeg (wr : DataWr) (rest : List UInt8) :
    parseRaddr wr.dest.kind wr.op.code (wr.raddrSeg ++ rest) =
      (if wr.dest.kind ≠ .ud ∧ wr.op.isRdma then some (wr.remoteAddr.toNat, wr.rkey.toNat) else none,
        rest) := by
  have haddr : field (toBe 8 wr.remoteAddr.toNat) 0 8 = wr.remoteAddr.toNat :=
    field_toBe wr.remoteAddr.toNat_lt
  have hrkey : field (toBe 4 wr.rkey.toNat) 0 4 = wr.rkey.toNat := field_toBe wr.rkey.toNat_lt
  rw [parseRaddr, raddrSeg_eq]
  by_cases hrdma : wr.dest.kind ≠ .ud ∧ wr.op.isRdma
  · have hdrop : (toBe 8 wr.remoteAddr.toNat ++ toBe 4 wr.rkey.toNat ++ [0, 0, 0, 0] ++ rest).drop 16 =
        rest := List.drop_left' (by simp)
    rw [if_pos hrdma, if_pos hrdma, if_pos ⟨hrdma.1, (isRdma_iff wr.op).mp hrdma.2⟩, hdrop]
    simp [haddr, hrkey]
  · rw [if_neg hrdma, if_neg hrdma, if_neg fun h => hrdma ⟨h.1, (isRdma_iff wr.op).mpr h.2⟩]
    rfl

theorem parseSegs_ptr {sge : WrSge} (hlen : sge.length.toNat < 2147483648) (hne : sge.length ≠ 0)
    (fuel : Nat) (rest : List UInt8) :
    parseSegs (fuel + 1) (sge.ptrSeg ++ rest) =
      .ptr sge.length.toNat sge.lkey.toNat sge.addr.toNat :: parseSegs fuel rest := by
  have hcount : field (toBe 4 sge.length.toNat) 0 4 = sge.length.toNat :=
    field_toBe sge.length.toNat_lt
  have hlkey : field (toBe 4 sge.lkey.toNat) 0 4 = sge.lkey.toNat := field_toBe sge.lkey.toNat_lt
  have haddr : field (toBe 8 sge.addr.toNat) 0 8 = sge.addr.toNat := field_toBe sge.addr.toNat_lt
  have hdrop : (toBe 4 sge.length.toNat ++ toBe 4 sge.lkey.toNat ++ toBe 8 sge.addr.toNat ++ rest).drop
      16 = rest := List.drop_left' (by simp)
  have hsome : toBe 4 sge.length.toNat ++ toBe 4 sge.lkey.toNat ++ toBe 8 sge.addr.toNat ++ rest ≠ [] :=
    List.ne_nil_of_length_pos (by simp only [List.length_append, toBe_length]; omega)
  rw [WrSge.ptrSeg, if_neg hne, parseSegs, if_neg hsome, hdrop]
  simp [hcount, hlkey, haddr, show ¬ 2147483648 ≤ sge.length.toNat by omega]

/-- The pointers of a request. -/
theorem parseSegs_ptrSegs {sgs : List WrSge} (hlen : ∀ sge ∈ sgs, sge.length.toNat < 2147483648)
    {fuel : Nat} (hfuel : (sgs.flatMap WrSge.ptrSeg).length ≤ fuel) :
    parseSegs fuel (sgs.flatMap WrSge.ptrSeg) = (sgs.filter (·.length ≠ 0)).map fun sge =>
      .ptr sge.length.toNat sge.lkey.toNat sge.addr.toNat := by
  induction sgs generalizing fuel with
  | nil => cases fuel <;> rfl
  | cons sge sgs ih =>
    rw [List.forall_mem_cons] at hlen
    rw [List.flatMap_cons] at hfuel ⊢
    by_cases hzero : sge.length = 0
    · have hnone : sge.ptrSeg = [] := if_pos hzero
      rw [hnone, List.nil_append] at hfuel ⊢
      rw [ih hlen.2 hfuel, List.filter_cons_of_neg (by simp [hzero])]
    · have hseg : sge.ptrSeg.length = 16 := by simp [WrSge.ptrSeg, hzero]
      rw [List.length_append, hseg] at hfuel
      obtain ⟨fuel, rfl⟩ : ∃ f, fuel = f + 1 := ⟨fuel - 1, by omega⟩
      rw [parseSegs_ptr hlen.1 hzero, ih hlen.2 (by omega), List.filter_cons_of_pos (by simp [hzero]),
        List.map_cons]

/-- The data of an inline request, filled up to a multiple of 16. -/
theorem parseSegs_inline {data pad : List UInt8} (hlen : data.length < 2147483648)
    (hpad : 4 + data.length + pad.length = (data.length + 4 + 15) / 16 * 16) (fuel : Nat) :
    parseSegs (fuel + 1) (inlineSegBytes data ++ pad) = [.inl data] := by
  have hcount : field (toBe 4 (data.length ||| 2147483648)) 0 4 = 2147483648 + data.length := by
    rw [or_high hlen, field_toBe (by omega)]
  have hsome : toBe 4 (data.length ||| 2147483648) ++ (data ++ pad) ≠ [] :=
    List.ne_nil_of_length_pos (by simp only [List.length_append, toBe_length]; omega)
  have hdata : (toBe 4 (data.length ||| 2147483648) ++ (data ++ pad)).drop 4 = data ++ pad :=
    List.drop_left' (by simp)
  have hrest : (toBe 4 (data.length ||| 2147483648) ++ (data ++ pad)).drop
      ((data.length + 4 + 15) / 16 * 16) = [] :=
    List.drop_eq_nil_of_le (by simp; omega)
  rw [inlineSegBytes, List.append_assoc, parseSegs, if_neg hsome, field_left (by simp), hcount,
    if_pos (by omega), Nat.add_sub_cancel_left, hdata]
  dsimp only
  rw [hrest, List.take_left]
  cases fuel <;> rfl

theorem ptrSegs_length (sgs : List WrSge) : (sgs.flatMap WrSge.ptrSeg).length % 16 = 0 := by
  induction sgs with
  | nil => rfl
  | cons sge sgs ih =>
    have hseg : sge.ptrSeg.length % 16 = 0 := by
      rw [WrSge.ptrSeg]
      split <;> simp
    rw [List.flatMap_cons, List.length_append]
    omega

theorem parseSegs_dataSegs (h : wr.Encodable src) {pad : List UInt8}
    (hpad : (wr.dataSegs src).length + pad.length = ((wr.dataSegs src).length + 15) / 16 * 16)
    {fuel : Nat} (hfuel : (wr.dataSegs src ++ pad).length ≤ fuel) :
    parseSegs fuel (wr.dataSegs src ++ pad) = wr.segViews src := by
  rw [DataWr.dataSegs] at *
  rw [DataWr.segViews]
  split at hpad
  case isTrue hinl =>
    rw [if_pos hinl] at hfuel
    rw [if_pos hinl, if_pos hinl]
    have hlen : (inlineSegBytes (inlineData src wr.sgList)).length =
        4 + (inlineData src wr.sgList).length := by simp [inlineSegBytes]
    rw [List.length_append] at hfuel
    obtain ⟨fuel, rfl⟩ : ∃ f, fuel = f + 1 := ⟨fuel - 1, by omega⟩
    exact parseSegs_inline (h.inline hinl.1) (by omega) fuel
  case isFalse hptr =>
    rw [if_neg hptr] at hfuel
    rw [if_neg hptr, if_neg hptr]
    have hmul := ptrSegs_length wr.sgList
    obtain rfl : pad = [] := List.eq_nil_of_length_eq_zero (by omega)
    rw [List.append_nil] at hfuel ⊢
    exact parseSegs_ptrSegs h.lengths hfuel

/-- A finished entry. -/
def DataWr.entry (cfg : CtrlCfg) (src : Mem) (curPost size : Nat) (wr : DataWr) : List UInt8 :=
  wr.ctrl cfg curPost size ++ (wr.avSeg ++ (wr.raddrSeg ++ wr.dataSegs src))

/-- The size of an entry in units of 16 bytes. -/
def DataWr.units (src : Mem) (wr : DataWr) : Nat :=
  1 + wr.avSeg.length / 16 + wr.raddrSeg.length / 16 + ((wr.dataSegs src).length + 15) / 16

theorem avSeg_length (wr : DataWr) : wr.avSeg.length % 16 = 0 ∧ wr.avSeg.length ≤ 48 := by
  rw [DataWr.avSeg]
  cases wr.dest with
  | rc => simp
  | dc av dctNumber dctAccessKey => cases hgrh : av.hasGrh <;> simp [lidPart_length, grhPart_length, hgrh]
  | ud av remoteQpn remoteQkey => simp [lidPart_length, grhPart_length]

theorem raddrSeg_length (wr : DataWr) : wr.raddrSeg.length = 0 ∨ wr.raddrSeg.length = 16 := by
  rw [raddrSeg_eq]
  split <;> simp

/-- A device reads the request from its entry, whatever fills up the last unit. -/
theorem parse_entry (h : wr.Encodable src) (hpost : curPost < 65536) (hsize : size < 256)
    {pad : List UInt8}
    (hpad : (wr.dataSegs src).length + pad.length = ((wr.dataSegs src).length + 15) / 16 * 16) :
    parse wr.dest.kind (wr.entry cfg src curPost size ++ pad) = wr.view cfg src curPost := by
  obtain ⟨hidx, hop, hqpn, -, hflags, hex⟩ :=
    ctrl_fields cfg wr hpost hsize (wr.avSeg ++ (wr.raddrSeg ++ (wr.dataSegs src ++ pad)))
  obtain ⟨hfence, hcq, hse⟩ := flags_bits cfg wr
  have hdrop : (wr.ctrl cfg curPost size ++
      (wr.avSeg ++ (wr.raddrSeg ++ (wr.dataSegs src ++ pad)))).drop 16 =
      wr.avSeg ++ (wr.raddrSeg ++ (wr.dataSegs src ++ pad)) :=
    List.drop_left' (ctrl_length cfg wr curPost size)
  rw [DataWr.entry, List.append_assoc, List.append_assoc, List.append_assoc, parse, hidx, hop, hqpn,
    hflags, hex, hdrop, parseAv_avSeg h]
  dsimp only
  rw [parseRaddr_raddrSeg]
  dsimp only
  rw [parseSegs_dataSegs h hpad (Nat.le_refl _), hfence, hcq, hse]
  rfl

theorem field_read_byte (v : Mem) {n j : Nat} (hj : j < n) :
    field (v.read 0 n) j 1 = (v j).toNat := by
  obtain ⟨d, rfl⟩ := Nat.exists_eq_add_of_lt hj
  rw [Nat.add_assoc, Mem.read_add, field_right (by simp), Mem.read_length, Nat.sub_self, Nat.zero_add,
    Nat.add_comm d 1, Mem.read_add]
  simp [field, Mem.read, ofBe, Word.ofBytes]

/-- The length of an entry that stands at the start of a memory. -/
theorem ds_entry (hpost : curPost < 65536) (hunits : wr.units src < 256) {v : Mem}
    {pad : List UInt8}
    (hread : v.read 0 (16 * wr.units src) = wr.entry cfg src curPost (wr.units src) ++ pad) :
    (v 7).toNat = wr.units src := by
  have hbyte := field_read_byte v (n := 16 * wr.units src) (j := 7) (by rw [DataWr.units]; omega)
  obtain ⟨-, -, -, hds, -⟩ :=
    ctrl_fields cfg wr hpost hunits (wr.avSeg ++ (wr.raddrSeg ++ wr.dataSegs src) ++ pad)
  rw [← hbyte, hread, DataWr.entry, List.append_assoc, hds]

/-- The request from a memory that starts with its entry. -/
theorem fetch_entry (h : wr.Encodable src) (hpost : curPost < 65536) (hunits : wr.units src < 256)
    {v : Mem} {pad : List UInt8}
    (hpad : (wr.dataSegs src).length + pad.length = ((wr.dataSegs src).length + 15) / 16 * 16)
    (hread : v.read 0 (16 * wr.units src) = wr.entry cfg src curPost (wr.units src) ++ pad) :
    fetch wr.dest.kind v = wr.view cfg src curPost := by
  rw [fetch, ds_entry hpost hunits hread, hread, parse_entry h hpost hunits hpad]

end Driver
