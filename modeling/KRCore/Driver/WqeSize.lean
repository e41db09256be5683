-- SUMMARY: Send queues in the driver: how they are sized, and how large the entries are that a request on a DC queue pair writes.
import Mathlib.Algebra.Group.Nat.Defs
import Mathlib.Data.List.Basic

/-!
# Sizes of work-queue entries

The driver sizes the send queue of a queue pair when it creates the pair:
`calcSendWqe` is the room it counts for one request, `calcSqSize` the number of
64-byte blocks and the limits it reports, by the type of the queue pair. On a DC
queue pair `postSend` writes a request as one entry, or as several for a region
with signatures; an entry is measured in units of 16 bytes and takes whole blocks.

Sizes are of type `int` in the driver. The model keeps them as integers and wraps
them where the driver stores a wider result (`wrapInt`).
-/

namespace Driver

/-! ## Sizes of segments, in bytes -/

def ctrlSeg : Int := 16
def datagramSeg : Int := 48
def raddrSeg : Int := 16
def atomicSeg : Int := 16
def dataSeg : Int := 16
def inlineSeg : Int := 4
def xrcSeg : Int := 16
def umrCtrlSeg : Int := 48
def mkeySeg : Int := 64
def setPsvSeg : Int := 16
def klm : Int := 16
def strideBlockCtrlSeg : Int := 16
def strideBlockEntry : Int := 16
def bsf : Int := 64

/-- `MLX5_SEND_WQE_BB`, the size of a block of the queue. -/
def sendWqeBb : Int := 64

/-- `MLX5_SIG_WQE_SIZE`. -/
def sigWqeSize : Int := 512

/-- `MLX5_IB_SQ_UMR_INLINE_THRESHOLD`: descriptors up to this size stand in the entry. -/
def umrInlineThreshold : Nat := 64

/-- `MLX5_IB_UMR_OCTOWORD`. -/
def umrOctoword : Nat := 16

/-- A wider value stored in an `int`. -/
def wrapInt (x : Int) : Int := (x + 2147483648) % 4294967296 - 2147483648

/-- `ALIGN`: the next multiple of `a`. -/
def align (x a : Int) : Int := (x + (a - 1)) / a * a

theorem wrapInt_of_bounds {x : Int} (hlo : -2147483648 ≤ x) (hhi : x < 2147483648) :
    wrapInt x = x := by
  unfold wrapInt
  omega

/-! ## Creation -/

/-- The types of queue pairs that are modelled. -/
inductive QpKind where
  | rc
  | dc
  | ud
deriving DecidableEq, Repr

/-- The capabilities of the device that bound a send queue. -/
structure DevCaps where
  maxWqeSzSq : Nat
  logMaxQpSz : Nat
deriving DecidableEq, Repr

/-- The attributes of `ib_create_qp` that the send queue depends on: the send capabilities
    and the two creation flags. -/
structure InitAttr where
  maxSendWr : UInt32
  maxSendSge : UInt32
  maxInlineData : UInt32
  integrityEn : Bool
  signaturePipeline : Bool
deriving DecidableEq

/-- The send queue of a queue pair: the limits it reports and its geometry. -/
structure IbQp where
  maxGs : Int
  maxInlineData : Int
  wqeCnt : Nat
  maxPost : Nat
  integrityEn : Bool
  drainSigerr : Bool
deriving DecidableEq, Repr

inductive CreateError where
  | einval
  | enomem
  /-- A negative size is returned as the error. -/
  | negative (size : Int)
  /-- Not an answer: the driver divides by the size. -/
  | divideByZero
deriving DecidableEq, Repr

namespace QpKind

/-- `sq_overhead`. What it counts for a UD pair that offloads segmentation is left out, as is
    that flag of `ib_create_qp`. -/
def sqOverhead : QpKind → Int
  | .dc => ctrlSeg + datagramSeg + raddrSeg
  | .rc =>
    ctrlSeg +
      max (atomicSeg + raddrSeg)
        (umrCtrlSeg + mkeySeg + ((umrInlineThreshold / umrOctoword : Nat) : Int))
  | .ud => ctrlSeg + datagramSeg

/-- The room of one request. -/
def calcSendWqe (kind : QpKind) (attr : InitAttr) : Int :=
  let inlSize : Int :=
    if attr.maxInlineData = 0 then 0
    else wrapInt (kind.sqOverhead + inlineSeg + attr.maxInlineData.toNat)
  let size := wrapInt (kind.sqOverhead + attr.maxSendSge.toNat * dataSeg)
  let wqeSize := wrapInt (align (max inlSize size) sendWqeBb)
  if attr.integrityEn ∧ wqeSize < sigWqeSize then sigWqeSize else wqeSize

/-- The number of scatter/gather entries of a request. The first difference is one of
    `size_t`, and the second divides the overhead only. -/
def getSendSge (kind : QpKind) (wqeSize : Int) : Int :=
  let left :=
    match kind with
    | .rc => min wqeSize 512 - ctrlSeg - raddrSeg
    | .dc => min wqeSize 512 - ctrlSeg - datagramSeg - raddrSeg
    | .ud => wqeSize - sqOverhead .ud
  let maxSge := wrapInt (left % 18446744073709551616 / dataSeg)
  min maxSge (wqeSize - kind.sqOverhead / dataSeg)

end QpKind

/-- `roundup_pow_of_two`; the shift by the word size for `0` gives `1`. -/
def roundupPowOfTwo (n : Nat) : Nat := if n ≤ 1 then 1 else 1 <<< (Nat.log2 (n - 1) + 1)

/-- Size the send queue. A queue pair without send requests has no send queue, and a
    negative `wq_size` is an error for the caller. -/
def QpKind.calcSqSize (kind : QpKind) (dev : DevCaps) (attr : InitAttr) : Except CreateError IbQp :=
  if attr.maxSendWr = 0 then
    .ok { maxGs := 0, maxInlineData := 0, wqeCnt := 0, maxPost := 0,
          integrityEn := attr.integrityEn, drainSigerr := attr.signaturePipeline }
  else
    let wqeSize := kind.calcSendWqe attr
    if wqeSize < 0 then .error (.negative wqeSize)
    else if dev.maxWqeSzSq < wqeSize then .error .einval
    else
      let wqSize := wrapInt
        (roundupPowOfTwo (attr.maxSendWr.toNat * wqeSize.toNat % 4294967296) : Nat)
      let maxGs := kind.getSendSge wqeSize
      if wrapInt ((1 <<< dev.logMaxQpSz : Nat) : Int) < wqSize.tdiv sendWqeBb then .error .enomem
      else if maxGs % 4294967296 < attr.maxSendSge.toNat then .error .enomem
      else if wqeSize = 0 then .error .divideByZero
      else if wqSize < 0 then .error (.negative wqSize)
      else
        .ok { maxGs := maxGs, maxInlineData := wqeSize - kind.sqOverhead - inlineSeg,
              wqeCnt := (wqSize / sendWqeBb).toNat, maxPost := (wqSize / wqeSize).toNat,
              integrityEn := attr.integrityEn, drainSigerr := attr.signaturePipeline }

/-! A DC queue pair. -/

def calcSendWqe : InitAttr → Int := QpKind.calcSendWqe .dc

def calcSqSize : DevCaps → InitAttr → Except CreateError IbQp := QpKind.calcSqSize .dc

/-! ## Requests -/

inductive SigType where
  | none
  | t10Dif
  | other
deriving DecidableEq, Repr

/-- What posting reads of a region with signatures. -/
structure SigMr where
  /-- The size of the descriptors of the region's own memory region, if it has one. -/
  piMr : Option Nat
  remoteAtomic : Bool
  hasSig : Bool
  sigStatusChecked : Bool
  /-- The protection stands in a range of its own. -/
  separateProt : Bool
  mem : SigType
  wire : SigType
deriving DecidableEq, Repr

/-- The opcodes that posting tells apart; `regMr` carries the size of the region's
    descriptors, and `other` is any other number. -/
inductive Opcode where
  | rdmaRead
  | rdmaWrite
  | rdmaWriteWithImm
  | send
  | sendWithImm
  | sendWithInv
  | atomicCmpAndSwp
  | atomicFetchAndAdd
  | maskedAtomicCmpAndSwp
  | localInv
  | regMr (listSize : Nat)
  | regMrIntegrity (sig : SigMr)
  | other (code : Nat)
deriving DecidableEq, Repr

structure SendWr where
  opcode : Opcode
  /-- The lengths of the scatter/gather entries. -/
  sgList : List UInt32
  sendInline : Bool
  sigPipelined : Bool
  /-- The address vector has a global routing header. -/
  grh : Bool
deriving DecidableEq

inductive Errno where
  | einval
  | enomem
  | enosys
deriving DecidableEq, Repr

/-- What posting a request has done: the sizes of the entries it has finished, in units of
    16 bytes, and the error. -/
structure Posted where
  finished : List Int
  err : Option Errno
deriving DecidableEq, Repr

def Posted.refused (e : Errno) : Posted := ⟨[], some e⟩

/-- `ARRAY_SIZE(mlx5_ib_opcode)`. -/
def opcodeCount : Nat := 244

def Opcode.known : Opcode → Bool
  | .other code => code < opcodeCount
  | _ => true

def Opcode.isSend : Opcode → Bool
  | .send | .sendWithImm | .sendWithInv => true
  | _ => false

/-- The size of the address vector in the entry. -/
def xsetDciSeg (grh : Bool) : Int := if grh then datagramSeg else 16

def setLinvWr (size : Int) : Int := size + umrCtrlSeg / 16 + mkeySeg / 16

/-- Descriptors are copied into the entry up to the threshold, which is then filled up to
    a whole block; larger ones are pointed to. -/
def setRegWr (listSize : Nat) (size : Int) : Int :=
  let size := size + umrCtrlSeg / 16 + mkeySeg / 16
  if listSize ≤ umrInlineThreshold then
    align (size + align listSize 16 / 16) (sendWqeBb / 16)
  else size + dataSeg / 16

def protFieldSize : SigType → Nat
  | .t10Dif => 8
  | _ => 0

def setBsf (mem wire : SigType) : Bool := mem ≠ .other ∧ wire ≠ .other

def setSigDataSegment (sig : SigMr) (size : Int) : Option Int :=
  if sig.separateProt then
    if protFieldSize sig.mem = 0 then none
    else if setBsf sig.mem sig.wire then
      some (size + align (strideBlockCtrlSeg + strideBlockEntry + strideBlockEntry) 64 / 16
        + bsf / 16)
    else none
  else if setBsf sig.mem sig.wire then some (size + align klm 64 / 16 + bsf / 16)
  else none

def setPiUmrWr (qp : IbQp) (wr : SendWr) (sig : SigMr) (size : Int) : Option Int :=
  if wr.sgList.length ≠ 0 ∨ sig.remoteAtomic ∨ ¬sig.hasSig ∨ ¬qp.integrityEn ∨
      ¬sig.sigStatusChecked then none
  else setSigDataSegment sig (size + umrCtrlSeg / 16 + mkeySeg / 16)

def setPsvWr (domain : SigType) (size : Int) : Option Int :=
  match domain with
  | .other => none
  | _ => some (size + setPsvSeg / 16)

/-- The two `SET_PSV` entries behind those in `done`. -/
def postPsvs (sig : SigMr) (done : List Int) : Posted :=
  match setPsvWr sig.mem (ctrlSeg / 16) with
  | none => ⟨done, some .einval⟩
  | some mem =>
    match setPsvWr sig.wire (ctrlSeg / 16) with
    | none => ⟨done ++ [mem], some .einval⟩
    | some wire => ⟨done ++ [mem, wire], none⟩

/-- A region with signatures. If it has a memory region of its own, the entry that is open
    registers that one, and the region itself starts an entry without an address vector. -/
def postRegMrIntegrity (qp : IbQp) (wr : SendWr) (sig : SigMr) (size : Int) : Posted :=
  match sig.piMr with
  | some listSize =>
    match setPiUmrWr qp wr sig (ctrlSeg / 16) with
    | none => ⟨[setRegWr listSize size], some .einval⟩
    | some umr => postPsvs sig [setRegWr listSize size, umr]
  | none =>
    match setPiUmrWr qp wr sig size with
    | none => .refused .einval
    | some umr => postPsvs sig [umr]

/-- The bytes of an inline request, added up in an `int`. -/
def inlineBytes (maxInlineData : Int) : Int → List UInt32 → Option Int
  | inl, [] => some inl
  | inl, len :: lens =>
    let inl := wrapInt (inl + len.toNat)
    if maxInlineData < inl then none else inlineBytes maxInlineData inl lens

def setDataInlSeg (qp : IbQp) (wr : SendWr) (size : Int) : Option Int :=
  (inlineBytes qp.maxInlineData 0 wr.sgList).map fun inl =>
    wrapInt (size + align ((inl + inlineSeg) % 18446744073709551616) 16 / 16)

/-- The data of a request: copied into the entry, or one pointer for each entry of the
    list that is not empty. -/
def postData (qp : IbQp) (wr : SendWr) (size : Int) : Posted :=
  if wr.sendInline ∧ wr.sgList ≠ [] then
    match setDataInlSeg qp wr size with
    | none => .refused .enomem
    | some size => ⟨[size], none⟩
  else ⟨[size + (wr.sgList.countP (· ≠ 0)) * (dataSeg / 16)], none⟩

/-- The segments that depend on the opcode, and the data. -/
def postOpcode (qp : IbQp) (wr : SendWr) : Posted :=
  let size := ctrlSeg / 16 + xsetDciSeg wr.grh / 16
  match wr.opcode with
  | .rdmaRead | .rdmaWrite | .rdmaWriteWithImm => postData qp wr (size + raddrSeg / 16)
  | .atomicCmpAndSwp | .atomicFetchAndAdd | .maskedAtomicCmpAndSwp => .refused .enosys
  | .localInv => ⟨[setLinvWr size], none⟩
  | .regMr listSize =>
    -- the segment of an extended reliable connection takes the place of the address vector
    if wr.sendInline then .refused .einval
    else ⟨[setRegWr listSize (ctrlSeg / 16 + xrcSeg / 16)], none⟩
  | .regMrIntegrity sig => postRegMrIntegrity qp wr sig size
  | .send | .sendWithImm | .sendWithInv | .other _ => postData qp wr size

/-- The loop body of `_mlx5_ib_post_send` on a DC queue pair with `cur` requests that are
    not completed. -/
def postSend (qp : IbQp) (cur : Nat) (wr : SendWr) : Posted :=
  if ¬wr.opcode.known then .refused .einval
  else if qp.maxGs < wr.sgList.length then .refused .einval
  else if qp.maxPost ≤ cur then .refused .enomem
  else if wr.opcode.isSend ∧ wr.sigPipelined ∧ ¬qp.drainSigerr then .refused .einval
  else postOpcode qp wr

/-- The blocks that an entry takes. -/
def wqeBlocks (size : Int) : Nat := ((size * 16 + (sendWqeBb - 1)) / sendWqeBb).toNat

/-- The blocks of all entries of a request. -/
def requestBlocks : List Int → Nat
  | [] => 0
  | size :: sizes => wqeBlocks size + requestBlocks sizes

def totalLength : List UInt32 → Nat
  | [] => 0
  | len :: lens => len.toNat + totalLength lens

/-- The list of a request keeps to the limits that creation has reported. -/
def WithinLimits (qp : IbQp) (wr : SendWr) : Prop :=
  wr.sgList.length ≤ qp.maxGs ∧ (wr.sendInline → (totalLength wr.sgList : Int) ≤ qp.maxInlineData)

/-- What a request without data takes in whole blocks; a request with data takes what the
    limits leave it. -/
def SendWr.fixedBytes (wr : SendWr) : Int :=
  match wr.opcode with
  | .localInv => 192
  | .regMr listSize => if 48 < listSize ∧ listSize ≤ 64 then 256 else 192
  | .regMrIntegrity sig =>
    match sig.piMr with
    | none => 448
    | some listSize =>
      if listSize ≤ 64 ∧ (48 < listSize ∨ wr.grh ∧ 16 < listSize) then 640 else 576
  | _ => 0

/-- The most that a request without data takes on a queue pair. -/
def maxFixedBytes (integrityEn : Bool) : Int := if integrityEn then 640 else 256

/-! ## What creation guarantees -/

/-- A send queue whose requests have room `wqeSize`. -/
structure Sized (kind : QpKind) (qp : IbQp) (wqeSize : Int) : Prop where
  pos : 0 < wqeSize
  small : wqeSize < 2147483648
  aligned : wqeSize % 64 = 0
  gs : qp.maxGs = kind.getSendSge wqeSize
  inl : qp.maxInlineData = wqeSize - kind.sqOverhead - inlineSeg
  pow : ∃ k, qp.wqeCnt = 2 ^ k
  room : qp.maxPost * wqeSize ≤ qp.wqeCnt * 64

theorem roundupPowOfTwo_eq {n : Nat} (h : n < 4294967296) :
    ∃ k ≤ 32, roundupPowOfTwo n = 2 ^ k := by
  unfold roundupPowOfTwo
  split
  · exact ⟨0, Nat.zero_le 32, rfl⟩
  · rename_i hn
    refine ⟨Nat.log2 (n - 1) + 1, ?_, Nat.one_shiftLeft _⟩
    have hlog : Nat.log2 (n - 1) < 32 := (Nat.log2_lt (by omega)).mpr (by omega)
    exact hlog

/-- A power of two that is positive as an `int` has not wrapped. -/
theorem wrapInt_two_pow {k : Nat} (hk : k ≤ 32) (hpos : 0 < wrapInt ((2 ^ k : Nat) : Int)) :
    wrapInt ((2 ^ k : Nat) : Int) = ((2 ^ k : Nat) : Int) := by
  have hcases : k = 32 ∨ k = 31 ∨ k ≤ 30 := by omega
  rcases hcases with rfl | rfl | hle
  · exact absurd hpos (by decide)
  · exact absurd hpos (by decide)
  · have hbound : 2 ^ k ≤ 2 ^ 30 := Nat.pow_le_pow_right (by decide) hle
    generalize 2 ^ k = x at hbound
    exact wrapInt_of_bounds (by omega) (by omega)

theorem QpKind.calcSendWqe_spec (kind : QpKind) (attr : InitAttr) :
    kind.calcSendWqe attr % 64 = 0 ∧ kind.calcSendWqe attr < 2147483648 := by
  unfold calcSendWqe
  dsimp only
  generalize (max _ _ : Int) = x
  by_cases hsig : attr.integrityEn = true ∧ wrapInt (align x sendWqeBb) < sigWqeSize
  · rw [if_pos hsig]
    exact ⟨rfl, by decide⟩
  · rw [if_neg hsig]
    simp only [wrapInt, align, sendWqeBb]
    exact ⟨by omega, by omega⟩

/-- A buffer that has room for a request is a power of two, of at least one block. -/
theorem wqSize_of_maxPost_pos {k : Nat} {wqeSize : Int} (hk : k ≤ 32) (hpos : 0 < wqeSize)
    (haligned : wqeSize % 64 = 0) (hpost : 0 < (wrapInt ((2 ^ k : Nat) : Int) / wqeSize).toNat) :
    ∃ j, wrapInt ((2 ^ k : Nat) : Int) = ((2 ^ j : Nat) : Int) * 64 := by
  have hquot : 1 ≤ wrapInt ((2 ^ k : Nat) : Int) / wqeSize := by omega
  have hle : wqeSize ≤ wrapInt ((2 ^ k : Nat) : Int) := by
    have hmul := Int.mul_le_mul_of_nonneg_right hquot (Int.le_of_lt hpos)
    have hdiv := Int.ediv_mul_le (wrapInt ((2 ^ k : Nat) : Int)) (Int.ne_of_gt hpos)
    omega
  have hwrap := wrapInt_two_pow hk (Int.lt_of_lt_of_le hpos hle)
  rw [hwrap] at hle ⊢
  have hk6 : 6 ≤ k := by
    by_contra hlt
    have hbound : 2 ^ k ≤ 2 ^ 5 := Nat.pow_le_pow_right (by decide) (by omega)
    generalize 2 ^ k = x at hbound hle
    omega
  obtain ⟨j, rfl⟩ := Nat.exists_eq_add_of_le' hk6
  exact ⟨j, by rw [Nat.pow_add]; rfl⟩

/-- What a send queue that takes requests is made of; `2 ^ k` is the size of its buffer before
    it is stored in an `int`. -/
theorem QpKind.calcSqSize_eq_ok {kind : QpKind} {dev : DevCaps} {attr : InitAttr} {qp : IbQp}
    (h : kind.calcSqSize dev attr = .ok qp) (hpost : 0 < qp.maxPost) :
    ∃ k ≤ 32, 0 < kind.calcSendWqe attr ∧
      (wrapInt ((2 ^ k : Nat) : Int)).tdiv sendWqeBb ≤
        wrapInt ((1 <<< dev.logMaxQpSz : Nat) : Int) ∧
      qp =
        { maxGs := kind.getSendSge (kind.calcSendWqe attr)
          maxInlineData := kind.calcSendWqe attr - kind.sqOverhead - inlineSeg
          wqeCnt := (wrapInt ((2 ^ k : Nat) : Int) / sendWqeBb).toNat
          maxPost := (wrapInt ((2 ^ k : Nat) : Int) / kind.calcSendWqe attr).toNat
          integrityEn := attr.integrityEn
          drainSigerr := attr.signaturePipeline } := by
  unfold calcSqSize at h
  dsimp only at h
  generalize kind.calcSendWqe attr = wqeSize at h ⊢
  split at h
  · cases h
    exact absurd hpost (Nat.lt_irrefl 0)
  split at h
  · cases h
  rename_i hnonneg
  split at h
  · cases h
  obtain ⟨k, hk, hpow⟩ :=
    roundupPowOfTwo_eq (Nat.mod_lt (attr.maxSendWr.toNat * wqeSize.toNat) (by decide))
  rw [hpow] at h
  split at h
  · cases h
  rename_i hlog
  split at h
  · cases h
  split at h
  · cases h
  rename_i hzero
  split at h
  · cases h
  cases h
  exact ⟨k, hk, Int.lt_iff_le_and_ne.mpr ⟨Int.not_lt.mp hnonneg, Ne.symm hzero⟩,
    Int.not_lt.mp hlog, rfl⟩

/-- A send queue that takes a request is sized for the room of one. -/
theorem QpKind.calcSqSize_sized {kind : QpKind} {dev : DevCaps} {attr : InitAttr} {qp : IbQp}
    (h : kind.calcSqSize dev attr = .ok qp) (hpost : 0 < qp.maxPost) :
    Sized kind qp (kind.calcSendWqe attr) ∧ qp.integrityEn = attr.integrityEn ∧
      (dev.logMaxQpSz ≤ 16 → qp.wqeCnt ≤ 65536) := by
  obtain ⟨haligned, hsmall⟩ := kind.calcSendWqe_spec attr
  obtain ⟨k, hk, hpos, hlog, rfl⟩ := calcSqSize_eq_ok h hpost
  dsimp only at hpost
  obtain ⟨j, hj⟩ := wqSize_of_maxPost_pos hk hpos haligned hpost
  rw [hj] at hlog
  have hcnt : (((2 ^ j : Nat) : Int) * 64 / sendWqeBb).toNat = 2 ^ j := by
    rw [sendWqeBb, Int.mul_ediv_cancel _ (by decide), Int.toNat_natCast]
  rw [hj, hcnt]
  refine ⟨⟨hpos, hsmall, haligned, rfl, rfl, ⟨j, rfl⟩, ?_⟩, rfl, fun hdev => ?_⟩
  · dsimp only
    have hquot : 0 ≤ ((2 ^ j : Nat) : Int) * 64 / kind.calcSendWqe attr :=
      Int.ediv_nonneg (Int.mul_nonneg (Int.natCast_nonneg _) (by decide)) (Int.le_of_lt hpos)
    rw [Int.toNat_of_nonneg hquot]
    exact Int.ediv_mul_le _ (Int.ne_of_gt hpos)
  · dsimp only
    have hlimit : 1 <<< dev.logMaxQpSz ≤ 65536 := by
      rw [Nat.one_shiftLeft]
      exact Nat.pow_le_pow_right (by decide) hdev
    generalize 1 <<< dev.logMaxQpSz = limit at hlog hlimit
    rw [wrapInt_of_bounds (by omega) (by omega), sendWqeBb,
      Int.mul_tdiv_cancel _ (by decide)] at hlog
    exact Nat.le_trans (Int.ofNat_le.mp hlog) hlimit

/-! ## What a request writes -/

variable {qp : IbQp} {wqeSize : Int} {wr : SendWr}

/-- The bytes before the data, at most. -/
def QpKind.header : QpKind → Nat
  | .rc => 32
  | .dc => 80
  | .ud => 64

/-- The pointers that the limit allows fit behind the largest header. -/
theorem Sized.pointers_fit {kind : QpKind} (hq : Sized kind qp wqeSize) {n : Nat}
    (h : n ≤ qp.maxGs) : kind.header + 16 * (n : Int) ≤ wqeSize := by
  have hpos := hq.pos
  have hsmall := hq.small
  rw [hq.gs] at h
  cases kind <;>
    simp only [QpKind.getSendSge, QpKind.sqOverhead, QpKind.header, wrapInt, ctrlSeg, datagramSeg,
      raddrSeg, dataSeg] at h ⊢ <;>
    omega

theorem Sized.inl_dc (hq : Sized .dc qp wqeSize) : qp.maxInlineData = wqeSize - 84 := by
  rw [hq.inl, QpKind.sqOverhead, ctrlSeg, datagramSeg, raddrSeg, inlineSeg]
  omega

/-- Bytes within the limit are added up as they are. -/
theorem inlineBytes_eq {limit : Int} (hlimit : limit < 2147483648) {inl : Int} (hinl : 0 ≤ inl)
    {lens : List UInt32} (h : inl + totalLength lens ≤ limit) :
    inlineBytes limit inl lens = some (inl + totalLength lens) := by
  induction lens generalizing inl with
  | nil => simp [inlineBytes, totalLength]
  | cons len lens ih =>
    rw [totalLength] at h ⊢
    have hwrap : wrapInt (inl + len.toNat) = inl + len.toNat :=
      wrapInt_of_bounds (by omega) (by omega)
    simp only [inlineBytes, hwrap]
    rw [if_neg (by omega), ih (by omega) (by omega)]
    congr 1
    omega

/-- A request with data is one entry that fits, behind any header that creation has
    counted. -/
theorem Sized.postData_eq (hq : Sized .dc qp wqeSize) (hwr : WithinLimits qp wr) {size : Int}
    (hnonneg : 0 ≤ size) (hheader : size ≤ 5) :
    ∃ full, postData qp wr size = ⟨[full], none⟩ ∧ size ≤ full ∧ full * 16 ≤ wqeSize := by
  have hpos := hq.pos
  have hsmall := hq.small
  have haligned := hq.aligned
  have hgs := hq.pointers_fit hwr.1
  rw [QpKind.header] at hgs
  unfold postData
  split
  · rename_i hinline
    have hlen := hwr.2 hinline.1
    have hbytes : inlineBytes qp.maxInlineData 0 wr.sgList =
        some ((0 : Int) + totalLength wr.sgList) := by
      have hlimit := hq.inl_dc
      exact inlineBytes_eq (by omega) (Int.le_refl 0) (by omega)
    rw [hq.inl_dc] at hlen
    simp only [setDataInlSeg, hbytes, Option.map_some, inlineSeg, align, Int.zero_add]
    rw [wrapInt_of_bounds (by omega) (by omega)]
    exact ⟨_, rfl, by omega, by omega⟩
  · have hcount : wr.sgList.countP (· ≠ 0) ≤ wr.sgList.length := List.countP_le_length
    simp only [dataSeg]
    exact ⟨_, rfl, by omega, by omega⟩

/-- Only a queue pair with integrity takes a region with signatures. -/
theorem setPiUmrWr_eq {sig : SigMr} {size umr : Int} (h : setPiUmrWr qp wr sig size = some umr) :
    qp.integrityEn = true ∧ umr = size + 15 := by
  unfold setPiUmrWr at h
  split at h
  · cases h
  · rename_i hcheck
    refine ⟨by_contra fun hen => hcheck (.inr (.inr (.inr (.inl hen)))), ?_⟩
    unfold setSigDataSegment at h
    split at h
    · split at h
      · cases h
      · split at h
        · cases h
          simp only [umrCtrlSeg, mkeySeg, bsf, align, strideBlockCtrlSeg, strideBlockEntry]
          omega
        · cases h
    · split at h
      · cases h
        simp only [umrCtrlSeg, mkeySeg, bsf, align, klm]
        omega
      · cases h

theorem setPsvWr_eq {domain : SigType} {size psv : Int} (h : setPsvWr domain size = some psv) :
    psv = size + 1 := by
  cases domain with
  | none => exact (Option.some.inj h).symm
  | t10Dif => exact (Option.some.inj h).symm
  | other => cases h

theorem postPsvs_finished {sig : SigMr} {done : List Int} (h : (postPsvs sig done).err = none) :
    (postPsvs sig done).finished = done ++ [2, 2] := by
  unfold postPsvs at h ⊢
  cases hmem : setPsvWr sig.mem (ctrlSeg / 16) with
  | none => simp [hmem] at h
  | some mem =>
    cases hwire : setPsvWr sig.wire (ctrlSeg / 16) with
    | none => simp [hmem, hwire] at h
    | some wire =>
      rw [setPsvWr_eq hmem, setPsvWr_eq hwire]
      rfl

/-- The entry that registers a memory region takes a fourth block for the descriptors that
    do not fit behind its header. -/
theorem wqeBlocks_setRegWr (listSize : Nat) {size : Int} (hlo : 2 ≤ size) (hhi : size ≤ 4) :
    (wqeBlocks (setRegWr listSize size) : Int) =
      if listSize ≤ 64 ∧ 16 * (5 - size) < listSize then 4 else 3 := by
  have hthreshold : umrInlineThreshold = 64 := rfl
  by_cases hcopied : listSize ≤ umrInlineThreshold
  · simp only [setRegWr, if_pos hcopied, wqeBlocks, align, sendWqeBb, umrCtrlSeg, mkeySeg]
    by_cases hbig : 16 * (5 - size) < (listSize : Int)
    · rw [if_pos ⟨hcopied, hbig⟩]
      omega
    · rw [if_neg fun h => hbig h.2]
      omega
  · simp only [setRegWr, if_neg hcopied, wqeBlocks, sendWqeBb, umrCtrlSeg, mkeySeg, dataSeg]
    rw [if_neg fun h => hcopied h.1]
    omega

theorem postRegMrIntegrity_blocks {sig : SigMr} {size : Int} (hnonneg : 0 ≤ size)
    (h : (postRegMrIntegrity qp wr sig size).err = none) :
    qp.integrityEn = true ∧ (requestBlocks (postRegMrIntegrity qp wr sig size).finished : Int) =
      match sig.piMr with
      | none => (size + 15 + 3) / 4 + 2
      | some listSize => wqeBlocks (setRegWr listSize size) + 6 := by
  unfold postRegMrIntegrity at h ⊢
  cases hpi : sig.piMr with
  | none =>
    simp only [hpi] at h ⊢
    cases humr : setPiUmrWr qp wr sig size with
    | none => simp [humr, Posted.refused] at h
    | some umr =>
      simp only [humr] at h ⊢
      refine ⟨(setPiUmrWr_eq humr).1, ?_⟩
      rw [postPsvs_finished h, (setPiUmrWr_eq humr).2]
      simp only [List.cons_append, List.nil_append, requestBlocks, wqeBlocks, sendWqeBb]
      omega
  | some listSize =>
    simp only [hpi] at h ⊢
    cases humr : setPiUmrWr qp wr sig (ctrlSeg / 16) with
    | none => simp [humr] at h
    | some umr =>
      simp only [humr] at h ⊢
      refine ⟨(setPiUmrWr_eq humr).1, ?_⟩
      rw [postPsvs_finished h, (setPiUmrWr_eq humr).2]
      rfl

/-- The control segment and the address vector. -/
theorem header_bounds (grh : Bool) :
    2 ≤ ctrlSeg / 16 + xsetDciSeg grh / 16 ∧ ctrlSeg / 16 + xsetDciSeg grh / 16 ≤ 4 := by
  cases grh <;> decide

/-- The three kinds of requests that are not for a region with signatures: one entry with
    data, one entry of a fixed size, and those that are refused. -/
theorem postOpcode_cases (qp : IbQp) (hop : ∀ sig, wr.opcode ≠ .regMrIntegrity sig) :
    (∃ size, postOpcode qp wr = postData qp wr size ∧ 0 < size ∧ size ≤ 5 ∧ wr.fixedBytes = 0) ∨
      (∃ size, postOpcode qp wr = ⟨[size], none⟩ ∧ 0 < wqeBlocks size ∧
        (wqeBlocks size : Int) * 64 = wr.fixedBytes) ∨
      ∃ e, postOpcode qp wr = .refused e := by
  have hheader := header_bounds wr.grh
  have hraddr : raddrSeg / 16 = 1 := rfl
  unfold postOpcode SendWr.fixedBytes
  cases hcase : wr.opcode with
  | rdmaRead => exact .inl ⟨_, rfl, by omega, by omega, rfl⟩
  | rdmaWrite => exact .inl ⟨_, rfl, by omega, by omega, rfl⟩
  | rdmaWriteWithImm => exact .inl ⟨_, rfl, by omega, by omega, rfl⟩
  | send => exact .inl ⟨_, rfl, by omega, by omega, rfl⟩
  | sendWithImm => exact .inl ⟨_, rfl, by omega, by omega, rfl⟩
  | sendWithInv => exact .inl ⟨_, rfl, by omega, by omega, rfl⟩
  | other code => exact .inl ⟨_, rfl, by omega, by omega, rfl⟩
  | atomicCmpAndSwp => exact .inr (.inr ⟨_, rfl⟩)
  | atomicFetchAndAdd => exact .inr (.inr ⟨_, rfl⟩)
  | maskedAtomicCmpAndSwp => exact .inr (.inr ⟨_, rfl⟩)
  | localInv =>
    have hblocks : wqeBlocks (setLinvWr (ctrlSeg / 16 + xsetDciSeg wr.grh / 16)) = 3 := by
      cases wr.grh <;> decide
    refine .inr (.inl ⟨_, rfl, by omega, ?_⟩)
    rw [hblocks]
    rfl
  | regMr listSize =>
    dsimp only
    split
    · exact .inr (.inr ⟨_, rfl⟩)
    · have hreg := wqeBlocks_setRegWr listSize (show 2 ≤ ctrlSeg / 16 + xrcSeg / 16 by decide)
        (by decide)
      have hcond : (listSize ≤ 64 ∧ 16 * (5 - (ctrlSeg / 16 + xrcSeg / 16)) < (listSize : Int)) ↔
          48 < listSize ∧ listSize ≤ 64 := by
        simp only [ctrlSeg, xrcSeg]
        omega
      rw [if_congr hcond rfl rfl] at hreg
      refine .inr (.inl ⟨_, rfl, ?_⟩)
      split at hreg
      · exact ⟨by omega, by omega⟩
      · exact ⟨by omega, by omega⟩
  | regMrIntegrity sig => exact absurd hcase (hop sig)

/-- The entries of a region with signatures. -/
theorem postOpcode_integrity {sig : SigMr} (hsig : wr.opcode = .regMrIntegrity sig)
    (hok : (postOpcode qp wr).err = none) :
    qp.integrityEn = true ∧
      (requestBlocks (postOpcode qp wr).finished : Int) * 64 = wr.fixedBytes := by
  have hheader := header_bounds wr.grh
  unfold postOpcode SendWr.fixedBytes at *
  simp only [hsig] at hok ⊢
  obtain ⟨hen, hblocks⟩ := postRegMrIntegrity_blocks (by omega) hok
  refine ⟨hen, ?_⟩
  rw [hblocks]
  cases hpi : sig.piMr with
  | none =>
    dsimp only
    omega
  | some listSize =>
    have hcond : (listSize ≤ 64 ∧
        16 * (5 - (ctrlSeg / 16 + xsetDciSeg wr.grh / 16)) < (listSize : Int)) ↔
        listSize ≤ 64 ∧ (48 < listSize ∨ wr.grh = true ∧ 16 < listSize) := by
      cases wr.grh with
      | false =>
        simp only [xsetDciSeg, ctrlSeg, Bool.false_eq_true, if_false, false_and, or_false]
        omega
      | true =>
        simp only [xsetDciSeg, ctrlSeg, datagramSeg, if_true, true_and]
        omega
    dsimp only
    rw [wqeBlocks_setRegWr listSize (by omega) (by omega), if_congr hcond rfl rfl]
    split
    · rfl
    · rfl

/-! ## What fits -/

/-- A request fits exactly if what it takes without data does. -/
theorem Sized.request_fits_iff (hq : Sized .dc qp wqeSize) (hwr : WithinLimits qp wr)
    (hok : (postOpcode qp wr).err = none) :
    (requestBlocks (postOpcode qp wr).finished : Int) * 64 ≤ wqeSize ↔
      wr.fixedBytes ≤ wqeSize := by
  have hpos := hq.pos
  have haligned := hq.aligned
  by_cases hop : ∃ sig, wr.opcode = .regMrIntegrity sig
  · obtain ⟨sig, hsig⟩ := hop
    rw [(postOpcode_integrity hsig hok).2]
  · rcases postOpcode_cases qp fun sig hsig => hop ⟨sig, hsig⟩ with
      ⟨size, heq, hlo, hhi, hfixed⟩ | ⟨size, heq, -, hfixed⟩ | ⟨e, heq⟩
    · obtain ⟨full, hdata, hle, hfit⟩ := hq.postData_eq hwr (Int.le_of_lt hlo) hhi
      rw [heq, hdata, hfixed]
      simp only [requestBlocks, wqeBlocks, sendWqeBb]
      omega
    · rw [heq, ← hfixed]
      rfl
    · rw [heq] at hok
      cases hok

theorem SendWr.fixedBytes_le (wr : SendWr) : wr.fixedBytes ≤ 640 := by
  unfold SendWr.fixedBytes
  split
  · decide
  · split <;> decide
  · split
    · decide
    · split <;> decide
  · decide

theorem SendWr.fixedBytes_le_of_plain (hop : ∀ sig, wr.opcode ≠ .regMrIntegrity sig) :
    wr.fixedBytes ≤ 256 := by
  unfold SendWr.fixedBytes
  split
  · decide
  · split <;> decide
  · rename_i sig hsig
    exact absurd hsig (hop sig)
  · decide

theorem postOpcode_fixedBytes_le (hok : (postOpcode qp wr).err = none) :
    wr.fixedBytes ≤ maxFixedBytes qp.integrityEn := by
  by_cases hop : ∃ sig, wr.opcode = .regMrIntegrity sig
  · obtain ⟨sig, hsig⟩ := hop
    rw [(postOpcode_integrity hsig hok).1]
    exact wr.fixedBytes_le
  · cases qp.integrityEn with
    | true => exact wr.fixedBytes_le
    | false => exact SendWr.fixedBytes_le_of_plain fun sig hsig => hop ⟨sig, hsig⟩

/-- A request other than a region with signatures finishes one entry. -/
theorem Sized.postOpcode_single (hq : Sized .dc qp wqeSize) (hwr : WithinLimits qp wr)
    (hop : ∀ sig, wr.opcode ≠ .regMrIntegrity sig) (hok : (postOpcode qp wr).err = none) :
    ∃ size, postOpcode qp wr = ⟨[size], none⟩ ∧ 0 < wqeBlocks size := by
  rcases postOpcode_cases qp hop with
    ⟨size, heq, hlo, hhi, -⟩ | ⟨size, heq, hpos, -⟩ | ⟨e, heq⟩
  · obtain ⟨full, hdata, hle, -⟩ := hq.postData_eq hwr (Int.le_of_lt hlo) hhi
    refine ⟨full, heq.trans hdata, ?_⟩
    simp only [wqeBlocks, sendWqeBb]
    omega
  · exact ⟨size, heq, hpos⟩
  · rw [heq] at hok
    cases hok

theorem postData_refused {size : Int} (h : (postData qp wr size).err ≠ none) :
    (postData qp wr size).finished = [] := by
  unfold postData at h ⊢
  split
  · rename_i hinline
    cases hdata : setDataInlSeg qp wr size with
    | none => rfl
    | some full =>
      rw [if_pos hinline, hdata] at h
      exact absurd rfl h
  · rename_i hinline
    rw [if_neg hinline] at h
    exact absurd rfl h

/-- A request is refused before its opcode is looked at, or finds room. -/
theorem postSend_cases (qp : IbQp) (cur : Nat) (wr : SendWr) :
    (∃ e, postSend qp cur wr = .refused e) ∨
      (cur < qp.maxPost ∧ postSend qp cur wr = postOpcode qp wr) := by
  unfold postSend
  split
  · exact .inl ⟨_, rfl⟩
  split
  · exact .inl ⟨_, rfl⟩
  split
  · exact .inl ⟨_, rfl⟩
  rename_i hroom
  split
  · exact .inl ⟨_, rfl⟩
  · exact .inr ⟨Nat.lt_of_not_le hroom, rfl⟩

theorem postSend_accepted {cur : Nat} (h : (postSend qp cur wr).err = none) :
    cur < qp.maxPost ∧ postSend qp cur wr = postOpcode qp wr := by
  rcases postSend_cases qp cur wr with ⟨e, heq⟩ | hpassed
  · rw [heq] at h
    cases h
  · exact hpassed

/-- A request other than a region with signatures that is refused has finished nothing. -/
theorem postSend_refused {cur : Nat} (hop : ∀ sig, wr.opcode ≠ .regMrIntegrity sig)
    (h : (postSend qp cur wr).err ≠ none) : (postSend qp cur wr).finished = [] := by
  rcases postSend_cases qp cur wr with ⟨e, heq⟩ | ⟨-, heq⟩
  · rw [heq]
    rfl
  · rw [heq] at h ⊢
    rcases postOpcode_cases qp hop with ⟨size, heq, -⟩ | ⟨size, heq, -⟩ | ⟨e, heq⟩
    · rw [heq] at h ⊢
      exact postData_refused h
    · rw [heq] at h
      exact absurd rfl h
    · rw [heq]
      rfl

theorem postSend_of_full {cur : Nat} (h : qp.maxPost ≤ cur) :
    (postSend qp cur wr).err ≠ none ∧ (postSend qp cur wr).finished = [] := by
  rcases postSend_cases qp cur wr with ⟨e, heq⟩ | ⟨hroom, -⟩
  · rw [heq]
    exact ⟨Option.some_ne_none e, rfl⟩
  · exact absurd h (Nat.not_le_of_lt hroom)

end Driver
