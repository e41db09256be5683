-- SUMMARY: The send ring of a DC queue pair over runs of posts and completions: which requests fit their room, and that entries which do are never overwritten.
import Mathlib.Logic.Function.Basic
import KRCore.Base.BlockRing
import KRCore.Base.Run
import KRCore.Driver.WqeSize

/-!
# The send ring of a DC queue pair

The driver writes the entries of requests one behind the other into the blocks of
the send queue. It does not count blocks: a request is accepted while fewer than
`max_post` requests are not completed, which leaves room for each of them as long
as a request takes no more than `calc_send_wqe` has counted. A completion names
the first block of an entry, and `wqe_head` tells which request that was.
-/

namespace Driver

open BlockRing (Entry layout total)

/-! ## The ring -/

/-- The counters of a send queue, and the entries that are not completed, oldest first.
    `head` and `tail` are `unsigned`, `curPost` has 16 bits. -/
structure SqState where
  head : Nat
  tail : Nat
  curPost : Nat
  wqeHead : Nat → Nat
  outstanding : List Entry

def SqState.init : SqState where
  head := 0
  tail := 0
  curPost := 0
  wqeHead := fun _ => 0
  outstanding := []

/-- The block of the ring that a counter value stands for. -/
def blockIdx (wqeCnt i : Nat) : Nat := i &&& (wqeCnt - 1)

/-- The blocks that an entry is written to. -/
def entryBlocks (wqeCnt : Nat) (e : Entry) : List Nat :=
  (List.range e.blocks).map fun i => blockIdx wqeCnt (e.start + i)

/-- No block has been written for two entries that are not completed. -/
def NoOverwrite (qp : IbQp) (s : SqState) : Prop :=
  (s.outstanding.flatMap (entryBlocks qp.wqeCnt)).Nodup

instance (qp : IbQp) (s : SqState) : Decidable (NoOverwrite qp s) :=
  inferInstanceAs (Decidable (List.Nodup _))

/-- The requests that are not completed, as the driver counts them. -/
def SqState.cur (s : SqState) : Nat := (s.head + 4294967296 - s.tail) % 4294967296

/-- `finish_wqe` takes the size as a `u8`. -/
def finishWqe (qp : IbQp) (s : SqState) (size : Int) : SqState :=
  { s with
    wqeHead := Function.update s.wqeHead (blockIdx qp.wqeCnt s.curPost) s.head
    curPost := (s.curPost + wqeBlocks (size % 256)) % 65536
    outstanding := s.outstanding ++ [⟨s.curPost, wqeBlocks size⟩] }

/-- Post one request. `head` only moves if the request is accepted. -/
def SqState.post (qp : IbQp) (s : SqState) (wr : SendWr) : SqState :=
  let posted := postSend qp s.cur wr
  let s' := posted.finished.foldl (finishWqe qp) s
  match posted.err with
  | none => { s' with head := (s'.head + 1) % 4294967296 }
  | some _ => s'

/-- The completion of the `k`-th entry is polled; the older ones are completed with it. -/
def SqState.complete (qp : IbQp) (s : SqState) (k : Nat) : Option SqState :=
  s.outstanding[k]?.map fun e =>
    { s with
      tail := (s.wqeHead (blockIdx qp.wqeCnt e.start) + 1) % 4294967296
      outstanding := s.outstanding.drop (k + 1) }

inductive SqOp where
  | post (wr : SendWr)
  | complete (k : Nat)

def sqStep (qp : IbQp) (s : SqState) : SqOp → Option SqState
  | .post wr => some (s.post qp wr)
  | .complete k => s.complete qp k

/-- A request within the limits that takes no more than its room, and is not for a region
    with signatures, whose entries the driver counts as one. -/
def InRoom (qp : IbQp) (wqeSize : Int) (s : SqState) : SqOp → Prop
  | .post wr =>
    (∀ sig, wr.opcode ≠ .regMrIntegrity sig) ∧
      ((postSend qp s.cur wr).err = none → WithinLimits qp wr ∧ wr.fixedBytes ≤ wqeSize)
  | .complete _ => True

/-! ## The layout of the entries -/

/-- The entries that are not completed have the sizes `bs` and stand back to back from
    position `p`; they belong to the requests from number `t` on. -/
structure Laid (qp : IbQp) (room : Nat) (s : SqState) (t p : Nat) (bs : List Nat) : Prop where
  outstanding : s.outstanding = layout 65536 p bs
  curPost : s.curPost = (p + total bs) % 65536
  tail : s.tail = t % 4294967296
  head : s.head = (t + bs.length) % 4294967296
  length : bs.length ≤ qp.maxPost
  sizes : ∀ b ∈ bs, 0 < b ∧ b ≤ room
  wqeHead : ∀ i < bs.length,
    s.wqeHead ((p + total (bs.take i)) % qp.wqeCnt) = (t + i) % 4294967296

/-- A ring with room for `max_post` requests of `room` blocks. -/
structure Roomy (qp : IbQp) (room : Nat) : Prop where
  pow : ∃ k ≤ 16, qp.wqeCnt = 2 ^ k
  pos : 0 < room
  fits : qp.maxPost * room ≤ qp.wqeCnt

variable {qp : IbQp} {room : Nat} {s s' : SqState} {t p : Nat} {bs : List Nat}

theorem Roomy.dvd (hr : Roomy qp room) : qp.wqeCnt ∣ 65536 := by
  obtain ⟨k, hk, hcnt⟩ := hr.pow
  rw [hcnt]
  exact Nat.pow_dvd_pow 2 hk

theorem Roomy.ne_zero (hr : Roomy qp room) : NeZero qp.wqeCnt := by
  obtain ⟨k, -, hcnt⟩ := hr.pow
  exact ⟨by rw [hcnt]; exact Nat.pos_iff_ne_zero.mp (Nat.two_pow_pos k)⟩

theorem Roomy.blockIdx_eq (hr : Roomy qp room) (i : Nat) :
    blockIdx qp.wqeCnt i = i % qp.wqeCnt := by
  obtain ⟨k, -, hcnt⟩ := hr.pow
  rw [blockIdx, hcnt, Nat.and_two_pow_sub_one_eq_mod]

theorem Roomy.maxPost_lt (hr : Roomy qp room) : qp.maxPost < 4294967296 := by
  have hle : qp.maxPost ≤ qp.maxPost * room := Nat.le_mul_of_pos_right _ hr.pos
  have hcnt : qp.wqeCnt ≤ 65536 := Nat.le_of_dvd (by decide) hr.dvd
  have := hr.fits
  omega

theorem Laid.init (qp : IbQp) (room : Nat) : Laid qp room .init 0 0 [] where
  outstanding := rfl
  curPost := rfl
  tail := rfl
  head := rfl
  length := Nat.zero_le _
  sizes := by simp
  wqeHead := by simp

theorem Laid.cur_eq (hr : Roomy qp room) (h : Laid qp room s t p bs) : s.cur = bs.length := by
  have hlen := Nat.lt_of_le_of_lt h.length hr.maxPost_lt
  rw [SqState.cur, h.head, h.tail]
  omega

/-- The requests that are not completed leave room for one more. -/
theorem Laid.total_le (hr : Roomy qp room) (h : Laid qp room s t p bs) :
    total bs + (qp.maxPost - bs.length) * room ≤ qp.wqeCnt := by
  have hbound := BlockRing.total_le fun b hb => (h.sizes b hb).2
  have hlen := h.length
  have hfits := hr.fits
  have hsplit : bs.length * room + (qp.maxPost - bs.length) * room = qp.maxPost * room := by
    rw [← Nat.add_mul, Nat.add_sub_cancel' hlen]
  omega

theorem Laid.noOverwrite (hr : Roomy qp room) (h : Laid qp room s t p bs) : NoOverwrite qp s := by
  have := hr.ne_zero
  have htotal : total bs ≤ qp.wqeCnt := by
    have := h.total_le hr
    omega
  have hcells : entryBlocks qp.wqeCnt = Entry.cells qp.wqeCnt := by
    funext e
    exact List.map_congr_left fun i _ => hr.blockIdx_eq _
  rw [NoOverwrite, h.outstanding, hcells]
  exact BlockRing.cells_nodup hr.dvd htotal

/-- One more entry of a size within the room. -/
theorem Laid.finish (hr : Roomy qp room) (h : Laid qp room s t p bs) {size : Int}
    (hsize : size % 256 = size) (hpos : 0 < wqeBlocks size) (hfit : wqeBlocks size ≤ room)
    (hroom : bs.length < qp.maxPost) :
    Laid qp room { finishWqe qp s size with head := (s.head + 1) % 4294967296 } t p
      (bs ++ [wqeBlocks size]) := by
  have := hr.ne_zero
  have hidx : blockIdx qp.wqeCnt s.curPost = (p + total bs) % qp.wqeCnt := by
    rw [hr.blockIdx_eq, h.curPost, Nat.mod_mod_of_dvd _ hr.dvd]
  have hfree : total bs < qp.wqeCnt := by
    have htotal := h.total_le hr
    have hone : room ≤ (qp.maxPost - bs.length) * room :=
      Nat.le_mul_of_pos_left room (Nat.sub_pos_of_lt hroom)
    have := hr.pos
    omega
  constructor
  case outstanding => simp [finishWqe, h.outstanding, h.curPost, BlockRing.layout_append]
  case curPost =>
    simp only [finishWqe, h.curPost, hsize, BlockRing.total_append, BlockRing.total_cons,
      BlockRing.total_nil, Nat.add_zero]
    omega
  case tail => exact h.tail
  case head =>
    simp only [h.head, List.length_append, List.length_singleton]
    omega
  case length => exact (List.length_append ..).trans_le hroom
  case sizes =>
    intro b hb
    rcases List.mem_append.mp hb with hold | hnew
    · exact h.sizes b hold
    · rw [List.mem_singleton.mp hnew]
      exact ⟨hpos, hfit⟩
  case wqeHead =>
    intro i hi
    simp only [finishWqe, hidx]
    by_cases hold : i < bs.length
    · -- the new entry starts at a block of its own
      have hne := BlockRing.first_ne (p := p) (fun b hb => (h.sizes b hb).1) hfree hold
      rw [List.take_append_of_le_length (Nat.le_of_lt hold), Function.update_of_ne hne]
      exact h.wqeHead i hold
    · have heq : i = bs.length := by
        simp only [List.length_append, List.length_singleton] at hi
        omega
      rw [heq, List.take_left, Function.update_self, h.head]

/-- The completion of an entry is counted for the request it belongs to. -/
theorem Laid.complete (hr : Roomy qp room) (h : Laid qp room s t p bs) {k : Nat}
    (hstep : s.complete qp k = some s') :
    Laid qp room s' (t + (k + 1)) (p + total (bs.take (k + 1))) (bs.drop (k + 1)) := by
  simp only [SqState.complete, h.outstanding, BlockRing.layout_getElem?, Option.map_map,
    Option.map_eq_some_iff] at hstep
  obtain ⟨b, hb, rfl⟩ := hstep
  obtain ⟨hk, -⟩ := List.getElem?_eq_some_iff.mp hb
  have hlen : (bs.drop (k + 1)).length = bs.length - (k + 1) := List.length_drop
  have hsum : total (bs.take (k + 1)) + total (bs.drop (k + 1)) = total bs := by
    rw [← BlockRing.total_append, List.take_append_drop]
  constructor
  case outstanding => exact BlockRing.layout_drop p (k + 1) bs
  case curPost =>
    rw [Nat.add_assoc, hsum]
    exact h.curPost
  case tail =>
    dsimp only [Function.comp_apply]
    rw [hr.blockIdx_eq, Nat.mod_mod_of_dvd _ hr.dvd, h.wqeHead k hk]
    omega
  case head =>
    rw [hlen, show t + (k + 1) + (bs.length - (k + 1)) = t + bs.length by omega]
    exact h.head
  case length =>
    have := h.length
    omega
  case sizes => exact fun b hb => h.sizes b (List.mem_of_mem_drop hb)
  case wqeHead =>
    intro i hi
    have htake : total (bs.take (k + 1)) + total ((bs.drop (k + 1)).take i) =
        total (bs.take (k + 1 + i)) := by
      rw [← BlockRing.total_append, ← List.take_add]
    rw [Nat.add_assoc, htake]
    exact (h.wqeHead (k + 1 + i) (by omega)).trans (by rw [Nat.add_assoc t])

/-! ## Runs -/

variable {wqeSize : Int}

theorem SqState.post_of_refused {wr : SendWr} (herr : (postSend qp s.cur wr).err ≠ none)
    (hnone : (postSend qp s.cur wr).finished = []) : s.post qp wr = s := by
  simp only [SqState.post, hnone, List.foldl_nil]
  split
  · rename_i h
    exact absurd h herr
  · rfl

theorem SqState.post_of_single {wr : SendWr} {size : Int}
    (h : postSend qp s.cur wr = ⟨[size], none⟩) :
    s.post qp wr = { finishWqe qp s size with head := (s.head + 1) % 4294967296 } := by
  simp only [SqState.post, h]
  rfl

/-- A request in its room adds an entry to the layout, or leaves the ring as it is. -/
theorem Laid.post (hq : Sized .dc qp wqeSize) (hr : Roomy qp room) (hsize : wqeSize = 64 * room)
    (hsmall : wqeSize < 4096) (h : Laid qp room s t p bs) {wr : SendWr}
    (hC : InRoom qp wqeSize s (.post wr)) :
    ∃ bs', Laid qp room (s.post qp wr) t p bs' := by
  obtain ⟨hop, haccepted⟩ := hC
  by_cases herr : (postSend qp s.cur wr).err = none
  · obtain ⟨hwr, hfixed⟩ := haccepted herr
    obtain ⟨hcur, heq⟩ := postSend_accepted herr
    rw [heq] at herr
    obtain ⟨size, hposted, hpos⟩ := hq.postOpcode_single hwr hop herr
    have hfits := (hq.request_fits_iff hwr herr).mpr hfixed
    rw [hposted] at hfits
    simp only [requestBlocks, Nat.add_zero] at hfits
    have hbyte : size % 256 = size := by
      simp only [wqeBlocks, sendWqeBb] at hfits hpos
      omega
    rw [h.cur_eq hr] at hcur
    rw [SqState.post_of_single (heq.trans hposted)]
    exact ⟨_, h.finish hr hbyte hpos (by omega) hcur⟩
  · rw [SqState.post_of_refused herr (postSend_refused hop herr)]
    exact ⟨bs, h⟩

theorem Laid.step (hq : Sized .dc qp wqeSize) (hr : Roomy qp room) (hsize : wqeSize = 64 * room)
    (hsmall : wqeSize < 4096) (h : Laid qp room s t p bs) {op : SqOp} (hC : InRoom qp wqeSize s op)
    (hstep : sqStep qp s op = some s') : ∃ t p bs, Laid qp room s' t p bs := by
  cases op with
  | post wr =>
    cases hstep
    obtain ⟨bs', h'⟩ := h.post hq hr hsize hsmall hC
    exact ⟨t, p, bs', h'⟩
  | complete k => exact ⟨_, _, _, h.complete hr hstep⟩

/-- A run of requests in their room never overwrites an entry that is not completed. -/
theorem noOverwrite_of_inRoom (hq : Sized .dc qp wqeSize) (hcnt : qp.wqeCnt ≤ 65536)
    (hsmall : wqeSize < 4096) {ops : List SqOp}
    (h : Run.Guarded (sqStep qp) (InRoom qp wqeSize) .init ops) :
    Run.Always (sqStep qp) (NoOverwrite qp) .init ops := by
  have hpos := hq.pos
  have haligned := hq.aligned
  obtain ⟨room, hsize⟩ : ∃ room : Nat, wqeSize = 64 * room := ⟨(wqeSize / 64).toNat, by omega⟩
  have hr : Roomy qp room := by
    obtain ⟨k, hk⟩ := hq.pow
    refine ⟨⟨k, ?_, hk⟩, by omega, ?_⟩
    · rw [hk] at hcnt
      exact (Nat.pow_le_pow_iff_right (by decide : 1 < 2)).mp hcnt
    · have hfits := hq.room
      rw [hsize, Int.mul_left_comm, Int.mul_comm (qp.wqeCnt : Int)] at hfits
      exact Int.ofNat_le.mp (Int.le_of_mul_le_mul_left hfits (by decide))
  have hlaid := Run.always_of_guarded (I := fun s => ∃ t p bs, Laid qp room s t p bs)
    (fun s op s' ⟨t, p, bs, hI⟩ hC hstep => hI.step hq hr hsize hsmall hC hstep)
    ⟨0, 0, [], .init qp room⟩ h
  intro pre s hpre hrun
  obtain ⟨t, p, bs, hs⟩ := hlaid pre s hpre hrun
  exact hs.noOverwrite hr

/-- A queue that takes no requests stays empty. -/
theorem noOverwrite_of_maxPost_eq_zero (hzero : qp.maxPost = 0) (ops : List SqOp) :
    Run.Always (sqStep qp) (NoOverwrite qp) .init ops := by
  intro pre s hpre hrun
  have hempty := Run.exec_invariant (I := fun s => s.outstanding = []) (fun s op s' hs hstep => ?_)
    rfl hrun
  · rw [NoOverwrite, hempty]
    exact List.nodup_nil
  · cases op with
    | post wr =>
      cases hstep
      obtain ⟨herr, hnone⟩ := @postSend_of_full qp wr s.cur (hzero.trans_le (Nat.zero_le _))
      rw [SqState.post_of_refused herr hnone]
      exact hs
    | complete k => simp [sqStep, SqState.complete, hs] at hstep

/-! ## Which queue pairs take what they are sized for -/

/-- The request that takes most: eight page descriptors of a region, in the entry. -/
def regMrWr : SendWr where
  opcode := .regMr 64
  sgList := []
  sendInline := false
  sigPipelined := false
  grh := false

/-- As `regMrWr`, for a region with signatures that has a memory region of its own. -/
def regMrIntegrityWr : SendWr where
  opcode := .regMrIntegrity
    { piMr := some 64, remoteAtomic := false, hasSig := true, sigStatusChecked := true,
      separateProt := false, mem := .none, wire := .none }
  sgList := []
  sendInline := false
  sigPipelined := false
  grh := false

/-- On every queue pair that takes requests, one takes the most there is. -/
theorem exists_maxFixedBytes (hgs : 0 ≤ qp.maxGs) (hpost : 0 < qp.maxPost) :
    ∃ wr, WithinLimits qp wr ∧ (postSend qp 0 wr).err = none ∧
      wr.fixedBytes = maxFixedBytes qp.integrityEn := by
  have hroom : ¬qp.maxPost ≤ 0 := Nat.not_le_of_lt hpost
  have hlist : ¬qp.maxGs < 0 := Int.not_lt.mpr hgs
  cases hen : qp.integrityEn with
  | false =>
    refine ⟨regMrWr, ⟨hgs, fun h => absurd h (by decide)⟩, ?_, by decide⟩
    simp [postSend, regMrWr, Opcode.known, Opcode.isSend, postOpcode, hroom, hlist]
  | true =>
    refine ⟨regMrIntegrityWr, ⟨hgs, fun h => absurd h (by decide)⟩, ?_, by decide⟩
    simp [postSend, regMrIntegrityWr, Opcode.known, Opcode.isSend, postOpcode, hroom, hlist,
      postRegMrIntegrity, setPiUmrWr, hen, setSigDataSegment, setBsf, postPsvs, setPsvWr]

/-- Every request within the limits that the queue pair accepts fits in the room of one. -/
def EntriesFit (attr : InitAttr) (qp : IbQp) : Prop :=
  ∀ cur wr, WithinLimits qp wr → (postSend qp cur wr).err = none →
    (requestBlocks (postSend qp cur wr).finished : Int) * sendWqeBb ≤ calcSendWqe attr

/-- What a DC queue pair accepts fits in the room that creation has counted exactly if what
    the request takes without data does: requests with data always fit, those that
    invalidate or register memory need up to 256 bytes, or 640 for all entries of a region
    with signatures. Runs of requests in their room never overwrite an entry that is not
    completed. -/
theorem dc_entries_fit_iff {dev : DevCaps} {attr : InitAttr} {qp : IbQp}
    (h : calcSqSize dev attr = .ok qp) :
    (∀ cur wr, WithinLimits qp wr → (postSend qp cur wr).err = none →
      ((requestBlocks (postSend qp cur wr).finished : Int) * sendWqeBb ≤ calcSendWqe attr ↔
        wr.fixedBytes ≤ calcSendWqe attr)) ∧
    (0 ≤ qp.maxGs → 0 < qp.maxPost →
      (EntriesFit attr qp ↔ maxFixedBytes attr.integrityEn ≤ calcSendWqe attr)) ∧
    (dev.logMaxQpSz ≤ 16 → calcSendWqe attr < 4096 → ∀ ops,
      Run.Guarded (sqStep qp) (InRoom qp (calcSendWqe attr)) .init ops →
        Run.Always (sqStep qp) (NoOverwrite qp) .init ops) := by
  have hrequest : ∀ cur wr, WithinLimits qp wr → (postSend qp cur wr).err = none →
      ((requestBlocks (postSend qp cur wr).finished : Int) * sendWqeBb ≤ calcSendWqe attr ↔
        wr.fixedBytes ≤ calcSendWqe attr) := by
    intro cur wr hwr hok
    obtain ⟨hcur, heq⟩ := postSend_accepted hok
    obtain ⟨hq, -⟩ := QpKind.calcSqSize_sized h (Nat.zero_lt_of_lt hcur)
    rw [heq] at hok ⊢
    exact hq.request_fits_iff hwr hok
  refine ⟨hrequest, fun hgs hpost => ⟨fun hfit => ?_, fun hle cur wr hwr hok => ?_⟩,
    fun hdev hsmall ops hguard => ?_⟩
  · obtain ⟨-, hen, -⟩ := QpKind.calcSqSize_sized h hpost
    obtain ⟨wr, hwr, hok, hfixed⟩ := exists_maxFixedBytes hgs hpost
    rw [← hen, ← hfixed]
    exact (hrequest 0 wr hwr hok).mp (hfit 0 wr hwr hok)
  · obtain ⟨-, hen, -⟩ := QpKind.calcSqSize_sized h hpost
    have hfixed := postOpcode_fixedBytes_le ((postSend_accepted hok).2 ▸ hok)
    rw [hen] at hfixed
    exact (hrequest cur wr hwr hok).mpr (Int.le_trans hfixed hle)
  · rcases Nat.eq_zero_or_pos qp.maxPost with hzero | hpost
    · exact noOverwrite_of_maxPost_eq_zero hzero ops
    · obtain ⟨hq, -, hcnt⟩ := QpKind.calcSqSize_sized h hpost
      exact noOverwrite_of_inRoom hq (hcnt hdev) hsmall hguard

/-- The capabilities that `create_dc_qp` asks for. -/
def createDcQpAttr : InitAttr where
  maxSendWr := 128
  maxSendSge := 1
  maxInlineData := 64
  integrityEn := false
  signaturePipeline := false

def sampleDev : DevCaps := ⟨1024, 15⟩

def createDcQp : IbQp where
  maxGs := 7
  maxInlineData := 108
  wqeCnt := 512
  maxPost := 170
  integrityEn := false
  drainSigerr := false

def writeWr : SendWr where
  opcode := .rdmaWrite
  sgList := [64]
  sendInline := true
  sigPipelined := false
  grh := true

theorem dc_entries_fit_create_dc_qp :
    calcSqSize sampleDev createDcQpAttr = .ok createDcQp ∧
      (requestBlocks (postSend createDcQp 0 writeWr).finished : Int) * sendWqeBb ≤
        calcSendWqe createDcQpAttr ∧
      ¬EntriesFit createDcQpAttr createDcQp ∧
      Run.Always (sqStep createDcQp) (NoOverwrite createDcQp) .init
        [.post writeWr, .complete 0, .post writeWr] := by
  have hcreate : calcSqSize sampleDev createDcQpAttr = .ok createDcQp := by
    decide +kernel
  have hwr : WithinLimits createDcQp writeWr := ⟨by decide, fun _ => by decide⟩
  have hroom (s : SqState) : InRoom createDcQp (calcSendWqe createDcQpAttr) s (.post writeWr) :=
    ⟨fun _ => Opcode.noConfusion, fun _ => ⟨hwr, by decide⟩⟩
  obtain ⟨hrequest, hall, hrun⟩ := dc_entries_fit_iff hcreate
  refine ⟨hcreate, (hrequest 0 writeWr hwr rfl).mpr (by decide), fun hfit => ?_,
    hrun (by decide) (by decide) _ ?_⟩
  · exact absurd ((hall (by decide) (by decide)).mp hfit) (by decide)
  · exact Run.guarded_cons_of_step rfl (hroom _) <| Run.guarded_cons_of_step rfl trivial <|
      Run.guarded_cons_of_step rfl (hroom _) Run.guarded_nil

/-- With the capabilities of `create_dc_qp`, the entry that registers a region of eight
    pages takes 256 bytes, 64 more than its room; a queue of three such requests takes five,
    and the fifth overwrites the first. -/
theorem dc_entry_overruns :
    calcSqSize sampleDev createDcQpAttr = .ok createDcQp ∧
      WithinLimits createDcQp regMrWr ∧ (postSend createDcQp 0 regMrWr).err = none ∧
      calcSendWqe createDcQpAttr = 192 ∧
      (requestBlocks (postSend createDcQp 0 regMrWr).finished : Int) * sendWqeBb = 256 ∧
      ∃ qp t, calcSqSize sampleDev { createDcQpAttr with maxSendWr := 3 } = .ok qp ∧
        Run.exec (sqStep qp) .init (List.replicate 5 (.post regMrWr)) = some t ∧
        ¬NoOverwrite qp t := by
  refine ⟨by decide +kernel, ⟨by decide, fun h => absurd h (by decide)⟩, by decide, by decide,
    by decide, { createDcQp with wqeCnt := 16, maxPost := 5 }, _, by decide +kernel, rfl, ?_⟩
  decide

end Driver
