-- SUMMARY: How post_send writes an entry: a pointer and a cached edge over a ring of pages, and that this is the entry at its place in the ring.
import Mathlib.Data.Nat.Bitwise
import KRCore.Base.FragRing
import KRCore.Driver.WqeFormat

/-!
# Writing send entries

The blocks of a send queue lie in pages that need not be next to each other. `post_send`
writes an entry through a pointer, and compares it with an edge, the end of the
page or of the queue, before it writes on. The edge is kept from entry to entry, so
that it is only computed when the pointer arrives at it.

The ring of the queue shows a flat memory from any of its blocks on. The steps of
`post_send` are steps on that memory: nothing is written behind an edge, and the entry
stands at its blocks as if they were consecutive.
-/

namespace Driver

open FragRing

/-! ## The buffer of a send queue -/

/-- `mlx5_frag_buf_ctrl` with strides of 64 bytes. The fragments are aligned to blocks and apart from
    each other; the queue starts within the first one. -/
structure SqBuf where
  frags : Nat → Nat
  logFragStrides : Nat
  logSz : Nat
  stridesOffset : Nat
  aligned : ∀ f, frags f % 64 = 0
  apart : ∀ f g, f ≠ g → frags f + 2 ^ logFragStrides * 64 ≤ frags g ∨
    frags g + 2 ^ logFragStrides * 64 ≤ frags f
  logSz_le : logSz ≤ 16

namespace SqBuf

/-- `mlx5_frag_buf_get_wqe`. -/
def getWqe (q : SqBuf) (ix : Nat) : Nat :=
  q.frags ((ix + q.stridesOffset) >>> q.logFragStrides) +
    ((2 ^ q.logFragStrides - 1) &&& (ix + q.stridesOffset)) <<< 6

/-- `mlx5_frag_buf_get_idx_last_contig_stride`. -/
def idxLastContigStride (q : SqBuf) (ix : Nat) : Nat :=
  min (((ix + q.stridesOffset) ||| (2 ^ q.logFragStrides - 1)) - q.stridesOffset) (2 ^ q.logSz - 1)

/-- `get_sq_edge`. -/
def getSqEdge (q : SqBuf) (idx : Nat) : Nat := q.getWqe (q.idxLastContigStride idx) + 64

/-- `cur_post & (wqe_cnt - 1)`. -/
def idx (q : SqBuf) (curPost : Nat) : Nat := curPost &&& (2 ^ q.logSz - 1)

end SqBuf

/-! ## Writing -/

/-- What `post_send` changes of a send queue and its memory. -/
structure SqMem where
  mem : Mem
  curPost : Nat
  curEdge : Nat

/-- The pointer into an entry: `seg`, `cur_edge` and the size so far in units of 16 bytes. -/
structure Cursor where
  mem : Mem
  seg : Nat
  edge : Nat
  size : Nat

/-- `handle_post_send_edge`. -/
def handlePostSendEdge (q : SqBuf) (curPost wqeSz : Nat) (c : Cursor) : Cursor :=
  if c.seg ≠ c.edge then c
  else
    let idx := q.idx (curPost + wqeSz >>> 2)
    { c with seg := q.getWqe idx, edge := q.getSqEdge idx }

/-- A segment. -/
def Cursor.put (c : Cursor) (bs : List UInt8) : Cursor :=
  { c with mem := c.mem.write c.seg bs, seg := c.seg + bs.length, size := c.size + bs.length / 16 }

/-- The copy of one entry of the list into the inline segment. -/
def copyInline (q : SqBuf) (curPost : Nat) : Nat → Cursor → Nat → Nat → Nat → Cursor
  | 0, c, _, _, _ => c
  | fuel + 1, c, offset, addr, len =>
    if len = 0 then c
    else
      let c := handlePostSendEdge q curPost (c.size + offset >>> 4) c
      let copysz := min (c.edge - c.seg) len
      copyInline q curPost fuel
        { c with mem := c.mem.write c.seg (c.mem.read addr copysz), seg := c.seg + copysz }
        (offset + copysz) (addr + copysz) (len - copysz)

/-- The loop of `set_data_inl_seg`. Its counter is an `int`. -/
def inlineLoop (q : SqBuf) (curPost : Nat) (maxInlineData : Int) :
    List WrSge → Cursor → Nat → Int → Except Mem (Cursor × Int)
  | [], c, _, inl => .ok (c, inl)
  | sge :: sgs, c, offset, inl =>
    let inl := wrapInt (inl + sge.length.toNat)
    if maxInlineData < inl then .error c.mem
    else
      let len := sge.length.toNat
      inlineLoop q curPost maxInlineData sgs
        (copyInline q curPost len c offset sge.addr.toNat len) (offset + len) inl

/-- `set_data_inl_seg`. -/
def setDataInl (q : SqBuf) (curPost : Nat) (maxInlineData : Int) (sgs : List WrSge) (c : Cursor) :
    Except Mem Cursor :=
  match inlineLoop q curPost maxInlineData sgs { c with seg := c.seg + 4 } 4 0 with
  | .error mem => .error mem
  | .ok (c', inl) =>
    .ok { c' with
      mem := c'.mem.write c.seg (Word.toBe 4 (inl.toNat ||| 2147483648))
      size := c'.size + (align (inl + 4) 16 / 16).toNat }

/-- The loop over the pointers. -/
def setDataPtrs (q : SqBuf) (curPost : Nat) : List WrSge → Cursor → Cursor
  | [], c => c
  | sge :: sgs, c =>
    setDataPtrs q curPost sgs ((handlePostSendEdge q curPost c.size c).put sge.ptrSeg)

/-- `finish_wqe`, for the entry whose control segment is at `ctrl`. Its size is a `u8`. -/
def finishEntry (q : SqBuf) (cfg : CtrlCfg) (wr : DataWr) (s : SqMem) (ctrl : Nat) (c : Cursor) :
    SqMem :=
  let mem := c.mem.write ctrl (wr.ctrlHead cfg s.curPost c.size)
  let mem := mem.write (ctrl + 11) [mem (ctrl + 11) ||| wr.fenceBits cfg]
  let curPost := (s.curPost + (c.size % 256 * 16 + 63) / 64) % 65536
  { mem
    curPost
    curEdge := if (c.seg + 63) / 64 * 64 = c.edge then q.getSqEdge (q.idx curPost) else c.edge }

/-- The data of a request. -/
def setData (q : SqBuf) (curPost : Nat) (maxInlineData : Int) (wr : DataWr) (c : Cursor) :
    Except Mem Cursor :=
  if wr.inl ∧ wr.sgList ≠ [] then setDataInl q curPost maxInlineData wr.sgList c
  else .ok (setDataPtrs q curPost wr.sgList c)

/-- The address vector of a request that has one. -/
def putAv (q : SqBuf) (curPost : Nat) (wr : DataWr) (c : Cursor) : Cursor :=
  match wr.dest with
  | .rc => c
  | .dc .. | .ud .. => handlePostSendEdge q curPost (c.put wr.avSeg).size (c.put wr.avSeg)

/-- `begin_wqe`, and the segments before the data. -/
def beginWqe (q : SqBuf) (cfg : CtrlCfg) (s : SqMem) (wr : DataWr) : Cursor :=
  let ctrl := q.getWqe (q.idx s.curPost)
  let c : Cursor := ⟨s.mem.write (ctrl + 8) (wr.ctrlTail cfg), ctrl + 16, s.curEdge, 1⟩
  let c := (putAv q s.curPost wr c).put wr.raddrSeg
  handlePostSendEdge q s.curPost c.size c

/-- What `post_send` does for a request once there is room for it. An error leaves what has been
    written. -/
def writeWqe (q : SqBuf) (cfg : CtrlCfg) (maxInlineData : Int) (s : SqMem) (wr : DataWr) :
    Except Mem SqMem :=
  (setData q s.curPost maxInlineData wr (beginWqe q cfg s wr)).map
    (finishEntry q cfg wr s (q.getWqe (q.idx s.curPost)))

/-! ## Addresses -/

namespace SqBuf

/-- The address of a byte of the queue. -/
def loc (q : SqBuf) (i : Nat) : Nat := q.getWqe (i / 64) + i % 64

variable {q : SqBuf} {ix i j : Nat}

theorem getWqe_eq (q : SqBuf) (ix : Nat) :
    q.getWqe ix = q.frags ((ix + q.stridesOffset) / 2 ^ q.logFragStrides) +
      (ix + q.stridesOffset) % 2 ^ q.logFragStrides * 64 := by
  rw [getWqe, Nat.shiftRight_eq_div_pow, Nat.and_comm, Nat.and_two_pow_sub_one_eq_mod,
    Nat.shiftLeft_eq]

theorem getWqe_aligned (q : SqBuf) (ix : Nat) : q.getWqe ix % 64 = 0 := by
  have := q.aligned ((ix + q.stridesOffset) / 2 ^ q.logFragStrides)
  rw [getWqe_eq]
  omega

theorem idx_eq (q : SqBuf) (curPost : Nat) : q.idx curPost = curPost % 2 ^ q.logSz :=
  Nat.and_two_pow_sub_one_eq_mod curPost q.logSz

/-- The place of a byte in its fragment. -/
theorem loc_eq (q : SqBuf) (i : Nat) :
    ∃ f o, q.loc i = q.frags f + o ∧ o < 2 ^ q.logFragStrides * 64 ∧
      i + q.stridesOffset * 64 = f * (2 ^ q.logFragStrides * 64) + o := by
  have hpos := Nat.two_pow_pos q.logFragStrides
  refine ⟨(i / 64 + q.stridesOffset) / 2 ^ q.logFragStrides,
    (i / 64 + q.stridesOffset) % 2 ^ q.logFragStrides * 64 + i % 64, ?_, ?_, ?_⟩
  · rw [loc, getWqe_eq, Nat.add_assoc]
  · have := Nat.mod_lt (i / 64 + q.stridesOffset) hpos
    omega
  · have := Nat.div_add_mod (i / 64 + q.stridesOffset) (2 ^ q.logFragStrides)
    rw [← Nat.mul_assoc, Nat.mul_comm (_ / _)]
    omega

theorem loc_inj (h : q.loc i = q.loc j) : i = j := by
  obtain ⟨f, o, hi, ho, hif⟩ := q.loc_eq i
  obtain ⟨g, p, hj, hp, hjg⟩ := q.loc_eq j
  rw [hi, hj] at h
  by_cases hfg : f = g
  · subst hfg
    omega
  · have := q.apart f g hfg
    omega

/-- The ring of the bytes of the queue. -/
def ring (q : SqBuf) : Frags where
  size := 2 ^ q.logSz * 64
  loc := q.loc
  size_pos := Nat.mul_pos (Nat.two_pow_pos q.logSz) (Nat.succ_pos 63)
  inj _ _ _ _ h := loc_inj h

theorem or_mask (t k : Nat) : t ||| (2 ^ k - 1) = t / 2 ^ k * 2 ^ k + (2 ^ k - 1) := by
  have hpos := Nat.two_pow_pos k
  have hr := Nat.mod_lt t hpos
  have hsplit : t = 2 ^ k * (t / 2 ^ k) ||| t % 2 ^ k := by
    rw [← Nat.two_pow_add_eq_or_of_lt hr, Nat.div_add_mod]
  have hlow : t % 2 ^ k ||| (2 ^ k - 1) = 2 ^ k - 1 := by
    refine Nat.eq_of_testBit_eq fun b => ?_
    rw [Nat.testBit_or, Nat.testBit_two_pow_sub_one]
    by_cases hb : b < k
    · simp [hb]
    · have hle : t % 2 ^ k < 2 ^ b :=
        Nat.lt_of_lt_of_le hr (Nat.pow_le_pow_right Nat.two_pos (Nat.le_of_not_lt hb))
      rw [Nat.testBit_lt_two_pow hle, Bool.false_or]
  calc t ||| (2 ^ k - 1) = (2 ^ k * (t / 2 ^ k) ||| t % 2 ^ k) ||| (2 ^ k - 1) := by rw [← hsplit]
    _ = 2 ^ k * (t / 2 ^ k) ||| (2 ^ k - 1) := by rw [Nat.or_assoc, hlow]
    _ = t / 2 ^ k * 2 ^ k + (2 ^ k - 1) := by
      rw [← Nat.two_pow_add_eq_or_of_lt (by omega), Nat.mul_comm]

/-- Blocks of one fragment are consecutive. -/
theorem getWqe_add {d : Nat}
    (hd : (ix + q.stridesOffset) % 2 ^ q.logFragStrides + d < 2 ^ q.logFragStrides) :
    q.getWqe (ix + d) = q.getWqe ix + d * 64 := by
  rw [getWqe_eq, getWqe_eq, Nat.add_right_comm]
  generalize ix + q.stridesOffset = t at *
  generalize 2 ^ q.logFragStrides = F at *
  have hsum : t + d = F * (t / F) + (t % F + d) := by
    rw [← Nat.add_assoc, Nat.div_add_mod]
  have hdiv : (t + d) / F = t / F := by
    refine (congrArg (· / F) hsum).trans ?_
    rw [Nat.mul_add_div (by omega), Nat.div_eq_of_lt hd, Nat.add_zero]
  have hmod : (t + d) % F = t % F + d := by
    refine (congrArg (· % F) hsum).trans ?_
    rw [Nat.mul_add_mod, Nat.mod_eq_of_lt hd]
  rw [hdiv, hmod, Nat.add_mul]
  omega

/-- The edge of a block ends a window that starts with the block. -/
theorem window_getSqEdge (hix : ix < 2 ^ q.logSz) :
    q.ring.Window (q.getWqe ix) (q.getSqEdge ix) (ix * 64) ∧
      ∃ d, q.getSqEdge ix = q.getWqe ix + (d + 1) * 64 := by
  have hpos := Nat.two_pow_pos q.logFragStrides
  have hmod := Nat.mod_lt (ix + q.stridesOffset) hpos
  have hdiv := Nat.div_add_mod (ix + q.stridesOffset) (2 ^ q.logFragStrides)
  obtain ⟨d, hlast⟩ : ∃ d, q.idxLastContigStride ix = ix + d :=
    ⟨q.idxLastContigStride ix - ix, by
      rw [idxLastContigStride, or_mask, Nat.mul_comm]
      omega⟩
  have hd : (ix + q.stridesOffset) % 2 ^ q.logFragStrides + d < 2 ^ q.logFragStrides := by
    rw [idxLastContigStride, or_mask, Nat.mul_comm] at hlast
    omega
  have hsz : ix + d < 2 ^ q.logSz := by
    rw [idxLastContigStride] at hlast
    omega
  have hedge : q.getSqEdge ix = q.getWqe ix + (d + 1) * 64 := by
    rw [getSqEdge, hlast, getWqe_add hd]
    omega
  refine ⟨⟨by omega, ?_⟩, d, hedge⟩
  intro j hj
  rw [hedge] at hj
  change q.loc ((ix * 64 + j) % (2 ^ q.logSz * 64)) = _
  have hblock : (ix * 64 + j) / 64 = ix + j / 64 := by omega
  have hbyte : (ix * 64 + j) % 64 = j % 64 := by omega
  rw [Nat.mod_eq_of_lt (by omega), loc, hblock, hbyte, getWqe_add (by omega)]
  omega

theorem ring_size (q : SqBuf) : q.ring.size = 2 ^ q.logSz * 64 := rfl

/-- Blocks are counted around the ring. -/
theorem idx_mul (q : SqBuf) (p : Nat) : q.idx p * 64 % q.ring.size = p * 64 % q.ring.size := by
  rw [ring_size, idx_eq, Nat.mul_mod_mul_right, Nat.mul_mod_mul_right, Nat.mod_mod]

theorem idx_lt (q : SqBuf) (p : Nat) : q.idx p < 2 ^ q.logSz := by
  rw [idx_eq]
  exact Nat.mod_lt _ (Nat.two_pow_pos _)

/-- The window at a block, wherever the block is counted from. -/
theorem window_block (q : SqBuf) (p : Nat) :
    q.ring.Window (q.getWqe (q.idx p)) (q.getSqEdge (q.idx p)) (p * 64) :=
  (window_getSqEdge (q.idx_lt p)).1.congr (q.idx_mul p)

theorem getWqe_lt_getSqEdge (q : SqBuf) (p : Nat) :
    q.getWqe (q.idx p) < q.getSqEdge (q.idx p) := by
  obtain ⟨-, d, hd⟩ := window_getSqEdge (q.idx_lt p)
  omega

theorem getSqEdge_aligned (q : SqBuf) (p : Nat) : q.getSqEdge p % 64 = 0 := by
  have := q.getWqe_aligned (q.idxLastContigStride p)
  rw [getSqEdge]
  omega

end SqBuf

/-! ## The pointer and the flat memory -/

/-- The pointer is at offset `o` of the entry that starts at position `x`, and the ring shows `v` from
    there on. Outside of the ring the memory is `m`. -/
structure Cursor.At (q : SqBuf) (m : Mem) (x : Nat) (v : Mem) (o : Nat) (c : Cursor) : Prop where
  shows : q.ring.Shows c.mem x v
  window : q.ring.Window c.seg c.edge (x + o)
  seg_mod : c.seg % 64 = o % 64
  edge_mod : c.edge % 64 = 0
  outside : ∀ a, q.ring.Outside a → c.mem a = m a

variable {q : SqBuf} {m v : Mem} {x o : Nat} {c : Cursor}

/-- Up to the next block there is room. -/
theorem Cursor.At.room (h : c.At q m x v o) (hc : o % 64 ≠ 0 ∨ c.seg < c.edge) {n : Nat}
    (hn : o % 64 + n ≤ 64) : n ≤ c.edge - c.seg := by
  have hle := h.window.le
  have hseg := h.seg_mod
  have hedge := h.edge_mod
  omega

theorem Cursor.At.write (h : c.At q m x v o) (bs : List UInt8) (hroom : bs.length ≤ c.edge - c.seg)
    (hsize : o + bs.length ≤ q.ring.size) :
    Cursor.At q m x (v.write o bs) (o + bs.length)
      { c with mem := c.mem.write c.seg bs, seg := c.seg + bs.length } where
  shows := h.shows.write h.window hroom hsize
  window := (Nat.add_assoc x o bs.length).symm ▸ h.window.advance hroom
  seg_mod := by
    have := h.seg_mod
    dsimp only
    omega
  edge_mod := h.edge_mod
  outside a ha := (h.window.write_outside hroom ha).trans (h.outside a ha)

theorem Cursor.At.put (h : c.At q m x v o) (bs : List UInt8) (hroom : bs.length ≤ c.edge - c.seg)
    (hsize : o + bs.length ≤ q.ring.size) :
    (c.put bs).At q m x (v.write o bs) (o + bs.length) :=
  { h.write bs hroom hsize with }

/-- A write to a place that the pointer has left. -/
theorem Cursor.At.writeBack (h : c.At q m x v o) {seg edge p : Nat} (bs : List UInt8)
    (hw : q.ring.Window seg edge (x + p)) (hroom : bs.length ≤ edge - seg)
    (hsize : p + bs.length ≤ q.ring.size) :
    Cursor.At q m x (v.write p bs) o { c with mem := c.mem.write seg bs } where
  shows := h.shows.write hw hroom hsize
  window := h.window
  seg_mod := h.seg_mod
  edge_mod := h.edge_mod
  outside a ha := (hw.write_outside hroom ha).trans (h.outside a ha)

/-- Bytes that are left as they are. -/
theorem Cursor.At.skip (h : c.At q m x v o) {n : Nat} (hroom : n ≤ c.edge - c.seg) :
    Cursor.At q m x v (o + n) { c with seg := c.seg + n } where
  shows := h.shows
  window := (Nat.add_assoc x o n).symm ▸ h.window.advance hroom
  seg_mod := by
    have := h.seg_mod
    dsimp only
    omega
  edge_mod := h.edge_mod
  outside := h.outside

/-- At an edge the pointer moves on to the next block. -/
theorem Cursor.At.handleEdge {curPost : Nat} (h : c.At q m (curPost * 64) v o) (wqeSz : Nat)
    (hsz : o / 16 = wqeSz) :
    (handlePostSendEdge q curPost wqeSz c).At q m (curPost * 64) v o ∧
    (handlePostSendEdge q curPost wqeSz c).seg < (handlePostSendEdge q curPost wqeSz c).edge ∧
    (handlePostSendEdge q curPost wqeSz c).size = c.size := by
  rw [handlePostSendEdge]
  split
  case isTrue hne =>
    exact ⟨h, Nat.lt_of_le_of_ne h.window.le hne, rfl⟩
  case isFalse heq =>
    have hedge := h.edge_mod
    have hseg := h.seg_mod
    have hpos : (curPost + wqeSz >>> 2) * 64 = curPost * 64 + o := by
      rw [Nat.shiftRight_eq_div_pow]
      omega
    refine ⟨⟨h.shows, ?_, ?_, q.getSqEdge_aligned _, h.outside⟩, q.getWqe_lt_getSqEdge _, rfl⟩
    · rw [← hpos]
      exact q.window_block _
    · have := q.getWqe_aligned (q.idx (curPost + wqeSz >>> 2))
      dsimp only
      omega

/-! ## Inline data -/

variable {curPost addr len offset : Nat}

theorem Cursor.At.read_eq (h : c.At q m x v o) {n : Nat}
    (hsrc : ∀ j < n, q.ring.Outside (addr + j)) : c.mem.read addr n = m.read addr n :=
  Mem.read_eq_read_iff.mpr fun j hj => h.outside _ (hsrc j hj)

/-- Piece by piece, the bytes come behind each other. The induction is on the fuel, which the length
    bounds. -/
theorem Cursor.At.copyInline {fuel : Nat} (h : c.At q m (curPost * 64) v o)
    (hoff : o = 16 * c.size + offset) (hfuel : len ≤ fuel)
    (hsrc : ∀ j < len, q.ring.Outside (addr + j)) (hsize : o + len ≤ q.ring.size) :
    (Driver.copyInline q curPost fuel c offset addr len).At q m (curPost * 64)
      (v.write o (m.read addr len)) (o + len) ∧
    (Driver.copyInline q curPost fuel c offset addr len).size = c.size := by
  induction fuel generalizing c v o offset addr len with
  | zero =>
    obtain rfl : len = 0 := by omega
    rw [show m.read addr 0 = [] from rfl, Mem.write_nil]
    exact ⟨h, rfl⟩
  | succ fuel ih =>
    rw [Driver.copyInline]
    split
    case isTrue hzero =>
      subst hzero
      rw [show m.read addr 0 = [] from rfl, Mem.write_nil]
      exact ⟨h, rfl⟩
    case isFalse hlen =>
      obtain ⟨hc, hlt, hsz⟩ := h.handleEdge (c.size + offset >>> 4) (by
        rw [Nat.shiftRight_eq_div_pow]
        omega)
      dsimp only
      generalize handlePostSendEdge q curPost (c.size + offset >>> 4) c = c₁ at *
      obtain ⟨n, hn⟩ : ∃ n, n = min (c₁.edge - c₁.seg) len := ⟨_, rfl⟩
      obtain ⟨k, rfl⟩ := Nat.exists_eq_add_of_le (show n ≤ len by omega)
      rw [← hn, Nat.add_sub_cancel_left, hc.read_eq fun j hj => hsrc j (by omega)]
      have hwrite := hc.write (m.read addr n) (by rw [Mem.read_length]; omega)
        (by rw [Mem.read_length]; omega)
      rw [Mem.read_length] at hwrite
      have hrest := @ih _ _ _ (addr + n) k (offset + n) hwrite (by dsimp only; omega) (by omega)
        (fun j hj => Nat.add_assoc addr n j ▸ hsrc (n + j) (by omega)) (by omega)
      have hjoin : (v.write o (m.read addr n)).write (o + n) (m.read (addr + n) k) =
          v.write o (m.read addr (n + k)) := by
        rw [Mem.read_add, ← Mem.write_append, Mem.read_length]
      rw [hjoin, Nat.add_assoc] at hrest
      exact ⟨hrest.1, hrest.2.trans hsz⟩

/-- The memory of a cursor, without the pointer. -/
structure Written (q : SqBuf) (m : Mem) (x : Nat) (v : Mem) (mem : Mem) : Prop where
  shows : q.ring.Shows mem x v
  outside : ∀ a, q.ring.Outside a → mem a = m a

theorem inlineData_cons (m : Mem) (sge : WrSge) (sgs : List WrSge) :
    inlineData m (sge :: sgs) = m.read sge.addr.toNat sge.length.toNat ++ inlineData m sgs := rfl

/-- The data of the list comes behind each other. -/
theorem Cursor.At.inlineLoop_ok {maxInlineData : Int} {sgs : List WrSge} {k : Nat}
    (h : c.At q m (curPost * 64) v o) (hoff : o = 16 * c.size + offset)
    (hmax : maxInlineData < 2147483648) (hfits : k + (inlineData m sgs).length ≤ maxInlineData)
    (hsrc : ∀ sge ∈ sgs, ∀ j < sge.length.toNat, q.ring.Outside (sge.addr.toNat + j))
    (hsize : o + (inlineData m sgs).length ≤ q.ring.size) :
    ∃ c', inlineLoop q curPost maxInlineData sgs c offset k =
        .ok (c', ((k + (inlineData m sgs).length : Nat) : Int)) ∧
      c'.size = c.size ∧
      c'.At q m (curPost * 64) (v.write o (inlineData m sgs)) (o + (inlineData m sgs).length) := by
  induction sgs generalizing v o c offset k with
  | nil =>
    refine ⟨c, rfl, rfl, ?_⟩
    rw [show inlineData m [] = [] from rfl, Mem.write_nil]
    exact h
  | cons sge sgs ih =>
    rw [inlineData_cons, List.length_append, Mem.read_length] at hfits hsize ⊢
    rw [List.forall_mem_cons] at hsrc
    obtain ⟨hc, hsz⟩ := h.copyInline hoff (Nat.le_refl sge.length.toNat) hsrc.1 (by omega)
    have hinl : wrapInt (k + sge.length.toNat) = ((k + sge.length.toNat : Nat) : Int) := by
      rw [wrapInt_of_bounds (by omega) (by omega)]
      omega
    obtain ⟨c', hc', hsz', hat⟩ := @ih _ _ _ (offset + sge.length.toNat) (k + sge.length.toNat) hc
      (by rw [hsz]; omega) (by omega) hsrc.2 (by omega)
    refine ⟨c', ?_, hsz'.trans hsz, ?_⟩
    · rw [inlineLoop, hinl, if_neg (by omega), hc', Nat.add_assoc]
    · rw [← Mem.write_append, Mem.read_length, ← Nat.add_assoc]
      exact hat

/-- If it is too much, an error ends the copying before the first byte too many. -/
theorem Cursor.At.inlineLoop_error {maxInlineData : Int} {sgs : List WrSge} {k : Nat}
    (h : c.At q m (curPost * 64) v o) (hoff : o = 16 * c.size + offset)
    (htotal : k + (inlineData m sgs).length < 2147483648) (hk : k ≤ maxInlineData)
    (hbig : maxInlineData < k + (inlineData m sgs).length)
    (hsrc : ∀ sge ∈ sgs, ∀ j < sge.length.toNat, q.ring.Outside (sge.addr.toNat + j))
    (hsize : o + (maxInlineData - k) ≤ q.ring.size) :
    ∃ mem bs, inlineLoop q curPost maxInlineData sgs c offset k = .error mem ∧
      k + bs.length ≤ maxInlineData ∧ Written q m (curPost * 64) (v.write o bs) mem := by
  induction sgs generalizing c v o offset k with
  | nil =>
    rw [show inlineData m [] = [] from rfl, List.length_nil] at hbig
    omega
  | cons sge sgs ih =>
    rw [inlineData_cons, List.length_append, Mem.read_length] at htotal hbig
    rw [List.forall_mem_cons] at hsrc
    have hinl : wrapInt (k + sge.length.toNat) = ((k + sge.length.toNat : Nat) : Int) := by
      rw [wrapInt_of_bounds (by omega) (by omega)]
      omega
    rw [inlineLoop, hinl]
    by_cases hstop : maxInlineData < ((k + sge.length.toNat : Nat) : Int)
    · refine ⟨c.mem, [], if_pos hstop, by simpa using hk, ?_⟩
      rw [Mem.write_nil]
      exact ⟨h.shows, h.outside⟩
    · obtain ⟨hc, hsz⟩ := h.copyInline hoff (Nat.le_refl sge.length.toNat) hsrc.1 (by omega)
      obtain ⟨mem, bs, hmem, hlen, hwritten⟩ :=
        @ih _ _ _ (offset + sge.length.toNat) (k + sge.length.toNat) hc (by rw [hsz]; omega) (by omega)
          (by omega) (by omega) hsrc.2 (by omega)
      refine ⟨mem, m.read sge.addr.toNat sge.length.toNat ++ bs, ?_, ?_, ?_⟩
      · rw [if_neg hstop]
        exact hmem
      · rw [List.length_append, Mem.read_length]
        omega
      · rw [← Mem.write_append, Mem.read_length]
        exact hwritten

theorem setDataInl_ok {maxInlineData : Int} {sgs : List WrSge} (h : c.At q m (curPost * 64) v o)
    (hoff : o = 16 * c.size) (hlt : c.seg < c.edge) (hmax : maxInlineData < 2147483648)
    (hfits : (inlineData m sgs).length ≤ maxInlineData)
    (hsrc : ∀ sge ∈ sgs, ∀ j < sge.length.toNat, q.ring.Outside (sge.addr.toNat + j))
    (hsize : o + (inlineSegBytes (inlineData m sgs)).length ≤ q.ring.size) :
    ∃ c', setDataInl q curPost maxInlineData sgs c = .ok c' ∧
      c'.size = c.size + ((inlineSegBytes (inlineData m sgs)).length + 15) / 16 ∧
      c'.At q m (curPost * 64) (v.write o (inlineSegBytes (inlineData m sgs)))
        (o + (inlineSegBytes (inlineData m sgs)).length) := by
  have hlen : (inlineSegBytes (inlineData m sgs)).length = 4 + (inlineData m sgs).length := by
    simp [inlineSegBytes]
  rw [hlen] at hsize ⊢
  have hroom : 4 ≤ c.edge - c.seg := h.room (Or.inr hlt) (by omega)
  obtain ⟨c', hc', hsz, hat⟩ := (h.skip hroom).inlineLoop_ok (show o + 4 = 16 * c.size + 4 by omega)
    hmax (k := 0) (by omega) hsrc (by omega)
  rw [Nat.zero_add] at hc'
  change inlineLoop q curPost maxInlineData sgs { c with seg := c.seg + 4 } 4 0 = _ at hc'
  have hcount : ((inlineData m sgs).length : Int).toNat = (inlineData m sgs).length := by omega
  have hback := hat.writeBack (Word.toBe 4 ((inlineData m sgs).length ||| 2147483648)) h.window
    (by simpa using hroom) (by simp; omega)
  change c'.size = c.size at hsz
  rw [setDataInl, hc']
  refine ⟨_, rfl, ?_, ?_⟩
  · simp only [align]
    omega
  · rw [hcount, inlineSegBytes, ← Mem.write_append_rev, Word.toBe_length, ← Nat.add_assoc]
    exact { hback with }

theorem setDataInl_error {maxInlineData : Int} {sgs : List WrSge} (h : c.At q m (curPost * 64) v o)
    (hoff : o = 16 * c.size) (hlt : c.seg < c.edge)
    (htotal : (inlineData m sgs).length < 2147483648) (hmax : 0 ≤ maxInlineData)
    (hbig : maxInlineData < (inlineData m sgs).length)
    (hsrc : ∀ sge ∈ sgs, ∀ j < sge.length.toNat, q.ring.Outside (sge.addr.toNat + j))
    (hsize : o + 4 + maxInlineData ≤ q.ring.size) :
    ∃ mem bs, setDataInl q curPost maxInlineData sgs c = .error mem ∧ bs.length ≤ maxInlineData ∧
      Written q m (curPost * 64) (v.write (o + 4) bs) mem := by
  have hroom : 4 ≤ c.edge - c.seg := h.room (Or.inr hlt) (by omega)
  obtain ⟨mem, bs, hmem, hlen, hwritten⟩ :=
    (h.skip hroom).inlineLoop_error (show o + 4 = 16 * c.size + 4 by omega) (k := 0) (by omega)
      (by omega) (by omega) hsrc (by omega)
  change inlineLoop q curPost maxInlineData sgs { c with seg := c.seg + 4 } 4 0 = _ at hmem
  exact ⟨mem, bs, by rw [setDataInl, hmem], by omega, hwritten⟩

/-! ## The other segments -/

theorem Cursor.At.setDataPtrs {sgs : List WrSge} (h : c.At q m (curPost * 64) v o)
    (hoff : o = 16 * c.size) (hsize : o + (sgs.flatMap WrSge.ptrSeg).length ≤ q.ring.size) :
    (Driver.setDataPtrs q curPost sgs c).At q m (curPost * 64)
      (v.write o (sgs.flatMap WrSge.ptrSeg)) (o + (sgs.flatMap WrSge.ptrSeg).length) ∧
    (Driver.setDataPtrs q curPost sgs c).size = c.size + (sgs.flatMap WrSge.ptrSeg).length / 16 := by
  induction sgs generalizing c v o with
  | nil =>
    rw [List.flatMap_nil, Mem.write_nil]
    exact ⟨h, rfl⟩
  | cons sge sgs ih =>
    have hseg : sge.ptrSeg.length = 0 ∨ sge.ptrSeg.length = 16 := by
      rw [WrSge.ptrSeg]
      split <;> simp
    rw [List.flatMap_cons, List.length_append] at hsize ⊢
    obtain ⟨hc, hlt, hsz⟩ := h.handleEdge c.size (by omega)
    have hput := hc.put sge.ptrSeg (hc.room (Or.inr hlt) (by omega)) (by omega)
    have hsize' : ((handlePostSendEdge q curPost c.size c).put sge.ptrSeg).size =
        c.size + sge.ptrSeg.length / 16 := by
      rw [Cursor.put, hsz]
    obtain ⟨hat, hrest⟩ := ih hput (by omega) (by omega)
    rw [Driver.setDataPtrs, ← Mem.write_append, ← Nat.add_assoc]
    exact ⟨hat, by omega⟩

theorem setData_ok {maxInlineData : Int} {wr : DataWr} (h : c.At q m (curPost * 64) v o)
    (hoff : o = 16 * c.size) (hlt : c.seg < c.edge) (hmax : maxInlineData < 2147483648)
    (hfits : wr.inl → (inlineData m wr.sgList).length ≤ maxInlineData)
    (hsrc : wr.inl → ∀ sge ∈ wr.sgList, ∀ j < sge.length.toNat,
      q.ring.Outside (sge.addr.toNat + j))
    (hsize : o + (wr.dataSegs m).length ≤ q.ring.size) :
    ∃ c', setData q curPost maxInlineData wr c = .ok c' ∧
      c'.size = c.size + ((wr.dataSegs m).length + 15) / 16 ∧
      c'.At q m (curPost * 64) (v.write o (wr.dataSegs m)) (o + (wr.dataSegs m).length) := by
  rw [DataWr.dataSegs] at hsize ⊢
  rw [setData]
  split
  case isTrue hinl =>
    rw [if_pos hinl] at hsize
    exact setDataInl_ok h hoff hlt hmax (hfits hinl.1) (hsrc hinl.1) hsize
  case isFalse hptr =>
    rw [if_neg hptr] at hsize
    obtain ⟨hat, hsz⟩ := h.setDataPtrs hoff hsize
    have hmul := ptrSegs_length wr.sgList
    exact ⟨_, rfl, by omega, hat⟩

/-- The cached edge belongs to the block of the next entry. -/
structure SqMem.EdgeOk (q : SqBuf) (s : SqMem) : Prop where
  window : q.ring.Window (q.getWqe (q.idx s.curPost)) s.curEdge (s.curPost * 64)
  lt : q.getWqe (q.idx s.curPost) < s.curEdge
  edge_mod : s.curEdge % 64 = 0

variable {s : SqMem} {cfg : CtrlCfg} {wr : DataWr}

/-- The pointer at the start of an entry. -/
theorem SqMem.EdgeOk.start (h : s.EdgeOk q) (hv : q.ring.Shows s.mem (s.curPost * 64) v) :
    Cursor.At q s.mem (s.curPost * 64) v 0
      ⟨s.mem, q.getWqe (q.idx s.curPost), s.curEdge, 0⟩ where
  shows := hv
  window := h.window
  seg_mod := q.getWqe_aligned _
  edge_mod := h.edge_mod
  outside _ _ := rfl

theorem ctrlTail_length (cfg : CtrlCfg) (wr : DataWr) : (wr.ctrlTail cfg).length = 8 := by
  simp [DataWr.ctrlTail]

/-- The second half of the control segment. -/
theorem SqMem.EdgeOk.ctrlTail_at (cfg : CtrlCfg) (wr : DataWr) (h : s.EdgeOk q) (hv : q.ring.Shows s.mem (s.curPost * 64) v)
    (hsize : 16 ≤ q.ring.size) :
    Cursor.At q s.mem (s.curPost * 64) (v.write 8 (wr.ctrlTail cfg)) 16
      ⟨s.mem.write (q.getWqe (q.idx s.curPost) + 8) (wr.ctrlTail cfg),
        q.getWqe (q.idx s.curPost) + 16, s.curEdge, 1⟩ := by
  have hstart := h.start hv
  have hroom : 64 ≤ s.curEdge - q.getWqe (q.idx s.curPost) := hstart.room (Or.inr h.lt) (by omega)
  have hwrite := (hstart.skip (n := 8) (by dsimp only; omega)).write (wr.ctrlTail cfg)
    (by rw [ctrlTail_length]; dsimp only; omega) (by rw [ctrlTail_length]; omega)
  rw [ctrlTail_length] at hwrite
  exact { hwrite with }

/-- The address vector ends a block or lies within one. -/
theorem putAv_at (hc : c.At q m (curPost * 64) (v.write 8 (wr.ctrlTail cfg)) 16) (hone : c.size = 1)
    (hsize : 16 + wr.avSeg.length ≤ q.ring.size) :
    let c' := putAv q curPost wr c
    c'.At q m (curPost * 64) (v.write 8 (wr.ctrlTail cfg ++ wr.avSeg)) (16 + wr.avSeg.length) ∧
    c'.size * 16 = 16 + wr.avSeg.length ∧
    ((16 + wr.avSeg.length) % 64 ≠ 0 ∨ c'.seg < c'.edge) := by
  obtain ⟨hmod, hle⟩ := avSeg_length wr
  have hput := hc.put wr.avSeg (hc.room (Or.inl (by decide)) (by omega)) hsize
  have hjoin : (v.write 8 (wr.ctrlTail cfg)).write 16 wr.avSeg =
      v.write 8 (wr.ctrlTail cfg ++ wr.avSeg) := by
    rw [← Mem.write_append, ctrlTail_length]
  rw [hjoin] at hput
  have hsz : (c.put wr.avSeg).size * 16 = 16 + wr.avSeg.length := by
    rw [Cursor.put, hone]
    dsimp only
    omega
  obtain ⟨hat, hlt, hedge⟩ := hput.handleEdge (c.put wr.avSeg).size (by omega)
  cases hdest : wr.dest with
  | rc =>
    have hnil : wr.avSeg = [] := by rw [DataWr.avSeg, hdest]
    rw [hnil] at hput hsz ⊢
    simp only [putAv, hdest]
    rw [List.append_nil] at hput ⊢
    exact ⟨by simpa [Cursor.put, Mem.write_nil] using hput, by simpa [Cursor.put] using hsz,
      Or.inl (by decide)⟩
  | dc =>
    simp only [putAv, hdest]
    exact ⟨hat, by omega, Or.inr hlt⟩
  | ud =>
    simp only [putAv, hdest]
    exact ⟨hat, by omega, Or.inr hlt⟩

/-- The segments before the data. -/
theorem beginWqe_at (cfg : CtrlCfg) (wr : DataWr) (h : s.EdgeOk q)
    (hv : q.ring.Shows s.mem (s.curPost * 64) v)
    (hsize : 16 + wr.avSeg.length + wr.raddrSeg.length ≤ q.ring.size) :
    let c := beginWqe q cfg s wr
    c.At q s.mem (s.curPost * 64)
      (v.write 8 (wr.ctrlTail cfg ++ wr.avSeg ++ wr.raddrSeg))
      (16 + wr.avSeg.length + wr.raddrSeg.length) ∧
    c.seg < c.edge ∧ c.size * 16 = 16 + wr.avSeg.length + wr.raddrSeg.length := by
  obtain ⟨hav, hsz, hfree⟩ := putAv_at (h.ctrlTail_at cfg wr hv (by omega)) rfl (by omega)
  obtain ⟨hmod, hle⟩ := avSeg_length wr
  have hlen := raddrSeg_length wr
  rw [beginWqe]
  dsimp only at hav hsz hfree ⊢
  generalize putAv q s.curPost wr _ = c at *
  have hput := hav.put wr.raddrSeg (hav.room hfree (by omega)) hsize
  have hsz' : (c.put wr.raddrSeg).size * 16 = 16 + wr.avSeg.length + wr.raddrSeg.length := by
    rw [Cursor.put]
    dsimp only
    omega
  have hjoin : (v.write 8 (wr.ctrlTail cfg ++ wr.avSeg)).write (16 + wr.avSeg.length) wr.raddrSeg =
      v.write 8 (wr.ctrlTail cfg ++ wr.avSeg ++ wr.raddrSeg) := by
    rw [← Mem.write_append v 8 (wr.ctrlTail cfg ++ wr.avSeg), List.length_append, ctrlTail_length,
      ← Nat.add_assoc]
  rw [hjoin] at hput
  obtain ⟨hat, hlt, hedge⟩ := hput.handleEdge (c.put wr.raddrSeg).size (by omega)
  exact ⟨hat, hlt, by omega⟩

/-! ## The end of an entry -/

theorem ctrlHead_length (cfg : CtrlCfg) (wr : DataWr) (curPost size : Nat) :
    (wr.ctrlHead cfg curPost size).length = 8 := by
  simp [DataWr.ctrlHead]

/-- The first half of the control segment and the fence complete it. -/
theorem ctrl_complete (v : Mem) (cfg : CtrlCfg) (wr : DataWr) (curPost size : Nat)
    (body : List UInt8) :
    let v₁ := (v.write 8 (wr.ctrlTail cfg ++ body)).write 0 (wr.ctrlHead cfg curPost size)
    v₁.write 11 [v₁ 11 ||| wr.fenceBits cfg] = v.write 0 (wr.ctrl cfg curPost size ++ body) := by
  have hlen := ctrlHead_length cfg wr curPost size
  have hfirst : (v.write 8 (wr.ctrlTail cfg ++ body)).write 0 (wr.ctrlHead cfg curPost size) =
      v.write 0 (wr.ctrlHead cfg curPost size ++ (wr.ctrlTail cfg ++ body)) := by
    rw [← Mem.write_append_rev v 0 (wr.ctrlHead cfg curPost size), hlen, Nat.zero_add]
  generalize hL : wr.ctrlHead cfg curPost size ++ (wr.ctrlTail cfg ++ body) = L at hfirst
  have hbyte : L[11]? = some (wr.ceSe cfg) := by
    rw [← hL, List.getElem?_append_right (by omega), hlen]
    rfl
  have hset : L.set 11 (wr.ceSe cfg ||| wr.fenceBits cfg) = wr.ctrl cfg curPost size ++ body := by
    rw [← hL, List.set_append_right _ _ (by omega), hlen, DataWr.ctrl, List.append_assoc,
      List.append_assoc]
    rfl
  obtain ⟨hlt, -⟩ := List.getElem?_eq_some_iff.mp hbyte
  dsimp only
  rw [hfirst, ← hset, ← Mem.write_set v 0 _ hlt, Nat.zero_add]
  have hread : v.write 0 L 11 = wr.ceSe cfg := by
    have := Mem.write_add_getD v 0 11 L
    rw [hbyte, Nat.zero_add] at this
    exact this
  rw [hread]

/-- The pointer at the end of an entry, moved to the next block. -/
theorem Cursor.At.alignUp (h : c.At q m x v o) {p : Nat} (hp : x + (o + 63) / 64 * 64 = p) :
    q.ring.Window ((c.seg + 63) / 64 * 64) c.edge p := by
  have hle := h.window.le
  have hseg := h.seg_mod
  have hedge := h.edge_mod
  obtain ⟨d, hd⟩ : ∃ d, (c.seg + 63) / 64 * 64 = c.seg + d ∧ (o + 63) / 64 * 64 = o + d :=
    ⟨(o + 63) / 64 * 64 - o, by omega, by omega⟩
  rw [hd.1, ← hp, hd.2, ← Nat.add_assoc]
  exact h.window.advance (by omega)

/-- The edge that is kept for the next entry. -/
theorem finishEntry_edge (h : c.At q m (s.curPost * 64) v o) (hsz : c.size = (o + 15) / 16)
    (hlt : c.size < 256) (ctrl : Nat) : (finishEntry q cfg wr s ctrl c).EdgeOk q := by
  have hblocks : s.curPost * 64 + (o + 63) / 64 * 64 =
      (s.curPost + (c.size % 256 * 16 + 63) / 64) * 64 := by omega
  have hwindow := h.alignUp hblocks
  have hwrap : (s.curPost + (c.size % 256 * 16 + 63) / 64) * 64 % q.ring.size =
      (s.curPost + (c.size % 256 * 16 + 63) / 64) % 65536 * 64 % q.ring.size := by
    rw [SqBuf.ring_size, Nat.mul_mod_mul_right, Nat.mul_mod_mul_right,
      Nat.mod_mod_of_dvd _ (Nat.pow_dvd_pow 2 q.logSz_le)]
  rw [finishEntry]
  split
  case isTrue hedge =>
    exact ⟨q.window_block _, q.getWqe_lt_getSqEdge _, q.getSqEdge_aligned _⟩
  case isFalse hedge =>
    have hpos := hwindow.congr hwrap
    have hless := Nat.lt_of_le_of_ne hpos.le hedge
    have hseg : q.getWqe (q.idx ((s.curPost + (c.size % 256 * 16 + 63) / 64) % 65536)) =
        (c.seg + 63) / 64 * 64 := by
      rw [← hpos.seg_eq hless]
      exact ((q.window_block _).seg_eq (q.getWqe_lt_getSqEdge _)).symm
    exact ⟨hseg ▸ hpos, hseg ▸ hless, h.edge_mod⟩

theorem finishEntry_written {body : List UInt8} (h : s.EdgeOk q)
    (hc : c.At q m (s.curPost * 64) (v.write 8 (wr.ctrlTail cfg ++ body)) o)
    (hsize : 16 ≤ q.ring.size) :
    Written q m (s.curPost * 64) (v.write 0 (wr.ctrl cfg s.curPost c.size ++ body))
      (finishEntry q cfg wr s (q.getWqe (q.idx s.curPost)) c).mem := by
  have hroom : 64 ≤ s.curEdge - q.getWqe (q.idx s.curPost) := by
    have hlt := h.lt
    have hseg := q.getWqe_aligned (q.idx s.curPost)
    have hedge := h.edge_mod
    omega
  have hlen := ctrlHead_length cfg wr s.curPost c.size
  have hhead := hc.writeBack (p := 0) (wr.ctrlHead cfg s.curPost c.size) h.window (by omega) (by omega)
  have hbyte := hhead.shows 11 (by omega)
  rw [h.window.addr_eq 11 (by omega)] at hbyte
  have hfence := hhead.writeBack
    [(c.mem.write (q.getWqe (q.idx s.curPost)) (wr.ctrlHead cfg s.curPost c.size))
      (q.getWqe (q.idx s.curPost) + 11) ||| wr.fenceBits cfg]
    (h.window.advance (n := 11) (by omega)) (by simp; omega) (by simp; omega)
  have hdone := ctrl_complete v cfg wr s.curPost c.size body
  dsimp only at hdone hbyte
  rw [← hdone, ← hbyte]
  exact ⟨hfence.shows, hfence.outside⟩

/-! ## Whole entries -/

theorem entry_length (cfg : CtrlCfg) (src : Mem) (curPost size : Nat) (wr : DataWr) :
    (wr.entry cfg src curPost size).length =
      16 + wr.avSeg.length + wr.raddrSeg.length + (wr.dataSegs src).length := by
  simp only [DataWr.entry, List.length_append, ctrl_length]
  omega

theorem units_eq (src : Mem) (wr : DataWr) :
    wr.units src = (16 + wr.avSeg.length + wr.raddrSeg.length + (wr.dataSegs src).length + 15) / 16 := by
  have hav := (avSeg_length wr).1
  have hraddr := raddrSeg_length wr
  rw [DataWr.units]
  omega

/-- The blocks that an entry takes. -/
def DataWr.blocks (src : Mem) (wr : DataWr) : Nat := (wr.units src + 3) / 4

/-- The bytes of an inline request are not in the queue. -/
def DataWr.SrcOutside (q : SqBuf) (wr : DataWr) : Prop :=
  wr.inl → ∀ sge ∈ wr.sgList, ∀ j < sge.length.toNat, q.ring.Outside (sge.addr.toNat + j)

/-- A request that fits is written as its entry, at its place in the ring. -/
theorem writeWqe_ok {maxInlineData : Int} (h : s.EdgeOk q)
    (hv : q.ring.Shows s.mem (s.curPost * 64) v) (hmax : maxInlineData < 2147483648)
    (hfits : wr.inl → (inlineData s.mem wr.sgList).length ≤ maxInlineData)
    (hsrc : wr.SrcOutside q) (hunits : wr.units s.mem < 256)
    (hsize : 16 * wr.units s.mem ≤ q.ring.size) :
    ∃ s', writeWqe q cfg maxInlineData s wr = .ok s' ∧ s'.EdgeOk q ∧
      s'.curPost = (s.curPost + wr.blocks s.mem) % 65536 ∧
      Written q s.mem (s.curPost * 64)
        (v.write 0 (wr.entry cfg s.mem s.curPost (wr.units s.mem))) s'.mem := by
  have hunits_eq := units_eq s.mem wr
  obtain ⟨hbegin, hlt, hsz⟩ := beginWqe_at cfg wr h hv (by omega)
  obtain ⟨c, hdata, hcsz, hc⟩ := setData_ok hbegin (by omega) hlt hmax hfits hsrc (by omega)
  have hcunits : c.size = wr.units s.mem := by
    rw [DataWr.units, hcsz]
    have hav := (avSeg_length wr).1
    have hraddr := raddrSeg_length wr
    omega
  refine ⟨finishEntry q cfg wr s (q.getWqe (q.idx s.curPost)) c, by rw [writeWqe, hdata]; rfl,
    finishEntry_edge hc (by omega) (by omega) _, ?_, ?_⟩
  · rw [finishEntry, DataWr.blocks, hcunits]
    dsimp only
    congr 2
    omega
  · have hjoin : (v.write 8 (wr.ctrlTail cfg ++ wr.avSeg ++ wr.raddrSeg)).write
        (16 + wr.avSeg.length + wr.raddrSeg.length) (wr.dataSegs s.mem) =
        v.write 8 (wr.ctrlTail cfg ++ (wr.avSeg ++ (wr.raddrSeg ++ wr.dataSegs s.mem))) := by
      rw [← List.append_assoc, ← List.append_assoc,
        ← Mem.write_append v 8 (wr.ctrlTail cfg ++ wr.avSeg ++ wr.raddrSeg), List.length_append,
        List.length_append, ctrlTail_length, ← Nat.add_assoc, ← Nat.add_assoc]
    rw [hjoin] at hc
    rw [DataWr.entry, ← hcunits]
    exact finishEntry_written h hc (by omega)

/-- The units of the entry, read around the ring. -/
theorem Written.read_eq {mem : Mem} (hsize : 16 * wr.units m ≤ q.ring.size)
    (h : Written q m x (v.write 0 (wr.entry cfg m curPost (wr.units m))) mem) :
    ∃ pad : List UInt8,
      (wr.dataSegs m).length + pad.length = ((wr.dataSegs m).length + 15) / 16 * 16 ∧
      Mem.read (fun i => mem (q.ring.addr (x + i))) 0 (16 * wr.units m) =
        wr.entry cfg m curPost (wr.units m) ++ pad := by
  have hunits_eq := units_eq m wr
  have hlen := entry_length cfg m curPost (wr.units m) wr
  have hav := (avSeg_length wr).1
  have hraddr := raddrSeg_length wr
  obtain ⟨n, hn⟩ := Nat.exists_eq_add_of_le
    (show (wr.entry cfg m curPost (wr.units m)).length ≤ 16 * wr.units m by omega)
  refine ⟨v.read (0 + (wr.entry cfg m curPost (wr.units m)).length) n, ?_, ?_⟩
  · rw [Mem.read_length]
    omega
  · rw [← Mem.read_write_append, ← hn, Mem.read_eq_read_iff]
    intro j hj
    rw [Nat.zero_add]
    exact h.shows j (by omega)

/-- A request with too much inline data is refused after a part of it has been written. -/
theorem writeWqe_error {maxInlineData : Int} (h : s.EdgeOk q)
    (hv : q.ring.Shows s.mem (s.curPost * 64) v) (hinl : wr.inl ∧ wr.sgList ≠ [])
    (hmax : 0 ≤ maxInlineData) (htotal : (inlineData s.mem wr.sgList).length < 2147483648)
    (hbig : maxInlineData < (inlineData s.mem wr.sgList).length) (hsrc : wr.SrcOutside q)
    (hsize : 16 + wr.avSeg.length + wr.raddrSeg.length + 4 + maxInlineData ≤ q.ring.size) :
    ∃ mem v', writeWqe q cfg maxInlineData s wr = .error mem ∧
      Written q s.mem (s.curPost * 64) v' mem ∧
      ∀ i : Nat, 16 + wr.avSeg.length + wr.raddrSeg.length + 4 + maxInlineData ≤ i → v' i = v i := by
  obtain ⟨hbegin, hlt, hsz⟩ := beginWqe_at cfg wr h hv (by omega)
  obtain ⟨mem, bs, hmem, hlen, hwritten⟩ :=
    setDataInl_error hbegin (by omega) hlt htotal hmax hbig (hsrc hinl.1) (by omega)
  refine ⟨mem, _, ?_, hwritten, ?_⟩
  · rw [writeWqe, setData, if_pos hinl, hmem]
    rfl
  · intro i hi
    rw [Mem.write_of_outside (by omega), Mem.write_of_outside]
    rw [List.length_append, List.length_append, ctrlTail_length]
    omega

end Driver
