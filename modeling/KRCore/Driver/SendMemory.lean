-- SUMMARY: The memory of a send queue over runs of posts and retirements: the device finds every request that is not retired as it was posted.
import KRCore.Base.Run
import KRCore.Driver.WqeWriter

/-!
# The send queue in memory, over whole runs

Requests are posted one after the other, some are refused after a part of their entry has
been written, and the oldest ones are retired. An entry may go around the end of the queue,
over the edges of its pages, and the counter of blocks wraps at 16 bits. Other memory
changes at any time.

Wherever the device is, it finds the requests that are not retired as they were posted, the
bytes of inline requests as they were at that moment.
-/

namespace Driver

open FragRing

/-! ## Runs -/

/-- A send queue: its buffer, what stands in its control segments, and its limits. There is room for
    `max_post` requests of `room` blocks, and a request within the limits takes no more. -/
structure SqParams where
  buf : SqBuf
  kind : QpKind
  qpn : BitVec 24
  signalAll : Bool
  maxPost : Nat
  maxGs : Nat
  maxInlineData : Nat
  room : Nat
  posts_fit : maxPost * room ≤ 2 ^ buf.logSz
  ptrs_fit : kind.header + 16 * maxGs ≤ 64 * room
  inline_fits : kind.header + 4 + maxInlineData ≤ 64 * room
  room_lt : room < 64

/-- A request that has been posted and not retired. `pos` counts blocks since the start. -/
structure LiveWqe where
  pos : Nat
  blocks : Nat
  view : WqeView

structure SqRun where
  sq : SqMem
  nextFence : Bool
  pos : Nat
  live : List LiveWqe

inductive SqEvent where
  | post (wr : DataWr)
  | retire
  /-- Memory is written by someone else. -/
  | store (addr : Nat) (b : UInt8)

namespace SqParams

def cfg (p : SqParams) (nextFence : Bool) : CtrlCfg := ⟨p.qpn, p.signalAll, nextFence⟩

def init (p : SqParams) (mem : Mem) (nextFence : Bool) : SqRun :=
  ⟨⟨mem, 0, p.buf.getSqEdge 0⟩, nextFence, 0, []⟩

/-- The queue after the entry of a request has been finished. -/
def posted (p : SqParams) (st : SqRun) (wr : DataWr) (sq : SqMem) : SqRun where
  sq
  nextFence := false
  pos := st.pos + wr.blocks st.sq.mem
  live := st.live ++ [⟨st.pos, wr.blocks st.sq.mem,
    wr.view (p.cfg st.nextFence) st.sq.mem st.sq.curPost⟩]

/-- One request of `post_send`: the checks, and the entry. -/
def post (p : SqParams) (st : SqRun) (wr : DataWr) : SqRun :=
  if p.maxGs < wr.sgList.length then st
  else if p.maxPost ≤ st.live.length then st
  else
    match writeWqe p.buf (p.cfg st.nextFence) p.maxInlineData st.sq wr with
    | .error mem => { st with sq := { st.sq with mem } }
    | .ok sq => p.posted st wr sq

def step (p : SqParams) (st : SqRun) : SqEvent → Option SqRun
  | .post wr => some (p.post st wr)
  | .retire =>
    match st.live with
    | [] => none
    | _ :: live => some { st with live }
  | .store addr b => some { st with sq := { st.sq with mem := st.sq.mem.write addr [b] } }

/-- Requests are of the type of the queue pair, their numbers fit the format, and inline data is not
    taken from the queue itself; nobody else writes to the queue. -/
def Allowed (p : SqParams) (st : SqRun) : SqEvent → Prop
  | .post wr => wr.dest.kind = p.kind ∧ wr.Encodable st.sq.mem ∧ wr.SrcOutside p.buf
  | .retire => True
  | .store addr _ => p.buf.ring.Outside addr

/-- What the device makes of the entry at a position. -/
def device (p : SqParams) (mem : Mem) (pos : Nat) : WqeView :=
  fetch p.kind fun i => mem (p.buf.ring.addr (pos * 64 + i))

end SqParams

/-! ## What an entry keeps -/

variable {p : SqParams} {st st' : SqRun} {wr : DataWr} {mem mem' : Mem} {e : LiveWqe}

/-- The entry of a request is in the ring, within its blocks. -/
structure SqParams.Holds (p : SqParams) (mem : Mem) (e : LiveWqe) : Prop where
  view : p.device mem e.pos = e.view
  within : (mem (p.buf.ring.addr (e.pos * 64 + 7))).toNat ≤ 4 * e.blocks

theorem fetch_congr {kind : QpKind} {v w : Mem} {n : Nat} (hn : (v 7).toNat ≤ n) (hseven : 7 < 16 * n)
    (h : ∀ i < 16 * n, w i = v i) : fetch kind w = fetch kind v := by
  rw [fetch, fetch, h 7 hseven]
  congr 1
  rw [Mem.read_eq_read_iff]
  intro j hj
  rw [Nat.zero_add]
  exact h j (by omega)

theorem SqParams.Holds.congr (h : p.Holds mem e) (hpos : 0 < e.blocks)
    (heq : ∀ i < 64 * e.blocks, mem' (p.buf.ring.addr (e.pos * 64 + i)) =
      mem (p.buf.ring.addr (e.pos * 64 + i))) : p.Holds mem' e where
  view := (fetch_congr h.within (by omega) fun i hi => heq i (by omega)).trans h.view
  within := by
    rw [heq 7 (by omega)]
    exact h.within

/-- Where the live entries lie: behind each other up to `pos`, none larger than its room. -/
def LaidOut (room pos : Nat) : List LiveWqe → Prop
  | [] => True
  | e :: es =>
    0 < e.blocks ∧ e.pos + e.blocks ≤ pos ∧ pos ≤ e.pos + (es.length + 1) * room ∧
      LaidOut room pos es

section Layout

variable {room pos b : Nat} {es : List LiveWqe}

theorem LaidOut.append (h : LaidOut room pos es) (view : WqeView) (hpos : 0 < b) (hb : b ≤ room) :
    LaidOut room (pos + b) (es ++ [⟨pos, b, view⟩]) := by
  induction es with
  | nil =>
    refine ⟨hpos, Nat.le_refl _, ?_, trivial⟩
    rw [List.length_nil, Nat.zero_add, Nat.one_mul]
    exact Nat.add_le_add_left hb pos
  | cons e es ih =>
    obtain ⟨hblocks, hend, hspan, hrest⟩ := h
    rw [List.cons_append]
    refine ⟨hblocks, by omega, ?_, ih hrest⟩
    rw [List.length_append, List.length_singleton, Nat.succ_mul]
    omega

theorem LaidOut.of_mem (h : LaidOut room pos es) (he : e ∈ es) :
    0 < e.blocks ∧ e.pos + e.blocks ≤ pos ∧ pos ≤ e.pos + es.length * room := by
  induction es with
  | nil => exact absurd he List.not_mem_nil
  | cons first es ih =>
    obtain ⟨hblocks, hend, hspan, hrest⟩ := h
    rcases List.mem_cons.mp he with rfl | he
    · exact ⟨hblocks, hend, hspan⟩
    · obtain ⟨hblocks', hend', hspan'⟩ := ih hrest he
      refine ⟨hblocks', hend', ?_⟩
      rw [List.length_cons, Nat.succ_mul]
      omega

end Layout

/-- The start of an entry, by the counter of 16 bits or by the number of blocks ever written. -/
theorem curPost_mul (q : SqBuf) (pos : Nat) :
    pos % 65536 * 64 % q.ring.size = pos * 64 % q.ring.size := by
  rw [SqBuf.ring_size, Nat.mul_mod_mul_right, Nat.mul_mod_mul_right,
    Nat.mod_mod_of_dvd _ (Nat.pow_dvd_pow 2 q.logSz_le)]

/-- What is written within the room of a request is not in the entries before it. -/
theorem Written.keeps {q : SqBuf} {m mem v v' : Mem} {pos room : Nat}
    (h : Written q m (pos % 65536 * 64) v' mem) (hv : q.ring.Shows m (pos % 65536 * 64) v)
    (hsame : ∀ i, 64 * room ≤ i → v' i = v i) (hend : e.pos + e.blocks ≤ pos)
    (hspan : pos + room ≤ e.pos + 2 ^ q.logSz) :
    ∀ i < 64 * e.blocks, mem (q.ring.addr (e.pos * 64 + i)) = m (q.ring.addr (e.pos * 64 + i)) := by
  intro i hi
  -- the byte is `j` positions behind the new entry, once around the ring
  obtain ⟨j, hj⟩ : ∃ j, pos * 64 + j = e.pos * 64 + i + 2 ^ q.logSz * 64 :=
    ⟨e.pos * 64 + i + 2 ^ q.logSz * 64 - pos * 64, by omega⟩
  have haddr : q.ring.addr (e.pos * 64 + i) = q.ring.addr (pos % 65536 * 64 + j) := by
    refine Frags.addr_congr ?_
    have hround : (pos % 65536 * 64 + j) % q.ring.size = (pos * 64 + j) % q.ring.size :=
      Nat.ModEq.add_right j (curPost_mul q pos)
    rw [hround, hj, SqBuf.ring_size, Nat.add_mod_right]
  have hlt : j < q.ring.size := by
    rw [SqBuf.ring_size]
    omega
  rw [haddr, h.shows j hlt, hv j hlt, hsame j (by omega)]

/-! ## Runs keep the entries -/

structure SqParams.Inv (p : SqParams) (st : SqRun) : Prop where
  edge : st.sq.EdgeOk p.buf
  curPost : st.sq.curPost = st.pos % 65536
  length : st.live.length ≤ p.maxPost
  laid : LaidOut p.room st.pos st.live
  holds : ∀ e ∈ st.live, p.Holds st.sq.mem e

theorem SqParams.Inv.init (p : SqParams) (mem : Mem) (nextFence : Bool) :
    p.Inv (p.init mem nextFence) where
  edge := by
    have hidx : p.buf.idx 0 = 0 := by rw [SqBuf.idx_eq, Nat.zero_mod]
    have hwindow := p.buf.window_block 0
    have hlt := p.buf.getWqe_lt_getSqEdge 0
    rw [hidx] at hwindow hlt
    refine ⟨?_, ?_, p.buf.getSqEdge_aligned 0⟩
    · change p.buf.ring.Window (p.buf.getWqe (p.buf.idx 0)) _ _
      rw [hidx]
      exact hwindow
    · change p.buf.getWqe (p.buf.idx 0) < _
      rw [hidx]
      exact hlt
  curPost := rfl
  length := Nat.zero_le _
  laid := trivial
  holds _ he := absurd he List.not_mem_nil

/-- Requests within the limits take no more than their room. -/
theorem header_le (wr : DataWr) :
    16 + wr.avSeg.length + wr.raddrSeg.length ≤ wr.dest.kind.header := by
  have hraddr := raddrSeg_length wr
  have hud : wr.dest.kind = .ud → wr.raddrSeg.length = 0 := fun h => by
    rw [raddrSeg_eq, if_neg fun h' => h'.1 h]
    rfl
  obtain ⟨-, hav⟩ := avSeg_length wr
  have hrc : wr.dest.kind = .rc → wr.avSeg.length = 0 := fun h => by
    rw [DataWr.avSeg]
    cases hdest : wr.dest with
    | rc => rfl
    | dc => simp [hdest, WrDest.kind] at h
    | ud => simp [hdest, WrDest.kind] at h
  cases hkind : wr.dest.kind with
  | rc =>
    have := hrc hkind
    rw [QpKind.header]
    omega
  | dc =>
    rw [QpKind.header]
    omega
  | ud =>
    have := hud hkind
    rw [QpKind.header]
    omega

theorem ptrSegs_length_le (sgs : List WrSge) :
    (sgs.flatMap WrSge.ptrSeg).length ≤ 16 * sgs.length := by
  induction sgs with
  | nil => exact Nat.le_refl 0
  | cons sge sgs ih =>
    have hseg : sge.ptrSeg.length ≤ 16 := by
      rw [WrSge.ptrSeg]
      split <;> simp
    rw [List.flatMap_cons, List.length_append, List.length_cons]
    omega

theorem SqParams.units_le (p : SqParams) (hkind : wr.dest.kind = p.kind)
    (hgs : wr.sgList.length ≤ p.maxGs)
    (hinl : wr.inl ∧ wr.sgList ≠ [] → (inlineData mem wr.sgList).length ≤ p.maxInlineData) :
    wr.units mem ≤ 4 * p.room := by
  have hheader := header_le wr
  have hptrs := p.ptrs_fit
  have hinline := p.inline_fits
  have hlen := ptrSegs_length_le wr.sgList
  rw [hkind] at hheader
  rw [units_eq, DataWr.dataSegs]
  split
  case isTrue h =>
    have hdata := hinl h
    have hseg : (inlineSegBytes (inlineData mem wr.sgList)).length =
        4 + (inlineData mem wr.sgList).length := by simp [inlineSegBytes]
    omega
  case isFalse h => omega

theorem SqParams.ring_ge_room (p : SqParams) (h : 0 < p.maxPost) : 64 * p.room ≤ p.buf.ring.size := by
  have hfits := p.posts_fit
  have hle := Nat.le_mul_of_pos_left p.room h
  rw [SqBuf.ring_size]
  omega

/-- Entries before the next position stay, whatever is written within the room there. -/
theorem SqParams.Inv.holds_of_written (h : p.Inv st) (hlen : st.live.length < p.maxPost) {v v' : Mem}
    (hw : Written p.buf st.sq.mem (st.sq.curPost * 64) v' mem)
    (hv : p.buf.ring.Shows st.sq.mem (st.sq.curPost * 64) v)
    (hsame : ∀ i, 64 * p.room ≤ i → v' i = v i) : ∀ e ∈ st.live, p.Holds mem e := by
  intro e he
  obtain ⟨hpos, hend, hspan⟩ := h.laid.of_mem he
  rw [h.curPost] at hw hv
  refine (h.holds e he).congr hpos (hw.keeps hv hsame hend ?_)
  have hfits := p.posts_fit
  have hmul := Nat.mul_le_mul_right p.room (Nat.succ_le_of_lt hlen)
  rw [Nat.succ_mul] at hmul
  omega

theorem SqParams.Inv.post_error (h : p.Inv st) (hlen : st.live.length < p.maxPost)
    (ha : p.Allowed st (.post wr)) (hinl : wr.inl ∧ wr.sgList ≠ [])
    (hbig : p.maxInlineData < (inlineData st.sq.mem wr.sgList).length) :
    ∃ mem, writeWqe p.buf (p.cfg st.nextFence) p.maxInlineData st.sq wr = .error mem ∧
      p.Inv { st with sq := { st.sq with mem } } ∧
      ∀ a, p.buf.ring.Outside a → mem a = st.sq.mem a := by
  obtain ⟨hkind, henc, hsrc⟩ := ha
  have hring := p.ring_ge_room (by omega)
  have hheader := header_le wr
  have hinline := p.inline_fits
  rw [hkind] at hheader
  have hv := p.buf.ring.shows_self st.sq.mem (st.sq.curPost * 64)
  obtain ⟨mem, v', herr, hwritten, hsame⟩ := writeWqe_error h.edge hv hinl
    (Int.natCast_nonneg p.maxInlineData) (henc.inline hinl.1) (by omega) hsrc (by omega)
  exact ⟨mem, herr, { h with
    edge := { h.edge with }
    holds := h.holds_of_written hlen hwritten hv fun i hi => hsame i (by omega) }, hwritten.outside⟩

/-- The entry of a request that has just been written. -/
theorem SqParams.holds_new {v : Mem} {nextFence : Bool} {pos : Nat} (hkind : wr.dest.kind = p.kind)
    (henc : wr.Encodable mem) (hunits : wr.units mem < 256)
    (hsize : 16 * wr.units mem ≤ p.buf.ring.size)
    (h : Written p.buf mem (pos % 65536 * 64)
      (v.write 0 (wr.entry (p.cfg nextFence) mem (pos % 65536) (wr.units mem))) mem') :
    p.Holds mem' ⟨pos, wr.blocks mem, wr.view (p.cfg nextFence) mem (pos % 65536)⟩ := by
  have hpost : pos % 65536 < 65536 := Nat.mod_lt _ (by decide)
  have haddr : ∀ i, p.buf.ring.addr (pos * 64 + i) = p.buf.ring.addr (pos % 65536 * 64 + i) :=
    fun i => Frags.addr_congr (Nat.ModEq.add_right i (curPost_mul p.buf pos).symm)
  obtain ⟨pad, hpad, hread⟩ := h.read_eq hsize
  constructor
  case view =>
    simp only [SqParams.device, haddr, ← hkind]
    exact fetch_entry henc hpost hunits hpad hread
  case within =>
    have hds := ds_entry hpost hunits hread
    simp only [haddr]
    rw [hds, DataWr.blocks]
    omega

theorem SqParams.Inv.post_ok (h : p.Inv st) (hlen : st.live.length < p.maxPost)
    (hgs : wr.sgList.length ≤ p.maxGs) (ha : p.Allowed st (.post wr))
    (hinl : wr.inl ∧ wr.sgList ≠ [] →
      (inlineData st.sq.mem wr.sgList).length ≤ p.maxInlineData) :
    ∃ sq, writeWqe p.buf (p.cfg st.nextFence) p.maxInlineData st.sq wr = .ok sq ∧
      p.Inv (p.posted st wr sq) ∧ ∀ a, p.buf.ring.Outside a → sq.mem a = st.sq.mem a := by
  obtain ⟨hkind, henc, hsrc⟩ := ha
  have hring := p.ring_ge_room (by omega)
  have hunits := p.units_le hkind hgs hinl
  have hroom := p.room_lt
  have hinline := p.inline_fits
  have hv := p.buf.ring.shows_self st.sq.mem (st.sq.curPost * 64)
  have hfits : wr.inl → (inlineData st.sq.mem wr.sgList).length ≤ (p.maxInlineData : Int) := by
    intro hwr
    by_cases hnil : wr.sgList = []
    · rw [hnil]
      exact Int.natCast_nonneg p.maxInlineData
    · have := hinl ⟨hwr, hnil⟩
      omega
  obtain ⟨sq, hok, hedge, hcur, hwritten⟩ :=
    writeWqe_ok h.edge hv (by omega) hfits hsrc (by omega) (by omega)
  refine ⟨sq, hok, ?_, hwritten.outside⟩
  have hunits_eq := units_eq st.sq.mem wr
  constructor
  case edge => exact hedge
  case curPost =>
    dsimp only [SqParams.posted]
    rw [hcur, h.curPost]
    omega
  case length =>
    rw [SqParams.posted, List.length_append, List.length_singleton]
    exact hlen
  case laid =>
    refine h.laid.append _ ?_ ?_ <;>
    · rw [DataWr.blocks]
      omega
  case holds =>
    intro e he
    rcases List.mem_append.mp he with he | he
    · refine h.holds_of_written hlen hwritten hv (fun i hi => ?_) e he
      have hlength := entry_length (p.cfg st.nextFence) st.sq.mem st.sq.curPost (wr.units st.sq.mem) wr
      exact Mem.write_of_outside (by omega)
    · obtain rfl := List.mem_singleton.mp he
      rw [h.curPost] at hwritten ⊢
      exact SqParams.holds_new hkind henc (by omega) (by omega) hwritten

/-- What a request does to the queue. -/
inductive SqParams.PostCase (p : SqParams) (st : SqRun) (wr : DataWr) : Prop
  | /-- It is refused before anything is written. -/
    unwritten (hcheck : p.maxGs < wr.sgList.length ∨ p.maxPost ≤ st.live.length)
      (hpost : p.post st wr = st)
  | /-- It is refused with a part of its entry written. -/
    torn (mem : Mem) (hgs : wr.sgList.length ≤ p.maxGs) (hlen : st.live.length < p.maxPost)
      (hinl : wr.inl ∧ wr.sgList ≠ [])
      (hbig : p.maxInlineData < (inlineData st.sq.mem wr.sgList).length)
      (hpost : p.post st wr = { st with sq := { st.sq with mem } })
      (hout : ∀ a, p.buf.ring.Outside a → mem a = st.sq.mem a)
  | taken (sq : SqMem) (hgs : wr.sgList.length ≤ p.maxGs) (hlen : st.live.length < p.maxPost)
      (hinl : wr.inl ∧ wr.sgList ≠ [] → (inlineData st.sq.mem wr.sgList).length ≤ p.maxInlineData)
      (hpost : p.post st wr = p.posted st wr sq)
      (hout : ∀ a, p.buf.ring.Outside a → sq.mem a = st.sq.mem a)

theorem SqParams.Inv.post (h : p.Inv st) (ha : p.Allowed st (.post wr)) :
    p.PostCase st wr ∧ p.Inv (p.post st wr) := by
  by_cases hgs : p.maxGs < wr.sgList.length
  · have hpost : p.post st wr = st := if_pos hgs
    exact ⟨.unwritten (.inl hgs) hpost, hpost.symm ▸ h⟩
  by_cases hlen : p.maxPost ≤ st.live.length
  · have hpost : p.post st wr = st := by rw [SqParams.post, if_neg hgs, if_pos hlen]
    exact ⟨.unwritten (.inr hlen) hpost, hpost.symm ▸ h⟩
  have hgs' := Nat.le_of_not_lt hgs
  have hlen' := Nat.lt_of_not_le hlen
  by_cases hbig : (wr.inl ∧ wr.sgList ≠ []) ∧
      p.maxInlineData < (inlineData st.sq.mem wr.sgList).length
  · obtain ⟨mem, herr, hinv, hout⟩ := h.post_error hlen' ha hbig.1 hbig.2
    have hpost : p.post st wr = { st with sq := { st.sq with mem } } := by
      rw [SqParams.post, if_neg hgs, if_neg hlen, herr]
    exact ⟨.torn mem hgs' hlen' hbig.1 hbig.2 hpost hout, hpost ▸ hinv⟩
  · have hinl := fun hwr => Nat.le_of_not_lt fun hlt => hbig ⟨hwr, hlt⟩
    obtain ⟨sq, hok, hinv, hout⟩ := h.post_ok hlen' hgs' ha hinl
    have hpost : p.post st wr = p.posted st wr sq := by
      rw [SqParams.post, if_neg hgs, if_neg hlen, hok]
    exact ⟨.taken sq hgs' hlen' hinl hpost hout, hpost ▸ hinv⟩

theorem SqParams.Inv.step (h : p.Inv st) {ev : SqEvent} (ha : p.Allowed st ev)
    (hstep : p.step st ev = some st') : p.Inv st' := by
  cases ev with
  | post wr =>
    cases hstep
    exact (h.post ha).2
  | retire =>
    cases hlive : st.live with
    | nil => simp [SqParams.step, hlive] at hstep
    | cons first live =>
      simp only [SqParams.step, hlive, Option.some.injEq] at hstep
      subst hstep
      have hlaid := h.laid
      have hlength := h.length
      rw [hlive] at hlaid hlength
      exact { h with
        length := Nat.le_of_succ_le hlength
        laid := hlaid.2.2.2
        holds := fun e he => h.holds e (hlive ▸ List.mem_cons_of_mem first he) }
  | store addr b =>
    cases hstep
    refine { h with edge := { h.edge with }, holds := fun e he => ?_ }
    refine (h.holds e he).congr (h.laid.of_mem he).1 fun i _ => ?_
    have hne := ha _ (Nat.mod_lt (e.pos * 64 + i) p.buf.ring.size_pos)
    exact Mem.write_of_outside (by
      change addr ≠ p.buf.ring.addr (e.pos * 64 + i) at hne
      simp only [List.length_singleton]
      omega)

theorem SqParams.Inv.of_run {evs : List SqEvent} {nextFence : Bool}
    (h : Run.Guarded p.step p.Allowed (p.init mem nextFence) evs) :
    Run.Always p.step p.Inv (p.init mem nextFence) evs :=
  Run.always_of_guarded (fun _ _ _ hI hC hstep => SqParams.Inv.step hI hC hstep)
    (SqParams.Inv.init p mem nextFence) h

/-! ## Send queues that have been created -/

/-- A queue pair that has been created, with the buffer of its send queue. A request has `room`
    blocks, which leave some place behind the header. -/
structure CreatedSq (kind : QpKind) where
  qp : IbQp
  buf : SqBuf
  qpn : BitVec 24
  signalAll : Bool
  room : Nat
  sized : Sized kind qp (64 * (room : Int))
  cnt : qp.wqeCnt = 2 ^ buf.logSz
  header_fits : kind.sqOverhead + inlineSeg ≤ 64 * (room : Int)
  room_lt : room < 64

/-- Creation counts at least the header that a request has. -/
theorem QpKind.header_le_sqOverhead (kind : QpKind) : (kind.header : Int) ≤ kind.sqOverhead := by
  cases kind <;> decide

namespace CreatedSq

variable {kind : QpKind} (d : CreatedSq kind)

theorem maxGs_nonneg : 0 ≤ d.qp.maxGs := by
  have hfits := d.header_fits
  have hlt := d.room_lt
  rw [d.sized.gs]
  cases kind <;>
    simp only [QpKind.getSendSge, QpKind.sqOverhead, wrapInt, ctrlSeg, datagramSeg, raddrSeg, atomicSeg,
      umrCtrlSeg, mkeySeg, umrInlineThreshold, umrOctoword, dataSeg, inlineSeg] at hfits ⊢ <;>
    omega

theorem maxInlineData_bounds : 0 ≤ d.qp.maxInlineData ∧ d.qp.maxInlineData < 4096 := by
  have hfits := d.header_fits
  have hheader := kind.header_le_sqOverhead
  have hlt := d.room_lt
  rw [d.sized.inl]
  rw [inlineSeg] at hfits ⊢
  omega

theorem posts_fit : d.qp.maxPost * d.room ≤ 2 ^ d.buf.logSz := by
  have hfits := d.sized.room
  rw [Int.mul_left_comm, Int.mul_comm (d.qp.wqeCnt : Int)] at hfits
  rw [← d.cnt]
  exact Int.ofNat_le.mp (Int.le_of_mul_le_mul_left hfits (by decide))

theorem ptrs_fit : kind.header + 16 * d.qp.maxGs.toNat ≤ 64 * d.room := by
  have hnonneg := d.maxGs_nonneg
  have hfit := d.sized.pointers_fit (n := d.qp.maxGs.toNat) (by omega)
  omega

theorem inline_fits : kind.header + 4 + d.qp.maxInlineData.toNat ≤ 64 * d.room := by
  have hnonneg := d.maxInlineData_bounds.1
  have hheader := kind.header_le_sqOverhead
  have hinl := d.sized.inl
  rw [inlineSeg] at hinl
  omega

def params : SqParams where
  buf := d.buf
  kind
  qpn := d.qpn
  signalAll := d.signalAll
  maxPost := d.qp.maxPost
  maxGs := d.qp.maxGs.toNat
  maxInlineData := d.qp.maxInlineData.toNat
  room := d.room
  posts_fit := d.posts_fit
  ptrs_fit := d.ptrs_fit
  inline_fits := d.inline_fits
  room_lt := d.room_lt

end CreatedSq

theorem QpKind.calcSendWqe_le {kind : QpKind} {dev : DevCaps} {attr : InitAttr} {qp : IbQp}
    (h : kind.calcSqSize dev attr = .ok qp) (hpost : 0 < qp.maxPost) :
    kind.calcSendWqe attr ≤ dev.maxWqeSzSq := by
  unfold calcSqSize at h
  dsimp only at h
  split at h
  · cases h
    exact absurd hpost (Nat.lt_irrefl 0)
  split at h
  · cases h
  split at h
  · cases h
  · rename_i hle
    exact Int.not_lt.mp hle

/-- A queue pair that `calc_sq_size` has sized with room for the header, on a device whose
    requests are below 4096 bytes. -/
def CreatedSq.ofCreate {kind : QpKind} {dev : DevCaps} {attr : InitAttr} {qp : IbQp}
    (h : kind.calcSqSize dev attr = .ok qp) (hpost : 0 < qp.maxPost) (hdev : dev.maxWqeSzSq < 4096)
    (hwqe : kind.sqOverhead + inlineSeg ≤ kind.calcSendWqe attr) (buf : SqBuf)
    (hcnt : qp.wqeCnt = 2 ^ buf.logSz) (qpn : BitVec 24) (signalAll : Bool) : CreatedSq kind where
  qp
  buf
  qpn
  signalAll
  room := (kind.calcSendWqe attr).toNat / 64
  sized := by
    have hsized := (QpKind.calcSqSize_sized h hpost).1
    have hpos := hsized.pos
    have haligned := hsized.aligned
    have hroom : (64 : Int) * ((kind.calcSendWqe attr).toNat / 64 : Nat) = kind.calcSendWqe attr := by
      omega
    rw [hroom]
    exact hsized
  cnt := hcnt
  header_fits := by
    have haligned := (QpKind.calcSqSize_sized h hpost).1.aligned
    have hpos := (QpKind.calcSqSize_sized h hpost).1.pos
    omega
  room_lt := by
    have hle := QpKind.calcSendWqe_le h hpost
    omega

example (kind : QpKind) :
    kind.sqOverhead + inlineSeg ≤ kind.calcSendWqe ⟨128, 1, 0, false, false⟩ := by
  cases kind <;> decide +kernel

/-! ## Posting on a DC queue pair -/

section DcQp

abbrev DcSq : Type := CreatedSq .dc

variable {qp : IbQp}

/-! The sizes of `postSend` are those of the entries. -/

def DataOp.toOpcode : DataOp → Opcode
  | .rdmaRead => .rdmaRead
  | .rdmaWrite => .rdmaWrite
  | .rdmaWriteWithImm => .rdmaWriteWithImm
  | .send => .send
  | .sendWithImm => .sendWithImm
  | .sendWithInv => .sendWithInv

/-- What the size of an entry depends on. -/
def DataWr.toSendWr (wr : DataWr) (av : Av) : SendWr where
  opcode := wr.op.toOpcode
  sgList := wr.sgList.map WrSge.length
  sendInline := wr.inl
  sigPipelined := false
  grh := av.hasGrh

theorem totalLength_map (m : Mem) (sgs : List WrSge) :
    totalLength (sgs.map WrSge.length) = (inlineData m sgs).length := by
  induction sgs with
  | nil => rfl
  | cons sge sgs ih =>
    rw [List.map_cons, totalLength, ih, inlineData_cons, List.length_append, Mem.read_length]

theorem inlineBytes_eq_none {limit : Int} {lens : List UInt32} {inl : Int} (hinl : 0 ≤ inl)
    (htotal : inl + totalLength lens < 2147483648) (hle : inl ≤ limit)
    (h : limit < inl + totalLength lens) : inlineBytes limit inl lens = none := by
  induction lens generalizing inl with
  | nil =>
    rw [totalLength] at h
    omega
  | cons len lens ih =>
    rw [totalLength] at h htotal
    rw [inlineBytes, wrapInt_of_bounds (by omega) (by omega)]
    by_cases hstop : limit < inl + len.toNat
    · exact if_pos hstop
    · rw [if_neg hstop]
      exact ih (by omega) (by omega) (by omega) (by omega)

theorem ptrSegs_length_eq (sgs : List WrSge) :
    (sgs.flatMap WrSge.ptrSeg).length = 16 * (sgs.map WrSge.length).countP (· ≠ 0) := by
  induction sgs with
  | nil => rfl
  | cons sge sgs ih =>
    rw [List.flatMap_cons, List.length_append, ih, List.map_cons, List.countP_cons]
    by_cases hzero : sge.length = 0
    · simp [WrSge.ptrSeg, hzero]
    · simp [WrSge.ptrSeg, hzero]
      omega

theorem postData_units {av : Av} {m : Mem} {size : Int} (hsize : 0 ≤ size) (hsmall : size ≤ 5)
    (hmax : qp.maxInlineData < 2147483564)
    (hinl : wr.inl ∧ wr.sgList ≠ [] → (inlineData m wr.sgList).length ≤ qp.maxInlineData) :
    postData qp (wr.toSendWr av) size =
      ⟨[size + (((wr.dataSegs m).length + 15) / 16 : Nat)], none⟩ := by
  have htotal : totalLength (wr.toSendWr av).sgList = (inlineData m wr.sgList).length :=
    totalLength_map m wr.sgList
  have hnil : (wr.toSendWr av).sgList ≠ [] ↔ wr.sgList ≠ [] := by simp [DataWr.toSendWr]
  rw [postData, DataWr.dataSegs]
  by_cases h : wr.inl ∧ wr.sgList ≠ []
  · have hfits := hinl h
    have hbytes : inlineBytes qp.maxInlineData 0 (wr.toSendWr av).sgList =
        some ((0 : Int) + totalLength (wr.toSendWr av).sgList) :=
      inlineBytes_eq (by omega) (Int.le_refl 0) (by omega)
    have hseg : (inlineSegBytes (inlineData m wr.sgList)).length =
        4 + (inlineData m wr.sgList).length := by simp [inlineSegBytes]
    rw [if_pos ⟨h.1, hnil.mpr h.2⟩, if_pos h, setDataInlSeg, hbytes, htotal, hseg, Option.map_some,
      inlineSeg, align, wrapInt_of_bounds (by omega) (by omega)]
    refine congrArg (fun full => Posted.mk [full] none) ?_
    omega
  · rw [if_neg fun h' => h ⟨h'.1, hnil.mp h'.2⟩, if_neg h, ptrSegs_length_eq]
    simp only [dataSeg, DataWr.toSendWr]
    congr 2
    omega

theorem postData_refuses {av : Av} {m : Mem} {size : Int} (hinl : wr.inl ∧ wr.sgList ≠ [])
    (hmax : 0 ≤ qp.maxInlineData) (htotal : (inlineData m wr.sgList).length < 2147483648)
    (hbig : qp.maxInlineData < (inlineData m wr.sgList).length) :
    postData qp (wr.toSendWr av) size = .refused .enomem := by
  have hlen := totalLength_map m wr.sgList
  have hbytes : inlineBytes qp.maxInlineData 0 (wr.toSendWr av).sgList = none :=
    inlineBytes_eq_none (Int.le_refl 0)
      (show 0 + (totalLength (wr.sgList.map WrSge.length) : Int) < 2147483648 by omega) hmax
      (show qp.maxInlineData < 0 + (totalLength (wr.sgList.map WrSge.length) : Int) by omega)
  have hlist : (wr.toSendWr av).sendInline ∧ (wr.toSendWr av).sgList ≠ [] :=
    ⟨hinl.1, by simpa [DataWr.toSendWr] using hinl.2⟩
  rw [postData, if_pos hlist, setDataInlSeg, hbytes]
  rfl

theorem wqeBlocks_units (n : Nat) : wqeBlocks n = (n + 3) / 4 := by
  simp only [wqeBlocks, sendWqeBb]
  omega

theorem postSend_gs {cur : Nat} {req : SendWr} (h : qp.maxGs < req.sgList.length) :
    ∃ e, postSend qp cur req = .refused e := by
  rw [postSend, if_pos h, ite_self]
  exact ⟨_, rfl⟩

theorem postSend_full {cur : Nat} {req : SendWr} (h : qp.maxPost ≤ cur) :
    ∃ e, postSend qp cur req = .refused e :=
  (postSend_cases qp cur req).resolve_right fun hroom => Nat.not_le_of_lt hroom.1 h

section Request

variable {av : Av} {dctNumber : UInt32} {dctAccessKey : UInt64} {cur : Nat}

/-- The header of an entry, in units of 16 bytes. -/
def DataWr.headerUnits (wr : DataWr) : Nat := 1 + wr.avSeg.length / 16 + wr.raddrSeg.length / 16

theorem headerUnits_eq (hdest : wr.dest = .dc av dctNumber dctAccessKey) :
    (wr.headerUnits : Int) =
      ctrlSeg / 16 + xsetDciSeg av.hasGrh / 16 + if wr.op.isRdma then raddrSeg / 16 else 0 := by
  have hav : wr.avSeg.length = if av.hasGrh then 48 else 16 := by
    rw [DataWr.avSeg, hdest]
    cases hgrh : av.hasGrh <;> simp [hgrh, lidPart_length, grhPart_length]
  have hraddr : wr.raddrSeg.length = if wr.op.isRdma then 16 else 0 := by
    rw [raddrSeg_eq, hdest]
    cases wr.op.isRdma <;> simp [WrDest.kind]
  rw [DataWr.headerUnits, hav, hraddr]
  cases av.hasGrh <;> cases wr.op.isRdma <;> rfl

theorem postOpcode_toSendWr (qp : IbQp) (wr : DataWr) (av : Av) :
    postOpcode qp (wr.toSendWr av) = postData qp (wr.toSendWr av)
      (ctrlSeg / 16 + xsetDciSeg av.hasGrh / 16 + if wr.op.isRdma then raddrSeg / 16 else 0) := by
  cases hop : wr.op <;> simp [postOpcode, DataWr.toSendWr, DataOp.toOpcode, DataOp.isRdma, hop]

theorem postSend_toSendWr (hdest : wr.dest = .dc av dctNumber dctAccessKey)
    (hgs : wr.sgList.length ≤ qp.maxGs) (hcur : cur < qp.maxPost) :
    postSend qp cur (wr.toSendWr av) = postData qp (wr.toSendWr av) wr.headerUnits := by
  have hknown : (wr.toSendWr av).opcode.known := by
    cases hop : wr.op <;> simp [DataWr.toSendWr, DataOp.toOpcode, Opcode.known, hop]
  have hlen : ¬qp.maxGs < (wr.toSendWr av).sgList.length := by
    simpa [DataWr.toSendWr] using hgs
  have hsig : ¬((wr.toSendWr av).opcode.isSend ∧ (wr.toSendWr av).sigPipelined ∧ ¬qp.drainSigerr) := by
    simp [DataWr.toSendWr]
  rw [postSend, if_neg (not_not_intro hknown), if_neg hlen, if_neg (Nat.not_le_of_lt hcur),
    if_neg hsig, postOpcode_toSendWr, headerUnits_eq hdest]

/-- A request that keeps to the limits takes the blocks of its entry. -/
theorem postSend_accepts {m : Mem} (hdest : wr.dest = .dc av dctNumber dctAccessKey)
    (hgs : wr.sgList.length ≤ qp.maxGs) (hcur : cur < qp.maxPost)
    (hmax : qp.maxInlineData < 2147483564)
    (hinl : wr.inl ∧ wr.sgList ≠ [] → (inlineData m wr.sgList).length ≤ qp.maxInlineData) :
    postSend qp cur (wr.toSendWr av) = ⟨[(wr.units m : Int)], none⟩ := by
  have hav := (avSeg_length wr).2
  have hraddr := raddrSeg_length wr
  have hheader : (wr.headerUnits : Int) ≤ 5 := by
    rw [DataWr.headerUnits]
    omega
  rw [postSend_toSendWr hdest hgs hcur, postData_units (Int.natCast_nonneg _) hheader hmax hinl,
    DataWr.units, DataWr.headerUnits]
  rfl

end Request

/-- What a request does, by the count of its units. -/
structure DcSq.PostExact (d : DcSq) (st : SqRun) (wr : DataWr) (posted : Posted) : Prop where
  pos_eq : (d.params.post st wr).pos = st.pos + requestBlocks posted.finished
  curPost_eq : (d.params.post st wr).sq.curPost =
    (st.sq.curPost + requestBlocks posted.finished) % 65536
  kept : ∀ e ∈ st.live, d.params.device (d.params.post st wr).sq.mem e.pos = e.view
  outside : ∀ a, d.buf.ring.Outside a → (d.params.post st wr).sq.mem a = st.sq.mem a
  read : posted.err = none → d.params.device (d.params.post st wr).sq.mem st.pos =
    wr.view (d.params.cfg st.nextFence) st.sq.mem (st.pos % 65536)
  refused : posted.err ≠ none →
    (d.params.post st wr).live = st.live ∧ (d.params.post st wr).sq.curPost = st.sq.curPost

theorem DcSq.postExact_of_refused {d : DcSq} {posted : Posted} {mem : Mem} {e : Errno}
    (h : d.params.Inv (d.params.post st wr)) (hposted : posted = .refused e)
    (hpost : d.params.post st wr = { st with sq := { st.sq with mem } })
    (hout : ∀ a, d.buf.ring.Outside a → mem a = st.sq.mem a) : d.PostExact st wr posted := by
  subst hposted
  rw [hpost] at h
  constructor <;> rw [hpost]
  case pos_eq => rfl
  case curPost_eq =>
    have hcur : st.sq.curPost = st.pos % 65536 := h.curPost
    change st.sq.curPost = st.sq.curPost % 65536
    omega
  case kept => exact fun e he => (h.holds e he).view
  case outside => exact hout
  case read => exact fun herr => nomatch herr
  case refused => exact fun _ => ⟨rfl, rfl⟩

/-! A queue of four blocks in fragments of two, which starts in the middle of the first one, and
    requests that go around its end. -/

def sampleBuf : SqBuf where
  frags f := 256 * (f + 1)
  logFragStrides := 1
  logSz := 2
  stridesOffset := 1
  aligned f := by omega
  apart f g h := by omega
  logSz_le := Nat.le_add_left 2 14

def sampleAttr : InitAttr := ⟨2, 1, 0, false, false⟩

def sampleQp : IbQp := ⟨3, 44, 4, 2, false, false⟩

theorem sampleQp_created : calcSqSize ⟨1024, 15⟩ sampleAttr = .ok sampleQp := by decide +kernel

theorem sampleAttr_room : QpKind.sqOverhead .dc + inlineSeg ≤ calcSendWqe sampleAttr := by
  decide +kernel

def sampleDc : DcSq :=
  CreatedSq.ofCreate sampleQp_created Nat.two_pos (Nat.lt_of_sub_pos (Nat.succ_pos 3071))
    sampleAttr_room sampleBuf rfl 77 true

def sampleAv : Av := createIbAh ⟨none, 1, 0, .ib 19 0⟩

def samplePtr : DataWr :=
  ⟨.rdmaRead, 0, true, false, false, false, .dc sampleAv 53 1234, 8192, 11, [⟨65536, 64, 5⟩]⟩

def sampleInline : DataWr :=
  ⟨.rdmaWrite, 0, true, false, false, true, .dc sampleAv 53 1234, 8192, 11, [⟨65536, 30, 5⟩]⟩

def sampleEvents : List SqEvent :=
  [.post samplePtr, .post sampleInline, .retire, .store 65540 7, .post sampleInline]

theorem sampleBuf_outside {a : Nat} (h : 1024 ≤ a) : sampleBuf.ring.Outside a := by
  intro i hi
  have hloc : sampleBuf.ring.loc i = 256 * ((i / 64 + 1) / 2 + 1) + (i / 64 + 1) % 2 * 64 + i % 64 :=
    congrArg (· + i % 64) (sampleBuf.getWqe_eq (i / 64))
  rw [SqBuf.ring_size] at hi
  change i < 256 at hi
  rw [hloc]
  omega

theorem samplePtr_allowed (st : SqRun) : sampleDc.params.Allowed st (.post samplePtr) where
  left := rfl
  right := by
    refine ⟨⟨⟨by decide, createIbAh_hasGrh _⟩, by decide, fun h => ?_⟩, fun h => ?_⟩
    · exact absurd h (by decide)
    · exact absurd h (by decide)

theorem sampleInline_allowed (st : SqRun) : sampleDc.params.Allowed st (.post sampleInline) where
  left := rfl
  right := by
    refine ⟨⟨⟨by decide, createIbAh_hasGrh _⟩, by decide, fun _ => ?_⟩, fun _ sge hsge j hj => ?_⟩
    · simp [sampleInline, inlineData]
    · obtain rfl := List.mem_singleton.mp hsge
      exact sampleBuf_outside (Nat.le_add_right_of_le (by decide))

theorem sampleEvents_allowed : ∀ ev ∈ sampleEvents, ∀ st, sampleDc.params.Allowed st ev := by
  intro ev hev st
  simp only [sampleEvents, List.mem_cons, List.not_mem_nil, or_false] at hev
  rcases hev with rfl | rfl | rfl | rfl | rfl
  · exact samplePtr_allowed st
  · exact sampleInline_allowed st
  · trivial
  · exact sampleBuf_outside (by decide)
  · exact sampleInline_allowed st

/-! ## What runs guarantee -/

/-- At any time the device reads every request that is not retired as it was posted. -/
theorem send_ring_intact (p : SqParams) (mem : Mem) (nextFence : Bool) (evs : List SqEvent)
    (h : Run.Guarded p.step p.Allowed (p.init mem nextFence) evs) :
    Run.Always p.step (fun st => ∀ e ∈ st.live, p.device st.sq.mem e.pos = e.view)
      (p.init mem nextFence) evs := by
  intro pre st hpre hrun e he
  exact ((SqParams.Inv.of_run h pre st hpre hrun).holds e he).view

/-- Three requests, two of them live: the second goes over an edge, and the third around the end. -/
theorem send_ring_intact_around :
    ∃ st, Run.exec sampleDc.params.step (sampleDc.params.init (fun _ => 0) false) sampleEvents =
        some st ∧ st.live.map LiveWqe.pos = [1, 3] ∧
      ∀ e ∈ st.live, sampleDc.params.device st.sq.mem e.pos = e.view :=
  ⟨_, rfl, by decide +kernel, send_ring_intact sampleDc.params (fun _ => 0) false sampleEvents
    (Run.guarded_of_forall sampleEvents_allowed) sampleEvents _ List.prefix_rfl rfl⟩

/-- A queue pair takes the requests that the count of their units lets in, and no others: in every
    state of a run a request that is taken moves the queue on by that count, is what the device then
    reads at its place, and one that is refused leaves the queue where it was. The entries that are
    not retired and the memory around the queue stay as they are. -/
theorem dc_post_exact (d : DcSq) (mem : Mem) (nextFence : Bool) (evs : List SqEvent)
    (h : Run.Guarded d.params.step d.params.Allowed (d.params.init mem nextFence) evs) :
    Run.Always d.params.step (fun st => ∀ wr av dctNumber dctAccessKey,
        wr.dest = .dc av dctNumber dctAccessKey → d.params.Allowed st (.post wr) →
          d.PostExact st wr (postSend d.qp st.live.length (wr.toSendWr av)))
      (d.params.init mem nextFence) evs := by
  intro pre st hpre hrun wr av dctNumber dctAccessKey hdest ha
  have hinv := SqParams.Inv.of_run h pre st hpre hrun
  obtain ⟨hcase, hinv'⟩ := hinv.post ha
  have hnonneg := d.maxGs_nonneg
  obtain ⟨hinl_nonneg, hinl_lt⟩ := d.maxInlineData_bounds
  have hgs_eq : (d.params.maxGs : Int) = d.qp.maxGs := Int.toNat_of_nonneg hnonneg
  have hinl_eq : (d.params.maxInlineData : Int) = d.qp.maxInlineData := Int.toNat_of_nonneg hinl_nonneg
  cases hcase with
  | unwritten hcheck hpost =>
    obtain ⟨e, he⟩ : ∃ e, postSend d.qp st.live.length (wr.toSendWr av) = .refused e := by
      rcases hcheck with hgs | hlen
      · exact postSend_gs (by simp only [DataWr.toSendWr, List.length_map]; omega)
      · exact postSend_full hlen
    exact DcSq.postExact_of_refused hinv' he hpost fun _ _ => rfl
  | torn mem' hgs hlen hinl hbig hpost hout =>
    have hrefused := postSend_toSendWr hdest (by omega) (show _ < d.qp.maxPost from hlen)
    rw [postData_refuses hinl hinl_nonneg (ha.2.1.inline hinl.1) (by omega)] at hrefused
    exact DcSq.postExact_of_refused hinv' hrefused hpost hout
  | taken sq hgs hlen hinl hpost hout =>
    have hposted := postSend_accepts (m := st.sq.mem) hdest (by omega)
      (show _ < d.qp.maxPost from hlen) (by omega) fun hwr => by have := hinl hwr; omega
    rw [hposted]
    rw [hpost] at hinv'
    have hblocks : requestBlocks [(wr.units st.sq.mem : Int)] = wr.blocks st.sq.mem :=
      wqeBlocks_units (wr.units st.sq.mem)
    constructor <;> rw [hpost]
    case pos_eq => rw [hblocks]; rfl
    case curPost_eq =>
      rw [hinv'.curPost, hinv.curPost, hblocks, Nat.mod_add_mod]
      rfl
    case kept => exact fun e he => (hinv'.holds e (List.mem_append_left _ he)).view
    case outside => exact hout
    case read =>
      rw [← hinv.curPost]
      exact fun _ => (hinv'.holds _ (List.mem_append_right _ List.mem_cons_self)).view
    case refused => exact fun herr => absurd rfl herr

/-- The first request is taken, and one that finds two others is refused. -/
theorem dc_post_exact_around :
    let st := sampleDc.params.init (fun _ => 0) false
    sampleDc.params.Allowed st (.post sampleInline) ∧
      sampleDc.PostExact st sampleInline (postSend sampleQp 0 (sampleInline.toSendWr sampleAv)) ∧
      (postSend sampleQp 0 (sampleInline.toSendWr sampleAv)).finished = [6] ∧
      ∃ st', Run.exec sampleDc.params.step st sampleEvents = some st' ∧
        sampleDc.PostExact st' samplePtr (postSend sampleQp 2 (samplePtr.toSendWr sampleAv)) ∧
        (postSend sampleQp 2 (samplePtr.toSendWr sampleAv)).err = some .enomem :=
  have always := dc_post_exact sampleDc (fun _ => 0) false sampleEvents
    (Run.guarded_of_forall sampleEvents_allowed)
  ⟨sampleInline_allowed _, always [] _ List.nil_prefix rfl _ _ 53 1234 rfl (sampleInline_allowed _),
    by decide +kernel, _, rfl,
    always sampleEvents _ List.prefix_rfl rfl _ _ 53 1234 rfl (samplePtr_allowed _), by decide +kernel⟩

end DcQp

end Driver
