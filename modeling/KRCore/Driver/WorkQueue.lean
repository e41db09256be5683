-- SUMMARY: The send and receive queues of an mlx5 queue pair: posting, polling and flushing, against the history of the queue.
import Mathlib.Data.Nat.Bitwise
import Mathlib.Logic.Function.Basic
import KRCore.Base.BlockRing

/-!
# Work queues

A work queue is a set of counters and tables. The send queue writes the entries of
its requests back to back into blocks, and the tables are indexed by the first
block; the receive queue has an entry for each request. A completion names the
first block of a send request, and retires it together with all older ones. The
driver keeps two cursors for that: `tail`, which counts requests, and `last_poll`,
which stands on a block and moves along `w_list`.

What a queue is for is said by its history since it was reset: which requests it
took, which of them the device has finished, and which completions are not polled.
-/

namespace Driver

open BlockRing (Marks total)

/-! ## The queues of the driver -/

/-- `mlx5_ib_wq`. `head` and `tail` are `unsigned`, `cur_post` and `last_poll` have 16 bits, and
    `next` is that of `w_list`. -/
structure Wq where
  wqeCnt : Nat
  maxPost : Nat
  head : Nat
  tail : Nat
  curPost : Nat
  lastPoll : Nat
  wrid : Nat → Nat
  wqeHead : Nat → Nat
  next : Nat → Nat

def Wq.init (wqeCnt maxPost : Nat) : Wq where
  wqeCnt
  maxPost
  head := 0
  tail := 0
  curPost := 0
  lastPoll := 0
  wrid := fun _ => 0
  wqeHead := fun _ => 0
  next := fun _ => 0

/-- The counters when the queue pair moves to RESET. -/
def Wq.reset (wq : Wq) : Wq := { wq with head := 0, tail := 0, curPost := 0, lastPoll := 0 }

/-- The index of a counter value. -/
def Wq.idx (wq : Wq) (i : Nat) : Nat := i &&& (wq.wqeCnt - 1)

def Wq.cur (wq : Wq) : Nat := (wq.head + (4294967296 - wq.tail)) % 4294967296

/-- `mlx5_wq_overflow`, for a call that has taken `nreq` requests. -/
def Wq.overflow (wq : Wq) (nreq : Nat) : Bool := !decide (wq.cur + nreq < wq.maxPost)

/-- A send request whose entry has been built, with the blocks that it takes. -/
structure SendWqe where
  wrId : Nat
  signaled : Bool
  blocks : Nat
  blocks_pos : 0 < blocks

/-- The tables and the counter as `finish_wqe` leaves them. -/
def Wq.finishWqe (sq : Wq) (w : SendWqe) (nreq : Nat) : Wq :=
  let idx := sq.idx sq.curPost
  let curPost := (sq.curPost + w.blocks) % 65536
  { sq with
    wrid := Function.update sq.wrid idx w.wrId
    wqeHead := Function.update sq.wqeHead idx ((sq.head + nreq) % 4294967296)
    next := Function.update sq.next idx curPost
    curPost }

/-- The receive queue after a request has been written at `ind`. -/
def Wq.writeRecv (rq : Wq) (ind wrId : Nat) : Wq :=
  { rq with wrid := Function.update rq.wrid ind wrId }

/-- The end of a call that took `nreq` requests. -/
def Wq.advance (wq : Wq) (nreq : Nat) : Wq := { wq with head := (wq.head + nreq) % 4294967296 }

/-- The loop of `handle_atomics`, which has no bound: from `tail` along `w_list` to the entry
    at `head`, and over that. -/
def Wq.handleAtomics (sq : Wq) : Nat → Nat → Nat → Option Nat
  | 0, _, _ => none
  | fuel + 1, tail, head =>
    if sq.idx tail = head then some (sq.next (sq.idx tail))
    else sq.handleAtomics fuel (sq.next (sq.idx tail)) head

/-- The counters once the request at `idx` and the older ones are retired. -/
def Wq.retire (sq : Wq) (idx lastPoll : Nat) : Wq :=
  { sq with tail := (sq.wqeHead idx + 1) % 4294967296, lastPoll }

/-- A completion of a send request is polled. An error leaves `last_poll` where it is. -/
def Wq.pollSend (sq : Wq) (wqeCounter : Nat) (ok : Bool) : Option (Nat × Wq) :=
  let idx := sq.idx wqeCounter
  if ok then
    (sq.handleAtomics sq.wqeCnt sq.lastPoll idx).map fun lastPoll =>
      (sq.wrid idx, sq.retire idx lastPoll)
  else some (sq.wrid idx, sq.retire idx sq.lastPoll)

/-- A completion of a receive request is polled. -/
def Wq.pollRecv (rq : Wq) : Nat × Wq :=
  (rq.wrid (rq.idx rq.tail), { rq with tail := (rq.tail + 1) % 4294967296 })

/-- The loop of `sw_comp`: completions that the driver makes up when the device is gone. -/
def Wq.swCompLoop (wq : Wq) (isSend : Bool) : Nat → List Nat × Wq
  | 0 => ([], wq)
  | n + 1 =>
    let idx := wq.idx (if isSend then wq.lastPoll else wq.tail)
    let rest := { wq with
      tail := (wq.tail + 1) % 4294967296
      lastPoll := if isSend then wq.next idx else wq.lastPoll }.swCompLoop isSend n
    (wq.wrid idx :: rest.1, rest.2)

def Wq.swComp (wq : Wq) (isSend : Bool) (numEntries : Nat) : List Nat × Wq :=
  wq.swCompLoop isSend (min wq.cur numEntries)

/-! ## Histories -/

/-- A send queue since its reset: the requests it took, how many of them the device has
    finished, the numbers of those whose completion has not been polled with whether they
    succeeded, how many are retired, and whether the completion of an error was polled. -/
structure SendHist where
  posted : List SendWqe
  executed : Nat
  done : List (Nat × Bool)
  retired : Nat
  errPolled : Bool

def SendHist.init : SendHist := ⟨[], 0, [], 0, false⟩

/-- A request is taken while fewer than `maxPost` are not retired. -/
def SendHist.post (h : SendHist) (maxPost : Nat) (w : SendWqe) : Option SendHist :=
  if h.posted.length < h.retired + maxPost then some { h with posted := h.posted ++ [w] } else none

def SendHist.refuse (h : SendHist) (maxPost : Nat) : Option SendHist :=
  if h.posted.length < h.retired + maxPost then none else some h

/-- The device finishes the next request. Success is reported if the request is signalled, an
    error always. -/
def SendHist.execute (h : SendHist) (ok : Bool) : Option SendHist :=
  h.posted[h.executed]?.map fun w =>
    { h with
      executed := h.executed + 1
      done := if w.signaled || !ok then h.done ++ [(h.executed, ok)] else h.done }

/-- The oldest completion is polled; it carries the `wr_id` of its request. -/
def SendHist.poll (h : SendHist) (wrId : Nat) (ok : Bool) : Option SendHist :=
  match h.done with
  | [] => none
  | (i, ok') :: done =>
    if h.posted[i]?.map SendWqe.wrId = some wrId ∧ ok' = ok then
      some { h with done, retired := i + 1, errPolled := h.errPolled || !ok }
    else none

/-- A receive queue since its reset. -/
structure RecvHist where
  posted : List Nat
  consumed : Nat
  polled : Nat

def RecvHist.init : RecvHist := ⟨[], 0, 0⟩

def RecvHist.post (h : RecvHist) (maxPost wrId : Nat) : Option RecvHist :=
  if h.posted.length < h.polled + maxPost then some { h with posted := h.posted ++ [wrId] } else none

def RecvHist.refuse (h : RecvHist) (maxPost : Nat) : Option RecvHist :=
  if h.posted.length < h.polled + maxPost then none else some h

/-- The device uses the oldest request for a message. -/
def RecvHist.consume (h : RecvHist) : Option RecvHist :=
  if h.consumed < h.posted.length then some { h with consumed := h.consumed + 1 } else none

def RecvHist.poll (h : RecvHist) (wrId : Nat) : Option RecvHist :=
  if h.polled < h.consumed ∧ h.posted[h.polled]? = some wrId then
    some { h with polled := h.polled + 1 }
  else none

/-! ## Queues with room -/

/-- A queue with room for `max_post` requests of `room` entries. -/
structure Wq.Roomy (wq : Wq) (room : Nat) : Prop where
  pow : ∃ k ≤ 16, wq.wqeCnt = 2 ^ k
  pos : 0 < room
  fits : wq.maxPost * room ≤ wq.wqeCnt

section Roomy

variable {wq : Wq} {room : Nat}

theorem Wq.Roomy.dvd (hr : wq.Roomy room) : wq.wqeCnt ∣ 65536 := by
  obtain ⟨k, hk, hcnt⟩ := hr.pow
  rw [hcnt]
  exact Nat.pow_dvd_pow 2 (n := 16) hk

theorem Wq.Roomy.neZero (hr : wq.Roomy room) : NeZero wq.wqeCnt := by
  obtain ⟨k, -, hcnt⟩ := hr.pow
  exact ⟨by rw [hcnt]; exact Nat.pos_iff_ne_zero.mp (Nat.two_pow_pos k)⟩

theorem Wq.Roomy.idx_eq (hr : wq.Roomy room) (i : Nat) : wq.idx i = i % wq.wqeCnt := by
  obtain ⟨k, -, hcnt⟩ := hr.pow
  rw [Wq.idx, hcnt, Nat.and_two_pow_sub_one_eq_mod]

theorem Wq.Roomy.idx_mod (hr : wq.Roomy room) (i : Nat) : wq.idx (i % 65536) = i % wq.wqeCnt := by
  rw [hr.idx_eq, Nat.mod_mod_of_dvd _ hr.dvd]

theorem Wq.Roomy.maxPost_le (hr : wq.Roomy room) : wq.maxPost ≤ wq.wqeCnt :=
  (Nat.le_mul_of_pos_right _ hr.pos).trans hr.fits

theorem Wq.Roomy.wqeCnt_le (hr : wq.Roomy room) : wq.wqeCnt ≤ 65536 :=
  Nat.le_of_dvd (by decide) hr.dvd

/-- The counters give the number of requests that are not retired. -/
theorem Wq.Roomy.cur_eq (hr : wq.Roomy room) {n retired : Nat}
    (hhead : wq.head = n % 4294967296) (htail : wq.tail = retired % 4294967296)
    (hle : retired ≤ n) (hmax : n ≤ retired + wq.maxPost) : wq.cur = n - retired := by
  have := hr.maxPost_le
  have := hr.wqeCnt_le
  rw [Wq.cur, hhead, htail]
  omega

end Roomy

/-! ## The send queue and its history -/

def blocksOf (ws : List SendWqe) : List Nat := ws.map SendWqe.blocks

/-- The block, counted from the reset on, that the entry of a request starts at. -/
def startOf (ws : List SendWqe) (i : Nat) : Nat := total ((blocksOf ws).take i)

/-- The queue agrees with its history. `nreq` requests belong to a call that is not over. -/
structure SqInv (sq : Wq) (room nreq : Nat) (h : SendHist) : Prop where
  roomy : sq.Roomy room
  head : sq.head = (h.posted.length - nreq) % 4294967296
  tail : sq.tail = h.retired % 4294967296
  curPost : sq.curPost = total (blocksOf h.posted) % 65536
  lastPoll : h.errPolled = false → sq.lastPoll = startOf h.posted h.retired % 65536
  blocks : ∀ w ∈ h.posted, w.blocks ≤ room
  retired_le : h.retired ≤ h.executed
  executed_le : h.executed + nreq ≤ h.posted.length
  room : h.posted.length ≤ h.retired + sq.maxPost
  wrid : Marks sq.wqeCnt (blocksOf h.posted) h.retired sq.wrid
    fun i => (h.posted.map SendWqe.wrId).getD i 0
  wqeHead : Marks sq.wqeCnt (blocksOf h.posted) h.retired sq.wqeHead fun i => i % 4294967296
  next : Marks sq.wqeCnt (blocksOf h.posted) h.retired sq.next
    fun i => startOf h.posted (i + 1) % 65536
  done : ∀ d ∈ h.done, h.retired ≤ d.1 ∧ d.1 < h.executed
  sorted : h.done.Pairwise fun d d' => d.1 < d'.1 ∧ (d'.2 = true → d.2 = true)
  failed : h.errPolled = true → ∀ d ∈ h.done, d.2 = false

section Send

variable {sq sq' : Wq} {room nreq : Nat} {h h' : SendHist} {w : SendWqe}

theorem blocksOf_pos (ws : List SendWqe) : ∀ b ∈ blocksOf ws, 0 < b := by
  intro b hb
  obtain ⟨w, -, rfl⟩ := List.mem_map.mp hb
  exact w.blocks_pos

@[simp] theorem blocksOf_length (ws : List SendWqe) : (blocksOf ws).length = ws.length :=
  List.length_map _

theorem blocksOf_concat (ws : List SendWqe) (w : SendWqe) :
    blocksOf (ws ++ [w]) = blocksOf ws ++ [w.blocks] :=
  List.map_append

theorem startOf_concat {ws : List SendWqe} {i : Nat} (hi : i ≤ ws.length) (w : SendWqe) :
    startOf (ws ++ [w]) i = startOf ws i := by
  rw [startOf, blocksOf_concat, List.take_append_of_le_length (by simpa using hi), startOf]

theorem startOf_length (ws : List SendWqe) : startOf ws ws.length = total (blocksOf ws) := by
  rw [startOf, List.take_of_length_le (by simp)]

/-- The entries that are not retired leave room for the requests that may still come. -/
theorem SqInv.total_drop (hinv : SqInv sq room nreq h) :
    total ((blocksOf h.posted).drop h.retired) +
      (h.retired + sq.maxPost - h.posted.length) * room ≤ sq.wqeCnt := by
  have hbound : total ((blocksOf h.posted).drop h.retired) ≤ (h.posted.length - h.retired) * room := by
    have hle : ∀ b ∈ (blocksOf h.posted).drop h.retired, b ≤ room := by
      intro b hb
      obtain ⟨w, hw, rfl⟩ := List.mem_map.mp (List.mem_of_mem_drop hb)
      exact hinv.blocks w hw
    simpa using BlockRing.total_le hle
  have hretired := hinv.retired_le
  have hexecuted := hinv.executed_le
  have hroom := hinv.room
  have hsplit : (h.posted.length - h.retired) * room +
      (h.retired + sq.maxPost - h.posted.length) * room = sq.maxPost * room := by
    rw [← Nat.add_mul]
    congr 1
    omega
  have := hinv.roomy.fits
  omega

theorem SqInv.overflow_eq (hinv : SqInv sq room nreq h) :
    sq.overflow nreq = !decide (h.posted.length < h.retired + sq.maxPost) := by
  have hretired := hinv.retired_le
  have hexecuted := hinv.executed_le
  have hroom := hinv.room
  rw [Wq.overflow, hinv.roomy.cur_eq hinv.head hinv.tail (by omega) (by omega)]
  congr 1
  exact decide_eq_decide.mpr (by omega)

/-- A request is built and taken. -/
theorem SqInv.finishWqe (hinv : SqInv sq room nreq h) (hover : sq.overflow nreq = false)
    (hblocks : w.blocks ≤ room) :
    ∃ h', h.post sq.maxPost w = some h' ∧ SqInv (sq.finishWqe w nreq) room (nreq + 1) h' := by
  have := hinv.roomy.neZero
  have hlt : h.posted.length < h.retired + sq.maxPost := by
    rw [hinv.overflow_eq] at hover
    simpa using hover
  have hretired := hinv.retired_le
  have hexecuted := hinv.executed_le
  have hfree : total ((blocksOf h.posted).drop h.retired) < sq.wqeCnt := by
    have htotal := hinv.total_drop
    have hone : room ≤ (h.retired + sq.maxPost - h.posted.length) * room :=
      Nat.le_mul_of_pos_left room (by omega)
    have := hinv.roomy.pos
    omega
  have hidx : sq.idx sq.curPost = total (blocksOf h.posted) % sq.wqeCnt := by
    rw [hinv.curPost, hinv.roomy.idx_mod]
  have hpos := blocksOf_pos h.posted
  have hnext : (sq.curPost + w.blocks) % 65536 =
      startOf (h.posted ++ [w]) (h.posted.length + 1) % 65536 := by
    have hlen : (h.posted ++ [w]).length = h.posted.length + 1 := List.length_append
    rw [← hlen, startOf_length, blocksOf_concat, hinv.curPost, Nat.mod_add_mod]
    simp
  refine ⟨{ h with posted := h.posted ++ [w] }, if_pos hlt, ?_⟩
  constructor
  case roomy => exact ⟨hinv.roomy.pow, hinv.roomy.pos, hinv.roomy.fits⟩
  case head =>
    rw [List.length_append, List.length_singleton, Nat.add_sub_add_right]
    exact hinv.head
  case tail => exact hinv.tail
  case curPost =>
    rw [blocksOf_concat]
    simp [Wq.finishWqe, hinv.curPost]
  case lastPoll =>
    intro herr
    have hle : h.retired ≤ h.posted.length := by omega
    rw [startOf_concat hle]
    exact hinv.lastPoll herr
  case blocks =>
    intro w' hw'
    rcases List.mem_append.mp hw' with hold | hnew
    · exact hinv.blocks w' hold
    · rw [List.mem_singleton.mp hnew]
      exact hblocks
  case retired_le => exact hretired
  case executed_le =>
    rw [List.length_append, List.length_singleton]
    change h.executed + (nreq + 1) ≤ _
    omega
  case room =>
    rw [List.length_append, List.length_singleton]
    exact hlt
  case wrid =>
    rw [blocksOf_concat]
    have := hinv.wrid.push hpos hfree w.blocks
      (fun i => ((h.posted ++ [w]).map SendWqe.wrId).getD i 0) fun i hi => by
        rw [List.map_append]
        exact List.getD_append _ _ _ _ (by simpa using hi)
    simpa [Wq.finishWqe, hidx] using this
  case wqeHead =>
    rw [blocksOf_concat]
    have := hinv.wqeHead.push hpos hfree w.blocks _ fun _ _ => rfl
    have hhead : (sq.head + nreq) % 4294967296 = h.posted.length % 4294967296 := by
      rw [hinv.head]
      omega
    simpa [Wq.finishWqe, hidx, hhead] using this
  case next =>
    rw [blocksOf_concat]
    have := hinv.next.push hpos hfree w.blocks
      (fun i => startOf (h.posted ++ [w]) (i + 1) % 65536) fun i hi => by
        rw [startOf_concat (Nat.succ_le_of_lt (by simpa using hi))]
    simpa [Wq.finishWqe, hidx, hnext] using this
  case done => exact hinv.done
  case sorted => exact hinv.sorted
  case failed => exact hinv.failed

/-- The call is over. -/
theorem SqInv.advance (hinv : SqInv sq room nreq h) : SqInv (sq.advance nreq) room 0 h where
  roomy := ⟨hinv.roomy.pow, hinv.roomy.pos, hinv.roomy.fits⟩
  head := by
    have := hinv.executed_le
    simp only [Wq.advance, hinv.head]
    omega
  tail := hinv.tail
  curPost := hinv.curPost
  lastPoll := hinv.lastPoll
  blocks := hinv.blocks
  retired_le := hinv.retired_le
  executed_le := Nat.le_of_add_right_le hinv.executed_le
  room := hinv.room
  wrid := hinv.wrid
  wqeHead := hinv.wqeHead
  next := hinv.next
  done := hinv.done
  sorted := hinv.sorted
  failed := hinv.failed

/-- The device finishes the next request of a call that is over. Once it has failed one, it
    succeeds with no other. -/
theorem SqInv.execute (hinv : SqInv sq room nreq h) (ok : Bool)
    (hnext : h.executed + nreq < h.posted.length)
    (hok : ok = true → h.errPolled = false ∧ ∀ d ∈ h.done, d.2 = true) :
    ∃ h', h.execute ok = some h' ∧ SqInv sq room nreq h' := by
  have hretired := hinv.retired_le
  have hget := List.getElem?_eq_getElem (l := h.posted) (i := h.executed) (by omega)
  refine ⟨_, by rw [SendHist.execute, hget]; rfl, ?_⟩
  constructor
  case roomy => exact hinv.roomy
  case head => exact hinv.head
  case tail => exact hinv.tail
  case curPost => exact hinv.curPost
  case lastPoll => exact hinv.lastPoll
  case blocks => exact hinv.blocks
  case retired_le => exact Nat.le_succ_of_le hretired
  case executed_le =>
    change h.executed + 1 + nreq ≤ h.posted.length
    omega
  case room => exact hinv.room
  case wrid => exact hinv.wrid
  case wqeHead => exact hinv.wqeHead
  case next => exact hinv.next
  case done =>
    intro d hd
    have hold : ∀ d ∈ h.done, h.retired ≤ d.1 ∧ d.1 < h.executed + 1 := fun d hd =>
      ⟨(hinv.done d hd).1, Nat.lt_succ_of_lt (hinv.done d hd).2⟩
    dsimp only at hd
    split at hd
    · rcases List.mem_append.mp hd with hd | hd
      · exact hold d hd
      · rw [List.mem_singleton.mp hd]
        exact ⟨hretired, Nat.lt_succ_self _⟩
    · exact hold d hd
  case sorted =>
    dsimp only
    split
    · refine List.pairwise_append.mpr ⟨hinv.sorted, List.pairwise_singleton _ _, ?_⟩
      intro d hd d' hd'
      rw [List.mem_singleton.mp hd']
      exact ⟨(hinv.done d hd).2, fun hok' => (hok hok').2 d hd⟩
    · exact hinv.sorted
  case failed =>
    intro herr d hd
    dsimp only at hd
    have hfail : ok = false := by
      cases ok with
      | false => rfl
      | true =>
        rw [(hok rfl).1] at herr
        cases herr
    split at hd
    · rcases List.mem_append.mp hd with hd | hd
      · exact hinv.failed herr d hd
      · rw [List.mem_singleton.mp hd]
        exact hfail
    · exact hinv.failed herr d hd

/-- The walk of `handle_atomics` from a request that is not retired to one behind it. -/
theorem SqInv.handleAtomics (hinv : SqInv sq room nreq h) {i : Nat} (hi : i < h.posted.length)
    (fuel : Nat) {j : Nat} (hretired : h.retired ≤ j) (hj : j ≤ i) (hfuel : i - j < fuel) :
    sq.handleAtomics fuel (startOf h.posted j % 65536) (startOf h.posted i % sq.wqeCnt) =
      some (startOf h.posted (i + 1) % 65536) := by
  have := hinv.roomy.neZero
  induction fuel generalizing j with
  | zero => omega
  | succ fuel ih =>
    have hnext := hinv.next j hretired (by simpa using Nat.lt_of_le_of_lt hj hi)
    rw [Wq.handleAtomics, hinv.roomy.idx_mod]
    rcases Nat.lt_or_eq_of_le hj with hlt | rfl
    · have hne : startOf h.posted j % sq.wqeCnt ≠ startOf h.posted i % sq.wqeCnt := by
        have hfit := Nat.le_of_add_right_le hinv.total_drop
        exact BlockRing.take_ne (blocksOf_pos _) hfit hretired hlt (by simpa using hi)
      rw [if_neg hne]
      change sq.handleAtomics fuel (sq.next (total ((blocksOf h.posted).take j) % sq.wqeCnt)) _ = _
      rw [hnext]
      exact ih (Nat.le_succ_of_le hretired) hlt (by omega)
    · rw [if_pos rfl]
      exact congrArg some hnext

/-- A send queue of four blocks after a request of two blocks has failed, and two others were
    posted. -/
def staleSq : Wq :=
  (((((Wq.init 4 2).finishWqe ⟨0, true, 2, Nat.two_pos⟩ 0).advance 1).retire 0 0).finishWqe
    ⟨1, true, 2, Nat.two_pos⟩ 0).finishWqe ⟨2, true, 1, Nat.one_pos⟩ 1

/-- From the place where the error has left `last_poll`, the walk to the first of them goes
    round forever: a queue pair must be reset after an error. -/
theorem handleAtomics_staleSq (fuel : Nat) : staleSq.handleAtomics fuel staleSq.lastPoll 2 = none := by
  have hround : staleSq.handleAtomics fuel 0 2 = none ∧ staleSq.handleAtomics fuel 5 2 = none := by
    induction fuel with
    | zero => exact ⟨rfl, rfl⟩
    | succ fuel ih => exact ⟨ih.2, ih.1⟩
  exact hround.1

theorem SqInv.wrid_eq (hinv : SqInv sq room nreq h) {i : Nat} (hretired : h.retired ≤ i)
    (hi : i < h.posted.length) :
    h.posted[i]?.map SendWqe.wrId = some (sq.wrid (startOf h.posted i % sq.wqeCnt)) := by
  have hmark := hinv.wrid i hretired (by simpa using hi)
  rw [startOf, hmark]
  simp [hi]

/-- What the driver returns for a completion is what the history says. -/
theorem SqInv.pollSend (hinv : SqInv sq room nreq h) {i : Nat} {ok : Bool}
    {done : List (Nat × Bool)} (hdone : h.done = (i, ok) :: done) :
    ∃ wrId sq', sq.pollSend (startOf h.posted i % 65536) ok = some (wrId, sq') ∧
      sq'.maxPost = sq.maxPost ∧
      h.poll wrId ok =
        some { h with done, retired := i + 1, errPolled := h.errPolled || !ok } ∧
      SqInv sq' room nreq
        { h with done, retired := i + 1, errPolled := h.errPolled || !ok } := by
  have hexecuted := hinv.executed_le
  have hsorted := hinv.sorted
  rw [hdone] at hsorted
  obtain ⟨hbehind, hsorted⟩ := List.pairwise_cons.mp hsorted
  obtain ⟨hretired, hlt⟩ := hinv.done (i, ok) (hdone ▸ List.mem_cons_self)
  dsimp only at hretired hlt hbehind
  have hi : i < h.posted.length := by omega
  have hwr := hinv.wrid_eq hretired hi
  have htail := hinv.wqeHead i hretired (by simpa using hi)
  change sq.wqeHead (startOf h.posted i % sq.wqeCnt) = _ at htail
  have hroom := hinv.room
  have hkeep : h.retired ≤ i + 1 := Nat.le_succ_of_le hretired
  -- the queue without its `last_poll`
  have hinv' : ∀ lastPoll errPolled,
      (errPolled = false → lastPoll = startOf h.posted (i + 1) % 65536) →
      (errPolled = true → ∀ d ∈ done, d.2 = false) →
      SqInv (sq.retire (startOf h.posted i % sq.wqeCnt) lastPoll) room nreq
        { h with done, retired := i + 1, errPolled } := by
    intro lastPoll errPolled hlast hfailed
    constructor
    case roomy => exact ⟨hinv.roomy.pow, hinv.roomy.pos, hinv.roomy.fits⟩
    case head => exact hinv.head
    case tail =>
      rw [Wq.retire, htail]
      exact Nat.mod_add_mod _ _ _
    case curPost => exact hinv.curPost
    case lastPoll => exact hlast
    case blocks => exact hinv.blocks
    case retired_le => exact hlt
    case executed_le => exact hexecuted
    case room =>
      change h.posted.length ≤ i + 1 + sq.maxPost
      omega
    case wrid => exact hinv.wrid.mono hkeep
    case wqeHead => exact hinv.wqeHead.mono hkeep
    case next => exact hinv.next.mono hkeep
    case done =>
      intro d hd
      exact ⟨(hbehind d hd).1, (hinv.done d (hdone ▸ List.mem_cons_of_mem _ hd)).2⟩
    case sorted => exact hsorted
    case failed => exact hfailed
  have hpoll : h.poll (sq.wrid (startOf h.posted i % sq.wqeCnt)) ok =
      some { h with done, retired := i + 1, errPolled := h.errPolled || !ok } := by
    rw [SendHist.poll, hdone]
    exact if_pos ⟨hwr, rfl⟩
  cases ok with
  | false =>
    refine ⟨_, sq.retire _ sq.lastPoll, ?_, rfl, hpoll, hinv' _ _ ?_ ?_⟩
    · rw [Wq.pollSend, hinv.roomy.idx_mod]
      rfl
    · simp
    · intro _ d hd
      have := (hbehind d hd).2
      cases hd2 : d.2 with
      | false => rfl
      | true => exact absurd (this hd2) (by decide)
  | true =>
    have herr : h.errPolled = false := by
      cases herr : h.errPolled with
      | false => rfl
      | true => cases hinv.failed herr (i, true) (hdone ▸ List.mem_cons_self)
    have hcnt := hinv.roomy.maxPost_le
    have hwalk := hinv.handleAtomics hi sq.wqeCnt (Nat.le_refl h.retired) hretired (by omega)
    refine ⟨_, sq.retire _ _, ?_, rfl, hpoll, hinv' _ _ (fun _ => rfl) ?_⟩
    · rw [Wq.pollSend, hinv.roomy.idx_mod, hinv.lastPoll herr, hwalk]
      rfl
    · simp [herr]

theorem SqInv.swCompLoop (hinv : SqInv sq room nreq h) {n j lastPoll : Nat} (tail : Nat)
    (hj : h.retired ≤ j) (hn : j + n ≤ h.posted.length)
    (hlast : lastPoll = startOf h.posted j % 65536) :
    ({ sq with lastPoll, tail }.swCompLoop true n).1 =
      ((h.posted.drop j).take n).map SendWqe.wrId := by
  induction n generalizing j lastPoll tail with
  | zero => rfl
  | succ n ih =>
    have hlt : j < h.posted.length := by omega
    have hidx : Wq.idx { sq with lastPoll, tail } lastPoll = startOf h.posted j % sq.wqeCnt := by
      rw [hlast]
      exact hinv.roomy.idx_mod _
    have hnext := hinv.next j hj (by simpa using hlt)
    have hwr := hinv.wrid_eq hj hlt
    rw [List.getElem?_eq_getElem hlt, Option.map_some, Option.some_inj] at hwr
    simp only [Wq.swCompLoop, if_true, hidx]
    rw [List.drop_eq_getElem_cons hlt, List.take_succ_cons, List.map_cons, hwr]
    congr 1
    exact ih _ (Nat.le_succ_of_le hj) (by omega) hnext

/-- Without the device, the driver returns the requests that are not retired, in their order,
    as long as it has polled no error. -/
theorem SqInv.swComp (hinv : SqInv sq room 0 h) (herr : h.errPolled = false) (numEntries : Nat) :
    (sq.swComp true numEntries).1 =
      ((h.posted.drop h.retired).take numEntries).map SendWqe.wrId := by
  have hretired := hinv.retired_le
  have hexecuted := hinv.executed_le
  have hcur := hinv.roomy.cur_eq hinv.head hinv.tail (by omega) hinv.room
  have hflush := hinv.swCompLoop (n := min sq.cur numEntries) sq.tail (Nat.le_refl _) (by omega)
    (hinv.lastPoll herr)
  rw [Wq.swComp]
  refine hflush.trans ?_
  rw [hcur, Nat.sub_zero, ← List.length_drop, Nat.min_comm, ← List.take_eq_take_min]

theorem SqInv.init {sq : Wq} (hr : sq.Roomy room) : SqInv sq.reset room 0 .init where
  roomy := ⟨hr.pow, hr.pos, hr.fits⟩
  head := rfl
  tail := rfl
  curPost := rfl
  lastPoll := fun _ => rfl
  blocks := by simp [SendHist.init]
  retired_le := Nat.le_refl 0
  executed_le := Nat.le_refl 0
  room := Nat.zero_le _
  wrid := fun i _ hi => absurd hi (Nat.not_lt_zero i)
  wqeHead := fun i _ hi => absurd hi (Nat.not_lt_zero i)
  next := fun i _ hi => absurd hi (Nat.not_lt_zero i)
  done := by simp [SendHist.init]
  sorted := List.Pairwise.nil
  failed := by simp [SendHist.init]

end Send

/-! ## The receive queue and its history -/

/-- The queue agrees with its history. `nreq` requests belong to a call that is not over. -/
structure RqInv (rq : Wq) (nreq : Nat) (h : RecvHist) : Prop where
  roomy : rq.Roomy 1
  head : rq.head = (h.posted.length - nreq) % 4294967296
  tail : rq.tail = h.polled % 4294967296
  polled_le : h.polled ≤ h.consumed
  consumed_le : h.consumed + nreq ≤ h.posted.length
  room : h.posted.length ≤ h.polled + rq.maxPost
  wrid : Marks rq.wqeCnt (List.replicate h.posted.length 1) h.polled rq.wrid
    fun i => h.posted.getD i 0

section Recv

variable {rq : Wq} {nreq wrId : Nat} {h : RecvHist}

theorem RqInv.overflow_eq (hinv : RqInv rq nreq h) :
    rq.overflow nreq = !decide (h.posted.length < h.polled + rq.maxPost) := by
  have hpolled := hinv.polled_le
  have hconsumed := hinv.consumed_le
  have hroom := hinv.room
  rw [Wq.overflow, hinv.roomy.cur_eq hinv.head hinv.tail (by omega) (by omega)]
  congr 1
  exact decide_eq_decide.mpr (by omega)

/-- A request is written at the index behind the others. -/
theorem RqInv.writeRecv (hinv : RqInv rq nreq h) (hover : rq.overflow nreq = false) (wrId : Nat) :
    ∃ h', h.post rq.maxPost wrId = some h' ∧
      RqInv (rq.writeRecv (h.posted.length % rq.wqeCnt) wrId) (nreq + 1) h' := by
  have := hinv.roomy.neZero
  have hlt : h.posted.length < h.polled + rq.maxPost := by
    rw [hinv.overflow_eq] at hover
    simpa using hover
  have hpolled := hinv.polled_le
  have hconsumed := hinv.consumed_le
  have hmax := hinv.roomy.maxPost_le
  have hlen : (h.posted ++ [wrId]).length = h.posted.length + 1 := List.length_append
  refine ⟨{ h with posted := h.posted ++ [wrId] }, if_pos hlt, ?_⟩
  constructor
  case roomy => exact ⟨hinv.roomy.pow, hinv.roomy.pos, hinv.roomy.fits⟩
  case head =>
    rw [hlen, Nat.add_sub_add_right]
    exact hinv.head
  case tail => exact hinv.tail
  case polled_le => exact hpolled
  case consumed_le =>
    rw [hlen]
    change h.consumed + (nreq + 1) ≤ _
    omega
  case room =>
    rw [hlen]
    exact hlt
  case wrid =>
    have hpush := hinv.wrid.push (by simp [List.mem_replicate]) (by simp; omega) 1
      (fun i => (h.posted ++ [wrId]).getD i 0) fun i hi =>
        List.getD_append _ _ _ _ (by simpa using hi)
    rw [← List.replicate_succ'] at hpush
    rw [hlen]
    simpa [Wq.writeRecv] using hpush

theorem RqInv.advance (hinv : RqInv rq nreq h) : RqInv (rq.advance nreq) 0 h where
  roomy := ⟨hinv.roomy.pow, hinv.roomy.pos, hinv.roomy.fits⟩
  head := by
    have := hinv.consumed_le
    simp only [Wq.advance, hinv.head]
    omega
  tail := hinv.tail
  polled_le := hinv.polled_le
  consumed_le := Nat.le_of_add_right_le hinv.consumed_le
  room := hinv.room
  wrid := hinv.wrid

theorem RqInv.consume (hinv : RqInv rq nreq h) (hnext : h.consumed + nreq < h.posted.length) :
    ∃ h', h.consume = some h' ∧ h'.posted = h.posted ∧ h'.consumed = h.consumed + 1 ∧
      h'.polled = h.polled ∧ RqInv rq nreq h' := by
  refine ⟨{ h with consumed := h.consumed + 1 }, if_pos (by omega), rfl, rfl, rfl, ?_⟩
  exact
    { hinv with
      polled_le := Nat.le_succ_of_le hinv.polled_le
      consumed_le := by
        change h.consumed + 1 + nreq ≤ h.posted.length
        omega }

theorem RqInv.wrid_eq (hinv : RqInv rq nreq h) {i : Nat} (hpolled : h.polled ≤ i)
    (hi : i < h.posted.length) : h.posted[i]? = some (rq.wrid (i % rq.wqeCnt)) := by
  have hmark := hinv.wrid i hpolled (by simpa using hi)
  rw [List.take_replicate, BlockRing.total_replicate, Nat.min_eq_left (Nat.le_of_lt hi),
    Nat.mul_one] at hmark
  rw [hmark]
  simp [hi]

theorem RqInv.idx_tail (hinv : RqInv rq nreq h) : rq.idx rq.tail = h.polled % rq.wqeCnt := by
  have hdvd : rq.wqeCnt ∣ 4294967296 := hinv.roomy.dvd.trans (by decide)
  rw [hinv.tail, hinv.roomy.idx_eq, Nat.mod_mod_of_dvd _ hdvd]

theorem RqInv.pollRecv (hinv : RqInv rq nreq h) (hnext : h.polled < h.consumed) :
    ∃ h', h.poll rq.pollRecv.1 = some h' ∧ h'.posted = h.posted ∧ h'.consumed = h.consumed ∧
      h'.polled = h.polled + 1 ∧ RqInv rq.pollRecv.2 nreq h' := by
  have hconsumed := hinv.consumed_le
  have hwr := hinv.wrid_eq (Nat.le_refl h.polled) (by omega)
  rw [← hinv.idx_tail] at hwr
  refine ⟨{ h with polled := h.polled + 1 }, if_pos ⟨hnext, hwr⟩, rfl, rfl, rfl, ?_⟩
  have hroom := hinv.room
  constructor
  case roomy => exact ⟨hinv.roomy.pow, hinv.roomy.pos, hinv.roomy.fits⟩
  case head => exact hinv.head
  case tail =>
    simp only [Wq.pollRecv, hinv.tail]
    exact Nat.mod_add_mod _ _ _
  case polled_le => exact hnext
  case consumed_le => exact hconsumed
  case room =>
    change h.posted.length ≤ h.polled + 1 + rq.maxPost
    omega
  case wrid => exact hinv.wrid.mono (Nat.le_succ _)

theorem RqInv.swCompLoop (hinv : RqInv rq nreq h) {n j tail : Nat}
    (hj : h.polled ≤ j) (hn : j + n ≤ h.posted.length) (htail : tail = j % 4294967296) :
    ({ rq with tail }.swCompLoop false n).1 = (h.posted.drop j).take n := by
  have hdvd : rq.wqeCnt ∣ 4294967296 := hinv.roomy.dvd.trans (by decide)
  induction n generalizing j tail with
  | zero => rfl
  | succ n ih =>
    have hlt : j < h.posted.length := by omega
    have hidx : Wq.idx { rq with tail } tail = j % rq.wqeCnt := by
      rw [htail]
      exact (hinv.roomy.idx_eq _).trans (Nat.mod_mod_of_dvd _ hdvd)
    have hwr := hinv.wrid_eq hj hlt
    rw [List.getElem?_eq_getElem hlt, Option.some_inj] at hwr
    simp only [Wq.swCompLoop, Bool.false_eq_true, if_false, hidx]
    rw [List.drop_eq_getElem_cons hlt, List.take_succ_cons, hwr]
    congr 1
    exact ih (Nat.le_succ_of_le hj) (by omega) (by rw [htail, Nat.mod_add_mod])

theorem RqInv.swComp (hinv : RqInv rq 0 h) (numEntries : Nat) :
    (rq.swComp false numEntries).1 = (h.posted.drop h.polled).take numEntries := by
  have hpolled := hinv.polled_le
  have hconsumed := hinv.consumed_le
  have hcur := hinv.roomy.cur_eq hinv.head hinv.tail (by omega) hinv.room
  have hflush := hinv.swCompLoop (n := min rq.cur numEntries) (Nat.le_refl _) (by omega) hinv.tail
  rw [Wq.swComp]
  refine hflush.trans ?_
  rw [hcur, Nat.sub_zero, ← List.length_drop, Nat.min_comm, ← List.take_eq_take_min]

theorem RqInv.init {rq : Wq} (hr : rq.Roomy 1) : RqInv rq.reset 0 .init where
  roomy := ⟨hr.pow, hr.pos, hr.fits⟩
  head := rfl
  tail := rfl
  polled_le := Nat.le_refl 0
  consumed_le := Nat.le_refl 0
  room := Nat.zero_le _
  wrid := fun i _ hi => absurd hi (Nat.not_lt_zero i)

end Recv

end Driver
