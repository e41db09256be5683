-- SUMMARY: The completion queue of the mlx5 driver, a ring with owner bits: polls and the removal of a queue pair's entries, interleaved with the device.
import Mathlib.Data.Nat.Bitwise
import KRCore.Base.OwnerRing
import KRCore.Base.Run
import KRCore.Driver.WqeSize

/-!
# The ring of a completion queue

The device writes completions into a ring and sees only the consumer index that
the driver reports. The driver sees only the ring: an entry is its own if the owner
bit is that of its lap. `mlx5_poll_one` takes the next entry. When a queue pair is
reset or destroyed, `__mlx5_ib_cq_clean` looks for the end of the ring, sweeps
backwards over it and copies the entries of other queue pairs over those of this
one. It holds the lock of the completion queue, which keeps polls out but not the
device.

Every step that takes effect is logged, and the log replayed on a plain queue says
what the ring is for.
-/

namespace Driver

open OwnerRing (Cell Holds Swept lap)

/-! ## Entries and the ring -/

/-- `MLX5_CQE_*`, without that of a resized completion queue. -/
inductive CqeOpcode where
  | req
  | respWrImm
  | respSend
  | respSendImm
  | respSendInv
  | sigErr
  | reqErr
  | respErr
  | invalid
deriving DecidableEq, Repr

/-- The fields of `mlx5_cqe64` that the driver reads. `qpn` and `sop` are the parts of
    `sop_drop_qpn`, and `srqn` is the field's low 24 bits. -/
structure Cqe where
  opcode : CqeOpcode
  qpn : Nat
  wqeCounter : Nat
  srqn : Nat
  sop : Nat
  byteCnt : Nat
  immediate : Nat
  syndrome : Nat
deriving DecidableEq, Repr

/-- An entry of the ring; `owner` is the low bit of `op_own`. -/
structure CqEntry where
  owner : Bool
  cqe : Cqe

/-- `cqe` is the number of entries less one, `consIndex` has 32 bits, and `setCi` is the
    record where the device reads 24 of them. -/
structure Cq where
  cqe : Nat
  buf : Nat → CqEntry
  consIndex : Nat
  setCi : Nat

def Cq.getSwCqe (cq : Cq) (n : Nat) : Option Cqe :=
  let e := cq.buf (n &&& cq.cqe)
  if e.cqe.opcode ≠ .invalid ∧ e.owner = decide (n &&& (cq.cqe + 1) ≠ 0) then some e.cqe
  else none

def Cq.nextCqeSw (cq : Cq) : Option Cqe := cq.getSwCqe cq.consIndex

/-- What polls find from index `n` on while the device writes nothing. -/
def Cq.readFrom (cq : Cq) : Nat → Nat → List Cqe
  | 0, _ => []
  | fuel + 1, n =>
    match cq.getSwCqe n with
    | none => []
    | some c => c :: cq.readFrom fuel ((n + 1) % 4294967296)

def Cq.swCqes (cq : Cq) : List Cqe := cq.readFrom (cq.cqe + 1) cq.consIndex

/-- The device writes the entry with number `i`, with the owner bit of its lap. -/
def Cq.write (cq : Cq) (i : Nat) (c : Cqe) : Cq :=
  { cq with buf := Function.update cq.buf (i % (cq.cqe + 1)) ⟨lap (cq.cqe + 1) i, c⟩ }

/-- Copy an entry over another one, which keeps its owner bit. -/
def Cq.copy (cq : Cq) (dest src : Nat) : Cq :=
  { cq with buf := Function.update cq.buf dest { cq.buf dest with cqe := (cq.buf src).cqe } }

def Cq.setConsIndex (cq : Cq) : Cq := { cq with setCi := cq.consIndex &&& 16777215 }

/-! ## Removing the entries of a queue pair -/

/-- Where `__mlx5_ib_cq_clean` is: it looks for the producer index, or sweeps backwards. -/
inductive CleanPhase where
  | scan (prodIndex : Nat)
  | sweep (prodIndex nfreed : Nat) (srqFreed : List Nat)

/-- A call of `__mlx5_ib_cq_clean`, and whether it was given a shared receive queue. -/
structure Clean where
  rsn : Nat
  srq : Bool
  phase : CleanPhase

/-- What took effect: the device wrote an entry, a poll got one or none, and the entries of a
    queue pair were removed, with the entries of the shared receive queue that this gave back. -/
inductive CqLog where
  | written (c : Cqe)
  | polled (c : Cqe)
  | empty
  | cleaned (rsn : Nat) (srq : Bool) (srqFreed : List Nat)

/-- A completion queue, the producer counter of the device, and the call of
    `__mlx5_ib_cq_clean` that holds the lock. -/
structure CqState where
  cq : Cq
  prod : Nat
  clean : Option Clean
  log : List CqLog

/-- The body of the second loop of `__mlx5_ib_cq_clean`, for the entry with index `i`. -/
def Cq.sweepOne (cq : Cq) (rsn : Nat) (srq : Bool) (i nfreed : Nat) (srqFreed : List Nat) :
    Cq × Nat × List Nat :=
  let e := cq.buf (i &&& cq.cqe)
  if e.cqe.qpn = rsn then
    (cq, nfreed + 1,
      if srq = true ∧ e.cqe.srqn ≠ 0 then srqFreed ++ [e.cqe.wqeCounter] else srqFreed)
  else if nfreed ≠ 0 then
    (cq.copy ((i + nfreed) &&& cq.cqe) (i &&& cq.cqe), nfreed, srqFreed)
  else (cq, nfreed, srqFreed)

/-- One round of the loops of `__mlx5_ib_cq_clean`. The last one gives the lock back. -/
def CqState.cleanStep (s : CqState) (c : Clean) : CqState :=
  match c.phase with
  | .scan prodIndex =>
    match s.cq.getSwCqe prodIndex with
    | none => { s with clean := some { c with phase := .sweep prodIndex 0 [] } }
    | some _ =>
      if prodIndex = (s.cq.consIndex + s.cq.cqe) % 4294967296 then
        { s with clean := some { c with phase := .sweep prodIndex 0 [] } }
      else { s with clean := some { c with phase := .scan ((prodIndex + 1) % 4294967296) } }
  | .sweep prodIndex nfreed srqFreed =>
    let i := (prodIndex + 4294967295) % 4294967296
    if 0 ≤ wrapInt ((i : Int) - (s.cq.consIndex : Int)) then
      let (cq, nfreed, srqFreed) := s.cq.sweepOne c.rsn c.srq i nfreed srqFreed
      { s with cq, clean := some { c with phase := .sweep i nfreed srqFreed } }
    else
      let cq :=
        if nfreed ≠ 0 then
          { s.cq with consIndex := (s.cq.consIndex + nfreed) % 4294967296 }.setConsIndex
        else s.cq
      { s with cq, clean := none, log := s.log ++ [.cleaned c.rsn c.srq srqFreed] }

/-! ## Interleavings with the device -/

inductive CqEvent where
  | write (c : Cqe)
  | poll
  | report
  | clean (rsn : Nat) (srq : Bool)
  | cleanStep

/-- The device has room for an entry, as far as it knows, and has stopped working on the
    queue pair that is being removed. -/
def CqState.MayWrite (s : CqState) (c : Cqe) : Prop :=
  c.opcode ≠ .invalid ∧ (s.prod + (16777216 - s.cq.setCi)) % 16777216 < s.cq.cqe + 1 ∧
    s.clean.all (fun cl => decide (c.qpn ≠ cl.rsn)) = true

instance (s : CqState) (c : Cqe) : Decidable (s.MayWrite c) :=
  inferInstanceAs (Decidable (_ ∧ _ ∧ _))

def cqStep (s : CqState) : CqEvent → Option CqState
  | .write c =>
    if s.MayWrite c then
      some { s with
        cq := s.cq.write s.prod c, prod := s.prod + 1, log := s.log ++ [.written c] }
    else none
  | .poll =>
    match s.clean with
    | some _ => none
    | none =>
      match s.cq.nextCqeSw with
      | none => some { s with log := s.log ++ [.empty] }
      | some c =>
        some { s with
          cq := { s.cq with consIndex := (s.cq.consIndex + 1) % 4294967296 }
          log := s.log ++ [.polled c] }
  | .report =>
    match s.clean with
    | some _ => none
    | none => some { s with cq := s.cq.setConsIndex }
  | .clean rsn srq =>
    match s.clean with
    | some _ => none
    | none => some { s with clean := some ⟨rsn, srq, .scan s.cq.consIndex⟩ }
  | .cleanStep => s.clean.map s.cleanStep

/-- How many rounds a call of `__mlx5_ib_cq_clean` still takes at most. -/
def CqState.rounds (s : CqState) : Nat :=
  match s.clean with
  | none => 0
  | some ⟨_, _, .scan prodIndex⟩ =>
    2 * s.cq.cqe + 2 - (prodIndex + (4294967296 - s.cq.consIndex)) % 4294967296
  | some ⟨_, _, .sweep prodIndex _ _⟩ =>
    (prodIndex + (4294967296 - s.cq.consIndex)) % 4294967296 + 1

def noCqe : Cqe := ⟨.invalid, 0, 0, 0, 0, 0, 0, 0⟩

/-- A new completion queue with `2 ^ k` entries. -/
def CqState.init (k : Nat) : CqState where
  cq := { cqe := 2 ^ k - 1, buf := fun _ => ⟨false, noCqe⟩, consIndex := 0, setCi := 0 }
  prod := 0
  clean := none
  log := []

/-! ## What the ring is for -/

/-- The entries of the shared receive queue that the removal of `cs`, oldest first, gives
    back. -/
def srqFrees (srq : Bool) (rsn : Nat) (cs : List Cqe) : List Nat :=
  (cs.reverse.filter fun c => decide (c.qpn = rsn) && srq && decide (c.srqn ≠ 0)).map
    Cqe.wqeCounter

/-- A queue without the entries of `rsn`. The newest entry of a queue of `n` stays. -/
def cleaned (n rsn : Nat) (q : List Cqe) : List Cqe :=
  ((q.take (n - 1)).filter fun c => !decide (c.qpn = rsn)) ++ q.drop (n - 1)

/-- A queue of at most `n` completions. -/
def fifoStep (n : Nat) (q : List Cqe) : CqLog → Option (List Cqe)
  | .written c => if q.length < n then some (q ++ [c]) else none
  | .polled c => if q.head? = some c then some q.tail else none
  | .empty => if q = [] then some [] else none
  | .cleaned rsn srq srqFreed =>
    if srqFreed = srqFrees srq rsn (q.take (n - 1)) then some (cleaned n rsn q) else none

/-! ## Entries that software owns -/

/-- The ring as cells with an owner bit. -/
def Cq.cells (cq : Cq) (j : Nat) : Cell Cqe where
  owner := (cq.buf j).owner
  entry := if (cq.buf j).cqe.opcode = .invalid then none else some (cq.buf j).cqe

variable {k : Nat} {cq : Cq} {s s' : CqState} {q : List Cqe} {p reported : Nat}

theorem and_cqe (hsize : cq.cqe + 1 = 2 ^ k) (i : Nat) : i &&& cq.cqe = i % 2 ^ k := by
  rw [show cq.cqe = 2 ^ k - 1 by omega, Nat.and_two_pow_sub_one_eq_mod]

theorem and_mask (hsize : cq.cqe + 1 = 2 ^ k) (hk : k ≤ 32) (i : Nat) :
    i % 4294967296 &&& cq.cqe = i % 2 ^ k := by
  have hdvd : 2 ^ k ∣ 4294967296 := Nat.pow_dvd_pow 2 (n := 32) hk
  rw [and_cqe hsize, Nat.mod_mod_of_dvd _ hdvd]

/-- The bit that `get_sw_cqe` compares with is that of the lap. -/
theorem lapBit_eq (hk : k < 32) (i : Nat) :
    decide (i % 4294967296 &&& 2 ^ k ≠ 0) = lap (2 ^ k) i := by
  have hbit : (i % 4294967296).testBit k = lap (2 ^ k) i := by
    rw [show (4294967296 : Nat) = 2 ^ 32 from rfl, Nat.testBit_mod_two_pow, lap,
      Nat.testBit_eq_decide_div_mod_eq]
    simp [hk]
  rw [Nat.and_two_pow, hbit]
  cases lap (2 ^ k) i <;> simp

theorem getSwCqe_eq (hsize : cq.cqe + 1 = 2 ^ k) (hk : k < 32) (i : Nat) :
    cq.getSwCqe (i % 4294967296) = OwnerRing.get (2 ^ k) cq.cells i := by
  rw [Cq.getSwCqe, OwnerRing.get, Cq.cells, and_mask hsize (Nat.le_of_lt hk), hsize, lapBit_eq hk]
  grind

theorem buf_of_get {n i : Nat} {c : Cqe} (h : OwnerRing.get n cq.cells i = some c) :
    (cq.buf (i % n)).cqe = c := by
  rw [OwnerRing.get_of_owner (OwnerRing.owner_of_get h), Cq.cells] at h
  grind

theorem cells_write {c : Cqe} (hsize : cq.cqe + 1 = 2 ^ k) (hc : c.opcode ≠ .invalid) (i : Nat) :
    (cq.write i c).cells = OwnerRing.put (2 ^ k) cq.cells i c := by
  rw [← hsize]
  funext j
  by_cases hj : j = i % (cq.cqe + 1)
  · subst hj
    simp [Cq.cells, Cq.write, OwnerRing.put, hc]
  · simp [Cq.cells, Cq.write, OwnerRing.put, Function.update_of_ne hj]

theorem cells_copy (n dst src : Nat) :
    (cq.copy (dst % n) (src % n)).cells = OwnerRing.move n cq.cells src dst := by
  funext j
  by_cases hj : j = dst % n
  · subst hj
    simp [Cq.cells, Cq.copy, OwnerRing.move]
  · simp [Cq.cells, Cq.copy, OwnerRing.move, Function.update_of_ne hj]

/-- While the ring holds `q`, polls find `q`. -/
theorem Cq.swCqes_eq (hsize : cq.cqe + 1 = 2 ^ k) (hk : k < 32)
    (hcons : cq.consIndex = p % 4294967296) (h : Holds (2 ^ k) cq.cells p q) : cq.swCqes = q := by
  have hread : ∀ fuel p q, q.length ≤ fuel → fuel ≤ 2 ^ k → Holds (2 ^ k) cq.cells p q →
      cq.readFrom fuel (p % 4294967296) = q := by
    intro fuel
    induction fuel with
    | zero =>
      intro p q hlen _ _
      exact (List.eq_nil_of_length_eq_zero (Nat.le_zero.mp hlen)).symm
    | succ fuel ih =>
      intro p q hlen hfuel hq
      rw [Cq.readFrom, getSwCqe_eq hsize hk]
      cases q with
      | nil => rw [hq.get_nil (Nat.two_pow_pos k)]
      | cons c q =>
        rw [hq.get_head]
        dsimp only
        rw [Nat.mod_add_mod, ih (p + 1) q (Nat.le_of_succ_le_succ hlen) (by omega) hq.pop]
  rw [Cq.swCqes, hcons]
  exact hread _ p q (hsize ▸ h.length_le) (Nat.le_of_eq hsize) h

/-! ## The queue under an interleaving -/

/-- The removal of the entries of `rsn` has swept from the `m`-th entry back to the `i`-th. -/
structure SweepInv (k : Nat) (cq : Cq) (q : List Cqe) (p rsn : Nat) (srq : Bool) (m i nfreed : Nat)
    (srqFreed : List Nat) : Prop where
  swept : Swept (2 ^ k) cq.cells p q (fun c => decide (c.qpn = rsn)) m i nfreed
  le : m ≤ cq.cqe
  rest : m = cq.cqe ∨ ∀ c ∈ q.drop m, c.qpn ≠ rsn
  frees : srqFreed = srqFrees srq rsn ((q.take m).drop i)

/-- The ring holds `q`, or has got that far with removing entries from it. -/
def RingInv (k : Nat) (cq : Cq) (q : List Cqe) (p : Nat) : Option Clean → Prop
  | none => Holds (2 ^ k) cq.cells p q
  | some ⟨_, _, .scan prodIndex⟩ =>
    Holds (2 ^ k) cq.cells p q ∧
      ∃ i ≤ min q.length cq.cqe, prodIndex = (p + i) % 4294967296
  | some ⟨rsn, srq, .sweep prodIndex nfreed srqFreed⟩ =>
    ∃ m i, SweepInv k cq q p rsn srq m i nfreed srqFreed ∧ prodIndex = (p + i) % 4294967296

/-- `p` and `reported` are the consumer index, and the one that the device knows, without
    their wraps. -/
structure CqInv (k : Nat) (s : CqState) (q : List Cqe) (p reported : Nat) : Prop where
  size : s.cq.cqe + 1 = 2 ^ k
  cons : s.cq.consIndex = p % 4294967296
  prod : s.prod = p + q.length
  ci : s.cq.setCi = reported % 16777216
  le : reported ≤ p
  room : p + q.length ≤ reported + 2 ^ k
  ring : RingInv k s.cq q p s.clean
  log : Run.exec (fifoStep (2 ^ k)) [] s.log = some q

theorem SweepInv.write {c : Cqe} {rsn m i nfreed : Nat} {srq : Bool} {srqFreed : List Nat}
    (h : SweepInv k cq q p rsn srq m i nfreed srqFreed) (hsize : cq.cqe + 1 = 2 ^ k)
    (hroom : q.length < 2 ^ k) (hc : c.opcode ≠ .invalid) (hquiet : c.qpn ≠ rsn) :
    SweepInv k (cq.write (p + q.length) c) (q ++ [c]) p rsn srq m i nfreed srqFreed := by
  have hle := h.swept.le_length
  exact
    { swept := by
        rw [cells_write hsize hc]
        exact h.swept.push hroom c
      le := h.le
      rest := h.rest.imp id fun hrest c' hc' => by
        rw [List.drop_append_of_le_length hle] at hc'
        rcases List.mem_append.mp hc' with hold | hnew
        · exact hrest c' hold
        · rw [List.mem_singleton.mp hnew]
          exact hquiet
      frees := by
        rw [List.take_append_of_le_length hle]
        exact h.frees }

theorem RingInv.write {c : Cqe} {cl : Option Clean} (h : RingInv k cq q p cl)
    (hsize : cq.cqe + 1 = 2 ^ k) (hroom : q.length < 2 ^ k) (hc : c.opcode ≠ .invalid)
    (hquiet : cl.all (fun cl => decide (c.qpn ≠ cl.rsn)) = true) :
    RingInv k (cq.write (p + q.length) c) (q ++ [c]) p cl := by
  have hlen : (q ++ [c]).length = q.length + 1 := List.length_append
  match cl, h with
  | none, h =>
    rw [RingInv, cells_write hsize hc]
    exact Holds.push h hroom c
  | some ⟨_, _, .scan prodIndex⟩, ⟨hq, i, hi, hprod⟩ =>
    refine ⟨?_, i, hi.trans (min_le_min_right _ (by omega)), hprod⟩
    rw [cells_write hsize hc]
    exact hq.push hroom c
  | some ⟨rsn, srq, .sweep prodIndex nfreed srqFreed⟩, ⟨m, i, hq, hprod⟩ =>
    refine ⟨m, i, hq.write hsize hroom hc (by simpa using hquiet), hprod⟩

theorem CqInv.write (hk : k ≤ 23) (h : CqInv k s q p reported) {c : Cqe}
    (hstep : cqStep s (.write c) = some s') : CqInv k s' (q ++ [c]) p reported := by
  have hpow : 2 ^ k ≤ 8388608 := Nat.pow_le_pow_right (by decide) (n := 2) hk
  simp only [cqStep] at hstep
  split at hstep
  case isFalse => cases hstep
  case isTrue hmay =>
    obtain ⟨hc, hspace, hquiet⟩ := hmay
    cases hstep
    -- the device counts as many entries as there are
    have hlt : p + q.length < reported + 2 ^ k := by
      rw [h.prod, h.ci, h.size] at hspace
      have := h.room
      have := h.le
      omega
    have hroom : q.length < 2 ^ k := by
      have := h.le
      omega
    have hlen : (q ++ [c]).length = q.length + 1 := List.length_append
    exact
      { size := h.size
        cons := h.cons
        prod := by
          rw [hlen]
          exact congrArg (· + 1) h.prod
        ci := h.ci
        le := h.le
        room := by omega
        ring := by
          have hring := RingInv.write h.ring h.size hroom hc hquiet
          rwa [← h.prod] at hring
        log := by
          rw [Run.exec_concat_eq_some]
          exact ⟨q, h.log, if_pos hroom⟩ }

/-- What a poll looks at. -/
theorem CqInv.nextCqeSw_eq (hk : k ≤ 23) (h : CqInv k s q p reported) (hidle : s.clean = none) :
    s.cq.nextCqeSw = q.head? := by
  have hring := h.ring
  rw [hidle] at hring
  rw [Cq.nextCqeSw, h.cons, getSwCqe_eq h.size (by omega)]
  cases q with
  | nil => exact hring.get_nil (Nat.two_pow_pos k)
  | cons c q => exact hring.get_head

theorem CqInv.poll (hk : k ≤ 23) (h : CqInv k s q p reported)
    (hstep : cqStep s .poll = some s') : ∃ p', CqInv k s' q.tail p' reported := by
  simp only [cqStep] at hstep
  split at hstep
  case h_1 => cases hstep
  case h_2 hidle =>
    have hring := h.ring
    rw [hidle] at hring
    rw [h.nextCqeSw_eq hk hidle] at hstep
    cases q with
    | nil =>
      cases hstep
      exact ⟨p, { h with log := by rw [Run.exec_concat_eq_some]; exact ⟨[], h.log, rfl⟩ }⟩
    | cons c q =>
      cases hstep
      have hlen : (c :: q).length = q.length + 1 := rfl
      have hprod := h.prod
      have hroom := h.room
      refine ⟨p + 1, ?_⟩
      exact
        { size := h.size
          cons := by
            rw [h.cons]
            exact Nat.mod_add_mod p _ 1
          prod := by
            change s.prod = p + 1 + q.length
            omega
          ci := h.ci
          le := Nat.le_succ_of_le h.le
          room := by
            change p + 1 + q.length ≤ _
            omega
          ring := by
            rw [hidle]
            exact hring.pop
          log := by
            rw [Run.exec_concat_eq_some]
            exact ⟨c :: q, h.log, if_pos rfl⟩ }

theorem setConsIndex_setCi (cq : Cq) : cq.setConsIndex.setCi = cq.consIndex % 16777216 :=
  Nat.and_two_pow_sub_one_eq_mod cq.consIndex 24

theorem CqInv.report (h : CqInv k s q p reported) (hstep : cqStep s .report = some s') :
    CqInv k s' q p p := by
  simp only [cqStep] at hstep
  split at hstep
  case h_1 => cases hstep
  case h_2 hidle =>
    cases hstep
    have hring := h.ring
    rw [hidle] at hring
    exact
      { h with
        ci := by
          rw [setConsIndex_setCi, h.cons, Nat.mod_mod_of_dvd _ (by decide)]
        le := Nat.le_refl p
        room := by
          have := hring.length_le
          omega
        ring := by
          rw [hidle]
          exact hring }

theorem CqInv.clean (h : CqInv k s q p reported) {rsn : Nat} {srq : Bool}
    (hstep : cqStep s (.clean rsn srq) = some s') : CqInv k s' q p reported := by
  simp only [cqStep] at hstep
  split at hstep
  case h_1 => cases hstep
  case h_2 hidle =>
    cases hstep
    have hring := h.ring
    rw [hidle] at hring
    exact { h with ring := ⟨hring, 0, Nat.zero_le _, h.cons⟩ }

/-! ## The lock of a completion queue -/

theorem cqStep_write_eq_some {c : Cqe} (h : cqStep s (.write c) = some s') :
    s'.clean = s.clean ∧ s.clean.all (fun cl => decide (c.qpn ≠ cl.rsn)) = true := by
  simp only [cqStep] at h
  split at h
  case isFalse => cases h
  case isTrue hmay =>
    cases h
    exact ⟨rfl, hmay.2.2⟩

theorem cqStep_poll_eq_some (h : cqStep s .poll = some s') : s.clean = none ∧ s'.clean = none := by
  simp only [cqStep] at h
  split at h
  case h_1 => cases h
  case h_2 hidle =>
    split at h <;> cases h <;> exact ⟨hidle, hidle⟩

theorem cqStep_report_eq_some (h : cqStep s .report = some s') : s'.clean = s.clean := by
  simp only [cqStep] at h
  split at h
  case h_1 => cases h
  case h_2 =>
    cases h
    rfl

theorem cqStep_clean_eq_some {rsn : Nat} {srq : Bool} (h : cqStep s (.clean rsn srq) = some s') :
    s.clean = none ∧ s'.clean.map Clean.rsn = some rsn := by
  simp only [cqStep] at h
  split at h
  case h_1 => cases h
  case h_2 hidle =>
    cases h
    exact ⟨hidle, rfl⟩

/-! ## Removing entries, step by step -/

/-- The difference of two indices that are less than half a wrap apart. -/
theorem wrapInt_sub_index {i : Nat} (hi : i < 2147483648) (p : Nat) :
    wrapInt ((((p + i) % 4294967296 : Nat) : Int) - ((p % 4294967296 : Nat) : Int)) = i := by
  unfold wrapInt
  omega

theorem wrapInt_pred_index (p : Nat) :
    wrapInt ((((p % 4294967296 + 4294967295) % 4294967296 : Nat) : Int) -
      ((p % 4294967296 : Nat) : Int)) = -1 := by
  unfold wrapInt
  omega

section CleanSteps

variable {rsn m i nfreed : Nat} {srq : Bool} {srqFreed : List Nat}

theorem srqFrees_cons (c : Cqe) (cs : List Cqe) :
    srqFrees srq rsn (c :: cs) = srqFrees srq rsn cs ++
      (if c.qpn = rsn ∧ srq = true ∧ c.srqn ≠ 0 then [c.wqeCounter] else []) := by
  simp only [srqFrees, List.reverse_cons, List.filter_append, List.map_append]
  congr 1
  by_cases h : c.qpn = rsn ∧ srq = true ∧ c.srqn ≠ 0
  · simp [h]
  · rw [if_neg h, List.filter_cons_of_neg, List.filter_nil, List.map_nil]
    simpa [and_assoc] using h

/-- The search for the end of the ring goes on. -/
theorem cleanStep_scan (hk : k ≤ 23) (h : CqInv k s q p reported)
    (hring : Holds (2 ^ k) s.cq.cells p q) (hi : i < min q.length s.cq.cqe) :
    s.cleanStep ⟨rsn, srq, .scan ((p + i) % 4294967296)⟩ =
      { s with clean := some ⟨rsn, srq, .scan ((p + (i + 1)) % 4294967296)⟩ } := by
  have hpow : 2 ^ k ≤ 8388608 := Nat.pow_le_pow_right (by decide) (n := 2) hk
  have hsize := h.size
  have hlen : i < q.length := by omega
  have hget : s.cq.getSwCqe ((p + i) % 4294967296) = some q[i] := by
    rw [getSwCqe_eq hsize (by omega), hring.get_eq i (by omega), List.getElem?_eq_getElem hlen]
  have hne : ¬(p + i) % 4294967296 = (s.cq.consIndex + s.cq.cqe) % 4294967296 := by
    rw [h.cons]
    omega
  simp only [CqState.cleanStep, hget, if_neg hne, Nat.mod_add_mod, Nat.add_assoc]

/-- The search ends where software owns no entry, or after all entries but one. -/
theorem cleanStep_scan_end (hk : k ≤ 23) (h : CqInv k s q p reported)
    (hring : Holds (2 ^ k) s.cq.cells p q) (hi : i = min q.length s.cq.cqe) :
    s.cleanStep ⟨rsn, srq, .scan ((p + i) % 4294967296)⟩ =
      { s with clean := some ⟨rsn, srq, .sweep ((p + i) % 4294967296) 0 []⟩ } := by
  have hsize := h.size
  have hget := getSwCqe_eq hsize (by omega) (p + i)
  rw [hring.get_eq i (by omega)] at hget
  by_cases hfull : i = q.length
  · rw [List.getElem?_eq_none (by omega)] at hget
    simp only [CqState.cleanStep, hget]
  · rw [List.getElem?_eq_getElem (by omega)] at hget
    have heq : (p + i) % 4294967296 = (s.cq.consIndex + s.cq.cqe) % 4294967296 := by
      rw [h.cons, show i = s.cq.cqe by omega, Nat.mod_add_mod]
    simp only [CqState.cleanStep, hget, if_pos heq]

/-- Then the sweep starts. -/
theorem SweepInv.start (hring : Holds (2 ^ k) cq.cells p q) (hi : i = min q.length cq.cqe) :
    SweepInv k cq q p rsn srq i i 0 [] where
  swept := hring.swept (by omega)
  le := by omega
  rest := by
    by_cases hfull : i = cq.cqe
    · exact .inl hfull
    · refine .inr fun c hc => ?_
      rw [List.drop_eq_nil_of_le (by omega)] at hc
      cases hc
  frees := by
    rw [List.drop_eq_nil_of_le (List.length_take_le i q)]
    rfl

/-- What a round of the sweep does to the queue and to its indices. -/
theorem SweepInv.sweepOne (hk : k ≤ 23) (hsize : cq.cqe + 1 = 2 ^ k)
    (h : SweepInv k cq q p rsn srq m (i + 1) nfreed srqFreed) :
    ∃ buf nfreed' srqFreed',
      cq.sweepOne rsn srq ((p + i) % 4294967296) nfreed srqFreed =
        ({ cq with buf }, nfreed', srqFreed') ∧
      SweepInv k { cq with buf } q p rsn srq m i nfreed' srqFreed' := by
  obtain ⟨hi, hget⟩ := h.swept.get_next
  have hentry : (cq.buf ((p + i) % 4294967296 &&& cq.cqe)).cqe = q[i] := by
    rw [and_mask hsize (by omega)]
    exact buf_of_get hget
  have hfrees := h.frees
  have hcons := congrArg (srqFrees srq rsn) (h.swept.drop_eq hi)
  rw [srqFrees_cons, ← hfrees] at hcons
  simp only [Cq.sweepOne, hentry]
  by_cases hrsn : q[i].qpn = rsn
  · refine ⟨cq.buf, _, _, by rw [if_pos hrsn], ?_⟩
    refine ⟨h.swept.drop_next hi (by simp [hrsn]), h.le, h.rest, ?_⟩
    rw [hcons]
    by_cases hsrq : srq = true ∧ q[i].srqn ≠ 0
    · rw [if_pos hsrq, if_pos ⟨hrsn, hsrq⟩]
    · rw [if_neg hsrq, if_neg fun h => hsrq h.2, List.append_nil]
  · have hkeep : decide (q[i].qpn = rsn) = false := decide_eq_false hrsn
    rw [if_neg fun h => hrsn h.1, List.append_nil] at hcons
    by_cases hfreed : nfreed = 0
    · subst hfreed
      refine ⟨cq.buf, _, _, by rw [if_neg hrsn, if_neg (by simp)], ?_⟩
      exact ⟨h.swept.keep_next hi hkeep, h.le, h.rest, hcons.symm⟩
    · have hdest : ((p + i) % 4294967296 + nfreed) &&& cq.cqe = (p + (i + nfreed)) % 2 ^ k := by
        rw [and_cqe hsize, ← Nat.mod_add_mod, ← and_cqe hsize ((p + i) % 4294967296),
          and_mask hsize (by omega), Nat.mod_add_mod, Nat.add_assoc]
      refine ⟨(cq.copy ((p + (i + nfreed)) % 2 ^ k) ((p + i) % 2 ^ k)).buf, nfreed, srqFreed, ?_, ?_⟩
      · rw [if_neg hrsn, if_pos hfreed, hdest, and_mask hsize (by omega)]
        rfl
      · refine ⟨?_, h.le, h.rest, hcons.symm⟩
        have hmove := h.swept.move_next hi (Nat.pos_of_ne_zero hfreed) hkeep
        rw [← cells_copy] at hmove
        exact hmove

/-- The entries behind those that were swept are not of the queue pair, unless the ring was
    full. -/
theorem SweepInv.cleaned_eq (h : SweepInv k cq q p rsn srq m i nfreed srqFreed)
    (hsize : cq.cqe + 1 = 2 ^ k) :
    ((q.take m).filter fun c => !decide (c.qpn = rsn)) ++ q.drop m = cleaned (2 ^ k) rsn q := by
  rw [cleaned, show 2 ^ k - 1 = cq.cqe by omega]
  rcases h.rest with rfl | hrest
  · rfl
  · have hle := h.le
    have hsplit : q.take cq.cqe = q.take m ++ (q.drop m).take (cq.cqe - m) := by
      rw [← List.take_add, Nat.add_sub_cancel' hle]
    have hdrop : q.drop cq.cqe = (q.drop m).drop (cq.cqe - m) := by
      rw [List.drop_drop, Nat.add_sub_cancel' hle]
    have hkeep : ((q.drop m).take (cq.cqe - m)).filter (fun c => !decide (c.qpn = rsn)) =
        (q.drop m).take (cq.cqe - m) :=
      List.filter_eq_self.mpr fun c hc => by simpa using hrest c (List.mem_of_mem_take hc)
    rw [hsplit, hdrop, List.filter_append, hkeep, List.append_assoc, List.take_append_drop]

theorem SweepInv.srqFreed_eq (h : SweepInv k cq q p rsn srq m 0 nfreed srqFreed)
    (hsize : cq.cqe + 1 = 2 ^ k) : srqFreed = srqFrees srq rsn (q.take (2 ^ k - 1)) := by
  rw [h.frees, List.drop_zero, show 2 ^ k - 1 = cq.cqe by omega]
  rcases h.rest with rfl | hrest
  · rfl
  · have hsplit : q.take cq.cqe = q.take m ++ (q.drop m).take (cq.cqe - m) := by
      rw [← List.take_add, Nat.add_sub_cancel' h.le]
    have hnone : ((q.drop m).take (cq.cqe - m)).reverse.filter
        (fun c => decide (c.qpn = rsn) && srq && decide (c.srqn ≠ 0)) = [] := by
      rw [List.filter_eq_nil_iff]
      intro c hc
      have := hrest c (List.mem_of_mem_take (List.mem_reverse.mp hc))
      simp [this]
    rw [hsplit, srqFrees, srqFrees, List.reverse_append, List.filter_append, hnone, List.nil_append]

/-- A round of the sweep. -/
theorem cleanStep_sweep (hk : k ≤ 23) (h : CqInv k s q p reported)
    (hsweep : SweepInv k s.cq q p rsn srq m (i + 1) nfreed srqFreed) :
    ∃ buf nfreed' srqFreed',
      s.cleanStep ⟨rsn, srq, .sweep ((p + (i + 1)) % 4294967296) nfreed srqFreed⟩ =
        { s with
          cq := { s.cq with buf }
          clean := some ⟨rsn, srq, .sweep ((p + i) % 4294967296) nfreed' srqFreed'⟩ } ∧
      SweepInv k { s.cq with buf } q p rsn srq m i nfreed' srqFreed' := by
  have hpow : 2 ^ k ≤ 8388608 := Nat.pow_le_pow_right (by decide) (n := 2) hk
  have hsize := h.size
  have hle := hsweep.le
  have him := hsweep.swept.le
  obtain ⟨buf, nfreed', srqFreed', hone, hnext⟩ := hsweep.sweepOne hk hsize
  have hpred : ((p + (i + 1)) % 4294967296 + 4294967295) % 4294967296 = (p + i) % 4294967296 := by
    omega
  have hloop : 0 ≤ wrapInt ((((p + i) % 4294967296 : Nat) : Int) - (s.cq.consIndex : Int)) := by
    rw [h.cons, wrapInt_sub_index (by omega)]
    exact Int.natCast_nonneg i
  exact ⟨buf, nfreed', srqFreed', by simp only [CqState.cleanStep, hpred, if_pos hloop, hone], hnext⟩

/-- The sweep is at its end: the consumer index moves over the entries that became free. -/
theorem cleanStep_sweep_end (h : CqInv k s q p reported)
    (hsweep : SweepInv k s.cq q p rsn srq m 0 nfreed srqFreed) :
    ∃ p' reported',
      CqInv k (s.cleanStep ⟨rsn, srq, .sweep (p % 4294967296) nfreed srqFreed⟩)
        (cleaned (2 ^ k) rsn q) p' reported' ∧
      (s.cleanStep ⟨rsn, srq, .sweep (p % 4294967296) nfreed srqFreed⟩).clean = none := by
  have hsize := h.size
  have hholds := hsweep.swept.holds
  rw [hsweep.cleaned_eq hsize] at hholds
  have hloop : ¬0 ≤ wrapInt
      ((((p % 4294967296 + 4294967295) % 4294967296 : Nat) : Int) - (s.cq.consIndex : Int)) := by
    rw [h.cons, wrapInt_pred_index]
    decide
  have hlen : (cleaned (2 ^ k) rsn q).length + nfreed = q.length := by
    have hsum := hsweep.swept.sum
    have hle := hsweep.swept.le_length
    rw [List.drop_zero, Nat.zero_add] at hsum
    rw [← hsweep.cleaned_eq hsize, List.length_append, List.length_drop]
    omega
  have hlog : Run.exec (fifoStep (2 ^ k)) [] (s.log ++ [.cleaned rsn srq srqFreed]) =
      some (cleaned (2 ^ k) rsn q) := by
    rw [Run.exec_concat_eq_some]
    exact ⟨q, h.log, if_pos (hsweep.srqFreed_eq hsize)⟩
  simp only [CqState.cleanStep, if_neg hloop]
  have hprod := h.prod
  have hroom := h.room
  by_cases hfreed : nfreed = 0
  · subst hfreed
    refine ⟨p, reported, ?_, trivial⟩
    simp only [ne_eq, not_true_eq_false, if_false]
    exact
      { h with
        prod := by
          change s.prod = _
          omega
        room := by omega
        ring := hholds
        log := hlog }
  · refine ⟨p + nfreed, p + nfreed, ?_, trivial⟩
    simp only [ne_eq, hfreed, not_false_eq_true, if_true]
    exact
      { size := hsize
        cons := by
          rw [Cq.setConsIndex, h.cons]
          exact Nat.mod_add_mod p _ nfreed
        prod := by
          change s.prod = _
          omega
        ci := by
          rw [setConsIndex_setCi, h.cons, Nat.mod_add_mod, Nat.mod_mod_of_dvd _ (by decide)]
        le := Nat.le_refl _
        room := by
          have := hholds.length_le
          omega
        ring := hholds
        log := hlog }

end CleanSteps

/-- A round of `__mlx5_ib_cq_clean` leaves the queue as it is, or is the last one and removes
    the entries. -/
theorem CqInv.cleanStep (hk : k ≤ 23) (h : CqInv k s q p reported) {c : Clean}
    (hclean : s.clean = some c) :
    ∃ q' p' reported', CqInv k (s.cleanStep c) q' p' reported' ∧
      (s.cleanStep c).rounds < s.rounds ∧
      ((s.cleanStep c).clean.map Clean.rsn = some c.rsn ∧ q' = q ∨
        (s.cleanStep c).clean = none ∧ q' = cleaned (2 ^ k) c.rsn q) := by
  have hpow : 2 ^ k ≤ 8388608 := Nat.pow_le_pow_right (by decide) (n := 2) hk
  have hsize := h.size
  have hcons := h.cons
  have hring := h.ring
  rw [hclean] at hring
  match c, hring with
  | ⟨rsn, srq, .scan prodIndex⟩, ⟨hholds, i, hi, hprod⟩ =>
    subst hprod
    rcases Nat.lt_or_eq_of_le hi with hlt | heq
    · rw [cleanStep_scan hk h hholds hlt]
      refine ⟨q, p, reported, { h with ring := ⟨hholds, i + 1, hlt, rfl⟩ }, ?_, .inl ⟨rfl, rfl⟩⟩
      simp only [CqState.rounds, hclean, hcons]
      omega
    · rw [cleanStep_scan_end hk h hholds heq]
      refine ⟨q, p, reported, { h with ring := ⟨i, i, .start hholds heq, rfl⟩ }, ?_,
        .inl ⟨rfl, rfl⟩⟩
      simp only [CqState.rounds, hclean, hcons]
      omega
  | ⟨rsn, srq, .sweep prodIndex nfreed srqFreed⟩, ⟨m, i, hsweep, hprod⟩ =>
    subst hprod
    cases i with
    | zero =>
      obtain ⟨p', reported', hend, hnone⟩ := cleanStep_sweep_end h hsweep
      refine ⟨_, p', reported', hend, ?_, .inr ⟨hnone, rfl⟩⟩
      rw [CqState.rounds, Nat.add_zero, hnone]
      simp only [CqState.rounds, hclean]
      exact Nat.succ_pos _
    | succ i =>
      have hle := hsweep.le
      have him := hsweep.swept.le
      obtain ⟨buf, nfreed', srqFreed', heq, hnext⟩ := cleanStep_sweep hk h hsweep
      rw [heq]
      refine ⟨q, p, reported, { h with ring := ⟨m, i, hnext, rfl⟩ }, ?_, .inl ⟨rfl, rfl⟩⟩
      simp only [CqState.rounds, hclean, hcons]
      omega

theorem CqInv.init (k : Nat) : CqInv k (.init k) [] 0 0 where
  size := Nat.sub_add_cancel (Nat.two_pow_pos k)
  cons := rfl
  prod := rfl
  ci := rfl
  le := Nat.le_refl 0
  room := Nat.zero_le _
  ring := .nil (fun _ => rfl) 0
  log := rfl

theorem CqInv.step (hk : k ≤ 23) (h : CqInv k s q p reported) {e : CqEvent}
    (hstep : cqStep s e = some s') : ∃ q' p' reported', CqInv k s' q' p' reported' := by
  cases e with
  | write c => exact ⟨_, _, _, h.write hk hstep⟩
  | poll =>
    obtain ⟨p', h'⟩ := h.poll hk hstep
    exact ⟨_, p', reported, h'⟩
  | report => exact ⟨_, _, _, h.report hstep⟩
  | clean rsn srq => exact ⟨_, _, _, h.clean hstep⟩
  | cleanStep =>
    simp only [cqStep, Option.map_eq_some_iff] at hstep
    obtain ⟨c, hclean, rfl⟩ := hstep
    obtain ⟨q', p', reported', h', -⟩ := h.cleanStep hk hclean
    exact ⟨q', p', reported', h'⟩

theorem CqInv.of_run (hk : k ≤ 23) {es : List CqEvent}
    (hrun : Run.exec cqStep (.init k) es = some s) : ∃ q p reported, CqInv k s q p reported :=
  Run.exec_invariant (I := fun s => ∃ q p reported, CqInv k s q p reported)
    (fun _ _ _ ⟨_, _, _, h⟩ hstep => h.step hk hstep) ⟨_, _, _, .init k⟩ hrun

theorem CqInv.swCqes_eq (hk : k ≤ 23) (h : CqInv k s q p reported) (hidle : s.clean = none) :
    s.cq.swCqes = q := by
  have hring := h.ring
  rw [hidle] at hring
  exact Cq.swCqes_eq h.size (by omega) h.cons hring

/-- Under every interleaving of the device with polls and removals, the completion queue is
    a queue: what took effect, replayed on a list of at most `2 ^ k` entries, is possible
    there and leaves what further polls find. -/
theorem cq_linearizable {k : Nat} (hk : k ≤ 23) {es : List CqEvent} {s : CqState}
    (hrun : Run.exec cqStep (.init k) es = some s) :
    ∃ q, Run.exec (fifoStep (2 ^ k)) [] s.log = some q ∧ (s.clean = none → s.cq.swCqes = q) := by
  obtain ⟨q, p, reported, h⟩ := CqInv.of_run hk hrun
  exact ⟨q, h.log, h.swCqes_eq hk⟩

/-- A completion of a receive. -/
def recvCqe (qpn wqeCounter : Nat) : Cqe := ⟨.respSend, qpn, wqeCounter, 1, 0, 64, 0, 0⟩

-- queue pair 7 is removed while the device writes another completion of queue pair 9
theorem cq_linearizable_clean :
    ∃ s, Run.exec cqStep (.init 2)
        [.write (recvCqe 9 0), .write (recvCqe 7 1), .write (recvCqe 9 2), .poll, .clean 7 true,
          .cleanStep, .cleanStep, .cleanStep, .write (recvCqe 9 3), .cleanStep, .cleanStep,
          .cleanStep, .poll] = some s ∧
      ∃ q, Run.exec (fifoStep (2 ^ 2)) [] s.log = some q ∧ (s.clean = none → s.cq.swCqes = q) := by
  obtain ⟨s, hs⟩ := Option.isSome_iff_exists.mp
    (show (Run.exec cqStep (.init 2)
        [.write (recvCqe 9 0), .write (recvCqe 7 1), .write (recvCqe 9 2), .poll, .clean 7 true,
          .cleanStep, .cleanStep, .cleanStep, .write (recvCqe 9 3), .cleanStep, .cleanStep,
          .cleanStep, .poll]).isSome = true by decide)
  exact ⟨s, hs, cq_linearizable (by decide) hs⟩

/-! ## A whole removal -/

/-- What a removal of `rsn` and the device leave to each other: the device writes nothing for
    the queue pair, which is in RESET. -/
def CqEvent.Quiet (rsn : Nat) : CqEvent → Prop
  | .write c => c.qpn ≠ rsn
  | .cleanStep => True
  | _ => False

def CqEvent.isRound : CqEvent → Bool
  | .cleanStep => true
  | _ => false

def CqEvent.written : CqEvent → Option Cqe
  | .write c => some c
  | _ => none

/-- What the queue is once the removal of `rsn` that is going on is finished. -/
def CqState.left (s : CqState) (n rsn : Nat) (q : List Cqe) : List Cqe :=
  match s.clean with
  | none => q
  | some _ => cleaned n rsn q

theorem cleaned_concat {n rsn : Nat} {c : Cqe} (hc : c.qpn ≠ rsn) (q : List Cqe) :
    cleaned n rsn (q ++ [c]) = cleaned n rsn q ++ [c] := by
  rcases Nat.lt_or_ge q.length (n - 1) with hlt | hge
  · have hone : (q ++ [c]).length = q.length + 1 := List.length_append
    rw [cleaned, cleaned, List.take_of_length_le (by omega), List.take_of_length_le (by omega),
      List.drop_eq_nil_of_le (by omega), List.drop_eq_nil_of_le (by omega), List.filter_append]
    simp [hc]
  · rw [cleaned, cleaned, List.take_append_of_le_length hge, List.drop_append_of_le_length hge,
      List.append_assoc]

/-- All entries of the queue pair are removed if none is behind those that are looked at. -/
theorem cleaned_eq_filter {n rsn : Nat} (h : ∀ c ∈ q.drop (n - 1), c.qpn ≠ rsn) :
    cleaned n rsn q = q.filter fun c => !decide (c.qpn = rsn) := by
  have hkeep : (q.drop (n - 1)).filter (fun c => !decide (c.qpn = rsn)) = q.drop (n - 1) :=
    List.filter_eq_self.mpr fun c hc => by simpa using h c hc
  rw [cleaned, ← hkeep, ← List.filter_append, List.take_append_drop]

/-- An entry of the queue pair stays only if the queue was full and it is the newest. -/
theorem exists_mem_cleaned {n rsn : Nat} (hn : 0 < n) (hlen : q.length ≤ n) :
    (∃ c ∈ cleaned n rsn q, c.qpn = rsn) ↔ q.length = n ∧ ∃ c ∈ q.getLast?, c.qpn = rsn := by
  have hkept : (∃ c ∈ cleaned n rsn q, c.qpn = rsn) ↔ ∃ c ∈ q.drop (n - 1), c.qpn = rsn := by
    simp only [cleaned, List.mem_append, List.mem_filter, Bool.not_eq_true', decide_eq_false_iff_not]
    constructor
    · rintro ⟨c, ⟨_, hne⟩ | hc, heq⟩
      · exact absurd heq hne
      · exact ⟨c, hc, heq⟩
    · rintro ⟨c, hc, heq⟩
      exact ⟨c, .inr hc, heq⟩
  rw [hkept]
  rcases Nat.lt_or_eq_of_le hlen with hlt | heq
  · rw [List.drop_eq_nil_of_le (by omega)]
    simp [Nat.ne_of_lt hlt]
  · have hne : q ≠ [] := List.ne_nil_of_length_pos (by omega)
    rw [← heq, List.drop_length_sub_one hne, List.getLast?_eq_some_getLast hne]
    simp

/-- One step of a removal, or of the device during it. -/
theorem CqInv.left_step (hk : k ≤ 23) (h : CqInv k s q p reported) {rsn : Nat} {e : CqEvent}
    (hrsn : s.clean.all (fun c => decide (c.rsn = rsn)) = true) (hquiet : e.Quiet rsn)
    (hstep : cqStep s e = some s') :
    ∃ q' p' reported', CqInv k s' q' p' reported' ∧
      s'.clean.all (fun c => decide (c.rsn = rsn)) = true ∧
      s'.left (2 ^ k) rsn q' = s.left (2 ^ k) rsn q ++ e.written.toList ∧
      s'.rounds + (if e.isRound then 1 else 0) ≤ s.rounds := by
  cases e with
  | poll => cases hquiet
  | report => cases hquiet
  | clean _ _ => cases hquiet
  | write c =>
    have h' := h.write hk hstep
    simp only [cqStep] at hstep
    split at hstep
    case isFalse => cases hstep
    case isTrue =>
      cases hstep
      refine ⟨_, _, _, h', hrsn, ?_, Nat.le_refl _⟩
      cases hclean : s.clean with
      | none => simp [CqState.left, hclean, CqEvent.written]
      | some _ => simpa [CqState.left, hclean, CqEvent.written] using cleaned_concat hquiet q
  | cleanStep =>
    simp only [cqStep, Option.map_eq_some_iff] at hstep
    obtain ⟨c, hclean, rfl⟩ := hstep
    rw [hclean] at hrsn
    obtain rfl : c.rsn = rsn := by simpa using hrsn
    obtain ⟨q', p', reported', h', hrounds, hq⟩ := h.cleanStep hk hclean
    refine ⟨q', p', reported', h', ?_, ?_, hrounds⟩
    · rcases hq with ⟨hgo, -⟩ | ⟨hend, -⟩
      · obtain ⟨c', hc', heq⟩ := Option.map_eq_some_iff.mp hgo
        simp [hc', heq]
      · simp [hend]
    · rcases hq with ⟨hgo, rfl⟩ | ⟨hend, rfl⟩
      · obtain ⟨c', hc', heq⟩ := Option.map_eq_some_iff.mp hgo
        simp [CqState.left, hclean, hc', CqEvent.written]
      · simp [CqState.left, hclean, hend, CqEvent.written]

theorem CqInv.left_run (hk : k ≤ 23) {rsn : Nat} {es : List CqEvent} :
    ∀ {s q p reported}, CqInv k s q p reported →
      s.clean.all (fun c => decide (c.rsn = rsn)) = true → (∀ e ∈ es, e.Quiet rsn) →
      Run.exec cqStep s es = some s' →
      ∃ q' p' reported', CqInv k s' q' p' reported' ∧
        s'.left (2 ^ k) rsn q' = s.left (2 ^ k) rsn q ++ es.filterMap CqEvent.written ∧
        s'.rounds + es.countP CqEvent.isRound ≤ s.rounds := by
  induction es with
  | nil =>
    intro s q p reported h _ _ hrun
    cases hrun
    exact ⟨q, p, reported, h, (List.append_nil _).symm, Nat.le_refl _⟩
  | cons e es ih =>
    intro s q p reported h hrsn hquiet hrun
    obtain ⟨s₁, hstep, hrest⟩ := Run.exec_cons_eq_some.mp hrun
    obtain ⟨q₁, p₁, reported₁, h₁, hrsn₁, hleft₁, hrounds₁⟩ :=
      h.left_step hk hrsn (hquiet e List.mem_cons_self) hstep
    obtain ⟨q', p', reported', h', hleft, hrounds⟩ :=
      ih h₁ hrsn₁ (fun e he => hquiet e (List.mem_cons_of_mem _ he)) hrest
    refine ⟨q', p', reported', h', ?_, ?_⟩
    · rw [hleft, hleft₁, List.append_assoc]
      cases hw : e.written <;> simp [hw]
    · rw [List.countP_cons]
      omega

/-- A removal is over after `2 ^ (k + 1)` rounds, whatever the device writes meanwhile. It
    leaves the completions of the other queue pairs in their order, and of its own the newest,
    if the ring was full and that was one. -/
theorem cq_clean_exact {k : Nat} (hk : k ≤ 23) {es es' : List CqEvent} {s s' : CqState}
    {rsn : Nat} {srq : Bool} (hrun : Run.exec cqStep (.init k) es = some s)
    (hquiet : ∀ e ∈ es', e.Quiet rsn)
    (hclean : Run.exec cqStep s (.clean rsn srq :: es') = some s') :
    (2 ^ (k + 1) ≤ es'.countP CqEvent.isRound → s'.clean = none) ∧
      (s'.clean = none →
        s'.cq.swCqes = cleaned (2 ^ k) rsn s.cq.swCqes ++ es'.filterMap CqEvent.written ∧
        ((∃ c ∈ s'.cq.swCqes, c.qpn = rsn) ↔
          s.cq.swCqes.length = 2 ^ k ∧ ∃ c ∈ s.cq.swCqes.getLast?, c.qpn = rsn)) := by
  obtain ⟨q, p, reported, h⟩ := CqInv.of_run hk hrun
  obtain ⟨s₀, hstart, hrest⟩ := Run.exec_cons_eq_some.mp hclean
  have h₀ := h.clean hstart
  simp only [cqStep] at hstart
  split at hstart
  case h_1 => cases hstart
  case h_2 hidle =>
    cases hstart
    have hring := h.ring
    rw [hidle] at hring
    have hq : s.cq.swCqes = q := h.swCqes_eq hk hidle
    obtain ⟨q', p', reported', h', hleft, hrounds⟩ := h₀.left_run hk (by simp) hquiet hrest
    refine ⟨fun hcount => ?_, fun hdone => ?_⟩
    · have hstart : CqState.rounds
          { s with clean := some ⟨rsn, srq, .scan s.cq.consIndex⟩ } ≤ 2 ^ (k + 1) := by
        have := h.size
        simp only [CqState.rounds]
        omega
      cases hcl : s'.clean with
      | none => rfl
      | some c =>
        obtain ⟨_, _, _, _, hlt, _⟩ := h'.cleanStep hk hcl
        omega
    · have hq' : s'.cq.swCqes = q' := h'.swCqes_eq hk hdone
      simp only [CqState.left, hdone] at hleft
      rw [hq', hleft, hq]
      refine ⟨rfl, ?_⟩
      rw [← exists_mem_cleaned (Nat.two_pow_pos k) (Holds.length_le hring)]
      have hothers : ∀ c ∈ es'.filterMap CqEvent.written, c.qpn ≠ rsn := by
        intro c hc
        obtain ⟨e, he, hw⟩ := List.mem_filterMap.mp hc
        have := hquiet e he
        cases e <;> cases hw
        exact this
      constructor
      · rintro ⟨c, hc, heq⟩
        rcases List.mem_append.mp hc with hold | hnew
        · exact ⟨c, hold, heq⟩
        · exact absurd heq (hothers c hnew)
      · rintro ⟨c, hc, heq⟩
        exact ⟨c, List.mem_append_left _ hc, heq⟩

-- the ring is full and its newest entry is of queue pair 7: that one stays
theorem cq_clean_exact_full :
    ∃ s s', Run.exec cqStep (.init 1) [.write (recvCqe 9 0), .write (recvCqe 7 1)] = some s ∧
      Run.exec cqStep s [.clean 7 false, .cleanStep, .cleanStep, .cleanStep, .cleanStep] =
        some s' ∧
      s'.cq.swCqes = [recvCqe 9 0, recvCqe 7 1] := by
  obtain ⟨s, hs⟩ := Option.isSome_iff_exists.mp
    (show (Run.exec cqStep (.init 1) [.write (recvCqe 9 0), .write (recvCqe 7 1)]).isSome by decide)
  have hheld : s.cq.swCqes = [recvCqe 9 0, recvCqe 7 1] := by
    cases hs
    decide
  obtain ⟨s', hs'⟩ := Option.isSome_iff_exists.mp
    (show (Run.exec cqStep s
        [.clean 7 false, .cleanStep, .cleanStep, .cleanStep, .cleanStep]).isSome by
      cases hs
      decide)
  refine ⟨s, s', hs, hs', ?_⟩
  have hquiet : ∀ e ∈ List.replicate 4 CqEvent.cleanStep, e.Quiet 7 :=
    List.forall_mem_replicate.mpr (.inr trivial)
  obtain ⟨hdone, hleft⟩ := cq_clean_exact (by decide) hs hquiet hs'
  rw [(hleft (hdone (by decide))).1, hheld]
  rfl

end Driver
