-- SUMMARY: The ring of receive requests (`RecvHelper`) and what one `post_recvs` call hands to a queue.
import Mathlib.Logic.Function.Basic
import KRCore.Base.Ring
import KRCore.Base.Word

/-!
# The receive ring

`RecvHelper<N>` keeps `N` receive work requests whose `next` pointers form a
ring, and a cursor. `post_recvs` cuts the ring at the last request it wants to
post, hands the list that starts at the cursor to the driver, and closes the
ring again. A pointer to `wrs[i]` is written as the index `i`.
-/

/-- A scatter entry of the receive buffer. -/
structure IbSge where
  addr : Nat
  length : Nat
  lkey : Nat
deriving DecidableEq, Repr

/-- A receive work request of a ring of size `N`. -/
structure IbRecvWr (N : Nat) where
  wrId : Nat
  next : Option (Fin N)
  sgList : Option (Fin N)
  numSge : Nat
deriving DecidableEq

/-- What the driver answers to `ib_post_recv` (or `ib_post_srq_recv`). On an
    error the requests before `bad_wr` have been accepted. -/
inductive PostAnswer where
  | ok
  | err (accepted : Nat) (errno : Int)
deriving DecidableEq, Repr

/-- The part of a posted list that the driver has accepted. -/
def PostAnswer.accepted {α : Type*} : PostAnswer → List α → List α
  | .ok, l => l
  | .err n _, l => l.take n

theorem PostAnswer.accepted_sublist {α : Type*} (ans : PostAnswer) (l : List α) :
    (ans.accepted l).Sublist l := by
  cases ans with
  | ok => exact List.Sublist.refl l
  | err n errno => exact List.take_sublist n l

/-- The receive ring. `capacity` is always `N`. -/
structure RecvHelper (N : Nat) where
  wrs : Fin N → IbRecvWr N
  sges : Fin N → IbSge
  curIdx : Nat
  enSz : Nat

namespace RecvHelper

variable {N : Nat} [NeZero N]

/-- `wrs[idx % capacity]`. -/
def getRecvWrPtr (N : Nat) [NeZero N] (idx : Nat) : Fin N := Ring.pos N idx

def setNext (h : RecvHelper N) (i : Fin N) (next : Option (Fin N)) : RecvHelper N :=
  { h with wrs := Function.update h.wrs i { h.wrs i with next } }

/-! ## Creation -/

/-- The zeroed request and scatter arrays. -/
def zeroed (enSz : Nat) : RecvHelper N where
  wrs := fun _ => { wrId := 0, next := none, sgList := none, numSge := 0 }
  sges := fun _ => { addr := 0, length := 0, lkey := 0 }
  curIdx := 0
  enSz

/-- One round of the loop of `create`: entry `i` gets the buffer at `base`. -/
def initEntry (paToVa : Nat → Nat) (entrySize lkey : Nat) (h : RecvHelper N) (i base : Nat) :
    RecvHelper N :=
  let p := getRecvWrPtr N i
  { h with
    sges := Function.update h.sges p { addr := base, length := entrySize % 2 ^ 32, lkey }
    wrs := Function.update h.wrs p
      { wrId := paToVa base, next := some (getRecvWrPtr N (i + 1)), sgList := some p, numSge := 1 } }

/-- The ring and the running `base` after `n` rounds of the loop of `create`. -/
def createLoop (paToVa : Nat → Nat) (entrySize lkey baseAddr : Nat) : Nat → RecvHelper N × Nat
  | 0 => (zeroed entrySize, baseAddr)
  | n + 1 =>
    let (h, base) := createLoop paToVa entrySize lkey baseAddr n
    (initEntry paToVa entrySize lkey h n base, base + entrySize)

def create (paToVa : Nat → Nat) (entrySize lkey baseAddr : Nat) : RecvHelper N :=
  (createLoop paToVa entrySize lkey baseAddr N).1

/-- `sizeof(struct ib_recv_wr)` and `sizeof(struct ib_sge)`. -/
def ibRecvWrSz : Nat := 32
def ibSgeSz : Nat := 16

/-- The loop of `create` with its overflow checks. -/
def tryCreateLoop (paToVa : Nat → Nat) (entrySize lkey baseAddr : Nat) :
    Nat → Option (RecvHelper N × Nat)
  | 0 => some (zeroed entrySize, baseAddr)
  | n + 1 => do
    let (h, base) ← tryCreateLoop paToVa entrySize lkey baseAddr n
    let next ← Word.checkedAdd 64 base entrySize
    some (initEntry paToVa entrySize lkey h n base, next)

/-- `create` where it does not panic: the arrays have a size, and the addresses do
    not overflow. -/
def tryCreate (paToVa : Nat → Nat) (entrySize lkey baseAddr : Nat) : Option (RecvHelper N) := do
  let _ ← Word.checkedMul 64 N ibRecvWrSz
  let _ ← Word.checkedMul 64 N ibSgeSz
  let (h, _) ← tryCreateLoop paToVa entrySize lkey baseAddr N
  some h

/-! ## Posting -/

def freezeAt (h : RecvHelper N) (i : Nat) : RecvHelper N :=
  h.setNext (getRecvWrPtr N i) none

def freezeDoneAt (h : RecvHelper N) (i : Nat) : RecvHelper N :=
  h.setNext (getRecvWrPtr N i) (some (getRecvWrPtr N (i + 1)))

def headerPtr (h : RecvHelper N) : Fin N := getRecvWrPtr N h.curIdx

/-- The list the driver finds at `headerPtr`. -/
def postedList (h : RecvHelper N) : List (Fin N) :=
  Ring.follow (fun i => (h.wrs i).next) N (some h.headerPtr)

/-- The effect of a `post_recvs` call: the ring, the requests the queue now
    holds in addition, and the result. -/
structure Posted (N : Nat) where
  helper : RecvHelper N
  slots : List (Fin N)
  result : Except Int Unit

/-- `post_recvs`. `none` is the panic of the checked arithmetic on
    `cur_idx + buffer_sz - 1`. -/
def postRecvs (h : RecvHelper N) (bufferSz : Nat) (answer : PostAnswer) : Option (Posted N) := do
  let sum ← Word.checkedAdd 64 h.curIdx bufferSz
  let last ← Word.checkedSub sum 1
  let tail := last % N
  let frozen := h.freezeAt tail
  let slots := answer.accepted frozen.postedList
  let thawed := frozen.freezeDoneAt tail
  match answer with
  | .ok => some { helper := { thawed with curIdx := (tail + 1) % N }, slots, result := .ok () }
  | .err _ errno => some { helper := thawed, slots, result := .error errno }

/-! ## The ring is closed between calls -/

/-- The `next` pointers form the full cycle and the cursor is a position. -/
structure Linked (h : RecvHelper N) : Prop where
  next : ∀ i : Nat, (h.wrs (Ring.pos N i)).next = some (Ring.pos N (i + 1))
  cur : h.curIdx < N

/-- The number of requests that a call with count `k` hands over: at least one
    and at most `N`, whatever `k` is. -/
def span (N k : Nat) : Nat := (k + (N - 1)) % N + 1

theorem span_le (k : Nat) : span N k ≤ N := by
  have := Nat.mod_lt (k + (N - 1)) (Nat.pos_of_neZero N)
  unfold span
  omega

omit [NeZero N] in
theorem span_of_le {k : Nat} (h1 : 1 ≤ k) (hN : k ≤ N) : span N k = k := by
  have : (k + (N - 1)) % N = k - 1 := by
    rw [show k + (N - 1) = (k - 1) + N by omega, Nat.add_mod_right]
    exact Nat.mod_eq_of_lt (by omega)
  unfold span
  omega

theorem span_eq_self_iff {k : Nat} (h1 : 0 < k) : span N k = k ↔ k ≤ N := by
  constructor
  · intro h
    rw [← h]
    exact span_le k
  · exact span_of_le h1

/-- A call with count `k` from position `cur` on cuts the ring at the last
    position of the window it hands over. -/
theorem tail_eq {cur k : Nat} (hpos : 1 ≤ cur + k) :
    Ring.pos N ((cur + k - 1) % N) = Ring.pos N (cur + (span N k - 1)) := by
  have hN := Nat.pos_of_neZero N
  rw [Ring.pos_mod, Ring.pos_eq_iff]
  simp only [span, Nat.add_sub_cancel, Nat.add_mod_mod]
  rw [show cur + (k + (N - 1)) = (cur + k - 1) + N by omega, Nat.add_mod_right]

omit [NeZero N] in
@[simp] theorem setNext_wrs_self (h : RecvHelper N) (i : Fin N) (next : Option (Fin N)) :
    ((h.setNext i next).wrs i).next = next := by
  simp [setNext]

omit [NeZero N] in
theorem setNext_wrs_ne {h : RecvHelper N} {i j : Fin N} (hne : j ≠ i) (next : Option (Fin N)) :
    (h.setNext i next).wrs j = h.wrs j := by
  simp [setNext, hne]

/-- Closing the ring undoes the cut. -/
theorem Linked.freezeDoneAt_freezeAt {h : RecvHelper N} (hl : h.Linked) (i : Nat) :
    (h.freezeAt i).freezeDoneAt i = h := by
  have hnext := hl.next i
  cases h with
  | mk wrs sges curIdx enSz =>
    simp only [freezeAt, freezeDoneAt, setNext, getRecvWrPtr, Function.update_idem,
      Function.update_self, mk.injEq, and_true]
    simp only at hnext
    rw [← hnext]
    exact Function.update_eq_self _ _

/-- The cut list starts at the cursor and is the window of `span N k` positions. -/
theorem Linked.postedList_freezeAt {h : RecvHelper N} (hl : h.Linked) {k : Nat}
    (hpos : 1 ≤ h.curIdx + k) :
    (h.freezeAt ((h.curIdx + k - 1) % N)).postedList = Ring.window N h.curIdx (span N k) := by
  have hspan := span_le (N := N) k
  have htail := tail_eq (N := N) hpos
  have hd : span N k - 1 + 1 = span N k := Nat.sub_add_cancel (Nat.succ_pos _)
  have hcut : Ring.follow (fun i => ((h.freezeAt ((h.curIdx + k - 1) % N)).wrs i).next) N
      (some (Ring.pos N h.curIdx)) = Ring.window N h.curIdx (span N k - 1 + 1) := by
    refine Ring.follow_eq_window (fun j hj => ?_) ?_ (by omega)
    · -- Before the cut the pointers are those of the closed ring.
      have hne : Ring.pos N (h.curIdx + j) ≠ Ring.pos N ((h.curIdx + k - 1) % N) := by
        rw [htail]
        intro heq
        have := Ring.pos_add_inj h.curIdx (by omega) (by omega) heq
        omega
      simp only [freezeAt, getRecvWrPtr, setNext_wrs_ne hne]
      exact hl.next _
    · simp only [freezeAt, getRecvWrPtr, ← htail, setNext_wrs_self]
  rw [hd] at hcut
  exact hcut

/-- What a `post_recvs` call does on a closed ring: it hands over the part that
    the driver accepts of the window at the cursor, and it moves the cursor past
    the window only on success. Nothing else changes. -/
theorem Linked.postRecvs_eq_some {h : RecvHelper N} (hl : h.Linked) {k : Nat}
    {answer : PostAnswer} {out : Posted N} (hpost : h.postRecvs k answer = some out) :
    1 ≤ h.curIdx + k ∧
    out.slots = answer.accepted (Ring.window N h.curIdx (span N k)) ∧
    out.helper = { h with curIdx := if answer = .ok then (h.curIdx + k) % N else h.curIdx } := by
  simp only [postRecvs, Option.bind_eq_bind, Option.bind_eq_some_iff,
    Word.checkedAdd_eq_some, Word.checkedSub_eq_some] at hpost
  obtain ⟨sum, ⟨-, rfl⟩, last, ⟨hpos, rfl⟩, hout⟩ := hpost
  have hlist := hl.postedList_freezeAt hpos
  have hthaw := hl.freezeDoneAt_freezeAt ((h.curIdx + k - 1) % N)
  refine ⟨hpos, ?_⟩
  cases answer with
  | ok =>
    simp only [Option.some.injEq] at hout
    subst hout
    have hcur : ((h.curIdx + k - 1) % N + 1) % N = (h.curIdx + k) % N := by
      rw [Nat.mod_add_mod, Nat.sub_add_cancel hpos]
    simp [hlist, hthaw, hcur]
  | err n errno =>
    simp only [Option.some.injEq] at hout
    subst hout
    simp [hlist, hthaw]

/-- A call with a positive count has an outcome. -/
theorem Linked.exists_postRecvs {h : RecvHelper N} (hl : h.Linked) {k : Nat} (hpos : 1 ≤ k)
    (hfit : k + N ≤ 2 ^ 64) (answer : PostAnswer) :
    ∃ out, RecvHelper.postRecvs h k answer = some out := by
  have hcur := hl.cur
  have hsum : Word.checkedAdd 64 h.curIdx k = some (h.curIdx + k) :=
    Word.checkedAdd_eq_some.mpr ⟨by omega, rfl⟩
  have hsub : Word.checkedSub (h.curIdx + k) 1 = some (h.curIdx + k - 1) :=
    Word.checkedSub_eq_some.mpr ⟨by omega, rfl⟩
  simp only [RecvHelper.postRecvs, hsum, hsub, Option.bind_eq_bind, Option.bind_some]
  cases answer with
  | ok => exact ⟨_, rfl⟩
  | err n errno => exact ⟨_, rfl⟩

theorem Linked.withCur {h : RecvHelper N} (hl : h.Linked) {cur : Nat} (hcur : cur < N) :
    Linked { h with curIdx := cur } :=
  ⟨hl.next, hcur⟩

theorem Linked.postRecvs {h : RecvHelper N} (hl : h.Linked) {k : Nat}
    {answer : PostAnswer} {out : Posted N} (hpost : h.postRecvs k answer = some out) :
    out.helper.Linked := by
  obtain ⟨-, -, hhelper⟩ := hl.postRecvs_eq_some hpost
  rw [hhelper]
  refine hl.withCur ?_
  split
  · exact Nat.mod_lt _ (Nat.pos_of_neZero N)
  · exact hl.cur

/-! ## The ring that `create` builds -/

variable (paToVa : Nat → Nat) (entrySize lkey baseAddr : Nat)

theorem createLoop_snd (n : Nat) :
    (createLoop (N := N) paToVa entrySize lkey baseAddr n).2 = baseAddr + n * entrySize := by
  induction n with
  | zero => simp [createLoop]
  | succ n ih => simp [createLoop, ih, Nat.add_mul, Nat.add_assoc]

theorem createLoop_curIdx (n : Nat) :
    (createLoop (N := N) paToVa entrySize lkey baseAddr n).1.curIdx = 0 := by
  induction n with
  | zero => rfl
  | succ n ih => simpa [createLoop, initEntry] using ih

/-- Entry `i` is written in round `i` and not touched by the later rounds. -/
theorem createLoop_entry {n i : Nat} (hi : i < n) (hn : n ≤ N) :
    (createLoop (N := N) paToVa entrySize lkey baseAddr n).1.wrs (Ring.pos N i) =
      { wrId := paToVa (baseAddr + i * entrySize), next := some (Ring.pos N (i + 1)),
        sgList := some (Ring.pos N i), numSge := 1 } ∧
    (createLoop (N := N) paToVa entrySize lkey baseAddr n).1.sges (Ring.pos N i) =
      { addr := baseAddr + i * entrySize, length := entrySize % 2 ^ 32, lkey } := by
  induction n with
  | zero => omega
  | succ n ih =>
    simp only [createLoop, initEntry, createLoop_snd, getRecvWrPtr]
    by_cases hin : i = n
    · subst hin
      simp
    · have hne : Ring.pos N i ≠ Ring.pos N n := by
        intro heq
        have := Ring.pos_eq_iff.mp heq
        rw [Nat.mod_eq_of_lt (by omega), Nat.mod_eq_of_lt (by omega)] at this
        exact hin this
      simpa [hne] using ih (by omega) (by omega)

theorem tryCreateLoop_succ (n : Nat) :
    tryCreateLoop (N := N) paToVa entrySize lkey baseAddr (n + 1) =
      if baseAddr + (n + 1) * entrySize < 2 ^ 64 then
        some (createLoop paToVa entrySize lkey baseAddr (n + 1))
      else none := by
  induction n with
  | zero =>
    simp only [tryCreateLoop, Word.checkedAdd, createLoop, Option.bind_eq_bind, Option.bind_some,
      Nat.zero_add, Nat.one_mul]
    split <;> rfl
  | succ n ih =>
    have hsum : baseAddr + (n + 1) * entrySize + entrySize =
        baseAddr + (n + 1 + 1) * entrySize := by
      rw [Nat.add_assoc, ← Nat.succ_mul]
    rw [tryCreateLoop, ih]
    by_cases hfit : baseAddr + (n + 1 + 1) * entrySize < 2 ^ 64
    · have hbefore : baseAddr + (n + 1) * entrySize < 2 ^ 64 := by omega
      have hbase := createLoop_snd (N := N) paToVa entrySize lkey baseAddr (n + 1)
      rw [if_pos hfit, if_pos hbefore]
      simp only [Option.bind_eq_bind, Option.bind_some, hbase, Word.checkedAdd, hsum, if_pos hfit]
      conv => rhs; rw [createLoop]
      simp only [hbase, hsum]
    · rw [if_neg hfit]
      split
      · have hbase := createLoop_snd (N := N) paToVa entrySize lkey baseAddr (n + 1)
        simp only [Option.bind_eq_bind, Option.bind_some, hbase, Word.checkedAdd, hsum,
          if_neg hfit, Option.bind_none]
      · rfl

/-- Where `create` does not panic, it builds the ring that `create` says. -/
theorem tryCreate_eq_some {h : RecvHelper N} :
    tryCreate paToVa entrySize lkey baseAddr = some h ↔
      N * ibRecvWrSz < 2 ^ 64 ∧ baseAddr + N * entrySize < 2 ^ 64 ∧
        create paToVa entrySize lkey baseAddr = h := by
  obtain ⟨n, rfl⟩ := Nat.exists_eq_succ_of_ne_zero (NeZero.ne N)
  have hsge : (n + 1) * ibRecvWrSz < 2 ^ 64 → (n + 1) * ibSgeSz < 2 ^ 64 := by
    simp only [ibRecvWrSz, ibSgeSz]
    omega
  simp only [tryCreate, tryCreateLoop_succ, Option.bind_eq_bind, Option.bind_eq_some_iff,
    Word.checkedMul_eq_some, create]
  constructor
  · rintro ⟨_, ⟨hwr, rfl⟩, _, ⟨-, rfl⟩, out, hloop, hh⟩
    split at hloop
    · rename_i hfit
      cases hloop
      exact ⟨hwr, hfit, Option.some.inj hh⟩
    · cases hloop
  · rintro ⟨hwr, hfit, hh⟩
    exact ⟨_, ⟨hwr, rfl⟩, _, ⟨hsge hwr, rfl⟩, _, if_pos hfit, congrArg some hh⟩

theorem create_wrs (i : Nat) :
    (create (N := N) paToVa entrySize lkey baseAddr).wrs (Ring.pos N i) =
      { wrId := paToVa (baseAddr + i % N * entrySize), next := some (Ring.pos N (i + 1)),
        sgList := some (Ring.pos N i), numSge := 1 } := by
  have hlt := Nat.mod_lt i (Nat.pos_of_neZero N)
  have := (createLoop_entry paToVa entrySize lkey baseAddr hlt le_rfl).1
  simpa [create, Ring.pos_mod_add] using this

theorem create_sges (i : Nat) :
    (create (N := N) paToVa entrySize lkey baseAddr).sges (Ring.pos N i) =
      { addr := baseAddr + i % N * entrySize, length := entrySize % 2 ^ 32, lkey } := by
  have hlt := Nat.mod_lt i (Nat.pos_of_neZero N)
  have := (createLoop_entry paToVa entrySize lkey baseAddr hlt le_rfl).2
  simpa [create] using this

theorem create_linked : (create (N := N) paToVa entrySize lkey baseAddr).Linked where
  next i := by rw [create_wrs]
  cur := by
    rw [create, createLoop_curIdx]
    exact Nat.pos_of_neZero N

/-- A ring that `create` has built and `post_recvs` calls have turned. -/
def Built (h : RecvHelper N) : Prop :=
  ∃ cur < N, h = { create (N := N) paToVa entrySize lkey baseAddr with curIdx := cur }

variable {paToVa entrySize lkey baseAddr}

theorem built_create : Built paToVa entrySize lkey baseAddr
    (create (N := N) paToVa entrySize lkey baseAddr) :=
  ⟨_, (create_linked paToVa entrySize lkey baseAddr).cur, rfl⟩

theorem Built.linked {h : RecvHelper N} (hb : Built paToVa entrySize lkey baseAddr h) :
    h.Linked := by
  obtain ⟨cur, hcur, rfl⟩ := hb
  exact (create_linked paToVa entrySize lkey baseAddr).withCur hcur

theorem Built.postRecvs {h : RecvHelper N} (hb : Built paToVa entrySize lkey baseAddr h) {k : Nat}
    {answer : PostAnswer} {out : Posted N} (hpost : h.postRecvs k answer = some out) :
    Built paToVa entrySize lkey baseAddr out.helper := by
  have hlink := hb.linked.postRecvs hpost
  obtain ⟨-, -, hhelper⟩ := hb.linked.postRecvs_eq_some hpost
  obtain ⟨cur, hcur, rfl⟩ := hb
  exact ⟨out.helper.curIdx, hlink.cur, by rw [hhelper]⟩

/-- The buffers of a ring are consecutive. -/
theorem Built.sges {h : RecvHelper N} (hb : Built paToVa entrySize lkey baseAddr h) (i : Fin N) :
    h.sges i = { addr := baseAddr + i * entrySize, length := entrySize % 2 ^ 32, lkey } := by
  obtain ⟨cur, hcur, rfl⟩ := hb
  have := create_sges (N := N) paToVa entrySize lkey baseAddr i
  rwa [show Ring.pos N i = i from Fin.ext (by simp [Nat.mod_eq_of_lt i.isLt]),
    Nat.mod_eq_of_lt i.isLt] at this

end RecvHelper
