-- SUMMARY: The batch of send requests (`DoorbellHelper`) and what `post_doorbell` submits of it.
import Mathlib.Data.Option.Basic
import Mathlib.Logic.Function.Basic
import KRCore.Base.Ring
import KRCore.Base.Run
import KRCore.VirtualQueue.WorkRequest

/-!
# Doorbell batching

A `DoorbellHelper` keeps send requests whose `next` pointers form a cycle over its
capacity. The caller fills them one after the other. `post_doorbell` cuts the cycle
behind the request filled last, hands a copy of the first one to the driver, and closes
the cycle again. A pointer to `wrs[i]` or `sges[i]` is written as the index `i`.

A batch is what the helper is for: a list of at most `capacity` requests that can be
extended, submitted as a whole, and emptied.
-/

/-- `DEFAULT_BATCH_SZ`. -/
abbrev defaultBatchSz : Nat := 64

instance : NeZero defaultBatchSz := ⟨by decide⟩

namespace Doorbell

open Ring (pos)

/-- The fields of an `ib_rdma_wr` that the caller fills. -/
structure WrBody where
  opcode : WrOpcode
  sendFlags : SendFlags
  immData : BitVec 32
  remoteAddr : BitVec 64
  rkey : BitVec 32
deriving DecidableEq, Repr

/-- An `ib_rdma_wr` of a helper. -/
structure IbRdmaWr where
  body : WrBody
  next : Option (Fin defaultBatchSz)
  sgList : Option (Fin defaultBatchSz)
  numSge : Nat
deriving DecidableEq

structure DoorbellHelper where
  wrs : Fin defaultBatchSz → IbRdmaWr
  sges : Fin defaultBatchSz → IbSge
  curIdx : Int
  capacity : Nat

/-- A request as it is filled: its fields and its scatter entry. -/
abbrev Request := WrBody × IbSge

/-- A request as the driver reads it: its fields and its scatter list. -/
abbrev Submitted := WrBody × List IbSge

namespace DoorbellHelper

/-! ## The helper -/

/-- The default arrays. -/
def zeroed (capacity : Nat) (body : WrBody) : DoorbellHelper where
  wrs _ := { body, next := none, sgList := none, numSge := 0 }
  sges _ := { addr := 0, length := 0, lkey := 0 }
  curIdx := -1
  capacity

/-- One round of the loop of `create`. -/
def initEntry (op : WrOpcode) (h : DoorbellHelper) (i : Nat) : DoorbellHelper :=
  let wr := h.wrs (pos defaultBatchSz i)
  { h with
    wrs := Function.update h.wrs (pos defaultBatchSz i)
      { body := { wr.body with opcode := op }
        next := some (pos defaultBatchSz ((i + 1) % h.capacity))
        sgList := some (pos defaultBatchSz i)
        numSge := 1 } }

/-- The first `n` rounds of the loop of `create`. -/
def createLoop (capacity : Nat) (op : WrOpcode) (body : WrBody) : Nat → DoorbellHelper
  | 0 => zeroed capacity body
  | n + 1 => initEntry op (createLoop capacity op body n) n

/-- `create`; `body` are the default fields of a request. -/
def create (capacity : Nat) (op : WrOpcode) (body : WrBody) : DoorbellHelper :=
  createLoop capacity op body capacity

def size (h : DoorbellHelper) : Int := h.curIdx + 1

def isEmpty (h : DoorbellHelper) : Bool := decide (h.size ≤ 0)

def isFull (h : DoorbellHelper) : Bool := decide ((h.capacity : Int) ≤ h.size)

def next (h : DoorbellHelper) : Bool × DoorbellHelper :=
  if h.isFull then (false, h) else (true, { h with curIdx := h.curIdx + 1 })

/-- The index that `cur_wr` and `cur_sge` use. -/
def cur (h : DoorbellHelper) : Fin defaultBatchSz :=
  if h.isEmpty then 0 else pos defaultBatchSz h.curIdx.toNat

/-- The caller fills the current request through `cur_wr` and `cur_sge`. -/
def fill (h : DoorbellHelper) (req : Request) : DoorbellHelper :=
  { h with
    wrs := Function.update h.wrs h.cur { h.wrs h.cur with body := req.1 }
    sges := Function.update h.sges h.cur req.2 }

def setNext (h : DoorbellHelper) (i : Fin defaultBatchSz) (next : Option (Fin defaultBatchSz)) :
    DoorbellHelper :=
  { h with wrs := Function.update h.wrs i { h.wrs i with next } }

/-- `freeze`; `none` is its `assert!`. -/
def freeze (h : DoorbellHelper) : Option DoorbellHelper :=
  if h.isEmpty then none else some (h.setNext h.cur none)

/-- `freeze_done`; `none` is its `assert!`. -/
def freezeDone (h : DoorbellHelper) : Option DoorbellHelper :=
  if h.isEmpty then none
  else if h.curIdx = (h.capacity - 1 : Nat) then
    some (h.setNext (pos defaultBatchSz h.curIdx.toNat) (some 0))
  else
    some (h.setNext (pos defaultBatchSz h.curIdx.toNat)
      (some (pos defaultBatchSz (h.curIdx + 1).toNat)))

def clear (h : DoorbellHelper) : Option DoorbellHelper :=
  h.freezeDone.map fun h => { h with curIdx := -1 }

/-! ## Posting -/

/-- The scatter list that a request of the helper points to. -/
def scatter (h : DoorbellHelper) (wr : IbRdmaWr) : List IbSge :=
  match wr.sgList with
  | none => []
  | some k => (List.range wr.numSge).map fun j => h.sges (pos defaultBatchSz (k + j))

/-- What the driver reads at the pointer `p`, if it follows at most `fuel` pointers. -/
def walk (h : DoorbellHelper) (fuel : Nat) (p : Option (Fin defaultBatchSz)) : List Submitted :=
  (Ring.follow (fun i => (h.wrs i).next) fuel p).map fun i =>
    ((h.wrs i).body, h.scatter (h.wrs i))

/-- `post_send` with copies of a request and of a scatter entry: the copied request gets the
    copied entry as its scatter list, and is followed by what its `next` leads to. -/
def postSend (h : DoorbellHelper) (fuel : Nat) (sge : IbSge) (wr : IbRdmaWr) : List Submitted :=
  (wr.body, [sge]) :: h.walk fuel wr.next

/-- `post_doorbell`: the helper afterwards, and what was submitted. The helper does not depend
    on what the driver answers. -/
def postDoorbell (h : DoorbellHelper) (fuel : Nat) : Option (DoorbellHelper × List Submitted) := do
  let frozen ← h.freeze
  let submitted := frozen.postSend fuel (frozen.sges 0) (frozen.wrs 0)
  let h ← frozen.freezeDone
  some (h, submitted)

end DoorbellHelper

/-! ## Runs -/

inductive Event where
  /-- `next`, and if it returns true the caller fills the current request. -/
  | next (req : Request)
  /-- `post_doorbell`, for which the driver answers `errno`. -/
  | postDoorbell (errno : Int)
  | clear

/-- A helper, what has been submitted from it, and the answers of the driver. -/
structure Session where
  helper : DoorbellHelper
  submitted : List (List Submitted × Int)

/-- A step on the helper; `none` is a panic. -/
def Session.step (fuel : Nat) (s : Session) : Event → Option Session
  | .next req =>
    match s.helper.next with
    | (true, h) => some { s with helper := h.fill req }
    | (false, h) => some { s with helper := h }
  | .postDoorbell errno => do
    let (helper, l) ← s.helper.postDoorbell fuel
    some { helper, submitted := s.submitted ++ [(l, errno)] }
  | .clear => do
    let helper ← s.helper.clear
    some { s with helper }

def Session.start (capacity : Nat) (op : WrOpcode) (body : WrBody) : Session where
  helper := .create capacity op body
  submitted := []

/-- The requests filled since the last clear, and the batches that were submitted. -/
structure Batch where
  filled : List Request
  submitted : List (List Request × Int)

def Batch.start : Batch := { filled := [], submitted := [] }

/-- A step of a batch. To submit or to clear an empty batch is an error. -/
def Batch.step (capacity : Nat) (b : Batch) : Event → Option Batch
  | .next req =>
    if b.filled.length < capacity then some { b with filled := b.filled ++ [req] } else some b
  | .postDoorbell errno =>
    if b.filled = [] then none
    else some { b with submitted := b.submitted ++ [(b.filled, errno)] }
  | .clear => if b.filled = [] then none else some { b with filled := [] }

/-- A request with its own scatter entry. -/
def Request.submitted (req : Request) : Submitted := (req.1, [req.2])

/-! ## The links -/

/-- The links form the full cycle over the capacity, and every request has its own scatter
    entry. -/
structure Linked (h : DoorbellHelper) : Prop where
  next : ∀ i < h.capacity, (h.wrs (pos defaultBatchSz i)).next =
    some (pos defaultBatchSz ((i + 1) % h.capacity))
  sgList : ∀ i < h.capacity, (h.wrs (pos defaultBatchSz i)).sgList = some (pos defaultBatchSz i)
  numSge : ∀ i < h.capacity, (h.wrs (pos defaultBatchSz i)).numSge = 1

/-- The helper holds the batch `l`. -/
structure Holds (h : DoorbellHelper) (l : List Request) : Prop where
  linked : Linked h
  capacity_le : h.capacity ≤ defaultBatchSz
  curIdx : h.curIdx = (l.length : Int) - 1
  length_le : l.length ≤ h.capacity
  filled : ∀ i (hi : i < l.length), (h.wrs (pos defaultBatchSz i)).body = (l[i]).1 ∧
    h.sges (pos defaultBatchSz i) = (l[i]).2

/-- Below 64 a position is its number. -/
theorem pos_inj {i j : Nat} (hi : i < defaultBatchSz) (hj : j < defaultBatchSz)
    (h : pos defaultBatchSz i = pos defaultBatchSz j) : i = j := by
  rwa [Ring.pos_eq_iff, Nat.mod_eq_of_lt hi, Nat.mod_eq_of_lt hj] at h

theorem createLoop_capacity (capacity : Nat) (op : WrOpcode) (body : WrBody) (n : Nat) :
    (DoorbellHelper.createLoop capacity op body n).capacity = capacity := by
  induction n with
  | zero => rfl
  | succ n ih => exact ih

theorem createLoop_curIdx (capacity : Nat) (op : WrOpcode) (body : WrBody) (n : Nat) :
    (DoorbellHelper.createLoop capacity op body n).curIdx = -1 := by
  induction n with
  | zero => rfl
  | succ n ih => exact ih

/-- The entries that the loop has reached are linked. -/
theorem createLoop_wrs (capacity : Nat) (op : WrOpcode) (body : WrBody) {n i : Nat} (hi : i < n)
    (hn : n ≤ defaultBatchSz) :
    ∃ body', (DoorbellHelper.createLoop capacity op body n).wrs (pos defaultBatchSz i) =
      { body := body', next := some (pos defaultBatchSz ((i + 1) % capacity))
        sgList := some (pos defaultBatchSz i), numSge := 1 } := by
  induction n with
  | zero => exact absurd hi (Nat.not_lt_zero i)
  | succ n ih =>
    simp only [DoorbellHelper.createLoop, DoorbellHelper.initEntry, createLoop_capacity]
    by_cases heq : i = n
    · subst heq
      rw [Function.update_self]
      exact ⟨_, rfl⟩
    · have hne : pos defaultBatchSz i ≠ pos defaultBatchSz n := fun h =>
        heq (pos_inj (by omega) (by omega) h)
      rw [Function.update_of_ne hne]
      exact ih (by omega) (by omega)

theorem holds_create {capacity : Nat} (hcap : capacity ≤ defaultBatchSz) (op : WrOpcode)
    (body : WrBody) : Holds (.create capacity op body) [] := by
  have hwrs : ∀ i < capacity, _ := fun i hi => createLoop_wrs capacity op body hi hcap
  have hsize := createLoop_capacity capacity op body capacity
  refine ⟨⟨fun i hi => ?_, fun i hi => ?_, fun i hi => ?_⟩, hsize.le.trans hcap,
    createLoop_curIdx capacity op body capacity, Nat.zero_le _, fun i hi => absurd hi (by simp)⟩
  all_goals
    rw [DoorbellHelper.create, hsize] at hi
    obtain ⟨body', hwr⟩ := hwrs i hi
    rw [DoorbellHelper.create, hwr]
  rw [hsize]

/-! ## The steps -/

section Step

variable {h : DoorbellHelper} {l : List Request}

@[simp] theorem setNext_body (i j : Fin defaultBatchSz) (x : Option (Fin defaultBatchSz)) :
    ((h.setNext i x).wrs j).body = (h.wrs j).body := by
  by_cases hj : j = i
  · subst hj
    simp [DoorbellHelper.setNext]
  · simp [DoorbellHelper.setNext, hj]

@[simp] theorem setNext_scatter (i j : Fin defaultBatchSz) (x : Option (Fin defaultBatchSz)) :
    (h.setNext i x).scatter ((h.setNext i x).wrs j) = h.scatter (h.wrs j) := by
  by_cases hj : j = i
  · subst hj
    simp [DoorbellHelper.setNext, DoorbellHelper.scatter]
  · simp [DoorbellHelper.setNext, DoorbellHelper.scatter, hj]

theorem setNext_next_self (i : Fin defaultBatchSz) (x : Option (Fin defaultBatchSz)) :
    ((h.setNext i x).wrs i).next = x := by
  simp [DoorbellHelper.setNext]

theorem setNext_next_of_ne {i j : Fin defaultBatchSz} (hj : j ≠ i)
    (x : Option (Fin defaultBatchSz)) : ((h.setNext i x).wrs j).next = (h.wrs j).next := by
  simp [DoorbellHelper.setNext, hj]

theorem Holds.size (H : Holds h l) : h.size = l.length := by
  rw [DoorbellHelper.size, H.curIdx]
  omega

theorem Holds.isEmpty_iff (H : Holds h l) : h.isEmpty = true ↔ l = [] := by
  rw [DoorbellHelper.isEmpty, H.size, decide_eq_true_iff, ← List.length_eq_zero_iff]
  omega

theorem Holds.isFull_iff (H : Holds h l) : h.isFull = true ↔ ¬ l.length < h.capacity := by
  rw [DoorbellHelper.isFull, H.size, decide_eq_true_iff]
  omega

/-- The index of the last request of a batch. -/
theorem Holds.curIdx_toNat (H : Holds h l) : h.curIdx.toNat = l.length - 1 := by
  rw [H.curIdx]
  omega

theorem Holds.cur (H : Holds h l) (hne : l ≠ []) :
    h.cur = pos defaultBatchSz (l.length - 1) := by
  rw [DoorbellHelper.cur, if_neg (fun he => hne (H.isEmpty_iff.mp he)), H.curIdx_toNat]

/-- To fill a request changes neither its links nor the other requests. -/
theorem fill_wrs (req : Request) (j : Fin defaultBatchSz) :
    (h.fill req).wrs j = if j = h.cur then { h.wrs j with body := req.1 } else h.wrs j := by
  by_cases hj : j = h.cur
  · subst hj
    simp [DoorbellHelper.fill]
  · simp [DoorbellHelper.fill, hj]

theorem linked_fill (hl : Linked h) (req : Request) : Linked (h.fill req) := by
  have hcap : (h.fill req).capacity = h.capacity := rfl
  refine ⟨fun i hi => ?_, fun i hi => ?_, fun i hi => ?_⟩
  · rw [fill_wrs, hcap, ← hl.next i hi]
    split <;> rfl
  · rw [fill_wrs, ← hl.sgList i hi]
    split <;> rfl
  · rw [fill_wrs, ← hl.numSge i hi]
    split <;> rfl

/-- `next` on a batch that has room, and the new request is filled. -/
theorem Holds.next (H : Holds h l) (hroom : l.length < h.capacity) (req : Request) :
    ∃ h', h.next = (true, h') ∧ h'.capacity = h.capacity ∧ Holds (h'.fill req) (l ++ [req]) := by
  have hnot : ¬ h.isFull = true := fun hfull => H.isFull_iff.mp hfull hroom
  have hcap := H.capacity_le
  refine ⟨{ h with curIdx := h.curIdx + 1 }, by rw [DoorbellHelper.next, if_neg hnot], rfl, ?_⟩
  have hlen : h.curIdx + 1 = l.length := H.size
  have hcur : DoorbellHelper.cur { h with curIdx := h.curIdx + 1 } =
      pos defaultBatchSz l.length := by
    have hempty : ¬ DoorbellHelper.isEmpty { h with curIdx := h.curIdx + 1 } = true := by
      rw [DoorbellHelper.isEmpty, DoorbellHelper.size, decide_eq_true_iff]
      dsimp only
      omega
    rw [DoorbellHelper.cur, if_neg hempty]
    simp only [hlen, Int.toNat_natCast]
  have hlinked : Linked { h with curIdx := h.curIdx + 1 } :=
    ⟨H.linked.next, H.linked.sgList, H.linked.numSge⟩
  refine ⟨linked_fill hlinked req, hcap, ?_, ?_, fun i hi => ?_⟩
  · rw [List.length_append, List.length_singleton]
    show h.curIdx + 1 = _
    omega
  · rw [List.length_append, List.length_singleton]
    exact hroom
  · rw [List.length_append, List.length_singleton] at hi
    rw [fill_wrs, hcur]
    simp only [DoorbellHelper.fill, hcur]
    by_cases hlast : i = l.length
    · subst hlast
      simp
    · have hne : pos defaultBatchSz i ≠ pos defaultBatchSz l.length := fun heq =>
        hlast (pos_inj (by omega) (by omega) heq)
      rw [if_neg hne, Function.update_of_ne hne, List.getElem_append_left (by omega)]
      exact H.filled i (by omega)

/-- Closing the cycle undoes every cut behind the last request. -/
theorem Holds.freezeDone_setNext (H : Holds h l) (hne : l ≠ [])
    (x : Option (Fin defaultBatchSz)) :
    (h.setNext (pos defaultBatchSz (l.length - 1)) x).freezeDone = some h := by
  have hpos := List.length_pos_of_ne_nil hne
  have hle := H.length_le
  have hempty : ¬ (h.setNext (pos defaultBatchSz (l.length - 1)) x).isEmpty = true := fun he =>
    hne (H.isEmpty_iff.mp he)
  have hback : (h.setNext (pos defaultBatchSz (l.length - 1)) x).setNext
      (pos defaultBatchSz (l.length - 1))
      (some (pos defaultBatchSz ((l.length - 1 + 1) % h.capacity))) = h := by
    have hlink := H.linked.next (l.length - 1) (by omega)
    cases h with
    | mk wrs sges curIdx capacity =>
      simp only [DoorbellHelper.setNext, Function.update_self, Function.update_idem,
        DoorbellHelper.mk.injEq, and_true]
      simp only at hlink
      rw [← hlink]
      exact Function.update_eq_self _ _
  have hcur : (h.setNext (pos defaultBatchSz (l.length - 1)) x).curIdx = h.curIdx := rfl
  have hcap : (h.setNext (pos defaultBatchSz (l.length - 1)) x).capacity = h.capacity := rfl
  rw [DoorbellHelper.freezeDone, if_neg hempty, hcur, hcap, H.curIdx_toNat]
  split
  · rename_i hlast
    rw [H.curIdx] at hlast
    have hwrap : (l.length - 1 + 1) % h.capacity = 0 := by
      rw [show l.length - 1 + 1 = h.capacity by omega, Nat.mod_self]
    rw [hwrap] at hback
    exact congrArg some hback
  · rename_i hlast
    rw [H.curIdx] at hlast
    have hstep : (l.length - 1 + 1) % h.capacity = l.length - 1 + 1 :=
      Nat.mod_eq_of_lt (by omega)
    have hidx : (h.curIdx + 1).toNat = l.length - 1 + 1 := by
      rw [H.curIdx]
      omega
    rw [hidx]
    rw [hstep] at hback
    exact congrArg some hback

theorem Holds.freezeDone (H : Holds h l) (hne : l ≠ []) : h.freezeDone = some h := by
  have hself : h.setNext (pos defaultBatchSz (l.length - 1))
      (h.wrs (pos defaultBatchSz (l.length - 1))).next = h := by
    simp only [DoorbellHelper.setNext, Function.update_eq_self]
  have := H.freezeDone_setNext hne (h.wrs (pos defaultBatchSz (l.length - 1))).next
  rwa [hself] at this

theorem Holds.clear (H : Holds h l) (hne : l ≠ []) :
    ∃ h', h.clear = some h' ∧ h'.capacity = h.capacity ∧ Holds h' [] := by
  refine ⟨{ h with curIdx := -1 }, by rw [DoorbellHelper.clear, H.freezeDone hne]; rfl, rfl, ?_⟩
  exact ⟨⟨H.linked.next, H.linked.sgList, H.linked.numSge⟩, H.capacity_le, rfl, Nat.zero_le _,
    fun i hi => absurd hi (Nat.not_lt_zero i)⟩

/-- What the driver reads at a request of the batch. -/
theorem Holds.read (H : Holds h l) {i : Nat} (hi : i < l.length) :
    ((h.wrs (pos defaultBatchSz i)).body, h.scatter (h.wrs (pos defaultBatchSz i))) =
      (l[i]).submitted := by
  have hcap : i < h.capacity := Nat.lt_of_lt_of_le hi H.length_le
  obtain ⟨hbody, hsge⟩ := H.filled i hi
  rw [DoorbellHelper.scatter, H.linked.sgList i hcap, H.linked.numSge i hcap, hbody]
  simp [Request.submitted, Ring.pos_mod, hsge]

/-- What is submitted of a batch: its requests in the order in which they were filled. -/
theorem Holds.postSend (H : Holds h l) (hne : l ≠ []) {fuel : Nat} (hfuel : defaultBatchSz ≤ fuel) :
    let frozen := h.setNext (pos defaultBatchSz (l.length - 1)) none
    frozen.postSend fuel (frozen.sges 0) (frozen.wrs 0) = l.map Request.submitted := by
  intro frozen
  have hpos := List.length_pos_of_ne_nil hne
  have hle := H.length_le
  have hcap := H.capacity_le
  have hchain : Ring.follow (fun i => (frozen.wrs i).next) (fuel + 1)
      (some (pos defaultBatchSz 0)) = Ring.window defaultBatchSz 0 (l.length - 1 + 1) := by
    refine Ring.follow_eq_window (fun j hj => ?_) ?_ (by omega)
    · have hne' : pos defaultBatchSz (0 + j) ≠ pos defaultBatchSz (l.length - 1) := fun heq => by
        have := pos_inj (by omega) (by omega) heq
        omega
      rw [setNext_next_of_ne hne', Nat.zero_add, H.linked.next j (by omega),
        Nat.mod_eq_of_lt (by omega)]
    · rw [Nat.zero_add]
      exact setNext_next_self _ none
  -- The first request is handed over as a copy, with a copy of its scatter entry.
  have hfirst : ((frozen.wrs 0).body, [frozen.sges 0]) =
      ((frozen.wrs 0).body, frozen.scatter (frozen.wrs 0)) := by
    have hread := H.read hpos
    have hcopy : ((h.wrs 0).body, [h.sges 0]) = (l[0]).submitted := by
      obtain ⟨hbody, hsge⟩ := H.filled 0 hpos
      exact Prod.ext hbody (congrArg (fun x => [x]) hsge)
    rw [setNext_body, setNext_scatter]
    exact hcopy.trans hread.symm
  have hall : frozen.postSend fuel (frozen.sges 0) (frozen.wrs 0) =
      frozen.walk (fuel + 1) (some (pos defaultBatchSz 0)) := by
    rw [DoorbellHelper.postSend, hfirst]
    rfl
  rw [hall, DoorbellHelper.walk, hchain, Nat.sub_add_cancel hpos]
  refine List.ext_getElem (by simp) fun i hi hi' => ?_
  rw [List.length_map] at hi'
  simp only [Ring.window, List.getElem_map, List.getElem_range, Nat.zero_add]
  rw [setNext_body, setNext_scatter]
  exact H.read hi'

theorem Holds.postDoorbell (H : Holds h l) (hne : l ≠ []) {fuel : Nat}
    (hfuel : defaultBatchSz ≤ fuel) :
    h.postDoorbell fuel = some (h, l.map Request.submitted) := by
  have hempty : ¬ h.isEmpty = true := fun he => hne (H.isEmpty_iff.mp he)
  have hfreeze : h.freeze = some (h.setNext (pos defaultBatchSz (l.length - 1)) none) := by
    rw [DoorbellHelper.freeze, if_neg hempty, H.cur hne]
  simp only [DoorbellHelper.postDoorbell, hfreeze, H.freezeDone_setNext hne, Option.bind_eq_bind,
    Option.bind_some, H.postSend hne hfuel]

/-- On an empty helper both functions run into their `assert!`. -/
theorem Holds.empty (H : Holds h []) (fuel : Nat) :
    h.postDoorbell fuel = none ∧ h.clear = none := by
  have hempty : h.isEmpty = true := H.isEmpty_iff.mpr rfl
  constructor
  · simp [DoorbellHelper.postDoorbell, DoorbellHelper.freeze, hempty]
  · simp [DoorbellHelper.clear, DoorbellHelper.freezeDone, hempty]

end Step

/-! ## The runs -/

/-- The batches that were submitted, as the driver reads them. -/
def Batch.asSubmitted (b : Batch) : List (List Submitted × Int) :=
  b.submitted.map fun p => (p.1.map Request.submitted, p.2)

/-- The helper holds the requests of the batch, and has submitted what the batch has. -/
structure Refines (capacity : Nat) (s : Session) (b : Batch) : Prop where
  holds : Holds s.helper b.filled
  capacity : s.helper.capacity = capacity
  submitted : s.submitted = b.asSubmitted

theorem refines_start {capacity : Nat} (hcap : capacity ≤ defaultBatchSz) (op : WrOpcode)
    (body : WrBody) : Refines capacity (.start capacity op body) .start :=
  ⟨holds_create hcap op body, createLoop_capacity capacity op body capacity, rfl⟩

theorem refines_step {capacity fuel : Nat} (hfuel : defaultBatchSz ≤ fuel) {s : Session} {b : Batch}
    (hR : Refines capacity s b) (ev : Event) :
    Option.Rel (Refines capacity) (s.step fuel ev) (b.step capacity ev) := by
  obtain ⟨H, rfl, hsub⟩ := hR
  cases ev with
  | next req =>
    by_cases hroom : b.filled.length < s.helper.capacity
    · obtain ⟨h', hnext, hcap, H'⟩ := H.next hroom req
      simp only [Session.step, hnext, Batch.step, if_pos hroom]
      exact .some ⟨H', hcap, hsub⟩
    · have hnext : s.helper.next = (false, s.helper) := by
        rw [DoorbellHelper.next, if_pos (H.isFull_iff.mpr hroom)]
      simp only [Session.step, hnext, Batch.step, if_neg hroom]
      exact .some ⟨H, rfl, hsub⟩
  | postDoorbell errno =>
    by_cases hne : b.filled = []
    · rw [hne] at H
      simp only [Session.step, (H.empty fuel).1, Option.bind_eq_bind, Option.bind_none, Batch.step,
        if_pos hne]
      exact .none
    · simp only [Session.step, H.postDoorbell hne hfuel, Option.bind_eq_bind, Option.bind_some,
        Batch.step, if_neg hne]
      refine .some ⟨H, rfl, ?_⟩
      simp [Batch.asSubmitted, hsub]
  | clear =>
    by_cases hne : b.filled = []
    · rw [hne] at H
      simp only [Session.step, (H.empty fuel).2, Option.bind_eq_bind, Option.bind_none, Batch.step,
        if_pos hne]
      exact .none
    · obtain ⟨h', hclear, hcap, H'⟩ := H.clear hne
      simp only [Session.step, hclear, Option.bind_eq_bind, Option.bind_some, Batch.step,
        if_neg hne]
      exact .some ⟨H', hcap, hsub⟩

/-- For every capacity up to 64 and every sequence of `next`, `post_doorbell` and `clear`, with any
    answers of the driver: the helper submits what the batch does, that is each time exactly
    the requests filled since the last clear, in filling order and each with its own scatter
    entry; it panics exactly where the batch is empty and submitted or cleared; and afterwards
    the links form the full cycle over the capacity. -/
theorem doorbell_submits_batches (capacity : Nat) (hcap : capacity ≤ defaultBatchSz) (op : WrOpcode)
    (body : WrBody) (fuel : Nat) (hfuel : defaultBatchSz ≤ fuel) (evs : List Event) :
    (Run.exec (Session.step fuel) (.start capacity op body) evs).map Session.submitted =
        (Run.exec (Batch.step capacity) .start evs).map Batch.asSubmitted ∧
      ∀ s, Run.exec (Session.step fuel) (.start capacity op body) evs = some s →
        s.helper.capacity = capacity ∧ Linked s.helper := by
  have hrel := Run.exec_rel (fun s b ev hR => refines_step hfuel hR ev)
    (refines_start hcap op body) evs
  generalize Run.exec (Session.step fuel) (.start capacity op body) evs = x at hrel ⊢
  generalize Run.exec (Batch.step capacity) .start evs = y at hrel ⊢
  cases hrel with
  | none => exact ⟨rfl, nofun⟩
  | some hR =>
    refine ⟨congrArg some hR.submitted, fun s hs => ?_⟩
    cases hs
    exact ⟨hR.capacity, hR.holds.linked⟩

def WrBody.sample (rkey : BitVec 32) : WrBody where
  opcode := .rdmaWrite
  sendFlags := { signaled := false, inline := false }
  immData := 0
  remoteAddr := 0
  rkey

def Request.sample (n : Nat) : Request :=
  (WrBody.sample (BitVec.ofNat 32 n), { addr := n, length := 8, lkey := 0 })

/-- With capacity 2 a third request is not taken; a batch of two that the driver refuses is
    submitted again, and after a clear a batch of one follows. -/
theorem doorbell_submits_sample :
    (Run.exec (Session.step 64) (.start 2 .rdmaWrite (.sample 0))
        [.next (.sample 1), .next (.sample 2), .next (.sample 3), .postDoorbell (-12),
          .postDoorbell 0, .clear, .next (.sample 4), .postDoorbell 0]).map Session.submitted =
      some [([.sample 1, .sample 2].map Request.submitted, -12),
        ([.sample 1, .sample 2].map Request.submitted, 0),
        ([.sample 4].map Request.submitted, 0)] :=
  (doorbell_submits_batches 2 (by decide) .rdmaWrite (.sample 0) 64 (by decide) _).1

end Doorbell
