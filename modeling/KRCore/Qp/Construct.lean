-- SUMMARY: Construction and destruction of RC, UD and DC queues: the ledger of kernel objects and when it stays exact.
import Mathlib.Data.Finset.Basic
import Mathlib.Data.Finset.SDiff
import Mathlib.Algebra.Order.Group.Multiset
import KRCore.Base.Run
import KRCore.Qp.Handshake
import KRCore.Verbs.AddressHandle

/-!
# Construction of queues

`RC::new_with_srq`, `UD::new_from_config` and `DC::new_with_srq` create completion
queues, a queue pair and a `cm_id`, first into locals and then into the fields of a
value whose `Drop` destroys them. The kernel keeps a ledger of the objects that are
alive. A failing `ib_create_cq`, `ib_create_qp` or `ib_create_cm_id` answers an error
pointer, which is not null.
-/

namespace Construct

/-! ## Kernel objects -/

inductive Kind where
  | cq
  | qp
  | cm
deriving DecidableEq, Repr

/-- A kernel object: its kind and its address. -/
abbrev Object := Kind × BitVec 64

/-- Why a call does not return. -/
inductive Stop where
  /-- An address was used at which no object of that kind is alive. -/
  | fault
  /-- `unwrap` of a `None`. -/
  | panic
  /-- The kernel never answers like this. -/
  | impossible
deriving DecidableEq, Repr

/-- The kernel objects that are alive. None of them is at null or at an error pointer. -/
structure Ledger where
  live : Finset Object
  proper : ∀ o ∈ live, o.2 ≠ 0 ∧ ptrIsErr o.2 = false

namespace Ledger

def empty : Ledger := ⟨∅, by simp⟩

/-- The creating calls. An answer is an error pointer, and nothing is created, or the
    address of a new object. -/
def create (l : Ledger) (kind : Kind) (res : BitVec 64) : Except Stop Ledger :=
  if herr : ptrIsErr res = true then .ok l
  else if h : res = 0 ∨ ∃ o ∈ l.live, o.2 = res then .error .impossible
  else .ok
    { live := insert (kind, res) l.live
      proper := by
        intro o ho
        rcases Finset.mem_insert.mp ho with rfl | ho
        · exact ⟨fun h0 => h (Or.inl h0), Bool.eq_false_iff.mpr herr⟩
        · exact l.proper o ho }

/-- A call that dereferences an object. -/
def touch (l : Ledger) (o : Object) : Except Stop Unit :=
  if o ∈ l.live then .ok () else .error .fault

def destroy (l : Ledger) (o : Object) : Except Stop Ledger :=
  if o ∈ l.live then
    .ok
      { live := l.live.erase o
        proper := fun o' ho' => l.proper o' (Finset.mem_of_mem_erase ho') }
  else .error .fault

def ibCreateCq (l : Ledger) (res : BitVec 64) : Except Stop Ledger := l.create .cq res

/-- `ib_create_qp` uses both completion queues. A call that fails may do so `early`, before
    it has come to them. -/
def ibCreateQp (l : Ledger) (cq recvCq res : BitVec 64) (early : Bool) : Except Stop Ledger :=
  if ptrIsErr res && early then .ok l else do
  l.touch (.cq, cq)
  l.touch (.cq, recvCq)
  l.create .qp res

def ibCreateCmId (l : Ledger) (res : BitVec 64) : Except Stop Ledger := l.create .cm res

/-- `ib_create_qp_dct`: the wrapper turns an error pointer into null. -/
def ibCreateQpDct (l : Ledger) (cq recvCq res : BitVec 64) (early : Bool) :
    Except Stop (BitVec 64 × Ledger) := do
  let l ← l.ibCreateQp cq recvCq res early
  return (if ptrIsErr res then 0 else res, l)

/-- `ib_modify_qp`, which answers whether it succeeded. -/
def ibModifyQp (l : Ledger) (qp : BitVec 64) (ok : Bool) : Except Stop Bool := do
  l.touch (.qp, qp)
  return ok

/-- `if !p.is_null() { destroy(p) }`. -/
def destroyIfSome (l : Ledger) (o : Object) : Except Stop Ledger :=
  if o.2 = 0 then .ok l else l.destroy o

end Ledger

/-! ## Values -/

/-- The pointers of an `RC`, a `UD` or a `DC`. -/
inductive Value where
  | rc (qp cq recvCq cm : BitVec 64)
  | ud (qp cq recvCq : BitVec 64) (sharedRecvCq : Bool)
  | dc (qp cq recvCq : BitVec 64)
deriving DecidableEq, Repr

namespace Value

/-- The objects that a value owns. A receive queue that was passed in stays with its
    owner, and an `RC` or a `DC` without one receives on its send queue. -/
def owned : Value → List Object
  | .rc qp cq _ cm => [(.qp, qp), (.cq, cq), (.cm, cm)]
  | .ud qp cq recvCq sharedRecvCq =>
    [(.qp, qp), (.cq, cq)] ++ if sharedRecvCq then [] else [(.cq, recvCq)]
  | .dc qp cq _ => [(.qp, qp), (.cq, cq)]

/-- `Drop for RC`, `Drop for UD` and `Drop for DC`. The first two read the number of the
    queue pair before anything else. -/
def drop (l : Ledger) : Value → Except Stop Ledger
  | .rc qp cq _ cm => do
    l.touch (.qp, qp)
    let l ← l.destroyIfSome (.qp, qp)
    let l ← l.destroyIfSome (.cq, cq)
    l.destroyIfSome (.cm, cm)
  | .ud qp cq recvCq sharedRecvCq => do
    l.touch (.qp, qp)
    let l ← l.destroyIfSome (.qp, qp)
    let l ← l.destroyIfSome (.cq, cq)
    if sharedRecvCq then return l else l.destroyIfSome (.cq, recvCq)
  | .dc qp cq _ => do
    let l ← l.destroyIfSome (.qp, qp)
    l.destroyIfSome (.cq, cq)

end Value

/-- `return None`: the half-filled value goes out of scope. -/
def bail (v : Value) (l : Ledger) : Except Stop (Option Value × Ledger) := do
  let l ← v.drop l
  return (none, l)

/-! ## `RC::new_with_srq` -/

/-- The addresses that the creating calls of an `RC` answer, and whether a failing
    `ib_create_qp` fails early. -/
structure RcAnswers where
  cq : BitVec 64
  qp : BitVec 64
  early : Bool
  cm : BitVec 64

/-- The `ClientCM` of an `RC`: a `cm_id` that is passed in or, without one, a new one. -/
def clientCm (l : Ledger) (cm res : BitVec 64) : Except Stop (Option (BitVec 64) × Ledger) :=
  if cm = 0 then do
    let l ← l.ibCreateCmId res
    return (if res = 0 then none else some res, l)
  else .ok (some cm, l)

/-- The rest of `RC::new_with_srq` after the queue pair: the `ClientCM`, then the fields. -/
def RC.fill (l : Ledger) (qp cq recvCq cm res : BitVec 64) :
    Except Stop (Option Value × Ledger) := do
  match ← clientCm l cm res with
  | (none, l) => bail (.rc 0 0 0 0) l
  | (some cm, l) => return (some (.rc qp cq recvCq cm), l)

def RC.newWithSrq (l : Ledger) (recvCq cm : BitVec 64) (ans : RcAnswers) :
    Except Stop (Option Value × Ledger) := do
  -- The pointers are compared with null only, here and below.
  let l ← l.ibCreateCq ans.cq
  if ans.cq = 0 then bail (.rc 0 0 0 0) l else do
  let recvCq := if recvCq = 0 then ans.cq else recvCq
  if recvCq = 0 then bail (.rc 0 0 0 0) l else do
  let l ← l.ibCreateQp ans.cq recvCq ans.qp ans.early
  if ans.qp = 0 then bail (.rc 0 0 0 0) l else
  RC.fill l ans.qp ans.cq recvCq cm ans.cm

/-! ## `UD::new_from_config` -/

/-- What the calls answer that make a `UD`: the addresses, the state that `ib_query_qp`
    reports (`none` if it fails), and which transitions succeed. -/
structure UdAnswers where
  cq : BitVec 64
  recvCq : BitVec 64
  qp : BitVec 64
  early : Bool
  query : Option QpState
  init : Bool
  rtr : Bool
  rts : Bool

/-- The receive queue of a `UD`: a shared one or, without one, a new one. -/
def udRecvCq (l : Ledger) (recvCq res : BitVec 64) : Except Stop (BitVec 64 × Ledger) :=
  if recvCq = 0 then do
    let l ← l.ibCreateCq res
    return (res, l)
  else .ok (recvCq, l)

/-- `UD::bring_ud_to_ready`: whether it returns `Ok`. -/
def UD.bringUdToReady (l : Ledger) (qp : BitVec 64) (ans : UdAnswers) : Except Stop Bool := do
  l.touch (.qp, qp)
  match ans.query with
  | none => .error .panic
  | some .reset => do
    let ok ← l.ibModifyQp qp ans.init
    if !ok then return false else do
    let ok ← l.ibModifyQp qp ans.rtr
    if !ok then return false else
    l.ibModifyQp qp ans.rts
  | some _ => return true

def UD.newFromConfig (l : Ledger) (recvCq : BitVec 64) (ans : UdAnswers) :
    Except Stop (Option Value × Ledger) := do
  let sharedRecvCq := decide (recvCq ≠ 0)
  let l ← l.ibCreateCq ans.cq
  if ans.cq = 0 then bail (.ud 0 0 0 sharedRecvCq) l else do
  let (recvCq, l) ← udRecvCq l recvCq ans.recvCq
  if recvCq = 0 then bail (.ud 0 0 0 sharedRecvCq) l else do
  let l ← l.ibCreateQp ans.cq recvCq ans.qp ans.early
  if ans.qp = 0 then bail (.ud 0 0 0 sharedRecvCq) l else do
  -- An error of a transition is printed and nothing else.
  let _ ← UD.bringUdToReady l ans.qp ans
  return (some (.ud ans.qp ans.cq recvCq sharedRecvCq), l)

/-! ## `DC::new_with_srq` -/

/-- What the calls answer that make a `DC`. -/
structure DcAnswers where
  cq : BitVec 64
  qp : BitVec 64
  early : Bool
  init : Bool
  rtr : Bool
  rts : Bool

/-- `create_dc_qp`: the queue pair and the two completion queues, or nulls. -/
def createDcQp (l : Ledger) (pd recvCq : BitVec 64) (ans : DcAnswers) :
    Except Stop ((BitVec 64 × BitVec 64 × BitVec 64) × Ledger) :=
  if pd = 0 then .ok ((0, 0, 0), l) else do
  let l ← l.ibCreateCq ans.cq
  if ans.cq = 0 then return ((0, 0, 0), l) else do
  let recvCq := if recvCq = 0 then ans.cq else recvCq
  let (qp, l) ← l.ibCreateQpDct ans.cq recvCq ans.qp ans.early
  return ((qp, ans.cq, recvCq), l)

def bringDcToReady (l : Ledger) (qp : BitVec 64) (ans : DcAnswers) : Except Stop Bool := do
  let ok ← l.ibModifyQp qp ans.init
  if !ok then return false else do
  let ok ← l.ibModifyQp qp ans.rtr
  if !ok then return false else
  l.ibModifyQp qp ans.rts

def DC.newWithSrq (l : Ledger) (pd recvCq : BitVec 64) (ans : DcAnswers) :
    Except Stop (Option Value × Ledger) := do
  let ((qp, cq, recvCq), l) ← createDcQp l pd recvCq ans
  if qp = 0 then bail (.dc 0 0 0) l else
  if cq = 0 then bail (.dc 0 0 0) l else
  if recvCq = 0 then bail (.dc 0 0 0) l else do
  let ready ← bringDcToReady l qp ans
  -- The fields are still null, so the drop finds nothing to destroy.
  if !ready then bail (.dc 0 0 0) l else
  return (some (.dc qp cq recvCq), l)

/-! ## The system -/

/-- The live values, and the objects that belong to others: the completion queues of DC
    targets, which queues share, and the `cm_id`s of connection requests, which an `RC`
    takes over. -/
structure State where
  ledger : Ledger
  values : List Value
  others : Finset Object

inductive Event where
  | rc (recvCq cm : BitVec 64) (ans : RcAnswers)
  | ud (recvCq : BitVec 64) (ans : UdAnswers)
  | dc (pd recvCq : BitVec 64) (ans : DcAnswers)
  /-- The last reference to the value at an index goes away. -/
  | drop (i : Nat)
  /-- Somebody else creates an object. -/
  | lend (kind : Kind) (res : BitVec 64)
  /-- The connection manager destroys the `cm_id` of a request that no `RC` took. -/
  | refuse (cm : BitVec 64)

namespace State

def empty : State := ⟨.empty, [], ∅⟩

/-- An argument of a constructor is null or an object of somebody else. -/
def argument (s : State) (kind : Kind) (p : BitVec 64) : Except Stop Unit :=
  if p = 0 ∨ (kind, p) ∈ s.others then .ok () else .error .impossible

/-- The `cm_id` that an `RC` takes over. -/
def taken (cm : BitVec 64) : Finset Object := if cm = 0 then ∅ else {(.cm, cm)}

/-- A constructor returns. -/
def built (s : State) (given : Finset Object) : Option Value × Ledger → State
  | (none, l) => { s with ledger := l }
  | (some v, l) => { ledger := l, values := v :: s.values, others := s.others \ given }

def step (s : State) : Event → Except Stop State
  | .rc recvCq cm ans => do
    s.argument .cq recvCq
    s.argument .cm cm
    s.built (taken cm) <$> RC.newWithSrq s.ledger recvCq cm ans
  | .ud recvCq ans => do
    s.argument .cq recvCq
    s.built ∅ <$> UD.newFromConfig s.ledger recvCq ans
  | .dc pd recvCq ans => do
    s.argument .cq recvCq
    s.built ∅ <$> DC.newWithSrq s.ledger pd recvCq ans
  | .drop i =>
    match s.values[i]? with
    | none => .error .impossible
    | some v => do
      let l ← v.drop s.ledger
      return { s with ledger := l, values := s.values.eraseIdx i }
  | .lend kind res =>
    if ptrIsErr res then .error .impossible else do
    let l ← s.ledger.create kind res
    return { s with ledger := l, others := insert (kind, res) s.others }
  | .refuse cm =>
    if (.cm, cm) ∈ s.others then do
      let l ← s.ledger.destroy (.cm, cm)
      return { s with ledger := l, others := s.others.erase (.cm, cm) }
    else .error .impossible

/-- The objects that are alive are the ones that the live values own and those of
    others, and none of them has two owners. -/
def Exact (s : State) : Prop :=
  s.ledger.live.val = ↑(s.values.flatMap Value.owned) + s.others.val

instance (s : State) : Decidable s.Exact :=
  inferInstanceAs (Decidable (s.ledger.live.val = _))

end State

/-- The machine runs, or it has stopped at a fault or a panic. -/
inductive Life where
  | running (s : State)
  | stopped (why : Stop)

namespace Life

def step : Life → Event → Option Life
  | .running s, e =>
    match s.step e with
    | .ok s' => some (.running s')
    | .error .impossible => none
    | .error why => some (.stopped why)
  | .stopped _, _ => none

def Exact : Life → Prop
  | .running s => s.Exact
  | .stopped _ => False

end Life

/-! ## Creating and destroying one object -/

namespace Ledger

variable {l l' : Ledger}

theorem create_of_err {res : BitVec 64} (h : ptrIsErr res = true) (kind : Kind) :
    l.create kind res = .ok l := by
  rw [create, dif_pos h]

theorem create_of_ok {res : BitVec 64} (h : ptrIsErr res = false) (l : Ledger) (kind : Kind) :
    l.create kind res = .error .impossible ∨
      ∃ l', l.create kind res = .ok l' ∧ res ≠ 0 ∧ l'.live.val = (kind, res) ::ₘ l.live.val := by
  rw [create, dif_neg (by simp [h])]
  split
  · exact Or.inl rfl
  · rename_i hfresh
    refine Or.inr ⟨_, rfl, fun h0 => hfresh (Or.inl h0), ?_⟩
    exact Finset.insert_val_of_notMem fun hmem => hfresh (Or.inr ⟨_, hmem, rfl⟩)

theorem touch_of_mem {o : Object} (h : o ∈ l.live) : l.touch o = .ok () := by
  rw [touch, if_pos h]

theorem touch_of_err {p : BitVec 64} (h : ptrIsErr p = true) (kind : Kind) :
    l.touch (kind, p) = .error .fault := by
  rw [touch, if_neg]
  intro hmem
  have hok := (l.proper _ hmem).2
  simp [h] at hok

theorem mem_of_val_eq_cons {o : Object} {m : Multiset Object} (h : l.live.val = o ::ₘ m) :
    o ∈ l.live := by
  rw [← Finset.mem_val, h]
  exact Multiset.mem_cons_self o m

theorem mem_of_cons_val {o o' : Object} (h : l'.live.val = o' ::ₘ l.live.val) (ho : o ∈ l.live) :
    o ∈ l'.live := by
  rw [← Finset.mem_val, h]
  exact Multiset.mem_cons_of_mem ho

theorem destroy_of_cons {o : Object} {m : Multiset Object} (h : l.live.val = o ::ₘ m) :
    ∃ l', l.destroy o = .ok l' ∧ l'.live.val = m := by
  rw [destroy, if_pos (mem_of_val_eq_cons h)]
  refine ⟨_, rfl, ?_⟩
  rw [Finset.erase_val, h, Multiset.erase_cons_head]

theorem destroyIfSome_of_cons {o : Object} {m : Multiset Object} (h : l.live.val = o ::ₘ m) :
    ∃ l', l.destroyIfSome o = .ok l' ∧ l'.live.val = m := by
  rw [destroyIfSome, if_neg (l.proper o (mem_of_val_eq_cons h)).1]
  exact destroy_of_cons h

/-! ## Creating a queue pair -/

theorem ibCreateQp_of_err_cq {cq : BitVec 64} (h : ptrIsErr cq = true) (recvCq res : BitVec 64)
    (early : Bool) :
    l.ibCreateQp cq recvCq res early = .error .fault ∧ ¬(ptrIsErr res = true ∧ early = true) ∨
      l.ibCreateQp cq recvCq res early = .ok l ∧ ptrIsErr res = true ∧ early = true := by
  rw [← Bool.and_eq_true]
  unfold ibCreateQp
  split
  · exact Or.inr ⟨rfl, by assumption⟩
  · exact Or.inl ⟨by simp only [bind, Except.bind, touch_of_err h], by assumption⟩

theorem ibCreateQp_of_err_recvCq {cq recvCq : BitVec 64} (hcq : (.cq, cq) ∈ l.live)
    (h : ptrIsErr recvCq = true) (res : BitVec 64) (early : Bool) :
    l.ibCreateQp cq recvCq res early = .error .fault ∨
      l.ibCreateQp cq recvCq res early = .ok l ∧ ptrIsErr res = true := by
  unfold ibCreateQp
  split
  · rename_i hearly
    simp only [Bool.and_eq_true] at hearly
    exact Or.inr ⟨rfl, hearly.1⟩
  · exact Or.inl (by simp only [bind, Except.bind, touch_of_mem hcq, touch_of_err h])

theorem ibCreateQp_of_mem {cq recvCq : BitVec 64} (hcq : (.cq, cq) ∈ l.live)
    (hrecv : (.cq, recvCq) ∈ l.live) (res : BitVec 64) (early : Bool) :
    l.ibCreateQp cq recvCq res early = l.create .qp res := by
  unfold ibCreateQp
  split
  · rename_i hearly
    simp only [Bool.and_eq_true] at hearly
    rw [create_of_err hearly.1]
  · simp only [bind, Except.bind, touch_of_mem hcq, touch_of_mem hrecv]

theorem ibModifyQp_of_mem {qp : BitVec 64} (h : (.qp, qp) ∈ l.live) (ok : Bool) :
    l.ibModifyQp qp ok = .ok ok := by
  simp only [ibModifyQp, bind, Except.bind, touch_of_mem h, pure, Except.pure]

end Ledger

theorem ne_zero_of_ptrIsErr {p : BitVec 64} (h : ptrIsErr p = true) : p ≠ 0 := by
  rintro rfl
  simp [ptrIsErr] at h

section

variable (qp cq recvCq cm : BitVec 64) (m : Multiset Object)

theorem Value.owned_rc_add :
    ↑(rc qp cq recvCq cm).owned + m = (.qp, qp) ::ₘ (.cq, cq) ::ₘ (.cm, cm) ::ₘ m := by
  simp [owned, ← Multiset.cons_coe]

theorem Value.owned_ud_shared_add :
    ↑(ud qp cq recvCq true).owned + m = (.qp, qp) ::ₘ (.cq, cq) ::ₘ m := by
  simp [owned, ← Multiset.cons_coe]

theorem Value.owned_ud_add :
    ↑(ud qp cq recvCq false).owned + m = (.qp, qp) ::ₘ (.cq, cq) ::ₘ (.cq, recvCq) ::ₘ m := by
  simp [owned, ← Multiset.cons_coe]

theorem Value.owned_dc_add :
    ↑(dc qp cq recvCq).owned + m = (.qp, qp) ::ₘ (.cq, cq) ::ₘ m := by
  simp [owned, ← Multiset.cons_coe]

end

/-- Dropping a value destroys what it owns and nothing else. -/
theorem Value.drop_of_owned {l : Ledger} {v : Value} {rest : Multiset Object}
    (h : l.live.val = ↑v.owned + rest) : ∃ l', v.drop l = .ok l' ∧ l'.live.val = rest := by
  cases v with
  | rc qp cq recvCq cm =>
    rw [owned_rc_add] at h
    obtain ⟨l₁, h₁, hl₁⟩ := Ledger.destroyIfSome_of_cons h
    obtain ⟨l₂, h₂, hl₂⟩ := Ledger.destroyIfSome_of_cons hl₁
    obtain ⟨l₃, h₃, hl₃⟩ := Ledger.destroyIfSome_of_cons hl₂
    have htouch := Ledger.touch_of_mem (Ledger.mem_of_val_eq_cons h)
    exact ⟨l₃, by simp only [drop, bind, Except.bind, htouch, h₁, h₂, h₃], hl₃⟩
  | ud qp cq recvCq sharedRecvCq =>
    cases sharedRecvCq with
    | true =>
      rw [owned_ud_shared_add] at h
      obtain ⟨l₁, h₁, hl₁⟩ := Ledger.destroyIfSome_of_cons h
      obtain ⟨l₂, h₂, hl₂⟩ := Ledger.destroyIfSome_of_cons hl₁
      have htouch := Ledger.touch_of_mem (Ledger.mem_of_val_eq_cons h)
      exact ⟨l₂, by simp [drop, bind, Except.bind, pure, Except.pure, htouch, h₁, h₂], hl₂⟩
    | false =>
      rw [owned_ud_add] at h
      obtain ⟨l₁, h₁, hl₁⟩ := Ledger.destroyIfSome_of_cons h
      obtain ⟨l₂, h₂, hl₂⟩ := Ledger.destroyIfSome_of_cons hl₁
      obtain ⟨l₃, h₃, hl₃⟩ := Ledger.destroyIfSome_of_cons hl₂
      have htouch := Ledger.touch_of_mem (Ledger.mem_of_val_eq_cons h)
      exact ⟨l₃, by simp [drop, bind, Except.bind, htouch, h₁, h₂, h₃], hl₃⟩
  | dc qp cq recvCq =>
    rw [owned_dc_add] at h
    obtain ⟨l₁, h₁, hl₁⟩ := Ledger.destroyIfSome_of_cons h
    obtain ⟨l₂, h₂, hl₂⟩ := Ledger.destroyIfSome_of_cons hl₁
    exact ⟨l₂, by simp only [drop, bind, Except.bind, h₁, h₂], hl₂⟩

/-! ## What a constructor can do -/

/-- No call that makes an `RC` fails. -/
def RcAnswers.Succeed (cm : BitVec 64) (ans : RcAnswers) : Prop :=
  ptrIsErr ans.cq = false ∧ ptrIsErr ans.qp = false ∧ (cm = 0 → ptrIsErr ans.cm = false)

/-- No creating call of a `UD` fails, and neither does the query of its state. -/
def UdAnswers.Succeed (recvCq : BitVec 64) (ans : UdAnswers) : Prop :=
  ptrIsErr ans.cq = false ∧ (recvCq = 0 → ptrIsErr ans.recvCq = false) ∧
    ptrIsErr ans.qp = false ∧ ans.query.isSome

/-- No call that makes a `DC` fails, the transitions included. -/
def DcAnswers.Succeed (ans : DcAnswers) : Prop :=
  ptrIsErr ans.cq = false ∧ ptrIsErr ans.qp = false ∧
    (ans.init && ans.rtr && ans.rts) = true

/-- Nothing is made of a `DC`: there is no protection domain, or no completion queue and
    the queue pair fails early. -/
def DcAnswers.Nothing (pd : BitVec 64) (ans : DcAnswers) : Prop :=
  pd = 0 ∨ ptrIsErr ans.cq = true ∧ ptrIsErr ans.qp = true ∧ ans.early = true

/-- The outcomes of a constructor that takes over the objects `given`: `ok` is whether
    its calls succeed. -/
inductive Outcome (l : Ledger) (given : Multiset Object) (ok : Prop) :
    Except Stop (Option Value × Ledger) → Prop
  | impossible : Outcome l given ok (.error .impossible)
  | stopped {why : Stop} (hok : ¬ok) (hwhy : why ≠ .impossible) : Outcome l given ok (.error why)
  /-- A value is returned with an error pointer in it. -/
  | broken {v : Value} {l' : Ledger} {o : Object} (hok : ¬ok) (ho : o ∈ v.owned)
      (herr : ptrIsErr o.2 = true) : Outcome l given ok (.ok (some v, l'))
  | leaked {l' : Ledger} (hok : ¬ok) (hl : l.live.val < l'.live.val) :
      Outcome l given ok (.ok (none, l'))
  | nothing (hok : ok) : Outcome l given ok (.ok (none, l))
  | created {v : Value} {l' : Ledger} (hok : ok)
      (hl : l'.live.val + given = ↑v.owned + l.live.val) : Outcome l given ok (.ok (some v, l'))

section

variable {l l₁ : Ledger} {cq recvCq : BitVec 64}

/-- The receive queue of an `RC` or a `DC` is alive once its send queue is. -/
theorem mem_recvCq (hrecv : recvCq = 0 ∨ (.cq, recvCq) ∈ l.live)
    (h₁ : l₁.live.val = (.cq, cq) ::ₘ l.live.val) :
    (.cq, if recvCq = 0 then cq else recvCq) ∈ l₁.live := by
  split
  · exact Ledger.mem_of_val_eq_cons h₁
  · rename_i hne
    exact Ledger.mem_of_cons_val h₁ (hrecv.resolve_left hne)

theorem recvCq_ne_zero (h : cq ≠ 0) : (if recvCq = 0 then cq else recvCq) ≠ 0 := by
  split <;> assumption

/-- A `cm_id` that is passed in is taken, and otherwise one is created, unless the call
    fails. -/
theorem clientCm_cases (l : Ledger) (cm res : BitVec 64) :
    clientCm l cm res = .error .impossible ∨
      ∃ p l', clientCm l cm res = .ok (some p, l') ∧
        (cm = 0 ∧ ptrIsErr res = true ∧ p = res ∨
          (cm = 0 → ptrIsErr res = false) ∧
            l'.live.val + (State.taken cm).val = (.cm, p) ::ₘ l.live.val) := by
  by_cases hcm : cm = 0
  · subst hcm
    simp only [clientCm, Ledger.ibCreateCmId, bind, Except.bind, pure, Except.pure, if_true]
    cases herr : ptrIsErr res with
    | true =>
      refine Or.inr ⟨res, l, ?_, Or.inl ⟨trivial, rfl, rfl⟩⟩
      simp only [Ledger.create_of_err herr, if_neg (ne_zero_of_ptrIsErr herr)]
    | false =>
      rcases Ledger.create_of_ok herr l .cm with h | ⟨l', h, hne, hl'⟩
      · exact Or.inl (by rw [h])
      · refine Or.inr ⟨res, l', ?_, Or.inr ⟨fun _ => rfl, by simp [State.taken, hl']⟩⟩
        simp only [h, if_neg hne]
  · refine Or.inr ⟨cm, l, if_neg hcm, Or.inr ⟨fun h => absurd h hcm, ?_⟩⟩
    rw [State.taken, if_neg hcm, add_comm]
    rfl

/-- An error pointer for the queue pair goes into the value. -/
theorem RC.fill_of_err {l' : Ledger} {given : Multiset Object} {ok : Prop} {qp : BitVec 64}
    (hok : ¬ok) (h : ptrIsErr qp = true) (cq recvCq cm res : BitVec 64) :
    Outcome l given ok (RC.fill l' qp cq recvCq cm res) := by
  rcases clientCm_cases l' cm res with hcm | ⟨p, l'', hcm, -⟩
  · simp only [RC.fill, hcm, bind, Except.bind]
    exact .impossible
  · simp only [RC.fill, hcm, bind, Except.bind]
    exact .broken hok List.mem_cons_self h

theorem RC.newWithSrq_outcome (hrecv : recvCq = 0 ∨ (.cq, recvCq) ∈ l.live) (cm : BitVec 64)
    (ans : RcAnswers) :
    Outcome l (State.taken cm).val (ans.Succeed cm) (RC.newWithSrq l recvCq cm ans) := by
  cases hcq : ptrIsErr ans.cq with
  | true =>
    have hfail : ¬ans.Succeed cm := by simp [RcAnswers.Succeed, hcq]
    have hne := ne_zero_of_ptrIsErr hcq
    simp only [RC.newWithSrq, Ledger.ibCreateCq, Ledger.create_of_err hcq, bind, Except.bind,
      if_neg hne, if_neg (recvCq_ne_zero hne)]
    rcases Ledger.ibCreateQp_of_err_cq hcq _ ans.qp ans.early with ⟨h, -⟩ | ⟨h, hqp, -⟩
    · rw [h]
      exact .stopped hfail nofun
    · simp only [h, if_neg (ne_zero_of_ptrIsErr hqp)]
      exact RC.fill_of_err hfail hqp _ _ _ _
  | false =>
    rcases Ledger.create_of_ok hcq l .cq with h₁ | ⟨l₁, h₁, hne, hl₁⟩
    · simp only [RC.newWithSrq, Ledger.ibCreateCq, h₁, bind, Except.bind]
      exact .impossible
    have hcreate := Ledger.ibCreateQp_of_mem (Ledger.mem_of_val_eq_cons hl₁) (mem_recvCq hrecv hl₁)
      ans.qp ans.early
    simp only [RC.newWithSrq, Ledger.ibCreateCq, h₁, bind, Except.bind, if_neg hne,
      if_neg (recvCq_ne_zero hne), hcreate]
    cases hqp : ptrIsErr ans.qp with
    | true =>
      simp only [Ledger.create_of_err hqp, if_neg (ne_zero_of_ptrIsErr hqp)]
      exact RC.fill_of_err (by simp [RcAnswers.Succeed, hqp]) hqp _ _ _ _
    | false =>
      rcases Ledger.create_of_ok hqp l₁ .qp with h₂ | ⟨l₂, h₂, hne₂, hl₂⟩
      · rw [h₂]
        exact .impossible
      simp only [h₂, if_neg hne₂, RC.fill, bind, Except.bind]
      rcases clientCm_cases l₂ cm ans.cm with h | ⟨p, l', h, hp⟩
      · rw [h]
        exact .impossible
      rw [h]
      rcases hp with ⟨hcm, herr, rfl⟩ | ⟨hcm, hl'⟩
      · refine .broken (o := (.cm, ans.cm)) ?_ (by simp [Value.owned]) herr
        simp [RcAnswers.Succeed, hcm, herr]
      · refine .created ⟨hcq, hqp, hcm⟩ ?_
        rw [hl', hl₂, hl₁, Value.owned_rc_add, Multiset.cons_swap, Multiset.cons_swap (Kind.cm, p)]

/-- The receive queue of a `UD` is there, unless its creation fails. -/
theorem udRecvCq_cases (hrecv : recvCq = 0 ∨ (.cq, recvCq) ∈ l.live) (res : BitVec 64) :
    udRecvCq l recvCq res = .error .impossible ∨
      ∃ r l', udRecvCq l recvCq res = .ok (r, l') ∧ r ≠ 0 ∧ (∀ o ∈ l.live, o ∈ l'.live) ∧
        (recvCq = 0 ∧ ptrIsErr res = true ∧ r = res ∨
          (recvCq = 0 → ptrIsErr res = false) ∧ (.cq, r) ∈ l'.live ∧
            l'.live.val = ↑(if recvCq = 0 then [(Kind.cq, r)] else []) + l.live.val) := by
  by_cases hr : recvCq = 0
  · subst hr
    simp only [udRecvCq, Ledger.ibCreateCq, bind, Except.bind, pure, Except.pure, if_true]
    cases herr : ptrIsErr res with
    | true =>
      refine Or.inr ⟨res, l, ?_, ne_zero_of_ptrIsErr herr, fun _ h => h,
        Or.inl ⟨trivial, rfl, rfl⟩⟩
      rw [Ledger.create_of_err herr]
    | false =>
      rcases Ledger.create_of_ok herr l .cq with h | ⟨l', h, hne, hl'⟩
      · exact Or.inl (by rw [h])
      · exact Or.inr ⟨res, l', by rw [h], hne, fun _ => Ledger.mem_of_cons_val hl',
          Or.inr ⟨fun _ => rfl, Ledger.mem_of_val_eq_cons hl', hl'⟩⟩
  · refine Or.inr ⟨recvCq, l, if_neg hr, hr, fun _ h => h, Or.inr ⟨fun h => absurd h hr, ?_⟩⟩
    exact ⟨hrecv.resolve_left hr, by rw [if_neg hr, Multiset.coe_nil, zero_add]⟩

theorem UD.bringUdToReady_of_err {qp : BitVec 64} (h : ptrIsErr qp = true) (ans : UdAnswers) :
    UD.bringUdToReady l qp ans = .error .fault := by
  simp only [UD.bringUdToReady, bind, Except.bind, Ledger.touch_of_err h]

/-- A failing transition of a `UD` changes nothing, a failing query is a panic. -/
theorem UD.bringUdToReady_of_mem {ans : UdAnswers} (h : (.qp, ans.qp) ∈ l.live) :
    UD.bringUdToReady l ans.qp ans = .error .panic ∧ ans.query = none ∨
      ∃ ok, UD.bringUdToReady l ans.qp ans = .ok ok ∧ ans.query.isSome := by
  simp only [UD.bringUdToReady, Ledger.touch_of_mem h, Ledger.ibModifyQp_of_mem h, bind, Except.bind,
    pure, Except.pure]
  cases ans.query with
  | none => exact Or.inl ⟨rfl, rfl⟩
  | some st =>
    right
    cases st with
    | reset => cases ans.init <;> cases ans.rtr <;> exact ⟨_, rfl, rfl⟩
    | init | rtr | rts | err => exact ⟨_, rfl, rfl⟩

theorem UD.newFromConfig_outcome (hrecv : recvCq = 0 ∨ (.cq, recvCq) ∈ l.live) (ans : UdAnswers) :
    Outcome l 0 (ans.Succeed recvCq) (UD.newFromConfig l recvCq ans) := by
  cases hcq : ptrIsErr ans.cq with
  | true =>
    have hfail : ¬ans.Succeed recvCq := by simp [UdAnswers.Succeed, hcq]
    simp only [UD.newFromConfig, Ledger.ibCreateCq, Ledger.create_of_err hcq, bind, Except.bind,
      if_neg (ne_zero_of_ptrIsErr hcq)]
    rcases udRecvCq_cases hrecv ans.recvCq with h | ⟨r, l', h, hr, -⟩
    · rw [h]
      exact .impossible
    simp only [h, if_neg hr]
    rcases Ledger.ibCreateQp_of_err_cq hcq r ans.qp ans.early with ⟨h, -⟩ | ⟨h, hqp, -⟩
    · rw [h]
      exact .stopped hfail nofun
    · simp only [h, if_neg (ne_zero_of_ptrIsErr hqp), UD.bringUdToReady_of_err hqp]
      exact .stopped hfail nofun
  | false =>
    rcases Ledger.create_of_ok hcq l .cq with h₁ | ⟨l₁, h₁, hne, hl₁⟩
    · simp only [UD.newFromConfig, Ledger.ibCreateCq, h₁, bind, Except.bind]
      exact .impossible
    have hrecv₁ := hrecv.imp_right (Ledger.mem_of_cons_val hl₁)
    simp only [UD.newFromConfig, Ledger.ibCreateCq, h₁, bind, Except.bind, if_neg hne]
    rcases udRecvCq_cases hrecv₁ ans.recvCq with h₂ | ⟨r, l₂, h₂, hr, hmem, hcases⟩
    · rw [h₂]
      exact .impossible
    have hcq₂ := hmem _ (Ledger.mem_of_val_eq_cons hl₁)
    simp only [h₂, if_neg hr]
    rcases hcases with ⟨hnull, herr, rfl⟩ | ⟨hok, hr₂, hl₂⟩
    · -- The second completion queue fails: `ib_create_qp` uses it, or the query uses its error.
      have hfail : ¬ans.Succeed recvCq := by simp [UdAnswers.Succeed, hnull, herr]
      rcases Ledger.ibCreateQp_of_err_recvCq hcq₂ herr ans.qp ans.early with h | ⟨h, hqp⟩
      · rw [h]
        exact .stopped hfail nofun
      · simp only [h, if_neg (ne_zero_of_ptrIsErr hqp), UD.bringUdToReady_of_err hqp]
        exact .stopped hfail nofun
    rw [Ledger.ibCreateQp_of_mem hcq₂ hr₂]
    cases hqpe : ptrIsErr ans.qp with
    | true =>
      simp only [Ledger.create_of_err hqpe, if_neg (ne_zero_of_ptrIsErr hqpe),
        UD.bringUdToReady_of_err hqpe]
      exact .stopped (by simp [UdAnswers.Succeed, hqpe]) nofun
    | false =>
      rcases Ledger.create_of_ok hqpe l₂ .qp with h₃ | ⟨l₃, h₃, hne₃, hl₃⟩
      · rw [h₃]
        exact .impossible
      simp only [h₃, if_neg hne₃]
      rcases UD.bringUdToReady_of_mem (Ledger.mem_of_val_eq_cons hl₃) with ⟨hb, hq⟩ | ⟨ok, hb, hq⟩
      · rw [hb]
        exact .stopped (by simp [UdAnswers.Succeed, hq]) nofun
      · rw [hb]
        refine .created ⟨hcq, hok, hqpe, hq⟩ ?_
        rw [add_zero, hl₃, hl₂, hl₁]
        by_cases hnull : recvCq = 0
        · rw [if_pos hnull, decide_eq_false (not_not.mpr hnull), Value.owned_ud_add,
            Multiset.cons_swap (Kind.cq, ans.cq)]
          rfl
        · rw [if_neg hnull, decide_eq_true hnull, Value.owned_ud_shared_add, Multiset.coe_nil,
            zero_add]

theorem bringDcToReady_of_mem {qp : BitVec 64} (h : (.qp, qp) ∈ l.live) (ans : DcAnswers) :
    bringDcToReady l qp ans = .ok (ans.init && ans.rtr && ans.rts) := by
  simp only [bringDcToReady, Ledger.ibModifyQp_of_mem h, bind, Except.bind, pure, Except.pure]
  cases ans.init <;> cases ans.rtr <;> rfl

theorem DC.newWithSrq_outcome (hrecv : recvCq = 0 ∨ (.cq, recvCq) ∈ l.live) (pd : BitVec 64)
    (ans : DcAnswers) : Outcome l 0 (ans.Nothing pd ∨ ans.Succeed) (DC.newWithSrq l pd recvCq ans) := by
  by_cases hpd : pd = 0
  · have hnone : DC.newWithSrq l pd recvCq ans = .ok (none, l) := by
      rw [DC.newWithSrq, createDcQp, if_pos hpd]
      rfl
    rw [hnone]
    exact .nothing (Or.inl (Or.inl hpd))
  simp only [DC.newWithSrq, createDcQp, if_neg hpd, Ledger.ibCreateCq, Ledger.ibCreateQpDct, bind,
    Except.bind, pure, Except.pure]
  cases hcq : ptrIsErr ans.cq with
  | true =>
    simp only [Ledger.create_of_err hcq, if_neg (ne_zero_of_ptrIsErr hcq)]
    rcases Ledger.ibCreateQp_of_err_cq hcq _ ans.qp ans.early with ⟨h, hlate⟩ | ⟨h, hqp, hearly⟩
    · rw [h]
      refine .stopped ?_ nofun
      rintro ((h0 | ⟨-, h⟩) | ⟨h, -⟩)
      · exact hpd h0
      · exact hlate h
      · simp [hcq] at h
    · -- Both calls have failed, and nothing was used in between.
      simp only [h, hqp, if_true]
      exact .nothing (Or.inl (Or.inr ⟨hcq, hqp, hearly⟩))
  | false =>
    have hmade : ¬ans.Nothing pd := by
      rintro (h0 | ⟨h, -⟩)
      · exact hpd h0
      · simp [hcq] at h
    rw [or_iff_right hmade]
    rcases Ledger.create_of_ok hcq l .cq with h₁ | ⟨l₁, h₁, hne, hl₁⟩
    · rw [h₁]
      exact .impossible
    have hcreate := Ledger.ibCreateQp_of_mem (Ledger.mem_of_val_eq_cons hl₁) (mem_recvCq hrecv hl₁)
      ans.qp ans.early
    simp only [h₁, if_neg hne, hcreate]
    cases hqp : ptrIsErr ans.qp with
    | true =>
      -- The completion queue is in a local only, and the drop does not see it.
      simp only [Ledger.create_of_err hqp, if_true]
      refine .leaked (by simp [DcAnswers.Succeed, hqp]) ?_
      rw [hl₁]
      exact Multiset.lt_cons_self _ _
    | false =>
      rcases Ledger.create_of_ok hqp l₁ .qp with h₂ | ⟨l₂, h₂, hne₂, hl₂⟩
      · rw [h₂]
        exact .impossible
      have hready := bringDcToReady_of_mem (Ledger.mem_of_val_eq_cons hl₂) ans
      simp only [h₂, Bool.false_eq_true, if_false, if_neg hne₂, if_neg hne,
        if_neg (recvCq_ne_zero hne), hready]
      cases hall : ans.init && ans.rtr && ans.rts with
      | false =>
        refine .leaked (by simp [DcAnswers.Succeed, hall]) ?_
        rw [hl₂, hl₁]
        exact (Multiset.lt_cons_self _ _).trans (Multiset.lt_cons_self _ _)
      | true =>
        refine .created ⟨hcq, hqp, hall⟩ ?_
        rw [add_zero, hl₂, hl₁, Value.owned_dc_add]

end

/-! ## Steps and runs -/

/-- The calls that an event makes succeed, or they leave nothing behind. -/
def Event.Clean : Event → Prop
  | .rc _ cm ans => ans.Succeed cm
  | .ud recvCq ans => ans.Succeed recvCq
  | .dc pd _ ans => ans.Nothing pd ∨ ans.Succeed
  | .drop _ => True
  | .lend _ _ => True
  | .refuse _ => True

namespace State

variable {s s' : State}

theorem Exact.owned_live (h : s.Exact) {v : Value} {o : Object} (hv : v ∈ s.values)
    (ho : o ∈ v.owned) : o ∈ s.ledger.live := by
  rw [← Finset.mem_val, h, Multiset.mem_add, Multiset.mem_coe]
  exact Or.inl (List.mem_flatMap.mpr ⟨v, hv, ho⟩)

theorem Exact.others_live (h : s.Exact) {o : Object} (ho : o ∈ s.others) :
    o ∈ s.ledger.live := by
  rw [← Finset.mem_val, h, Multiset.mem_add]
  exact Or.inr ho

theorem argument_cases (s : State) (kind : Kind) (p : BitVec 64) :
    s.argument kind p = .error .impossible ∨
      s.argument kind p = .ok () ∧ (p = 0 ∨ (kind, p) ∈ s.others) := by
  unfold argument
  split
  · exact Or.inr ⟨rfl, by assumption⟩
  · exact Or.inl rfl

theorem taken_subset {cm : BitVec 64} (h : cm = 0 ∨ (.cm, cm) ∈ s.others) :
    taken cm ⊆ s.others := by
  unfold taken
  split
  · exact Finset.empty_subset _
  · rename_i hne
    exact Finset.singleton_subset_iff.mpr (h.resolve_left hne)

/-- After a constructor has returned, the ledger is exact if and only if its calls
    succeeded. -/
theorem built_exact_iff {given : Finset Object} {ok : Prop} {r : Option Value × Ledger}
    (hs : s.Exact) (hgiven : given ⊆ s.others)
    (h : Outcome s.ledger given.val ok (.ok r)) : (s.built given r).Exact ↔ ok := by
  cases h with
  | broken hok ho herr =>
    -- Nothing is alive at an error pointer, so the value owns what does not exist.
    refine iff_of_false (fun hex => ?_) hok
    have hlive := hex.owned_live List.mem_cons_self ho
    have hproper := ((s.built given _).ledger.proper _ hlive).2
    simp [herr] at hproper
  | leaked hok hl =>
    refine iff_of_false (fun hex => ?_) hok
    exact hl.ne (hs.trans hex.symm)
  | nothing hok => exact iff_of_true hs hok
  | @created v l' hok hl =>
    refine iff_of_true ?_ hok
    -- What was given has left `others` and is now owned by the value.
    have hothers : s.others.val = (s.others \ given).val + given.val := by
      rw [Finset.sdiff_val, Multiset.sub_add_cancel (Finset.val_le_iff.mpr hgiven)]
    refine add_right_cancel (b := given.val) ?_
    calc l'.live.val + given.val
        = ↑v.owned + s.ledger.live.val := hl
      _ = ↑v.owned + (↑(s.values.flatMap Value.owned) + s.others.val) := by rw [hs]
      _ = ↑((v :: s.values).flatMap Value.owned) + (s.others \ given).val + given.val := by
        rw [hothers, List.flatMap_cons, ← Multiset.coe_add]
        simp only [add_assoc]

/-- Dropping a value keeps the ledger exact. -/
theorem drop_exact {i : Nat} {v : Value} (hs : s.Exact) (hv : s.values[i]? = some v) :
    ∃ l, v.drop s.ledger = .ok l ∧
      ({ s with ledger := l, values := s.values.eraseIdx i } : State).Exact := by
  obtain ⟨hi, rfl⟩ := List.getElem?_eq_some_iff.mp hv
  have hperm := (List.getElem_cons_eraseIdx_perm hi).flatMap_right Value.owned
  have howned : s.ledger.live.val = ↑s.values[i].owned +
      (↑((s.values.eraseIdx i).flatMap Value.owned) + s.others.val) := by
    rw [hs, ← Multiset.coe_eq_coe.mpr hperm, List.flatMap_cons, ← Multiset.coe_add, add_assoc]
  exact Value.drop_of_owned howned

theorem lend_exact {kind : Kind} {res : BitVec 64} (hs : s.Exact) {l : Ledger}
    (hl : l.live.val = (kind, res) ::ₘ s.ledger.live.val) :
    ({ s with ledger := l, others := insert (kind, res) s.others } : State).Exact := by
  have hnodup := l.live.nodup
  rw [hl, Multiset.nodup_cons] at hnodup
  have hnew : (kind, res) ∉ s.others := fun ho => hnodup.1 (hs.others_live ho)
  change l.live.val = _ + (insert (kind, res) s.others).val
  rw [hl, hs, Finset.insert_val_of_notMem hnew, Multiset.add_cons]

theorem refuse_exact {o : Object} (hs : s.Exact) (ho : o ∈ s.others) :
    ∃ l, s.ledger.destroy o = .ok l ∧
      ({ s with ledger := l, others := s.others.erase o } : State).Exact := by
  have hothers : s.others.val = o ::ₘ (s.others.erase o).val := by
    rw [Finset.erase_val, Multiset.cons_erase ho]
  have hlive : s.ledger.live.val =
      o ::ₘ (↑(s.values.flatMap Value.owned) + (s.others.erase o).val) := by
    rw [hs, hothers, Multiset.add_cons]
  exact Ledger.destroy_of_cons hlive

end State

namespace Life

variable {s : State} {e : Event} {t : Life}

theorem step_of_ok {s' : State} (h : s.step e = .ok s') (ht : step (.running s) e = some t) :
    t = .running s' := by
  simp only [step, h, Option.some.injEq] at ht
  exact ht.symm

theorem not_impossible (ht : step (.running s) e = some t) : s.step e ≠ .error .impossible := by
  intro h
  simp only [step, h] at ht
  cases ht

theorem step_of_stopped {why : Stop} (h : s.step e = .error why) (hwhy : why ≠ .impossible)
    (ht : step (.running s) e = some t) : t = .stopped why := by
  cases why <;> simp_all [step]

/-- A step that constructs a queue. -/
theorem built_step_iff {given : Finset Object} {ok : Prop}
    {r : Except Stop (Option Value × Ledger)} (hs : s.Exact) (hgiven : given ⊆ s.others)
    (hstep : s.step e = s.built given <$> r) (h : Outcome s.ledger given.val ok r)
    (ht : step (.running s) e = some t) : t.Exact ↔ ok := by
  cases r with
  | ok r =>
    rw [step_of_ok hstep ht]
    exact State.built_exact_iff hs hgiven h
  | error why =>
    cases h with
    | impossible => exact absurd hstep (not_impossible ht)
    | stopped hok hwhy =>
      rw [step_of_stopped hstep hwhy ht]
      exact iff_of_false id hok

/-- One step from an exact ledger leads to an exact one if and only if it is clean. -/
theorem step_exact_iff (hs : s.Exact) (ht : step (.running s) e = some t) :
    t.Exact ↔ e.Clean := by
  cases e with
  | rc recvCq cm ans =>
    rcases s.argument_cases .cq recvCq with h | ⟨h, hrecv⟩
    · exact absurd (by simp only [State.step, h, bind, Except.bind]) (not_impossible ht)
    rcases s.argument_cases .cm cm with h' | ⟨h', hcm⟩
    · exact absurd (by simp only [State.step, h, h', bind, Except.bind]) (not_impossible ht)
    exact built_step_iff hs (State.taken_subset hcm)
      (by simp only [State.step, h, h', bind, Except.bind])
      (RC.newWithSrq_outcome (hrecv.imp_right hs.others_live) cm ans) ht
  | ud recvCq ans =>
    rcases s.argument_cases .cq recvCq with h | ⟨h, hrecv⟩
    · exact absurd (by simp only [State.step, h, bind, Except.bind]) (not_impossible ht)
    exact built_step_iff hs (Finset.empty_subset _)
      (by simp only [State.step, h, bind, Except.bind])
      (UD.newFromConfig_outcome (hrecv.imp_right hs.others_live) ans) ht
  | dc pd recvCq ans =>
    rcases s.argument_cases .cq recvCq with h | ⟨h, hrecv⟩
    · exact absurd (by simp only [State.step, h, bind, Except.bind]) (not_impossible ht)
    exact built_step_iff hs (Finset.empty_subset _)
      (by simp only [State.step, h, bind, Except.bind])
      (DC.newWithSrq_outcome (hrecv.imp_right hs.others_live) pd ans) ht
  | drop i =>
    refine iff_of_true ?_ trivial
    cases hv : s.values[i]? with
    | none =>
      exact absurd (by simp only [State.step, hv]) (not_impossible ht)
    | some v =>
      obtain ⟨l, hl, hexact⟩ := State.drop_exact hs hv
      rw [step_of_ok (by simp only [State.step, hv, hl, bind, Except.bind]; rfl) ht]
      exact hexact
  | lend kind res =>
    refine iff_of_true ?_ trivial
    cases herr : ptrIsErr res with
    | true =>
      exact absurd (by simp only [State.step, herr, if_true]) (not_impossible ht)
    | false =>
      rcases Ledger.create_of_ok herr s.ledger kind with h | ⟨l, h, -, hl⟩
      · exact absurd (by simp [State.step, herr, h, bind, Except.bind]) (not_impossible ht)
      · rw [step_of_ok (by simp [State.step, herr, h, bind, Except.bind]; rfl) ht]
        exact State.lend_exact hs hl
  | refuse cm =>
    refine iff_of_true ?_ trivial
    by_cases hmem : (.cm, cm) ∈ s.others
    · obtain ⟨l, hl, hexact⟩ := State.refuse_exact hs hmem
      rw [step_of_ok (by simp only [State.step, if_pos hmem, hl, bind, Except.bind]; rfl) ht]
      exact hexact
    · exact absurd (by simp only [State.step, if_neg hmem]) (not_impossible ht)

end Life

/-- In every run of constructions and drops, the objects that are alive are always exactly
    the ones that live values and others own, and no invalid pointer is ever used, if and
    only if no creating call fails, no query of a `UD` fails and no transition of a `DC`
    fails, except where nothing at all is made of a `DC`. -/
theorem exact_always_iff (es : List Event) :
    Run.Always Life.step Life.Exact (.running .empty) es ↔
      Run.Guarded Life.step (fun _ e => e.Clean) (.running .empty) es := by
  have hempty : Life.Exact (.running .empty) := rfl
  refine Run.always_iff_guarded (I := fun _ => True) (fun _ _ _ _ _ _ => trivial) ?_ trivial
    hempty es
  intro s e t _ hs ht
  cases s with
  | running s => exact Life.step_exact_iff hs ht
  | stopped why => cases ht

-- An `RC` on a shared queue and the `cm_id` of a request, a `UD` and a `DC` come and go.
example :
    (Run.exec Life.step (.running .empty)
      [.lend .cq 0x10, .lend .cm 0x20, .rc 0x10 0x20 ⟨0x30, 0x40, false, 0⟩,
        .ud 0 ⟨0x50, 0x60, 0x70, false, some .reset, true, false, true⟩,
        .dc 1 0x10 ⟨0x80, 0x90, false, true, true, true⟩, .drop 1, .drop 0, .drop 0]).any (fun
      | .running s => decide (s.ledger.live = {(.cq, 0x10)} ∧ s.values = [])
      | .stopped _ => false) = true := by
  decide +kernel

/-- `ERR_PTR(-ENOMEM)`. -/
def errPtr : BitVec 64 := -12

/-- An `RC` whose `ib_create_qp` fails is returned all the same, and its drop reads the
    number of the queue pair at the error pointer. A `DC` whose `ib_create_qp` fails is not
    returned, and its completion queue stays behind. -/
theorem failed_qp_breaks_ledger :
    (∃ s, Run.exec Life.step (.running .empty) [.rc 0 0 ⟨0x1000, errPtr, true, 0x2000⟩] =
        some (.running s) ∧ s.values = [.rc errPtr 0x1000 0x1000 0x2000] ∧ ¬s.Exact) ∧
      Run.exec Life.step (.running .empty) [.rc 0 0 ⟨0x1000, errPtr, true, 0x2000⟩, .drop 0] =
        some (.stopped .fault) ∧
      ∃ s, Run.exec Life.step (.running .empty) [.dc 0x10 0 ⟨0x1000, errPtr, true, true, true, true⟩] =
        some (.running s) ∧ s.values = [] ∧ (.cq, 0x1000) ∈ s.ledger.live ∧ ¬s.Exact := by
  exact ⟨⟨_, rfl, rfl, by decide⟩, rfl, _, rfl, rfl, by decide, by decide⟩

end Construct
