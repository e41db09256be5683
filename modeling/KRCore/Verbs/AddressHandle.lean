-- SUMMARY: Address handles: their creation and destruction, and the endpoints that own them.
import Mathlib.Logic.Function.Basic
import KRCore.Verbs.Types

/-!
# Address handles

An address handle leads to a lid and a gid. The handles that are alive are kept in a
ledger. Destroying a handle that is not alive is a fault, and `none`.
-/

/-- `IS_ERR`: the last 4095 addresses are error numbers. -/
def ptrIsErr (p : BitVec 64) : Bool := decide (0xfffffffffffff001 ≤ p.toNat)

/-- Where an address handle leads. -/
structure AddressVector where
  lid : BitVec 16
  gid : Gid
deriving DecidableEq

/-- The address handles that are alive. -/
abbrev Ahs := BitVec 64 → Option AddressVector

/-- A handle that `rdma_create_ah` may return: it is not null and was not there. -/
def Ahs.Fresh (ahs : Ahs) (res : BitVec 64) : Prop := res ≠ 0 ∧ ahs res = none

instance (ahs : Ahs) (res : BitVec 64) : Decidable (ahs.Fresh res) :=
  inferInstanceAs (Decidable (_ ∧ _))

/-- What `rdma_create_ah` answers: an error pointer or a fresh handle. -/
structure AhAnswer (ahs : Ahs) where
  res : BitVec 64
  fresh : ptrIsErr res = false → ahs.Fresh res

/-- `create_ib_ah`. An error pointer becomes null. -/
def createIbAh (ahs : Ahs) (res : BitVec 64) (lid : BitVec 16) (gid : Gid) : BitVec 64 × Ahs :=
  if ptrIsErr res then (0, ahs) else (res, Function.update ahs res (some { lid, gid }))

def rdmaDestroyAh (ahs : Ahs) (ah : BitVec 64) : Option Ahs :=
  if (ahs ah).isSome then some (Function.update ahs ah none) else none

theorem createIbAh_of_ok {res : BitVec 64} (h : ptrIsErr res = false) (ahs : Ahs) (lid : BitVec 16)
    (gid : Gid) : createIbAh ahs res lid gid = (res, Function.update ahs res (some { lid, gid })) := by
  rw [createIbAh, h]
  rfl

theorem createIbAh_of_err {res : BitVec 64} (h : ptrIsErr res = true) (ahs : Ahs) (lid : BitVec 16)
    (gid : Gid) : createIbAh ahs res lid gid = (0, ahs) := by
  rw [createIbAh, h]
  rfl

/-- Destroying the handle that has just been created restores the ledger. -/
theorem rdmaDestroyAh_update {ahs : Ahs} {res : BitVec 64} (h : ahs res = none)
    (av : AddressVector) : rdmaDestroyAh (Function.update ahs res (some av)) res = some ahs := by
  rw [rdmaDestroyAh, Function.update_self, Option.isSome_some, if_pos rfl, Function.update_idem,
    ← h, Function.update_eq_self]

namespace EndPoint

def valid (e : EndPoint) : Bool := decide (e.ah ≠ 0)

/-- `EndPoint::transfer`: what is moved out, and what stays behind. -/
def transfer (e : EndPoint) : EndPoint × EndPoint := (e, { e with ah := 0 })

/-- `Drop for EndPoint`. -/
def drop (e : EndPoint) (ahs : Ahs) : Option Ahs :=
  if e.valid then rdmaDestroyAh ahs e.ah else some ahs

/-- `EndPoint::bind_pd`. -/
def bindPd (e : EndPoint) (ahs : Ahs) (res : BitVec 64) : Option (EndPoint × Ahs) :=
  (e.drop ahs).map fun ahs =>
    let (ah, ahs) := createIbAh ahs res e.lid e.gid
    ({ e with ah }, ahs)

theorem drop_of_not_valid {e : EndPoint} (h : e.valid = false) (ahs : Ahs) :
    e.drop ahs = some ahs := by
  unfold drop
  rw [h]
  rfl

/-- A drop takes the handle of the endpoint, and no other. -/
theorem drop_isSome {e : EndPoint} {ahs ahs' : Ahs} {ah : BitVec 64} (hah : ah ≠ 0)
    (h : e.drop ahs = some ahs') :
    (ahs' ah).isSome = true ↔ (ahs ah).isSome = true ∧ ah ≠ e.ah := by
  cases hvalid : e.valid with
  | false =>
    rw [drop_of_not_valid hvalid] at h
    cases h
    have hnull : e.ah = 0 := by simpa [valid] using hvalid
    rw [hnull]
    exact (and_iff_left hah).symm
  | true =>
    rw [drop, if_pos hvalid, rdmaDestroyAh, Option.ite_none_right_eq_some] at h
    obtain ⟨-, hupd⟩ := h
    cases hupd
    by_cases hsame : ah = e.ah
    · subst hsame
      simp
    · simp [hsame]

/-- The handle goes with its endpoint. -/
theorem drop_new (e : EndPoint) {ahs : Ahs} {res : BitVec 64} (h : ahs.Fresh res)
    (av : AddressVector) : (e.new res).drop (Function.update ahs res (some av)) = some ahs := by
  have hvalid : (e.new res).valid = true := decide_eq_true h.1
  rw [drop, if_pos hvalid]
  exact rdmaDestroyAh_update h.2 av

/-- A handle that is created to send one message is gone afterwards. -/
theorem bindPd_drop {e e' : EndPoint} {ahs ahs₀ ahs₁ ahs₂ : Ahs} {res : BitVec 64}
    (h₀ : e.drop ahs = some ahs₀) (hfresh : ptrIsErr res = false → ahs₀.Fresh res)
    (h₁ : e.bindPd ahs res = some (e', ahs₁)) (h₂ : e'.drop ahs₁ = some ahs₂) : ahs₂ = ahs₀ := by
  rw [bindPd, h₀, Option.map_some, Option.some.injEq] at h₁
  cases herr : ptrIsErr res with
  | true =>
    rw [createIbAh_of_err herr] at h₁
    cases h₁
    rw [drop_of_not_valid rfl] at h₂
    exact (Option.some.inj h₂).symm
  | false =>
    rw [createIbAh_of_ok herr] at h₁
    cases h₁
    rw [show ({ e with ah := res } : EndPoint) = e.new res from rfl,
      drop_new e (hfresh herr)] at h₂
    exact (Option.some.inj h₂).symm

end EndPoint
