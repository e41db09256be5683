-- SUMMARY: The receive side of an RPC endpoint: posted slots, datagrams that land in them, completions, and slot memory.
import KRCore.Base.Memory
import KRCore.Qp.RecvHelper

/-!
# The receive side of an RPC endpoint

An `RPCClient<N>` receives datagrams on a UD queue into the `N` slots of its
receive ring. The NIC fills the posted slots in posting order and drops a
datagram that finds none. A completion names the slot only, so what is read
later is whatever the slot holds then. `landed` records every datagram that has
been received.
-/

/-- `BUF_SZ`. -/
def rpcSlotSz : Nat := 512

/-- `UD_HEADER_SZ`, the room in front of a received datagram. -/
def udHeaderSz : Nat := 40

/-- A datagram. The tag says what it belongs to; nobody can read it. -/
structure Datagram (τ : Type) where
  tag : τ
  bytes : List UInt8
deriving DecidableEq

/-- A receive completion: its slot, the number of the datagram in the order of
    arrival, and the datagram it reports. -/
structure Completion (N : Nat) (τ : Type) where
  slot : Fin N
  number : Nat
  msg : Datagram τ
deriving DecidableEq

structure RecvRing (N : Nat) (τ : Type) where
  helper : RecvHelper N
  posted : List (Fin N)
  completed : List (Completion N τ)
  mem : Fin N → Mem
  landed : List (Fin N × Datagram τ)

namespace RecvRing

variable {N : Nat} {τ : Type}

/-- The receive part of `RPCClient::create`: all slots are posted. The result of
    `post_recvs` is ignored, here as everywhere. -/
def create [NeZero N] (paToVa : Nat → Nat) (lkey baseAddr : Nat) (mem : Fin N → Mem)
    (ans : PostAnswer) : Option (RecvRing N τ) :=
  ((RecvHelper.create paToVa rpcSlotSz lkey baseAddr).postRecvs N ans).map fun out =>
    { helper := out.helper, posted := out.slots, completed := [], mem, landed := [] }

/-- A datagram arrives. It has to fit into a slot. -/
def arrive (r : RecvRing N τ) (d : Datagram τ) : Option (RecvRing N τ) :=
  if udHeaderSz + d.bytes.length ≤ rpcSlotSz then
    match r.posted with
    | [] => some r
    | slot :: rest =>
      some
        { r with
          posted := rest
          completed := r.completed ++ [{ slot, number := r.landed.length, msg := d }]
          mem := Function.update r.mem slot ((r.mem slot).write udHeaderSz d.bytes)
          landed := r.landed ++ [(slot, d)] }
  else none

/-- `pop_recv_cq` when it finds `k` completions. -/
def popRecvCq (r : RecvRing N τ) (k : Nat) : Option (List (Completion N τ) × RecvRing N τ) :=
  if 1 ≤ k ∧ k ≤ r.completed.length then
    some (r.completed.take k, { r with completed := r.completed.drop k })
  else none

/-- `RPCClient::post_recv`. -/
def postRecv [NeZero N] (r : RecvRing N τ) (postCnt : Nat) (ans : PostAnswer) :
    Option (RecvRing N τ) :=
  (r.helper.postRecvs postCnt ans).map fun out =>
    { r with helper := out.helper, posted := r.posted ++ out.slots }

/-- The bytes of a slot from `off` on, behind the UD header. -/
def readSlot (r : RecvRing N τ) (slot : Fin N) (off len : Nat) : List UInt8 :=
  (r.mem slot).read (udHeaderSz + off) len

/-! ## What the operations do -/

theorem arrive_eq_some {r r' : RecvRing N τ} {d : Datagram τ} (h : r.arrive d = some r') :
    r' = r ∨ ∃ slot rest, r.posted = slot :: rest ∧
      r' = { r with
        posted := rest
        completed := r.completed ++ [{ slot, number := r.landed.length, msg := d }]
        mem := Function.update r.mem slot ((r.mem slot).write udHeaderSz d.bytes)
        landed := r.landed ++ [(slot, d)] } := by
  unfold arrive at h
  split at h
  · split at h
    · exact .inl (Option.some.inj h).symm
    · rename_i slot rest hposted
      exact .inr ⟨slot, rest, hposted, (Option.some.inj h).symm⟩
  · cases h

theorem popRecvCq_eq_some {r r' : RecvRing N τ} {k : Nat} {cs : List (Completion N τ)}
    (h : r.popRecvCq k = some (cs, r')) :
    1 ≤ k ∧ k ≤ r.completed.length ∧ cs = r.completed.take k ∧
      r' = { r with completed := r.completed.drop k } := by
  unfold popRecvCq at h
  split at h
  · rename_i hk
    simp only [Option.some.injEq, Prod.mk.injEq] at h
    exact ⟨hk.1, hk.2, h.1.symm, h.2.symm⟩
  · cases h

theorem postRecv_eq_some [NeZero N] {r r' : RecvRing N τ} {k : Nat} {ans : PostAnswer}
    (h : r.postRecv k ans = some r') :
    ∃ out, r.helper.postRecvs k ans = some out ∧
      r' = { r with helper := out.helper, posted := r.posted ++ out.slots } := by
  simp only [postRecv, Option.map_eq_some_iff] at h
  obtain ⟨out, hout, rfl⟩ := h
  exact ⟨out, hout, rfl⟩

/-! ## Slot memory -/

/-- The datagrams that have landed in the slot of a completion after its own. -/
def later (r : RecvRing N τ) (c : Completion N τ) : List (Datagram τ) :=
  ((r.landed.drop (c.number + 1)).filter fun l => l.1 = c.slot).map Prod.snd

/-- The datagram that stands in the slot of a completion. -/
def occupant (r : RecvRing N τ) (c : Completion N τ) : Datagram τ :=
  (r.later c).getLast?.getD c.msg

/-- A completion reports a datagram that has landed. -/
def Reports (r : RecvRing N τ) (c : Completion N τ) : Prop :=
  r.landed[c.number]? = some (c.slot, c.msg)

/-- A slot holds what has landed in it, written one after the other. -/
def overlay (mem : Mem) (ds : List (Datagram τ)) : Mem :=
  ds.foldl (fun m d => m.write udHeaderSz d.bytes) mem

@[simp] theorem overlay_nil (mem : Mem) : overlay mem ([] : List (Datagram τ)) = mem := rfl

theorem overlay_append (mem : Mem) (ds ds' : List (Datagram τ)) :
    overlay mem (ds ++ ds') = overlay (overlay mem ds) ds' :=
  List.foldl_append

/-- Every slot holds the overlay of the datagrams that landed in it. -/
def Holds (mem₀ : Fin N → Mem) (r : RecvRing N τ) : Prop :=
  ∀ slot, r.mem slot =
    overlay (mem₀ slot) ((r.landed.filter fun l => l.1 = slot).map Prod.snd)

theorem Holds.arrive {mem₀ : Fin N → Mem} {r r' : RecvRing N τ} {d : Datagram τ}
    (hr : r.Holds mem₀) (h : r.arrive d = some r') : r'.Holds mem₀ := by
  obtain rfl | ⟨slot, rest, -, rfl⟩ := arrive_eq_some h
  · exact hr
  · intro slot'
    by_cases hslot : slot' = slot
    · subst hslot
      simp [hr slot', overlay]
    · have hne : slot ≠ slot' := fun heq => hslot heq.symm
      simp [hr slot', hslot, hne]

theorem Reports.arrive {r r' : RecvRing N τ} {d : Datagram τ} {c : Completion N τ}
    (hc : r.Reports c) (h : r.arrive d = some r') : r'.Reports c := by
  obtain rfl | ⟨slot, rest, -, rfl⟩ := arrive_eq_some h
  · exact hc
  · have hlt : c.number < r.landed.length := (List.getElem?_eq_some_iff.mp hc).1
    simpa [Reports, List.getElem?_append_left hlt] using hc

/-- The slot of a completion holds its datagram with the later ones written over
    it. -/
theorem Holds.mem_of_reports {mem₀ : Fin N → Mem} {r : RecvRing N τ} {c : Completion N τ}
    (hr : r.Holds mem₀) (hc : r.Reports c) :
    ∃ m : Mem, r.mem c.slot = overlay (m.write udHeaderSz c.msg.bytes) (r.later c) := by
  obtain ⟨hlt, hget⟩ := List.getElem?_eq_some_iff.mp hc
  -- Split what has landed at the datagram of the completion.
  have hsplit : r.landed =
      r.landed.take c.number ++ (c.slot, c.msg) :: r.landed.drop (c.number + 1) := by
    rw [← hget, List.getElem_cons_drop, List.take_append_drop]
  refine ⟨overlay (mem₀ c.slot)
    (((r.landed.take c.number).filter fun l => l.1 = c.slot).map Prod.snd), ?_⟩
  rw [hr c.slot, hsplit, List.filter_append, List.map_append, overlay_append,
    ← hsplit]
  simp [overlay, later]

end RecvRing
