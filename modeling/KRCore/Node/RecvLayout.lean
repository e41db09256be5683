-- SUMMARY: The receive entries of controllers and RPC clients, and when they lie in the buffers that were allocated for them.
import KRCore.Base.MemRange
import KRCore.Node.Model

/-!
# The layout of the receive rings

A controller lays its receive entries over the memory that it has registered; their
size is what the ring makes of it. An RPC client has entries of 512 bytes over a
buffer of 4096, whatever the size of its ring.
-/

/-- The memory that a scatter entry names. -/
def IbSge.range (sge : IbSge) : MemRange := { addr := sge.addr, len := sge.length }

/-- Those who lay out a receive ring. -/
inductive RecvUser where
  | rctrl
  | rpcClient
deriving DecidableEq, Repr

namespace RecvUser

/-- The entry size that `RecvHelper::create` gets for a ring of size `N`. Dividing by zero
    panics. -/
def entrySize (N : Nat) : RecvUser → Option Nat
  | .rctrl => if N = 0 then none else some (maxKmallocSz / N)
  | .rpcClient => some rpcSlotSz

/-- The size of the buffer: `registered_test_mr` and `recv_buffer`. -/
def bufferSz : RecvUser → Nat
  | .rctrl => 4 * 1024 * 1024
  | .rpcClient => rpcRecvBufferSz

/-- The entries that `RecvHelper::create` lays out from `baseAddr` on. On a ring of size
    zero its loop does nothing. -/
def entries (u : RecvUser) (paToVa : Nat → Nat) (lkey baseAddr : Nat) (N : Nat) :
    Option (List IbSge) := do
  let entrySize ← u.entrySize N
  match N with
  | 0 => some []
  | n + 1 =>
    let h ← RecvHelper.tryCreate (N := n + 1) paToVa entrySize lkey baseAddr
    some ((List.finRange (n + 1)).map h.sges)

/-- The receive buffer. -/
def buffer (u : RecvUser) (baseAddr : Nat) : MemRange := { addr := baseAddr, len := u.bufferSz }

theorem entrySize_lt {u : RecvUser} {N sz : Nat} (h : u.entrySize N = some sz) : sz < 2 ^ 32 := by
  cases u with
  | rctrl =>
    simp only [entrySize] at h
    split at h
    · cases h
    · cases h
      exact Nat.lt_of_le_of_lt (Nat.div_le_self _ _) (by decide)
  | rpcClient =>
    cases h
    decide

/-- The entries are a table. -/
theorem entries_range {u : RecvUser} {paToVa : Nat → Nat} {lkey baseAddr N : Nat}
    {es : List IbSge} (h : u.entries paToVa lkey baseAddr N = some es) :
    ∃ sz, u.entrySize N = some sz ∧
      es.map IbSge.range = (List.range N).map (MemRange.entry baseAddr sz) := by
  simp only [entries, Option.bind_eq_bind, Option.bind_eq_some_iff] at h
  obtain ⟨sz, hsz, h⟩ := h
  refine ⟨sz, hsz, ?_⟩
  cases N with
  | zero =>
    cases h
    rfl
  | succ n =>
    simp only [Option.bind_eq_some_iff] at h
    obtain ⟨ring, hring, h⟩ := h
    cases h
    obtain ⟨-, -, rfl⟩ := (RecvHelper.tryCreate_eq_some ..).mp hring
    have hsges := (@RecvHelper.built_create (n + 1) _ paToVa sz lkey baseAddr).sges
    rw [← List.map_coe_finRange_eq_range, List.map_map, List.map_map]
    refine List.map_congr_left fun i _ => ?_
    simp only [Function.comp_apply, hsges, IbSge.range, MemRange.entry,
      Nat.mod_eq_of_lt (entrySize_lt hsz)]

/-- When a ring fits its buffer. -/
theorem size_le_bufferSz_iff {u : RecvUser} {N sz : Nat} (h : u.entrySize N = some sz) :
    N * sz ≤ u.bufferSz ↔ (u = .rpcClient → N ≤ 8) := by
  cases u with
  | rctrl =>
    simp only [entrySize] at h
    split at h
    · cases h
    · cases h
      refine iff_of_true ?_ (fun h => by cases h)
      exact Nat.mul_div_le maxKmallocSz N
  | rpcClient =>
    cases h
    simp only [rpcSlotSz, bufferSz, rpcRecvBufferSz, true_implies]
    omega

/-- For both users, every size of the ring and every place of the buffer: the entries are
    apart and lie in the buffer if and only if the ring is that of a controller, or has at
    most eight entries. -/
theorem recv_entries_inside_iff (u : RecvUser) (paToVa : Nat → Nat) (lkey baseAddr N : Nat)
    {es : List IbSge} (h : u.entries paToVa lkey baseAddr N = some es) :
    ((es.map IbSge.range).Pairwise MemRange.Apart ∧
        ∀ e ∈ es, e.range.Inside (u.buffer baseAddr)) ↔
      (u = .rpcClient → N ≤ 8) := by
  obtain ⟨sz, hsz, htable⟩ := entries_range h
  have hapart : (es.map IbSge.range).Pairwise MemRange.Apart := by
    rw [htable, List.pairwise_map]
    exact List.nodup_range.imp fun hne => MemRange.entry_apart baseAddr sz hne
  have hinside : (∀ e ∈ es, e.range.Inside (u.buffer baseAddr)) ↔
      ∀ i < N, (MemRange.entry (baseAddr + 0) sz i).Inside (u.buffer baseAddr) := by
    rw [← List.forall_mem_map (f := IbSge.range) (P := fun r => r.Inside (u.buffer baseAddr)),
      htable, List.forall_mem_map]
    simp only [List.mem_range, Nat.add_zero]
  rw [and_iff_right hapart, hinside, buffer, MemRange.forall_entry_inside_iff, Nat.zero_add,
    ← size_le_bufferSz_iff hsz]
  constructor
  · rintro (hzero | hle)
    · omega
    · exact hle
  · exact .inr

/-- The ring of a controller. -/
theorem recv_entries_inside_ctrl :
    ∃ es, RecvUser.rctrl.entries id 0 0 ctrlRingSize = some es ∧
      (es.map IbSge.range).Pairwise MemRange.Apart ∧
      ∀ e ∈ es, e.range.Inside (RecvUser.rctrl.buffer 0) := by
  have hring := (RecvHelper.tryCreate_eq_some (N := 2) id (maxKmallocSz / 2) 0 0).mpr
    ⟨by decide, by decide, rfl⟩
  have h : RecvUser.rctrl.entries id 0 0 ctrlRingSize =
      some ((List.finRange 2).map (RecvHelper.create id (maxKmallocSz / 2) 0 0).sges) := by
    simp only [entries, entrySize, ctrlRingSize, Option.bind_eq_bind]
    rw [if_neg (by decide)]
    simp only [Option.bind_some, hring]
  exact ⟨_, h, (recv_entries_inside_iff .rctrl id 0 0 ctrlRingSize h).mpr nofun⟩

/-- The RPC clients that `Client::create` makes have sixteen entries: number eight begins
    where the buffer ends. -/
theorem rpc_entries_outside :
    ∃ es e, RecvUser.rpcClient.entries id 0 0 rpcBufferN = some es ∧ es[8]? = some e ∧
      e.range = { addr := 4096, len := 512 } ∧ e.range.Apart (RecvUser.rpcClient.buffer 0) := by
  refine ⟨_, _, rfl, rfl, rfl, ?_⟩
  rw [MemRange.apart_iff]
  decide

end RecvUser
