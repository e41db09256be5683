-- SUMMARY: When what is read for a receive completion is the message that the completion reports.
import KRCore.Base.Run
import KRCore.Rpc.RecvRing

/-!
# Polling and reading

`RPCClient::poll_all` polls up to `N` completions, posts as many slots again,
and then reads the messages one by one; `RPCClient::call` does the same with one
completion. Datagrams may arrive at any time. The slots are given back to the
NIC before they are read, so a message may be overwritten in between.
`reads_asSent_iff` says for every run when the bytes read are those of the
message.
-/

/-- One read: the message of the completion, the offset, and the bytes found. -/
structure SlotRead (τ : Type) where
  msg : Datagram τ
  off : Nat
  got : List UInt8
deriving DecidableEq

/-- The bytes found are those of the message. -/
def SlotRead.AsSent {τ : Type} (r : SlotRead τ) : Prop :=
  r.got = (r.msg.bytes.drop r.off).take r.got.length

/-- An endpoint that polls: its ring, how many slots are still to be posted
    again, the completions of the batch that have not been processed, the one in
    work first, and all reads so far. -/
structure Poller (N : Nat) (τ : Type) where
  ring : RecvRing N τ
  repost : Option Nat
  batch : List (Completion N τ)
  reads : List (SlotRead τ)

namespace Poller

variable {N : Nat} {τ : Type}

inductive Event (τ : Type) where
  | arrive (d : Datagram τ)
  | poll (k : Nat)
  | repost (ans : PostAnswer)
  /-- Header, payload or reply bytes of the completion in work are read. -/
  | read (off len : Nat)
  | next

def create [NeZero N] (paToVa : Nat → Nat) (lkey baseAddr : Nat) (mem : Fin N → Mem)
    (ans : PostAnswer) : Option (Poller N τ) :=
  (RecvRing.create paToVa lkey baseAddr mem ans).map fun ring =>
    { ring, repost := none, batch := [], reads := [] }

/-- `pop_recv_cq` with room for `N` completions (`poll_all`) or one (`call`). -/
def poll (s : Poller N τ) (k : Nat) : Option (Poller N τ) :=
  if s.repost.isNone ∧ s.batch.isEmpty ∧ k ≤ N then
    (s.ring.popRecvCq k).map fun (cs, ring) => { s with ring, repost := some k, batch := cs }
  else none

def postBack [NeZero N] (s : Poller N τ) (ans : PostAnswer) : Option (Poller N τ) :=
  match s.repost with
  | none => none
  | some k => (s.ring.postRecv k ans).map fun ring => { s with ring, repost := none }

def read (s : Poller N τ) (off len : Nat) : Option (Poller N τ) :=
  match s.repost, s.batch with
  | none, c :: _ =>
    some { s with reads := s.reads ++ [{ msg := c.msg, off, got := s.ring.readSlot c.slot off len }] }
  | _, _ => none

def next (s : Poller N τ) : Option (Poller N τ) :=
  match s.repost, s.batch with
  | none, _ :: batch => some { s with batch }
  | _, _ => none

def step [NeZero N] (s : Poller N τ) : Event τ → Option (Poller N τ)
  | .arrive d => (s.ring.arrive d).map fun ring => { s with ring }
  | .poll k => s.poll k
  | .repost ans => s.postBack ans
  | .read off len => s.read off len
  | .next => s.next

/-- Everything a step can do. -/
inductive Stepped [NeZero N] (s : Poller N τ) : Event τ → Poller N τ → Prop
  | arrived {d : Datagram τ} {ring : RecvRing N τ} (h : s.ring.arrive d = some ring) :
      Stepped s (.arrive d) { s with ring }
  | polled {k : Nat} {cs : List (Completion N τ)} {ring : RecvRing N τ} (hrepost : s.repost = none)
      (hbatch : s.batch = []) (hk : k ≤ N) (h : s.ring.popRecvCq k = some (cs, ring)) :
      Stepped s (.poll k) { s with ring, repost := some k, batch := cs }
  | reposted {k : Nat} {ans : PostAnswer} {ring : RecvRing N τ} (hrepost : s.repost = some k)
      (h : s.ring.postRecv k ans = some ring) :
      Stepped s (.repost ans) { s with ring, repost := none }
  | read {off len : Nat} {c : Completion N τ} {batch : List (Completion N τ)}
      (hrepost : s.repost = none) (hbatch : s.batch = c :: batch) :
      Stepped s (.read off len)
        { s with reads := s.reads ++ [{ msg := c.msg, off, got := s.ring.readSlot c.slot off len }] }
  | next {c : Completion N τ} {batch : List (Completion N τ)} (hrepost : s.repost = none)
      (hbatch : s.batch = c :: batch) : Stepped s .next { s with batch }

theorem step_stepped [NeZero N] {s s' : Poller N τ} {e : Event τ} (h : s.step e = some s') :
    Stepped s e s' := by
  cases e with
  | arrive d =>
    simp only [step, Option.map_eq_some_iff] at h
    obtain ⟨ring, hring, rfl⟩ := h
    exact .arrived hring
  | poll k =>
    simp only [step, poll] at h
    split at h
    · rename_i hcond
      simp only [Option.map_eq_some_iff, Prod.exists] at h
      obtain ⟨cs, ring, hpop, rfl⟩ := h
      exact .polled (Option.isNone_iff_eq_none.mp hcond.1) (List.isEmpty_iff.mp hcond.2.1)
        hcond.2.2 hpop
    · cases h
  | repost ans =>
    simp only [step, postBack] at h
    split at h
    · cases h
    · rename_i k hrepost
      simp only [Option.map_eq_some_iff] at h
      obtain ⟨ring, hring, rfl⟩ := h
      exact .reposted hrepost hring
  | read off len =>
    simp only [step, read] at h
    split at h
    · rename_i c batch hrepost hbatch
      cases h
      exact .read hrepost hbatch
    · cases h
  | next =>
    simp only [step, next] at h
    split at h
    · rename_i c batch hrepost hbatch
      cases h
      exact .next hrepost hbatch
    · cases h

/-! ## When a read finds the message -/

/-- Every read so far found the message. -/
def ReadsAsSent (s : Poller N τ) : Prop := ∀ r ∈ s.reads, r.AsSent

/-- The byte at position `i` of the last of the datagrams that reach it. -/
def lastByte (ds : List (Datagram τ)) (i : Nat) : Option UInt8 :=
  ds.reverse.findSome? fun d => d.bytes[i]?

/-- A read stays inside the message, and where later datagrams in the same slot
    reach its range, the last of them has the same bytes. -/
def Undisturbed (s : Poller N τ) : Event τ → Prop
  | .read off len => ∀ c ∈ s.batch.head?, ∀ i, off ≤ i → i < off + len →
      i < c.msg.bytes.length ∧ ∀ b, lastByte (s.ring.later c) i = some b → c.msg.bytes[i]? = some b
  | _ => True

theorem overlay_apply (mem : Mem) (ds : List (Datagram τ)) (i : Nat) :
    RecvRing.overlay mem ds (udHeaderSz + i) = (lastByte ds i).getD (mem (udHeaderSz + i)) := by
  induction ds using List.reverseRecOn with
  | nil => rfl
  | append_singleton ds d ih =>
    have hge : ¬ udHeaderSz + i < udHeaderSz := by omega
    rw [RecvRing.overlay_append]
    simp only [RecvRing.overlay, List.foldl_cons, List.foldl_nil, Mem.write, hge, if_false,
      Nat.add_sub_cancel_left, lastByte, List.reverse_append, List.reverse_cons, List.reverse_nil,
      List.nil_append, List.cons_append, List.findSome?_cons] at ih ⊢
    cases d.bytes[i]? with
    | none => exact ih
    | some b => rfl

/-- The slots hold what has landed, and completions report what has landed. -/
structure Tracked (mem₀ : Fin N → Mem) (s : Poller N τ) : Prop where
  holds : s.ring.Holds mem₀
  reports : ∀ c ∈ s.batch ++ s.ring.completed, s.ring.Reports c

theorem Tracked.step [NeZero N] {mem₀ : Fin N → Mem} {s s' : Poller N τ} {e : Event τ}
    (hinv : s.Tracked mem₀) (h : s.step e = some s') : s'.Tracked mem₀ := by
  cases step_stepped h with
  | @arrived d ring harrive =>
    refine ⟨hinv.holds.arrive harrive, fun c hc => ?_⟩
    rcases RecvRing.arrive_eq_some harrive with rfl | ⟨slot, rest, hposted, rfl⟩
    · exact hinv.reports c hc
    · simp only [← List.append_assoc, List.mem_append, List.mem_singleton] at hc
      rcases hc with hold | rfl
      · exact (hinv.reports c (List.mem_append.mpr hold)).arrive harrive
      · simp [RecvRing.Reports]
  | polled hrepost hbatch hk hpop =>
    obtain ⟨-, -, rfl, rfl⟩ := RecvRing.popRecvCq_eq_some hpop
    refine ⟨hinv.holds, fun c hc => hinv.reports c ?_⟩
    rw [List.take_append_drop] at hc
    exact List.mem_append_right _ hc
  | reposted hrepost hpost =>
    obtain ⟨out, -, rfl⟩ := RecvRing.postRecv_eq_some hpost
    exact ⟨hinv.holds, hinv.reports⟩
  | read hrepost hbatch => exact ⟨hinv.holds, hinv.reports⟩
  | next hrepost hbatch =>
    refine ⟨hinv.holds, fun c hc => hinv.reports c ?_⟩
    rw [hbatch]
    exact List.mem_cons_of_mem _ hc

/-- A read for a completion finds its message exactly if nothing disturbs it. -/
theorem read_asSent_iff {mem₀ : Fin N → Mem} {s : Poller N τ} {c : Completion N τ}
    (hinv : s.Tracked mem₀) (hc : c ∈ s.batch) (off len : Nat) :
    SlotRead.AsSent { msg := c.msg, off, got := s.ring.readSlot c.slot off len } ↔
      ∀ i, off ≤ i → i < off + len → i < c.msg.bytes.length ∧
        ∀ b, lastByte (s.ring.later c) i = some b → c.msg.bytes[i]? = some b := by
  obtain ⟨m, hm⟩ := hinv.holds.mem_of_reports (hinv.reports c (List.mem_append_left _ hc))
  -- One byte: the last datagram that reaches it decides.
  have hbyte : ∀ i, (c.msg.bytes[i]? = some (s.ring.mem c.slot (udHeaderSz + i)) ↔
      i < c.msg.bytes.length ∧
        ∀ b, lastByte (s.ring.later c) i = some b → c.msg.bytes[i]? = some b) := by
    intro i
    rw [hm, overlay_apply]
    cases hlast : lastByte (s.ring.later c) i with
    | none =>
      by_cases hi : i < c.msg.bytes.length
      · simp [hi, Mem.write_add m _ hi]
      · simp [hi]
    | some b =>
      simp only [Option.getD_some, Option.some.injEq, forall_eq']
      exact ⟨fun h => ⟨(List.getElem?_eq_some_iff.mp h).1, h⟩, And.right⟩
  simp only [SlotRead.AsSent, RecvRing.readSlot, Mem.read_length, Mem.read_eq_slice_iff,
    Nat.add_assoc]
  constructor
  · intro h i hlo hhi
    have hj := h (i - off) (by omega)
    rw [Nat.add_sub_cancel' hlo] at hj
    exact (hbyte i).mp hj
  · intro h j hj
    exact (hbyte (off + j)).mpr (h (off + j) (by omega) (by omega))

theorem readsAsSent_step [NeZero N] {mem₀ : Fin N → Mem} {s s' : Poller N τ} {e : Event τ}
    (hinv : s.Tracked mem₀) (hreads : s.ReadsAsSent) (h : s.step e = some s') :
    s'.ReadsAsSent ↔ s.Undisturbed e := by
  cases step_stepped h with
  | arrived harrive => exact iff_of_true hreads trivial
  | polled hrepost hbatch hk hpop => exact iff_of_true hreads trivial
  | reposted hrepost hpost => exact iff_of_true hreads trivial
  | @read off len c batch hrepost hbatch =>
    have hc : c ∈ s.batch := by simp [hbatch]
    have hhead : s.batch.head? = some c := by rw [hbatch]; rfl
    simp only [Undisturbed, hhead, Option.mem_def, Option.some.injEq, forall_eq',
      ← read_asSent_iff hinv hc]
    constructor
    · intro hnew
      exact hnew _ (List.mem_append_right _ List.mem_cons_self)
    · intro hsent r hr
      rcases List.mem_append.mp hr with hold | hnew
      · exact hreads r hold
      · rwa [List.mem_singleton.mp hnew]
  | next hrepost hbatch => exact iff_of_true hreads trivial

/-! ## How many datagrams may land -/

/-- A read stays inside its message and happens before `N` further datagrams
    have landed; and every post is accepted. -/
def InTime (s : Poller N τ) : Event τ → Prop
  | .repost ans => ans = .ok
  | .read off len => ∀ c ∈ s.batch.head?,
      off + len ≤ c.msg.bytes.length ∧ s.ring.landed.length ≤ c.number + N
  | _ => True

/-- As long as all posts are accepted, the datagrams land in ring order, and the
    posted slots continue that order up to the cursor. -/
structure InOrder [NeZero N] (s : Poller N τ) : Prop where
  linked : s.ring.helper.Linked
  slots : ∀ n l, s.ring.landed[n]? = some l → l.1 = Ring.pos N n
  posted : s.ring.posted = Ring.window N s.ring.landed.length s.ring.posted.length
  cursor : s.ring.helper.curIdx = (s.ring.landed.length + s.ring.posted.length) % N
  repost : ∀ k, s.repost = some k → 1 ≤ k ∧ k ≤ N

theorem InOrder.arrive [NeZero N] {s : Poller N τ} {d : Datagram τ} {ring : RecvRing N τ}
    (hord : s.InOrder) (h : s.ring.arrive d = some ring) : InOrder { s with ring } := by
  rcases RecvRing.arrive_eq_some h with rfl | ⟨slot, rest, hposted, rfl⟩
  · exact hord
  · have hwindow := hord.posted
    rw [hposted, List.length_cons, Ring.window_succ, List.cons.injEq] at hwindow
    obtain ⟨hslot, hrest⟩ := hwindow
    refine ⟨hord.linked, fun n l hl => ?_, by simpa using hrest, ?_, hord.repost⟩
    · by_cases hn : n < s.ring.landed.length
      · rw [List.getElem?_append_left hn] at hl
        exact hord.slots n l hl
      · rw [List.getElem?_append_right (by omega), List.getElem?_singleton] at hl
        split at hl
        · cases hl
          rw [hslot, show n = s.ring.landed.length by omega]
        · cases hl
    · have hcur := hord.cursor
      rw [hposted] at hcur
      simp only [List.length_cons, List.length_append, List.length_nil] at hcur ⊢
      rw [hcur]
      congr 1
      omega

theorem InOrder.postBack [NeZero N] {s : Poller N τ} {k : Nat} {ring : RecvRing N τ}
    (hord : s.InOrder) (hk : s.repost = some k) (h : s.ring.postRecv k .ok = some ring) :
    InOrder { s with ring, repost := none } := by
  obtain ⟨hk1, hkN⟩ := hord.repost k hk
  obtain ⟨out, hout, rfl⟩ := RecvRing.postRecv_eq_some h
  have hlinked := hord.linked.postRecvs hout
  obtain ⟨-, hslots, hhelper⟩ := hord.linked.postRecvs_eq_some hout
  simp only [PostAnswer.accepted, RecvHelper.span_of_le hk1 hkN, hord.cursor,
    Ring.window_mod] at hslots
  refine ⟨hlinked, hord.slots, ?_, ?_, fun k' hk' => by cases hk'⟩
  · simp only [hslots, List.length_append, Ring.window_length, Ring.window_add]
    rw [← hord.posted]
  · simp only [hhelper, if_true, hslots, List.length_append, Ring.window_length, hord.cursor,
      Nat.mod_add_mod, Nat.add_assoc]

theorem InOrder.step [NeZero N] {s s' : Poller N τ} {e : Event τ} (hord : s.InOrder)
    (hint : s.InTime e) (h : s.step e = some s') : s'.InOrder := by
  cases step_stepped h with
  | arrived harrive => exact hord.arrive harrive
  | polled hrepost hbatch hk hpop =>
    obtain ⟨hk1, -, -, rfl⟩ := RecvRing.popRecvCq_eq_some hpop
    refine ⟨hord.linked, hord.slots, hord.posted, hord.cursor, fun k' hk' => ?_⟩
    cases hk'
    exact ⟨hk1, hk⟩
  | reposted hrepost hpost =>
    cases hint
    exact hord.postBack hrepost hpost
  | read hrepost hbatch => exact { hord with }
  | next hrepost hbatch => exact { hord with }

/-- In order, the next datagram in the slot of number `n` is number `n + N`. -/
theorem InOrder.later_eq_nil [NeZero N] {s : Poller N τ} {c : Completion N τ} (hord : s.InOrder)
    (hrep : s.ring.Reports c) (hlen : s.ring.landed.length ≤ c.number + N) :
    s.ring.later c = [] := by
  have hslot : c.slot = Ring.pos N c.number := hord.slots _ _ hrep
  simp only [RecvRing.later, List.map_eq_nil_iff, List.filter_eq_nil_iff, decide_eq_true_eq]
  intro l hl heq
  obtain ⟨j, hj⟩ := List.mem_iff_getElem?.mp hl
  rw [List.getElem?_drop] at hj
  have hlt : c.number + 1 + j < s.ring.landed.length := (List.getElem?_eq_some_iff.mp hj).1
  have hpos : Ring.pos N (c.number + (1 + j)) = Ring.pos N (c.number + 0) := by
    rw [← Nat.add_assoc, ← hord.slots _ _ hj, heq, hslot, Nat.add_zero]
  have := Ring.pos_add_inj c.number (by omega) (Nat.pos_of_neZero N) hpos
  omega

theorem InOrder.undisturbed [NeZero N] {mem₀ : Fin N → Mem} {s : Poller N τ} {e : Event τ}
    (hord : s.InOrder) (hinv : s.Tracked mem₀) (hint : s.InTime e) : s.Undisturbed e := by
  cases e with
  | arrive d => trivial
  | poll k => trivial
  | repost ans => trivial
  | next => trivial
  | read off len =>
    intro c hc i hlo hhi
    obtain ⟨hbound, hlanded⟩ := hint c hc
    have hmem : c ∈ s.batch := List.mem_of_mem_head? hc
    have hnil := hord.later_eq_nil (hinv.reports c (List.mem_append_left _ hmem)) hlanded
    refine ⟨by omega, fun b hb => ?_⟩
    simp [hnil, lastByte] at hb

theorem tracked_create [NeZero N] {paToVa : Nat → Nat} {lkey baseAddr : Nat} {mem : Fin N → Mem}
    {ans : PostAnswer} {s : Poller N τ} (h : create paToVa lkey baseAddr mem ans = some s) :
    s.Tracked mem ∧ s.reads = [] ∧ (ans = .ok → s.InOrder) := by
  simp only [create, RecvRing.create, Option.map_map, Option.map_eq_some_iff,
    Function.comp_apply] at h
  obtain ⟨out, hout, rfl⟩ := h
  have hlinked := RecvHelper.create_linked (N := N) paToVa rpcSlotSz lkey baseAddr
  obtain ⟨-, hslots, hhelper⟩ := hlinked.postRecvs_eq_some hout
  refine ⟨⟨fun _ => rfl, fun c hc => by cases hc⟩, rfl, fun hok => ?_⟩
  subst hok
  have hcur : (RecvHelper.create (N := N) paToVa rpcSlotSz lkey baseAddr).curIdx = 0 :=
    RecvHelper.createLoop_curIdx paToVa rpcSlotSz lkey baseAddr N
  simp only [PostAnswer.accepted, hcur,
    RecvHelper.span_of_le (Nat.pos_of_neZero N) le_rfl] at hslots
  exact
    { linked := hlinked.postRecvs hout
      slots := fun n l hl => by cases hl
      posted := by simp [hslots]
      cursor := by simp [hhelper, hslots, hcur]
      repost := fun k hk => by cases hk }

/-- In every run of an endpoint: all reads find the message of their completion
    exactly if each of them is undisturbed. They do if the posts are accepted and
    no read comes after `N` further datagrams have landed. -/
theorem reads_asSent_iff [NeZero N] (paToVa : Nat → Nat) (lkey baseAddr : Nat)
    (mem : Fin N → Mem) (ans : PostAnswer) (s : Poller N τ)
    (hcreate : create paToVa lkey baseAddr mem ans = some s) (es : List (Event τ)) :
    (Run.Always step ReadsAsSent s es ↔ Run.Guarded step Undisturbed s es) ∧
    (ans = .ok → Run.Guarded step InTime s es → Run.Always step ReadsAsSent s es) := by
  obtain ⟨htracked, hnone, hord⟩ := tracked_create hcreate
  have hiff : Run.Always step ReadsAsSent s es ↔ Run.Guarded step Undisturbed s es :=
    Run.always_iff_guarded (I := Tracked mem)
      (fun _ _ _ hinv h _ => hinv.step h) (fun _ _ _ hinv hreads h => readsAsSent_step hinv hreads h)
      htracked (fun r hr => by rw [hnone] at hr; cases hr) es
  refine ⟨hiff, fun hok hint => hiff.mpr ?_⟩
  exact Run.guarded_of_guarded (I := fun s => s.Tracked mem ∧ s.InOrder)
    (fun _ _ _ hs hc h => ⟨⟨hs.1.step h, hs.2.step hc h⟩, hs.2.undisturbed hs.1 hc⟩)
    ⟨htracked, hord hok⟩ hint

/-- A datagram of 72 equal bytes, the size of a request header. -/
def filled (b : UInt8) : Datagram Unit := ⟨(), List.replicate 72 b⟩

/-- A full batch of a ring of two slots, with one more datagram before the first
    request is read. -/
def fullBatch : List (Event Unit) :=
  [.arrive (filled 1), .arrive (filled 2), .poll 2, .repost .ok, .arrive (filled 3), .read 0 72]

/-- A call on a ring of one slot, with one more datagram before the reply is
    copied. -/
def lateCopy : List (Event Unit) :=
  [.arrive (filled 1), .poll 1, .repost .ok, .arrive (filled 2), .read 0 8]

/-- The handler gets the header of the third request for the completion of the
    first; the caller gets the bytes of the second datagram. -/
theorem message_overwritten_before_read :
    (∃ s s' : Poller 2 Unit, create id 0 0 (fun _ _ => 0) .ok = some s ∧
      Run.exec step s fullBatch = some s' ∧
      s'.reads = [{ msg := filled 1, off := 0, got := (filled 3).bytes }] ∧ ¬ s'.ReadsAsSent) ∧
    ∃ s s' : Poller 1 Unit, create id 0 0 (fun _ _ => 0) .ok = some s ∧
      Run.exec step s lateCopy = some s' ∧
      s'.reads = [{ msg := filled 1, off := 0, got := List.replicate 8 2 }] ∧ ¬ s'.ReadsAsSent := by
  refine ⟨⟨_, _, rfl, rfl, rfl, fun hsent => ?_⟩, ⟨_, _, rfl, rfl, rfl, fun hsent => ?_⟩⟩
  · exact absurd (hsent _ List.mem_cons_self) (by unfold SlotRead.AsSent; decide)
  · exact absurd (hsent _ List.mem_cons_self) (by unfold SlotRead.AsSent; decide)

theorem reads_asSent_iff_fullBatch :
    ∃ s : Poller 2 Unit, create id 0 0 (fun _ _ => 0) .ok = some s ∧
      (Run.Always step ReadsAsSent s fullBatch ↔ Run.Guarded step Undisturbed s fullBatch) :=
  ⟨_, rfl, (reads_asSent_iff id 0 0 (fun _ _ => 0) .ok _ rfl fullBatch).1⟩

end Poller
