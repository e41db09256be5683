-- SUMMARY: Sequences of `post_recvs` calls on a receive ring: how much a call hands over, in which order, and what follows a rejection.
import Mathlib.Data.Fintype.Card
import KRCore.Base.Run
import KRCore.VirtualQueue.Ioctl

/-!
# Sequences of posts

Any number of `post_recvs` calls on the ring that `create` has built, for every size
of the ring. A call hands the window of `span N cnt` slots at the cursor to the driver,
which accepts all of it, or a part of it with an error. The cursor only moves on
success.

If every call is accepted or rejected as a whole, the slots go out round robin. The
count that is asked for is the number of slots only between 1 and `N`, and after a
partial rejection the accepted slots are the next to go out again.
-/

namespace RecvHelper

variable {N : Nat} [NeZero N]

/-- A call of `post_recvs` with what the driver answers. -/
structure PostCall where
  cnt : Nat
  answer : PostAnswer

/-- A ring with the slots that have been handed over, in order. -/
structure PostRun (N : Nat) where
  helper : RecvHelper N
  handed : List (Fin N)

namespace PostRun

def start (h : RecvHelper N) : PostRun N := { helper := h, handed := [] }

def step (s : PostRun N) (c : PostCall) : Option (PostRun N) :=
  (s.helper.postRecvs c.cnt c.answer).map fun out =>
    { helper := out.helper, handed := s.handed ++ out.slots }

end PostRun

/-! ## One call -/

/-- The result is ok exactly if the driver says so. -/
theorem postRecvs_result {h : RecvHelper N} {k : Nat} {answer : PostAnswer} {out : Posted N}
    (hpost : h.postRecvs k answer = some out) : out.result = .ok () ↔ answer = .ok := by
  simp only [postRecvs, Option.bind_eq_bind, Option.bind_eq_some_iff] at hpost
  obtain ⟨_, -, _, -, hout⟩ := hpost
  cases answer with
  | ok =>
    cases hout
    simp
  | err n errno =>
    cases hout
    simp

/-- The ring that `create` has built, with the cursor at a position. -/
theorem built_of_exec {paToVa : Nat → Nat} {entrySize lkey baseAddr : Nat} {h₀ : RecvHelper N}
    {s : PostRun N} {calls : List PostCall}
    (hcreate : tryCreate paToVa entrySize lkey baseAddr = some h₀)
    (hrun : Run.exec PostRun.step (.start h₀) calls = some s) :
    Built paToVa entrySize lkey baseAddr s.helper := by
  refine Run.exec_invariant (I := fun s : PostRun N => Built paToVa entrySize lkey baseAddr s.helper)
    (fun s c s' hb hstep => ?_) ?_ hrun
  · simp only [PostRun.step, Option.map_eq_some_iff] at hstep
    obtain ⟨out, hpost, rfl⟩ := hstep
    exact hb.postRecvs hpost
  · obtain ⟨-, -, rfl⟩ := (tryCreate_eq_some ..).mp hcreate
    exact built_create

/-! ## How many slots a call hands over -/

/-- Those who post receives on the ring of a controller. -/
inductive RecvCaller where
  | create
  | rcConnCallback
  | trcPostRecv (pushCnt : Nat)
  | udPostRecv (pushCnt : Nat)
  | pushRecv (cnt : BitVec 32)
  | push (pushRecvCnt : BitVec 32)

/-- The count that they pass. That of a Push or PushRecv is what the user says. -/
def RecvCaller.cnt (N : Nat) : RecvCaller → Nat
  | .create => N
  | .rcConnCallback => connPostCnt
  | .trcPostRecv pushCnt => pushCnt
  | .udPostRecv pushCnt => pushCnt
  | .pushRecv cnt => Ioctl.toUsize cnt
  | .push pushRecvCnt => pushRecvCnt.toNat

def RecvCaller.call (N : Nat) (caller : RecvCaller × PostAnswer) : PostCall where
  cnt := caller.1.cnt N
  answer := caller.2

theorem Linked.slots_length {h : RecvHelper N} (hl : h.Linked) {k : Nat} {out : Posted N}
    (hpost : h.postRecvs k .ok = some out) : out.slots.length = span N k := by
  rw [(hl.postRecvs_eq_some hpost).2.1]
  exact Ring.window_length _ _

/-- No call hands over nothing, and none more than the ring has. -/
theorem span_eq_iff {k : Nat} : span N k = k ↔ 1 ≤ k ∧ k ≤ N := by
  constructor
  · intro h
    have hpos : 1 ≤ k := by
      rw [← h]
      exact Nat.succ_pos _
    exact ⟨hpos, (span_eq_self_iff hpos).mp h⟩
  · rintro ⟨hpos, hle⟩
    exact (span_eq_self_iff hpos).mpr hle

/-- For every ring, every sequence of calls before and every caller: a call that returns ok
    has handed over as many slots as it was asked for if and only if the count is between 1
    and the size of the ring. -/
theorem posts_requested_iff (paToVa : Nat → Nat) (entrySize lkey baseAddr : Nat)
    (before : List (RecvCaller × PostAnswer)) (caller : RecvCaller) (answer : PostAnswer)
    {h₀ : RecvHelper N} {s : PostRun N} {out : Posted N}
    (hcreate : tryCreate paToVa entrySize lkey baseAddr = some h₀)
    (hrun : Run.exec PostRun.step (.start h₀) (before.map (RecvCaller.call N)) = some s)
    (hpost : s.helper.postRecvs (caller.cnt N) answer = some out) (hok : out.result = .ok ()) :
    out.slots.length = caller.cnt N ↔ 1 ≤ caller.cnt N ∧ caller.cnt N ≤ N := by
  have hl := (built_of_exec hcreate hrun).linked
  have hans := (postRecvs_result hpost).mp hok
  subst hans
  rw [hl.slots_length hpost]
  exact span_eq_iff

/-- The first post of a controller. -/
theorem posts_requested_create :
    ∃ (h₀ : RecvHelper ctrlRingSize) (out : Posted ctrlRingSize),
      tryCreate id 16 0 0 = some h₀ ∧
      h₀.postRecvs (RecvCaller.create.cnt ctrlRingSize) .ok = some out ∧ out.result = .ok () ∧
      (out.slots.length = RecvCaller.create.cnt ctrlRingSize ↔
        1 ≤ RecvCaller.create.cnt ctrlRingSize ∧
          RecvCaller.create.cnt ctrlRingSize ≤ ctrlRingSize) := by
  refine ⟨_, _, rfl, rfl, rfl, ?_⟩
  exact posts_requested_iff id 16 0 0 [] .create .ok rfl rfl rfl rfl

/-- A controller that accepts an RC asks for 512 receives on its ring of two: the driver
    accepts everything, and two have been posted. -/
theorem posts_fewer_than_requested :
    ∃ (h₀ : RecvHelper ctrlRingSize) (s : PostRun ctrlRingSize) (out : Posted ctrlRingSize),
      tryCreate id (maxKmallocSz / ctrlRingSize) 0 0 = some h₀ ∧
      PostRun.step (.start h₀) (RecvCaller.call ctrlRingSize (.create, .ok)) = some s ∧
      s.helper.postRecvs (RecvCaller.rcConnCallback.cnt ctrlRingSize) .ok = some out ∧
      out.result = .ok () ∧ out.slots.length = 2 ∧
      RecvCaller.rcConnCallback.cnt ctrlRingSize = 512 := by
  have hl := create_linked (N := ctrlRingSize) id (maxKmallocSz / ctrlRingSize) 0 0
  obtain ⟨first, hfirst⟩ := hl.exists_postRecvs (k := ctrlRingSize) (by decide) (by decide) .ok
  have hl₁ := hl.postRecvs hfirst
  obtain ⟨out, hout⟩ := hl₁.exists_postRecvs (k := connPostCnt) (by decide) (by decide) .ok
  refine ⟨_, { helper := first.helper, handed := first.slots }, out,
    (tryCreate_eq_some ..).mpr ⟨by decide, by decide, rfl⟩, ?_, hout,
    (postRecvs_result hout).mpr rfl, (hl₁.slots_length hout).trans (by decide), rfl⟩
  simp [PostRun.step, PostRun.start, RecvCaller.call, RecvCaller.cnt, hfirst]

/-! ## Round robin -/

/-- The driver accepts everything, or nothing. -/
def PostAnswer.Whole : PostAnswer → Prop
  | .ok => True
  | .err accepted _ => accepted = 0

/-- The number of slots that the calls get accepted, if they are accepted or rejected as a
    whole. -/
def acceptedCnt (calls : List PostCall) : Nat :=
  (calls.map fun c => if c.answer = .ok then c.cnt else 0).sum

/-- What has been handed over is the window from 0 on, and the cursor stands behind it.
    Nothing else has changed. -/
structure Rotated (h₀ : RecvHelper N) (total : Nat) (s : PostRun N) : Prop where
  helper : s.helper = { h₀ with curIdx := total % N }
  handed : s.handed = Ring.window N 0 total

theorem Rotated.linked {h₀ : RecvHelper N} (hl : h₀.Linked) {total : Nat} {s : PostRun N}
    (h : Rotated h₀ total s) : s.helper.Linked := by
  rw [h.helper]
  exact hl.withCur (Nat.mod_lt _ (Nat.pos_of_neZero N))

/-- One call that is accepted or rejected as a whole. -/
theorem Rotated.step {h₀ : RecvHelper N} (hl : h₀.Linked) {total : Nat} {s s' : PostRun N}
    {c : PostCall} (h : Rotated h₀ total s) (hcnt : 1 ≤ c.cnt ∧ c.cnt ≤ N)
    (hwhole : PostAnswer.Whole c.answer) (hstep : s.step c = some s') :
    Rotated h₀ (total + if c.answer = .ok then c.cnt else 0) s' := by
  simp only [PostRun.step, Option.map_eq_some_iff] at hstep
  obtain ⟨out, hpost, rfl⟩ := hstep
  obtain ⟨-, hslots, hhelper⟩ := (h.linked hl).postRecvs_eq_some hpost
  have hcur : s.helper.curIdx = total % N := by rw [h.helper]
  rw [span_of_le hcnt.1 hcnt.2, hcur, Ring.window_mod] at hslots
  cases hans : c.answer with
  | ok =>
    rw [hans] at hslots hhelper
    simp only [if_true] at hhelper ⊢
    refine ⟨?_, ?_⟩
    · rw [hhelper, h.helper, Nat.mod_add_mod]
    · rw [h.handed, hslots, Ring.window_add, Nat.zero_add]
      rfl
  | err accepted errno =>
    rw [hans] at hslots hhelper hwhole
    simp only [reduceCtorEq, if_false, Nat.add_zero] at hhelper ⊢
    refine ⟨?_, ?_⟩
    · rw [hhelper, h.helper]
    · have hnone : accepted = 0 := hwhole
      rw [h.handed, hslots, hnone]
      exact List.append_nil _

theorem rotated_start {h₀ : RecvHelper N} (hcur : h₀.curIdx = 0) :
    Rotated h₀ 0 (PostRun.start h₀) where
  helper := by
    rw [Nat.zero_mod, ← hcur]
    rfl
  handed := rfl

/-- Every sequence of such calls. -/
theorem Rotated.exec {h₀ : RecvHelper N} (hl : h₀.Linked) (hN : N + N ≤ 2 ^ 64) {total : Nat}
    {s : PostRun N} (h : Rotated h₀ total s) {calls : List PostCall}
    (hcalls : ∀ c ∈ calls, (1 ≤ c.cnt ∧ c.cnt ≤ N) ∧ PostAnswer.Whole c.answer) :
    ∃ t, Run.exec PostRun.step s calls = some t ∧ Rotated h₀ (total + acceptedCnt calls) t := by
  induction calls generalizing s total with
  | nil => exact ⟨s, rfl, h⟩
  | cons c calls ih =>
    obtain ⟨hc, hrest⟩ := List.forall_mem_cons.mp hcalls
    obtain ⟨out, hpost⟩ := (h.linked hl).exists_postRecvs hc.1.1 (by omega) c.answer
    have hstep : s.step c = some { helper := out.helper, handed := s.handed ++ out.slots } := by
      rw [PostRun.step, hpost]
      rfl
    obtain ⟨t, hrun, ht⟩ := ih (h.step hl hc.1 hc.2 hstep) hrest
    refine ⟨t, Run.exec_cons_eq_some.mpr ⟨_, hstep, hrun⟩, ?_⟩
    rwa [Nat.add_assoc] at ht

/-- A rejected call changes nothing. -/
theorem Rotated.rejected {h₀ : RecvHelper N} (hl : h₀.Linked) {total : Nat} {s s' : PostRun N}
    (h : Rotated h₀ total s) {c : PostCall} (hcnt : 1 ≤ c.cnt ∧ c.cnt ≤ N)
    (hwhole : PostAnswer.Whole c.answer) (hrej : c.answer ≠ .ok) (hstep : s.step c = some s') :
    s' = s := by
  have h' := h.step hl hcnt hwhole hstep
  rw [if_neg hrej, Nat.add_zero] at h'
  cases s with
  | mk helper handed =>
    cases s' with
    | mk helper' handed' =>
      exact congr (congrArg PostRun.mk (h'.helper.trans h.helper.symm)) (h'.handed.trans h.handed.symm)

/-- For every ring and every sequence of calls with counts between 1 and its size, each
    accepted or rejected as a whole: all calls return; the links form the cycle
    `0 → 1 → … → N - 1 → 0`, the requests and the buffers are those that `create` built; what
    has been handed over is `0, 1, 2, …` modulo `N`; and the next call, if it is rejected,
    changes nothing. -/
theorem posts_round_robin (paToVa : Nat → Nat) (entrySize lkey baseAddr : Nat)
    (calls : List PostCall) {h₀ : RecvHelper N}
    (hcreate : tryCreate paToVa entrySize lkey baseAddr = some h₀)
    (hcalls : ∀ c ∈ calls, (1 ≤ c.cnt ∧ c.cnt ≤ N) ∧ PostAnswer.Whole c.answer) :
    ∃ s, Run.exec PostRun.step (.start h₀) calls = some s ∧
      (∀ i, (s.helper.wrs (Ring.pos N i)).next = some (Ring.pos N (i + 1))) ∧
      s.helper.wrs = h₀.wrs ∧ s.helper.sges = h₀.sges ∧ s.helper.enSz = h₀.enSz ∧
      s.handed = (List.range (acceptedCnt calls)).map (Ring.pos N) ∧
      ∀ c s', 1 ≤ c.cnt ∧ c.cnt ≤ N → PostAnswer.Whole c.answer → c.answer ≠ .ok →
        s.step c = some s' → s' = s := by
  obtain ⟨hsize, -, hh⟩ := (tryCreate_eq_some ..).mp hcreate
  have hl : h₀.Linked := hh ▸ create_linked paToVa entrySize lkey baseAddr
  have hcur : h₀.curIdx = 0 := hh ▸ createLoop_curIdx paToVa entrySize lkey baseAddr N
  have hN : N + N ≤ 2 ^ 64 := by
    simp only [ibRecvWrSz] at hsize
    omega
  obtain ⟨s, hrun, hs⟩ := (rotated_start hcur).exec hl hN hcalls
  rw [Nat.zero_add] at hs
  refine ⟨s, hrun, (hs.linked hl).next, ?_, ?_, ?_, ?_, ?_⟩
  · rw [hs.helper]
  · rw [hs.helper]
  · rw [hs.helper]
  · rw [hs.handed, Ring.window]
    simp only [Nat.zero_add]
  · intro c s' hcnt hwhole hrej hstep
    exact hs.rejected hl hcnt hwhole hrej hstep

/-- Three calls on a ring of four, the second of which is rejected. -/
theorem posts_round_robin_rejected :
    ∃ (h₀ : RecvHelper 4) (s : PostRun 4), tryCreate id 16 0 0 = some h₀ ∧
      Run.exec PostRun.step (.start h₀) [⟨3, .ok⟩, ⟨2, .err 0 12⟩, ⟨3, .ok⟩] = some s ∧
      s.handed = (List.range 6).map (Ring.pos 4) := by
  obtain ⟨s, hrun, -, -, -, -, hhanded, -⟩ := @posts_round_robin 4 _ id 16 0 0
    [⟨3, .ok⟩, ⟨2, .err 0 12⟩, ⟨3, .ok⟩] _ rfl (by simp [PostAnswer.Whole])
  exact ⟨_, s, rfl, hrun, hhanded⟩

/-! ## Partial rejections -/

/-- No accepted slot goes out again before all others have gone out. -/
def NoEarlyRepost (accepted stream : List (Fin N)) : Prop :=
  ∀ p slot, stream[p]? = some slot → slot ∈ accepted →
    ∀ other, other ∉ accepted → other ∈ stream.take p

omit [NeZero N] in
/-- A ring has a slot beside fewer than `N` others. -/
theorem exists_not_mem (accepted : List (Fin N)) (h : accepted.length < N) :
    ∃ other, other ∉ accepted := by
  by_contra hall
  push Not at hall
  have hcard := List.toFinset_card_le accepted
  have huniv : accepted.toFinset = Finset.univ := by
    ext i
    simp [hall i]
  rw [huniv, Finset.card_univ, Fintype.card_fin] at hcard
  omega

/-- A call for one slot hands over the one that the cursor is at. -/
theorem Linked.exists_exec_one {h : RecvHelper N} (hl : h.Linked) (hN : N + 1 ≤ 2 ^ 64) :
    ∃ t, Run.exec PostRun.step (.start h) [⟨1, .ok⟩] = some t ∧
      t.handed = [Ring.pos N h.curIdx] := by
  obtain ⟨out, hpost⟩ := hl.exists_postRecvs (Nat.le_refl 1) (by omega) .ok
  obtain ⟨-, hslots, -⟩ := hl.postRecvs_eq_some hpost
  rw [span_of_le (Nat.le_refl 1) (Nat.pos_of_neZero N)] at hslots
  refine ⟨{ helper := out.helper, handed := out.slots }, ?_, hslots⟩
  simp [PostRun.step, PostRun.start, hpost]

/-- For every ring, every sequence of calls before and every count between 1 and its size:
    after a rejection of which the first `j` slots have been accepted, no later calls hand
    over one of these before all others if and only if `j` is zero. -/
theorem partial_rejection_iff (paToVa : Nat → Nat) (entrySize lkey baseAddr : Nat)
    (before : List PostCall) {k j : Nat} (errno : Int) {h₀ : RecvHelper N} {s : PostRun N}
    (hcreate : tryCreate paToVa entrySize lkey baseAddr = some h₀)
    (hrun : Run.exec PostRun.step (.start h₀) before = some s)
    (hk : 1 ≤ k ∧ k ≤ N) (hj : j < k) :
    ∃ out, s.helper.postRecvs k (.err j errno) = some out ∧ out.slots.length = j ∧
      ((∀ later t, Run.exec PostRun.step (.start out.helper) later = some t →
        NoEarlyRepost out.slots t.handed) ↔ j = 0) := by
  have hl := (built_of_exec hcreate hrun).linked
  obtain ⟨hsize, -, -⟩ := (tryCreate_eq_some ..).mp hcreate
  simp only [ibRecvWrSz] at hsize
  obtain ⟨out, hpost⟩ := hl.exists_postRecvs hk.1 (by omega) (.err j errno)
  obtain ⟨-, hslots, hhelper⟩ := hl.postRecvs_eq_some hpost
  rw [span_of_le hk.1 hk.2] at hslots
  have hlen : out.slots.length = j := by
    rw [hslots, PostAnswer.accepted, List.length_take, Ring.window_length]
    exact Nat.min_eq_left hj.le
  refine ⟨out, hpost, hlen, ?_, ?_⟩
  · intro hall
    by_contra hne
    -- The cursor has not moved, so that the next call begins with the first accepted slot.
    have hout : out.helper = s.helper := by rw [hhelper, if_neg (by simp)]
    rw [hout] at hall
    obtain ⟨t, hone, hhanded⟩ := hl.exists_exec_one (by omega)
    have hmem : Ring.pos N s.helper.curIdx ∈ out.slots := by
      obtain ⟨k', rfl⟩ := Nat.exists_eq_succ_of_ne_zero (Nat.one_le_iff_ne_zero.mp hk.1)
      obtain ⟨j', rfl⟩ := Nat.exists_eq_succ_of_ne_zero hne
      rw [hslots, Ring.window_succ]
      exact List.mem_cons_self
    obtain ⟨other, hother⟩ := exists_not_mem out.slots (by omega)
    have hbad := hall _ t hone 0 (Ring.pos N s.helper.curIdx) (by rw [hhanded]; rfl) hmem other
      hother
    rw [List.take_zero] at hbad
    cases hbad
  · rintro rfl later t - p slot - hmem
    rw [List.length_eq_zero_iff.mp hlen] at hmem
    cases hmem

/-- On a ring of four, the driver takes two of three and rejects the rest. -/
theorem partial_rejection_two_of_three :
    ∃ (h₀ : RecvHelper 4) (out : Posted 4), tryCreate id 16 0 0 = some h₀ ∧
      h₀.postRecvs 3 (.err 2 12) = some out ∧
      ¬ ∀ later t, Run.exec PostRun.step (.start out.helper) later = some t →
        NoEarlyRepost out.slots t.handed := by
  obtain ⟨out, hpost, -, hiff⟩ := @partial_rejection_iff 4 _ id 16 0 0 [] 3 2 12 _ _ rfl rfl
    (by decide) (by decide)
  exact ⟨_, out, rfl, hpost, fun hall => absurd (hiff.mp hall) (by decide)⟩

/-- The next post hands the two accepted slots over again, and the last slot of the ring
    never. -/
theorem accepted_slots_posted_again :
    ∃ (h₀ : RecvHelper 4) (out : Posted 4) (t : PostRun 4), tryCreate id 16 0 0 = some h₀ ∧
      h₀.postRecvs 3 (.err 2 12) = some out ∧ out.slots = [0, 1] ∧
      Run.exec PostRun.step (.start out.helper) [⟨2, .ok⟩] = some t ∧ t.handed = [0, 1] ∧
      ¬ NoEarlyRepost out.slots t.handed := by
  refine ⟨_, _, _, rfl, rfl, rfl, rfl, rfl, fun h => ?_⟩
  exact absurd (h 0 0 rfl (by decide) 2 (by decide)) (by decide)

end RecvHelper
