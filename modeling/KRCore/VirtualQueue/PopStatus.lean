-- SUMMARY: What the status and the pop_count of a PopMsgs say about the messages that have arrived, and when that is true.
import KRCore.VirtualQueue.PopMsgs

/-!
# The status of a PopMsgs

`pop_recvs` returns the head of the completion array also when the CQ had nothing, and
`handle_pop_ret` replies ok whenever it is given a head. So a queue that is connected or
bound replies ok even if nothing has arrived, and a nil comes only from a queue that has
nothing to poll. In that case the reply of the user is left as it was, with whatever
`pop_count` stood in it.
-/

namespace Ioctl

/-- What a `bd_ib_poll_cq` for 2048 completions comes to. -/
inductive CqPoll where
  | error (errno : Int) (neg : errno < 0)
  | polled (wcs : List IbWc) (le : wcs.length ≤ 2048)

namespace CqPoll

/-- What `bd_ib_poll_cq` returns. -/
def ret : CqPoll → Int
  | error errno _ => errno
  | polled wcs _ => wcs.length

/-- The completions that it stores. -/
def wcs : CqPoll → List IbWc
  | error _ _ => []
  | polled wcs _ => wcs

theorem wcs_length_le (p : CqPoll) : p.wcs.length ≤ 2048 := by
  cases p with
  | error errno neg => exact Nat.zero_le _
  | polled wcs le => exact le

end CqPoll

/-- The completions that a PopMsgs on the queue polls. -/
def popMsgsPolled (vq : VQ) (least : Nat) (polls : Nat → CqPoll) : List IbWc :=
  if vq.bindPort = none ∧ vq.localConnectPort = none then []
  else polledBy vq.bindPort.isSome least fun i => (polls i).wcs

/-- The completion array at the end of a PopMsgs that finds `wcs` in it. -/
def popMsgsBuf (vq : VQ) (least : Nat) (polls : Nat → CqPoll) (wcs : Nat → IbWc) : PopBuf :=
  popBuf ctrlRingSize vq.bindPort.isSome least (fun i => (polls i).wcs) wcs

/-- `PopMsgs` on a completion array that begins with `wcs`. -/
def popMsgsCall (cfg : Config) (s : State) (arg replyBuf least payloadSz : Nat)
    (polls : Nat → CqPoll) (wcs : Nat → IbWc) : Option Reply :=
  popMsgs cfg s arg replyBuf least payloadSz (fun i => (polls i).ret)
    fun i => ((popMsgsBuf s.vq least polls wcs).wcs i).wrId

/-- What `handle_pop_ret` writes into the reply of the user when it has been given the array. -/
def PopBuf.into (b : PopBuf) (reply : PopReply) : PopReply where
  wc i := if i < b.act then (b.wcs i).user else reply.wc i
  popCount := BitVec.ofNat 32 b.act

/-- The reply of the user after a PopMsgs. -/
def popMsgsReply (vq : VQ) (least : Nat) (polls : Nat → CqPoll) (wcs : Nat → IbWc)
    (reply : PopReply) : PopReply :=
  if vq.bindPort = none ∧ vq.localConnectPort = none then reply
  else (popMsgsBuf vq least polls wcs).into reply

/-- The status and the reply of a PopMsgs tell what has arrived. -/
structure TellsArrival (vq : VQ) (polled : List IbWc) (status : ReplyStatus) (reply : PopReply) :
    Prop where
  /-- An ok comes with a completion that this call has polled. -/
  ok : status = .ok → ∃ i < reply.popCount.toNat, ∃ wc ∈ polled, reply.wc i = wc.user
  /-- When there was none, or nothing to poll, the status is nil. -/
  nil : polled = [] ∨ (vq.bindPort = none ∧ vq.localConnectPort = none) → status = .nil
  popCount : reply.popCount.toNat = polled.length

/-! ## What is written into the reply -/

/-- `into` is what `handle_pop_ret` leaves. -/
theorem handlePopInto_eq (replyBuf wcAddr wcSz payloadSz : Nat) (b : PopBuf) (reply : PopReply) :
    handlePopInto replyBuf wcAddr wcSz payloadSz b reply =
      (handlePopRet replyBuf wcAddr wcSz payloadSz
        ((List.range b.act).map fun i => (b.wcs i).wrId.toNat)).map fun _ => b.into reply := by
  unfold handlePopInto
  cases handlePopRet replyBuf wcAddr wcSz payloadSz _ with
  | none => rfl
  | some status => rfl

/-- The first place of the array holds one of the completions, as soon as there is one. -/
structure PopBuf.First (b : PopBuf) (polled : List IbWc) : Prop where
  act : b.act = polled.length
  first : polled ≠ [] → b.wcs 0 ∈ polled

theorem PopBuf.First.start (wcs : Nat → IbWc) : (start wcs).First [] :=
  ⟨rfl, fun h => absurd rfl h⟩

/-- A poll stores over the first place, or leaves there what an earlier one has stored. -/
theorem PopBuf.First.popRecvs {b : PopBuf} {polled : List IbWc} (N : Nat) (h : b.First polled)
    (polled' : List IbWc) : (b.popRecvs N b.act polled').First (polled ++ polled') := by
  refine ⟨by simp [PopBuf.popRecvs, h.act], fun hne => ?_⟩
  simp only [PopBuf.popRecvs]
  cases polled' with
  | nil =>
    rw [List.append_nil] at hne ⊢
    simpa using h.first hne
  | cons wc polled' =>
    by_cases hzero : b.act % N = 0
    · simp [hzero]
    · have hact : polled ≠ [] := by
        rintro rfl
        rw [h.act] at hzero
        exact hzero (Nat.zero_mod N)
      rw [if_neg (by omega)]
      exact List.mem_append_left _ (h.first hact)

theorem PopBuf.First.popLoop {N : Nat} {polls : Nat → List IbWc} {least retries i : Nat}
    {b : PopBuf} {polled : List IbWc} (h : b.First polled) :
    (PopBuf.popLoop N polls least retries i b).First
      (polled ++ popPolled polls least retries i polled.length) := by
  induction retries generalizing i b polled with
  | zero => exact h.popRecvs N (polls i)
  | succ retries ih =>
    have hone := h.popRecvs N (polls i)
    have hact : (b.popRecvs N b.act (polls i)).act = polled.length + (polls i).length := by
      rw [hone.act, List.length_append]
    simp only [PopBuf.popLoop, popPolled, hact]
    split
    · rw [List.append_nil]
      exact hone
    · have hrest := ih (i := i + 1) hone
      rwa [List.length_append, List.append_assoc] at hrest

theorem popBuf_first (N : Nat) (bound : Bool) (least : Nat) (polls : Nat → List IbWc)
    (wcs : Nat → IbWc) : (popBuf N bound least polls wcs).First (polledBy bound least polls) := by
  unfold popBuf polledBy
  cases bound with
  | true => exact (PopBuf.First.start wcs).popRecvs N (polls 0)
  | false =>
    have h : (PopBuf.popLoop N polls least popRetries 0 (PopBuf.start wcs)).First
        ([] ++ popPolled polls least popRetries 0 ([] : List IbWc).length) :=
      (PopBuf.First.start wcs).popLoop
    rw [List.nil_append, List.length_nil] at h
    exact h

/-! ## How much is polled -/

theorem popPolled_length_le {polls : Nat → List IbWc} {n : Nat} (hlen : ∀ i, (polls i).length ≤ n)
    (least retries i act : Nat) :
    (popPolled polls least retries i act).length ≤ (retries + 1) * n := by
  induction retries generalizing i act with
  | zero =>
    rw [popPolled, Nat.zero_add, Nat.one_mul]
    exact hlen i
  | succ retries ih =>
    rw [popPolled, List.length_append, Nat.succ_mul]
    split
    · have := hlen i
      rw [List.length_nil]
      omega
    · have := ih (i + 1) (act + (polls i).length)
      have := hlen i
      omega

/-- The number of completions fits into `pop_count`. -/
theorem polledBy_length_lt (bound : Bool) (least : Nat) (polls : Nat → CqPoll) :
    (polledBy bound least fun i => (polls i).wcs).length < 2 ^ 32 := by
  have hlen : ∀ i, (polls i).wcs.length ≤ 2048 := fun i => (polls i).wcs_length_le
  cases bound with
  | true => exact (hlen 0).trans_lt (by decide)
  | false => exact (popPolled_length_le hlen least popRetries 0 0).trans_lt (by decide)

/-! ## The status -/

section Status

variable {cfg : Config} {s : State} {arg replyBuf least payloadSz : Nat} {polls : Nat → CqPoll}
  {wcs : Nat → IbWc} {r : Reply}

/-- With nothing to poll the status is nil. -/
theorem popMsgsCall_idle (hbind : s.vq.bindPort = none) (hport : s.vq.localConnectPort = none)
    (h : popMsgsCall cfg s arg replyBuf least payloadSz polls wcs = some r) :
    r.status = .nil := by
  simp only [popMsgsCall, popMsgs, popMsgImpl, hbind, hport, Option.bind_eq_bind,
    Option.bind_eq_some_iff, Option.bind_some] at h
  obtain ⟨_, -, _, -, h⟩ := h
  cases h
  rfl

/-- With something to poll it is ok, however little that gives. -/
theorem popMsgsCall_polling (hpoll : ¬ (s.vq.bindPort = none ∧ s.vq.localConnectPort = none))
    (h : popMsgsCall cfg s arg replyBuf least payloadSz polls wcs = some r) :
    r.status = .ok := by
  simp only [popMsgsCall, popMsgs, Option.bind_eq_bind, Option.bind_eq_some_iff] at h
  obtain ⟨_, -, _, -, found, himpl, h⟩ := h
  cases found with
  | none =>
    unfold popMsgImpl at himpl
    cases hbind : s.vq.bindPort with
    | some port =>
      rw [hbind] at himpl
      simp only [Option.ite_none_left_eq_some] at himpl
      cases himpl.2
    | none =>
      cases hport : s.vq.localConnectPort with
      | none => exact absurd ⟨hbind, hport⟩ hpoll
      | some port => simp [hbind, hport] at himpl
  | some found =>
    simp only [Option.bind_eq_some_iff, handlePopRet, Option.bind_eq_bind, Option.some.injEq] at h
    obtain ⟨_, ⟨_, -, _, -, rfl⟩, rfl⟩ := h
    rfl

end Status

section Polling

variable {vq : VQ} {least : Nat} {polls : Nat → CqPoll} {wcs : Nat → IbWc}

/-- The reply of a queue with something to poll. -/
theorem popMsgsReply_polling (hpoll : ¬ (vq.bindPort = none ∧ vq.localConnectPort = none))
    (reply : PopReply) :
    popMsgsReply vq least polls wcs reply = (popMsgsBuf vq least polls wcs).into reply :=
  if_neg hpoll

theorem popMsgsPolled_polling (hpoll : ¬ (vq.bindPort = none ∧ vq.localConnectPort = none)) :
    popMsgsPolled vq least polls = polledBy vq.bindPort.isSome least fun i => (polls i).wcs :=
  if_neg hpoll

/-- Its array holds what was polled. -/
theorem popMsgsBuf_first (hpoll : ¬ (vq.bindPort = none ∧ vq.localConnectPort = none)) :
    (popMsgsBuf vq least polls wcs).First (popMsgsPolled vq least polls) := by
  rw [popMsgsPolled_polling hpoll]
  exact popBuf_first ctrlRingSize vq.bindPort.isSome least (fun i => (polls i).wcs) wcs

theorem popMsgsReply_popCount (hpoll : ¬ (vq.bindPort = none ∧ vq.localConnectPort = none))
    (reply : PopReply) :
    (popMsgsReply vq least polls wcs reply).popCount.toNat =
      (popMsgsPolled vq least polls).length := by
  rw [popMsgsReply_polling hpoll, PopBuf.into, BitVec.toNat_ofNat, (popMsgsBuf_first hpoll).act,
    popMsgsPolled_polling hpoll]
  exact Nat.mod_eq_of_lt (polledBy_length_lt vq.bindPort.isSome least polls)

/-- With a completion, an ok tells the truth. -/
theorem tellsArrival_of_polled (hpoll : ¬ (vq.bindPort = none ∧ vq.localConnectPort = none))
    (hne : popMsgsPolled vq least polls ≠ []) (reply : PopReply) :
    TellsArrival vq (popMsgsPolled vq least polls) .ok (popMsgsReply vq least polls wcs reply) := by
  have hcount := @popMsgsReply_popCount vq least polls wcs hpoll reply
  have hpos := List.length_pos_of_ne_nil hne
  have hfirst := @popMsgsBuf_first vq least polls wcs hpoll
  refine ⟨fun _ => ⟨0, by omega, _, hfirst.first hne, ?_⟩, ?_, hcount⟩
  · have hact : 0 < (popMsgsBuf vq least polls wcs).act := by
      rw [hfirst.act]
      exact hpos
    rw [popMsgsReply_polling hpoll]
    exact if_pos hact
  · rintro (hnone | hnothing)
    · exact absurd hnone hne
    · exact absurd hnothing hpoll

end Polling

/-- For every queue, number of completions asked for and sequence of poll results: the status
    and the `pop_count` of a PopMsgs that replies tell what has arrived, whatever stood in the
    reply before, if and only if the queue is connected or bound and at least one completion
    was polled. -/
theorem pop_msgs_status_iff (cfg : Config) (s : State) (arg replyBuf least payloadSz : Nat)
    (polls : Nat → CqPoll) (wcs : Nat → IbWc) (r : Reply)
    (h : popMsgsCall cfg s arg replyBuf least payloadSz polls wcs = some r) :
    (∀ reply, TellsArrival s.vq (popMsgsPolled s.vq least polls) r.status
        (popMsgsReply s.vq least polls wcs reply)) ↔
      ¬ (s.vq.bindPort = none ∧ s.vq.localConnectPort = none) ∧
        popMsgsPolled s.vq least polls ≠ [] := by
  by_cases hidle : s.vq.bindPort = none ∧ s.vq.localConnectPort = none
  · -- The reply of a user who left a 1 in `pop_count` keeps it.
    refine iff_of_false (fun hall => ?_) fun hcond => hcond.1 hidle
    have hcount := (hall { (default : PopReply) with popCount := 1 }).popCount
    simp [popMsgsReply, popMsgsPolled, hidle] at hcount
  · have hstatus := popMsgsCall_polling hidle h
    rw [hstatus]
    refine ⟨fun hall => ⟨hidle, fun hnone => ?_⟩, fun ⟨_, hne⟩ reply => ?_⟩
    · have hnil := (hall default).nil (.inl hnone)
      cases hnil
    · exact tellsArrival_of_polled hidle hne reply

/-- The CQ has nothing. -/
def CqPoll.empty : CqPoll := .polled [] (Nat.zero_le _)

/-- The CQ has one completion. -/
def CqPoll.one : CqPoll := .polled (IbWc.sample 0) (Nat.le_of_ble_eq_true rfl)

/-- A bound queue that gets one message tells so. -/
theorem pop_msgs_status_one_message :
    ∃ r, popMsgsCall (.sample .dct)
        { State.sample with vq := { State.sample.vq with bindPort := some 0 } } 0 0 1 8
        (fun _ => .one) (fun _ => default) = some r ∧
      ∀ reply, TellsArrival { State.sample.vq with bindPort := some 0 } (IbWc.sample 0) r.status
        (popMsgsReply { State.sample.vq with bindPort := some 0 } 1
          (fun _ => .one) (fun _ => default) reply) := by
  obtain ⟨r, hr⟩ : ∃ r, popMsgsCall (.sample .dct)
      { State.sample with vq := { State.sample.vq with bindPort := some 0 } } 0 0 1 8
      (fun _ => .one) (fun _ => default) = some r := ⟨_, rfl⟩
  exact ⟨r, hr, (pop_msgs_status_iff _ _ _ _ _ _ _ _ r hr).mpr ⟨nofun, nofun⟩⟩

/-- On a bound and on a connected queue to which nothing has come PopMsgs replies ok, with a
    `pop_count` of 0. On one that is neither it replies nil, and a `pop_count` of 7 stays. -/
theorem pop_msgs_ok_without_message :
    (∃ r, popMsgsCall (.sample .dct)
        { State.sample with vq := { State.sample.vq with bindPort := some 0 } } 0 0 1 8
        (fun _ => .empty) (fun _ => default) = some r ∧ r.status = .ok ∧
      (popMsgsReply { State.sample.vq with bindPort := some 0 } 1 (fun _ => .empty)
        (fun _ => default) default).popCount = 0) ∧
    (∃ r, popMsgsCall (.sample .dct)
        { State.sample with vq := { State.sample.vq with localConnectPort := some 0 } } 0 0 0 8
        (fun _ => .empty) (fun _ => default) = some r ∧ r.status = .ok) ∧
    ∃ r, popMsgsCall (.sample .dct) State.sample 0 0 1 8 (fun _ => .empty) (fun _ => default) =
        some r ∧ r.status = .nil ∧
      (popMsgsReply State.sample.vq 1 (fun _ => .empty) (fun _ => default)
        { (default : PopReply) with popCount := 7 }).popCount = 7 :=
  ⟨⟨_, rfl, rfl, rfl⟩, ⟨_, rfl, rfl⟩, ⟨_, rfl, rfl, rfl⟩⟩

end Ioctl
