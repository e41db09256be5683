-- SUMMARY: What PopMsgs stores in the completion array and hands to the user, and when that is what it has polled.
import KRCore.VirtualQueue.Ioctl

/-!
# The completions of PopMsgs

PopMsgs polls the receive CQ, up to 2048 completions at a time, until it has as many
as the user asked for. Every poll stores its completions from index `offset % N` on
in an array of `N` places, and `handle_pop_ret` then reads as many places as there
were completions, from the first one on, and writes them into the 2048 places of the
reply. Only as long as all fit into both arrays is it the list that was polled.
-/

namespace Ioctl

/-- An `ib_wc`, as far as PopMsgs reads it. -/
structure IbWc where
  opcode : BitVec 32
  status : BitVec 32
  immData : BitVec 32
  wrId : BitVec 64
deriving DecidableEq, Repr, Inhabited

/-- A `user_wc_t`. -/
structure UserWc where
  wcOp : BitVec 32
  wcStatus : BitVec 32
  immData : BitVec 32
  wcWrId : BitVec 64
deriving DecidableEq, Repr, Inhabited

def IbWc.user (wc : IbWc) : UserWc where
  wcOp := wc.opcode
  wcStatus := wc.status
  immData := wc.immData
  wcWrId := wc.wrId

/-- A `pop_reply_t` of the user, without its header. -/
structure PopReply where
  wc : Nat → UserWc
  popCount : BitVec 32
deriving Inhabited

/-- The completion array, with what lies behind it, the number of completions that a call
    has polled, and the indexes at which it has stored them. -/
structure PopBuf where
  wcs : Nat → IbWc
  act : Nat
  stored : List Nat

/-- The array as a call finds it. -/
def PopBuf.start (wcs : Nat → IbWc) : PopBuf := { wcs, act := 0, stored := [] }

/-- `pop_recvs` with the completions that the CQ gives, for a ring of size `N`. -/
def PopBuf.popRecvs (N : Nat) (b : PopBuf) (offset : Nat) (polled : List IbWc) : PopBuf where
  wcs i := if offset % N ≤ i then (polled[i - offset % N]?).getD (b.wcs i) else b.wcs i
  act := b.act + polled.length
  stored := b.stored ++ List.range' (offset % N) polled.length

/-- The loop of `pop_msg_impl` in client mode, as `popMsgLoop`. -/
def PopBuf.popLoop (N : Nat) (polls : Nat → List IbWc) (least : Nat) :
    Nat → Nat → PopBuf → PopBuf
  | 0, i, b => b.popRecvs N b.act (polls i)
  | retries + 1, i, b =>
    let b := b.popRecvs N b.act (polls i)
    if least ≤ b.act then b else popLoop N polls least retries (i + 1) b

/-- The array after the polls of a PopMsgs: one poll in bind mode, the loop in client mode. -/
def popBuf (N : Nat) (bound : Bool) (least : Nat) (polls : Nat → List IbWc) (wcs : Nat → IbWc) :
    PopBuf :=
  match bound with
  | true => (PopBuf.start wcs).popRecvs N 0 (polls 0)
  | false => PopBuf.popLoop N polls least popRetries 0 (PopBuf.start wcs)

/-- The completions that the loop polls, in the order of the polls. -/
def popPolled (polls : Nat → List IbWc) (least : Nat) : Nat → Nat → Nat → List IbWc
  | 0, i, _ => polls i
  | retries + 1, i, act =>
    polls i ++
      if least ≤ act + (polls i).length then []
      else popPolled polls least retries (i + 1) (act + (polls i).length)

/-- The completions that a PopMsgs polls. -/
def polledBy (bound : Bool) (least : Nat) (polls : Nat → List IbWc) : List IbWc :=
  match bound with
  | true => polls 0
  | false => popPolled polls least popRetries 0 0

/-- `handle_pop_ret`, with what it writes into the reply. -/
def handlePopInto (replyBuf wcAddr wcSz payloadSz : Nat) (b : PopBuf) (reply : PopReply) :
    Option PopReply := do
  let _ ← handlePopRet replyBuf wcAddr wcSz payloadSz
    ((List.range b.act).map fun i => (b.wcs i).wrId.toNat)
  some
    { wc := fun i => if i < b.act then (b.wcs i).user else reply.wc i
      popCount := BitVec.ofNat 32 b.act }

/-- The completions have been stored within the array and within the reply, and the reply is
    the list that was polled. -/
structure Delivered (N : Nat) (polled : List IbWc) (b : PopBuf) (reply : PopReply) : Prop where
  stored : ∀ i ∈ b.stored, i < N
  room : ∀ i < b.act, i < popWcLen
  popCount : reply.popCount.toNat = polled.length
  wc : (List.range polled.length).map reply.wc = polled.map IbWc.user

/-! ## The polls -/

theorem PopBuf.popLoop_act (N : Nat) (polls : Nat → List IbWc) (least retries i : Nat) (b : PopBuf) :
    (popLoop N polls least retries i b).act =
      b.act + (popPolled polls least retries i b.act).length := by
  induction retries generalizing i b with
  | zero => rfl
  | succ retries ih =>
    have hact : (b.popRecvs N b.act (polls i)).act = b.act + (polls i).length := rfl
    simp only [popLoop, popPolled]
    rw [hact]
    split
    · rw [hact, List.append_nil]
    · rw [ih, hact, List.length_append, Nat.add_assoc]

/-- What has not been stored to is as before. -/
theorem PopBuf.popRecvs_wcs {N : Nat} {b : PopBuf} {offset : Nat} {polled : List IbWc} {i : Nat}
    (h : i ∉ (b.popRecvs N offset polled).stored) :
    (b.popRecvs N offset polled).wcs i = b.wcs i := by
  simp only [popRecvs, List.mem_append, List.mem_range'_1, not_or, not_and, Nat.not_lt] at h ⊢
  split
  · rename_i hle
    rw [List.getElem?_eq_none (by have := h.2 hle; omega), Option.getD_none]
  · rfl

theorem PopBuf.popRecvs_stored {N : Nat} {b : PopBuf} {offset : Nat} {polled : List IbWc} {i : Nat}
    (h : i ∈ b.stored) : i ∈ (b.popRecvs N offset polled).stored :=
  List.mem_append_left _ h

theorem PopBuf.popLoop_stored {N : Nat} {polls : Nat → List IbWc} {least retries k : Nat}
    {b : PopBuf} {i : Nat} (h : i ∈ b.stored) : i ∈ (popLoop N polls least retries k b).stored := by
  induction retries generalizing k b with
  | zero => exact popRecvs_stored h
  | succ retries ih =>
    simp only [popLoop]
    split
    · exact popRecvs_stored h
    · exact ih (popRecvs_stored h)

theorem PopBuf.popLoop_wcs {N : Nat} {polls : Nat → List IbWc} {least retries k : Nat}
    {b : PopBuf} {i : Nat} (h : i ∉ (popLoop N polls least retries k b).stored) :
    (popLoop N polls least retries k b).wcs i = b.wcs i := by
  induction retries generalizing k b with
  | zero => exact popRecvs_wcs h
  | succ retries ih =>
    simp only [popLoop] at h ⊢
    split at h
    · rename_i hle
      rw [if_pos hle]
      exact popRecvs_wcs h
    · rename_i hle
      rw [if_neg hle, ih h]
      exact popRecvs_wcs fun hmem => h (popLoop_stored hmem)

/-- The array begins with the completions that were polled so far. -/
structure PopBuf.Holds (N : Nat) (b : PopBuf) (polled : List IbWc) : Prop where
  act : b.act = polled.length
  stored : ∀ i ∈ b.stored, i < N
  wcs : ∀ i (h : i < polled.length), b.wcs i = polled[i]

theorem PopBuf.Holds.start (N : Nat) (wcs : Nat → IbWc) : Holds N (start wcs) [] :=
  ⟨rfl, fun _ h => (List.not_mem_nil h).elim, fun _ h => (Nat.not_lt_zero _ h).elim⟩

/-- One poll, as long as there is room for it. -/
theorem PopBuf.Holds.popRecvs {N : Nat} {b : PopBuf} {polled polled' : List IbWc}
    (h : b.Holds N polled) (hroom : polled.length + polled'.length ≤ N) :
    (b.popRecvs N b.act polled').Holds N (polled ++ polled') := by
  rw [h.act]
  -- Without room only an empty poll comes, and where it would be stored does not matter.
  have hpos : polled' = [] ∨ polled.length % N = polled.length := by
    cases polled' with
    | nil => exact .inl rfl
    | cons wc polled' =>
      rw [List.length_cons] at hroom
      exact .inr (Nat.mod_eq_of_lt (by omega))
  rcases hpos with rfl | hpos
  · refine ⟨by simp [PopBuf.popRecvs, h.act], ?_, ?_⟩
    · simpa [PopBuf.popRecvs] using h.stored
    · intro i hi
      simpa [PopBuf.popRecvs] using h.wcs i (by simpa using hi)
  · refine ⟨by simp [PopBuf.popRecvs, h.act], ?_, ?_⟩
    · intro i hi
      rcases List.mem_append.mp hi with hi | hi
      · exact h.stored i hi
      · rw [hpos, List.mem_range'_1] at hi
        omega
    · intro i hi
      simp only [PopBuf.popRecvs, hpos]
      rw [List.length_append] at hi
      by_cases hlt : i < polled.length
      · rw [if_neg (by omega), List.getElem_append_left hlt]
        exact h.wcs i hlt
      · rw [if_pos (by omega), List.getElem_append_right (by omega),
          List.getElem?_eq_getElem (by omega), Option.getD_some]

theorem PopBuf.Holds.popLoop {N : Nat} {polls : Nat → List IbWc} {least retries i : Nat}
    {b : PopBuf} {polled : List IbWc} (h : b.Holds N polled)
    (hroom : polled.length + (popPolled polls least retries i polled.length).length ≤ N) :
    (PopBuf.popLoop N polls least retries i b).Holds N
      (polled ++ popPolled polls least retries i polled.length) := by
  induction retries generalizing i b polled with
  | zero => exact h.popRecvs hroom
  | succ retries ih =>
    simp only [popPolled, List.length_append] at hroom ⊢
    have hone : (b.popRecvs N b.act (polls i)).Holds N (polled ++ polls i) := h.popRecvs (by omega)
    have hact : (b.popRecvs N b.act (polls i)).act = polled.length + (polls i).length := by
      rw [hone.act, List.length_append]
    simp only [PopBuf.popLoop, hact]
    split
    · rename_i hle
      rw [List.append_nil]
      exact hone
    · rename_i hle
      rw [if_neg hle] at hroom
      have hrest := ih (i := i + 1) hone (by rw [List.length_append]; omega)
      rwa [List.length_append, List.append_assoc] at hrest

section Call

variable {N : Nat} {bound : Bool} {least : Nat} {polls : Nat → List IbWc} {wcs : Nat → IbWc}

theorem popBuf_act : (popBuf N bound least polls wcs).act = (polledBy bound least polls).length := by
  unfold popBuf polledBy
  split
  · simp [PopBuf.popRecvs, PopBuf.start]
  · rw [PopBuf.popLoop_act]
    simp [PopBuf.start]

theorem popBuf_wcs {i : Nat} (h : i ∉ (popBuf N bound least polls wcs).stored) :
    (popBuf N bound least polls wcs).wcs i = wcs i := by
  unfold popBuf at h ⊢
  split at h
  · exact PopBuf.popRecvs_wcs h
  · exact PopBuf.popLoop_wcs h

theorem popBuf_holds (hroom : (polledBy bound least polls).length ≤ N) :
    (popBuf N bound least polls wcs).Holds N (polledBy bound least polls) := by
  unfold popBuf polledBy at *
  cases bound with
  | true => exact (PopBuf.Holds.start N wcs).popRecvs (by simpa using hroom)
  | false => exact (PopBuf.Holds.start N wcs).popLoop (by simpa using hroom)

theorem wrIds_of_holds {b : PopBuf} {polled : List IbWc} (h : b.Holds N polled) :
    ((List.range b.act).map fun i => (b.wcs i).wrId.toNat) =
      polled.map fun wc => wc.wrId.toNat := by
  rw [h.act]
  refine List.ext_getElem (by simp) fun i hi hi' => ?_
  rw [List.length_map] at hi'
  simp [h.wcs i hi']

end Call

/-! ## The reply -/

/-- The addresses for the completions from number `i` on do not overflow. -/
theorem popAddrs_eq_some_iff {replyBuf wcAddr wcSz payloadSz i : Nat} {wrIds : List Nat} :
    popAddrs replyBuf wcAddr wcSz payloadSz i wrIds = some () ↔
      ∀ j (h : j < wrIds.length), wcAddr + (i + j) * wcSz < 2 ^ 64 ∧
        wrIds[j] + payloadSz < 2 ^ 64 ∧ replyBuf + (replySz + (i + j) * userWcSz) < 2 ^ 64 := by
  induction wrIds generalizing i with
  | nil => simp [popAddrs]
  | cons wrId wrIds ih =>
    simp only [popAddrs, Option.bind_eq_bind, Option.bind_eq_some_iff, Word.checkedAdd_eq_some,
      existsAndEq, and_true, ih]
    constructor
    · rintro ⟨hwc, hwr, hbuf, hrest⟩ j hj
      cases j with
      | zero => exact ⟨hwc, hwr, hbuf⟩
      | succ j =>
        have := hrest j (Nat.lt_of_succ_lt_succ hj)
        rwa [Nat.add_right_comm, Nat.add_assoc i j 1] at this
    · intro h
      obtain ⟨hwc, hwr, hbuf⟩ := h 0 (Nat.succ_pos _)
      refine ⟨hwc, hwr, hbuf, fun j hj => ?_⟩
      have := h (j + 1) (Nat.succ_lt_succ hj)
      rwa [← Nat.add_assoc i j 1, Nat.add_right_comm] at this

theorem handlePopRet_eq_some_iff {replyBuf wcAddr wcSz payloadSz : Nat} {wrIds : List Nat}
    (hlen : wrIds.length ≤ popWcLen) :
    (∃ status, handlePopRet replyBuf wcAddr wcSz payloadSz wrIds = some status) ↔
      (∀ i (h : i < wrIds.length), wcAddr + i * wcSz < 2 ^ 64 ∧ wrIds[i] + payloadSz < 2 ^ 64) ∧
        replyBuf + (replySz + popWcLen * userWcSz) < 2 ^ 64 := by
  constructor
  · rintro ⟨status, h⟩
    simp only [handlePopRet, Option.bind_eq_bind, Option.bind_eq_some_iff,
      Word.checkedAdd_eq_some] at h
    obtain ⟨⟨⟩, haddrs, _, ⟨hbuf, -⟩, -⟩ := h
    rw [popAddrs_eq_some_iff] at haddrs
    simp only [Nat.zero_add] at haddrs
    exact ⟨fun i hi => ⟨(haddrs i hi).1, (haddrs i hi).2.1⟩, hbuf⟩
  · rintro ⟨haddrs, hbuf⟩
    have hall : popAddrs replyBuf wcAddr wcSz payloadSz 0 wrIds = some () := by
      refine popAddrs_eq_some_iff.mpr fun i hi => ?_
      have hle : i * userWcSz ≤ popWcLen * userWcSz := Nat.mul_le_mul_right _ (by omega)
      rw [Nat.zero_add]
      exact ⟨(haddrs i hi).1, (haddrs i hi).2, by omega⟩
    have hlast := Word.checkedAdd_eq_some.mpr ⟨hbuf, rfl⟩
    refine ⟨.ok, ?_⟩
    simp only [handlePopRet, hall, hlast, Option.bind_eq_bind, Option.bind_some]

section Delivery

variable {N : Nat} {bound : Bool} {least payloadSz replyBuf wcAddr wcSz : Nat}
  {polls : Nat → List IbWc}

theorem popBuf_ret_iff (hN : (polledBy bound least polls).length ≤ N)
    (hlen : (polledBy bound least polls).length ≤ popWcLen) (wcs : Nat → IbWc) :
    (∃ status, handlePopRet replyBuf wcAddr wcSz payloadSz ((List.range
        (popBuf N bound least polls wcs).act).map fun i =>
          ((popBuf N bound least polls wcs).wcs i).wrId.toNat) = some status) ↔
      (∀ i (h : i < (polledBy bound least polls).length), wcAddr + i * wcSz < 2 ^ 64 ∧
        (polledBy bound least polls)[i].wrId.toNat + payloadSz < 2 ^ 64) ∧
      replyBuf + (replySz + popWcLen * userWcSz) < 2 ^ 64 := by
  rw [wrIds_of_holds (popBuf_holds hN), handlePopRet_eq_some_iff (by simpa using hlen)]
  simp

/-- A completion behind the ring is lost on an array whose places all differ from it. -/
theorem polled_length_le (h : ∀ wcs reply, ∃ reply',
      handlePopInto replyBuf wcAddr wcSz payloadSz (popBuf N bound least polls wcs) reply =
        some reply' ∧
      Delivered N (polledBy bound least polls) (popBuf N bound least polls wcs) reply') :
    (polledBy bound least polls).length ≤ N := by
  by_contra hlt
  rw [Nat.not_le] at hlt
  let wc := (polledBy bound least polls)[N]
  obtain ⟨reply', hreply, hdone⟩ := h (fun _ => { wc with opcode := ~~~ wc.opcode }) default
  simp only [handlePopInto, Option.bind_eq_bind, Option.bind_eq_some_iff,
    Option.some.injEq] at hreply
  obtain ⟨_, -, rfl⟩ := hreply
  have hmap := congrArg (fun l => l[N]?) hdone.wc
  simp only [List.getElem?_map, List.getElem?_range hlt, List.getElem?_eq_getElem hlt,
    Option.map_some, Option.some.injEq, popBuf_act, if_pos hlt] at hmap
  rw [popBuf_wcs fun hmem => absurd (hdone.stored N hmem) (Nat.lt_irrefl N)] at hmap
  have hop : ~~~ wc.opcode = wc.opcode := congrArg UserWc.wcOp hmap
  bv_omega

end Delivery

/-- For every ring size, number of completions asked for, payload size and sequence of polls:
    whatever stood in the array and in the reply before, PopMsgs delivers exactly what it has
    polled if and only if this fits into the ring and into the reply, and no address
    overflows. -/
theorem pop_msgs_delivered_iff (N : Nat) (bound : Bool) (least payloadSz replyBuf wcAddr wcSz : Nat)
    (polls : Nat → List IbWc) :
    (∀ wcs reply, ∃ reply',
        handlePopInto replyBuf wcAddr wcSz payloadSz (popBuf N bound least polls wcs) reply =
          some reply' ∧
        Delivered N (polledBy bound least polls) (popBuf N bound least polls wcs) reply') ↔
      (polledBy bound least polls).length ≤ N ∧ (polledBy bound least polls).length ≤ popWcLen ∧
        (∀ i (h : i < (polledBy bound least polls).length), wcAddr + i * wcSz < 2 ^ 64 ∧
          (polledBy bound least polls)[i].wrId.toNat + payloadSz < 2 ^ 64) ∧
        replyBuf + (replySz + popWcLen * userWcSz) < 2 ^ 64 := by
  constructor
  · intro h
    have hN := polled_length_le h
    obtain ⟨reply', hreply, hdone⟩ := h default default
    have hlen : (polledBy bound least polls).length ≤ popWcLen := by
      by_contra hlt
      rw [Nat.not_le] at hlt
      exact Nat.lt_irrefl _ (hdone.room popWcLen (by rwa [popBuf_act]))
    simp only [handlePopInto, Option.bind_eq_bind, Option.bind_eq_some_iff] at hreply
    obtain ⟨status, hstatus, -⟩ := hreply
    exact ⟨hN, hlen, (popBuf_ret_iff hN hlen default).mp ⟨status, hstatus⟩⟩
  · rintro ⟨hN, hlen, haddrs⟩ wcs reply
    obtain ⟨status, hstatus⟩ := (popBuf_ret_iff hN hlen wcs).mpr haddrs
    have hholds := @popBuf_holds N bound least polls wcs hN
    refine ⟨_, by simp only [handlePopInto, hstatus, Option.bind_eq_bind, Option.bind_some]; rfl,
      hholds.stored, fun i hi => ?_, ?_, ?_⟩
    · rw [popBuf_act] at hi
      omega
    · simp only [popBuf_act, BitVec.toNat_ofNat]
      refine Nat.mod_eq_of_lt (hlen.trans_lt ?_)
      decide
    · refine List.ext_getElem (by simp) fun i hi hi' => ?_
      rw [List.length_map] at hi'
      simp [popBuf_act, hi', hholds.wcs i hi']

/-- What poll number `i` gives: one completion. -/
def IbWc.sample (i : Nat) : List IbWc :=
  [{ opcode := 128, status := 0, immData := 0, wrId := BitVec.ofNat 64 (4096 * (i + 1)) }]

/-- On a ring of two places, a server that gets three messages with one poll writes behind
    the array. A client that polls three messages one by one loses the first, gets the third
    in its place, and as the third what lies behind the array. -/
theorem pop_msgs_overruns :
    (popBuf 2 true 0 (fun _ => IbWc.sample 0 ++ IbWc.sample 1 ++ IbWc.sample 2)
        fun _ => default).stored = [0, 1, 2] ∧
      (polledBy false 3 IbWc.sample).map IbWc.wrId = [4096, 8192, 12288] ∧
      (popBuf 2 false 3 IbWc.sample fun _ => default).stored = [0, 1, 0] ∧
      ∃ reply, handlePopInto 0 0 64 8 (popBuf 2 false 3 IbWc.sample fun _ => default) default =
          some reply ∧
        reply.popCount = 3 ∧ [0, 1, 2].map (fun i => (reply.wc i).wcWrId) = [12288, 8192, 0] :=
  ⟨rfl, rfl, rfl, _, rfl, rfl, rfl⟩

/-! ## The command -/

/-- The controller whose receive CQ a PopMsgs polls, if it polls. -/
def popCtrl (cfg : Config) (vq : VQ) : Option Nat :=
  match vq.bindPort with
  | some port => some (cfg.machine.getGlobalRctrl (2 * port))
  | none => vq.localConnectPort.map cfg.machine.getGlobalRctrl

theorem popMsgLoop_eq (polls : Nat → List IbWc) (least retries i act : Nat) :
    popMsgLoop (fun i => ((polls i).length : Int)) least retries i act =
      some (act + (popPolled polls least retries i act).length) := by
  have hpos : ∀ i, ¬ ((polls i).length : Int) < 0 := fun i => by omega
  induction retries generalizing i act with
  | zero => simp only [popMsgLoop, popPolled, if_neg (hpos i), Int.toNat_natCast]
  | succ retries ih =>
    simp only [popMsgLoop, popPolled, if_neg (hpos i), Int.toNat_natCast]
    split
    · rw [List.append_nil]
    · rw [ih, List.length_append, Nat.add_assoc]

/-- The command does what has been said about the array and the reply. -/
theorem popMsgs_eq {cfg : Config} {s : State} {c arg : Nat} (hctrl : popCtrl cfg s.vq = some c)
    (harg : arg + reqSz + 4 < 2 ^ 64) (replyBuf least payloadSz : Nat) (polls : Nat → List IbWc)
    (wcs : Nat → IbWc) (reply : PopReply) :
    popMsgs cfg s arg replyBuf least payloadSz (fun i => ((polls i).length : Int))
        (fun i => ((popBuf ctrlRingSize s.vq.bindPort.isSome least polls wcs).wcs i).wrId) =
      (handlePopInto replyBuf (cfg.wcAddr c) cfg.wcSz payloadSz
        (popBuf ctrlRingSize s.vq.bindPort.isSome least polls wcs) reply).map fun _ =>
          { state := s, status := .ok
            ops := [.pollRecv c (polledBy s.vq.bindPort.isSome least polls).length] } := by
  have himpl : popMsgImpl cfg s least (fun i => ((polls i).length : Int)) =
      some (some (c, (polledBy s.vq.bindPort.isSome least polls).length)) := by
    unfold popMsgImpl polledBy
    unfold popCtrl at hctrl
    cases hbind : s.vq.bindPort with
    | some port =>
      rw [hbind] at hctrl
      cases hctrl
      simp
    | none =>
      rw [hbind] at hctrl
      obtain ⟨port, hport, rfl⟩ := Option.map_eq_some_iff.mp hctrl
      simp [hport, popMsgLoop_eq]
  have hfirst := Word.checkedAdd_eq_some.mpr ⟨(by omega : arg + reqSz < 2 ^ 64), rfl⟩
  have hsecond := Word.checkedAdd_eq_some.mpr ⟨harg, rfl⟩
  simp only [popMsgs, hfirst, hsecond, himpl, handlePopInto, popBuf_act, Option.bind_eq_bind,
    Option.bind_some]
  cases hret : handlePopRet replyBuf (cfg.wcAddr c) cfg.wcSz payloadSz _ with
  | none => rfl
  | some status =>
    obtain rfl : status = .ok := by
      simp only [handlePopRet, Option.bind_eq_bind, Option.bind_eq_some_iff,
        Option.some.injEq] at hret
      obtain ⟨_, -, _, -, rfl⟩ := hret
      rfl
    rfl

end Ioctl
