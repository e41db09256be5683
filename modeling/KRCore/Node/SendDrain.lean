-- SUMMARY: Which send queues a Pop polls, and when every full send queue can be drained by Pops.
import KRCore.Node.SendQueues

/-!
# Draining the send queues

That a full send queue holds a signalled request is not enough for a virtual queue
to get on: some Pop has to poll that queue. A Pop polls the accepted RC of its
`vid` in bind mode, and in client mode the RC of the virtual queue, with `dct_qp`
after the DC. No Pop polls a UD, to which bind mode sends for every `vid` without
an RC; its completions are only taken by a Push with `pop_res` and by the RPC
client. `drainable_always_iff` says for which runs every full queue can be drained
by Pops.
-/

namespace Ioctl

/-- The queues that a Pop polls, in this order, until one has a completion. `none` is the
    panic of `get_dc`. -/
def popQueues (cfg : Config) (s : State) (vid : Nat) : Option (List Queue) :=
  match s.vq.bindPort with
  | some port =>
    let c := cfg.bindCtrl port
    some (((s.ctrls c).registeredRcs vid).toList.map (.trc c))
  | none =>
    let rc := s.vq.virtualQueue.toList.map fun rc => Queue.rc rc.recvCtrl rc.id
    if cfg.feat.dctQp then s.vq.localDc.map fun d => .dc d :: rc else some rc

namespace Fabric

variable {cfg : Config} {f f' : Fabric} {q : Queue}

/-- A Pop of some virtual queue polls the send queue. -/
def Popped (cfg : Config) (vqs : Nat → State) (q : Queue) : Prop :=
  ∃ v, ∃ vid : BitVec 32, ∃ qs, popQueues cfg (vqs v) vid.toNat = some qs ∧ q ∈ qs

/-- There is a completion to be polled, if all requests have been carried out. -/
def found (f : Fabric) (q : Queue) : Bool := (SendQueue.poll (f.sends q)).isSome

/-- What a Pop meets when all requests have been carried out. -/
def popAnswers (cfg : Config) (f : Fabric) (v vid : Nat) : PopAnswers where
  dc := (f.vqs v).vq.localDc.any fun d => f.found (.dc d)
  rc := match (f.vqs v).vq.bindPort with
    | some port =>
      (((f.vqs v).ctrls (cfg.bindCtrl port)).registeredRcs vid).any fun id =>
        f.found (.trc (cfg.bindCtrl port) id)
    | none => (f.vqs v).vq.virtualQueue.any fun rc => f.found (.rc rc.recvCtrl rc.id)
  wrId := 0

/-- Such a Pop. -/
def popStep (cfg : Config) (v : Nat) (vid : BitVec 32) (f : Fabric) : Option Fabric :=
  step cfg f (.vq v (.ioctl 0 0 (.pop vid (f.popAnswers cfg v vid.toNat))))

theorem pollFirst_cons (f : Fabric) (q : Queue) (qs : List Queue) :
    SendQueue.pollFirst (q :: qs) f.sends =
      if f.found q then Function.update f.sends q ((SendQueue.poll (f.sends q)).getD [])
      else SendQueue.pollFirst qs f.sends :=
  SendQueue.pollFirst_cons q qs f.sends

/-- A poll that finds what there is. -/
theorem serve_poll (f : Fabric) (q : Queue) :
    serve f.sends [.poll q (f.found q)] = some (SendQueue.pollFirst [q] f.sends) := by
  rw [f.pollFirst_cons, SendQueue.pollFirst_nil]
  unfold serve found
  cases hq : SendQueue.poll (f.sends q) with
  | none => rfl
  | some q' => simp [DeviceOp.sends, SendQueue.apply, hq]

/-- A Pop whose requests to the device are given. -/
theorem step_pop {v : Nat} {vid : BitVec 32} {ans : PopAnswers} {found : Bool}
    {ops : List DeviceOp} (hwr : ans.wrId = 0)
    (h : popImpl cfg (f.vqs v) vid.toNat ans = some (found, ops)) :
    step cfg f (.vq v (.ioctl 0 0 (.pop vid ans))) =
      (serve f.sends ops).map fun sends => { f with sends } := by
  obtain ⟨status, hstatus⟩ :
      ∃ status, popReply (0 : BitVec 64).toNat ans.wrId.toNat found = some status := by
    rw [hwr]
    cases found with
    | false => exact ⟨_, rfl⟩
    | true =>
      exact ⟨.ok, by simp [popReply, handlePopRet, popAddrs, Word.checkedAdd, replySz, popWcLen,
        userWcSz]⟩
  have hpop : ioctrl cfg (f.vqs v) 0 0 (.pop vid ans) = some { state := f.vqs v, status, ops } := by
    simp only [ioctrl, pop, h, hstatus, Option.bind_eq_bind, Option.bind_some]
    rfl
  simp only [step, hpop, Option.bind_eq_bind, Option.bind_some, Function.update_eq_self]
  cases serve f.sends ops <;> rfl

/-- Polling the RC of a virtual queue. -/
theorem serve_popRc (f : Fabric) (vq : VQ) :
    serve f.sends (popRc vq (vq.virtualQueue.any fun rc => f.found (.rc rc.recvCtrl rc.id))).2 =
      some (SendQueue.pollFirst (vq.virtualQueue.toList.map fun rc => .rc rc.recvCtrl rc.id)
        f.sends) := by
  unfold popRc
  cases hrc : vq.virtualQueue with
  | none => rfl
  | some rc => exact f.serve_poll (.rc rc.recvCtrl rc.id)

/-- With these answers, `pop_impl` polls its queues up to the first that has a completion. -/
theorem serve_popImpl {v : Nat} {vid : Nat} {qs : List Queue}
    (h : popQueues cfg (f.vqs v) vid = some qs) :
    ∃ found ops, popImpl cfg (f.vqs v) vid (f.popAnswers cfg v vid) = some (found, ops) ∧
      serve f.sends ops = some (SendQueue.pollFirst qs f.sends) := by
  unfold popQueues at h
  unfold popImpl
  cases hbind : (f.vqs v).vq.bindPort with
  | some port =>
    simp only [hbind, Option.some.injEq] at h
    subst h
    simp only [popAnswers, hbind]
    cases ((f.vqs v).ctrls (cfg.bindCtrl port)).registeredRcs vid with
    | none => exact ⟨_, _, rfl, rfl⟩
    | some id => exact ⟨_, _, rfl, f.serve_poll (.trc (cfg.bindCtrl port) id)⟩
  | none =>
    have hrc := f.serve_popRc (f.vqs v).vq
    simp only [hbind] at h
    simp only [popAnswers, hbind]
    split at h
    · rename_i hdct
      obtain ⟨d, hd, rfl⟩ := Option.map_eq_some_iff.mp h
      have hdc := f.serve_poll (.dc d)
      -- The DC is polled first, and the RC only if there is nothing on the DC.
      rw [f.pollFirst_cons] at hdc ⊢
      simp only [hdct, if_true, hd, Option.map_some, Option.any_some]
      cases hfound : f.found (.dc d) with
      | true =>
        rw [hfound] at hdc
        exact ⟨_, _, rfl, hdc⟩
      | false => exact ⟨_, _, rfl, hrc⟩
    · rename_i hdct
      cases h
      simp only [hdct]
      exact ⟨_, _, rfl, hrc⟩

/-- It takes the first completion in the queues it polls. -/
theorem popStep_eq {v : Nat} {vid : BitVec 32} {qs : List Queue}
    (h : popQueues cfg (f.vqs v) vid.toNat = some qs) :
    popStep cfg v vid f = some { f with sends := SendQueue.pollFirst qs f.sends } := by
  obtain ⟨found, ops, himpl, hserve⟩ := serve_popImpl h
  rw [popStep, step_pop rfl himpl, hserve, Option.map_some]

theorem popStep_eq_none {v : Nat} {vid : BitVec 32}
    (h : popQueues cfg (f.vqs v) vid.toNat = none) : popStep cfg v vid f = none := by
  have himpl : popImpl cfg (f.vqs v) vid.toNat (f.popAnswers cfg v vid.toNat) = none := by
    unfold popQueues at h
    unfold popImpl
    cases hbind : (f.vqs v).vq.bindPort with
    | some port => simp [hbind] at h
    | none =>
      simp only [hbind] at h
      split at h
      · rename_i hdct
        rw [Option.map_eq_none_iff] at h
        simp only [hdct, if_true, h, Option.map_none]
      · cases h
  rw [popStep]
  simp [step, ioctrl, pop, himpl]

/-- `n` such Pops, one after the other. -/
def pops (cfg : Config) (v : Nat) (vid : BitVec 32) : Nat → Fabric → Option Fabric
  | 0, f => some f
  | n + 1, f => (popStep cfg v vid f).bind (pops cfg v vid n)

theorem pops_eq {v : Nat} {vid : BitVec 32} {qs : List Queue}
    (h : popQueues cfg (f.vqs v) vid.toNat = some qs) (n : Nat) :
    pops cfg v vid n f = some { f with sends := (SendQueue.pollFirst qs)^[n] f.sends } := by
  induction n generalizing f with
  | zero => rfl
  | succ n ih =>
    rw [pops, popStep_eq h, Option.bind_some]
    exact ih (f := { f with sends := SendQueue.pollFirst qs f.sends }) h

/-! ## Full queues -/

/-- Some virtual queue can make room in the send queue by Pops. -/
def Drains (cfg : Config) (f : Fabric) (q : Queue) : Prop :=
  ∃ v vid n f', pops cfg v vid n f = some f' ∧ (f'.sends q).length < maxSendWr q

/-- Every full send queue holds a signalled request whose completion has not been polled,
    and Pops can make room in it. -/
def Drainable (cfg : Config) (f : Fabric) : Prop :=
  ∀ q, (f.sends q).length = maxSendWr q → f.found q = true ∧ f.Drains cfg q

/-- That takes a Pop that polls the queue. -/
theorem drains_iff (hfull : (f.sends q).length = maxSendWr q) (hfound : f.found q = true) :
    f.Drains cfg q ↔ Popped cfg f.vqs q := by
  constructor
  · rintro ⟨v, vid, n, f', hpops, hlt⟩
    cases hqs : popQueues cfg (f.vqs v) vid.toNat with
    | none =>
      -- The first Pop would panic.
      cases n with
      | zero =>
        cases hpops
        omega
      | succ n =>
        rw [pops, popStep_eq_none hqs] at hpops
        cases hpops
    | some qs =>
      rw [pops_eq hqs] at hpops
      cases hpops
      refine ⟨v, vid, qs, hqs, ?_⟩
      by_contra hmem
      simp only [SendQueue.pollFirst_iterate_of_not_mem hmem] at hlt
      omega
  · rintro ⟨v, vid, qs, hqs, hmem⟩
    obtain ⟨n, hn⟩ := SendQueue.exists_pollFirst_lt hmem f.sends hfound
    exact ⟨v, vid, n, _, pops_eq hqs n, hfull ▸ hn⟩

/-- So the queues that no Pop polls must not become full. -/
theorem Inv.drainable_iff (h : f.Inv) :
    f.Drainable cfg ↔
      f.Signalled ∧ ∀ q, ¬ Popped cfg f.vqs q → (f.sends q).length < maxSendWr q := by
  constructor
  · intro hdrain
    refine ⟨fun q hfull => (hdrain q hfull).1, fun q hpopped => ?_⟩
    by_contra hlt
    have hfull : (f.sends q).length = maxSendWr q := by
      have := h.bounded q
      omega
    obtain ⟨hfound, hdrains⟩ := hdrain q hfull
    exact hpopped ((drains_iff hfull hfound).mp hdrains)
  · rintro ⟨hsignalled, hroom⟩ q hfull
    have hfound : f.found q = true := hsignalled q hfull
    refine ⟨hfound, (drains_iff hfull hfound).mpr ?_⟩
    by_contra hpopped
    have := hroom q hpopped
    omega

/-! ## Runs -/

/-- What an event asks of the driver, and the virtual queues after it. -/
def asks (cfg : Config) (f : Fabric) : Event → Option ((Nat → State) × List DeviceOp)
  | .vq v (.ioctl arg replyBuf call) =>
    (ioctrl cfg (f.vqs v) arg replyBuf call).map fun r => (Function.update f.vqs v r.state, r.ops)
  | .vq v e => (Ioctl.step cfg (f.vqs v) e).map fun s => (Function.update f.vqs v s, [])
  | .rpcSend c wr errno found => some (f.vqs, rpcOps c wr errno found)

theorem step_asks {e : Event} (h : step cfg f e = some f') :
    ∃ ops, f.asks cfg e = some (f'.vqs, ops) ∧ serve f.sends ops = some f'.sends := by
  cases e with
  | rpcSend c wr errno found =>
    simp only [step, Option.bind_eq_bind, Option.bind_eq_some_iff, Option.some.injEq] at h
    obtain ⟨sends, hserve, rfl⟩ := h
    exact ⟨_, rfl, hserve⟩
  | vq v e =>
    cases e with
    | thread | others =>
      simp only [step, Option.bind_eq_bind, Option.bind_eq_some_iff, Option.some.injEq] at h
      obtain ⟨s, hs, rfl⟩ := h
      exact ⟨[], congrArg (Option.map fun s => (Function.update f.vqs v s, [])) hs, rfl⟩
    | ioctl arg replyBuf call =>
      simp only [step, Option.bind_eq_bind, Option.bind_eq_some_iff, Option.some.injEq] at h
      obtain ⟨r, hr, sends, hserve, rfl⟩ := h
      exact ⟨r.ops, congrArg (Option.map _) hr, hserve⟩

/-- The event leaves room in every queue that no Pop polls after it: what it finds there and
    posts there, without what its own waits reclaim, is less than `max_send_wr`. -/
def LeavesRoom (cfg : Config) (f : Fabric) (e : Event) : Prop :=
  ∀ vqs ops, f.asks cfg e = some (vqs, ops) → ∀ q, ¬ Popped cfg vqs q →
    (SendQueue.left q (f.sends q) (ops.flatMap DeviceOp.sends)).length < maxSendWr q

theorem leavesRoom_iff {e : Event} (h : step cfg f e = some f') :
    f.LeavesRoom cfg e ↔
      ∀ q, ¬ Popped cfg f'.vqs q → (f'.sends q).length < maxSendWr q := by
  obtain ⟨ops, hasks, hserve⟩ := step_asks h
  have hleft : ∀ q, SendQueue.left q (f.sends q) (ops.flatMap DeviceOp.sends) = f'.sends q :=
    SendQueue.left_of_exec hserve
  simp only [LeavesRoom, hasks, Option.some.injEq, Prod.mk.injEq]
  constructor
  · intro hroom q hq
    rw [← hleft q]
    exact hroom _ _ ⟨rfl, rfl⟩ q hq
  · rintro hroom _ _ ⟨rfl, rfl⟩ q hq
    rw [hleft q]
    exact hroom q hq

theorem Drainable.step_iff {e : Event} (hinv : f.Inv) (h : f.Drainable cfg)
    (hstep : step cfg f e = some f') : f'.Drainable cfg ↔ f.Signals e ∧ f.LeavesRoom cfg e := by
  rw [(hinv.step hstep).drainable_iff, (hinv.drainable_iff.mp h).1.step_iff hinv hstep,
    leavesRoom_iff hstep]

/-- A Push of `n` unsignalled requests for `vid` 1. -/
def samplePush (type : BitVec 32) (n : Nat) (h : n < 2 ^ 32) : Call :=
  .push { reqList := 0, reqs := List.replicate n (.sample type 0 1), pushRecvCnt := 0, popRes := 0,
          reqLen_lt := by rw [List.length_replicate]; exact h } PushAnswers.sample

end Fabric

end Ioctl
