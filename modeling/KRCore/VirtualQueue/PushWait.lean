-- SUMMARY: The waits of a synchronous Push: when one of them is for a completion that never comes, and what an ok of Push means.
import KRCore.VirtualQueue.PushOrder

/-!
# The waits of a Push

With `pop_res` a Push waits until a send CQ has a completion. In bind mode it waits
once for every queue that it has used in the batch, whose first request it has
signalled itself. In client mode it waits at the end, on the RC or else on the UD of
the queue, whatever it has sent: nothing may be signalled, the list may be empty, or
the requests may have gone over the DC.
-/

namespace Ioctl

/-! ## Completions -/

def DeviceOp.isSend : DeviceOp → Bool
  | .send _ _ _ => true
  | .recv _ _ _ => false
  | .poll _ _ => false
  | .pollRecv _ _ => false

theorem DeviceOp.accepted_of_not_isSend {op : DeviceOp} (h : op.isSend = false) :
    op.accepted = false := by
  cases op with
  | send q wr errno => cases h
  | recv q ring slots => rfl
  | poll q found => rfl
  | pollRecv ctrl cnt => rfl

/-- A wait that has come to its end. -/
def DeviceOp.isWait : DeviceOp → Bool
  | .poll _ found => found
  | .send _ _ _ => false
  | .recv _ _ _ => false
  | .pollRecv _ _ => false

theorem DeviceOp.isWait_of_isSend {op : DeviceOp} (h : op.isSend = true) : op.isWait = false := by
  cases op with
  | send q wr errno => rfl
  | recv q ring slots => rfl
  | poll q found => cases h
  | pollRecv ctrl cnt => rfl

/-- The completions taken from the send CQ of `q`. -/
def polled (q : Queue) (ops : List DeviceOp) : Nat := ops.count (.poll q true)

theorem polled_append (q : Queue) (ops ops' : List DeviceOp) :
    polled q (ops ++ ops') = polled q ops + polled q ops' :=
  List.count_append

@[simp] theorem polled_nil (q : Queue) : polled q [] = 0 := rfl

@[simp] theorem polled_recv_cons (q q' : Queue) (c : Nat) (slots : List (Fin ctrlRingSize))
    (ops : List DeviceOp) : polled q (.recv q' c slots :: ops) = polled q ops := by
  simp [polled]

@[simp] theorem polled_wait (q q' : Queue) :
    polled q [.poll q' true] = if q' = q then 1 else 0 := by
  simp [polled, List.count_singleton]

/-- The send CQs serve a request. `n` says for every queue how many of the signalled
    requests that were posted have a completion that is not polled yet. A wait without one
    does not return. -/
def deliver (n : Queue → Nat) : DeviceOp → Option (Queue → Nat)
  | .send q wr errno =>
    if errno = 0 ∧ wr.signaled = true then some (Function.update n q (n q + 1)) else some n
  | .poll q true => if 0 < n q then some (Function.update n q (n q - 1)) else none
  | .poll _ false => some n
  | .recv _ _ _ => some n
  | .pollRecv _ _ => some n

/-- Without waits all signalled requests add up. -/
theorem deliver_of_noWait {ops : List DeviceOp} (h : ∀ op ∈ ops, op.isWait = false)
    (n : Queue → Nat) :
    Run.exec deliver n ops = some fun q => n q + (postedTo q ops).count true := by
  induction ops generalizing n with
  | nil => rfl
  | cons op ops ih =>
    have hrest := ih fun op' hop' => h op' (List.mem_cons_of_mem _ hop')
    have hstep : deliver n op = some fun q => n q + (postedTo q [op]).count true := by
      cases op with
      | send q wr errno =>
        simp only [deliver, postedTo_send]
        split
        · rename_i hsig
          congr 1
          funext q'
          by_cases hq : q' = q
          · subst hq
            simp [hsig.1, hsig.2]
          · simp [Function.update_of_ne hq, Ne.symm hq]
        · rename_i hsig
          congr 1
          funext q'
          by_cases herr : errno = 0
          · by_cases hq : q = q' <;> simp_all
          · simp [herr]
      | recv q c slots => simp [deliver]
      | pollRecv c cnt => simp [deliver]
      | poll q found =>
        have hfound : found = false := h _ List.mem_cons_self
        subst hfound
        simp [deliver]
    rw [Run.exec_cons, hstep, Option.bind_some, hrest]
    congr 1
    funext q
    rw [postedTo_cons q op ops, List.count_append, Nat.add_assoc]

/-- Waits return if there are enough completions for them. -/
theorem deliver_of_noSend {ops : List DeviceOp} (h : ∀ op ∈ ops, op.isSend = false)
    {n : Queue → Nat} (hle : ∀ q, polled q ops ≤ n q) :
    ∃ n', Run.exec deliver n ops = some n' := by
  induction ops generalizing n with
  | nil => exact ⟨n, rfl⟩
  | cons op ops ih =>
    have hrest := fun n => @ih (fun op' hop' => h op' (List.mem_cons_of_mem _ hop')) n
    have hother : (∀ q, op ≠ .poll q true) → ∀ q, polled q ops ≤ n q := by
      intro hne q
      have := hle q
      rwa [polled, List.count_cons_of_ne (hne q)] at this
    cases op with
    | send q wr errno => cases h _ List.mem_cons_self
    | recv q c slots => exact hrest n (hother nofun)
    | pollRecv c cnt => exact hrest n (hother nofun)
    | poll q found =>
      cases found with
      | false => exact hrest n (hother nofun)
      | true =>
        have hq := hle q
        rw [polled, List.count_cons_self] at hq
        obtain ⟨n', hn'⟩ := hrest (Function.update n q (n q - 1)) fun q' => by
          by_cases heq : q' = q
          · subst heq
            rw [Function.update_self]
            unfold polled
            omega
          · have := hle q'
            rw [polled, List.count_cons_of_ne fun hpoll => heq (by cases hpoll; rfl)] at this
            rwa [Function.update_of_ne heq]
        refine ⟨n', ?_⟩
        rw [Run.exec_cons, deliver, if_pos (by omega)]
        exact hn'

/-! ## Client mode -/

theorem translate_signaled {cfg : Config} {vq : VQ} (req : CoreReq) (wr : SendRequest)
    (h : translate cfg vq req = some wr) : wr.signaled = decide (req.sendFlags ≠ 0) := by
  unfold translate at h
  split at h
  · simp only [Option.map_eq_some_iff] at h
    obtain ⟨wr, hwr, rfl⟩ := h
    exact rcWr_signaled req wr hwr
  · simp only [Option.bind_eq_some_iff, Option.map_eq_some_iff] at h
    obtain ⟨_, -, wr, hwr, rfl⟩ := h
    exact dcWr_signaled req wr hwr

theorem acceptedFlags_eq_map {ans : Nat → Int} {idx : Nat} {reqs : List CoreReq}
    (h : ∀ i < reqs.length, ans (idx + i) = 0) :
    acceptedFlags ans idx reqs = reqs.map fun req => decide (req.sendFlags ≠ 0) := by
  induction reqs generalizing idx with
  | nil => rfl
  | cons req reqs ih =>
    have hhead : ans idx = 0 := h 0 (Nat.succ_pos _)
    have hrest : acceptedFlags ans (idx + 1) reqs =
        reqs.map fun req => decide (req.sendFlags ≠ 0) := ih fun i hi => by
      have := h (i + 1) (Nat.succ_lt_succ hi)
      rwa [Nat.add_comm i 1, ← Nat.add_assoc] at this
    rw [acceptedFlags, if_pos hhead, hrest, List.map_cons]

theorem pushLoop_ok_errno {ω : Type} {build : CoreReq → Option ω} {ans : Nat → Int} {idx : Nat}
    {reqs : List CoreReq} (h : (pushLoop build ans idx reqs).reply = some .ok) :
    ∀ p ∈ (pushLoop build ans idx reqs).posted, p.2 = 0 := by
  induction reqs generalizing idx with
  | nil => exact fun p hp => (List.not_mem_nil hp).elim
  | cons req reqs ih =>
    unfold pushLoop at h ⊢
    cases hb : build req with
    | none =>
      rw [hb] at h
      cases h
    | some wr =>
      simp only [hb] at h ⊢
      split at h
      · rename_i hans
        simp only [hans, if_true, List.forall_mem_cons, true_and] at h ⊢
        exact ih h
      · cases h

theorem pushBatches_noTarget {cfg : Config} {p : PushReq} {ans : PushAnswers} {ks : List Nat}
    {s : State} {ret : ReplyStatus} {r : Reply} (hbind : s.vq.bindPort = none)
    (htarget : sendTarget s.vq = none) (h : pushBatches cfg p ans ks s ret = some r) :
    r.status = (if ks = [] then ret else .nil) ∧ r.ops = [] := by
  have hparts : s.vq.virtualQueue = none ∧ s.vq.localDc = none := by
    unfold sendTarget at htarget
    split at htarget
    · cases htarget
    · rename_i hrc
      exact ⟨hrc, Option.map_eq_none_iff.mp htarget⟩
  induction ks generalizing s ret r with
  | nil =>
    cases h
    exact ⟨rfl, rfl⟩
  | cons k ks ih =>
    obtain ⟨r₁, hbatch, hcases⟩ := pushBatches_cons_eq_some h
    have hclient : r₁ = s.reply .nil := by
      simp only [pushBatch, hbind, clientPush, hparts.1, VQ.dcPushImpl, hparts.2, Option.map_some,
        Option.some.injEq] at hbatch
      rw [← hbatch]
      rfl
    subst hclient
    rcases hcases with ⟨herr, -⟩ | ⟨-, r₂, hr₂, rfl⟩
    · cases herr
    · obtain ⟨hstatus, hops⟩ := ih hbind htarget hr₂ hparts
      rw [hops, hstatus]
      refine ⟨?_, rfl⟩
      split <;> rfl

/-- The batches of a client-mode Push with requests: either there is nowhere to send them,
    or they are one loop over the list. -/
theorem pushBatches_client_eq_some {cfg : Config} {p : PushReq} {ans : PushAnswers} {s : State}
    {ret : ReplyStatus} {r : Reply} (hbind : s.vq.bindPort = none) (hne : p.reqs ≠ [])
    (h : pushBatches cfg p ans (List.range p.batchCnt) s ret = some r) :
    (sendTarget s.vq = none ∧ r.status = .nil ∧ r.ops = []) ∨
      ∃ q, ConnectedOver s.vq q ∧
        (pushLoop (translate cfg s.vq) ans.sendAt 0 p.reqs).reply = some r.status ∧
        r.ops = (pushLoop (translate cfg s.vq) ans.sendAt 0 p.reqs).posted.map fun p =>
          .send q p.1 p.2 := by
  obtain ⟨hk, hm, hzero⟩ := p.batchCnt_spec
  have hcnt : p.batchCnt ≠ 0 := hzero.not.mpr hne
  cases htarget : sendTarget s.vq with
  | none =>
    obtain ⟨hstatus, hops⟩ := pushBatches_noTarget hbind htarget h
    rw [if_neg (by simpa using hcnt)] at hstatus
    exact .inl ⟨rfl, hstatus, hops⟩
  | some q =>
    refine .inr ⟨q, ?_⟩
    have hconn : ConnectedOver s.vq q := by
      refine ⟨htarget, fun hrc => ?_⟩
      -- Without an endpoint the first batch panics.
      obtain ⟨m, hm⟩ := Nat.exists_eq_succ_of_ne_zero hcnt
      rw [hm, List.range_succ_eq_map] at h
      obtain ⟨r₁, hbatch, -⟩ := pushBatches_cons_eq_some h
      simp only [sendTarget, hrc, Option.map_eq_some_iff] at htarget
      obtain ⟨d, hd, -⟩ := htarget
      cases hpoint : s.vq.localCache.remoteEndpoint with
      | none => simp [pushBatch, hbind, clientPush, hrc, VQ.dcPushImpl, hd, hpoint] at hbatch
      | some point => rfl
    have hflat := @pushBatches_client_iff cfg p ans s q hbind hconn _ 0 hk hm ret
    simp only [Nat.zero_mul, List.drop_zero, Nat.zero_add, ← List.range_eq_range'] at hflat
    obtain ⟨-, status, hreply, rfl⟩ := (hflat r).mp h
    rw [if_neg hcnt]
    exact ⟨hconn, hreply, rfl⟩

/-- All requests of the list are accepted by the queue they go to. -/
def AllAccepted (vq : VQ) (p : PushReq) (ans : PushAnswers) : Prop :=
  sendTarget vq ≠ none ∧ ∀ i < p.reqs.length, ans.sendAt i = 0

/-- The batches of a client-mode Push end in ok exactly if all requests are accepted, and
    without requests in what was there before. -/
theorem pushBatches_client_status {cfg : Config} {p : PushReq} {ans : PushAnswers} {s : State}
    {ret : ReplyStatus} {r : Reply} (hbind : s.vq.bindPort = none)
    (h : pushBatches cfg p ans (List.range p.batchCnt) s ret = some r) :
    r.status = .ok ↔ if p.reqs = [] then ret = .ok else AllAccepted s.vq p ans := by
  by_cases hne : p.reqs = []
  · rw [if_pos hne]
    rw [p.batchCnt_spec.2.2.mpr hne] at h
    cases h
    exact Iff.rfl
  · rw [if_neg hne, AllAccepted]
    rcases pushBatches_client_eq_some hbind hne h with ⟨hnone, hstatus, -⟩ | ⟨q, hconn, hreply, -⟩
    · simp [hnone, hstatus]
    · have hval := (((pushLoop_eq ans.sendAt 0 p.reqs).2) _ hreply).2
      simp only [Nat.zero_add] at hval
      rw [hval]
      split
      · rename_i hrefused
        obtain ⟨i, hi, hans⟩ := hrefused
        exact ⟨nofun, fun hall => absurd (hall.2 i hi) hans⟩
      · rename_i hnone
        refine iff_of_true rfl ⟨by simp [hconn.target], fun i hi => ?_⟩
        by_contra hans
        exact hnone ⟨i, hi, hans⟩

/-- What a client-mode Push whose batches end in ok has posted. -/
theorem pushBatches_client_postedTo {cfg : Config} {p : PushReq} {ans : PushAnswers} {s : State}
    {ret : ReplyStatus} {r : Reply} (hbind : s.vq.bindPort = none)
    (h : pushBatches cfg p ans (List.range p.batchCnt) s ret = some r) (hok : r.status = .ok) :
    (∀ q, postedTo q r.ops =
        if sendTarget s.vq = some q then p.reqs.map fun req => decide (req.sendFlags ≠ 0) else []) ∧
      r.ops.countP DeviceOp.accepted = p.reqs.length := by
  by_cases hne : p.reqs = []
  · rw [p.batchCnt_spec.2.2.mpr hne] at h
    cases h
    rw [hne]
    refine ⟨fun q => ?_, rfl⟩
    split <;> rfl
  · have hall := (pushBatches_client_status hbind h).mp hok
    rw [if_neg hne] at hall
    rcases pushBatches_client_eq_some hbind hne h with ⟨hnone, -, -⟩ | ⟨q, hconn, hreply, hops⟩
    · exact absurd hnone hall.1
    · rw [hok] at hreply
      refine ⟨fun q' => ?_, ?_⟩
      · have hposted := (@pushLoop_postedTo _ (translate cfg s.vq) id translate_signaled q' q _ _
          _ _ hreply).1
        rw [hops, hconn.target]
        simp only [Option.some.injEq]
        have hflags : acceptedFlags ans.sendAt 0 p.reqs =
            p.reqs.map fun req => decide (req.sendFlags ≠ 0) :=
          acceptedFlags_eq_map fun i hi => by simpa using hall.2 i hi
        rw [← hflags]
        exact hposted
      · rw [hops, List.countP_map, List.countP_eq_length.mpr, pushLoop_posted_length hreply]
        intro out hout
        simp [DeviceOp.accepted, pushLoop_ok_errno hreply out hout]

theorem pushBatches_client_isSend {cfg : Config} {p : PushReq} {ans : PushAnswers} {s : State}
    {ret : ReplyStatus} {r : Reply} (hbind : s.vq.bindPort = none)
    (h : pushBatches cfg p ans (List.range p.batchCnt) s ret = some r) :
    ∀ op ∈ r.ops, op.isSend = true := by
  by_cases hne : p.reqs = []
  · rw [p.batchCnt_spec.2.2.mpr hne] at h
    cases h
    exact fun op hop => (List.not_mem_nil hop).elim
  · rcases pushBatches_client_eq_some hbind hne h with ⟨-, -, hops⟩ | ⟨q, -, -, hops⟩
    · rw [hops]
      exact fun op hop => (List.not_mem_nil hop).elim
    · rw [hops]
      exact List.forall_mem_map.mpr fun _ _ => rfl

theorem pushBatches_client_noWait {cfg : Config} {p : PushReq} {ans : PushAnswers} {s : State}
    {ret : ReplyStatus} {r : Reply} (hbind : s.vq.bindPort = none)
    (h : pushBatches cfg p ans (List.range p.batchCnt) s ret = some r) :
    ∀ op ∈ r.ops, op.isWait = false :=
  fun op hop => DeviceOp.isWait_of_isSend (pushBatches_client_isSend hbind h op hop)

/-- What posting receives first does in a client-mode Push. -/
theorem pushRecvFirst_client {cfg : Config} {s : State} {p : PushReq} {ans : PushAnswers}
    {r : Reply} (hbind : s.vq.bindPort = none) (h : pushRecvFirst cfg s p ans = some r) :
    (p.pushRecvCnt = 0 ∧ r = s.reply .ok) ∨
      p.pushRecvCnt ≠ 0 ∧
        (s.vq.localConnectPort = none ∧ r = s.reply .notConnected ∨
          s.vq.localConnectPort ≠ none ∧ ∃ q c slots, r.ops = [.recv q c slots] ∧
            (ans.recv = .ok ∧ r.status = .ok ∧
                slots.length = RecvHelper.span ctrlRingSize p.pushRecvCnt.toNat ∨
              ans.recv ≠ .ok ∧ r.status = .err)) := by
  unfold pushRecvFirst at h
  split at h
  · rename_i hcnt
    refine .inr ⟨hcnt.2, ?_⟩
    simp only [pushRecvImpl, hbind] at h
    split at h
    · rename_i hport
      cases h
      exact .inl ⟨hport, rfl⟩
    · rename_i port hport
      simp only [Option.bind_eq_bind, Option.bind_eq_some_iff] at h
      obtain ⟨q, -, hpost⟩ := h
      obtain ⟨slots, hops, hcases⟩ := State.postRecvs_eq_some hpost
      refine .inr ⟨by simp [hport], q, _, slots, hops, ?_⟩
      rcases hcases with ⟨hans, hstatus, hlen⟩ | ⟨n, errno, hans, hstatus, -⟩
      · exact .inl ⟨hans, hstatus, hlen⟩
      · exact .inr ⟨by simp [hans], hstatus⟩
  · rename_i hcnt
    cases h
    refine .inl ⟨?_, rfl⟩
    by_contra hne
    exact hcnt ⟨hbind, hne⟩

theorem pushRecvFirst_noWait {cfg : Config} {s : State} {p : PushReq} {ans : PushAnswers}
    {r : Reply} (hbind : s.vq.bindPort = none) (h : pushRecvFirst cfg s p ans = some r) :
    (∀ op ∈ r.ops, op.isWait = false ∧ op.accepted = false) ∧ ∀ q, postedTo q r.ops = [] := by
  rcases pushRecvFirst_client hbind h with ⟨-, rfl⟩ | ⟨-, ⟨-, rfl⟩ | ⟨-, q, c, slots, hops, -⟩⟩
  · exact ⟨fun op hop => (List.not_mem_nil hop).elim, fun _ => rfl⟩
  · exact ⟨fun op hop => (List.not_mem_nil hop).elim, fun _ => rfl⟩
  · rw [hops]
    exact ⟨List.forall_mem_singleton.mpr ⟨rfl, rfl⟩, fun _ => rfl⟩

/-- The receives that a client-mode Push posts first have been posted without an error. -/
def ReceivesOk (vq : VQ) (p : PushReq) (ans : PushAnswers) : Prop :=
  p.pushRecvCnt ≠ 0 → vq.localConnectPort ≠ none ∧ ans.recv = .ok

theorem pushRecvFirst_status {cfg : Config} {s : State} {p : PushReq} {ans : PushAnswers}
    {r : Reply} (hbind : s.vq.bindPort = none) (h : pushRecvFirst cfg s p ans = some r) :
    r.status = .ok ↔ ReceivesOk s.vq p ans := by
  unfold ReceivesOk
  rcases pushRecvFirst_client hbind h with ⟨hcnt, rfl⟩ | ⟨hcnt, ⟨hport, rfl⟩ |
    ⟨hport, q, c, slots, -, ⟨hans, hstatus, -⟩ | ⟨hans, hstatus⟩⟩⟩
  · exact iff_of_true rfl fun hne => absurd hcnt hne
  · exact iff_of_false nofun fun hall => (hall hcnt).1 hport
  · exact iff_of_true hstatus fun _ => ⟨hport, hans⟩
  · exact iff_of_false (by simp [hstatus]) fun hall => hans (hall hcnt).2

/-- A client-mode Push with `pop_res` comes to its wait: what it did before has ended in
    ok. Only without requests does this depend on the receives. -/
def WaitReached (vq : VQ) (p : PushReq) (ans : PushAnswers) : Prop :=
  if p.reqs = [] then ReceivesOk vq p ans else AllAccepted vq p ans

/-- A client-mode Push, part by part. -/
theorem push_client_eq_some {cfg : Config} {s : State} {arg : Nat} {p : PushReq}
    {ans : PushAnswers} {r : Reply} (hbind : s.vq.bindPort = none)
    (h : push cfg s arg p ans = some r) :
    ∃ r₁ r₂, pushRecvFirst cfg s p ans = some r₁ ∧
      pushBatches cfg p ans (List.range p.batchCnt) r₁.state r₁.status = some r₂ ∧
      r₁.state.vq = s.vq ∧ (r₂.status = .ok ↔ WaitReached s.vq p ans) ∧ r.status = r₂.status ∧
      (p.popRes ≠ 0 ∧ r₂.status = .ok ∧
          (∃ q, clientQueue s.vq = some q ∧ r.ops = r₁.ops ++ r₂.ops ++ [.poll q true]) ∨
        ¬ (p.popRes ≠ 0 ∧ r₂.status = .ok) ∧ r.ops = r₁.ops ++ r₂.ops) := by
  simp only [push, Option.bind_eq_bind, Option.bind_eq_some_iff] at h
  obtain ⟨_, -, _, -, r₁, hfirst, r₂, hbatches, hwait⟩ := h
  have hvq₁ := (pushRecvFirst_frame hfirst).vq
  have hvq₂ : r₂.state.vq = s.vq := (pushBatches_frame hbatches).vq.trans hvq₁
  have hreached : r₂.status = .ok ↔ WaitReached s.vq p ans := by
    have hbind₁ : r₁.state.vq.bindPort = none := by rw [hvq₁, hbind]
    rw [pushBatches_client_status hbind₁ hbatches, pushRecvFirst_status hbind hfirst, hvq₁,
      WaitReached]
  refine ⟨r₁, r₂, hfirst, hbatches, hvq₁, hreached, ?_⟩
  simp only [pushWait, hvq₂, hbind, true_and] at hwait
  split at hwait
  · rename_i hpop
    simp only [Option.bind_eq_bind, Option.bind_eq_some_iff] at hwait
    obtain ⟨q, hq, hwait⟩ := hwait
    split at hwait
    · cases hwait
      exact ⟨rfl, .inl ⟨hpop.1, hpop.2, q, hq, rfl⟩⟩
    · cases hwait
  · rename_i hpop
    cases hwait
    exact ⟨rfl, .inr ⟨hpop, rfl⟩⟩

/-! ## Bind mode -/

section BindMode

variable {c : Nat} {registered : Nat → Option Nat} {n : Nat → Nat} {popAtOnce : Bool}
  {ans : BindAnswers}

/-- The first request for every `vid` is signalled. -/
theorem Sent.signaled {reqs : List CoreReq} {ops : List DeviceOp}
    (h : Sent c registered n reqs ops) (q : Queue) :
    (postedTo q ops).count true =
      ((reqs.map hostVid).toFinset.filter fun vid =>
        bindQueue c registered vid = q ∧ n vid = 0).card := by
  have hcount := Tally.countP_fresh (fun vid => decide (bindQueue c registered vid = q)) n
    (reqs.map hostVid)
  simp only [decide_eq_true_eq] at hcount
  rw [h.posted, ← hcount, List.count, List.countP_map, List.countP_filter]
  refine List.countP_congr fun p _ => ?_
  simp [and_comm]

theorem Sent.noWait {reqs : List CoreReq} {ops : List DeviceOp}
    (h : Sent c registered n reqs ops) : ∀ op ∈ ops, op.isWait = false := by
  intro op hop
  obtain ⟨q, wr, errno, rfl⟩ := h.send op hop
  rfl

variable {vids : List Nat} {status : ReplyStatus} {ops : List DeviceOp}

theorem Reposted.noSend (h : Reposted c registered n popAtOnce ans vids status ops) :
    ∀ op ∈ ops, op.isSend = false := by
  induction h with
  | nil => exact fun op hop => (List.not_mem_nil hop).elim
  | skip _ _ ih => exact ih
  | posted _ _ _ _ ih =>
    refine List.forall_mem_cons.mpr ⟨rfl, List.forall_mem_append.mpr ⟨?_, ih⟩⟩
    split
    · exact List.forall_mem_singleton.mpr rfl
    · exact fun op hop => (List.not_mem_nil hop).elim
  | failed _ _ _ => exact List.forall_mem_singleton.mpr rfl

theorem Reposted.noAccepted (h : Reposted c registered n popAtOnce ans vids status ops) :
    ops.countP DeviceOp.accepted = 0 := by
  rw [List.countP_eq_zero]
  intro op hop
  simp [DeviceOp.accepted_of_not_isSend (h.noSend op hop)]

theorem Reposted.status_cases (h : Reposted c registered n popAtOnce ans vids status ops) :
    status = .ok ∨ status = .err := by
  induction h with
  | nil => exact .inl rfl
  | skip _ _ ih => exact ih
  | posted _ _ _ _ ih => exact ih
  | failed _ _ _ => exact .inr rfl

/-- A queue is waited for at most once for every `vid` that used it. -/
theorem Reposted.polled_le (h : Reposted c registered n popAtOnce ans vids status ops) (q : Queue) :
    polled q ops ≤ vids.countP fun vid => n vid ≠ 0 ∧ bindQueue c registered vid = q := by
  induction h with
  | nil => exact Nat.le_refl 0
  | skip _ _ ih =>
    rw [List.countP_cons]
    exact ih.trans (Nat.le_add_right _ _)
  | posted hcnt _ _ _ ih =>
    rw [List.countP_cons, polled_recv_cons, polled_append, Nat.add_comm]
    refine Nat.add_le_add ih ?_
    split
    · simp [hcnt]
    · exact Nat.zero_le _
  | failed _ _ _ =>
    rw [polled_recv_cons]
    exact Nat.zero_le _

/-- With `pop_at_once` a loop that ends in ok waits once for every `vid` in use. -/
theorem Reposted.waits (h : Reposted c registered n true ans vids .ok ops) :
    ops.countP DeviceOp.isWait = vids.countP fun vid => n vid ≠ 0 := by
  generalize hstatus : ReplyStatus.ok = status at h
  generalize hpop : true = popAtOnce at h
  induction h with
  | nil => rfl
  | skip hcnt _ ih => rw [ih hstatus, List.countP_cons_of_neg (by simp [hcnt])]
  | posted hcnt _ _ _ ih =>
    subst hpop
    rw [List.countP_cons_of_neg Bool.false_ne_true, if_pos rfl, List.singleton_append,
      List.countP_cons_of_pos rfl, ih hstatus, List.countP_cons_of_pos (by simp [hcnt])]
  | failed _ _ _ => cases hstatus

/-- How many `vid`s a batch waits for. -/
def destinations (reqs : List CoreReq) : Nat :=
  repostVids.countP fun vid => vidCnt reqs vid ≠ 0

variable {cfg : Config} {s : State} {port : Nat} {reqs : List CoreReq} {r : Reply}

/-- Every wait of a bind-mode batch is for a request that the batch has signalled. -/
theorem bindServerPushImpl_delivers
    (h : bindServerPushImpl cfg s port reqs popAtOnce ans = some r) (n : Queue → Nat) :
    ∃ n', Run.exec deliver n r.ops = some n' := by
  obtain ⟨sends, hsent, ⟨-, -, hops⟩ | ⟨hall, reposts, hops, hrepost⟩⟩ :=
    bindServerPushImpl_eq_some rfl h
  · rw [hops]
    exact ⟨_, deliver_of_noWait hsent.noWait n⟩
  · rw [hops, Run.exec_append, deliver_of_noWait hsent.noWait n, Option.bind_some]
    refine deliver_of_noSend hrepost.noSend fun q => ?_
    refine (hrepost.polled_le q).trans (le_trans ?_ (Nat.le_add_left _ _))
    have hnodup : repostVids.Nodup := List.nodup_range'
    rw [hsent.signaled, hall, List.countP_eq_length_filter,
      ← List.toFinset_card_of_nodup (hnodup.filter _)]
    refine Finset.card_le_card fun vid hvid => ?_
    rw [List.mem_toFinset, List.mem_filter, decide_eq_true_eq] at hvid
    rw [Finset.mem_filter, List.mem_toFinset]
    exact ⟨List.count_pos_iff.mp (Nat.pos_of_ne_zero hvid.2.1), hvid.2.2, rfl⟩

/-- A bind-mode batch that replies ok has posted everything and has waited for every `vid`
    from 1 on that it has used. -/
theorem bindServerPushImpl_ok (h : bindServerPushImpl cfg s port reqs popAtOnce ans = some r) :
    (r.status = .ok ∨ r.status = .err) ∧ (r.status = .ok →
      r.ops.countP DeviceOp.accepted = reqs.length ∧
        (popAtOnce = true → r.ops.countP DeviceOp.isWait = destinations reqs)) := by
  obtain ⟨sends, hsent, ⟨-, herr, -⟩ | ⟨hall, reposts, hops, hrepost⟩⟩ :=
    bindServerPushImpl_eq_some rfl h
  · exact ⟨.inr herr, fun hok => by rw [herr] at hok; cases hok⟩
  · refine ⟨hrepost.status_cases, fun hok => ?_⟩
    rw [hok] at hrepost
    rw [hops, List.countP_append, List.countP_append, hsent.accepted, hall, hrepost.noAccepted]
    refine ⟨rfl, fun hpop => ?_⟩
    subst hpop
    have hsends : sends.countP DeviceOp.isWait = 0 :=
      List.countP_eq_zero.mpr fun op hop => by simp [hsent.noWait op hop]
    rw [hsends, hrepost.waits, Nat.zero_add]
    rfl

end BindMode

section Replies

variable {cfg : Config} {p : PushReq} {ans : PushAnswers} {port : Nat}

theorem pushReplies_delivers {ks : List Nat} {s : State} {rs : List Reply}
    (hbind : s.vq.bindPort = some port) (h : pushReplies cfg p ans ks s = some rs)
    (n : Queue → Nat) : ∃ n', Run.exec deliver n (rs.flatMap Reply.ops) = some n' := by
  induction ks generalizing s rs n with
  | nil =>
    cases h
    exact ⟨n, rfl⟩
  | cons k ks ih =>
    obtain ⟨r, hbatch, hcases⟩ := pushReplies_cons_eq_some h
    have hvq := (pushBatch_frame hbatch).vq
    simp only [pushBatch, hbind] at hbatch
    obtain ⟨n₁, hn₁⟩ := bindServerPushImpl_delivers hbatch n
    rcases hcases with ⟨-, rfl⟩ | ⟨-, rs', hrest, rfl⟩
    · exact ⟨n₁, by simpa using hn₁⟩
    · rw [List.flatMap_cons, Run.exec_append, hn₁, Option.bind_some]
      exact ih (by rw [hvq, hbind]) hrest n₁

end Replies

/-! ## Every wait is for a completion that will come -/

/-- For every state, Push and number `n` of completions that are still to be polled: all
    waits of the Push are for a completion that comes if and only if a client-mode Push that
    gets to its wait finds one in the queue it waits on, either one that was there before,
    or that of a signalled request of its own which went to the same queue. The answers of
    `ans` let the waits return, so that all of them stand in `r.ops`, and `deliver` says
    whether they could. -/
theorem push_waits_iff (cfg : Config) (s : State) (arg : Nat) (p : PushReq) (ans : PushAnswers)
    (r : Reply) (n : Queue → Nat) (h : push cfg s arg p ans = some r) :
    (∃ n', Run.exec deliver n r.ops = some n') ↔
      (s.vq.bindPort = none → p.popRes ≠ 0 → WaitReached s.vq p ans →
        ∃ q, clientQueue s.vq = some q ∧
          (0 < n q ∨ sendTarget s.vq = some q ∧ ∃ req ∈ p.reqs, req.sendFlags ≠ 0)) := by
  cases hbind : s.vq.bindPort with
  | some port =>
    obtain ⟨rs, hrs, rfl⟩ := push_bind_eq_some hbind h
    rw [concludes_ops]
    exact iff_of_true (pushReplies_delivers hbind hrs n) fun hnone => nomatch hnone
  | none =>
    obtain ⟨r₁, r₂, hfirst, hbatches, hvq, hreached, -, hops⟩ := push_client_eq_some hbind h
    obtain ⟨hnoWait₁, hposted₁⟩ := pushRecvFirst_noWait hbind hfirst
    have hbind₁ : r₁.state.vq.bindPort = none := by rw [hvq, hbind]
    have hnoWait : ∀ op ∈ r₁.ops ++ r₂.ops, op.isWait = false := by
      refine List.forall_mem_append.mpr ⟨fun op hop => (hnoWait₁ op hop).1, ?_⟩
      exact pushBatches_client_noWait hbind₁ hbatches
    rw [← hreached]
    rcases hops with ⟨hpop, hok, q, hq, hops⟩ | ⟨hnot, hops⟩
    · have hposted := (pushBatches_client_postedTo hbind₁ hbatches hok).1 q
      rw [hvq] at hposted
      have hmem : 0 < (postedTo q r₂.ops).count true ↔
          sendTarget s.vq = some q ∧ ∃ req ∈ p.reqs, req.sendFlags ≠ 0 := by
        rw [hposted]
        split
        · rename_i htarget
          simp [List.count_pos_iff, htarget]
        · rename_i htarget
          simp [htarget]
      rw [hops, Run.exec_append, deliver_of_noWait hnoWait, Option.bind_some, Run.exec_cons,
        deliver, postedTo_append, hposted₁, List.nil_append]
      simp only [hok, hq, Option.some.injEq, exists_eq_left', forall_const, hpop, ne_eq,
        not_false_eq_true, ← hmem]
      by_cases hpos : 0 < n q + (postedTo q r₂.ops).count true
      · rw [if_pos hpos]
        exact iff_of_true ⟨_, rfl⟩ (by omega)
      · rw [if_neg hpos]
        exact iff_of_false (fun ⟨_, hsome⟩ => Option.some_ne_none _ hsome.symm) (by omega)
    · rw [hops]
      exact iff_of_true ⟨_, deliver_of_noWait hnoWait n⟩ fun _ hpop hok => absurd ⟨hpop, hok⟩ hnot

theorem take_batch_lt (reqs : List CoreReq) : (reqs.take defaultBatchSz).length < 2 ^ 32 :=
  lt_of_le_of_lt (List.length_take_le defaultBatchSz reqs) (by decide)

/-- A synchronous Push of one batch. -/
def PushReq.sampleSync (reqs : List CoreReq) : PushReq where
  reqList := 0
  reqs := reqs.take defaultBatchSz
  pushRecvCnt := 0
  popRes := 1
  reqLen_lt := take_batch_lt reqs

/-- A queue that is connected over a DC. -/
def State.sampleOverDc : State :=
  { State.sampleConnected with
    vq := { State.sampleConnected.vq with virtualQueue := none } }

/-- A signalled request over the RC. -/
theorem push_waits_signaled :
    ∃ r n', push (.sample .dct) .sampleConnected 0 (.sampleSync [.sample 0 1 0]) .sample =
        some r ∧ Run.exec deliver (fun _ => 0) r.ops = some n' := by
  obtain ⟨r, hr⟩ : ∃ r, push (.sample .dct) .sampleConnected 0
      (.sampleSync [.sample 0 1 0]) .sample = some r := ⟨_, rfl⟩
  obtain ⟨n', hn'⟩ := (push_waits_iff _ _ _ _ _ r (fun _ => 0) hr).mpr fun _ _ _ =>
    ⟨.rc 0 0, rfl, .inr ⟨rfl, _, List.mem_cons_self, by decide⟩⟩
  exact ⟨r, n', hr, hn'⟩

/-- Without a signalled request, without any request, and with a signalled request over the
    DC, a Push on queues without outstanding completions waits for ever. -/
theorem push_waits_for_nothing :
    (∃ r, push (.sample .dct) .sampleConnected 0 (.sampleSync [.sample 0 0 0]) .sample =
        some r ∧ Run.exec deliver (fun _ => 0) r.ops = none) ∧
      (∃ r, push (.sample .dct) .sampleConnected 0 (.sampleSync []) .sample = some r ∧
        Run.exec deliver (fun _ => 0) r.ops = none) ∧
      ∃ r, push (.sample .dct) .sampleOverDc 0 (.sampleSync [.sample 0 1 0]) .sample =
        some r ∧ Run.exec deliver (fun _ => 0) r.ops = none :=
  ⟨⟨_, rfl, rfl⟩, ⟨_, rfl, rfl⟩, ⟨_, rfl, rfl⟩⟩

end Ioctl
