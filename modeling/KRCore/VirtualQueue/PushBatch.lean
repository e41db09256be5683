-- SUMMARY: The batches of a Push: their replies one by one, and what a bind-mode batch sends, reposts and polls.
import KRCore.Base.Tally
import KRCore.Node.SendQueues

/-!
# The batches of a Push

A Push cuts its requests into batches and stops at the first batch that replies
err. In bind mode a batch sends its requests, each to the queue of its `vid`
modulo twelve, and then goes over the `vid`s again to repost receives and to wait
for completions. What the second loop does only depends on how often every `vid`
was counted in the first.
-/

namespace Ioctl

/-! ## The replies of the batches -/

/-- The replies of the batches that a Push carries out. -/
def pushReplies (cfg : Config) (p : PushReq) (ans : PushAnswers) :
    List Nat → State → Option (List Reply)
  | [], _ => some []
  | k :: ks, s => do
    let _ ← Word.checkedAdd 64 p.reqList.toNat (k * defaultBatchSz * coreReqSz)
    let r ← pushBatch cfg p ans k s
    if r.status = .err then some [r]
    else do
      let rs ← pushReplies cfg p ans ks r.state
      some (r :: rs)

/-- What a list of replies comes to: the last one decides. -/
def concludes (s : State) (ret : ReplyStatus) : List Reply → Reply
  | [] => s.reply ret
  | r :: rs =>
    let last := concludes r.state r.status rs
    { last with ops := r.ops ++ last.ops }

theorem concludes_ops (s : State) (ret : ReplyStatus) (rs : List Reply) :
    (concludes s ret rs).ops = rs.flatMap Reply.ops := by
  induction rs generalizing s ret with
  | nil => rfl
  | cons r rs ih => rw [concludes, ih, List.flatMap_cons]

/-- The batch loop, reply by reply. -/
theorem pushBatches_eq (cfg : Config) (p : PushReq) (ans : PushAnswers) (ks : List Nat) (s : State)
    (ret : ReplyStatus) :
    pushBatches cfg p ans ks s ret = (pushReplies cfg p ans ks s).map (concludes s ret) := by
  induction ks generalizing s ret with
  | nil => rfl
  | cons k ks ih =>
    simp only [pushBatches, pushReplies, Option.bind_eq_bind, ih]
    cases Word.checkedAdd 64 p.reqList.toNat (k * defaultBatchSz * coreReqSz) with
    | none => rfl
    | some _ =>
      simp only [Option.bind_some]
      cases pushBatch cfg p ans k s with
      | none => rfl
      | some r =>
        simp only [Option.bind_some]
        by_cases herr : r.status = .err
        · rw [if_pos herr, if_pos herr]
          simp [concludes, State.reply]
        · simp only [herr, if_false]
          cases pushReplies cfg p ans ks r.state <;> rfl

theorem pushReplies_cons_eq_some {cfg : Config} {p : PushReq} {ans : PushAnswers} {k : Nat}
    {ks : List Nat} {s : State} {rs : List Reply}
    (h : pushReplies cfg p ans (k :: ks) s = some rs) :
    ∃ r, pushBatch cfg p ans k s = some r ∧
      (r.status = .err ∧ rs = [r] ∨
        r.status ≠ .err ∧ ∃ rs', pushReplies cfg p ans ks r.state = some rs' ∧ rs = r :: rs') := by
  simp only [pushReplies, Option.bind_eq_bind, Option.bind_eq_some_iff] at h
  obtain ⟨_, -, r, hbatch, h⟩ := h
  refine ⟨r, hbatch, ?_⟩
  split at h
  · rename_i herr
    cases h
    exact .inl ⟨herr, rfl⟩
  · rename_i herr
    simp only [Option.bind_eq_some_iff, Option.some.injEq] at h
    obtain ⟨rs', hrest, rfl⟩ := h
    exact .inr ⟨herr, rs', hrest, rfl⟩

/-- In bind mode no receives are posted first and nothing is waited for at the end. -/
theorem push_bind_eq_some {cfg : Config} {s : State} {arg : Nat} {p : PushReq} {ans : PushAnswers}
    {r : Reply} {port : Nat} (hbind : s.vq.bindPort = some port)
    (h : push cfg s arg p ans = some r) :
    ∃ rs, pushReplies cfg p ans (List.range p.batchCnt) s = some rs ∧ r = concludes s .ok rs := by
  simp only [push, Option.bind_eq_bind, Option.bind_eq_some_iff] at h
  obtain ⟨_, -, _, -, r₁, hfirst, r₂, hbatches, hwait⟩ := h
  rw [pushRecvFirst, hbind, if_neg fun hand => Option.some_ne_none port hand.1,
    Option.some.injEq] at hfirst
  subst hfirst
  have hvq : r₂.state.vq.bindPort = some port := by
    rw [(pushBatches_frame hbatches).vq]
    exact hbind
  rw [pushBatches_eq, Option.map_eq_some_iff] at hbatches
  obtain ⟨rs, hrs, rfl⟩ := hbatches
  rw [pushWait, if_neg fun hand => Option.some_ne_none port (hvq.symm.trans hand.1),
    Option.some.injEq] at hwait
  exact ⟨rs, hrs, hwait.symm⟩

/-! ## Posting receives -/

/-- What posting receives asks of the device, and what it replies. -/
theorem State.postRecvs_eq_some {s : State} {c : Nat} {q : Queue} {cnt : Nat} {ans : PostAnswer}
    {r : Reply} (h : s.postRecvs c q cnt ans = some r) :
    ∃ slots, r.ops = [.recv q c slots] ∧
      (ans = .ok ∧ r.status = .ok ∧ slots.length = RecvHelper.span ctrlRingSize cnt ∨
        ∃ n errno, ans = .err n errno ∧ r.status = .err ∧
          slots.length = min n (RecvHelper.span ctrlRingSize cnt)) := by
  simp only [State.postRecvs, Option.bind_eq_bind, Option.bind_eq_some_iff, Option.some.injEq] at h
  obtain ⟨⟨ring, out⟩, hpost, rfl⟩ := h
  refine ⟨out.slots, rfl, ?_⟩
  unfold Ring.post at hpost
  split at hpost
  · cases hpost
  · rename_i out' hout
    cases hpost
    obtain ⟨-, hslots, -⟩ := (s.ctrls c).recvBuffer.linked.postRecvs_eq_some hout
    simp only [RecvHelper.postRecvs, Option.bind_eq_bind, Option.bind_eq_some_iff] at hout
    obtain ⟨_, -, _, -, hout⟩ := hout
    cases ans with
    | ok =>
      have hres : out.result = .ok () := by
        rw [← Option.some.inj hout]
      refine .inl ⟨rfl, by simp only [hres], ?_⟩
      rw [hslots]
      exact Ring.window_length _ _
    | err n errno =>
      have hres : out.result = .error errno := by
        rw [← Option.some.inj hout]
      refine .inr ⟨n, errno, rfl, by simp only [hres], ?_⟩
      rw [hslots]
      simp [PostAnswer.accepted]

/-! ## The first loop of a bind-mode batch -/

/-- The `vid` of a request as bind mode uses it. -/
def hostVid (req : CoreReq) : Nat := req.vid.toNat % hostLen

/-- The queue that the requests for a `vid` go to. -/
def bindQueue (c : Nat) (registered : Nat → Option Nat) (vid : Nat) : Queue :=
  (registered vid).elim (.ud c) (.trc c)

/-- How the receives for a `vid` are posted. -/
def bindPost (registered : Nat → Option Nat) (ans : BindAnswers) (vid : Nat) : PostAnswer :=
  (registered vid).elim (ans.udPost vid) fun _ => ans.rcPost vid

/-- The requests before the first one that the driver refuses. -/
def acceptedReqs (ans : Nat → Int) : Nat → List CoreReq → List CoreReq
  | _, [] => []
  | idx, req :: reqs => if ans idx = 0 then req :: acceptedReqs ans (idx + 1) reqs else []

theorem acceptedReqs_eq_self_iff {ans : Nat → Int} {idx : Nat} {reqs : List CoreReq} :
    acceptedReqs ans idx reqs = reqs ↔ ∀ i < reqs.length, ans (idx + i) = 0 := by
  induction reqs generalizing idx with
  | nil => simp [acceptedReqs]
  | cons req reqs ih =>
    unfold acceptedReqs
    by_cases hans : ans idx = 0
    · rw [if_pos hans, List.cons.injEq, ih, List.length_cons]
      constructor
      · rintro ⟨-, h⟩ i hi
        cases i with
        | zero => exact hans
        | succ i =>
          rw [Nat.add_comm i 1, ← Nat.add_assoc]
          exact h i (Nat.lt_of_succ_lt_succ hi)
      · intro h
        refine ⟨rfl, fun i hi => ?_⟩
        have := h (i + 1) (Nat.succ_lt_succ hi)
        rwa [Nat.add_assoc, Nat.add_comm 1 i]
    · rw [if_neg hans]
      constructor
      · intro h
        cases h
      · intro h
        exact absurd (h 0 (Nat.succ_pos _)) hans

theorem acceptedReqs_zero_eq_self_iff (ans : Nat → Int) (reqs : List CoreReq) :
    acceptedReqs ans 0 reqs = reqs ↔ ∀ i < reqs.length, ans i = 0 := by
  rw [acceptedReqs_eq_self_iff]
  simp only [Nat.zero_add]

/-- The loop has counted `n` requests for every `vid`: with the UD for those without an RC,
    with their RC for the others. -/
structure BindLoop.Tallied (registered : Nat → Option Nat) (b : BindLoop) (n : Nat → Nat) :
    Prop where
  ud : ∀ vid, b.udPopCnt vid = if registered vid = none then n vid else 0
  rc : ∀ vid, b.rcPopCnt vid = if registered vid = none then 0 else n vid

namespace BindLoop.Tallied

variable {registered : Nat → Option Nat} {b : BindLoop} {n : Nat → Nat} {vid : Nat}

/-- One more request over the UD. -/
theorem bumpUd (hb : b.Tallied registered n) (hvid : registered vid = none)
    (clientEndpoint : Nat → Option EndPoint) :
    Tallied registered
      { b with
        clientEndpoint
        udPopCnt := Function.update b.udPopCnt vid (b.udPopCnt vid + 1) }
      (Tally.bump n vid) where
  ud vid' := by
    by_cases heq : vid' = vid
    · subst heq
      simp only [Function.update_self, Tally.bump, hb.ud, if_pos hvid]
    · simp only [Function.update_of_ne heq, Tally.bump, hb.ud]
  rc vid' := by
    rw [hb.rc]
    split
    · rfl
    · rename_i hsome
      have heq : vid' ≠ vid := fun heq => hsome (heq ▸ hvid)
      rw [Tally.bump, Function.update_of_ne heq]

/-- One more request over the RC of a `vid`. -/
theorem bumpRc (hb : b.Tallied registered n) (hvid : registered vid ≠ none) :
    Tallied registered
      { b with rcPopCnt := Function.update b.rcPopCnt vid (b.rcPopCnt vid + 1) }
      (Tally.bump n vid) where
  ud vid' := by
    rw [hb.ud]
    split
    · rename_i hnone
      have heq : vid' ≠ vid := fun heq => hvid (heq ▸ hnone)
      rw [Tally.bump, Function.update_of_ne heq]
    · rfl
  rc vid' := by
    by_cases heq : vid' = vid
    · subst heq
      simp only [Function.update_self, Tally.bump, hb.rc, if_neg hvid]
    · simp only [Function.update_of_ne heq, Tally.bump, hb.rc]

end BindLoop.Tallied

section FirstLoop

variable {localMr : TempMR} {rkey : BitVec 32} {c : Nat} {registered : Nat → Option Nat}
  {ans : BindAnswers}

/-- One request: it goes to the queue of its `vid`, and is signalled if nothing has been
    counted for the `vid`. -/
theorem bindPushOne_tallied {idx : Nat} {req : CoreReq} {b b' : BindLoop} {op : DeviceOp}
    {n : Nat → Nat} (h : bindPushOne localMr rkey c registered ans idx req b = some (b', op))
    (hb : b.Tallied registered n) :
    ∃ wr, op = .send (bindQueue c registered (hostVid req)) wr (ans.send idx) ∧
      wr.signaled = decide (n (hostVid req) = 0) ∧
      b'.Tallied registered (Tally.bump n (hostVid req)) := by
  cases bindPushOne_sent h with
  | ud hnone _ _ =>
    change registered (hostVid req) = none at hnone
    have hqueue : bindQueue c registered (hostVid req) = .ud c := by
      rw [bindQueue, hnone]
      rfl
    have hcnt : b.udPopCnt (hostVid req) = n (hostVid req) := by
      rw [hb.ud, if_pos hnone]
    rw [hqueue, ← hcnt]
    exact ⟨_, rfl, rfl, hb.bumpUd hnone _⟩
  | @rc _ id hid _ =>
    change registered (hostVid req) = some id at hid
    have hqueue : bindQueue c registered (hostVid req) = .trc c id := by
      rw [bindQueue, hid]
      rfl
    have hsome : registered (hostVid req) ≠ none := by
      rw [hid]
      exact Option.some_ne_none id
    have hcnt : b.rcPopCnt (hostVid req) = n (hostVid req) := by
      rw [hb.rc, if_neg hsome]
    rw [hqueue, ← hcnt]
    exact ⟨_, rfl, rfl, hb.bumpRc hsome⟩

/-- A send that the driver accepts. -/
def DeviceOp.accepted : DeviceOp → Bool
  | .send _ _ errno => errno = 0
  | .recv _ _ _ => false
  | .poll _ _ => false
  | .pollRecv _ _ => false

/-- What the loop has posted, queue by queue: the requests before the first refused one, of
    which the first for every `vid` are signalled. -/
structure Sent (c : Nat) (registered : Nat → Option Nat) (n : Nat → Nat) (reqs : List CoreReq)
    (ops : List DeviceOp) : Prop where
  posted : ∀ q, postedTo q ops =
    ((Tally.fresh n (reqs.map hostVid)).filter fun p => bindQueue c registered p.1 = q).map Prod.snd
  send : ∀ op ∈ ops, ∃ q wr errno, op = .send q wr errno
  accepted : ops.countP DeviceOp.accepted = reqs.length

/-- The whole loop. -/
theorem bindPushLoop_sent {idx : Nat} {reqs : List CoreReq} {b b' : BindLoop}
    {status : ReplyStatus} {ops : List DeviceOp} {n : Nat → Nat}
    (h : bindPushLoop localMr rkey c registered ans idx reqs b = some (b', status, ops))
    (hb : b.Tallied registered n) :
    Sent c registered n (acceptedReqs ans.send idx reqs) ops ∧
      (acceptedReqs ans.send idx reqs = reqs ∧ status = .ok ∧
          b'.Tallied registered (Tally.bumps n (reqs.map hostVid)) ∨
        acceptedReqs ans.send idx reqs ≠ reqs ∧ status = .err) := by
  induction reqs generalizing idx b b' status ops n with
  | nil =>
    cases h
    exact ⟨⟨fun _ => rfl, fun _ hop => (List.not_mem_nil hop).elim, rfl⟩, .inl ⟨rfl, rfl, hb⟩⟩
  | cons req reqs ih =>
    simp only [bindPushLoop, Option.bind_eq_bind, Option.bind_eq_some_iff, Prod.exists] at h
    obtain ⟨b₁, op, hone, h⟩ := h
    obtain ⟨wr, rfl, hsignaled, hb₁⟩ := bindPushOne_tallied hone hb
    unfold acceptedReqs
    split at h
    · rename_i hans
      simp only [Option.bind_eq_some_iff, Option.some.injEq, Prod.mk.injEq, Prod.exists] at h
      obtain ⟨b₂, status₂, ops₂, hrest, rfl, rfl, rfl⟩ := h
      obtain ⟨hsent, hstatus⟩ := ih hrest hb₁
      rw [if_pos hans]
      refine ⟨⟨fun q => ?_, fun op hop => ?_, ?_⟩, ?_⟩
      · rw [postedTo_cons, postedTo_send, hsent.posted, List.map_cons, Tally.fresh,
          List.filter_cons]
        by_cases hq : bindQueue c registered (hostVid req) = q
        · simp [hq, hans, hsignaled]
        · simp [hq]
      · rcases List.mem_cons.mp hop with rfl | hop
        · exact ⟨_, _, _, rfl⟩
        · exact hsent.send op hop
      · rw [List.countP_cons, hsent.accepted, List.length_cons]
        simp [DeviceOp.accepted, hans]
      · simpa only [List.cons.injEq, true_and, ne_eq, List.map_cons, Tally.bumps] using hstatus
    · -- A refused request ends the batch and is not posted.
      rename_i hans
      cases h
      rw [if_neg hans]
      refine ⟨⟨fun q => ?_, fun op hop => ?_, ?_⟩, .inr ⟨List.cons_ne_nil _ _ ∘ Eq.symm, rfl⟩⟩
      · rw [postedTo_send, if_neg fun hand => hans hand.1]
        rfl
      · exact ⟨_, _, _, List.mem_singleton.mp hop⟩
      · simp [DeviceOp.accepted, hans]

end FirstLoop

/-! ## The second loop of a bind-mode batch -/

/-- What the second loop can do: it skips the `vid`s without requests, posts receives for
    the others and waits for a completion with `pop_at_once`, and the first error ends it. -/
inductive Reposted (c : Nat) (registered : Nat → Option Nat) (n : Nat → Nat) (popAtOnce : Bool)
    (ans : BindAnswers) : List Nat → ReplyStatus → List DeviceOp → Prop
  | nil : Reposted c registered n popAtOnce ans [] .ok []
  | skip {vid : Nat} {vids : List Nat} {status : ReplyStatus} {ops : List DeviceOp}
      (hcnt : n vid = 0) (hrest : Reposted c registered n popAtOnce ans vids status ops) :
      Reposted c registered n popAtOnce ans (vid :: vids) status ops
  | posted {vid : Nat} {vids : List Nat} {status : ReplyStatus} {ops : List DeviceOp}
      {slots : List (Fin ctrlRingSize)} (hcnt : n vid ≠ 0)
      (hpost : bindPost registered ans vid = .ok)
      (hslots : slots.length = RecvHelper.span ctrlRingSize (n vid))
      (hrest : Reposted c registered n popAtOnce ans vids status ops) :
      Reposted c registered n popAtOnce ans (vid :: vids) status
        (.recv (bindQueue c registered vid) c slots ::
          ((if popAtOnce then [.poll (bindQueue c registered vid) true] else []) ++ ops))
  | failed {vid accepted : Nat} {vids : List Nat} {errno : Int} {slots : List (Fin ctrlRingSize)}
      (hcnt : n vid ≠ 0) (hpost : bindPost registered ans vid = .err accepted errno)
      (hslots : slots.length = min accepted (RecvHelper.span ctrlRingSize (n vid))) :
      Reposted c registered n popAtOnce ans (vid :: vids) .err
        [.recv (bindQueue c registered vid) c slots]

section SecondLoop

variable {c : Nat} {ans : BindAnswers} {popAtOnce : Bool}

/-- `repost` for a queue with requests. -/
theorem repost_eq_some {s : State} {q : Queue} {cnt : Nat} {post : PostAnswer} {comp : Bool}
    {r : Reply} (hcnt : cnt ≠ 0) (h : repost s c q cnt popAtOnce post comp = some r) :
    ∃ slots, (post = .ok ∧ r.status = .ok ∧ slots.length = RecvHelper.span ctrlRingSize cnt ∧
        r.ops = .recv q c slots :: if popAtOnce then [.poll q true] else []) ∨
      ∃ n errno, post = .err n errno ∧ r.status = .err ∧
        slots.length = min n (RecvHelper.span ctrlRingSize cnt) ∧ r.ops = [.recv q c slots] := by
  simp only [repost, if_neg hcnt, Option.bind_eq_bind, Option.bind_eq_some_iff] at h
  obtain ⟨r₁, hpost, h⟩ := h
  obtain ⟨slots, hops, hcases⟩ := State.postRecvs_eq_some hpost
  refine ⟨slots, ?_⟩
  rcases hcases with ⟨hok, hstatus, hlen⟩ | ⟨n, errno, herr, hstatus, hlen⟩
  · refine .inl ⟨hok, ?_⟩
    cases popAtOnce with
    | false =>
      simp only [Bool.false_eq_true, and_false, if_false, Option.some.injEq] at h
      rw [← h]
      exact ⟨hstatus, hlen, hops⟩
    | true =>
      simp only [hstatus, and_self, if_true] at h
      split at h
      · cases h
        exact ⟨rfl, hlen, by rw [hops]; rfl⟩
      · cases h
  · refine .inr ⟨n, errno, herr, ?_⟩
    have hne : r₁.status ≠ .ok := by
      rw [hstatus]
      exact ReplyStatus.noConfusion
    rw [if_neg fun hand => hne hand.1, Option.some.injEq] at h
    rw [← h]
    exact ⟨hstatus, hlen, hops⟩

/-- Whether the completion for a `vid` comes. -/
def bindComp (registered : Nat → Option Nat) (ans : BindAnswers) (vid : Nat) : Bool :=
  (registered vid).elim (ans.udComp vid) fun _ => ans.rcComp vid

theorem repostRc_eq_repost {s : State} {vid id : Nat} (hid : (s.ctrls c).registeredRcs vid = some id)
    (cnt : Nat) :
    repostRc s c vid cnt popAtOnce ans =
      repost s c (.trc c id) cnt popAtOnce (ans.rcPost vid) (ans.rcComp vid) := by
  by_cases hcnt : cnt = 0
  · simp [repostRc, repost, hcnt]
  · simp [repostRc, hid, hcnt]

/-- One round of the second loop: either the UD or the RC has been used for a `vid`. -/
theorem bindRepost_cons {b : BindLoop} {s : State} {n : Nat → Nat}
    (hb : b.Tallied (s.ctrls c).registeredRcs n) (vid : Nat) (vids : List Nat) :
    bindRepost c b popAtOnce ans (vid :: vids) s =
      (repost s c (bindQueue c (s.ctrls c).registeredRcs vid) (n vid) popAtOnce
        (bindPost (s.ctrls c).registeredRcs ans vid)
        (bindComp (s.ctrls c).registeredRcs ans vid)).bind fun r =>
          if r.status = .ok then
            (bindRepost c b popAtOnce ans vids r.state).map fun r' =>
              { r' with ops := r.ops ++ r'.ops }
          else some r := by
  have hzero : ∀ (s : State) (q : Queue) (post : PostAnswer) (comp : Bool),
      repost s c q 0 popAtOnce post comp = some (s.reply .ok) := fun _ _ _ _ => rfl
  have hzero' : ∀ s : State, repostRc s c vid 0 popAtOnce ans = some (s.reply .ok) := fun _ => rfl
  cases hreg : (s.ctrls c).registeredRcs vid with
  | none =>
    have hud : b.udPopCnt vid = n vid := by rw [hb.ud, if_pos hreg]
    have hrc : b.rcPopCnt vid = 0 := by rw [hb.rc, if_pos hreg]
    simp only [bindRepost, bindQueue, bindPost, bindComp, hreg, hud, hrc, hzero', Option.elim_none,
      Option.bind_eq_bind]
    congr 1
    funext r
    split
    · simp only [State.reply, Option.bind_some, if_true, List.append_nil]
      cases bindRepost c b popAtOnce ans vids r.state <;> rfl
    · rfl
  | some id =>
    have hsome : (s.ctrls c).registeredRcs vid ≠ none := by
      rw [hreg]
      exact Option.some_ne_none id
    have hud : b.udPopCnt vid = 0 := by rw [hb.ud, if_neg hsome]
    have hrc : b.rcPopCnt vid = n vid := by rw [hb.rc, if_neg hsome]
    simp only [bindRepost, bindQueue, bindPost, bindComp, hreg, hud, hrc, hzero, Option.elim_some,
      Option.bind_eq_bind, Option.bind_some, State.reply, if_true, List.nil_append]
    rw [← repostRc_eq_repost hreg]
    congr 1
    funext r
    split
    · cases bindRepost c b popAtOnce ans vids r.state <;> rfl
    · rfl

theorem bindRepost_reposted {b : BindLoop} {vids : List Nat} {s : State} {r : Reply}
    {registered : Nat → Option Nat} {n : Nat → Nat}
    (h : bindRepost c b popAtOnce ans vids s = some r)
    (hreg : (s.ctrls c).registeredRcs = registered) (hb : b.Tallied registered n) :
    Reposted c registered n popAtOnce ans vids r.status r.ops := by
  induction vids generalizing s r with
  | nil =>
    cases h
    exact .nil
  | cons vid vids ih =>
    subst hreg
    rw [bindRepost_cons hb, Option.bind_eq_some_iff] at h
    obtain ⟨r₁, hpost, h⟩ := h
    have hsame := (repost_frame hpost).registered c
    by_cases hcnt : n vid = 0
    · rw [hcnt] at hpost
      cases hpost
      simp only [State.reply, if_true, Option.map_eq_some_iff] at h
      obtain ⟨r₂, hrest, rfl⟩ := h
      exact .skip hcnt (ih hrest rfl)
    · obtain ⟨slots, ⟨hok, hstatus, hlen, hops⟩ | ⟨k, errno, herr, hstatus, hlen, hops⟩⟩ :=
        repost_eq_some hcnt hpost
      · rw [if_pos hstatus, Option.map_eq_some_iff] at h
        obtain ⟨r₂, hrest, rfl⟩ := h
        have hdone := Reposted.posted hcnt hok hlen (ih hrest hsame)
        rw [hops]
        exact hdone
      · have hne : r₁.status ≠ .ok := by
          rw [hstatus]
          exact ReplyStatus.noConfusion
        rw [if_neg hne, Option.some.injEq] at h
        rw [← h, hstatus, hops]
        exact .failed hcnt herr hlen

end SecondLoop

/-! ## A bind-mode batch -/

/-- The `vid`s of the second loop. -/
def repostVids : List Nat := List.range' 1 (hostLen - 1)

/-- The number of requests of a batch for every `vid`. -/
def vidCnt (reqs : List CoreReq) (vid : Nat) : Nat := (reqs.map hostVid).count vid

/-- A batch sends its requests up to the first refused one, and if none was refused it goes
    over the `vid`s. -/
theorem bindServerPushImpl_eq_some {cfg : Config} {s : State} {port : Nat} {reqs : List CoreReq}
    {popAtOnce : Bool} {ans : BindAnswers} {r : Reply} {registered : Nat → Option Nat}
    (hreg : (s.ctrls (cfg.bindCtrl port)).registeredRcs = registered)
    (h : bindServerPushImpl cfg s port reqs popAtOnce ans = some r) :
    ∃ sends, Sent (cfg.bindCtrl port) registered (fun _ => 0) (acceptedReqs ans.send 0 reqs) sends ∧
      ((acceptedReqs ans.send 0 reqs ≠ reqs ∧ r.status = .err ∧ r.ops = sends) ∨
        acceptedReqs ans.send 0 reqs = reqs ∧
          ∃ reposts, r.ops = sends ++ reposts ∧
            Reposted (cfg.bindCtrl port) registered (vidCnt reqs) popAtOnce ans repostVids r.status
              reposts) := by
  subst hreg
  simp only [bindServerPushImpl, Option.bind_eq_bind, Option.bind_eq_some_iff, Prod.exists] at h
  obtain ⟨b, status, sends, hloop, h⟩ := h
  have hzero : BindLoop.Tallied (s.ctrls (cfg.bindCtrl port)).registeredRcs
      { clientEndpoint := s.clientEndpoint, rcPopCnt := fun _ => 0, udPopCnt := fun _ => 0 }
      fun _ => 0 := ⟨fun _ => (ite_self 0).symm, fun _ => (ite_self 0).symm⟩
  obtain ⟨hsent, ⟨hall, rfl, hb⟩ | ⟨hne, rfl⟩⟩ := bindPushLoop_sent hloop hzero
  · simp only [if_true, Option.bind_eq_some_iff, Option.some.injEq] at h
    obtain ⟨r', hrepost, rfl⟩ := h
    rw [Tally.bumps_zero] at hb
    exact ⟨sends, hsent, .inr ⟨hall, _, rfl, bindRepost_reposted hrepost rfl hb⟩⟩
  · rw [if_neg ReplyStatus.noConfusion, Option.some.injEq] at h
    subst h
    exact ⟨sends, hsent, .inl ⟨hne, rfl, rfl⟩⟩

end Ioctl
