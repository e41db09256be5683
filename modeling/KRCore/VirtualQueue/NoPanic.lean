-- SUMMARY: Which calls panic or hang, and the runs of a virtual queue in which none does.
import KRCore.Base.Run
import KRCore.VirtualQueue.Ioctl

/-!
# Calls that get to their reply

The life of a virtual queue ends when a call panics, or waits for a completion
that never comes. `Safe` collects what a call must meet in the state it is made
in; in a run of safe calls the queue is never lost. The one fact about the state
that every call relies on and keeps is that a queue which has been connected has
its UD.
-/

namespace Ioctl

/-! ## The life of a queue -/

inductive Life where
  | running (s : State)
  /-- A call has not come back. -/
  | lost

def Life.call (cfg : Config) (s : State) (arg replyBuf : BitVec 64) (call : Call) : Life :=
  match ioctrl cfg s arg replyBuf call with
  | some r => .running r.state
  | none => .lost

/-- Nothing happens to a queue that is lost. -/
def Life.step (cfg : Config) : Life → Event → Option Life
  | .lost, _ => none
  | .running s, .ioctl arg replyBuf call => some (Life.call cfg s arg replyBuf call)
  | .running s, .thread i rc => (s.thread cfg i rc).map .running
  | .running s, .others ctrls rpc => some (.running { s with ctrls, rpc })

def Life.alive : Life → Prop
  | .running _ => True
  | .lost => False

/-! ## What a call must meet -/

/-- The addresses that bind mode computes for the request do not overflow, and its type
    is one of the five. -/
def bindable (localMr : TempMR) (req : CoreReq) : Bool :=
  req.remoteAddr.toNat + udHeaderSz < 2 ^ 64 &&
    localMr.addr.toNat + req.addr.toNat < 2 ^ 64 &&
    req.remoteAddr.toNat + localMr.addr.toNat < 2 ^ 64 && req.type.toNat < 5

/-- The queue can translate the request. Over the DC that needs a remote endpoint, which
    a failed Connect leaves out. -/
def Pushable (cfg : Config) (vq : VQ) (req : CoreReq) : Prop :=
  match vq.bindPort, vq.virtualQueue, vq.localDc with
  | some _, _, _ => bindable vq.localCache.localMr req = true
  | none, some rc, _ => req.translatable vq.localCache.localMr (cfg.remoteMr rc.id) = true
  | none, none, some _ => ∃ point, vq.localCache.remoteEndpoint = some point ∧
      req.translatable vq.localCache.localMr point.mr = true
  | none, none, none => True

/-- What a Push with `pop_res` waits for exists and comes. -/
def Waits (vq : VQ) (ans : PushAnswers) : Prop :=
  match vq.bindPort with
  | some _ => ∀ k vid, (ans.bind k).udComp vid = true ∧ (ans.bind k).rcComp vid = true
  | none => (clientQueue vq).isSome = true ∧ ans.comp = true

/-- The metadata server is known, the queue has a DC or gets one, and no address of the
    query overflows. -/
structure Queryable (cfg : Config) (vq : VQ) (port : Nat) (scan : MetaScan) : Prop where
  metaPoint : scan.metaPoint.isSome = true
  dc : vq.localDc.isSome = true ∨ cfg.machine.dcCreated (cfg.machine.getGlobalRctrl port) = true
  kvPa : scan.kvPa.toNat + 8 < 2 ^ 64
  localPa : (cfg.machine.testMr (cfg.machine.getGlobalRctrl port)).addr.toNat + 8 < 2 ^ 64
  entries : scan.entriesNum.toNat * endPointSz < 2 ^ 64
  list : cfg.paToVa ((cfg.machine.testMr (cfg.machine.getGlobalRctrl port)).addr.toNat + 8) +
    scan.entriesNum.toNat * endPointSz < 2 ^ 64

/-- What a call must meet in state `s`. -/
def Safe (cfg : Config) (s : State) (arg replyBuf : BitVec 64) : Call → Prop
  | .nil => True
  | .connect addr port _ scan ans =>
    arg.toNat + reqSz < 2 ^ 64 ∧ addr.text.isSome = true ∧ ans.sidrCm = true ∧
      (cfg.feat.metaKv = true → Queryable cfg s.vq (servicePort port) scan)
  | .regMRs _ => arg.toNat + reqSz < 2 ^ 64
  | .push p ans =>
    arg.toNat + reqSz + pushCoreReqSz < 2 ^ 64 ∧
      p.reqList.toNat + p.reqs.length * coreReqSz < 2 ^ 64 ∧
      (∀ req ∈ p.reqs, Pushable cfg s.vq req) ∧ (p.popRes ≠ 0 → Waits s.vq ans)
  | .pushRecv cnt _ => arg.toNat + reqSz < 2 ^ 64 ∧ 0 < cnt.toInt
  | .pop _ _ =>
    arg.toNat + reqSz < 2 ^ 64 ∧ replyBuf.toNat + (replySz + popWcLen * userWcSz) < 2 ^ 64 ∧
      (s.vq.bindPort = none → cfg.feat.dctQp = true → s.vq.localDc.isSome = true)
  | .popMsgs least payloadSz polls wrIds =>
    arg.toNat + reqSz + 4 < 2 ^ 64 ∧
      replyBuf.toNat + (replySz + (least.toNat + popWcLen) * userWcSz) < 2 ^ 64 ∧
      (∀ i, 0 ≤ polls i ∧ polls i ≤ popWcLen) ∧
      (∀ i, (wrIds i).toNat + payloadSz.toNat < 2 ^ 64) ∧
      ∀ c, cfg.wcAddr c + (least.toNat + popWcLen) * cfg.wcSz < 2 ^ 64
  | .binds _ => arg.toNat + reqSz < 2 ^ 64
  | .unBinds _ ret => arg.toNat + reqSz < 2 ^ 64 ∧ 0 ≤ ret
  | .rpcPoll _ => True
  | .unknown _ => True

/-- The steps of a queue that are calls must be safe. -/
def Life.Safe (cfg : Config) : Life → Event → Prop
  | .running s, .ioctl arg replyBuf call => Ioctl.Safe cfg s arg replyBuf call
  | _, _ => True

/-! ## Receives -/

/-- A positive `int`. -/
theorem one_le_toNat_of_pos {x : BitVec 32} (h : 0 < x.toInt) : 1 ≤ x.toNat := by
  rw [BitVec.toInt_eq_toNat_cond] at h
  have := x.isLt
  split at h <;> omega

/-- A positive `int` is not changed by the conversion. -/
theorem toUsize_of_pos {x : BitVec 32} (h : 0 < x.toInt) : toUsize x = x.toNat := by
  have hmsb : x.msb = false := by
    rw [BitVec.toInt_eq_msb_cond] at h
    cases hx : x.msb with
    | false => rfl
    | true =>
      have := x.isLt
      simp only [hx, if_true] at h
      omega
  rw [toUsize, BitVec.signExtend_eq_setWidth_of_msb_false hmsb, BitVec.toNat_setWidth]
  have := x.isLt
  omega

/-- A queue that has been connected, or has a DC, has its UD. -/
def HasUd (vq : VQ) : Prop :=
  vq.localConnectPort.isSome = true ∨ vq.localDc.isSome = true → vq.localUd.isSome = true

theorem HasUd.clientQueue {vq : VQ} (h : HasUd vq) {port : Nat}
    (hport : vq.localConnectPort = some port) : ∃ q, clientQueue vq = some q := by
  unfold Ioctl.clientQueue
  split
  · exact ⟨_, rfl⟩
  · obtain ⟨c, hc⟩ := Option.isSome_iff_exists.mp (h (.inl (by rw [hport]; rfl)))
    exact ⟨.ud c, by rw [hc]; rfl⟩

theorem exists_pushRecvImpl (cfg : Config) {s : State} (hud : HasUd s.vq) {cnt : Nat}
    (hpos : 1 ≤ cnt) (hcnt : cnt ≤ 2 ^ 32) (ans : PostAnswer) :
    ∃ r, pushRecvImpl cfg s cnt ans = some r := by
  unfold pushRecvImpl
  split
  · simp only
    split
    · exact ⟨_, rfl⟩
    · obtain ⟨r, -, hr, -⟩ := s.exists_postRecvs _ _ hpos hcnt ans
      exact ⟨r, hr⟩
  · split
    · exact ⟨_, rfl⟩
    · rename_i port hport
      obtain ⟨q, hq⟩ := hud.clientQueue hport
      simp only [hq, Option.bind_eq_bind, Option.bind_some]
      obtain ⟨r, -, hr, -⟩ := s.exists_postRecvs _ _ hpos hcnt ans
      exact ⟨r, hr⟩

/-! ## Push -/

theorem exists_clientPush (cfg : Config) {s : State} (hbind : s.vq.bindPort = none)
    {reqs : List CoreReq} (hreqs : ∀ req ∈ reqs, Pushable cfg s.vq req) (hne : reqs ≠ [])
    (ans : Nat → Int) : ∃ r, clientPush cfg s reqs ans = some r := by
  unfold clientPush
  simp only [Pushable, hbind] at hreqs
  cases hrc : s.vq.virtualQueue with
  | some rc =>
    simp only [hrc] at hreqs
    have hreply : (s.vq.rcPushImpl cfg.paToVa cfg.remoteMr reqs ans).reply.isSome = true := by
      simp only [VQ.rcPushImpl, hrc]
      exact pushLoop_reply_isSome fun req hreq => by rw [rcWr_isSome]; exact hreqs req hreq
    obtain ⟨status, hstatus⟩ := Option.isSome_iff_exists.mp hreply
    exact ⟨_, by simp only [hstatus, Option.map_some]; rfl⟩
  | none =>
    simp only [hrc] at hreqs
    have hreply : (s.vq.dcPushImpl cfg.paToVa reqs ans).reply.isSome = true := by
      cases hdc : s.vq.localDc with
      | none => simp only [VQ.dcPushImpl, hdc]; rfl
      | some d =>
        simp only [hdc] at hreqs
        obtain ⟨req₀, hreq₀⟩ := List.exists_mem_of_ne_nil reqs hne
        obtain ⟨point, hpoint, -⟩ := hreqs req₀ hreq₀
        simp only [VQ.dcPushImpl, hdc, hpoint]
        refine pushLoop_reply_isSome fun req hreq => ?_
        obtain ⟨point', hpoint', htrans⟩ := hreqs req hreq
        rw [hpoint, Option.some.injEq] at hpoint'
        rw [dcWr, Option.isSome_map, sendParams_isSome_iff, hpoint']
        exact htrans
    obtain ⟨status, hstatus⟩ := Option.isSome_iff_exists.mp hreply
    exact ⟨_, by simp only [hstatus, Option.map_some]; rfl⟩

section BindMode

variable {localMr : TempMR} {rkey : BitVec 32} {c : Nat} {registered : Nat → Option Nat}
  {ans : BindAnswers}

/-- What the counters say during the first loop: at most `n` requests have been counted
    for a `vid`, and those for an RC only if there is one. -/
structure BindLoop.Counts (registered : Nat → Option Nat) (n : Nat) (b : BindLoop) : Prop where
  ud : ∀ vid, b.udPopCnt vid ≤ n
  rc : ∀ vid, b.rcPopCnt vid ≤ n
  registered : ∀ vid, b.rcPopCnt vid ≠ 0 → (registered vid).isSome = true

theorem BindLoop.Counts.mono {n m : Nat} {b : BindLoop} (h : b.Counts registered n) (hnm : n ≤ m) :
    b.Counts registered m :=
  ⟨fun vid => (h.ud vid).trans hnm, fun vid => (h.rc vid).trans hnm, h.registered⟩

theorem exists_bindPushUd {vid n : Nat} {b : BindLoop} {req : CoreReq}
    (hreq : bindable localMr req = true) (errno : Int) (hb : b.Counts registered n) :
    ∃ b' op, bindPushUd localMr c vid b req errno ans = some (b', op) ∧
      b'.Counts registered (n + 1) := by
  simp only [bindable, Bool.and_eq_true, decide_eq_true_eq] at hreq
  obtain ⟨⟨⟨hwr, -⟩, -⟩, htype⟩ := hreq
  obtain ⟨op, hop⟩ := Option.isSome_iff_exists.mp ((opCodeTable_isSome_iff req.type).mpr htype)
  have hadd := Word.checkedAdd_eq_some.mpr ⟨hwr, rfl⟩
  simp only [bindPushUd, hadd, hop, Option.bind_eq_bind, Option.bind_some, Option.some.injEq,
    Prod.mk.injEq]
  refine ⟨_, _, ⟨rfl, rfl⟩, fun v => ?_, fun v => (hb.rc v).trans (Nat.le_succ n), hb.registered⟩
  by_cases hv : v = vid
  · subst hv
    simpa using hb.ud v
  · simpa [Function.update_of_ne hv] using (hb.ud v).trans (Nat.le_succ n)

theorem exists_bindPushRc {id vid n : Nat} {b : BindLoop} {req : CoreReq}
    (hreq : bindable localMr req = true) (hid : registered vid = some id) (errno : Int)
    (hb : b.Counts registered n) :
    ∃ b' op, bindPushRc localMr rkey c id vid b req errno = some (b', op) ∧
      b'.Counts registered (n + 1) := by
  simp only [bindable, Bool.and_eq_true, decide_eq_true_eq] at hreq
  obtain ⟨⟨⟨-, hladdr⟩, hraddr⟩, htype⟩ := hreq
  obtain ⟨op, hop⟩ := Option.isSome_iff_exists.mp ((opCodeTable_isSome_iff req.type).mpr htype)
  have hl := Word.checkedAdd_eq_some.mpr ⟨hladdr, rfl⟩
  have hr := Word.checkedAdd_eq_some.mpr ⟨hraddr, rfl⟩
  simp only [bindPushRc, hl, hr, hop, Option.bind_eq_bind, Option.bind_some, Option.some.injEq,
    Prod.mk.injEq]
  refine ⟨_, _, ⟨rfl, rfl⟩, fun v => (hb.ud v).trans (Nat.le_succ n), fun v => ?_, fun v hne => ?_⟩
  · by_cases hv : v = vid
    · subst hv
      simpa using hb.rc v
    · simpa [Function.update_of_ne hv] using (hb.rc v).trans (Nat.le_succ n)
  · by_cases hv : v = vid
    · rw [hv, hid]
      rfl
    · exact hb.registered v (by simpa [Function.update_of_ne hv] using hne)

theorem exists_bindPushLoop (rkey : BitVec 32) (c : Nat) (ans : BindAnswers) (idx : Nat)
    {reqs : List CoreReq} (hreqs : ∀ req ∈ reqs, bindable localMr req = true) {n : Nat}
    {b : BindLoop} (hb : b.Counts registered n) :
    ∃ b' status ops, bindPushLoop localMr rkey c registered ans idx reqs b = some (b', status, ops) ∧
      b'.Counts registered (n + reqs.length) := by
  induction reqs generalizing idx n b with
  | nil => exact ⟨b, _, _, rfl, hb⟩
  | cons req reqs ih =>
    have hreq := hreqs req List.mem_cons_self
    have hone : ∃ b' op, bindPushOne localMr rkey c registered ans idx req b = some (b', op) ∧
        b'.Counts registered (n + 1) := by
      unfold bindPushOne
      cases hid : registered (req.vid.toNat % hostLen) with
      | none => simpa [hid] using exists_bindPushUd hreq _ hb
      | some id => simpa [hid] using exists_bindPushRc hreq hid _ hb
    obtain ⟨b₁, op, hone, hb₁⟩ := hone
    have hlen : n + 1 + reqs.length = n + (req :: reqs).length := by
      rw [List.length_cons]
      omega
    by_cases herr : ans.send idx = 0
    · obtain ⟨b₂, status, ops, hrest, hb₂⟩ :=
        ih (idx + 1) (fun r hr => hreqs r (List.mem_cons_of_mem _ hr)) hb₁
      refine ⟨b₂, status, op :: ops, ?_, hlen ▸ hb₂⟩
      simp [bindPushLoop, hone, herr, hrest]
    · refine ⟨b₁, .err, [op], ?_, hb₁.mono (by omega)⟩
      simp [bindPushLoop, hone, herr]

theorem exists_repost (s : State) (c : Nat) (q : Queue) {cnt : Nat} (hcnt : cnt ≤ 2 ^ 32) {popAtOnce : Bool}
    (post : PostAnswer) {comp : Bool} (hcomp : popAtOnce = true → comp = true) :
    ∃ r, repost s c q cnt popAtOnce post comp = some r := by
  unfold repost
  split
  · exact ⟨_, rfl⟩
  · rename_i hne
    obtain ⟨r, -, hr, -⟩ := s.exists_postRecvs c q (Nat.one_le_iff_ne_zero.mpr hne) hcnt post
    simp only [hr, Option.bind_eq_bind, Option.bind_some]
    split
    · rename_i hpop
      exact ⟨_, by rw [if_pos (hcomp hpop.2)]⟩
    · exact ⟨r, rfl⟩

/-- All completions that a batch may wait for come. -/
def BindAnswers.comes (ans : BindAnswers) : Prop :=
  ∀ vid, ans.udComp vid = true ∧ ans.rcComp vid = true

theorem exists_bindRepost {b : BindLoop} {n : Nat} (hn : n ≤ 2 ^ 32) {popAtOnce : Bool}
    (hcomes : popAtOnce = true → ans.comes) {vids : List Nat} {s : State}
    (hb : b.Counts (s.ctrls c).registeredRcs n) :
    ∃ r, bindRepost c b popAtOnce ans vids s = some r := by
  induction vids generalizing s with
  | nil => exact ⟨_, rfl⟩
  | cons vid vids ih =>
    obtain ⟨r₁, hr₁⟩ := exists_repost s c (.ud c) ((hb.ud vid).trans hn) (ans.udPost vid)
      fun h => (hcomes h vid).1
    have hb₁ : b.Counts (r₁.state.ctrls c).registeredRcs n := by
      rw [(repost_frame hr₁).registered c]
      exact hb
    simp only [bindRepost, hr₁, Option.bind_eq_bind, Option.bind_some]
    split
    · have hrc : ∃ r₂, repostRc r₁.state c vid (b.rcPopCnt vid) popAtOnce ans = some r₂ := by
        unfold repostRc
        split
        · exact ⟨_, rfl⟩
        · rename_i hne
          obtain ⟨id, hid⟩ := Option.isSome_iff_exists.mp (hb₁.registered vid hne)
          simp only [hid, Option.bind_eq_bind, Option.bind_some]
          exact exists_repost r₁.state c (.trc c id) ((hb₁.rc vid).trans hn) (ans.rcPost vid)
            fun h => (hcomes h vid).2
      obtain ⟨r₂, hr₂⟩ := hrc
      simp only [hr₂, Option.bind_some]
      split
      · have hb₂ : b.Counts (r₂.state.ctrls c).registeredRcs n := by
          rw [(repostRc_frame hr₂).registered c]
          exact hb₁
        obtain ⟨r₃, hr₃⟩ := ih hb₂
        exact ⟨_, by simp only [hr₃, Option.bind_some]; rfl⟩
      · exact ⟨_, rfl⟩
    · exact ⟨r₁, rfl⟩

theorem exists_bindServerPushImpl (cfg : Config) (s : State) (port : Nat) {reqs : List CoreReq}
    (hreqs : ∀ req ∈ reqs, bindable s.vq.localCache.localMr req = true)
    (hlen : reqs.length ≤ 2 ^ 32) {popAtOnce : Bool} (hcomes : popAtOnce = true → ans.comes) :
    ∃ r, bindServerPushImpl cfg s port reqs popAtOnce ans = some r := by
  have hzero : BindLoop.Counts (s.ctrls (cfg.bindCtrl port)).registeredRcs 0
      { clientEndpoint := s.clientEndpoint, rcPopCnt := fun _ => 0, udPopCnt := fun _ => 0 } :=
    ⟨fun _ => Nat.le_refl 0, fun _ => Nat.le_refl 0, fun _ h => absurd rfl h⟩
  obtain ⟨b, status, ops, hloop, hb⟩ := exists_bindPushLoop (cfg.machine.testMr (cfg.bindCtrl port)).rkey
    (cfg.bindCtrl port) ans 0 hreqs hzero
  simp only [bindServerPushImpl, hloop, Option.bind_eq_bind, Option.bind_some]
  split
  · obtain ⟨r, hr⟩ := exists_bindRepost (s := { s with clientEndpoint := b.clientEndpoint })
      (by omega) hcomes hb
    exact ⟨_, by rw [hr]; rfl⟩
  · exact ⟨_, rfl⟩

end BindMode

theorem PushReq.mem_of_mem_batch {p : PushReq} {k : Nat} {req : CoreReq} (h : req ∈ p.batch k) :
    req ∈ p.reqs :=
  List.mem_of_mem_drop (List.mem_of_mem_take h)

theorem PushReq.batch_start_lt {p : PushReq} {k : Nat} (h : k < p.batchCnt) :
    k * defaultBatchSz < p.reqs.length := by
  simp only [PushReq.batchCnt, defaultBatchSz] at h ⊢
  omega

theorem PushReq.batch_ne_nil {p : PushReq} {k : Nat} (h : k < p.batchCnt) : p.batch k ≠ [] := by
  have hlt := PushReq.batch_start_lt h
  intro hnil
  have hlen := congrArg List.length hnil
  simp only [PushReq.batch, List.length_take, List.length_drop, List.length_nil,
    defaultBatchSz] at hlen hlt
  omega

theorem exists_pushBatch (cfg : Config) {p : PushReq} {ans : PushAnswers} {k : Nat} {s : State}
    (hk : k < p.batchCnt) (hreqs : ∀ req ∈ p.reqs, Pushable cfg s.vq req)
    (hwait : p.popRes ≠ 0 → Waits s.vq ans) : ∃ r, pushBatch cfg p ans k s = some r := by
  have hbatch : ∀ req ∈ p.batch k, Pushable cfg s.vq req :=
    fun req hreq => hreqs req (PushReq.mem_of_mem_batch hreq)
  unfold pushBatch
  cases hbind : s.vq.bindPort with
  | some port =>
    have hlen : (p.batch k).length ≤ 2 ^ 32 := (p.batch_length_le k).trans (by decide)
    simp only [Pushable, hbind] at hbatch
    refine exists_bindServerPushImpl cfg s port hbatch hlen fun hpop => ?_
    have hcomes := hwait (of_decide_eq_true hpop)
    simp only [Waits, hbind] at hcomes
    exact hcomes k
  | none => exact exists_clientPush cfg hbind hbatch (PushReq.batch_ne_nil hk) (ans.send k)

theorem exists_pushBatches (cfg : Config) {p : PushReq} {ans : PushAnswers} (ks : List Nat)
    (hks : ∀ k ∈ ks, k < p.batchCnt)
    (hlist : p.reqList.toNat + p.reqs.length * coreReqSz < 2 ^ 64) {s : State}
    (hreqs : ∀ req ∈ p.reqs, Pushable cfg s.vq req) (hwait : p.popRes ≠ 0 → Waits s.vq ans)
    (ret : ReplyStatus) : ∃ r, pushBatches cfg p ans ks s ret = some r := by
  induction ks generalizing s ret with
  | nil => exact ⟨_, rfl⟩
  | cons k ks ih =>
    have hk := hks k List.mem_cons_self
    have haddr : Word.checkedAdd 64 p.reqList.toNat (k * defaultBatchSz * coreReqSz) =
        some (p.reqList.toNat + k * defaultBatchSz * coreReqSz) := by
      have hstart := PushReq.batch_start_lt hk
      refine Word.checkedAdd_eq_some.mpr ⟨?_, rfl⟩
      simp only [coreReqSz] at hlist ⊢
      omega
    obtain ⟨r, hr⟩ := exists_pushBatch cfg hk hreqs hwait
    simp only [pushBatches, haddr, hr, Option.bind_eq_bind, Option.bind_some]
    split
    · exact ⟨r, rfl⟩
    · -- The queue is as before, so the other batches are safe as well.
      have hvq := (pushBatch_frame hr).vq
      obtain ⟨r', hr'⟩ := ih (fun k hk => hks k (List.mem_cons_of_mem _ hk)) (s := r.state)
        (by rw [hvq]; exact hreqs) (by rw [hvq]; exact hwait) r.status
      exact ⟨_, by rw [hr']; rfl⟩

theorem exists_push (cfg : Config) {s : State} (hud : HasUd s.vq) {arg : Nat} {p : PushReq}
    {ans : PushAnswers} (harg : arg + reqSz + pushCoreReqSz < 2 ^ 64)
    (hlist : p.reqList.toNat + p.reqs.length * coreReqSz < 2 ^ 64)
    (hreqs : ∀ req ∈ p.reqs, Pushable cfg s.vq req) (hwait : p.popRes ≠ 0 → Waits s.vq ans) :
    ∃ r, push cfg s arg p ans = some r := by
  have harg₁ := Word.checkedAdd_eq_some.mpr ⟨(by omega : arg + reqSz < 2 ^ 64), rfl⟩
  have harg₂ := Word.checkedAdd_eq_some.mpr ⟨harg, rfl⟩
  have hfirst : ∃ r, pushRecvFirst cfg s p ans = some r := by
    unfold pushRecvFirst
    split
    · rename_i h
      have hne : p.pushRecvCnt.toNat ≠ 0 := fun hzero => h.2 (BitVec.eq_of_toNat_eq hzero)
      exact exists_pushRecvImpl cfg hud (Nat.one_le_iff_ne_zero.mpr hne)
        (Nat.le_of_lt p.pushRecvCnt.isLt) ans.recv
    · exact ⟨_, rfl⟩
  obtain ⟨r₁, hr₁⟩ := hfirst
  have hvq₁ := (pushRecvFirst_frame hr₁).vq
  obtain ⟨r₂, hr₂⟩ := exists_pushBatches cfg (List.range p.batchCnt)
    (fun k hk => List.mem_range.mp hk) hlist (s := r₁.state) (by rw [hvq₁]; exact hreqs)
    (by rw [hvq₁]; exact hwait) r₁.status
  have hvq₂ : r₂.state.vq = s.vq := (pushBatches_frame hr₂).vq.trans hvq₁
  simp only [push, harg₁, harg₂, hr₁, hr₂, Option.bind_eq_bind, Option.bind_some]
  unfold pushWait
  split
  · rename_i h
    have hcomes := hwait h.2.1
    rw [hvq₂] at h
    simp only [Waits, h.1] at hcomes
    obtain ⟨q, hq⟩ := Option.isSome_iff_exists.mp hcomes.1
    simp only [hvq₂, hq, hcomes.2, Option.bind_eq_bind, Option.bind_some]
    exact ⟨_, rfl⟩
  · exact ⟨_, rfl⟩

/-! ## Pop and PopMsgs -/

theorem popAddrs_eq_some {replyBuf wcAddr wcSz payloadSz n i : Nat} {wrIds : List Nat}
    (hn : i + wrIds.length ≤ n) (hwc : wcAddr + n * wcSz < 2 ^ 64)
    (hwr : ∀ wrId ∈ wrIds, wrId + payloadSz < 2 ^ 64)
    (hbuf : replyBuf + (replySz + n * userWcSz) < 2 ^ 64) :
    popAddrs replyBuf wcAddr wcSz payloadSz i wrIds = some () := by
  induction wrIds generalizing i with
  | nil => rfl
  | cons wrId wrIds ih =>
    rw [List.length_cons] at hn
    have hi : i * wcSz ≤ n * wcSz := Nat.mul_le_mul_right _ (by omega)
    have hw := Word.checkedAdd_eq_some.mpr ⟨(by omega : wcAddr + i * wcSz < 2 ^ 64), rfl⟩
    have hp := Word.checkedAdd_eq_some.mpr ⟨hwr wrId List.mem_cons_self, rfl⟩
    have hr : Word.checkedAdd 64 replyBuf (replySz + i * userWcSz) =
        some (replyBuf + (replySz + i * userWcSz)) := by
      refine Word.checkedAdd_eq_some.mpr ⟨?_, rfl⟩
      simp only [userWcSz] at hbuf ⊢
      omega
    simp only [popAddrs, hw, hp, hr, Option.bind_eq_bind, Option.bind_some]
    exact ih (by omega) fun w hmem => hwr w (List.mem_cons_of_mem _ hmem)

theorem handlePopRet_eq_some {replyBuf wcAddr wcSz payloadSz n : Nat} {wrIds : List Nat}
    (hn : wrIds.length ≤ n) (hpop : popWcLen ≤ n) (hwc : wcAddr + n * wcSz < 2 ^ 64)
    (hwr : ∀ wrId ∈ wrIds, wrId + payloadSz < 2 ^ 64)
    (hbuf : replyBuf + (replySz + n * userWcSz) < 2 ^ 64) :
    handlePopRet replyBuf wcAddr wcSz payloadSz wrIds = some .ok := by
  have haddrs : popAddrs replyBuf wcAddr wcSz payloadSz 0 wrIds = some () :=
    popAddrs_eq_some (by omega) hwc hwr hbuf
  have hlast : Word.checkedAdd 64 replyBuf (replySz + popWcLen * userWcSz) =
      some (replyBuf + (replySz + popWcLen * userWcSz)) := by
    refine Word.checkedAdd_eq_some.mpr ⟨?_, rfl⟩
    simp only [userWcSz] at hbuf ⊢
    omega
  simp only [handlePopRet, haddrs, hlast, Option.bind_eq_bind, Option.bind_some]

/-- The loop of `pop_msg_impl` hands over at most one poll more than it was asked for. -/
theorem exists_popMsgLoop {polls : Nat → Int} (hpolls : ∀ i, 0 ≤ polls i ∧ polls i ≤ popWcLen)
    {least : Nat} (retries : Nat) {i act : Nat} (hact : act ≤ least) :
    ∃ n, popMsgLoop polls least retries i act = some n ∧ n ≤ least + popWcLen := by
  have hi := hpolls i
  induction retries generalizing i act with
  | zero =>
    have hpos : ¬polls i < 0 := by omega
    exact ⟨_, if_neg hpos, by omega⟩
  | succ retries ih =>
    have hpos : ¬polls i < 0 := by omega
    simp only [popMsgLoop, if_neg hpos]
    split
    · exact ⟨_, rfl, by omega⟩
    · exact ih (by omega) (hpolls (i + 1))

theorem exists_popMsgImpl (cfg : Config) (s : State) (least : Nat) {polls : Nat → Int}
    (hpolls : ∀ i, 0 ≤ polls i ∧ polls i ≤ popWcLen) :
    ∃ res, popMsgImpl cfg s least polls = some res ∧ ∀ p ∈ res, p.2 ≤ least + popWcLen := by
  have h0 := hpolls 0
  have hpos : ¬polls 0 < 0 := by omega
  unfold popMsgImpl
  split
  · simp only [if_neg hpos]
    refine ⟨_, rfl, fun p hp => ?_⟩
    rw [Option.mem_def, Option.some.injEq] at hp
    rw [← hp]
    simp only
    omega
  · split
    · exact ⟨none, rfl, fun p hp => by cases hp⟩
    · obtain ⟨n, hn, hle⟩ := exists_popMsgLoop hpolls popRetries (i := 0) (Nat.zero_le least)
      refine ⟨_, by rw [hn]; rfl, fun p hp => ?_⟩
      rw [Option.mem_def, Option.some.injEq] at hp
      rw [← hp]
      exact hle

theorem exists_popImpl {cfg : Config} {s : State} (vid : Nat) (ans : PopAnswers)
    (hdc : s.vq.bindPort = none → cfg.feat.dctQp = true → s.vq.localDc.isSome = true) :
    ∃ out, popImpl cfg s vid ans = some out := by
  unfold popImpl
  split
  · simp only
    split
    · exact ⟨_, rfl⟩
    · exact ⟨_, rfl⟩
  · rename_i hbind
    split
    · rename_i hfeat
      obtain ⟨d, hd⟩ := Option.isSome_iff_exists.mp (hdc hbind hfeat)
      exact ⟨_, by rw [hd]; rfl⟩
    · exact ⟨_, rfl⟩

theorem exists_pop {cfg : Config} {s : State} {arg replyBuf : Nat} (vid : Nat) (ans : PopAnswers)
    (harg : arg + reqSz < 2 ^ 64) (hbuf : replyBuf + (replySz + popWcLen * userWcSz) < 2 ^ 64)
    (hdc : s.vq.bindPort = none → cfg.feat.dctQp = true → s.vq.localDc.isSome = true) :
    ∃ r, pop cfg s arg replyBuf vid ans = some r := by
  have harg := Word.checkedAdd_eq_some.mpr ⟨harg, rfl⟩
  obtain ⟨⟨found, ops⟩, himpl⟩ := exists_popImpl vid ans hdc
  have hreply : ∃ status, popReply replyBuf ans.wrId.toNat found = some status := by
    unfold popReply
    split
    · refine ⟨_, handlePopRet_eq_some ?_ (Nat.le_refl popWcLen) (by decide) (fun w hw => ?_) hbuf⟩
      · simp [popWcLen]
      · rw [List.mem_singleton.mp hw]
        exact ans.wrId.isLt
    · exact ⟨_, rfl⟩
  obtain ⟨status, hstatus⟩ := hreply
  simp only [pop, harg, himpl, hstatus, Option.bind_eq_bind, Option.bind_some]
  exact ⟨_, rfl⟩

theorem exists_popMsgs (cfg : Config) (s : State) {arg replyBuf least payloadSz : Nat}
    {polls : Nat → Int} {wrIds : Nat → BitVec 64} (harg : arg + reqSz + 4 < 2 ^ 64)
    (hbuf : replyBuf + (replySz + (least + popWcLen) * userWcSz) < 2 ^ 64)
    (hpolls : ∀ i, 0 ≤ polls i ∧ polls i ≤ popWcLen)
    (hwr : ∀ i, (wrIds i).toNat + payloadSz < 2 ^ 64)
    (hwc : ∀ c, cfg.wcAddr c + (least + popWcLen) * cfg.wcSz < 2 ^ 64) :
    ∃ r, popMsgs cfg s arg replyBuf least payloadSz polls wrIds = some r := by
  have harg₁ := Word.checkedAdd_eq_some.mpr ⟨(by omega : arg + reqSz < 2 ^ 64), rfl⟩
  have harg₂ := Word.checkedAdd_eq_some.mpr ⟨harg, rfl⟩
  obtain ⟨res, hres, hle⟩ := exists_popMsgImpl cfg s least hpolls
  simp only [popMsgs, harg₁, harg₂, hres, Option.bind_eq_bind, Option.bind_some]
  cases res with
  | none => exact ⟨_, rfl⟩
  | some out =>
    have hret : handlePopRet replyBuf (cfg.wcAddr out.1) cfg.wcSz payloadSz
        ((List.range out.2).map fun i => (wrIds i).toNat) = some .ok := by
      refine handlePopRet_eq_some ?_ (Nat.le_add_left _ _) (hwc out.1) (fun w hw => ?_) hbuf
      · rw [List.length_map, List.length_range]
        exact hle out rfl
      · obtain ⟨i, -, rfl⟩ := List.mem_map.mp hw
        exact hwr i
    exact ⟨_, by simp only [hret, Option.bind_some]; rfl⟩

theorem exists_rpcPoll (s : State) (rounds : List (BitVec 32 × PostAnswer)) :
    ∃ r, rpcPoll s rounds = some r := by
  induction rounds generalizing s with
  | nil => exact ⟨_, rfl⟩
  | cons round rounds ih =>
    unfold rpcPoll
    split
    · rename_i hpos
      have hfit : round.1.toNat + rpcBufferN ≤ 2 ^ 64 := by
        have := round.1.isLt
        simp only [rpcBufferN]
        omega
      obtain ⟨out, hout⟩ := s.rpc.exists_post (one_le_toNat_of_pos hpos) hfit round.2
      simp only [hout, Option.bind_eq_bind, Option.bind_some]
      exact ih _
    · exact ih s

/-! ## Connect -/

/-- A Connect that fetches the endpoint has selected the controller and looked for the
    path. -/
theorem connectStart_fetching {feat : Features} {m : Machine} {vq vq' : VQ} {addr : Address}
    {port vid : Nat} {ans : ConnectAnswers}
    (h : VQ.connectStart feat m vq addr port vid ans = .fetching vq') :
    ∃ dgid, m.parseGid addr.text = some dgid ∧
      VQ.Explored addr dgid (VQ.selectCtrl m vq port) vq' := by
  unfold VQ.connectStart at h
  split at h
  · cases h
  · split at h
    · cases h
    · rename_i dgid hgid
      refine ⟨dgid, hgid, ?_⟩
      split at h
      · have hexp := VQ.explorePath_explored m (VQ.selectCtrl m vq port) port addr dgid ans.resolve
        unfold VQ.connectDctStart at h
        split at h
        · cases h
        · split at h
          · split at h
            · cases h
            · rename_i hpath
              cases h
              rw [hpath] at hexp
              exact hexp.setParam _
          · cases h
            exact .refl addr dgid _
      · cases h

theorem exists_connectImpl (feat : Features) (m : Machine) (vq : VQ) (addr : Address)
    (port vid : Nat) {ans : ConnectAnswers} (hcm : ans.sidrCm = true) :
    ∃ out, VQ.connectImpl feat m vq addr port vid ans = some out := by
  unfold VQ.connectImpl
  split
  · exact ⟨_, rfl⟩
  · rename_i vq' hstart
    obtain ⟨dgid, hgid, -⟩ := connectStart_fetching hstart
    have hfetch : ∃ out, VQ.fetchEndpoint feat m vq' addr port dgid ans = some out := by
      unfold VQ.fetchEndpoint
      split
      · exact ⟨_, rfl⟩
      · split
        · exact ⟨_, rfl⟩
        · exact ⟨_, if_pos hcm⟩
    obtain ⟨⟨res, vq₁⟩, hres⟩ := hfetch
    simp only [hgid, VQ.connectFinish, hres, Option.bind_eq_bind, Option.bind_some]
    cases res with
    | error errno => exact ⟨_, rfl⟩
    | ok point => exact ⟨_, rfl⟩

theorem selectCtrl_localDc_isSome {m : Machine} {vq : VQ} {port : Nat}
    (h : vq.localDc.isSome = true ∨ m.dcCreated (m.getGlobalRctrl port) = true) :
    (VQ.selectCtrl m vq port).localDc.isSome = true := by
  cases hdc : vq.localDc with
  | some d => simp [VQ.selectCtrl, hdc]
  | none =>
    rw [hdc] at h
    simpa [VQ.selectCtrl, hdc] using h

theorem MetaScan.looked_le (scan : MetaScan) : scan.looked ≤ scan.entriesNum.toNat := by
  unfold MetaScan.looked
  split
  · rename_i i _ _
    exact i.isLt
  · exact Nat.le_refl _

theorem exists_metaScan_run {cfg : Config} {vq vq' : VQ} {port : Nat} {scan : MetaScan}
    (hq : Queryable cfg vq port scan)
    (hdc : vq'.localDc = (VQ.selectCtrl cfg.machine vq port).localDc)
    (hmr : vq'.localCache.localMr = (VQ.selectCtrl cfg.machine vq port).localCache.localMr) :
    ∃ ops, scan.run cfg vq' = some ops := by
  obtain ⟨point, hpoint⟩ := Option.isSome_iff_exists.mp hq.metaPoint
  obtain ⟨d, hd⟩ := Option.isSome_iff_exists.mp (hdc ▸ selectCtrl_localDc_isSome hq.dc)
  have haddr : vq'.localCache.localMr.addr =
      (cfg.machine.testMr (cfg.machine.getGlobalRctrl port)).addr := by
    rw [hmr]
    rfl
  have hkv := Word.checkedAdd_eq_some.mpr ⟨hq.kvPa, rfl⟩
  have hpa := Word.checkedAdd_eq_some.mpr ⟨hq.localPa, rfl⟩
  have hlen := Nat.not_le.mpr hq.entries
  simp only [MetaScan.run, hpoint, hd, haddr, hkv, hpa, Option.bind_eq_bind, Option.bind_some,
    if_neg hlen]
  split
  · exact ⟨_, rfl⟩
  · have hlast : (scan.looked - 1) * endPointSz ≤ scan.entriesNum.toNat * endPointSz :=
      Nat.mul_le_mul_right _ (by have := scan.looked_le; omega)
    have hlist := hq.list
    have hva := Word.checkedAdd_eq_some.mpr ⟨(by omega : cfg.paToVa
      ((cfg.machine.testMr (cfg.machine.getGlobalRctrl port)).addr.toNat + 8) +
        (scan.looked - 1) * endPointSz < 2 ^ 64), rfl⟩
    exact ⟨_, by rw [hva]; rfl⟩

theorem exists_connect (cfg : Config) (s : State) {arg : Nat} {addr : UserAddr}
    {port : BitVec 32} (vid : BitVec 32) {scan : MetaScan} {ans : ConnectAnswers}
    (harg : arg + reqSz < 2 ^ 64) (htext : addr.text.isSome = true) (hcm : ans.sidrCm = true)
    (hq : cfg.feat.metaKv = true → Queryable cfg s.vq (servicePort port) scan) :
    ∃ r, connect cfg s arg addr port vid scan ans = some r := by
  obtain ⟨text, htext⟩ := Option.isSome_iff_exists.mp htext
  have harg := Word.checkedAdd_eq_some.mpr ⟨harg, rfl⟩
  unfold connect
  split
  · exact ⟨_, rfl⟩
  · simp only [harg, htext, Option.bind_eq_bind, Option.bind_some]
    split
    · rename_i hlen
      have hfetch : ∃ ops, fetch cfg scan (VQ.connectStart cfg.feat cfg.machine s.vq ⟨text, hlen⟩
          (servicePort port) (toUsize vid) (scan.answers ans)) = some ops := by
        unfold fetch
        split
        · exact ⟨_, rfl⟩
        · rename_i hstart
          obtain ⟨dgid, -, hexp⟩ := connectStart_fetching hstart
          split
          · rename_i hkv
            exact exists_metaScan_run (hq hkv) hexp.localDc hexp.localMr
          · exact ⟨_, rfl⟩
      obtain ⟨ops, hops⟩ := hfetch
      obtain ⟨⟨vq, status, pt⟩, himpl⟩ := exists_connectImpl cfg.feat cfg.machine s.vq
        ⟨text, hlen⟩ (servicePort port) (toUsize vid) (show (scan.answers ans).sidrCm = true from hcm)
      simp only [MetaScan.answers] at hops himpl
      simp only [hops, himpl, Option.bind_some]
      exact ⟨_, rfl⟩
    · exact ⟨_, rfl⟩

/-! ## Runs -/

/-- A safe call gets to its reply. -/
theorem exists_ioctrl (cfg : Config) {s : State} (hud : HasUd s.vq) {arg replyBuf : BitVec 64}
    {call : Call} (h : Safe cfg s arg replyBuf call) :
    ∃ r, ioctrl cfg s arg replyBuf call = some r := by
  cases call with
  | nil | unknown => exact ⟨_, rfl⟩
  | connect addr port vid scan ans =>
    obtain ⟨harg, htext, hcm, hq⟩ := h
    exact exists_connect cfg s vid harg htext hcm hq
  | regMRs size =>
    have harg := Word.checkedAdd_eq_some.mpr ⟨h, rfl⟩
    have hsize : Word.checkedAdd 32 1 (size.toNat / 4096) = some (1 + size.toNat / 4096) :=
      Word.checkedAdd_eq_some.mpr ⟨by have := size.isLt; omega, rfl⟩
    simp only [ioctrl, regMRs, harg, hsize, Option.bind_eq_bind, Option.bind_some]
    exact ⟨_, rfl⟩
  | push p ans =>
    obtain ⟨harg, hlist, hreqs, hwait⟩ := h
    exact exists_push cfg hud harg hlist hreqs hwait
  | pushRecv cnt ans =>
    obtain ⟨harg, hpos⟩ := h
    have harg := Word.checkedAdd_eq_some.mpr ⟨harg, rfl⟩
    simp only [ioctrl, pushRecv, harg, toUsize_of_pos hpos, Option.bind_eq_bind, Option.bind_some]
    exact exists_pushRecvImpl cfg hud (one_le_toNat_of_pos hpos) (Nat.le_of_lt cnt.isLt) ans
  | pop vid ans =>
    obtain ⟨harg, hbuf, hdc⟩ := h
    exact exists_pop vid.toNat ans harg hbuf hdc
  | popMsgs least payloadSz polls wrIds =>
    obtain ⟨harg, hbuf, hpolls, hwr, hwc⟩ := h
    exact exists_popMsgs cfg s harg hbuf hpolls hwr hwc
  | rpcPoll rounds => exact exists_rpcPoll s rounds
  | binds port =>
    have harg := Word.checkedAdd_eq_some.mpr ⟨h, rfl⟩
    simp only [ioctrl, binds, harg, Option.bind_eq_bind, Option.bind_some]
    split
    · exact ⟨_, rfl⟩
    · split
      · exact ⟨_, rfl⟩
      · exact ⟨_, rfl⟩
  | unBinds port ret =>
    obtain ⟨harg, hret⟩ := h
    have harg := Word.checkedAdd_eq_some.mpr ⟨harg, rfl⟩
    simp only [ioctrl, unBinds, harg, Option.bind_eq_bind, Option.bind_some]
    split
    · exact ⟨_, if_neg (by omega)⟩
    · exact ⟨_, rfl⟩
theorem HasUd.congr {vq vq' : VQ} (h : HasUd vq) (hud : vq'.localUd = vq.localUd)
    (hdc : vq'.localDc = vq.localDc) (hport : vq'.localConnectPort = vq.localConnectPort) :
    HasUd vq' := by
  unfold HasUd
  rw [hud, hdc, hport]
  exact h

theorem HasUd.selectCtrl {vq : VQ} (h : HasUd vq) (m : Machine) (port : Nat) :
    HasUd (VQ.selectCtrl m vq port) := by
  intro _
  cases hdc : vq.localDc with
  | none => simp [VQ.selectCtrl, hdc]
  | some d => simpa [VQ.selectCtrl, hdc] using h (.inr (by rw [hdc]; rfl))

theorem HasUd.connectImpl {feat : Features} {m : Machine} {vq vq' : VQ} (h : HasUd vq)
    {addr : Address} {port vid : Nat} {ans : ConnectAnswers} {status : ReplyStatus}
    {pt : Option EndPoint}
    (hconn : VQ.connectImpl feat m vq addr port vid ans = some (vq', status, pt)) : HasUd vq' := by
  have hsel := h.selectCtrl m port
  cases VQ.connectImpl_outcome hconn with
  | connected _ => exact h
  | unparsable _ => exact h
  | failed _ _ hexp => exact hsel.congr hexp.localUd hexp.localDc hexp.localConnectPort
  | rc _ _ _ hexp _ _ =>
    have hexp' := hsel.congr hexp.localUd hexp.localDc hexp.localConnectPort
    split
    · exact hexp'.congr rfl rfl rfl
    · exact hexp'
  | hit _ _ _ _ => exact hsel
  | fetched _ _ _ _ hexp =>
    exact (hsel.congr hexp.localUd hexp.localDc hexp.localConnectPort).congr rfl rfl rfl

theorem HasUd.stepped {cfg : Config} {s s' : State} {e : Event} (h : HasUd s.vq)
    (hstep : Stepped cfg s e s') : HasUd s'.vq := by
  cases hstep with
  | kept _ hframe =>
    rw [hframe.vq]
    exact h
  | refused _ => exact h
  | connect _ himpl => exact h.connectImpl himpl
  | binds _ => exact h.congr rfl rfl rfl
  | notBound _ => exact h
  | unBinds _ => exact h.congr rfl rfl rfl
  | thread _ => exact h
  | stored _ _ => exact h.congr rfl rfl rfl
  | others => exact h

/-- What a queue that is not lost keeps. -/
def Life.Inv : Life → Prop
  | .running s => HasUd s.vq
  | .lost => False

theorem Life.Inv.step {cfg : Config} {l l' : Life} {e : Event} (h : l.Inv) (hsafe : l.Safe cfg e)
    (hstep : Life.step cfg l e = some l') : l'.Inv := by
  cases l with
  | lost => exact h.elim
  | running s =>
    cases e with
    | ioctl arg replyBuf call =>
      obtain ⟨r, hr⟩ := exists_ioctrl cfg h hsafe
      simp only [Life.step, Life.call, hr, Option.some.injEq] at hstep
      rw [← hstep]
      exact HasUd.stepped h (ioctrl_stepped hr)
    | thread i rc =>
      simp only [Life.step, Option.map_eq_some_iff] at hstep
      obtain ⟨s', hs', rfl⟩ := hstep
      exact HasUd.stepped h (thread_stepped hs')
    | others ctrls rpc =>
      cases hstep
      exact h

/-- In every run of a queue from its opening, with any replies of the kernel, whose calls
    are all safe in the state they are made in, every call gets to its reply. -/
theorem Life.never_lost (cfg : Config) (localMr : TempMR) (ctrls : Nat → Ctrl)
    (rpc : RpcRing) (es : List Event)
    (hsafe : Run.Guarded (Life.step cfg) (Life.Safe cfg)
      (.running (State.opened localMr ctrls rpc)) es) :
    Run.Always (Life.step cfg) Life.alive (.running (State.opened localMr ctrls rpc)) es := by
  have hopened : (Life.running (State.opened localMr ctrls rpc)).Inv := by
    intro h
    rcases h with h | h <;> cases h
  have hinv := Run.always_of_guarded (fun l e l' => Life.Inv.step) hopened hsafe
  intro pre l hpre hrun
  have hl := hinv pre l hpre hrun
  cases l with
  | running s => trivial
  | lost => exact hl.elim

/-- Connect and then read. -/
theorem Life.never_lost_connectPush :
    Run.Guarded (Life.step (.sample .dct)) (Life.Safe (.sample .dct)) (.running State.sample)
        [.ioctl 0 0 (.sampleConnect 0 (.ok default)), .ioctl 0 0 (.samplePush 0)] ∧
      Run.Always (Life.step (.sample .dct)) Life.alive (.running State.sample)
        [.ioctl 0 0 (.sampleConnect 0 (.ok default)), .ioctl 0 0 (.samplePush 0)] := by
  have hsafe : Run.Guarded (Life.step (.sample .dct)) (Life.Safe (.sample .dct))
      (.running State.sample)
      [.ioctl 0 0 (.sampleConnect 0 (.ok default)), .ioctl 0 0 (.samplePush 0)] := by
    refine Run.guarded_cons_of_step rfl ⟨by decide, by decide, rfl, fun h => by cases h⟩ ?_
    refine Run.guarded_cons_of_step rfl ⟨by decide, by decide, fun req hreq => ?_, fun h => ?_⟩
      Run.guarded_nil
    · rw [List.mem_singleton.mp hreq]
      exact ⟨_, rfl, by decide⟩
    · exact absurd rfl h
  exact ⟨hsafe, never_lost (.sample .dct) default (fun _ => Ctrl.sample) RpcRing.sample _
    hsafe⟩

/-- A Connect whose handshake fails leaves a queue with a DC and without a remote
    endpoint, and the next Push unwraps the endpoint. -/
theorem Life.push_panics_after_failed_connect :
    ¬Run.Always (Life.step (.sample .dct)) Life.alive (.running State.sample)
      [.ioctl 0 0 (.sampleConnect 0 (.error (-22))), .ioctl 0 0 (.samplePush 0)] := by
  intro h
  have hlost : Run.exec (Life.step (.sample .dct)) (.running State.sample)
      [.ioctl 0 0 (.sampleConnect 0 (.error (-22))), .ioctl 0 0 (.samplePush 0)] = some .lost := rfl
  exact h _ _ List.prefix_rfl hlost

end Ioctl
