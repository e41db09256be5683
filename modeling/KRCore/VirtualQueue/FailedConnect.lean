-- SUMMARY: What a failed Connect leaves behind, and when the queue behaves afterwards as if there had been none.
import KRCore.Base.Run
import KRCore.VirtualQueue.Controller

/-!
# A failed Connect

`connect_impl` assigns the fields that the other commands take as the connection
before it does anything that can fail. `Untouched` says that a Connect has left
everything but the path cache alone, and `SameLater` that nothing the queue can do
afterwards, other than another Connect, shows a difference. A failed Connect meets
both exactly if it was refused at once, or went to the port of the Connect before
and did not get as far as starting a migration thread.
-/

/-- The queue with another path cache. -/
def VQ.withPaths (vq : VQ) (paths : List Char → Option SaPathRec) : VQ :=
  { vq with localCache := { vq.localCache with pathRecCache := paths } }

/-- No path of the cache of `vq` is lost. -/
def VQ.Grown (vq : VQ) (paths : List Char → Option SaPathRec) : Prop :=
  ∀ text path, vq.localCache.pathRecCache text = some path → paths text = some path

namespace Ioctl

variable {cfg : Config} {s : State} {paths : List Char → Option SaPathRec}

def State.withPaths (s : State) (paths : List Char → Option SaPathRec) : State :=
  { s with vq := s.vq.withPaths paths }

def Reply.withPaths (r : Reply) (paths : List Char → Option SaPathRec) : Reply :=
  { r with state := r.state.withPaths paths }

/-- Only the path cache of the queue may differ, and it may have grown. -/
def Untouched (s s' : State) : Prop :=
  ∃ paths, s'.vq = s.vq.withPaths paths ∧ s.vq.Grown paths

/-- The reply to a call, and what the call asks of the device. -/
def shown (cfg : Config) (s : State) : Event → Option (ReplyStatus × List DeviceOp)
  | .ioctl arg replyBuf call => (ioctrl cfg s arg replyBuf call).map fun r => (r.status, r.ops)
  | _ => none

/-- What a run shows; `none` if one of its events cannot happen. -/
def observe (cfg : Config) : State → List Event →
    Option (List (Option (ReplyStatus × List DeviceOp)))
  | _, [] => some []
  | s, e :: es => do
    let s' ← step cfg s e
    let rest ← observe cfg s' es
    some (shown cfg s e :: rest)

def Event.isConnect : Event → Bool
  | .ioctl _ _ (.connect ..) => true
  | _ => false

/-- Every run without a Connect is possible from both states or from none, and shows the
    same. -/
def SameLater (cfg : Config) (s s' : State) : Prop :=
  ∀ es : List Event, (∀ e ∈ es, e.isConnect = false) → observe cfg s' es = observe cfg s es

/-! ## The path cache is only read by Connect -/

@[simp] theorem withPaths_bindPort : (s.withPaths paths).vq.bindPort = s.vq.bindPort := rfl
@[simp] theorem withPaths_virtualQueue :
    (s.withPaths paths).vq.virtualQueue = s.vq.virtualQueue := rfl
@[simp] theorem withPaths_localDc : (s.withPaths paths).vq.localDc = s.vq.localDc := rfl
@[simp] theorem withPaths_localConnectPort :
    (s.withPaths paths).vq.localConnectPort = s.vq.localConnectPort := rfl
@[simp] theorem withPaths_localMr :
    (s.withPaths paths).vq.localCache.localMr = s.vq.localCache.localMr := rfl
@[simp] theorem withPaths_clientQueue : clientQueue (s.withPaths paths).vq = clientQueue s.vq := rfl
@[simp] theorem withPaths_ctrls : (s.withPaths paths).ctrls = s.ctrls := rfl
@[simp] theorem withPaths_threads : (s.withPaths paths).threads = s.threads := rfl
@[simp] theorem withPaths_clientEndpoint :
    (s.withPaths paths).clientEndpoint = s.clientEndpoint := rfl

/-- Two computations that begin alike differ by `f` at their ends if what follows does. -/
theorem bind_eq_map_bind {α β γ : Type*} {o : Option α} {k : α → Option γ} {k' : α → Option β}
    {f : β → γ} (h : ∀ a, k a = (k' a).map f) : o.bind k = (o.bind k').map f := by
  cases o with
  | none => rfl
  | some a => exact h a

/-- As `bind_eq_map_bind`, where their beginnings differ as well. -/
theorem map_bind_eq_map_bind {α α' β γ : Type*} {o : Option α} {g : α → α'} {k : α' → Option γ}
    {k' : α → Option β} {f : β → γ} (h : ∀ a, k (g a) = (k' a).map f) :
    (o.map g).bind k = (o.bind k').map f := by
  cases o with
  | none => rfl
  | some a => exact h a

theorem postRecvs_withPaths (s : State) (c : Nat) (q : Queue) (cnt : Nat) (ans : PostAnswer) :
    (s.withPaths paths).postRecvs c q cnt ans =
      (s.postRecvs c q cnt ans).map (·.withPaths paths) := by
  simp only [State.postRecvs, withPaths_ctrls, Option.bind_eq_bind]
  exact bind_eq_map_bind fun out => rfl

theorem pushRecvImpl_withPaths (s : State) (cnt : Nat) (ans : PostAnswer) :
    pushRecvImpl cfg (s.withPaths paths) cnt ans =
      (pushRecvImpl cfg s cnt ans).map (·.withPaths paths) := by
  simp only [pushRecvImpl, withPaths_bindPort, withPaths_ctrls, withPaths_localConnectPort,
    withPaths_clientQueue, postRecvs_withPaths, Option.bind_eq_bind]
  cases s.vq.bindPort with
  | some port =>
    cases h : (s.ctrls (cfg.bindCtrl port)).registeredRcs 1 with
    | none => simp only [h]; rfl
    | some id => simp only [h]
  | none =>
    cases s.vq.localConnectPort with
    | none => rfl
    | some port =>
      cases clientQueue s.vq with
      | none => rfl
      | some q => rfl

theorem clientPush_withPaths (s : State) (reqs : List CoreReq) (ans : Nat → Int) :
    clientPush cfg (s.withPaths paths) reqs ans =
      (clientPush cfg s reqs ans).map (·.withPaths paths) := by
  have hrc : (s.withPaths paths).vq.rcPushImpl cfg.paToVa cfg.remoteMr reqs ans =
      s.vq.rcPushImpl cfg.paToVa cfg.remoteMr reqs ans := rfl
  have hdc : (s.withPaths paths).vq.dcPushImpl cfg.paToVa reqs ans =
      s.vq.dcPushImpl cfg.paToVa reqs ans := rfl
  simp only [clientPush, withPaths_virtualQueue, withPaths_localDc, hrc, hdc]
  cases s.vq.virtualQueue with
  | some rc =>
    cases (s.vq.rcPushImpl cfg.paToVa cfg.remoteMr reqs ans).reply with
    | none => rfl
    | some status => rfl
  | none =>
    cases (s.vq.dcPushImpl cfg.paToVa reqs ans).reply with
    | none => rfl
    | some status => rfl

theorem repost_withPaths (s : State) (c : Nat) (q : Queue) (cnt : Nat) (popAtOnce : Bool)
    (ans : PostAnswer) (comp : Bool) :
    repost (s.withPaths paths) c q cnt popAtOnce ans comp =
      (repost s c q cnt popAtOnce ans comp).map (·.withPaths paths) := by
  simp only [repost, postRecvs_withPaths, Option.bind_eq_bind]
  split
  · rfl
  · refine map_bind_eq_map_bind fun r => ?_
    change (if r.status = .ok ∧ popAtOnce = true then _ else _) = Option.map _ (if _ then _ else _)
    split
    · split <;> rfl
    · rfl

theorem repostRc_withPaths (s : State) (c vid cnt : Nat) (popAtOnce : Bool) (ans : BindAnswers) :
    repostRc (s.withPaths paths) c vid cnt popAtOnce ans =
      (repostRc s c vid cnt popAtOnce ans).map (·.withPaths paths) := by
  simp only [repostRc, withPaths_ctrls, repost_withPaths, Option.bind_eq_bind]
  split
  · rfl
  · cases (s.ctrls c).registeredRcs vid with
    | none => rfl
    | some id => rfl

theorem bindRepost_withPaths (c : Nat) (b : BindLoop) (popAtOnce : Bool) (ans : BindAnswers)
    (vids : List Nat) (s : State) :
    bindRepost c b popAtOnce ans vids (s.withPaths paths) =
      (bindRepost c b popAtOnce ans vids s).map (·.withPaths paths) := by
  induction vids generalizing s with
  | nil => rfl
  | cons vid vids ih =>
    simp only [bindRepost, repost_withPaths, Option.bind_eq_bind]
    refine map_bind_eq_map_bind fun r => ?_
    change (if r.status = .ok then (repostRc (r.state.withPaths paths) c vid _ _ _).bind _ else _)
      = _
    rw [repostRc_withPaths]
    split
    · refine map_bind_eq_map_bind fun r' => ?_
      change (if r'.status = .ok then
        (bindRepost c b popAtOnce ans vids (r'.state.withPaths paths)).bind _ else _) = _
      rw [ih]
      split
      · exact map_bind_eq_map_bind fun r'' => rfl
      · rfl
    · rfl

theorem bindServerPushImpl_withPaths (s : State) (port : Nat) (reqs : List CoreReq)
    (popAtOnce : Bool) (ans : BindAnswers) :
    bindServerPushImpl cfg (s.withPaths paths) port reqs popAtOnce ans =
      (bindServerPushImpl cfg s port reqs popAtOnce ans).map (·.withPaths paths) := by
  simp only [bindServerPushImpl, withPaths_localMr, withPaths_ctrls, withPaths_clientEndpoint,
    Option.bind_eq_bind]
  refine bind_eq_map_bind fun out => ?_
  split
  · have hrepost := @bindRepost_withPaths paths (cfg.bindCtrl port) out.1 popAtOnce ans
      (List.range' 1 (hostLen - 1)) { s with clientEndpoint := out.1.clientEndpoint }
    simp only [State.withPaths] at hrepost
    simp only [State.withPaths, hrepost]
    exact map_bind_eq_map_bind fun r => rfl
  · rfl

theorem pushBatch_withPaths (p : PushReq) (ans : PushAnswers) (k : Nat) (s : State) :
    pushBatch cfg p ans k (s.withPaths paths) =
      (pushBatch cfg p ans k s).map (·.withPaths paths) := by
  simp only [pushBatch, withPaths_bindPort, bindServerPushImpl_withPaths, clientPush_withPaths]
  cases s.vq.bindPort with
  | some port => rfl
  | none => rfl

theorem pushBatches_withPaths (p : PushReq) (ans : PushAnswers) (ks : List Nat) (s : State)
    (ret : ReplyStatus) :
    pushBatches cfg p ans ks (s.withPaths paths) ret =
      (pushBatches cfg p ans ks s ret).map (·.withPaths paths) := by
  induction ks generalizing s ret with
  | nil => rfl
  | cons k ks ih =>
    simp only [pushBatches, pushBatch_withPaths, Option.bind_eq_bind]
    refine bind_eq_map_bind fun addr => map_bind_eq_map_bind fun r => ?_
    change (if r.status = .err then _ else
      (pushBatches cfg p ans ks (r.state.withPaths paths) r.status).bind _) = _
    rw [ih]
    split
    · rfl
    · exact map_bind_eq_map_bind fun r' => rfl

theorem pushWait_withPaths (r : Reply) (p : PushReq) (comp : Bool) :
    pushWait (r.withPaths paths) p comp = (pushWait r p comp).map (·.withPaths paths) := by
  unfold pushWait
  change (if r.state.vq.bindPort = none ∧ p.popRes ≠ 0 ∧ r.status = .ok then
    (clientQueue r.state.vq).bind _ else _) = _
  split
  · refine bind_eq_map_bind fun q => ?_
    split <;> rfl
  · rfl

theorem push_withPaths (s : State) (arg : Nat) (p : PushReq) (ans : PushAnswers) :
    push cfg (s.withPaths paths) arg p ans = (push cfg s arg p ans).map (·.withPaths paths) := by
  have hfirst : pushRecvFirst cfg (s.withPaths paths) p ans =
      (pushRecvFirst cfg s p ans).map (·.withPaths paths) := by
    simp only [pushRecvFirst, withPaths_bindPort, pushRecvImpl_withPaths]
    split <;> rfl
  simp only [push, hfirst, Option.bind_eq_bind]
  refine bind_eq_map_bind fun arg' => bind_eq_map_bind fun _ => map_bind_eq_map_bind fun r => ?_
  change (pushBatches cfg p ans (List.range p.batchCnt) (r.state.withPaths paths)
    r.status).bind _ = _
  rw [pushBatches_withPaths]
  refine map_bind_eq_map_bind fun r' => ?_
  exact pushWait_withPaths { r' with ops := r.ops ++ r'.ops } p ans.comp

theorem rpcPoll_withPaths (s : State) (rounds : List (BitVec 32 × PostAnswer)) :
    rpcPoll (s.withPaths paths) rounds = (rpcPoll s rounds).map (·.withPaths paths) := by
  induction rounds generalizing s with
  | nil => rfl
  | cons round rounds ih =>
    simp only [rpcPoll, Option.bind_eq_bind]
    split
    · exact bind_eq_map_bind fun out => ih { s with rpc := out.1 }
    · exact ih s

theorem ioctrl_withPaths (s : State) (arg replyBuf : BitVec 64) {call : Call}
    (hcall : Event.isConnect (.ioctl arg replyBuf call) = false) :
    ioctrl cfg (s.withPaths paths) arg replyBuf call =
      (ioctrl cfg s arg replyBuf call).map (·.withPaths paths) := by
  cases call with
  | connect => cases hcall
  | nil | unknown => rfl
  | push p ans => exact push_withPaths s arg.toNat p ans
  | rpcPoll rounds => exact rpcPoll_withPaths s rounds
  | regMRs size => exact bind_eq_map_bind fun _ => bind_eq_map_bind fun _ => rfl
  | pushRecv cnt ans => exact bind_eq_map_bind fun _ => pushRecvImpl_withPaths s (toUsize cnt) ans
  | pop vid ans =>
    have himpl : popImpl cfg (s.withPaths paths) vid.toNat ans = popImpl cfg s vid.toNat ans := rfl
    simp only [ioctrl, pop, himpl, Option.bind_eq_bind]
    exact bind_eq_map_bind fun _ => bind_eq_map_bind fun out => bind_eq_map_bind fun status => rfl
  | popMsgs least payloadSz polls wrIds =>
    have himpl : popMsgImpl cfg (s.withPaths paths) least.toNat polls =
        popMsgImpl cfg s least.toNat polls := rfl
    simp only [ioctrl, popMsgs, himpl, Option.bind_eq_bind]
    refine bind_eq_map_bind fun _ => bind_eq_map_bind fun _ => bind_eq_map_bind fun res => ?_
    cases res with
    | none => rfl
    | some out => exact bind_eq_map_bind fun status => rfl
  | binds port =>
    simp only [ioctrl, binds, withPaths_bindPort, Option.bind_eq_bind]
    refine bind_eq_map_bind fun _ => ?_
    split
    · rfl
    · split <;> rfl
  | unBinds port ret =>
    simp only [ioctrl, unBinds, withPaths_bindPort, Option.bind_eq_bind]
    refine bind_eq_map_bind fun _ => ?_
    split
    · split <;> rfl
    · rfl

theorem threadStep_withPaths (vq : VQ) (ans : RcAnswer) (t : MigrationTarget.Thread) :
    threadStep cfg (vq.withPaths paths) ans t =
      (threadStep cfg vq ans t).map fun out => (out.1.withPaths paths, out.2) := by
  cases t with
  | started =>
    change (vq.rcConnectParam.map _) = Option.map _ (vq.rcConnectParam.map _)
    cases vq.rcConnectParam with
    | none => rfl
    | some param => rfl
  | read param => rfl
  | checked param =>
    simp only [threadStep]
    cases VQ.qpConnect cfg.machine param.port param.path ans with
    | error errno => rfl
    | ok qp => rfl
  | connected param qp =>
    simp only [threadStep]
    split <;> rfl

theorem step_withPaths (s : State) {e : Event} (he : e.isConnect = false) :
    step cfg (s.withPaths paths) e = (step cfg s e).map (·.withPaths paths) := by
  cases e with
  | ioctl arg replyBuf call =>
    simp only [step, ioctrl_withPaths s arg replyBuf he]
    cases ioctrl cfg s arg replyBuf call with
    | none => rfl
    | some r => rfl
  | thread i rc =>
    simp only [step, State.thread, withPaths_threads, Option.bind_eq_bind]
    refine bind_eq_map_bind fun t => ?_
    rw [show (s.withPaths paths).vq = s.vq.withPaths paths from rfl, threadStep_withPaths]
    exact map_bind_eq_map_bind fun out => rfl
  | others ctrls rpc => rfl

theorem shown_withPaths (s : State) {e : Event} (he : e.isConnect = false) :
    shown cfg (s.withPaths paths) e = shown cfg s e := by
  cases e with
  | ioctl arg replyBuf call =>
    simp only [shown, ioctrl_withPaths s arg replyBuf he, Option.map_map]
    rfl
  | thread i rc => rfl
  | others ctrls rpc => rfl

/-- A grown path cache does not show. -/
theorem sameLater_withPaths (s : State) : SameLater cfg s (s.withPaths paths) := by
  intro es hes
  induction es generalizing s with
  | nil => rfl
  | cons e es ih =>
    have he := hes e List.mem_cons_self
    simp only [observe, step_withPaths s he, shown_withPaths s he, Option.bind_eq_bind]
    cases step cfg s e with
    | none => rfl
    | some s' =>
      simp only [Option.map_some, Option.bind_some]
      rw [ih s' fun e' he' => hes e' (List.mem_cons_of_mem _ he')]

/-! ## The ways to fail -/

theorem explorePath_withPaths (m : Machine) (vq : VQ) (port : Nat) (addr : Address) (dgid : Gid)
    (resolve : Except Int (BitVec 16)) :
    ∃ paths, (VQ.explorePath m vq port addr dgid resolve).2 = vq.withPaths paths ∧
      vq.Grown paths := by
  unfold VQ.explorePath
  split
  · exact ⟨vq.localCache.pathRecCache, rfl, fun _ _ h => h⟩
  · rename_i hmiss
    split
    · exact ⟨vq.localCache.pathRecCache, rfl, fun _ _ h => h⟩
    · refine ⟨_, rfl, fun text path h => ?_⟩
      have hne : text ≠ addr.text := by
        rintro rfl
        rw [hmiss] at h
        cases h
      rw [Function.update_of_ne hne]
      exact h

/-- No path is found: there is none in the cache, and the query fails. -/
def NoPath (vq : VQ) (addr : Address) (resolve : Except Int (BitVec 16)) : Prop :=
  vq.localCache.pathRecCache addr.text = none ∧ ∃ errno, resolve = .error errno

theorem explorePath_error_iff (m : Machine) (vq : VQ) (port : Nat) (addr : Address) (dgid : Gid)
    (resolve : Except Int (BitVec 16)) :
    (∃ errno, (VQ.explorePath m vq port addr dgid resolve).1 = .error errno) ↔
      NoPath vq addr resolve := by
  unfold VQ.explorePath NoPath
  cases vq.localCache.pathRecCache addr.text with
  | some path => simp
  | none =>
    cases resolve with
    | error errno => simp
    | ok dlid => simp

/-- A failed Connect that was not refused at once has selected the controller, and it
    has looked for the path; with migration, it has started a thread if there was one. -/
inductive Failed (cfg : Config) (vq : VQ) (a : Address) (port : Nat) (ans : ConnectAnswers) :
    VQ → List MigrationTarget.Thread → Prop
  | early {paths : List Char → Option SaPathRec}
      (hgrown : (VQ.selectCtrl cfg.machine vq port).Grown paths)
      (hpath : cfg.feat.dctQp = true → cfg.feat.migrateQp = true → NoPath vq a ans.resolve) :
      Failed cfg vq a port ans ((VQ.selectCtrl cfg.machine vq port).withPaths paths) []
  | late {vq' : VQ} (hport : vq'.localConnectPort = some port)
      (hdct : cfg.feat.dctQp = true) (hmig : cfg.feat.migrateQp = true)
      (hpath : ¬NoPath vq a ans.resolve) (hparam : vq'.rcConnectParam.isSome = true) :
      Failed cfg vq a port ans vq' [.started]

theorem fetchEndpoint_withPaths {feat : Features} {m : Machine} {vq vq' : VQ} {addr : Address}
    {port : Nat} {dgid : Gid} {ans : ConnectAnswers} {res : Except Int EndPoint}
    (h : VQ.fetchEndpoint feat m vq addr port dgid ans = some (res, vq')) :
    ∃ paths, vq' = vq.withPaths paths ∧ vq.Grown paths := by
  obtain ⟨paths, hpaths, hgrown⟩ := explorePath_withPaths m vq port addr dgid ans.resolve
  unfold VQ.fetchEndpoint at h
  split at h
  · cases h
    exact ⟨vq.localCache.pathRecCache, rfl, fun _ _ h => h⟩
  · split at h
    · rename_i hexp
      cases h
      rw [hexp] at hpaths
      exact ⟨paths, hpaths, hgrown⟩
    · rename_i hexp
      split at h
      · cases h
        rw [hexp] at hpaths
        exact ⟨paths, hpaths, hgrown⟩
      · cases h

theorem connectFinish_failed {feat : Features} {m : Machine} {vq vq' : VQ} {addr : Address}
    {port : Nat} {dgid : Gid} {ans : ConnectAnswers} {status : ReplyStatus} {pt : Option EndPoint}
    (h : VQ.connectFinish feat m vq addr port dgid ans = some (vq', status, pt))
    (hfail : status ≠ .ok) : ∃ paths, vq' = vq.withPaths paths ∧ vq.Grown paths := by
  simp only [VQ.connectFinish, Option.bind_eq_bind, Option.bind_eq_some_iff, Prod.exists] at h
  obtain ⟨res, vq₁, hfetch, hres⟩ := h
  cases res with
  | error errno =>
    cases hres
    exact fetchEndpoint_withPaths hfetch
  | ok point =>
    cases hres
    exact absurd rfl hfail

/-- A failed connection of an RC has looked for the path, and that is all. -/
theorem connectRc_failed {vq vq' : VQ} {a : Address} {port : Nat} {dgid : Gid}
    {ans : ConnectAnswers} {status : ReplyStatus}
    (h : VQ.connectRc cfg.feat cfg.machine vq a port dgid ans = (vq', status))
    (hfail : status ≠ .ok) :
    vq' = (VQ.explorePath cfg.machine vq port a dgid ans.resolve).2 := by
  unfold VQ.connectRc at h
  split at h
  · rename_i hexp
    cases h
    rw [hexp]
  · rename_i hexp
    split at h
    · cases h
      rw [hexp]
    · cases h
      exact absurd rfl hfail

theorem connectImpl_failed {vq vq' : VQ} {a : Address} {port vid : Nat} {ans : ConnectAnswers}
    {status : ReplyStatus} {pt : Option EndPoint} {dgid : Gid}
    (hfree : vq.virtualQueue = none) (hgid : cfg.machine.parseGid a.text = some dgid)
    (h : VQ.connectImpl cfg.feat cfg.machine vq a port vid ans = some (vq', status, pt))
    (hfail : status ≠ .ok) :
    Failed cfg vq a port ans vq'
      (startThread cfg (VQ.connectStart cfg.feat cfg.machine vq a port vid ans)) := by
  have hnot : vq.isRcConnected = false := by
    rw [VQ.isRcConnected, hfree]
    rfl
  obtain ⟨paths, hpaths, hgrown⟩ := explorePath_withPaths cfg.machine
    (VQ.selectCtrl cfg.machine vq port) port a dgid ans.resolve
  have hnopath : (∃ errno, (VQ.explorePath cfg.machine (VQ.selectCtrl cfg.machine vq port) port a
      dgid ans.resolve).1 = .error errno) ↔ NoPath vq a ans.resolve :=
    explorePath_error_iff cfg.machine (VQ.selectCtrl cfg.machine vq port) port a dgid ans.resolve
  simp only [VQ.connectImpl, VQ.connectStart, hnot, hgid, Bool.false_eq_true, if_false] at h ⊢
  cases hdct : cfg.feat.dctQp with
  | false =>
    simp only [hdct, Bool.false_eq_true, if_false] at h ⊢
    simp only [Option.some.injEq, Prod.mk.injEq] at h
    obtain ⟨hvq, hst, -⟩ := h
    rw [connectRc_failed (Prod.ext hvq hst) hfail, hpaths]
    exact .early hgrown fun hd => by rw [hdct] at hd; cases hd
  | true =>
    simp only [hdct, if_true, VQ.connectDctStart] at h ⊢
    cases hkey : (VQ.selectCtrl cfg.machine vq port).localCache.dctMetaCache
        (VQ.dctMetaCacheKey a port) with
    | some metaInfo =>
      simp only [hkey, Option.some.injEq, Prod.mk.injEq] at h
      exact absurd h.2.1.symm hfail
    | none =>
      simp only [hkey] at h ⊢
      cases hmig : cfg.feat.migrateQp with
      | false =>
        simp only [hmig, Bool.false_eq_true, if_false] at h ⊢
        obtain ⟨paths', rfl, hgrown'⟩ := connectFinish_failed h hfail
        simp only [startThread, hmig, Bool.false_eq_true, if_false]
        exact .early hgrown' fun _ hm => by rw [hmig] at hm; cases hm
      | true =>
        simp only [hmig, if_true] at h ⊢
        cases hexp : VQ.explorePath cfg.machine (VQ.selectCtrl cfg.machine vq port) port a dgid
            ans.resolve with
        | mk res vq₁ =>
          rw [hexp] at hpaths hnopath
          have hvq₁ : vq₁ = (VQ.selectCtrl cfg.machine vq port).withPaths paths := hpaths
          simp only [hexp] at h ⊢
          cases res with
          | error errno =>
            simp only [Option.some.injEq, Prod.mk.injEq] at h
            rw [← h.1, hvq₁]
            exact .early hgrown fun _ _ => hnopath.mp ⟨errno, rfl⟩
          | ok path =>
            obtain ⟨paths', rfl, -⟩ := connectFinish_failed h hfail
            simp only [startThread, hmig, if_true]
            refine .late ?_ hdct hmig (fun hno => ?_) rfl
            · change vq₁.localConnectPort = some port
              rw [hvq₁]
              rfl
            · obtain ⟨errno, herr⟩ := hnopath.mpr hno
              cases herr

/-! ## Reachable queues -/

/-- A queue that has been connected has the memory region of that controller, and if it
    has no DC then the controller has none, and the UD is that of the controller. -/
def Settled (cfg : Config) (vq : VQ) : Prop :=
  ∀ port, vq.localConnectPort = some port →
    vq.localCache.localMr = cfg.machine.localMr (cfg.machine.getGlobalRctrl port) ∧
    (vq.localDc = none → cfg.machine.getDc (cfg.machine.getGlobalRctrl port) = none ∧
      vq.localUd = some (cfg.machine.getGlobalRctrl port))

theorem Settled.congr {vq vq' : VQ} (h : Settled cfg vq) (hdc : vq'.localDc = vq.localDc)
    (hud : vq'.localUd = vq.localUd) (hport : vq'.localConnectPort = vq.localConnectPort)
    (hmr : vq'.localCache.localMr = vq.localCache.localMr) : Settled cfg vq' := by
  unfold Settled
  rw [hdc, hud, hport, hmr]
  exact h

theorem Settled.stepped {s' : State} {e : Event} (h : Settled cfg s.vq)
    (hstep : Stepped cfg s e s') : Settled cfg s'.vq := by
  cases hstep with
  | kept _ hframe =>
    rw [hframe.vq]
    exact h
  | refused _ => exact h
  | @connect _ _ _ port _ _ _ a vq' status pt _ himpl =>
    cases connectImpl_selected himpl with
    | refused _ => exact h
    | selected _ _ hdc hud hmr hport _ _ =>
      intro p hp
      rw [show _ = _ from hport, Option.some.injEq] at hp
      subst hp
      refine ⟨hmr, fun hnone => ?_⟩
      have hnone : (VQ.selectCtrl cfg.machine s.vq (servicePort port)).localDc = none :=
        hdc.symm.trans hnone
      cases hold : s.vq.localDc with
      | some d => simp [VQ.selectCtrl, hold] at hnone
      | none =>
        simp only [VQ.selectCtrl, hold, Option.isNone_none, if_true] at hnone hud
        exact ⟨hnone, hud⟩
  | binds _ => exact h.congr rfl rfl rfl rfl
  | notBound _ => exact h
  | unBinds _ => exact h.congr rfl rfl rfl rfl
  | thread _ => exact h
  | stored _ _ => exact h.congr rfl rfl rfl rfl
  | others => exact h

/-- To select the controller of the Connect before changes nothing. -/
theorem Settled.selectCtrl_eq {vq : VQ} (h : Settled cfg vq) {port : Nat}
    (hport : vq.localConnectPort = some port) : VQ.selectCtrl cfg.machine vq port = vq := by
  obtain ⟨hmr, hdc⟩ := h port hport
  obtain ⟨virtualQueue, localDc, localUd, param, cache, bindPort, connectPort⟩ := vq
  obtain ⟨pathCache, metaCache, mr, endpoint⟩ := cache
  simp only at hmr hdc hport
  subst hport hmr
  cases localDc with
  | some d => rfl
  | none =>
    obtain ⟨hnone, rfl⟩ := hdc rfl
    simp only [VQ.selectCtrl, Option.isNone_none, if_true, VQ.mk.injEq, true_and, and_true]
    exact ⟨hnone, rfl⟩

/-- The Connect is refused at once, or it goes to the port of the Connect before and, with
    migration, finds no path. -/
def Harmless (cfg : Config) (s : State) (addr : UserAddr) (port : BitVec 32)
    (ans : ConnectAnswers) : Prop :=
  s.vq.virtualQueue.isSome = true ∨
    ∀ a : Address, addr.text = some a.text → (cfg.machine.parseGid a.text).isSome = true →
      s.vq.localConnectPort = some (servicePort port) ∧
        (cfg.feat.dctQp = true → cfg.feat.migrateQp = true → NoPath s.vq a ans.resolve)

/-- A thread more shows. -/
theorem not_sameLater_of_started {s' : State} (hthreads : s'.threads = s.threads ++ [.started])
    (hparam : s'.vq.rcConnectParam.isSome = true) : ¬SameLater cfg s s' := by
  intro h
  obtain ⟨param, hparam⟩ := Option.isSome_iff_exists.mp hparam
  have hthread := h [.thread s.threads.length .notCreated] (by simp [Event.isConnect])
  have hnew : s'.threads[s.threads.length]? = some .started := by
    rw [hthreads]
    simp
  simp [observe, step, State.thread, hnew, threadStep, hparam] at hthread

theorem settled_of_exec {localMr : TempMR} {ctrls : Nat → Ctrl} {rpc : RpcRing} {es : List Event}
    (h : Run.exec (step cfg) (State.opened localMr ctrls rpc) es = some s) :
    Settled cfg s.vq := by
  refine Run.exec_invariant (I := fun s => Settled cfg s.vq)
    (fun s e s' h hstep => h.stepped (step_stepped hstep)) ?_ h
  intro p hp
  cases hp

/-- `connect_impl` refuses a queue that has its RC, and a text that is no gid, and starts no
    thread. -/
theorem connectImpl_refused {vq vq' : VQ} {a : Address} {port vid : Nat} {ans : ConnectAnswers}
    {status : ReplyStatus} {pt : Option EndPoint}
    (hrefused : vq.virtualQueue.isSome = true ∨ cfg.machine.parseGid a.text = none)
    (h : VQ.connectImpl cfg.feat cfg.machine vq a port vid ans = some (vq', status, pt)) :
    vq' = vq ∧ startThread cfg (VQ.connectStart cfg.feat cfg.machine vq a port vid ans) = [] := by
  constructor
  · cases connectImpl_selected h with
    | refused _ => rfl
    | selected hfree hgid =>
      rcases hrefused with hrc | hnone
      · rw [hfree] at hrc
        cases hrc
      · rw [hnone] at hgid
        cases hgid
  · unfold VQ.connectStart
    rcases hrefused with hrc | hnone
    · rw [if_pos (show vq.isRcConnected = true from hrc)]
      rfl
    · split
      · rfl
      · rw [hnone]
        rfl

theorem UserAddr.text_inj {addr : UserAddr} {a a' : Address} (h : addr.text = some a.text)
    (h' : addr.text = some a'.text) : a' = a := by
  rw [h, Option.some.injEq] at h'
  cases a
  cases a'
  simp only at h'
  subst h'
  rfl

/-- A Connect that is refused is harmless. -/
theorem Harmless.of_refused {addr : UserAddr} {a : Address} (htext : addr.text = some a.text)
    (hrefused : s.vq.virtualQueue.isSome = true ∨ cfg.machine.parseGid a.text = none)
    (port : BitVec 32) (ans : ConnectAnswers) : Harmless cfg s addr port ans := by
  rcases hrefused with hrc | hnone
  · exact .inl hrc
  · refine .inr fun a' ha' hgid => ?_
    rw [UserAddr.text_inj htext ha', hnone] at hgid
    cases hgid

/-- Whether a Connect that is not refused is harmless. -/
theorem harmless_iff {addr : UserAddr} {a : Address} (htext : addr.text = some a.text)
    (hrefused : ¬(s.vq.virtualQueue.isSome = true ∨ cfg.machine.parseGid a.text = none))
    (port : BitVec 32) (ans : ConnectAnswers) :
    Harmless cfg s addr port ans ↔
      s.vq.localConnectPort = some (servicePort port) ∧
        (cfg.feat.dctQp = true → cfg.feat.migrateQp = true → NoPath s.vq a ans.resolve) := by
  constructor
  · rintro (hrc | h)
    · exact absurd (.inl hrc) hrefused
    · exact h a htext (Option.isSome_iff_ne_none.mpr fun hnone => hrefused (.inr hnone))
  · intro h
    refine .inr fun a' ha' _ => ?_
    rw [UserAddr.text_inj htext ha']
    exact h

/-- What a failed Connect that was not refused leaves behind. -/
theorem Failed.untouched_iff {a : Address} {port : Nat} {ans : ConnectAnswers} {vq' : VQ}
    {started : List MigrationTarget.Thread} (hsettled : Settled cfg s.vq)
    (h : Failed cfg s.vq a port ans vq' started) :
    (Untouched s { s with vq := vq', threads := s.threads ++ started } ∧
        SameLater cfg s { s with vq := vq', threads := s.threads ++ started }) ↔
      s.vq.localConnectPort = some port ∧
        (cfg.feat.dctQp = true → cfg.feat.migrateQp = true → NoPath s.vq a ans.resolve) := by
  cases h with
  | @early paths hgrown hpath =>
    constructor
    · rintro ⟨⟨paths', hvq, -⟩, -⟩
      exact ⟨(congrArg VQ.localConnectPort hvq).symm, hpath⟩
    · rintro ⟨hport, -⟩
      -- The controller is selected already, so that only the paths can differ.
      rw [hsettled.selectCtrl_eq hport] at hgrown ⊢
      rw [List.append_nil]
      exact ⟨⟨paths, rfl, hgrown⟩, sameLater_withPaths s⟩
  | late hport hdct hmig hpath hparam =>
    constructor
    · rintro ⟨-, hlater⟩
      exact absurd hlater (not_sameLater_of_started rfl hparam)
    · rintro ⟨-, hno⟩
      exact absurd (hno hdct hmig) hpath

/-- In every build, for every queue that can be reached and every Connect that does not
    reply ok: nothing but the path cache has changed, and nothing that happens later shows
    the Connect, exactly if it is harmless. -/
theorem failed_connect_iff (cfg : Config) (localMr : TempMR) (ctrls : Nat → Ctrl) (rpc : RpcRing)
    (es : List Event) {s : State}
    (hreach : Run.exec (step cfg) (State.opened localMr ctrls rpc) es = some s)
    (arg replyBuf : BitVec 64) {addr : UserAddr} {port vid : BitVec 32} {scan : MetaScan}
    {ans : ConnectAnswers} {r : Reply}
    (hcall : ioctrl cfg s arg replyBuf (.connect addr port vid scan ans) = some r)
    (hfail : r.status ≠ .ok) :
    (Untouched s r.state ∧ SameLater cfg s r.state) ↔ Harmless cfg s addr port ans := by
  have hsame : Untouched s s ∧ SameLater cfg s s :=
    ⟨⟨s.vq.localCache.pathRecCache, rfl, fun _ _ h => h⟩, fun _ _ => rfl⟩
  rcases connect_eq_some hcall with ⟨hstate, hrefused⟩ | ⟨a, vq', pt, htext, himpl, hstate⟩
  · -- The call is over before `connect_impl`.
    rw [hstate]
    refine iff_of_true hsame ?_
    rcases hrefused with hrc | hnone
    · exact .inl hrc
    · exact .inr fun a ha => absurd ha (hnone a)
  by_cases hrefused : s.vq.virtualQueue.isSome = true ∨ cfg.machine.parseGid a.text = none
  · -- `connect_impl` refuses by itself.
    obtain ⟨hvq, hstart⟩ := connectImpl_refused hrefused himpl
    rw [hstate, hstart, hvq, List.append_nil]
    exact iff_of_true hsame (.of_refused htext hrefused port ans)
  · have hfree : s.vq.virtualQueue = none :=
      Option.not_isSome_iff_eq_none.mp fun hrc => hrefused (.inl hrc)
    obtain ⟨dgid, hgid⟩ := Option.ne_none_iff_exists'.mp fun hnone => hrefused (.inr hnone)
    rw [harmless_iff htext hrefused, hstate]
    have hfailed := connectImpl_failed hfree hgid himpl hfail
    have hiff := hfailed.untouched_iff (settled_of_exec hreach)
    exact hiff

/-- The handshake of a first Connect fails, and that of another one to the same port. -/
theorem failed_connect_iff_again :
    ∃ s r, Run.exec (step (.sample .dct)) State.sample
        [.ioctl 0 0 (.sampleConnect 0 (.error (-22)))] = some s ∧
      ioctrl (.sample .dct) s 0 0 (.sampleConnect 0 (.error (-22))) = some r ∧ r.status = .err ∧
      Untouched s r.state ∧ SameLater (.sample .dct) s r.state := by
  have hfirst : ∃ s, Run.exec (step (.sample .dct)) State.sample
      [.ioctl 0 0 (.sampleConnect 0 (.error (-22)))] = some s ∧
      s.vq.localConnectPort = some (servicePort 0) ∧
      ∃ r, ioctrl (.sample .dct) s 0 0 (.sampleConnect 0 (.error (-22))) = some r ∧
        r.status = .err := ⟨_, rfl, rfl, _, rfl, rfl⟩
  obtain ⟨s, hs, hport, r, hr, hstatus⟩ := hfirst
  refine ⟨s, r, hs, hr, hstatus, ?_⟩
  refine (failed_connect_iff (.sample .dct) default (fun _ => Ctrl.sample) RpcRing.sample _ hs 0 0 hr
    (by rw [hstatus]; nofun)).mpr ?_
  exact .inr fun a _ _ => ⟨hport, fun _ h => by cases h⟩

/-- The handshake of a first Connect fails, and PushRecv replies ok where it replied
    `not_connected` before. -/
theorem failed_connect_shows :
    ∃ r, ioctrl (.sample .dct) State.sample 0 0 (.sampleConnect 0 (.error (-22))) = some r ∧
      r.status = .err ∧ State.sample.vq.localConnectPort = none ∧
      r.state.vq.localConnectPort = some 0 ∧
      (ioctrl (.sample .dct) State.sample 0 0 (.pushRecv 1 .ok)).map Reply.status =
        some .notConnected ∧
      (ioctrl (.sample .dct) r.state 0 0 (.pushRecv 1 .ok)).map Reply.status = some .ok :=
  ⟨_, rfl, rfl, rfl, rfl, rfl, rfl⟩

end Ioctl
