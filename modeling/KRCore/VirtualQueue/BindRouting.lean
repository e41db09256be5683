-- SUMMARY: Where the requests of bind-mode Pushes go, and with what: the RC of their vid, or the client that wrote the message.
import KRCore.VirtualQueue.BindAccounting

/-!
# Routing in bind mode

A server answers a message with a request for the `vid` of the client. If the client
has an RC the request is to go over it, otherwise over the UD of the controller to
the endpoint that stands in the message. The code takes the `vid` modulo twelve, it
keeps the endpoint of the first message for every `vid` for ever, and over the UD it
sends neither the bytes of the request nor its `vid`.
-/

namespace Ioctl

/-! ## What routing is about -/

/-- What `e` leads to is the peer that is described by `message`. -/
structure LeadsTo (e message : EndPoint) : Prop where
  qpn : e.qpn = message.qpn
  qkey : e.qkey = message.qkey
  lid : e.lid = message.lid
  gid : e.gid = message.gid
  /-- There is an address handle. -/
  ah : e.ah ≠ 0

/-- The opcode, the local offset, the length and the `vid` are those of the request. -/
structure Carries (localMr : TempMR) (req : CoreReq) (opcode : WrOpcode) (sge : IbSge)
    (immData : BitVec 32) : Prop where
  opcode : opCodeTable req.type = some opcode
  addr : sge.addr = localMr.addr.toNat + req.addr.toNat
  length : sge.length = req.length.toNat
  immData : immData = req.vid

/-- A request goes where it should: over the RC that is registered for its `vid` if there is
    one, and else over the UD to the endpoint of the message that it replies to. `cache` has
    the endpoints that the queue uses. -/
def Routed (localMr : TempMR) (c : Nat) (registered : Nat → Option Nat) (message : EndPoint)
    (cache : Nat → Option EndPoint) (req : CoreReq) : DeviceOp → Prop
  | .send (.trc c' id) (.rdma wr) _ =>
    c' = c ∧ registered req.vid.toNat = some id ∧ Carries localMr req wr.opcode wr.sge wr.immData
  | .send (.ud c') (.ud wr) _ =>
    c' = c ∧ registered req.vid.toNat = none ∧ Carries localMr req wr.opcode wr.sge wr.immData ∧
      ∃ e, cache (hostVid req) = some e ∧ wr.remoteQpn = e.qpn ∧ wr.remoteQkey = e.qkey ∧
        wr.ah = e.ah ∧ LeadsTo e message
  | _ => False

/-- The message that a request replies to. -/
def messageOf (ans : BindAnswers) (req : CoreReq) : EndPoint :=
  ans.message (req.remoteAddr.toNat + udHeaderSz)

/-- The endpoint that a request without an RC goes to: the cached one, or else the one of its
    message with a new address handle. -/
def clientOf (ans : BindAnswers) (cache : Nat → Option EndPoint) (req : CoreReq) : EndPoint :=
  (cache (hostVid req)).getD ((messageOf ans req).new (ans.ah (hostVid req)))

/-- With an RC the `vid` must be less than twelve. Without one there must be nothing to send,
    the `vid` must be zero, and the endpoint must be that of the message. -/
def RouteOk (registered : Nat → Option Nat) (ans : BindAnswers) (cache : Nat → Option EndPoint)
    (req : CoreReq) : Prop :=
  match registered req.vid.toNat with
  | some _ => req.vid.toNat < hostLen
  | none => req.vid = 0 ∧ req.addr = 0 ∧ req.length = 0 ∧
      LeadsTo (clientOf ans cache req) (messageOf ans req)

/-- The cache after a request. -/
def cacheNext (registered : Nat → Option Nat) (ans : BindAnswers) (cache : Nat → Option EndPoint)
    (req : CoreReq) : Nat → Option EndPoint :=
  if registered (hostVid req) = none then
    Function.update cache (hostVid req) (some (clientOf ans cache req))
  else cache

/-- All requests of a batch that are handed to a queue can be routed. -/
def RoutesOk (registered : Nat → Option Nat) (ans : BindAnswers) :
    Nat → List CoreReq → (Nat → Option EndPoint) → Prop
  | _, [], _ => True
  | idx, req :: reqs, cache =>
    RouteOk registered ans cache req ∧
      (ans.send idx = 0 → RoutesOk registered ans (idx + 1) reqs (cacheNext registered ans cache req))

/-! ## One request -/

section FirstLoop

variable {localMr : TempMR} {rkey : BitVec 32} {c : Nat} {registered : Nat → Option Nat}
  {ans : BindAnswers}

theorem bindPushOne_cache {idx : Nat} {req : CoreReq} {b b' : BindLoop} {op : DeviceOp}
    (h : bindPushOne localMr rkey c registered ans idx req b = some (b', op)) :
    b'.clientEndpoint = cacheNext registered ans b.clientEndpoint req := by
  unfold cacheNext
  cases bindPushOne_sent h with
  | ud hnone _ hclient =>
    change registered (hostVid req) = none at hnone
    rw [if_pos hnone, hclient]
    rfl
  | @rc _ id hid _ =>
    change registered (hostVid req) = some id at hid
    rw [hid, if_neg (Option.some_ne_none id)]

theorem cacheNext_keeps {cache : Nat → Option EndPoint} {req : CoreReq} {vid : Nat} {e : EndPoint}
    (h : cache vid = some e) : cacheNext registered ans cache req vid = some e := by
  unfold cacheNext
  split
  · by_cases hvid : vid = hostVid req
    · subst hvid
      rw [Function.update_self, clientOf, h, Option.getD_some]
    · rw [Function.update_of_ne hvid, h]
  · exact h

theorem hostVid_eq_vid_iff {req : CoreReq} : hostVid req = req.vid.toNat ↔ req.vid.toNat < hostLen := by
  unfold hostVid
  constructor
  · intro h
    rw [← h]
    exact Nat.mod_lt _ (by decide)
  · exact Nat.mod_eq_of_lt

theorem ofNat_hostVid_iff {req : CoreReq} :
    BitVec.ofNat 32 (hostVid req) = req.vid ↔ req.vid.toNat < hostLen := by
  rw [← hostVid_eq_vid_iff, ← BitVec.toNat_inj, BitVec.toNat_ofNat]
  have hlt : hostVid req < 2 ^ 32 := (Nat.mod_le _ _).trans_lt req.vid.isLt
  rw [Nat.mod_eq_of_lt hlt]

/-- One request goes where it should exactly if it can be routed. -/
theorem bindPushOne_routed_iff {idx : Nat} {req : CoreReq} {b b' : BindLoop} {op : DeviceOp}
    (h : bindPushOne localMr rkey c registered ans idx req b = some (b', op))
    {cache : Nat → Option EndPoint}
    (hcache : ∀ vid e, b'.clientEndpoint vid = some e → cache vid = some e) :
    Routed localMr c registered (messageOf ans req) cache req op ↔
      RouteOk registered ans b.clientEndpoint req := by
  cases bindPushOne_sent h with
  | @ud opCode endpoint hnone hop hclient =>
    -- Over the UD: with length zero, immediate data zero and without the offset.
    change registered (hostVid req) = none at hnone
    change endpoint = clientOf ans b.clientEndpoint req at hclient
    subst hclient
    have hused : cache (hostVid req) = some (clientOf ans b.clientEndpoint req) :=
      hcache _ _ (Function.update_self _ _ _)
    change (c = c ∧ registered req.vid.toNat = none ∧ _ ∧ _) ↔ _
    rw [hused, RouteOk]
    cases hreg : registered req.vid.toNat with
    | some id =>
      refine iff_of_false (fun hrouted => Option.some_ne_none _ hrouted.2.1) fun hlt => ?_
      rw [hostVid_eq_vid_iff.mpr hlt, hreg] at hnone
      cases hnone
    | none =>
      constructor
      · rintro ⟨-, -, ⟨-, haddr, hlen, himm⟩, e, he, -, -, -, hleads⟩
        simp only [UDOp.push, Nat.zero_mod] at haddr hlen himm
        cases he
        refine ⟨himm.symm, BitVec.eq_of_toNat_eq ?_, BitVec.eq_of_toNat_eq hlen.symm, hleads⟩
        change req.addr.toNat = 0
        omega
      · rintro ⟨hvid, haddr, hlen, hleads⟩
        refine ⟨rfl, rfl, ⟨hop, ?_, ?_, hvid.symm⟩, _, rfl, rfl, rfl, rfl, hleads⟩
        · simp [UDOp.push, haddr]
        · simp [UDOp.push, hlen]
  | @rc opCode id hid hop =>
    -- Over an RC: the one of the `vid` modulo twelve.
    change registered (hostVid req) = some id at hid
    change (c = c ∧ registered req.vid.toNat = some id ∧ _) ↔ _
    rw [RouteOk]
    cases hreg : registered req.vid.toNat with
    | none =>
      refine iff_of_false (fun hrouted => Option.some_ne_none _ hrouted.2.1.symm) fun hok => ?_
      have hvid : req.vid.toNat < hostLen := by
        rw [hok.1]
        decide
      rw [hostVid_eq_vid_iff.mpr hvid, hreg] at hid
      cases hid
    | some id' =>
      constructor
      · rintro ⟨-, -, -, -, -, hvid⟩
        exact ofNat_hostVid_iff.mp hvid
      · intro hlt
        rw [hostVid_eq_vid_iff.mpr hlt, hreg] at hid
        refine ⟨rfl, hid, hop, rfl, ?_, ofNat_hostVid_iff.mpr hlt⟩
        exact Nat.mod_eq_of_lt req.length.isLt

/-! ## A batch -/

/-- Cached endpoints stay, and a loop that ends in ok has gone over all requests. -/
theorem bindPushLoop_cache {idx : Nat} {reqs : List CoreReq} {b b' : BindLoop}
    {status : ReplyStatus} {ops : List DeviceOp}
    (h : bindPushLoop localMr rkey c registered ans idx reqs b = some (b', status, ops)) :
    (∀ vid e, b.clientEndpoint vid = some e → b'.clientEndpoint vid = some e) ∧
      (status = .ok → b'.clientEndpoint =
        reqs.foldl (cacheNext registered ans) b.clientEndpoint) := by
  induction reqs generalizing idx b b' status ops with
  | nil =>
    cases h
    exact ⟨fun _ _ he => he, fun _ => rfl⟩
  | cons req reqs ih =>
    simp only [bindPushLoop, Option.bind_eq_bind, Option.bind_eq_some_iff, Prod.exists] at h
    obtain ⟨b₁, op, hone, h⟩ := h
    have hnext := bindPushOne_cache hone
    split at h
    · simp only [Option.bind_eq_some_iff, Option.some.injEq, Prod.mk.injEq, Prod.exists] at h
      obtain ⟨b₂, status₂, ops₂, hrest, rfl, rfl, rfl⟩ := h
      obtain ⟨hkeeps, hfold⟩ := ih hrest
      refine ⟨fun vid e he => hkeeps vid e ?_, fun hok => ?_⟩
      · rw [hnext]
        exact cacheNext_keeps he
      · rw [hfold hok, hnext, List.foldl_cons]
    · cases h
      refine ⟨fun vid e he => ?_, fun hok => by cases hok⟩
      rw [hnext]
      exact cacheNext_keeps he

theorem bindPushLoop_routed_iff {idx : Nat} {reqs : List CoreReq} {b b' : BindLoop}
    {status : ReplyStatus} {ops : List DeviceOp}
    (h : bindPushLoop localMr rkey c registered ans idx reqs b = some (b', status, ops)) :
    List.Forall₂ (fun req op => Routed localMr c registered (messageOf ans req) b'.clientEndpoint req op)
        ((handedReqs ans.send idx reqs).map Prod.fst) ops ↔
      RoutesOk registered ans idx reqs b.clientEndpoint := by
  induction reqs generalizing idx b b' status ops with
  | nil =>
    cases h
    exact iff_of_true .nil trivial
  | cons req reqs ih =>
    simp only [bindPushLoop, Option.bind_eq_bind, Option.bind_eq_some_iff, Prod.exists] at h
    obtain ⟨b₁, op, hone, h⟩ := h
    rw [handedReqs, RoutesOk, ← bindPushOne_cache hone, List.map_cons]
    split at h
    · rename_i hans
      simp only [Option.bind_eq_some_iff, Option.some.injEq, Prod.mk.injEq, Prod.exists] at h
      obtain ⟨b₂, status₂, ops₂, hrest, rfl, rfl, rfl⟩ := h
      rw [if_pos hans, List.forall₂_cons, ih hrest,
        bindPushOne_routed_iff hone (bindPushLoop_cache hrest).1]
      exact and_congr_right fun _ => ⟨fun hok _ => hok, fun hok => hok hans⟩
    · rename_i hans
      cases h
      rw [if_neg hans, List.map_nil, List.forall₂_cons,
        bindPushOne_routed_iff hone fun _ _ he => he]
      exact and_congr_right fun _ => iff_of_true .nil fun hzero => absurd hzero hans

end FirstLoop

/-- What the second loop leaves alone: the cache, and the send queues. -/
structure Quiet (s : State) (r : Reply) : Prop where
  cache : r.state.clientEndpoint = s.clientEndpoint
  noSend : ∀ op ∈ r.ops, op.isSend = false

section SecondLoop

variable {c : Nat} {popAtOnce : Bool}

theorem quiet_reply (s : State) (status : ReplyStatus) : Quiet s (s.reply status) :=
  ⟨rfl, fun _ hop => (List.not_mem_nil hop).elim⟩

theorem Quiet.append {s : State} {r r' : Reply} (h : Quiet s r) (h' : Quiet r.state r') :
    Quiet s { r' with ops := r.ops ++ r'.ops } :=
  ⟨h'.cache.trans h.cache, List.forall_mem_append.mpr ⟨h.noSend, h'.noSend⟩⟩

theorem repost_quiet {s : State} {q : Queue} {cnt : Nat} {ans : PostAnswer} {comp : Bool} {r : Reply}
    (h : repost s c q cnt popAtOnce ans comp = some r) : Quiet s r := by
  unfold repost at h
  split at h
  · cases h
    exact quiet_reply s .ok
  · simp only [Option.bind_eq_bind, Option.bind_eq_some_iff] at h
    obtain ⟨r₁, hpost, h⟩ := h
    have hquiet : Quiet s r₁ := by
      simp only [State.postRecvs, Option.bind_eq_bind, Option.bind_eq_some_iff,
        Option.some.injEq] at hpost
      obtain ⟨_, -, rfl⟩ := hpost
      exact ⟨rfl, List.forall_mem_singleton.mpr rfl⟩
    split at h
    · split at h
      · cases h
        exact ⟨hquiet.cache,
          List.forall_mem_append.mpr ⟨hquiet.noSend, List.forall_mem_singleton.mpr rfl⟩⟩
      · cases h
    · cases h
      exact hquiet

theorem repostRc_quiet {s : State} {vid cnt : Nat} {ans : BindAnswers} {r : Reply}
    (h : repostRc s c vid cnt popAtOnce ans = some r) : Quiet s r := by
  unfold repostRc at h
  split at h
  · cases h
    exact quiet_reply s .ok
  · simp only [Option.bind_eq_bind, Option.bind_eq_some_iff] at h
    obtain ⟨_, -, h⟩ := h
    exact repost_quiet h

theorem bindRepost_quiet {b : BindLoop} {ans : BindAnswers} {vids : List Nat} {s : State} {r : Reply}
    (h : bindRepost c b popAtOnce ans vids s = some r) : Quiet s r := by
  induction vids generalizing s r with
  | nil =>
    cases h
    exact quiet_reply s .ok
  | cons vid vids ih =>
    simp only [bindRepost, Option.bind_eq_bind, Option.bind_eq_some_iff] at h
    obtain ⟨r₁, hud, h⟩ := h
    have hquiet := repost_quiet hud
    split at h
    · simp only [Option.bind_eq_some_iff] at h
      obtain ⟨r₂, hrc, h⟩ := h
      have hquiet₂ := hquiet.append (repostRc_quiet hrc)
      split at h
      · simp only [Option.bind_eq_some_iff, Option.some.injEq] at h
        obtain ⟨r₃, hrest, rfl⟩ := h
        exact hquiet₂.append (ih hrest)
      · cases h
        exact hquiet₂
    · cases h
      exact hquiet

end SecondLoop

/-- The requests that a batch hands over go where they should. -/
def BatchRouted (localMr : TempMR) (c : Nat) (registered : Nat → Option Nat) (ans : BindAnswers)
    (reqs : List CoreReq) (r : Reply) : Prop :=
  List.Forall₂
    (fun req op => Routed localMr c registered (messageOf ans req) r.state.clientEndpoint req op)
    ((handedReqs ans.send 0 reqs).map Prod.fst) (r.ops.filter DeviceOp.isSend)

theorem bindServerPushImpl_routed_iff {cfg : Config} {s : State} {port : Nat} {reqs : List CoreReq}
    {popAtOnce : Bool} {ans : BindAnswers} {r : Reply} {registered : Nat → Option Nat}
    (hreg : (s.ctrls (cfg.bindCtrl port)).registeredRcs = registered)
    (h : bindServerPushImpl cfg s port reqs popAtOnce ans = some r) :
    (BatchRouted s.vq.localCache.localMr (cfg.bindCtrl port) registered ans reqs r ↔
        RoutesOk registered ans 0 reqs s.clientEndpoint) ∧
      (r.status = .ok →
        r.state.clientEndpoint = reqs.foldl (cacheNext registered ans) s.clientEndpoint) := by
  subst hreg
  simp only [bindServerPushImpl, Option.bind_eq_bind, Option.bind_eq_some_iff, Prod.exists] at h
  obtain ⟨b, status, sends, hloop, h⟩ := h
  have hsends : sends.filter DeviceOp.isSend = sends := by
    obtain ⟨hsent, -⟩ := bindPushLoop_sent hloop
      (n := fun _ => 0) ⟨fun _ => (ite_self 0).symm, fun _ => (ite_self 0).symm⟩
    exact List.filter_eq_self.mpr hsent.isSend
  have hrouted := bindPushLoop_routed_iff hloop
  obtain ⟨-, hfold⟩ := bindPushLoop_cache hloop
  unfold BatchRouted
  split at h
  · rename_i hok
    simp only [Option.bind_eq_some_iff, Option.some.injEq] at h
    obtain ⟨r', hrepost, rfl⟩ := h
    have hquiet := bindRepost_quiet hrepost
    have hnone : r'.ops.filter DeviceOp.isSend = [] :=
      List.filter_eq_nil_iff.mpr fun op hop => by simp [hquiet.noSend op hop]
    simp only [List.filter_append, hsends, hnone, List.append_nil, hquiet.cache]
    exact ⟨hrouted, fun _ => hfold hok⟩
  · rename_i hne
    cases h
    simp only [hsends]
    exact ⟨hrouted, fun hok => absurd hok hne⟩

/-! ## Pushes -/

/-- The requests of all batches that are carried out can be routed. -/
def BatchesRoute (registered : Nat → Option Nat) (p : PushReq) (ans : PushAnswers) :
    List Nat → (Nat → Option EndPoint) → Prop
  | [], _ => True
  | k :: ks, cache =>
    RoutesOk registered (ans.bind k) 0 (p.batch k) cache ∧
      (BatchOk registered (ans.bind k) (p.batch k) →
        BatchesRoute registered p ans ks
          ((p.batch k).foldl (cacheNext registered (ans.bind k)) cache))

theorem pushReplies_routed_iff {cfg : Config} {p : PushReq} {ans : PushAnswers} {port : Nat}
    {localMr : TempMR} {registered : Nat → Option Nat} {ks : List Nat} {s : State} {rs : List Reply}
    (hbind : s.vq.bindPort = some port) (hmr : s.vq.localCache.localMr = localMr)
    (hreg : (s.ctrls (cfg.bindCtrl port)).registeredRcs = registered)
    (h : pushReplies cfg p ans ks s = some rs) :
    (∀ x ∈ ks.zip rs,
        BatchRouted localMr (cfg.bindCtrl port) registered (ans.bind x.1) (p.batch x.1) x.2) ↔
      BatchesRoute registered p ans ks s.clientEndpoint := by
  induction ks generalizing s rs with
  | nil => exact iff_of_true (fun x hx => (List.not_mem_nil hx).elim) trivial
  | cons k ks ih =>
    obtain ⟨r, hbatch, hcases⟩ := pushReplies_cons_eq_some h
    have hframe := pushBatch_frame hbatch
    simp only [pushBatch, hbind] at hbatch
    have hstatus := bindServerPushImpl_status hreg hbatch
    obtain ⟨hrouted, hfold⟩ := bindServerPushImpl_routed_iff hreg hbatch
    rw [hmr] at hrouted
    rw [BatchesRoute, ← hrouted]
    rcases hcases with ⟨herr, rfl⟩ | ⟨herr, rs', hrest, rfl⟩
    · rw [List.zip_cons_cons, List.zip_nil_right, List.forall_mem_singleton]
      refine ⟨fun hhead => ⟨hhead, fun hok => ?_⟩, And.left⟩
      rw [hstatus.mpr hok] at herr
      cases herr
    · have hok := (bindServerPushImpl_ok hbatch).1.resolve_right herr
      have hbind' : r.state.vq.bindPort = some port := by rw [hframe.vq, hbind]
      have hmr' : r.state.vq.localCache.localMr = localMr := by rw [hframe.vq, hmr]
      rw [List.zip_cons_cons, List.forall_mem_cons,
        ih hbind' hmr' ((hframe.registered _).trans hreg) hrest, hfold hok]
      exact and_congr_right fun _ => ⟨fun hall _ => hall, fun hall => hall (hstatus.mp hok)⟩

/-- Every request of a bind-mode Push goes where it should. -/
def RoutedPush (cfg : Config) (s : State) : Event → Prop
  | .ioctl _ _ (.push p ans) =>
    ∀ port, s.vq.bindPort = some port →
      ∀ rs, pushReplies cfg p ans (List.range p.batchCnt) s = some rs →
        ∀ x ∈ (List.range p.batchCnt).zip rs,
          BatchRouted s.vq.localCache.localMr (cfg.bindCtrl port)
            (s.ctrls (cfg.bindCtrl port)).registeredRcs (ans.bind x.1) (p.batch x.1) x.2
  | _ => True

/-- Every request that a bind-mode Push hands over can be routed. -/
def RoutablePush (cfg : Config) (s : State) : Event → Prop
  | .ioctl _ _ (.push p ans) =>
    ∀ port, s.vq.bindPort = some port →
      BatchesRoute (s.ctrls (cfg.bindCtrl port)).registeredRcs p ans (List.range p.batchCnt)
        s.clientEndpoint
  | _ => True

/-- In every run, whatever messages have come: all requests of all bind-mode Pushes go where
    they should, with what they should, if and only if all that are handed over can be
    routed. -/
theorem bind_routing_iff (cfg : Config) (s : State) (es : List Event) :
    Run.Guarded (step cfg) (RoutedPush cfg) s es ↔
      Run.Guarded (step cfg) (RoutablePush cfg) s es := by
  refine Run.guarded_congr fun s e s' hstep => ?_
  unfold RoutedPush RoutablePush
  split
  · rename_i arg replyBuf p ans
    simp only [step, ioctrl, Option.map_eq_some_iff] at hstep
    obtain ⟨r, hr, -⟩ := hstep
    refine forall₂_congr fun port hbind => ?_
    obtain ⟨rs, hrs, -⟩ := push_bind_eq_some hbind hr
    simp only [hrs, Option.some.injEq, forall_eq', pushReplies_routed_iff hbind rfl rfl hrs]
  · exact Iff.rfl

/-- A Push of one request, where the message has been written by a client with the given
    queue number. -/
def Call.sampleReply (vid qpn : BitVec 32) : Call :=
  .push (.sampleSync [.sample 3 0 vid])
    { PushAnswers.sample with
      bind := fun _ =>
        { BindAnswers.sample with message := fun _ => { (default : EndPoint) with qpn } } }

/-- The request is one of eight bytes. Over the UD nothing is sent, and without the `vid`; a
    client that has come back with the queue number 2 is answered at its old queue number;
    and a request for `vid` 13 goes over the RC of `vid` 1. -/
theorem bind_routing_astray :
    (∃ r wr, ioctrl (.sample .dct) .sampleBound 0 0 (.sampleReply 1 1) = some r ∧
        r.ops.head? = some (.send (.ud 0) (.ud wr) 0) ∧ wr.sge.length = 0 ∧ wr.immData = 0) ∧
      (∃ s r wr, step (.sample .dct) .sampleBound (.ioctl 0 0 (.sampleReply 1 1)) = some s ∧
        ioctrl (.sample .dct) s 0 0 (.sampleReply 1 2) = some r ∧
        r.ops.head? = some (.send (.ud 0) (.ud wr) 0) ∧ wr.remoteQpn = 1) ∧
      ∃ s r wr, step (.sample .dct) .sampleBound
          (.others (fun _ => { Ctrl.sample with
            registeredRcs := fun vid => if vid = 1 then some 7 else none }) RpcRing.sample) =
          some s ∧
        ioctrl (.sample .dct) s 0 0 (.sampleReply 13 1) = some r ∧
        r.ops.head? = some (.send (.trc 0 7) (.rdma wr) 0) ∧ wr.immData = 1 :=
  ⟨⟨_, _, rfl, rfl, rfl, rfl⟩, ⟨_, _, _, rfl, rfl, rfl, rfl⟩, ⟨_, _, _, rfl, rfl, rfl, rfl⟩⟩

end Ioctl
