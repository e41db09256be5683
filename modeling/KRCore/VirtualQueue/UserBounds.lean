-- SUMMARY: The memory that the offsets, lengths and payload sizes of the user lead to, and when it is registered memory.
import KRCore.Node.RecvLayout
import KRCore.VirtualQueue.BindRouting

/-!
# The bounds of user requests

The push paths add the offsets of the user to the addresses of two memory regions,
and PopMsgs copies as many bytes as the user says from the beginning of a receive
entry to behind them. Nothing is compared with the size of a region or an entry. A
server has no descriptor of its client's memory at all: it adds the remote offset to
the address of its own region. `user_ranges_inside_iff` says which requests and
payload sizes stay inside.
-/

/-- The memory that a descriptor names. -/
def TempMR.range (mr : TempMR) : MemRange := { addr := mr.addr.toNat, len := mr.capacity.toNat }

/-- The bytes from `addr` on lie in the memory of the descriptor, and their addresses do not
    wrap around. -/
structure TempMR.Covers (mr : TempMR) (addr len : Nat) : Prop where
  inside : MemRange.Inside { addr, len } mr.range
  fits : addr + len ≤ 2 ^ 64

/-- The offset and the length of a request, seen from a region: what begins at the offset
    from `base` lies in it. -/
def TempMR.HasRoom (mr : TempMR) (base off len : Nat) : Prop :=
  len = 0 ∨ (mr.addr.toNat ≤ base + off ∧
    base + off + len ≤ mr.addr.toNat + mr.capacity.toNat ∧ base + off + len ≤ 2 ^ 64)

theorem TempMR.covers_iff {mr : TempMR} {base off len : Nat} (h : base + off < 2 ^ 64) :
    mr.Covers (base + off) len ↔ mr.HasRoom base off len := by
  have hinside := @MemRange.inside_iff { addr := base + off, len } mr.range
  simp only [TempMR.range] at hinside
  constructor
  · rintro ⟨hin, hfits⟩
    rcases hinside.mp hin with hlen | ⟨hbegin, hend⟩
    · exact .inl hlen
    · exact .inr ⟨hbegin, hend, hfits⟩
  · rintro (hlen | ⟨hbegin, hend, hfits⟩)
    · exact ⟨hinside.mpr (.inl hlen), by omega⟩
    · exact ⟨hinside.mpr (.inr ⟨hbegin, hend⟩), hfits⟩

/-- The request names memory of the peer. -/
def CoreReq.oneSided (req : CoreReq) : Bool := (opCodeTable req.type).any WrOpcode.oneSided

/-- The request stays in the two regions, where its remote offset counts from `base`. -/
structure CoreReq.Fits (localMr remoteMr : TempMR) (base : Nat) (req : CoreReq) : Prop where
  localSide : localMr.HasRoom localMr.addr.toNat req.addr.toNat req.length.toNat
  remoteSide : req.oneSided = true →
    remoteMr.HasRoom base req.remoteAddr.toNat req.length.toNat

namespace Ioctl

/-! ## Work requests -/

/-- The physical address `pa` is where the local memory of a work request begins. An inline
    one has its virtual address. -/
def LocalAt (paToVa : Nat → Nat) (wr : SendWr) (pa : Nat) : Prop :=
  wr.sge.addr = if wr.sendFlags.inline then paToVa pa else pa

/-- The local memory of a work request, and the remote memory of a one-sided one, lie in the
    two regions. -/
structure WrInside (paToVa : Nat → Nat) (localMr remoteMr : TempMR) (wr : SendWr) : Prop where
  localSide : ∃ pa, LocalAt paToVa wr pa ∧ localMr.Covers pa wr.sge.length
  remoteSide : wr.opcode.oneSided = true → remoteMr.Covers wr.remoteAddr wr.sge.length

/-- The same for all kinds of work requests. A UD has no remote memory. -/
def SendRequest.Inside (paToVa : Nat → Nat) (localMr remoteMr : TempMR) : SendRequest → Prop
  | .rdma wr => WrInside paToVa localMr remoteMr wr
  | .dc wr => WrInside paToVa localMr remoteMr wr.toSendWr
  | .ud wr => localMr.Covers wr.sge.addr wr.sge.length

/-- A work request that was made of a request, with its remote address counted from `base`. -/
structure MadeOf (paToVa : Nat → Nat) (localMr : TempMR) (base : Nat) (req : CoreReq)
    (wr : SendWr) : Prop where
  opcode : opCodeTable req.type = some wr.opcode
  localAt : LocalAt paToVa wr (localMr.addr.toNat + req.addr.toNat)
  length : wr.sge.length = req.length.toNat
  remoteAddr : wr.remoteAddr = base + req.remoteAddr.toNat
  local_lt : localMr.addr.toNat + req.addr.toNat < 2 ^ 64
  remote_lt : base + req.remoteAddr.toNat < 2 ^ 64

theorem MadeOf.oneSided {paToVa : Nat → Nat} {localMr : TempMR} {base : Nat} {req : CoreReq}
    {wr : SendWr} (h : MadeOf paToVa localMr base req wr) :
    req.oneSided = wr.opcode.oneSided := by
  rw [CoreReq.oneSided, h.opcode, Option.any_some]

theorem MadeOf.inside_iff {paToVa : Nat → Nat} {localMr remoteMr : TempMR} {base : Nat}
    {req : CoreReq} {wr : SendWr} (hva : Function.Injective paToVa)
    (h : MadeOf paToVa localMr base req wr) :
    WrInside paToVa localMr remoteMr wr ↔ req.Fits localMr remoteMr base := by
  have hlocal := @TempMR.covers_iff localMr _ _ req.length.toNat h.local_lt
  have hremote := @TempMR.covers_iff remoteMr _ _ req.length.toNat h.remote_lt
  rw [← h.remoteAddr] at hremote
  constructor
  · rintro ⟨⟨pa, hpa, hcovers⟩, hcovers'⟩
    have heq : pa = localMr.addr.toNat + req.addr.toNat := by
      have hat := h.localAt
      unfold LocalAt at hpa hat
      split at hpa
      · exact hva (by simp_all)
      · simp_all
    subst heq
    rw [h.length] at hcovers hcovers'
    refine ⟨hlocal.mp hcovers, fun hside => hremote.mp (hcovers' ?_)⟩
    rw [← h.oneSided]
    exact hside
  · rintro ⟨hroom, hroom'⟩
    refine ⟨⟨_, h.localAt, ?_⟩, fun hside => ?_⟩
    · rw [h.length]
      exact hlocal.mpr hroom
    · rw [h.length]
      exact hremote.mpr (hroom' (h.oneSided.trans hside))

theorem rcWr_madeOf {paToVa : Nat → Nat} {localMr remoteMr : TempMR} {req : CoreReq} {wr : SendWr}
    (h : rcWr paToVa localMr remoteMr req = some wr) :
    MadeOf paToVa localMr remoteMr.addr.toNat req wr := by
  simp only [rcWr, sendParams, Option.map_eq_some_iff, Option.bind_eq_bind,
    Option.bind_eq_some_iff, Word.checkedAdd_eq_some] at h
  obtain ⟨p, ⟨_, ⟨hlocal, rfl⟩, _, ⟨hremote, rfl⟩, opCode, hop, hp⟩, rfl⟩ := h
  cases hp
  refine ⟨hop, ?_, Nat.mod_eq_of_lt req.length.isLt, Nat.add_comm _ _, hlocal, by omega⟩
  -- The address is virtual exactly if the flag is set.
  simp only [LocalAt, RCOp.pushWithImm, inlineCheck]
  split
  · cases opCode <;> rfl
  · rfl

theorem dcWr_madeOf {paToVa : Nat → Nat} {localMr : TempMR} {point : EndPoint} {req : CoreReq}
    {wr : DcWr} (h : dcWr paToVa localMr point req = some wr) :
    MadeOf paToVa localMr point.mr.addr.toNat req wr.toSendWr := by
  have hrc := @dcWr_toSendWr paToVa localMr point req
  rw [h, Option.map_some] at hrc
  obtain ⟨wr', hwr', heq⟩ := Option.map_eq_some_iff.mp hrc.symm
  have hmade := rcWr_madeOf hwr'
  rw [← heq]
  exact ⟨hmade.opcode, hmade.localAt, hmade.length, hmade.remoteAddr, hmade.local_lt,
    hmade.remote_lt⟩

theorem dcWr_isSome {paToVa : Nat → Nat} {localMr : TempMR} {point : EndPoint} (req : CoreReq) :
    (dcWr paToVa localMr point req).isSome = req.translatable localMr point.mr := by
  rw [dcWr, Option.isSome_map, Bool.eq_iff_iff, sendParams_isSome_iff]

/-! ## Batches in client mode -/

/-- What a loop posts for any answers satisfies `P` if what it makes of every request before
    the first panic does. -/
theorem forall_posted_iff {ω : Type} {build : CoreReq → Option ω} {P : ω → Prop}
    {reqs : List CoreReq} :
    (∀ ans, ∀ p ∈ (pushLoop build ans 0 reqs).posted, P p.1) ↔
      ∀ req ∈ reqs.takeWhile fun req => (build req).isSome, ∀ wr, build req = some wr → P wr := by
  constructor
  · intro h req hreq wr hwr
    exact h _ _ (mem_posted_of_accepting hreq hwr)
  · intro h ans p hp
    obtain ⟨req, hreq, hwr⟩ := exists_of_mem_posted hp
    exact h req hreq p.1 hwr

/-- `rc_push_impl`. -/
theorem rc_posted_inside_iff {paToVa : Nat → Nat} {localMr remoteMr : TempMR} {reqs : List CoreReq}
    (hva : Function.Injective paToVa) :
    (∀ ans, ∀ p ∈ (pushLoop (rcWr paToVa localMr remoteMr) ans 0 reqs).posted,
        WrInside paToVa localMr remoteMr p.1) ↔
      ∀ req ∈ reqs.takeWhile (·.translatable localMr remoteMr),
        req.Fits localMr remoteMr remoteMr.addr.toNat := by
  simp only [@forall_posted_iff SendWr _ (WrInside paToVa localMr remoteMr), rcWr_isSome]
  refine forall₂_congr fun req hreq => ?_
  have hsome : req.translatable localMr remoteMr = true := List.mem_takeWhile_imp hreq
  rw [← @rcWr_isSome paToVa] at hsome
  obtain ⟨wr, hwr⟩ := Option.isSome_iff_exists.mp hsome
  simp only [hwr, Option.some.injEq, forall_eq']
  exact (rcWr_madeOf hwr).inside_iff hva

/-- `dc_push_impl`: the DC makes the same of a request, apart from the immediate data. -/
theorem dc_posted_inside_iff {paToVa : Nat → Nat} {localMr : TempMR} {point : EndPoint}
    {reqs : List CoreReq} (hva : Function.Injective paToVa) :
    (∀ ans, ∀ p ∈ (pushLoop (dcWr paToVa localMr point) ans 0 reqs).posted,
        WrInside paToVa localMr point.mr p.1.toSendWr) ↔
      ∀ req ∈ reqs.takeWhile (·.translatable localMr point.mr),
        req.Fits localMr point.mr point.mr.addr.toNat := by
  simp only [@forall_posted_iff DcWr _ fun wr => WrInside paToVa localMr point.mr wr.toSendWr,
    dcWr_isSome]
  refine forall₂_congr fun req hreq => ?_
  have hsome : req.translatable localMr point.mr = true := List.mem_takeWhile_imp hreq
  rw [← @dcWr_isSome paToVa] at hsome
  obtain ⟨wr, hwr⟩ := Option.isSome_iff_exists.mp hsome
  simp only [hwr, Option.some.injEq, forall_eq']
  exact (dcWr_madeOf hwr).inside_iff hva

/-! ## Batches in bind mode -/

/-- The request gets to its send in bind mode. -/
def bindTranslatable (localMr : TempMR) (registered : Nat → Option Nat) (req : CoreReq) : Bool :=
  match registered (hostVid req) with
  | none => req.remoteAddr.toNat + udHeaderSz < 2 ^ 64 && req.type.toNat < 5
  | some _ => req.translatable localMr localMr

section Bind

variable {localMr : TempMR} {rkey : BitVec 32} {c : Nat} {registered : Nat → Option Nat}
  {ans : BindAnswers}

theorem bindPushOne_isSome_iff {idx : Nat} {req : CoreReq} {b : BindLoop} :
    (bindPushOne localMr rkey c registered ans idx req b).isSome = true ↔
      bindTranslatable localMr registered req = true := by
  have hop := opCodeTable_isSome_iff req.type
  simp only [bindPushOne, bindTranslatable, hostVid]
  cases registered (req.vid.toNat % hostLen) with
  | none =>
    simp only [bindPushUd, Word.checkedAdd, Option.bind_eq_bind, Bool.and_eq_true,
      decide_eq_true_eq, ← hop]
    split
    · cases opCodeTable req.type <;> simp_all
    · simp_all
  | some id =>
    simp only [bindPushRc, CoreReq.translatable, Word.checkedAdd, Option.bind_eq_bind,
      Bool.and_eq_true, decide_eq_true_eq, ← hop]
    split
    · split
      · cases opCodeTable req.type <;> simp_all
      · simp_all
    · simp_all

/-- What the first loop posts stems from the requests before the first panic. -/
theorem exists_of_mem_bindPushLoop {idx : Nat} {reqs : List CoreReq} {b b' : BindLoop}
    {status : ReplyStatus} {ops : List DeviceOp} {op : DeviceOp}
    (h : bindPushLoop localMr rkey c registered ans idx reqs b = some (b', status, ops))
    (hop : op ∈ ops) :
    ∃ req ∈ reqs.takeWhile (bindTranslatable localMr registered), ∃ idx b b',
      bindPushOne localMr rkey c registered ans idx req b = some (b', op) := by
  induction reqs generalizing idx b b' status ops with
  | nil =>
    cases h
    cases hop
  | cons req reqs ih =>
    simp only [bindPushLoop, Option.bind_eq_bind, Option.bind_eq_some_iff, Prod.exists] at h
    obtain ⟨b₁, op₁, hone, h⟩ := h
    have htrans : bindTranslatable localMr registered req = true :=
      bindPushOne_isSome_iff.mp (Option.isSome_iff_exists.mpr ⟨_, hone⟩)
    rw [List.takeWhile_cons_of_pos htrans]
    split at h
    · simp only [Option.bind_eq_some_iff, Option.some.injEq, Prod.mk.injEq, Prod.exists] at h
      obtain ⟨b₂, status₂, ops₂, hrest, rfl, rfl, rfl⟩ := h
      rcases List.mem_cons.mp hop with rfl | hop
      · exact ⟨req, List.mem_cons_self, idx, b, b₁, hone⟩
      · obtain ⟨req', hreq', hone'⟩ := ih hrest hop
        exact ⟨req', List.mem_cons_of_mem _ hreq', hone'⟩
    · cases h
      rw [List.mem_singleton.mp hop]
      exact ⟨req, List.mem_cons_self, idx, b, _, hone⟩

/-- If the driver refuses a request, the loop ends with its send. -/
theorem exists_bindPushLoop_refused {idx : Nat} {pre post : List CoreReq} {req : CoreReq}
    {b : BindLoop} (hpre : ∀ r ∈ pre, bindTranslatable localMr registered r = true)
    (hreq : bindTranslatable localMr registered req = true)
    (hok : ∀ i < pre.length, ans.send (idx + i) = 0) (herr : ans.send (idx + pre.length) ≠ 0) :
    ∃ b' ops b₁ b₂ op, bindPushLoop localMr rkey c registered ans idx (pre ++ req :: post) b =
        some (b', .err, ops) ∧
      op ∈ ops ∧ bindPushOne localMr rkey c registered ans (idx + pre.length) req b₁ =
        some (b₂, op) := by
  induction pre generalizing idx b with
  | nil =>
    have hsome := (@bindPushOne_isSome_iff localMr rkey c registered ans idx req b).mpr hreq
    obtain ⟨⟨b₁, op⟩, hone⟩ := Option.isSome_iff_exists.mp hsome
    refine ⟨b₁, [op], b, b₁, op, ?_, List.mem_singleton_self op, hone⟩
    simp only [List.nil_append, bindPushLoop, hone, Option.bind_eq_bind, Option.bind_some]
    exact if_neg herr
  | cons r pre ih =>
    have hsome := (@bindPushOne_isSome_iff localMr rkey c registered ans idx r b).mpr
      (hpre r List.mem_cons_self)
    obtain ⟨⟨b₁, op₁⟩, hone⟩ := Option.isSome_iff_exists.mp hsome
    have hshift : idx + (r :: pre).length = idx + 1 + pre.length := by
      rw [List.length_cons]
      omega
    rw [hshift] at herr ⊢
    have hfirst : ans.send idx = 0 := hok 0 (Nat.succ_pos _)
    obtain ⟨b', ops, b₂, b₃, op, hloop, hmem, hlast⟩ := @ih (idx + 1) b₁
      (fun x hx => hpre x (List.mem_cons_of_mem _ hx))
      (fun i hi => by
        have := hok (i + 1) (Nat.succ_lt_succ hi)
        rwa [Nat.add_comm i 1, ← Nat.add_assoc] at this) herr
    refine ⟨b', op₁ :: ops, b₂, b₃, op, ?_, List.mem_cons_of_mem _ hmem, hlast⟩
    simp only [List.cons_append, bindPushLoop, hone, Option.bind_eq_bind, Option.bind_some,
      if_pos hfirst, hloop]

/-- One request in bind mode. Over the UD no byte of the request is sent; over an RC the
    remote address counts from the local region, whatever region `peerMr` the peer has. -/
theorem bindPushOne_inside_iff {paToVa : Nat → Nat} {peerMr : Queue → TempMR} {idx : Nat}
    {req : CoreReq} {b b' : BindLoop} {op : DeviceOp} (hva : Function.Injective paToVa)
    (h : bindPushOne localMr rkey c registered ans idx req b = some (b', op)) :
    ∃ q wr errno, op = .send q wr errno ∧
      (wr.Inside paToVa localMr (peerMr q) ↔
        ∀ id, registered (hostVid req) = some id →
          req.Fits localMr (peerMr (.trc c id)) localMr.addr.toNat) := by
  have htrans : bindTranslatable localMr registered req = true :=
    bindPushOne_isSome_iff.mp (Option.isSome_iff_exists.mpr ⟨_, h⟩)
  cases bindPushOne_sent h with
  | ud hnone _ _ =>
    change registered (hostVid req) = none at hnone
    refine ⟨_, _, _, rfl, iff_of_true ?_ fun id hid => ?_⟩
    · exact ⟨MemRange.inside_iff.mpr (.inl rfl), Nat.le_of_lt localMr.addr.isLt⟩
    · exact absurd (hid.symm.trans hnone) (Option.some_ne_none id)
  | @rc opCode id hid hop =>
    change registered (hostVid req) = some id at hid
    refine ⟨_, _, _, rfl, ?_⟩
    simp only [hid, Option.some.injEq, forall_eq']
    rw [bindTranslatable, hid] at htrans
    simp only [CoreReq.translatable, Bool.and_eq_true, decide_eq_true_eq] at htrans
    refine MadeOf.inside_iff hva ⟨hop, rfl, Nat.mod_eq_of_lt req.length.isLt, Nat.add_comm _ _,
      htrans.1.1, ?_⟩
    rw [Nat.add_comm]
    exact htrans.1.2

end Bind

/-- The sends of a batch in bind mode are those of the first loop. -/
theorem bindServerPushImpl_sends {cfg : Config} {s : State} {port : Nat} {reqs : List CoreReq}
    {popAtOnce : Bool} {ans : BindAnswers} {r : Reply} {q : Queue} {wr : SendRequest} {errno : Int}
    (h : bindServerPushImpl cfg s port reqs popAtOnce ans = some r)
    (hop : .send q wr errno ∈ r.ops) :
    ∃ b status ops, bindPushLoop s.vq.localCache.localMr
        (cfg.machine.testMr (cfg.bindCtrl port)).rkey (cfg.bindCtrl port)
        (s.ctrls (cfg.bindCtrl port)).registeredRcs ans 0 reqs
        { clientEndpoint := s.clientEndpoint, rcPopCnt := fun _ => 0, udPopCnt := fun _ => 0 } =
          some (b, status, ops) ∧ .send q wr errno ∈ ops := by
  simp only [bindServerPushImpl, Option.bind_eq_bind, Option.bind_eq_some_iff, Prod.exists] at h
  obtain ⟨b, status, ops, hloop, h⟩ := h
  refine ⟨b, status, ops, hloop, ?_⟩
  split at h
  · simp only [Option.bind_eq_some_iff, Option.some.injEq] at h
    obtain ⟨r', hrepost, rfl⟩ := h
    rcases List.mem_append.mp hop with hop | hop
    · exact hop
    · have := (bindRepost_quiet hrepost).noSend _ hop
      simp [DeviceOp.isSend] at this
  · cases h
    exact hop

/-- Every request before the first panic gets posted, if the driver accepts what comes before
    it. -/
theorem exists_bindServerPushImpl_send {cfg : Config} {s : State} {port : Nat}
    {reqs : List CoreReq} {req : CoreReq}
    (hreq : req ∈ reqs.takeWhile (bindTranslatable s.vq.localCache.localMr
      (s.ctrls (cfg.bindCtrl port)).registeredRcs)) :
    ∃ ans r idx b b' op, bindServerPushImpl cfg s port reqs false ans = some r ∧ op ∈ r.ops ∧
      bindPushOne s.vq.localCache.localMr (cfg.machine.testMr (cfg.bindCtrl port)).rkey
        (cfg.bindCtrl port) (s.ctrls (cfg.bindCtrl port)).registeredRcs ans idx req b =
          some (b', op) := by
  obtain ⟨pre, post, hsplit⟩ := List.append_of_mem hreq
  have htrans : ∀ r ∈ pre ++ req :: post, bindTranslatable s.vq.localCache.localMr
      (s.ctrls (cfg.bindCtrl port)).registeredRcs r = true := by
    rw [← hsplit]
    exact fun r hr => List.mem_takeWhile_imp hr
  obtain ⟨rest, hreqs⟩ := List.takeWhile_prefix (l := reqs) (bindTranslatable
    s.vq.localCache.localMr (s.ctrls (cfg.bindCtrl port)).registeredRcs)
  rw [hsplit, List.append_assoc, List.cons_append] at hreqs
  -- The driver refuses the request itself, so that nothing is waited for.
  let ans : BindAnswers :=
    { BindAnswers.sample with send := fun i => if i < pre.length then 0 else -12 }
  obtain ⟨b', ops, b₁, b₂, op, hloop, hop, hone⟩ := @exists_bindPushLoop_refused
    s.vq.localCache.localMr (cfg.machine.testMr (cfg.bindCtrl port)).rkey (cfg.bindCtrl port)
    (s.ctrls (cfg.bindCtrl port)).registeredRcs ans 0 pre (post ++ rest) req
    { clientEndpoint := s.clientEndpoint, rcPopCnt := fun _ => 0, udPopCnt := fun _ => 0 }
    (fun r hr => htrans r (List.mem_append_left _ hr))
    (htrans req (List.mem_append_right _ List.mem_cons_self))
    (fun i hi => by simp [ans, hi]) (by simp [ans])
  refine ⟨ans, ⟨{ s with clientEndpoint := b'.clientEndpoint }, .err, ops⟩, _, b₁, b₂, op, ?_, hop,
    hone⟩
  rw [← hreqs, bindServerPushImpl, hloop]
  rfl

/-- `bind_server_push_impl`. -/
theorem bind_posted_inside_iff {cfg : Config} {peerMr : Queue → TempMR} {s : State} {port : Nat}
    {reqs : List CoreReq} (hva : Function.Injective cfg.paToVa) :
    (∀ popAtOnce ans r q wr errno, bindServerPushImpl cfg s port reqs popAtOnce ans = some r →
        .send q wr errno ∈ r.ops →
        wr.Inside cfg.paToVa s.vq.localCache.localMr (peerMr q)) ↔
      ∀ req ∈ reqs.takeWhile (bindTranslatable s.vq.localCache.localMr
          (s.ctrls (cfg.bindCtrl port)).registeredRcs),
        ∀ id, (s.ctrls (cfg.bindCtrl port)).registeredRcs (hostVid req) = some id →
          req.Fits s.vq.localCache.localMr (peerMr (.trc (cfg.bindCtrl port) id))
            s.vq.localCache.localMr.addr.toNat := by
  constructor
  · intro h req hreq
    obtain ⟨ans, r, idx, b, b', op, hpush, hop, hone⟩ := exists_bindServerPushImpl_send hreq
    obtain ⟨q, wr, errno, rfl, hiff⟩ := bindPushOne_inside_iff hva hone
    exact hiff.mp (h false ans r q wr errno hpush hop)
  · intro h popAtOnce ans r q wr errno hpush hop
    obtain ⟨b, status, ops, hloop, hop⟩ := bindServerPushImpl_sends hpush hop
    obtain ⟨req, hreq, idx, b₁, b₂, hone⟩ := exists_of_mem_bindPushLoop hloop hop
    obtain ⟨_, _, _, heq, hiff⟩ := bindPushOne_inside_iff hva hone
    cases heq
    exact hiff.mpr (h req hreq)

/-! ## All push paths -/

/-- The work requests that a batch can post, with the descriptor of the remote memory: the
    one that the peer of the RC has sent, or the one in the remote endpoint. In bind mode
    the server knows no such descriptor, and it is the region `peerMr` that the peer of the
    accepted RC has. -/
inductive Posts (cfg : Config) (peerMr : Queue → TempMR) (s : State) (reqs : List CoreReq) :
    TempMR → SendRequest → Prop
  | rc {rc : RC} {ans : Nat → Int} {p : SendWr × Int} (hbind : s.vq.bindPort = none)
      (hrc : s.vq.virtualQueue = some rc)
      (hp : p ∈ (s.vq.rcPushImpl cfg.paToVa cfg.remoteMr reqs ans).posted) :
      Posts cfg peerMr s reqs (cfg.remoteMr rc.id) (.rdma p.1)
  | dc {point : EndPoint} {ans : Nat → Int} {p : DcWr × Int} (hbind : s.vq.bindPort = none)
      (hrc : s.vq.virtualQueue = none) (hpoint : s.vq.localCache.remoteEndpoint = some point)
      (hp : p ∈ (s.vq.dcPushImpl cfg.paToVa reqs ans).posted) :
      Posts cfg peerMr s reqs point.mr (.dc p.1)
  | bind {port : Nat} {popAtOnce : Bool} {ans : BindAnswers} {r : Reply} {q : Queue}
      {wr : SendRequest} {errno : Int} (hbind : s.vq.bindPort = some port)
      (hpush : bindServerPushImpl cfg s port reqs popAtOnce ans = some r)
      (hop : .send q wr errno ∈ r.ops) : Posts cfg peerMr s reqs (peerMr q) wr

/-- The requests before the first panic stay in the regions, apart from those that go over
    the UD. In bind mode the remote offset counts from the region of the server. -/
def RequestsFit (cfg : Config) (peerMr : Queue → TempMR) (s : State) (reqs : List CoreReq) : Prop :=
  let localMr := s.vq.localCache.localMr
  match s.vq.bindPort, s.vq.virtualQueue with
  | some port, _ =>
    let registered := (s.ctrls (cfg.bindCtrl port)).registeredRcs
    ∀ req ∈ reqs.takeWhile (bindTranslatable localMr registered),
      ∀ id, registered (hostVid req) = some id →
        req.Fits localMr (peerMr (.trc (cfg.bindCtrl port) id)) localMr.addr.toNat
  | none, some rc =>
    ∀ req ∈ reqs.takeWhile (·.translatable localMr (cfg.remoteMr rc.id)),
      req.Fits localMr (cfg.remoteMr rc.id) (cfg.remoteMr rc.id).addr.toNat
  | none, none =>
    ∀ d point, s.vq.localDc = some d → s.vq.localCache.remoteEndpoint = some point →
      ∀ req ∈ reqs.takeWhile (·.translatable localMr point.mr),
        req.Fits localMr point.mr point.mr.addr.toNat

section Modes

variable {cfg : Config} {peerMr : Queue → TempMR} {s : State} {reqs : List CoreReq}
  (hva : Function.Injective cfg.paToVa)
include hva

theorem posts_inside_bind_iff {port : Nat} (hbind : s.vq.bindPort = some port) :
    (∀ mr wr, Posts cfg peerMr s reqs mr wr → wr.Inside cfg.paToVa s.vq.localCache.localMr mr) ↔
      ∀ req ∈ reqs.takeWhile (bindTranslatable s.vq.localCache.localMr
          (s.ctrls (cfg.bindCtrl port)).registeredRcs),
        ∀ id, (s.ctrls (cfg.bindCtrl port)).registeredRcs (hostVid req) = some id →
          req.Fits s.vq.localCache.localMr (peerMr (.trc (cfg.bindCtrl port) id))
            s.vq.localCache.localMr.addr.toNat := by
  rw [← bind_posted_inside_iff hva]
  constructor
  · intro h popAtOnce ans r q wr errno hpush hop
    exact h _ wr (.bind hbind hpush hop)
  · rintro h mr wr (⟨hnone, -, -⟩ | ⟨hnone, -, -, -⟩ | ⟨hport, hpush, hop⟩)
    · exact absurd (hbind.symm.trans hnone) (Option.some_ne_none _)
    · exact absurd (hbind.symm.trans hnone) (Option.some_ne_none _)
    · obtain rfl := Option.some.inj (hport.symm.trans hbind)
      exact h _ _ _ _ _ _ hpush hop

theorem posts_inside_rc_iff {rc : RC} (hbind : s.vq.bindPort = none)
    (hrc : s.vq.virtualQueue = some rc) :
    (∀ mr wr, Posts cfg peerMr s reqs mr wr → wr.Inside cfg.paToVa s.vq.localCache.localMr mr) ↔
      ∀ req ∈ reqs.takeWhile (·.translatable s.vq.localCache.localMr (cfg.remoteMr rc.id)),
        req.Fits s.vq.localCache.localMr (cfg.remoteMr rc.id)
          (cfg.remoteMr rc.id).addr.toNat := by
  have himpl : ∀ ans, s.vq.rcPushImpl cfg.paToVa cfg.remoteMr reqs ans =
      pushLoop (rcWr cfg.paToVa s.vq.localCache.localMr (cfg.remoteMr rc.id)) ans 0 reqs := by
    intro ans
    rw [VQ.rcPushImpl, hrc]
  rw [← rc_posted_inside_iff hva]
  constructor
  · intro h ans p hp
    exact h _ (.rdma p.1) (.rc hbind hrc (himpl ans ▸ hp))
  · rintro h mr wr (⟨-, hrc', hp⟩ | ⟨-, hnone, -, -⟩ | ⟨hport, -, -⟩)
    · obtain rfl := Option.some.inj (hrc'.symm.trans hrc)
      rw [himpl] at hp
      exact h _ _ hp
    · exact absurd (hrc.symm.trans hnone) (Option.some_ne_none _)
    · exact absurd (hport.symm.trans hbind) (Option.some_ne_none _)

theorem posts_inside_dc_iff (hbind : s.vq.bindPort = none) (hrc : s.vq.virtualQueue = none) :
    (∀ mr wr, Posts cfg peerMr s reqs mr wr → wr.Inside cfg.paToVa s.vq.localCache.localMr mr) ↔
      ∀ d point, s.vq.localDc = some d → s.vq.localCache.remoteEndpoint = some point →
        ∀ req ∈ reqs.takeWhile (·.translatable s.vq.localCache.localMr point.mr),
          req.Fits s.vq.localCache.localMr point.mr point.mr.addr.toNat := by
  have himpl : ∀ d point, s.vq.localDc = some d → s.vq.localCache.remoteEndpoint = some point →
      ∀ ans, s.vq.dcPushImpl cfg.paToVa reqs ans =
        pushLoop (dcWr cfg.paToVa s.vq.localCache.localMr point) ans 0 reqs := by
    intro d point hdc hpoint ans
    rw [VQ.dcPushImpl, hdc, hpoint]
  simp only [← dc_posted_inside_iff hva]
  constructor
  · intro h d point hdc hpoint ans p hp
    exact h _ (.dc p.1) (.dc hbind hrc hpoint (himpl d point hdc hpoint ans ▸ hp))
  · rintro h mr wr (⟨-, hsome, -⟩ | ⟨-, -, hpoint, hp⟩ | ⟨hport, -, -⟩)
    · exact absurd (hsome.symm.trans hrc) (Option.some_ne_none _)
    · cases hdc : s.vq.localDc with
      | none => simp [VQ.dcPushImpl, hdc] at hp
      | some d =>
        rw [himpl d _ hdc hpoint] at hp
        exact h d _ hdc hpoint _ _ hp
    · exact absurd (hport.symm.trans hbind) (Option.some_ne_none _)

theorem posts_inside_iff :
    (∀ mr wr, Posts cfg peerMr s reqs mr wr → wr.Inside cfg.paToVa s.vq.localCache.localMr mr) ↔
      RequestsFit cfg peerMr s reqs := by
  unfold RequestsFit
  cases hbind : s.vq.bindPort with
  | some port => exact posts_inside_bind_iff hva hbind
  | none =>
    cases hrc : s.vq.virtualQueue with
    | some rc => exact posts_inside_rc_iff hva hbind hrc
    | none => exact posts_inside_dc_iff hva hbind hrc

end Modes

/-! ## A whole Push -/

/-- The sends of a batch are posted on one of the three paths. -/
theorem pushBatch_posts {cfg : Config} {p : PushReq} {ans : PushAnswers} {k : Nat} {s : State}
    {r : Reply} {q : Queue} {wr : SendRequest} {errno : Int} (peerMr : Queue → TempMR)
    (h : pushBatch cfg p ans k s = some r) (hop : .send q wr errno ∈ r.ops) :
    ∃ mr, Posts cfg peerMr s (p.batch k) mr wr := by
  unfold pushBatch at h
  split at h
  · rename_i port hbind
    exact ⟨_, .bind hbind h hop⟩
  · rename_i hbind
    unfold clientPush at h
    split at h
    · rename_i rc hrc
      simp only [Option.map_eq_some_iff] at h
      obtain ⟨status, -, rfl⟩ := h
      obtain ⟨posted, hp, heq⟩ := List.mem_map.mp hop
      cases heq
      exact ⟨_, .rc hbind hrc hp⟩
    · rename_i hrc
      simp only [Option.map_eq_some_iff] at h
      obtain ⟨status, -, rfl⟩ := h
      cases hdc : s.vq.localDc with
      | none => simp [hdc] at hop
      | some d =>
        simp only [hdc, Option.elim_some] at hop
        obtain ⟨posted, hp, heq⟩ := List.mem_map.mp hop
        cases heq
        cases hpoint : s.vq.localCache.remoteEndpoint with
        | none => simp [VQ.dcPushImpl, hdc, hpoint] at hp
        | some point => exact ⟨_, .dc hbind hrc hpoint hp⟩

theorem pushBatches_posts {cfg : Config} {p : PushReq} {ans : PushAnswers} {ks : List Nat}
    {s : State} {ret : ReplyStatus} {r : Reply} {q : Queue} {wr : SendRequest} {errno : Int}
    (peerMr : Queue → TempMR) (h : pushBatches cfg p ans ks s ret = some r)
    (hop : .send q wr errno ∈ r.ops) :
    ∃ s' k mr, Frame s s' ∧ Posts cfg peerMr s' (p.batch k) mr wr := by
  induction ks generalizing s ret r with
  | nil =>
    cases h
    cases hop
  | cons k ks ih =>
    obtain ⟨r₁, hbatch, ⟨-, rfl⟩ | ⟨-, r₂, hrest, rfl⟩⟩ := pushBatches_cons_eq_some h
    · obtain ⟨mr, hposts⟩ := pushBatch_posts peerMr hbatch hop
      exact ⟨s, k, mr, .refl s, hposts⟩
    · rcases List.mem_append.mp hop with hop | hop
      · obtain ⟨mr, hposts⟩ := pushBatch_posts peerMr hbatch hop
        exact ⟨s, k, mr, .refl s, hposts⟩
      · obtain ⟨s', k', mr, hframe, hposts⟩ := ih hrest hop
        exact ⟨s', k', mr, (pushBatch_frame hbatch).trans hframe, hposts⟩

theorem pushRecvFirst_noSend {cfg : Config} {s : State} {p : PushReq} {ans : PushAnswers}
    {r : Reply} (h : pushRecvFirst cfg s p ans = some r) : ∀ op ∈ r.ops, op.isSend = false := by
  by_cases hbind : s.vq.bindPort = none
  · rcases pushRecvFirst_client hbind h with ⟨-, rfl⟩ | ⟨-, ⟨-, rfl⟩ | ⟨-, q, c, slots, hops, -⟩⟩
    · exact fun op hop => (List.not_mem_nil hop).elim
    · exact fun op hop => (List.not_mem_nil hop).elim
    · rw [hops]
      intro op hop
      rw [List.mem_singleton.mp hop]
      rfl
  · rw [pushRecvFirst, if_neg fun hand => hbind hand.1] at h
    cases h
    exact fun op hop => (List.not_mem_nil hop).elim

theorem pushWait_send {r r' : Reply} {p : PushReq} {comp : Bool} {q : Queue} {wr : SendRequest}
    {errno : Int} (h : pushWait r p comp = some r') (hop : .send q wr errno ∈ r'.ops) :
    .send q wr errno ∈ r.ops := by
  unfold pushWait at h
  split at h
  · simp only [Option.bind_eq_bind, Option.bind_eq_some_iff] at h
    obtain ⟨q', -, h⟩ := h
    split at h
    · cases h
      simpa using hop
    · cases h
  · cases h
    exact hop

/-- The bounds only depend on the queue and the accepted RCs. -/
theorem Frame.requestsFit_iff {cfg : Config} {peerMr : Queue → TempMR} {s s' : State}
    (h : Frame s s') {reqs : List CoreReq} :
    RequestsFit cfg peerMr s' reqs ↔ RequestsFit cfg peerMr s reqs := by
  simp only [RequestsFit, h.vq, h.registered]

/-- A Push whose requests stay in the regions posts nothing outside of them. -/
theorem push_inside {cfg : Config} {peerMr : Queue → TempMR} {s : State} {arg : Nat} {p : PushReq}
    {ans : PushAnswers} {r : Reply} {q : Queue} {wr : SendRequest} {errno : Int}
    (hva : Function.Injective cfg.paToVa) (h : push cfg s arg p ans = some r)
    (hfit : ∀ k, RequestsFit cfg peerMr s (p.batch k)) (hop : .send q wr errno ∈ r.ops) :
    ∃ s' k mr, Frame s s' ∧ Posts cfg peerMr s' (p.batch k) mr wr ∧
      wr.Inside cfg.paToVa s.vq.localCache.localMr mr := by
  simp only [push, Option.bind_eq_bind, Option.bind_eq_some_iff] at h
  obtain ⟨_, -, _, -, r₁, hfirst, r₂, hbatches, hwait⟩ := h
  rcases List.mem_append.mp (pushWait_send hwait hop) with hop | hop
  · have := pushRecvFirst_noSend hfirst _ hop
    cases this
  · obtain ⟨s', k, mr, hframe, hposts⟩ := pushBatches_posts peerMr hbatches hop
    have hframe := (pushRecvFirst_frame hfirst).trans hframe
    refine ⟨s', k, mr, hframe, hposts, ?_⟩
    rw [← hframe.vq]
    exact (posts_inside_iff hva).mpr (hframe.requestsFit_iff.mpr (hfit k)) mr wr hposts

/-! ## The payloads of PopMsgs -/

/-- A receive entry whose completion is handled, with its virtual address, which is the
    `wr_id`. The receive CQ of a controller also gets the completions of its RPC client. -/
structure RecvEntry where
  user : RecvUser
  va : BitVec 64
deriving DecidableEq, Repr

def RecvEntry.size (e : RecvEntry) : Nat :=
  match e.user with
  | .rctrl => maxKmallocSz / ctrlRingSize
  | .rpcClient => rpcSlotSz

def RecvEntry.range (e : RecvEntry) : MemRange := { addr := e.va.toNat, len := e.size }

/-- `memcpy(va + payload_sz, va, payload_sz)` stays in the entry. -/
structure RecvEntry.CopyInside (e : RecvEntry) (payloadSz : Nat) : Prop where
  dst : MemRange.Inside { addr := e.va.toNat + payloadSz, len := payloadSz } e.range
  src : MemRange.Inside { addr := e.va.toNat, len := payloadSz } e.range

theorem RecvEntry.copyInside_iff {e : RecvEntry} {payloadSz : Nat} :
    e.CopyInside payloadSz ↔ payloadSz = 0 ∨ 2 * payloadSz ≤ e.size := by
  constructor
  · rintro ⟨hdst, -⟩
    have := MemRange.inside_iff.mp hdst
    simp only [RecvEntry.range] at this
    omega
  · intro h
    refine ⟨MemRange.inside_iff.mpr ?_, MemRange.inside_iff.mpr ?_⟩
    · simp only [RecvEntry.range]
      omega
    · simp only [RecvEntry.range]
      omega

/-- The entries for which `handle_pop_ret` gets to the copy, from number `i` on. -/
def copied (replyBuf wcAddr wcSz payloadSz : Nat) : Nat → List RecvEntry → List RecvEntry
  | _, [] => []
  | i, e :: es =>
    if wcAddr + i * wcSz < 2 ^ 64 ∧ e.va.toNat + payloadSz < 2 ^ 64 then
      e :: if replyBuf + (replySz + i * userWcSz) < 2 ^ 64 then
        copied replyBuf wcAddr wcSz payloadSz (i + 1) es
      else []
    else []

/-- A call that gets to its reply has made all copies. -/
theorem copied_of_popAddrs {replyBuf wcAddr wcSz payloadSz i : Nat} {es : List RecvEntry}
    (h : popAddrs replyBuf wcAddr wcSz payloadSz i (es.map (·.va.toNat)) = some ()) :
    copied replyBuf wcAddr wcSz payloadSz i es = es := by
  induction es generalizing i with
  | nil => rfl
  | cons e es ih =>
    simp only [List.map_cons, popAddrs, Option.bind_eq_bind, Option.bind_eq_some_iff,
      Word.checkedAdd_eq_some] at h
    obtain ⟨_, ⟨hwc, -⟩, _, ⟨hva, -⟩, _, ⟨hreply, -⟩, hrest⟩ := h
    rw [copied, if_pos ⟨hwc, hva⟩, if_pos hreply, ih hrest]

/-- In every state, whatever regions the peers of the accepted RCs have, for every batch and
    every PopMsgs: the work requests stay in the memory of the descriptors and the copies in
    the receive entries if and only if the requests and the payload size say so. -/
theorem user_ranges_inside_iff (cfg : Config) (peerMr : Queue → TempMR)
    (hva : Function.Injective cfg.paToVa) (s : State) (reqs : List CoreReq)
    (c replyBuf payloadSz : Nat) (entries : List RecvEntry) :
    ((∀ mr wr, Posts cfg peerMr s reqs mr wr →
          wr.Inside cfg.paToVa s.vq.localCache.localMr mr) ∧
        ∀ e ∈ copied replyBuf (cfg.wcAddr c) cfg.wcSz payloadSz 0 entries,
          e.CopyInside payloadSz) ↔
      RequestsFit cfg peerMr s reqs ∧
        ∀ e ∈ copied replyBuf (cfg.wcAddr c) cfg.wcSz payloadSz 0 entries,
          payloadSz = 0 ∨ 2 * payloadSz ≤ e.size :=
  and_congr (posts_inside_iff hva) (forall₂_congr fun _ _ => RecvEntry.copyInside_iff)

/-- The endpoint of a peer with a region of 4096 bytes. -/
def boundedPeer : EndPoint :=
  { (default : EndPoint) with mr := { addr := 0, capacity := 4096, rkey := 0 } }

/-- A write of eight bytes at an offset of the local region. -/
def writeAt (addr : BitVec 64) (vid : BitVec 32) : CoreReq := { CoreReq.sample 1 0 vid with addr }

/-- A queue that is connected to the peer. -/
theorem exists_connected_peer :
    ∃ s, Run.exec (step (.sample .dct)) State.sample
        [.ioctl 0 0 (.sampleConnect 0 (.ok boundedPeer))] = some s ∧
      s.vq.bindPort = none ∧ s.vq.virtualQueue = none ∧ s.vq.localDc = some 0 ∧
      s.vq.localCache.remoteEndpoint = some (boundedPeer.new 1) ∧
      s.vq.localCache.localMr = { addr := 0, capacity := 0x400000, rkey := 0 } :=
  ⟨_, rfl, rfl, rfl, rfl, rfl, rfl⟩

/-- At offset zero it stays in the regions, and a payload of 256 bytes in an RPC entry. -/
theorem write_at_zero_inside :
    ∃ s, Run.exec (step (.sample .dct)) State.sample
        [.ioctl 0 0 (.sampleConnect 0 (.ok boundedPeer))] = some s ∧
      (∀ mr wr, Posts (.sample .dct) default s [writeAt 0 0] mr wr →
        wr.Inside id s.vq.localCache.localMr mr) ∧
      ∀ e ∈ copied 0 0 64 256 0 [⟨.rpcClient, 0⟩], e.CopyInside 256 := by
  obtain ⟨s, hrun, hbind, hrc, hdc, hpoint, hmr⟩ := exists_connected_peer
  refine ⟨s, hrun, (user_ranges_inside_iff (.sample .dct) default Function.injective_id s
    [writeAt 0 0] 0 0 256 [⟨.rpcClient, 0⟩]).mpr ⟨?_, ?_⟩⟩
  · simp only [RequestsFit, hbind, hrc, hpoint, hmr, Option.some.injEq]
    rintro _ _ - rfl req hreq
    rw [List.mem_singleton.mp ((List.takeWhile_sublist _).subset hreq)]
    exact ⟨.inr ⟨by decide, by decide, by decide⟩, fun _ => .inr ⟨by decide, by decide, by decide⟩⟩
  · intro e he
    rw [List.mem_singleton.mp he]
    exact .inr (by decide)

/-- A server at port 0 that has accepted an RC under `vid` 1. -/
def State.sampleServing : State :=
  { State.sampleBound with
    ctrls := fun _ => { Ctrl.sample with
      registeredRcs := fun vid => if vid = 1 then some 7 else none } }

/-- A write at the end of the local region reads behind it; a server writes at the address of
    its own region, which need not be in that of its client; and a payload of 2 MiB is copied
    behind its receive entry. -/
theorem write_behind_region :
    (∃ s mr wr, Run.exec (step (.sample .dct)) State.sample
        [.ioctl 0 0 (.sampleConnect 0 (.ok boundedPeer))] = some s ∧
      Posts (.sample .dct) default s [writeAt 0x400000 0] mr wr ∧
      ¬ wr.Inside id s.vq.localCache.localMr mr) ∧
    (∃ mr wr, Posts (.sample .dct) (fun _ => { addr := 0x10000000, capacity := 4096, rkey := 0 })
        .sampleServing [writeAt 0 1] mr wr ∧
      ¬ wr.Inside id State.sampleServing.vq.localCache.localMr mr) ∧
    ∃ e ∈ copied 0 0 64 0x200000 0 [⟨.rctrl, 0⟩], ¬ e.CopyInside 0x200000 := by
  refine ⟨?_, ?_, ?_⟩
  · obtain ⟨s, hrun, hbind, hrc, hdc, hpoint, hmr⟩ := exists_connected_peer
    have hnot : ¬ RequestsFit (.sample .dct) default s [writeAt 0x400000 0] := by
      intro h
      simp only [RequestsFit, hbind, hrc, hpoint, hdc, hmr, Option.some.injEq] at h
      -- The offset is the capacity of the region.
      have hroom := (h 0 _ rfl rfl (writeAt 0x400000 0) (by decide)).localSide
      revert hroom
      unfold TempMR.HasRoom
      decide
    rw [← posts_inside_iff Function.injective_id] at hnot
    push Not at hnot
    obtain ⟨mr, wr, hposts, hout⟩ := hnot
    exact ⟨s, mr, wr, hrun, hposts, hout⟩
  · have hnot : ¬ RequestsFit (.sample .dct)
        (fun _ => { addr := 0x10000000, capacity := 4096, rkey := 0 }) .sampleServing
        [writeAt 0 1] := by
      intro h
      -- The region of the server starts at 0, and the client has nothing there.
      have hroom := (h (writeAt 0 1) (by decide) 7 rfl).remoteSide rfl
      revert hroom
      unfold TempMR.HasRoom
      decide
    rw [← posts_inside_iff Function.injective_id] at hnot
    push Not at hnot
    exact hnot
  · refine ⟨⟨.rctrl, 0⟩, by decide, ?_⟩
    rw [RecvEntry.copyInside_iff]
    decide

end Ioctl
