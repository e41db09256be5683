-- SUMMARY: A client-mode Push hands its requests over in order, across all batches, up to the first refused one.
import Mathlib.Data.List.Range
import KRCore.VirtualQueue.PushBatch

/-!
# The order of a client-mode Push

The outer loop of a Push cuts the requests of the user into batches of 64, and the
inner loop translates and posts the requests of a batch. Together they do what one
loop over the whole list would do: what is handed to the send queue is the list up
to the first request that the driver refuses. An address that overflows on the way
stops the call with a panic.
-/

/-! ## The loop over a list -/

section Loop

variable {ω : Type} {build : CoreReq → Option ω}

/-- The requests that a loop hands over, with the answers to them. -/
def handedReqs (ans : Nat → Int) : Nat → List CoreReq → List (CoreReq × Int)
  | _, [] => []
  | idx, req :: reqs =>
    (req, ans idx) :: if ans idx = 0 then handedReqs ans (idx + 1) reqs else []

/-- How many of `n` requests are handed over, from number `idx` on: those up to the first
    that is refused. -/
def handedOver (ans : Nat → Int) (idx n : Nat) : Nat :=
  min n (((List.range' idx n).map ans).findIdx (fun errno => errno ≠ 0) + 1)

theorem handedOver_succ (ans : Nat → Int) (idx n : Nat) :
    handedOver ans idx (n + 1) = if ans idx = 0 then handedOver ans (idx + 1) n + 1 else 1 := by
  unfold handedOver
  rw [List.range'_succ, List.map_cons, List.findIdx_cons]
  by_cases hans : ans idx = 0
  · simp only [hans, ne_eq, not_true_eq_false, decide_false, cond_false, if_true]
    omega
  · simp [hans]

theorem handedReqs_eq (ans : Nat → Int) (idx : Nat) (reqs : List CoreReq) :
    handedReqs ans idx reqs =
      ((reqs.take (handedOver ans idx reqs.length)).zipIdx idx).map fun p => (p.1, ans p.2) := by
  induction reqs generalizing idx with
  | nil => simp [handedReqs]
  | cons req reqs ih =>
    rw [handedReqs, List.length_cons, handedOver_succ]
    by_cases hans : ans idx = 0
    · rw [if_pos hans, if_pos hans, ih, List.take_succ_cons, List.zipIdx_cons, List.map_cons]
    · simp [hans]

theorem handedReqs_map_fst (ans : Nat → Int) (idx : Nat) (reqs : List CoreReq) :
    (handedReqs ans idx reqs).map Prod.fst = reqs.take (handedOver ans idx reqs.length) := by
  rw [handedReqs_eq, List.map_map]
  exact List.zipIdx_map_fst ..

theorem handedReqs_length (ans : Nat → Int) (idx : Nat) (reqs : List CoreReq) :
    (handedReqs ans idx reqs).length = handedOver ans idx reqs.length := by
  have hle : handedOver ans idx reqs.length ≤ reqs.length := Nat.min_le_left _ _
  rw [handedReqs_eq, List.length_map, List.length_zipIdx, List.length_take_of_le hle]

/-- A loop gets to its reply exactly if all that it hands over can be built. It replies err
    exactly if a request was refused, and it posts what it hands over. -/
theorem pushLoop_eq (ans : Nat → Int) (idx : Nat) (reqs : List CoreReq) :
    ((pushLoop build ans idx reqs).reply.isSome = true ↔
        ∀ p ∈ handedReqs ans idx reqs, (build p.1).isSome = true) ∧
      ∀ status, (pushLoop build ans idx reqs).reply = some status →
        (pushLoop build ans idx reqs).posted.map some =
            (handedReqs ans idx reqs).map (fun p => (build p.1).map fun wr => (wr, p.2)) ∧
          status = if ∃ i < reqs.length, ans (idx + i) ≠ 0 then .err else .ok := by
  induction reqs generalizing idx with
  | nil =>
    refine ⟨by simp [pushLoop, handedReqs], fun status h => ?_⟩
    cases h
    simp [pushLoop, handedReqs]
  | cons req reqs ih =>
    unfold pushLoop handedReqs
    cases hb : build req with
    | none => simp [hb]
    | some wr =>
      by_cases hans : ans idx = 0
      · obtain ⟨hsome, hrest⟩ := ih (idx + 1)
        simp only [hans, if_true, List.mem_cons, forall_eq_or_imp, hb, Option.isSome_some, true_and]
        refine ⟨hsome, fun status hstatus => ?_⟩
        obtain ⟨hposted, hstatus⟩ := hrest status hstatus
        refine ⟨by simp [hposted, hb], ?_⟩
        rw [hstatus]
        congr 1
        rw [eq_iff_iff, List.length_cons]
        constructor
        · rintro ⟨i, hi, hne⟩
          refine ⟨i + 1, Nat.succ_lt_succ hi, ?_⟩
          rwa [Nat.add_comm i 1, ← Nat.add_assoc]
        · rintro ⟨i, hi, hne⟩
          cases i with
          | zero => exact absurd hans hne
          | succ i =>
            refine ⟨i, Nat.lt_of_succ_lt_succ hi, ?_⟩
            rwa [Nat.add_assoc, Nat.add_comm 1 i]
      · simp only [hans, if_false, List.mem_singleton, forall_eq, hb, Option.isSome_some,
          Option.some.injEq, true_and]
        rintro status rfl
        refine ⟨by simp [hb], ?_⟩
        rw [if_pos ⟨0, Nat.succ_pos _, hans⟩]

/-- The loop only looks at the answers to its own requests. -/
theorem pushLoop_congr {ans ans' : Nat → Int} {idx idx' : Nat} {reqs : List CoreReq}
    (h : ∀ i < reqs.length, ans (idx + i) = ans' (idx' + i)) :
    pushLoop build ans idx reqs = pushLoop build ans' idx' reqs := by
  induction reqs generalizing idx idx' with
  | nil => rfl
  | cons req reqs ih =>
    have hhead : ans idx = ans' idx' := h 0 (Nat.succ_pos _)
    have hrest : pushLoop build ans (idx + 1) reqs = pushLoop build ans' (idx' + 1) reqs :=
        ih fun i hi => by
      have := h (i + 1) (Nat.succ_lt_succ hi)
      rwa [Nat.add_comm i 1, ← Nat.add_assoc, ← Nat.add_assoc] at this
    unfold pushLoop
    rw [hhead, hrest]

/-- A loop over two lists is the loop over the first and, if it replies ok, the loop over
    the second. -/
theorem pushLoop_append (ans : Nat → Int) (idx : Nat) (reqs reqs' : List CoreReq) :
    pushLoop build ans idx (reqs ++ reqs') =
      if (pushLoop build ans idx reqs).reply = some .ok then
        { posted := (pushLoop build ans idx reqs).posted ++
            (pushLoop build ans (idx + reqs.length) reqs').posted
          reply := (pushLoop build ans (idx + reqs.length) reqs').reply }
      else pushLoop build ans idx reqs := by
  induction reqs generalizing idx with
  | nil => simp [pushLoop]
  | cons req reqs ih =>
    have hrest := ih (idx + 1)
    rw [Nat.add_assoc, Nat.add_comm 1] at hrest
    rw [List.cons_append, List.length_cons]
    generalize pushLoop build ans (idx + (reqs.length + 1)) reqs' = second at hrest ⊢
    unfold pushLoop
    cases build req with
    | none => simp
    | some wr =>
      by_cases hans : ans idx = 0
      · simp only [hans, if_true, hrest]
        split <;> rfl
      · simp [hans]

/-- A loop that replies ok has posted everything. -/
theorem pushLoop_posted_length {ans : Nat → Int} {idx : Nat} {reqs : List CoreReq}
    (h : (pushLoop build ans idx reqs).reply = some .ok) :
    (pushLoop build ans idx reqs).posted.length = reqs.length := by
  induction reqs generalizing idx with
  | nil => rfl
  | cons req reqs ih =>
    unfold pushLoop at h ⊢
    cases hb : build req with
    | none =>
      rw [hb] at h
      cases h
    | some wr =>
      simp only [hb] at h ⊢
      split at h
      · rename_i hans
        simp only [hans, if_true, List.length_cons] at h ⊢
        rw [ih h]
      · cases h

/-- A loop that replies err has posted at least the refused request. -/
theorem pushLoop_posted_length_of_err {ans : Nat → Int} {idx : Nat} {reqs : List CoreReq}
    (h : (pushLoop build ans idx reqs).reply = some .err) :
    1 ≤ (pushLoop build ans idx reqs).posted.length ∧
      (pushLoop build ans idx reqs).posted.length ≤ reqs.length := by
  induction reqs generalizing idx with
  | nil => cases h
  | cons req reqs ih =>
    unfold pushLoop at h ⊢
    cases hb : build req with
    | none =>
      rw [hb] at h
      cases h
    | some wr =>
      simp only [hb] at h ⊢
      split at h
      · rename_i hans
        simp only [hans, if_true, List.length_cons] at h ⊢
        have := (ih h).2
        omega
      · rename_i hans
        simp only [hans, if_false, List.length_cons, List.length_nil]
        omega

end Loop

namespace Ioctl

/-! ## One Push, one loop -/

/-- The answer to request number `i` of a Push. -/
def PushAnswers.sendAt (ans : PushAnswers) (i : Nat) : Int :=
  ans.send (i / defaultBatchSz) (i % defaultBatchSz)

/-- The memory that the requests of a client-mode Push go to. -/
def targetMr (cfg : Config) (vq : VQ) : Option TempMR :=
  match vq.virtualQueue with
  | some rc => some (cfg.remoteMr rc.id)
  | none => vq.localCache.remoteEndpoint.map EndPoint.mr

/-- The work request that a client-mode Push makes of a request. -/
def translate (cfg : Config) (vq : VQ) (req : CoreReq) : Option SendRequest :=
  match vq.virtualQueue with
  | some rc => (rcWr cfg.paToVa vq.localCache.localMr (cfg.remoteMr rc.id) req).map .rdma
  | none => vq.localCache.remoteEndpoint.bind fun point =>
      (dcWr cfg.paToVa vq.localCache.localMr point req).map .dc

/-- The queue is connected: its requests go to `q`, the RC or the DC, and it knows where
    they lead. -/
structure ConnectedOver (vq : VQ) (q : Queue) : Prop where
  target : sendTarget vq = some q
  endpoint : vq.virtualQueue = none → vq.localCache.remoteEndpoint.isSome = true

/-- A batch is the loop with the translation. -/
theorem clientPush_eq {cfg : Config} {s : State} {q : Queue} (hconn : ConnectedOver s.vq q)
    (reqs : List CoreReq) (ans : Nat → Int) :
    clientPush cfg s reqs ans =
      (pushLoop (translate cfg s.vq) ans 0 reqs).reply.map fun status =>
        { state := s, status,
          ops := (pushLoop (translate cfg s.vq) ans 0 reqs).posted.map fun p => .send q p.1 p.2 } := by
  obtain ⟨htarget, hpoint⟩ := hconn
  unfold sendTarget at htarget
  unfold clientPush
  cases hrc : s.vq.virtualQueue with
  | some rc =>
    rw [hrc] at htarget
    cases htarget
    have hbuild : ∀ req, translate cfg s.vq req =
        (rcWr cfg.paToVa s.vq.localCache.localMr (cfg.remoteMr rc.id) req).map .rdma := by
      intro req
      simp only [translate, hrc]
    rw [pushLoop_map hbuild]
    simp only [VQ.rcPushImpl, hrc, Pushed.map, List.map_map]
    rfl
  | none =>
    rw [hrc] at htarget
    simp only [Option.map_eq_some_iff] at htarget
    obtain ⟨d, hdc, rfl⟩ := htarget
    obtain ⟨point, hpoint⟩ := Option.isSome_iff_exists.mp (hpoint hrc)
    have hbuild : ∀ req, translate cfg s.vq req =
        (dcWr cfg.paToVa s.vq.localCache.localMr point req).map .dc := by
      intro req
      simp only [translate, hrc, hpoint, Option.bind_some]
    rw [pushLoop_map hbuild]
    simp only [VQ.dcPushImpl, hdc, hpoint, Pushed.map, List.map_map, Option.elim_some]
    rfl

theorem translate_isSome_iff {cfg : Config} {vq : VQ} {q : Queue} (hconn : ConnectedOver vq q)
    (req : CoreReq) :
    (translate cfg vq req).isSome = true ↔
      ∃ mr ∈ targetMr cfg vq, req.translatable vq.localCache.localMr mr = true := by
  unfold translate targetMr
  cases hrc : vq.virtualQueue with
  | some rc => simp [rcWr_isSome]
  | none =>
    obtain ⟨point, hpoint⟩ := Option.isSome_iff_exists.mp (hconn.endpoint hrc)
    simp [hpoint, dcWr, sendParams_isSome_iff]

theorem PushReq.drop_eq_batch_append (p : PushReq) (k : Nat) :
    p.reqs.drop (k * defaultBatchSz) = p.batch k ++ p.reqs.drop ((k + 1) * defaultBatchSz) := by
  rw [PushReq.batch, Nat.succ_mul, ← List.drop_drop, List.take_append_drop]

/-- A batch that is not full is the last one. -/
theorem PushReq.batch_full_or_last (p : PushReq) (k : Nat) :
    (p.batch k).length = defaultBatchSz ∨ p.reqs.drop ((k + 1) * defaultBatchSz) = [] := by
  by_cases hrest : (k + 1) * defaultBatchSz ≤ p.reqs.length
  · refine .inl ?_
    rw [PushReq.batch, List.length_take, List.length_drop]
    simp only [defaultBatchSz] at hrest ⊢
    omega
  · exact .inr (List.drop_eq_nil_of_le (Nat.le_of_not_le hrest))

theorem PushReq.batch_length_pos {p : PushReq} {k : Nat}
    (h : k * defaultBatchSz < p.reqs.length) : 1 ≤ (p.batch k).length := by
  rw [PushReq.batch, List.length_take, List.length_drop]
  simp only [defaultBatchSz] at h ⊢
  omega

/-- The loop from batch `k` on: this batch, and if it replies ok the next ones. -/
theorem pushLoop_drop {ω : Type} (build : CoreReq → Option ω) (ans : Nat → Int) (p : PushReq)
    (k : Nat) :
    pushLoop build ans (k * defaultBatchSz) (p.reqs.drop (k * defaultBatchSz)) =
      let first := pushLoop build ans (k * defaultBatchSz) (p.batch k)
      let rest := pushLoop build ans ((k + 1) * defaultBatchSz)
        (p.reqs.drop ((k + 1) * defaultBatchSz))
      if first.reply = some .ok then
        { posted := first.posted ++ rest.posted, reply := rest.reply }
      else first := by
  have hrest : pushLoop build ans (k * defaultBatchSz + (p.batch k).length)
        (p.reqs.drop ((k + 1) * defaultBatchSz)) =
      pushLoop build ans ((k + 1) * defaultBatchSz)
        (p.reqs.drop ((k + 1) * defaultBatchSz)) := by
    rcases p.batch_full_or_last k with hfull | hnil
    · rw [hfull, Nat.succ_mul]
    · rw [hnil]
      rfl
  rw [p.drop_eq_batch_append k, pushLoop_append, hrest]

/-- The loop over a batch finds the answers to its requests. -/
theorem PushAnswers.sendAt_batch (ans : PushAnswers) (k : Nat) {i : Nat} (h : i < defaultBatchSz) :
    ans.sendAt (k * defaultBatchSz + i) = ans.send k i := by
  have hpos : 0 < defaultBatchSz := Nat.lt_of_le_of_lt (Nat.zero_le i) h
  rw [sendAt, Nat.mul_comm, Nat.mul_add_div hpos, Nat.mul_add_mod, Nat.div_eq_of_lt h,
    Nat.mod_eq_of_lt h, Nat.add_zero]

/-- Where the requests from batch `k` on lie in user memory does not overflow, for the
    batches that begin below request number `n`. -/
def ListFits (p : PushReq) (k n : Nat) : Prop :=
  ∀ j, k ≤ j → j * defaultBatchSz < n →
    p.reqList.toNat + j * defaultBatchSz * coreReqSz < 2 ^ 64

/-- The first batch and the others. A batch that is not full is the last. -/
theorem listFits_iff {p : PushReq} {k len rest : Nat} (hpos : 1 ≤ len)
    (hfull : len = defaultBatchSz ∨ len ≤ defaultBatchSz ∧ rest = 0) :
    ListFits p k (k * defaultBatchSz + len + rest) ↔
      p.reqList.toNat + k * defaultBatchSz * coreReqSz < 2 ^ 64 ∧
        ListFits p (k + 1) ((k + 1) * defaultBatchSz + rest) := by
  unfold ListFits
  simp only [defaultBatchSz] at hfull ⊢
  constructor
  · intro h
    refine ⟨h k (Nat.le_refl k) (by omega), fun j hj hlt => h j (by omega) (by omega)⟩
  · rintro ⟨hhead, hrest⟩ j hj hlt
    rcases Nat.eq_or_lt_of_le hj with rfl | hj
    · exact hhead
    · exact hrest j hj (by omega)

theorem listFits_empty {p : PushReq} {k n : Nat} (h : n ≤ k * defaultBatchSz) : ListFits p k n :=
  fun _ hj hlt => absurd (Nat.mul_le_mul_right defaultBatchSz hj) (by omega)

theorem listFits_single_iff {p : PushReq} {k len : Nat} (hpos : 1 ≤ len)
    (hle : len ≤ defaultBatchSz) :
    ListFits p k (k * defaultBatchSz + len) ↔
      p.reqList.toNat + k * defaultBatchSz * coreReqSz < 2 ^ 64 := by
  have h := @listFits_iff p k len 0 hpos (.inr ⟨hle, rfl⟩)
  rw [Nat.add_zero, Nat.add_zero] at h
  rw [h]
  exact and_iff_left (listFits_empty (Nat.le_refl _))

theorem status_of_pushLoop {ω : Type} {build : CoreReq → Option ω} {ans : Nat → Int} {idx : Nat}
    {reqs : List CoreReq} {status : ReplyStatus}
    (h : (pushLoop build ans idx reqs).reply = some status) : status = .ok ∨ status = .err := by
  have hstatus := ((pushLoop_eq ans idx reqs).2 status h).2
  split at hstatus
  · exact .inr hstatus
  · exact .inl hstatus

/-- A batch of a connected queue: it replies err and is the last, or it replies ok. -/
theorem pushBatches_cons_client_iff {cfg : Config} {p : PushReq} {ans : PushAnswers} {s : State}
    {q : Queue} (hbind : s.vq.bindPort = none) (hconn : ConnectedOver s.vq q) (k : Nat)
    (ks : List Nat) (ret : ReplyStatus) (r : Reply) :
    let first := pushLoop (translate cfg s.vq) ans.sendAt (k * defaultBatchSz) (p.batch k)
    let ops := first.posted.map fun p => DeviceOp.send q p.1 p.2
    pushBatches cfg p ans (k :: ks) s ret = some r ↔
      p.reqList.toNat + k * defaultBatchSz * coreReqSz < 2 ^ 64 ∧
        (first.reply = some .err ∧ r = { state := s, status := .err, ops } ∨
          first.reply = some .ok ∧ ∃ r₂, pushBatches cfg p ans ks s .ok = some r₂ ∧
            r = { r₂ with ops := ops ++ r₂.ops }) := by
  intro first ops
  have hone : pushLoop (translate cfg s.vq) (ans.send k) 0 (p.batch k) = first := by
    refine pushLoop_congr fun i hi => ?_
    rw [ans.sendAt_batch k (Nat.lt_of_lt_of_le hi (p.batch_length_le k)), Nat.zero_add]
  have hbatch : pushBatch cfg p ans k s =
      first.reply.map fun status => { state := s, status, ops } := by
    simp only [pushBatch, hbind, clientPush_eq hconn, hone]
    rfl
  by_cases hfit : p.reqList.toNat + k * defaultBatchSz * coreReqSz < 2 ^ 64
  · have hadd := Word.checkedAdd_eq_some.mpr ⟨hfit, rfl⟩
    simp only [pushBatches, hadd, hbatch, hfit, true_and, Option.bind_eq_bind, Option.bind_some]
    cases hreply : first.reply with
    | none => simp
    | some status =>
      rcases status_of_pushLoop hreply with rfl | rfl
      · simp only [Option.map_some, Option.bind_some, Option.some.injEq, reduceCtorEq, if_false,
          false_and, false_or, true_and, Option.bind_eq_some_iff]
        exact exists_congr fun r₂ => and_congr_right fun _ => eq_comm
      · simp [eq_comm]
  · have hadd : Word.checkedAdd 64 p.reqList.toNat (k * defaultBatchSz * coreReqSz) = none :=
      if_neg hfit
    simp only [pushBatches, hadd, hfit, Option.bind_eq_bind, Option.bind_none, reduceCtorEq,
      false_and]

/-- The batches from number `k` on do what the loop over the remaining requests does. -/
theorem pushBatches_client_iff {cfg : Config} {p : PushReq} {ans : PushAnswers} {s : State}
    {q : Queue} (hbind : s.vq.bindPort = none) (hconn : ConnectedOver s.vq q) {m k : Nat}
    (hk : p.reqs.length ≤ (k + m) * defaultBatchSz)
    (hm : m ≠ 0 → (k + m - 1) * defaultBatchSz < p.reqs.length) (ret : ReplyStatus) (r : Reply) :
    let out := pushLoop (translate cfg s.vq) ans.sendAt (k * defaultBatchSz)
      (p.reqs.drop (k * defaultBatchSz))
    pushBatches cfg p ans (List.range' k m) s ret = some r ↔
      ListFits p k (k * defaultBatchSz + out.posted.length) ∧
        ∃ status, out.reply = some status ∧
          r = { state := s, status := if m = 0 then ret else status,
                ops := out.posted.map fun p => .send q p.1 p.2 } := by
  induction m generalizing k ret r with
  | zero =>
    have hnil : p.reqs.drop (k * defaultBatchSz) = [] :=
      List.drop_eq_nil_of_le (by simpa using hk)
    simp only [hnil, pushLoop, List.length_nil, List.map_nil, if_true]
    rw [List.range'_zero, pushBatches, Option.some.injEq]
    constructor
    · rintro rfl
      exact ⟨listFits_empty (Nat.le_refl _), .ok, rfl, rfl⟩
    · rintro ⟨-, status, -, rfl⟩
      rfl
  | succ m ih =>
    have hlast := hm (Nat.succ_ne_zero m)
    have hih := fun ret r => ih (k := k + 1) (by rwa [Nat.add_right_comm])
      (fun hne => by simpa only [Nat.add_right_comm k 1 m, Nat.add_assoc] using hlast) ret r
    simp only [List.range'_succ, pushBatches_cons_client_iff hbind hconn, hih]
    rw [pushLoop_drop _ _ p k]
    generalize hfirst : pushLoop (translate cfg s.vq) ans.sendAt (k * defaultBatchSz) (p.batch k) =
      first
    generalize hrest : pushLoop (translate cfg s.vq) ans.sendAt ((k + 1) * defaultBatchSz)
      (p.reqs.drop ((k + 1) * defaultBatchSz)) = rest
    cases hreply : first.reply with
    | none => simp [hreply]
    | some status =>
      rw [← hfirst] at hreply
      rcases status_of_pushLoop hreply with rfl | rfl
      · -- The batch replies ok: all its requests are posted, and the next batch begins.
        have hposted := pushLoop_posted_length hreply
        rw [hfirst] at hreply hposted
        have hpos : 1 ≤ (p.batch k).length := by
          refine PushReq.batch_length_pos (Nat.lt_of_le_of_lt ?_ hlast)
          exact Nat.mul_le_mul_right _ (by omega)
        have hlast' : (p.batch k).length = defaultBatchSz ∨
            (p.batch k).length ≤ defaultBatchSz ∧ rest.posted.length = 0 := by
          rcases p.batch_full_or_last k with hfull | hnil
          · exact .inl hfull
          · rw [← hrest, hnil]
            exact .inr ⟨p.batch_length_le k, rfl⟩
        have hstatus : ∀ status, rest.reply = some status →
            (if m = 0 then ReplyStatus.ok else status) = status := by
          intro status hst
          split
          · rename_i hzero
            rw [← hrest, List.drop_eq_nil_of_le (by simpa only [hzero] using hk)] at hst
            exact Option.some.inj hst
          · rfl
        simp only [hreply, if_true, Option.some.injEq, reduceCtorEq, false_and, false_or, true_and,
          List.length_append, hposted, ← Nat.add_assoc, listFits_iff hpos hlast', List.map_append,
          Nat.succ_ne_zero, if_false]
        constructor
        · rintro ⟨hhead, r₂, ⟨hfits, st, hst, rfl⟩, rfl⟩
          exact ⟨⟨hhead, hfits⟩, st, hst, by rw [hstatus st hst]⟩
        · rintro ⟨⟨hhead, hfits⟩, st, hst, rfl⟩
          exact ⟨hhead, _, ⟨hfits, st, hst, rfl⟩, by rw [hstatus st hst]⟩
      · -- The batch replies err: it is the last one.
        obtain ⟨hpos', hle⟩ := pushLoop_posted_length_of_err hreply
        rw [hfirst] at hreply hpos' hle
        simp only [hreply, Option.some.injEq, reduceCtorEq, if_false, true_and, false_and, or_false,
          listFits_single_iff hpos' (hle.trans (p.batch_length_le k)), Nat.succ_ne_zero,
          exists_eq_left']

/-! ## The whole Push -/

/-- The addresses of a request do not overflow, on this side and on the other. -/
def AddressesFit (cfg : Config) (vq : VQ) (req : CoreReq) : Prop :=
  ∃ mr ∈ targetMr cfg vq, vq.localCache.localMr.addr.toNat + req.addr.toNat < 2 ^ 64 ∧
    req.remoteAddr.toNat + mr.addr.toNat < 2 ^ 64

theorem translate_isSome_iff_addressesFit {cfg : Config} {vq : VQ} {q : Queue}
    (hconn : ConnectedOver vq q) {req : CoreReq} (htype : req.type.toNat < 5) :
    (translate cfg vq req).isSome = true ↔ AddressesFit cfg vq req := by
  rw [translate_isSome_iff hconn]
  simp only [AddressesFit, CoreReq.translatable, htype, decide_true, Bool.and_true,
    Bool.and_eq_true, decide_eq_true_eq]

/-- The requests of a Push that are handed to the send queue, as they should be: the
    translations of the first requests in the order of the list, each once, up to the first
    that is refused, with the answers. -/
def inOrder (cfg : Config) (vq : VQ) (q : Queue) (p : PushReq) (ans : PushAnswers) :
    List (Option DeviceOp) :=
  ((p.reqs.take (handedOver ans.sendAt 0 p.reqs.length)).zipIdx).map fun r =>
    (translate cfg vq r.1).map fun wr => .send q wr (ans.sendAt r.2)

/-- The number of batches is right. -/
theorem PushReq.batchCnt_spec (p : PushReq) :
    p.reqs.length ≤ (0 + p.batchCnt) * defaultBatchSz ∧
      (p.batchCnt ≠ 0 → (0 + p.batchCnt - 1) * defaultBatchSz < p.reqs.length) ∧
      (p.batchCnt = 0 ↔ p.reqs = []) := by
  rw [← List.length_eq_zero_iff]
  unfold batchCnt
  simp only [defaultBatchSz]
  omega

/-- For every connected client-mode queue, list of requests of the five types, and answers of
    the driver: the sending stage of a Push hands over the requests in order up to the first
    refused one, and ends in err exactly if one was refused, if and only if no address of
    these requests overflows, nor the address of a batch of them in user memory. -/
theorem push_in_order_iff (cfg : Config) (s : State) (p : PushReq) (ans : PushAnswers)
    (ret : ReplyStatus) {q : Queue} (hbind : s.vq.bindPort = none) (hconn : ConnectedOver s.vq q)
    (htype : ∀ req ∈ p.reqs, req.type.toNat < 5) :
    (∃ r, pushBatches cfg p ans (List.range p.batchCnt) s ret = some r ∧
        r.ops.map some = inOrder cfg s.vq q p ans ∧
        r.status = if ∃ i < p.reqs.length, ans.sendAt i ≠ 0 then .err
          else if p.reqs = [] then ret else .ok) ↔
      (∀ req ∈ p.reqs.take (handedOver ans.sendAt 0 p.reqs.length), AddressesFit cfg s.vq req) ∧
        ∀ k, k * defaultBatchSz < handedOver ans.sendAt 0 p.reqs.length →
          p.reqList.toNat + k * defaultBatchSz * coreReqSz < 2 ^ 64 := by
  obtain ⟨hk, hm, hzero⟩ := p.batchCnt_spec
  have hflat := @pushBatches_client_iff cfg p ans s q hbind hconn _ 0 hk hm ret
  simp only [Nat.zero_mul, List.drop_zero, Nat.zero_add, ← List.range_eq_range'] at hflat
  have hloop := @pushLoop_eq _ (translate cfg s.vq) ans.sendAt 0 p.reqs
  generalize pushLoop (translate cfg s.vq) ans.sendAt 0 p.reqs = out at hflat hloop
  obtain ⟨hsome, hdone⟩ := hloop
  have hlen : ∀ status, out.reply = some status →
      out.posted.length = handedOver ans.sendAt 0 p.reqs.length := by
    intro status hstatus
    have := congrArg List.length (hdone status hstatus).1
    rwa [List.length_map, List.length_map, handedReqs_length] at this
  have hops : ∀ status, out.reply = some status →
      (out.posted.map fun p => DeviceOp.send q p.1 p.2).map some = inOrder cfg s.vq q p ans := by
    intro status hstatus
    have hmap := congrArg (List.map (Option.map fun p => DeviceOp.send q p.1 p.2))
      (hdone status hstatus).1
    rw [handedReqs_eq] at hmap
    simpa [inOrder, Function.comp_def] using hmap
  have hbuilt : out.reply.isSome = true ↔
      ∀ req ∈ p.reqs.take (handedOver ans.sendAt 0 p.reqs.length), AddressesFit cfg s.vq req := by
    rw [hsome, ← handedReqs_map_fst, List.forall_mem_map]
    refine forall₂_congr fun r hr => ?_
    have hmem : r.1 ∈ p.reqs := by
      refine List.mem_of_mem_take (i := handedOver ans.sendAt 0 p.reqs.length) ?_
      rw [← handedReqs_map_fst]
      exact List.mem_map_of_mem hr
    exact translate_isSome_iff_addressesFit hconn (htype _ hmem)
  have hstatus : ∀ status, out.reply = some status →
      (if p.batchCnt = 0 then ret else status) =
        if ∃ i < p.reqs.length, ans.sendAt i ≠ 0 then .err
        else if p.reqs = [] then ret else .ok := by
    intro status hst
    have hval := (hdone status hst).2
    simp only [Nat.zero_add] at hval
    rw [hval]
    by_cases hnil : p.reqs = []
    · simp [hzero.mpr hnil, hnil]
    · rw [if_neg (hzero.not.mpr hnil), if_neg hnil]
  constructor
  · rintro ⟨r, hrun, -, -⟩
    obtain ⟨hfits, status, hst, -⟩ := (hflat r).mp hrun
    rw [hlen status hst] at hfits
    exact ⟨hbuilt.mp (Option.isSome_iff_exists.mpr ⟨status, hst⟩), fun k => hfits k (Nat.zero_le k)⟩
  · rintro ⟨haddr, hfits⟩
    obtain ⟨status, hst⟩ := Option.isSome_iff_exists.mp (hbuilt.mpr haddr)
    refine ⟨_, (hflat _).mpr ⟨fun k _ => ?_, status, hst, rfl⟩, hops status hst, hstatus status hst⟩
    rw [hlen status hst]
    exact hfits k

/-- A queue that is connected over an RC, with its memory at 4096. -/
def State.sampleConnected : State :=
  { State.sample with
    vq := { VQ.sampleBoth with
      localCache := { VQ.sampleBoth.localCache with
        localMr := { addr := 4096, capacity := 8, rkey := 0 } } } }

theorem State.sampleConnected_over :
    ConnectedOver State.sampleConnected.vq (.rc 0 0) :=
  ⟨rfl, fun h => nomatch h⟩

/-- A Push of a write and a read, of which the driver refuses the second. -/
theorem push_in_order_refused :
    ∃ (p : PushReq) (ans : PushAnswers) (r : Reply), p.reqs.length = 2 ∧
      pushBatches (.sample .dct) p ans (List.range p.batchCnt) .sampleConnected .ok = some r ∧
      r.ops.map some = inOrder (.sample .dct) State.sampleConnected.vq (.rc 0 0) p ans ∧
      r.status = .err := by
  let p : PushReq := { reqList := 0, reqs := [.sample 1 0 0, .sample 0 1 0], pushRecvCnt := 0,
                       popRes := 0, reqLen_lt := by simp }
  let ans : PushAnswers := { PushAnswers.sample with send := fun _ i => if i = 1 then -12 else 0 }
  obtain ⟨r, hrun, hops, hstatus⟩ := (push_in_order_iff (.sample .dct) .sampleConnected p ans .ok
    rfl State.sampleConnected_over (by decide)).mpr (by
      refine ⟨?_, ?_⟩
      · intro req hreq
        have hmem : req = .sample 1 0 0 ∨ req = .sample 0 1 0 := by
          simpa [p] using List.mem_of_mem_take hreq
        rcases hmem with rfl | rfl <;> exact ⟨_, rfl, by decide⟩
      · intro k hk
        have hle : k * 64 < 2 := hk.trans_le (Nat.min_le_left _ _)
        have hzero : k = 0 := by omega
        rw [hzero]
        decide)
  refine ⟨p, ans, r, rfl, hrun, hops, hstatus.trans (if_pos ⟨1, by decide, by decide⟩)⟩

/-- A request whose offset wraps round stops the call: nothing is posted and no reply made. -/
theorem push_stops_at_overflow :
    ∃ p : PushReq, p.reqs = [{ CoreReq.sample 0 1 0 with addr := 0xffffffffffffffff }] ∧
      ConnectedOver State.sampleConnected.vq (.rc 0 0) ∧ State.sampleConnected.vq.bindPort = none ∧
      pushBatches (.sample .dct) p .sample (List.range p.batchCnt) .sampleConnected .ok = none :=
  ⟨{ reqList := 0, reqs := _, pushRecvCnt := 0, popRes := 0, reqLen_lt := by simp }, rfl,
    State.sampleConnected_over, rfl, by decide⟩

end Ioctl
