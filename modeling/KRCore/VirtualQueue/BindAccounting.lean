-- SUMMARY: The books of bind-mode Pushes: receives reposted against requests sent, completions polled against requests signalled.
import KRCore.VirtualQueue.PushWait

/-!
# Accounting in bind mode

A server replies to messages, and every message has used up a receive. So a
bind-mode batch is to post as many receives to a queue as it has sent requests
there, and with `pop_res` to poll as many completions as it has signalled. The books
balance as long as nothing fails, no more requests go to a `vid` than the receive
ring is long, and no `vid` is a multiple of twelve.
-/

namespace Ioctl

/-! ## Receives -/

/-- The receives that are posted to `q`. -/
def DeviceOp.receives (q : Queue) : DeviceOp → Nat
  | .recv q' _ slots => if q' = q then slots.length else 0
  | .send _ _ _ => 0
  | .poll _ _ => 0
  | .pollRecv _ _ => 0

def received (q : Queue) (ops : List DeviceOp) : Nat := (ops.map (DeviceOp.receives q)).sum

@[simp] theorem received_nil (q : Queue) : received q [] = 0 := rfl

theorem received_append (q : Queue) (ops ops' : List DeviceOp) :
    received q (ops ++ ops') = received q ops + received q ops' := by
  simp [received]

@[simp] theorem received_recv_cons (q q' : Queue) (c : Nat) (slots : List (Fin ctrlRingSize))
    (ops : List DeviceOp) :
    received q (.recv q' c slots :: ops) = (if q' = q then slots.length else 0) + received q ops :=
  rfl

theorem received_wait (q q' : Queue) (popAtOnce : Bool) :
    received q (if popAtOnce then [.poll q' true] else []) = 0 := by
  split <;> rfl

theorem received_sends {q : Queue} {ops : List DeviceOp} (h : ∀ op ∈ ops, op.isSend = true) :
    received q ops = 0 := by
  induction ops with
  | nil => rfl
  | cons op ops ih =>
    have hrest := ih fun op' hop' => h op' (List.mem_cons_of_mem _ hop')
    cases op with
    | send q' wr errno => exact (Nat.zero_add _).trans hrest
    | recv q' c slots => cases h _ List.mem_cons_self
    | poll q' found => cases h _ List.mem_cons_self
    | pollRecv c cnt => cases h _ List.mem_cons_self

theorem polled_sends {q : Queue} {ops : List DeviceOp} (h : ∀ op ∈ ops, op.isSend = true) :
    polled q ops = 0 := by
  rw [polled, List.count_eq_zero]
  intro hop
  cases h _ hop

theorem postedTo_noSend {q : Queue} {ops : List DeviceOp} (h : ∀ op ∈ ops, op.isSend = false) :
    postedTo q ops = [] := by
  induction ops with
  | nil => rfl
  | cons op ops ih =>
    rw [postedTo_cons, ih fun op' hop' => h op' (List.mem_cons_of_mem _ hop'), List.append_nil]
    cases op with
    | send q' wr errno => cases h _ List.mem_cons_self
    | recv q' c slots => rfl
    | poll q' found => exact postedTo_poll q q' found
    | pollRecv c cnt => rfl

/-! ## Balance -/

/-- The books of every queue balance: receives against requests, and with `pop_at_once`
    completions against signalled requests. -/
def Balanced (popAtOnce : Bool) (ops : List DeviceOp) : Prop :=
  ∀ q, received q ops = (postedTo q ops).length ∧
    (popAtOnce = true → polled q ops = (postedTo q ops).count true)

theorem balanced_flatMap {popAtOnce : Bool} {rs : List Reply}
    (h : ∀ r ∈ rs, Balanced popAtOnce r.ops) : Balanced popAtOnce (rs.flatMap Reply.ops) := by
  induction rs with
  | nil => exact fun q => ⟨rfl, fun _ => rfl⟩
  | cons r rs ih =>
    rw [List.forall_mem_cons] at h
    intro q
    obtain ⟨hrecv, hpoll⟩ := h.1 q
    obtain ⟨hrecv', hpoll'⟩ := ih h.2 q
    rw [List.flatMap_cons, received_append, polled_append, postedTo_append, List.length_append,
      List.count_append]
    exact ⟨by rw [hrecv, hrecv'], fun hpop => by rw [hpoll hpop, hpoll' hpop]⟩

theorem deliver_balance_step {op : DeviceOp} {n n' : Queue → Nat} (h : deliver n op = some n')
    (q : Queue) : n' q + polled q [op] = n q + (postedTo q [op]).count true := by
  cases op with
  | recv q' c slots =>
    cases h
    simp
  | pollRecv c cnt =>
    cases h
    simp [polled]
  | poll q' found =>
    cases found with
    | false =>
      cases h
      simp [polled]
    | true =>
      simp only [deliver] at h
      split at h
      · cases h
        by_cases hq : q = q'
        · subst hq
          simp
          omega
        · simp [Function.update_of_ne hq, Ne.symm hq]
      · cases h
  | send q' wr errno =>
    simp only [deliver] at h
    have hzero : polled q [.send q' wr errno] = 0 := by simp [polled]
    rw [hzero, postedTo_send]
    split at h
    · rename_i hsig
      cases h
      by_cases hq : q = q'
      · subst hq
        simp [hsig.1, hsig.2]
      · simp [Function.update_of_ne hq, Ne.symm hq]
    · rename_i hsig
      cases h
      by_cases herr : errno = 0 ∧ q' = q
      · have : wr.signaled = false := by simpa [herr.1] using hsig
        simp [herr, this]
      · simp [herr]

/-- What `deliver` makes of the completions that are still to be polled. -/
theorem deliver_balance {ops : List DeviceOp} {n n' : Queue → Nat}
    (h : Run.exec deliver n ops = some n') (q : Queue) :
    n' q + polled q ops = n q + (postedTo q ops).count true := by
  induction ops generalizing n with
  | nil =>
    cases h
    rfl
  | cons op ops ih =>
    obtain ⟨n₁, hstep, hrest⟩ := Run.exec_cons_eq_some.mp h
    have hcons : polled q (op :: ops) = polled q [op] + polled q ops := polled_append q [op] ops
    rw [hcons, postedTo_cons, List.count_append]
    have := deliver_balance_step hstep q
    have := ih hrest
    omega

/-- Balanced books leave nothing over. -/
theorem Balanced.deliver_eq {ops : List DeviceOp} (h : Balanced true ops) {n n' : Queue → Nat}
    (hrun : Run.exec deliver n ops = some n') : n' = n := by
  funext q
  have := deliver_balance hrun q
  have := (h q).2 rfl
  omega

/-! ## The second loop -/

section SecondLoop

variable {c : Nat} {registered : Nat → Option Nat} {n : Nat → Nat} {popAtOnce : Bool}
  {ans : BindAnswers}

/-- The requests for the given `vid`s that went to `q`. -/
def share (c : Nat) (registered : Nat → Option Nat) (n : Nat → Nat) (q : Queue)
    (vids : List Nat) : Nat :=
  (vids.map fun vid => if bindQueue c registered vid = q then n vid else 0).sum

@[simp] theorem share_cons (q : Queue) (vid : Nat) (vids : List Nat) :
    share c registered n q (vid :: vids) =
      (if bindQueue c registered vid = q then n vid else 0) + share c registered n q vids := by
  simp [share]

theorem share_eq_zero_iff {vids : List Nat} :
    (∀ q, share c registered n q vids = 0) ↔ ∀ vid ∈ vids, n vid = 0 := by
  induction vids with
  | nil => simp [share]
  | cons vid vids ih =>
    simp only [share_cons, Nat.add_eq_zero_iff, forall_and, List.forall_mem_cons, ih]
    refine and_congr_left fun _ => ⟨fun h => ?_, fun h q => by rw [h, ite_self]⟩
    have := h (bindQueue c registered vid)
    rwa [if_pos rfl] at this

/-- How many of the given `vid`s that are in use belong to `q`. -/
def users (c : Nat) (registered : Nat → Option Nat) (n : Nat → Nat) (q : Queue)
    (vids : List Nat) : Nat :=
  vids.countP fun vid => n vid ≠ 0 ∧ bindQueue c registered vid = q

theorem users_cons_of_eq {vid : Nat} {vids : List Nat} {q : Queue} (h : n vid = 0) :
    users c registered n q (vid :: vids) = users c registered n q vids := by
  rw [users, List.countP_cons_of_neg (by simp [h])]
  rfl

theorem users_cons_of_ne {vid : Nat} {vids : List Nat} {q : Queue} (h : n vid ≠ 0) :
    users c registered n q (vid :: vids) =
      (if bindQueue c registered vid = q then 1 else 0) + users c registered n q vids := by
  rw [users, List.countP_cons, Nat.add_comm]
  simp [h, users]

/-- The posts for the `vid`s in use all go through. Without `pop_at_once` the last one may
    report an error, if it has accepted everything. -/
def PostsFine (registered : Nat → Option Nat) (ans : BindAnswers) (n : Nat → Nat)
    (popAtOnce : Bool) : List Nat → Prop
  | [] => True
  | vid :: vids =>
    if n vid = 0 then PostsFine registered ans n popAtOnce vids
    else
      match bindPost registered ans vid with
      | .ok => PostsFine registered ans n popAtOnce vids
      | .err accepted _ => popAtOnce = false ∧ n vid ≤ accepted ∧ ∀ vid' ∈ vids, n vid' = 0

theorem span_le_self {k : Nat} (hk : k ≠ 0) : RecvHelper.span ctrlRingSize k ≤ k := by
  simp only [RecvHelper.span, ctrlRingSize]
  omega

variable {vids : List Nat} {status : ReplyStatus} {ops : List DeviceOp}

theorem Reposted.received_le (h : Reposted c registered n popAtOnce ans vids status ops)
    (q : Queue) : received q ops ≤ share c registered n q vids := by
  induction h with
  | nil => exact Nat.le_refl 0
  | skip _ _ ih =>
    rw [share_cons]
    exact ih.trans (Nat.le_add_left _ _)
  | posted hcnt _ hslots _ ih =>
    have hle := span_le_self hcnt
    rw [received_recv_cons, received_append, share_cons, hslots]
    rw [received_wait, Nat.zero_add]
    refine Nat.add_le_add ?_ ih
    split
    · exact hle
    · exact Nat.le_refl 0
  | failed hcnt _ hslots =>
    have hle := span_le_self hcnt
    rw [received_recv_cons, share_cons, hslots]
    refine Nat.add_le_add ?_ (Nat.zero_le _)
    split
    · exact (Nat.min_le_right _ _).trans hle
    · exact Nat.le_refl 0

/-- A post that goes through: neither this `vid` nor the rest can have more receives than
    requests, so that both have as many. -/
theorem Reposted.balanced_posted_iff {vid : Nat} {slots : List (Fin ctrlRingSize)}
    (hcnt : n vid ≠ 0) (hslots : slots.length = RecvHelper.span ctrlRingSize (n vid))
    (hrest : Reposted c registered n popAtOnce ans vids status ops) :
    (∀ q, received q (.recv (bindQueue c registered vid) c slots ::
          ((if popAtOnce then [.poll (bindQueue c registered vid) true] else []) ++ ops)) =
            share c registered n q (vid :: vids) ∧
        (popAtOnce = true → polled q (.recv (bindQueue c registered vid) c slots ::
          ((if popAtOnce then [.poll (bindQueue c registered vid) true] else []) ++ ops)) =
            users c registered n q (vid :: vids))) ↔
      n vid ≤ ctrlRingSize ∧ ∀ q, received q ops = share c registered n q vids ∧
        (popAtOnce = true → polled q ops = users c registered n q vids) := by
  have hle := span_le_self hcnt
  rw [← RecvHelper.span_eq_self_iff (Nat.pos_of_ne_zero hcnt)]
  simp only [received_recv_cons, received_append, received_wait, Nat.zero_add, share_cons,
    hslots, polled_recv_cons, polled_append, users_cons_of_ne hcnt]
  constructor
  · intro hall
    have hspan : RecvHelper.span ctrlRingSize (n vid) = n vid := by
      have := (hall (bindQueue c registered vid)).1
      simp only [if_true] at this
      have := hrest.received_le (bindQueue c registered vid)
      omega
    refine ⟨hspan, fun q => ⟨?_, fun hpop => ?_⟩⟩
    · have := (hall q).1
      rw [hspan] at this
      omega
    · have := (hall q).2 hpop
      rw [if_pos hpop, polled_wait] at this
      omega
  · rintro ⟨hspan, hall⟩ q
    rw [hspan]
    refine ⟨by rw [(hall q).1], fun hpop => ?_⟩
    rw [if_pos hpop, polled_wait, (hall q).2 hpop]

/-- A post that reports an error ends the loop. -/
theorem balanced_failed_iff {vid accepted : Nat} {slots : List (Fin ctrlRingSize)}
    (hcnt : n vid ≠ 0)
    (hslots : slots.length = min accepted (RecvHelper.span ctrlRingSize (n vid))) :
    (∀ q, received q [.recv (bindQueue c registered vid) c slots] =
            share c registered n q (vid :: vids) ∧
        (popAtOnce = true → polled q [.recv (bindQueue c registered vid) c slots] =
            users c registered n q (vid :: vids))) ↔
      n vid ≤ ctrlRingSize ∧ popAtOnce = false ∧ n vid ≤ accepted ∧ ∀ vid' ∈ vids, n vid' = 0 := by
  have hle := span_le_self hcnt
  rw [← RecvHelper.span_eq_self_iff (Nat.pos_of_ne_zero hcnt)]
  simp only [received_recv_cons, received_nil, Nat.add_zero, share_cons, polled_recv_cons,
    polled_nil, hslots]
  constructor
  · intro hall
    have hhead := (hall (bindQueue c registered vid)).1
    simp only [if_true] at hhead
    have hrest : ∀ q, share c registered n q vids = 0 := by
      intro q
      have := (hall q).1
      split at this
      · omega
      · omega
    refine ⟨by omega, ?_, by omega, share_eq_zero_iff.mp hrest⟩
    rw [Bool.eq_false_iff]
    intro hpop
    have := (hall (bindQueue c registered vid)).2 hpop
    rw [users_cons_of_ne hcnt, if_pos rfl] at this
    omega
  · rintro ⟨hspan, hpop, hacc, hrest⟩ q
    rw [share_eq_zero_iff.mpr hrest q, hspan, Nat.min_eq_right hacc]
    exact ⟨rfl, fun htrue => by rw [hpop] at htrue; cases htrue⟩

/-- When the second loop balances what the first has sent for the same `vid`s. -/
theorem Reposted.balanced_iff (h : Reposted c registered n popAtOnce ans vids status ops) :
    (∀ q, received q ops = share c registered n q vids ∧
        (popAtOnce = true → polled q ops = users c registered n q vids)) ↔
      (∀ vid ∈ vids, n vid ≤ ctrlRingSize) ∧ PostsFine registered ans n popAtOnce vids := by
  induction h with
  | nil => simp [PostsFine, share, users]
  | @skip vid vids status ops hcnt hrest ih =>
    rw [PostsFine, if_pos hcnt, List.forall_mem_cons, hcnt]
    simp only [share_cons, hcnt, ite_self, Nat.zero_add, Nat.zero_le, true_and]
    rw [← ih]
    simp only [users_cons_of_eq hcnt]
  | posted hcnt hpost hslots hrest ih =>
    rw [PostsFine, if_neg hcnt, hpost, List.forall_mem_cons, and_assoc, ← ih]
    exact hrest.balanced_posted_iff hcnt hslots
  | failed hcnt hpost hslots =>
    rw [PostsFine, if_neg hcnt, hpost, List.forall_mem_cons, and_assoc,
      balanced_failed_iff hcnt hslots]
    refine and_congr_right fun _ => (and_iff_right_of_imp ?_).symm
    rintro ⟨-, -, hrest⟩ vid' hvid'
    rw [hrest vid' hvid']
    exact Nat.zero_le _

end SecondLoop

/-! ## One batch -/

theorem vidCnt_eq_zero_iff {reqs : List CoreReq} {vid : Nat} :
    vidCnt reqs vid = 0 ↔ ∀ req ∈ reqs, hostVid req ≠ vid := by
  simp [vidCnt, List.count_eq_zero]

/-- The second loop goes over all `vid`s but the first. -/
def hostVids : List Nat := 0 :: repostVids

theorem hostVid_mem (req : CoreReq) : hostVid req ∈ hostVids := by
  have hlt : hostVid req < hostLen := Nat.mod_lt _ (by decide)
  have hrange : hostVids = List.range hostLen := rfl
  rw [hrange]
  exact List.mem_range.mpr hlt

/-- No send of the batch is refused and no post of receives fails, so that the next batch
    is carried out. -/
def BatchOk (registered : Nat → Option Nat) (ans : BindAnswers) (reqs : List CoreReq) : Prop :=
  (∀ i < reqs.length, ans.send i = 0) ∧
    ∀ vid ∈ repostVids, vidCnt reqs vid ≠ 0 → bindPost registered ans vid = .ok

/-- Either already the first send of the batch is refused, or none is, no `vid` is a multiple
    of twelve, none has more requests than the receive ring has places, and the receives for
    all of them are posted. -/
def BatchSafe (registered : Nat → Option Nat) (popAtOnce : Bool) (ans : BindAnswers)
    (reqs : List CoreReq) : Prop :=
  (reqs ≠ [] ∧ ans.send 0 ≠ 0) ∨
    (∀ i < reqs.length, ans.send i = 0) ∧ (∀ req ∈ reqs, hostVid req ≠ 0) ∧
      (∀ vid ∈ repostVids, vidCnt reqs vid ≤ ctrlRingSize) ∧
      PostsFine registered ans (vidCnt reqs) popAtOnce repostVids

section Batch

variable {c : Nat} {registered : Nat → Option Nat} {reqs : List CoreReq} {ops : List DeviceOp}

theorem Sent.isSend {n : Nat → Nat} (h : Sent c registered n reqs ops) :
    ∀ op ∈ ops, op.isSend = true := by
  intro op hop
  obtain ⟨q, wr, errno, rfl⟩ := h.send op hop
  rfl

theorem Sent.length {n : Nat → Nat} (h : Sent c registered n reqs ops) (q : Queue) :
    (postedTo q ops).length = share c registered (vidCnt reqs) q hostVids := by
  have hnodup : hostVids.Nodup := by decide
  have hmem : ∀ vid ∈ reqs.map hostVid, vid ∈ hostVids :=
    List.forall_mem_map.mpr fun req _ => hostVid_mem req
  have hsum := Tally.countP_eq_sum (fun vid => decide (bindQueue c registered vid = q)) hnodup hmem
  simp only [decide_eq_true_eq] at hsum
  rw [h.posted, List.length_map, ← List.countP_eq_length_filter, share]
  have hfst : (Tally.fresh n (reqs.map hostVid)).countP
      (fun p => decide (bindQueue c registered p.1 = q)) =
        (reqs.map hostVid).countP fun vid => decide (bindQueue c registered vid = q) := by
    conv_rhs => rw [← Tally.map_fst_fresh n (reqs.map hostVid)]
    rw [List.countP_map]
    rfl
  rw [hfst, hsum]
  rfl

theorem Sent.users (h : Sent c registered (fun _ => 0) reqs ops) (q : Queue) :
    (postedTo q ops).count true = users c registered (vidCnt reqs) q hostVids := by
  have hnodup : hostVids.Nodup := by decide
  rw [h.signaled, Ioctl.users, List.countP_eq_length_filter,
    ← List.toFinset_card_of_nodup (hnodup.filter _)]
  congr 1
  ext vid
  rw [Finset.mem_filter, List.mem_toFinset, List.mem_toFinset, List.mem_filter, decide_eq_true_eq,
    vidCnt, ne_eq, List.count_eq_zero, not_not]
  constructor
  · rintro ⟨hmem, hq, -⟩
    obtain ⟨req, -, rfl⟩ := List.mem_map.mp hmem
    exact ⟨hostVid_mem req, hmem, hq⟩
  · rintro ⟨-, hmem, hq⟩
    exact ⟨hmem, hq, rfl⟩

theorem Reposted.status_iff {n : Nat → Nat} {popAtOnce : Bool} {ans : BindAnswers}
    {vids : List Nat} {status : ReplyStatus}
    (h : Reposted c registered n popAtOnce ans vids status ops) :
    status = .ok ↔ ∀ vid ∈ vids, n vid ≠ 0 → bindPost registered ans vid = .ok := by
  induction h with
  | nil => exact iff_of_true rfl fun vid hvid => (List.not_mem_nil hvid).elim
  | skip hcnt _ ih =>
    rw [ih, List.forall_mem_cons]
    exact ⟨fun hall => ⟨fun hne => absurd hcnt hne, hall⟩, And.right⟩
  | posted hcnt hpost _ _ ih =>
    rw [ih, List.forall_mem_cons]
    exact ⟨fun hall => ⟨fun _ => hpost, hall⟩, And.right⟩
  | failed hcnt hpost _ =>
    refine iff_of_false ReplyStatus.noConfusion fun hall => ?_
    have := hall _ List.mem_cons_self hcnt
    rw [hpost] at this
    cases this

variable {cfg : Config} {s : State} {port : Nat} {popAtOnce : Bool} {ans : BindAnswers} {r : Reply}

theorem bindServerPushImpl_status
    (hreg : (s.ctrls (cfg.bindCtrl port)).registeredRcs = registered)
    (h : bindServerPushImpl cfg s port reqs popAtOnce ans = some r) :
    r.status = .ok ↔ BatchOk registered ans reqs := by
  have hall := acceptedReqs_zero_eq_self_iff ans.send reqs
  rw [BatchOk, ← hall]
  obtain ⟨sends, -, ⟨hne, herr, -⟩ | ⟨heq, reposts, -, hrepost⟩⟩ :=
    bindServerPushImpl_eq_some hreg h
  · exact iff_of_false (by simp [herr]) fun hok => hne hok.1
  · rw [hrepost.status_iff]
    exact (and_iff_right heq).symm

/-- The books of a batch balance exactly if it is safe. -/
theorem bindServerPushImpl_balanced_iff
    (hreg : (s.ctrls (cfg.bindCtrl port)).registeredRcs = registered)
    (h : bindServerPushImpl cfg s port reqs popAtOnce ans = some r) :
    Balanced popAtOnce r.ops ↔ BatchSafe registered popAtOnce ans reqs := by
  have hall := acceptedReqs_zero_eq_self_iff ans.send reqs
  unfold Balanced BatchSafe
  rw [← hall]
  obtain ⟨sends, hsent, ⟨hne, -, hops⟩ | ⟨heq, reposts, hops, hrepost⟩⟩ :=
    bindServerPushImpl_eq_some hreg h
  · -- A send was refused: nothing is reposted or polled, so nothing may have been sent.
    rw [hops]
    simp only [received_sends hsent.isSend, polled_sends hsent.isSend, hsent.length, hsent.users,
      hne, false_and, or_false]
    cases reqs with
    | nil => exact absurd rfl hne
    | cons req reqs =>
      unfold acceptedReqs
      by_cases hfirst : ans.send 0 = 0
      · rw [if_pos hfirst]
        refine iff_of_false (fun hbal => ?_) fun hand => hand.2 hfirst
        have hzero := share_eq_zero_iff.mp (fun q => (hbal q).1.symm) _ (hostVid_mem req)
        exact vidCnt_eq_zero_iff.mp hzero req List.mem_cons_self rfl
      · rw [if_neg hfirst]
        refine iff_of_true (fun q => ?_) ⟨List.cons_ne_nil _ _, hfirst⟩
        have hzero : ∀ vid ∈ hostVids, vidCnt [] vid = 0 := fun _ _ => rfl
        refine ⟨(share_eq_zero_iff.mpr hzero q).symm, fun _ => ?_⟩
        rw [eq_comm, Ioctl.users, List.countP_eq_zero]
        intro vid _
        simp [vidCnt]
  · rw [hops]
    rw [heq] at hsent
    have hfirst : ¬ (reqs ≠ [] ∧ ans.send 0 ≠ 0) := by
      rintro ⟨hne, hfirst⟩
      exact hfirst (hall.mp heq 0 (List.length_pos_iff.mpr hne))
    have hzero : (∀ req ∈ reqs, hostVid req ≠ 0) ↔ vidCnt reqs 0 = 0 := vidCnt_eq_zero_iff.symm
    simp only [received_append, received_sends hsent.isSend, polled_append,
      polled_sends hsent.isSend, postedTo_append, postedTo_noSend hrepost.noSend, List.append_nil,
      Nat.zero_add, hsent.length, hsent.users, hfirst, heq, false_or, true_and, hzero]
    rw [← hrepost.balanced_iff]
    constructor
    · intro hbal
      have hcnt : vidCnt reqs 0 = 0 := by
        have hq := (hbal (bindQueue (cfg.bindCtrl port) registered 0)).1
        rw [hostVids, share_cons, if_pos rfl] at hq
        have := hrepost.received_le (bindQueue (cfg.bindCtrl port) registered 0)
        omega
      refine ⟨hcnt, fun q => ?_⟩
      have hq := hbal q
      rw [hostVids, share_cons, hcnt, ite_self, Nat.zero_add, users_cons_of_eq hcnt] at hq
      exact hq
    · rintro ⟨hcnt, hbal⟩ q
      rw [hostVids, share_cons, hcnt, ite_self, Nat.zero_add, users_cons_of_eq hcnt]
      exact hbal q

end Batch

/-! ## Pushes -/

/-- All batches of a Push that are carried out are safe. -/
def BatchesSafe (registered : Nat → Option Nat) (p : PushReq) (ans : PushAnswers) :
    List Nat → Prop
  | [] => True
  | k :: ks =>
    BatchSafe registered (p.popRes ≠ 0) (ans.bind k) (p.batch k) ∧
      (BatchOk registered (ans.bind k) (p.batch k) → BatchesSafe registered p ans ks)

theorem pushReplies_balanced_iff {cfg : Config} {p : PushReq} {ans : PushAnswers} {port : Nat}
    {registered : Nat → Option Nat} {ks : List Nat} {s : State} {rs : List Reply}
    (hbind : s.vq.bindPort = some port)
    (hreg : (s.ctrls (cfg.bindCtrl port)).registeredRcs = registered)
    (h : pushReplies cfg p ans ks s = some rs) :
    (∀ r ∈ rs, Balanced (p.popRes ≠ 0) r.ops) ↔ BatchesSafe registered p ans ks := by
  induction ks generalizing s rs with
  | nil =>
    cases h
    exact iff_of_true (fun r hr => (List.not_mem_nil hr).elim) trivial
  | cons k ks ih =>
    obtain ⟨r, hbatch, hcases⟩ := pushReplies_cons_eq_some h
    have hframe := pushBatch_frame hbatch
    simp only [pushBatch, hbind] at hbatch
    have hstatus := bindServerPushImpl_status hreg hbatch
    rw [BatchesSafe, ← bindServerPushImpl_balanced_iff hreg hbatch]
    rcases hcases with ⟨herr, rfl⟩ | ⟨herr, rs', hrest, rfl⟩
    · rw [List.forall_mem_singleton]
      refine ⟨fun hbal => ⟨hbal, fun hok => ?_⟩, And.left⟩
      rw [hstatus.mpr hok] at herr
      cases herr
    · have hok := hstatus.mp ((bindServerPushImpl_ok hbatch).1.resolve_right herr)
      have hbind' : r.state.vq.bindPort = some port := by rw [hframe.vq, hbind]
      rw [List.forall_mem_cons, ih hbind' ((hframe.registered _).trans hreg) hrest]
      exact and_congr_right fun _ => ⟨fun hsafe _ => hsafe, fun hsafe => hsafe hok⟩

/-- A bind-mode Push with `pop_res` whose batches are safe leaves no completion over, and
    takes none that was there before. -/
theorem push_bind_leaves_nothing {cfg : Config} {s : State} {arg : Nat} {p : PushReq}
    {ans : PushAnswers} {r : Reply} {port : Nat} (hbind : s.vq.bindPort = some port)
    (h : push cfg s arg p ans = some r) (hpop : p.popRes ≠ 0)
    (hsafe : BatchesSafe (s.ctrls (cfg.bindCtrl port)).registeredRcs p ans
      (List.range p.batchCnt)) (n : Queue → Nat) :
    Run.exec deliver n r.ops = some n := by
  obtain ⟨rs, hrs, rfl⟩ := push_bind_eq_some hbind h
  have hbal := balanced_flatMap ((pushReplies_balanced_iff hbind rfl hrs).mpr hsafe)
  rw [decide_eq_true hpop] at hbal
  obtain ⟨n', hn'⟩ := pushReplies_delivers hbind hrs n
  rw [concludes_ops, hn', hbal.deliver_eq hn']

/-- Every batch of a bind-mode Push balances. -/
def BalancedPush (cfg : Config) (s : State) : Event → Prop
  | .ioctl _ _ (.push p ans) =>
    s.vq.bindPort ≠ none → ∀ rs, pushReplies cfg p ans (List.range p.batchCnt) s = some rs →
      ∀ r ∈ rs, Balanced (p.popRes ≠ 0) r.ops
  | _ => True

/-- Every batch that a bind-mode Push carries out is safe. -/
def SafePush (cfg : Config) (s : State) : Event → Prop
  | .ioctl _ _ (.push p ans) =>
    ∀ port, s.vq.bindPort = some port →
      BatchesSafe (s.ctrls (cfg.bindCtrl port)).registeredRcs p ans (List.range p.batchCnt)
  | _ => True

/-- In every run, whatever else happens: the books of all batches of all bind-mode Pushes
    balance if and only if all these batches are safe. -/
theorem bind_accounting_iff (cfg : Config) (s : State) (es : List Event) :
    Run.Guarded (step cfg) (BalancedPush cfg) s es ↔ Run.Guarded (step cfg) (SafePush cfg) s es := by
  refine Run.guarded_congr fun s e s' hstep => ?_
  unfold BalancedPush SafePush
  split
  · rename_i arg replyBuf p ans
    simp only [step, ioctrl, Option.map_eq_some_iff] at hstep
    obtain ⟨r, hr, -⟩ := hstep
    cases hbind : s.vq.bindPort with
    | none => simp
    | some port =>
      obtain ⟨rs, hrs, -⟩ := push_bind_eq_some hbind hr
      simp only [hrs, Option.some.injEq, forall_eq', pushReplies_balanced_iff hbind rfl hrs]
      simp
  · simp

/-- A server that no client has an RC to. -/
def State.sampleBound : State :=
  { State.sample with vq := { State.sample.vq with bindPort := some 0 } }

/-- Three requests for one `vid` get one receive; a request for `vid` 12 gets no receive, and
    its completion is left over; and so it is with the first request when the second is
    refused. -/
theorem bind_accounting_unbalanced :
    (∃ r, pushReplies (.sample .dct)
          (.sampleSync [.sample 0 0 1, .sample 0 0 1, .sample 0 0 1]) .sample
          (List.range 1) .sampleBound = some [r] ∧ r.status = .ok ∧
        received (.ud 0) r.ops = 1 ∧ (postedTo (.ud 0) r.ops).length = 3) ∧
      (∃ r, pushReplies (.sample .dct) (.sampleSync [.sample 0 0 12]) .sample
          (List.range 1) .sampleBound = some [r] ∧ r.status = .ok ∧
        received (.ud 0) r.ops = 0 ∧ polled (.ud 0) r.ops = 0 ∧
        postedTo (.ud 0) r.ops = [true]) ∧
      ∃ r, pushReplies (.sample .dct) (.sampleSync [.sample 0 0 1, .sample 0 0 1])
          { PushAnswers.sample with
            bind := fun _ => { BindAnswers.sample with send := fun i => if i = 1 then -12 else 0 } }
          (List.range 1) .sampleBound = some [r] ∧ r.status = .err ∧
        received (.ud 0) r.ops = 0 ∧ polled (.ud 0) r.ops = 0 ∧
        postedTo (.ud 0) r.ops = [true] :=
  ⟨⟨_, rfl, rfl, rfl, rfl⟩, ⟨_, rfl, rfl, rfl, rfl, rfl⟩, ⟨_, rfl, rfl, rfl, rfl, rfl⟩⟩

end Ioctl
