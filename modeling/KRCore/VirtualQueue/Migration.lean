-- SUMMARY: The order of the completions that a virtual queue returns while it migrates from DC to RC.
import KRCore.Base.Run
import KRCore.Base.WorkQueue
import KRCore.Verbs.Types

/-!
# Migration and the order of completions

The data path of one connected virtual queue that has its DC for itself, with
`dct_qp`, `migrate_qp` and `virtual_queue`: Push sends batches of up to 64
requests to the RC if there is one and to the DC otherwise, a background thread
sets the RC, each queue completes its own requests in order, and Pop polls the
CQ of the DC before that of the RC. Requests are numbered in the order in which
they are accepted. All of them are signalled.
-/

namespace Migration

inductive Transport where
  | dc
  | rc
deriving DecidableEq, Repr

/-- The queue whose completion a Push with `pop_res` waits for. -/
inductive WaitQueue where
  | ud
  | rc
deriving DecidableEq, Repr

/-- A Push request that is being executed. -/
structure PushCall where
  reqLen : Nat
  popRes : Bool
  sendOffset : Nat
  ret : ReplyStatus
  waitsFor : Option WaitQueue
deriving DecidableEq, Repr

/-- The batch loop goes on. Its first round is not skipped when posting receives
    has failed before. -/
def PushCall.sending (call : PushCall) : Bool :=
  call.sendOffset < call.reqLen && (call.sendOffset == 0 || call.ret != .err)

/-- `returned` are the completions that the user has got, by Pop or by the wait
    of a Push. -/
structure DataPath where
  rcConnected : Bool
  call : Option PushCall
  nic : WorkQueue (Transport × Nat)
  pushed : Nat
  returned : List Nat
deriving DecidableEq, Repr

inductive Event where
  /-- A Push; `recvRet` is how its posting of receives went. -/
  | push (reqLen : Nat) (popRes : Bool) (recvRet : ReplyStatus)
  /-- The next batch; the driver accepts the given number of its requests. -/
  | batch (accepted : Nat)
  /-- The end of the batch loop. -/
  | loopEnd
  /-- The end of the wait of a Push; whether a completion is ready on the UD. -/
  | waitTilComp (udReady : Bool)
  | migrate
  | complete (t : Transport)
  | pop
deriving DecidableEq, Repr

/-- `DEFAULT_BATCH_SZ`. -/
def defaultBatchSz : Nat := 64

namespace DataPath

/-- A queue that has been connected over DC. -/
def start : DataPath where
  rcConnected := false
  call := none
  nic := WorkQueue.empty
  pushed := 0
  returned := []

/-- Take one completion from the CQ of a queue. -/
def take (s : DataPath) (t : Transport) : Option DataPath :=
  match s.nic.poll (fun r => r.1 = t) 1 with
  | ([], _) => none
  | (r :: _, nic) => some { s with nic, returned := s.returned ++ [r.2] }

/-- One round of the batch loop of Push. A rejected request ends the loop. -/
def batch (s : DataPath) (accepted : Nat) : Option DataPath := do
  let call ← s.call
  let sendLen := min defaultBatchSz (call.reqLen - call.sendOffset)
  if call.sending ∧ call.waitsFor = none ∧ accepted ≤ sendLen then
    let t := if s.rcConnected then Transport.rc else .dc
    some { s with
      nic := s.nic.post ((List.range' s.pushed accepted).map (t, ·))
      pushed := s.pushed + accepted
      call := some { call with
        sendOffset := call.sendOffset + sendLen
        ret := if accepted = sendLen then .ok else .err } }
  else none

/-- With `pop_res` a Push waits for a completion after its loop: of the RC if
    there is one by then, else of the UD. -/
def loopEnd (s : DataPath) : Option DataPath := do
  let call ← s.call
  if call.sending ∨ call.waitsFor ≠ none then none
  else if call.popRes = true ∧ call.ret = .ok then
    let queue := if s.rcConnected then WaitQueue.rc else .ud
    some { s with call := some { call with waitsFor := some queue } }
  else some { s with call := none }

/-- The wait ends. `none` while it is spinning. -/
def waitTilComp (s : DataPath) (udReady : Bool) : Option DataPath := do
  let call ← s.call
  match call.waitsFor with
  | none => none
  | some .rc => (s.take .rc).map fun s => { s with call := none }
  | some .ud => if udReady then some { s with call := none } else none

/-- `pop_impl` in client mode. -/
def popImpl (s : DataPath) : DataPath :=
  match s.take .dc with
  | some s => s
  | none => if s.rcConnected then (s.take .rc).getD s else s

def step (s : DataPath) : Event → Option DataPath
  | .push reqLen popRes recvRet =>
    match s.call with
    | some _ => none
    | none =>
      let call := { reqLen, popRes, sendOffset := 0, ret := recvRet, waitsFor := none }
      some { s with call := some call }
  | .batch accepted => s.batch accepted
  | .loopEnd => s.loopEnd
  | .waitTilComp udReady => s.waitTilComp udReady
  | .migrate => if s.rcConnected then none else some { s with rcConnected := true }
  | .complete t => (s.nic.completeFirst fun r => r.1 = t).map fun nic => { s with nic }
  | .pop => some s.popImpl

/-! ## Order -/

/-- The requests of one queue in a list. -/
def onQueue (t : Transport) (l : List (Transport × Nat)) : List Nat :=
  (l.filter fun r => r.1 = t).map Prod.snd

/-- What the user has got are the first requests in push order; all the others
    are still with the device or in a CQ, each once. -/
def InPushOrder (s : DataPath) : Prop :=
  ∃ rest, List.range s.pushed = s.returned ++ rest ∧ rest.Perm (s.nic.all.map Prod.snd)

/-- The step takes a completion from the RC: Pop when the CQ of the DC is empty,
    or the wait of a Push. -/
def TakesRc (s : DataPath) : Event → Prop
  | .pop => s.rcConnected = true ∧ onQueue .dc s.nic.done = [] ∧ onQueue .rc s.nic.done ≠ []
  | .waitTilComp _ => ∃ call ∈ s.call, call.waitsFor = some .rc
  | _ => False

/-- A completion is taken from the RC only when nothing is left on the DC. -/
def DcDrained (s : DataPath) (e : Event) : Prop :=
  s.TakesRc e → ∀ r ∈ s.nic.all, r.1 ≠ .dc

/-- While the user gets completions in push order, everything on the DC precedes
    everything on the RC, and each queue is in order. -/
structure Ordered (s : DataPath) : Prop where
  order : List.range s.pushed = s.returned ++
    (onQueue .dc s.nic.done ++ onQueue .dc s.nic.pending ++
      (onQueue .rc s.nic.done ++ onQueue .rc s.nic.pending))
  unconnected : s.rcConnected = false →
    onQueue .rc s.nic.done = [] ∧ onQueue .rc s.nic.pending = []

@[simp] theorem onQueue_append (t : Transport) (l l' : List (Transport × Nat)) :
    onQueue t (l ++ l') = onQueue t l ++ onQueue t l' := by
  simp [onQueue]

theorem onQueue_map (t t' : Transport) (l : List Nat) :
    onQueue t (l.map (t', ·)) = if t' = t then l else [] := by
  by_cases h : t' = t
  · simp [onQueue, h, List.filter_map, Function.comp_def]
  · simp [onQueue, h, List.filter_map, Function.comp_def]

theorem onQueue_eq_nil {t : Transport} {l : List (Transport × Nat)} :
    onQueue t l = [] ↔ ∀ r ∈ l, r.1 ≠ t := by
  simp [onQueue, List.filter_eq_nil_iff]

/-- The requests of a list are those of the two queues. -/
theorem onQueue_perm (l : List (Transport × Nat)) :
    (onQueue .dc l ++ onQueue .rc l).Perm (l.map Prod.snd) := by
  induction l with
  | nil => simp [onQueue]
  | cons r l ih =>
    obtain ⟨t, x⟩ := r
    cases t with
    | dc => simpa [onQueue] using ih.cons x
    | rc =>
      have hmid : (onQueue .dc l ++ x :: onQueue .rc l).Perm
          (x :: (onQueue .dc l ++ onQueue .rc l)) :=
        List.perm_middle
      simpa [onQueue] using hmid.trans (ih.cons x)

theorem Ordered.inPushOrder {s : DataPath} (h : s.Ordered) : s.InPushOrder := by
  refine ⟨_, h.order, ?_⟩
  -- Group what is left by list instead of by queue.
  have hgroup : (onQueue .dc s.nic.done ++ onQueue .dc s.nic.pending ++
      (onQueue .rc s.nic.done ++ onQueue .rc s.nic.pending)).Perm
      ((onQueue .dc s.nic.pending ++ onQueue .rc s.nic.pending) ++
        (onQueue .dc s.nic.done ++ onQueue .rc s.nic.done)) := by
    refine List.perm_iff_count.mpr fun x => ?_
    simp only [List.count_append]
    omega
  refine hgroup.trans ?_
  rw [WorkQueue.all, List.map_append]
  exact (onQueue_perm s.nic.pending).append (onQueue_perm s.nic.done)

/-! ## The pieces of a step -/

theorem take_eq_some {s s' : DataPath} {t : Transport} (h : s.take t = some s') :
    ∃ x rest, onQueue t s.nic.done = x :: rest ∧
      s' = { s with nic := { s.nic with done := s'.nic.done }, returned := s.returned ++ [x] } ∧
      onQueue t s'.nic.done = rest ∧
      ∀ t', t' ≠ t → onQueue t' s'.nic.done = onQueue t' s.nic.done := by
  have hfst := List.takeFirst_fst (fun r : Transport × Nat => decide (r.1 = t)) 1 s.nic.done
  have hsnd := List.takeFirst_snd_filter (fun r : Transport × Nat => decide (r.1 = t)) 1 s.nic.done
  have hother : ∀ t', t' ≠ t → onQueue t' (s.nic.done.takeFirst (fun r => decide (r.1 = t)) 1).2 =
      onQueue t' s.nic.done := by
    intro t' hne
    unfold onQueue
    rw [List.takeFirst_snd_filter_of_disjoint]
    intro r hr
    simp only [decide_eq_true_eq] at hr
    simp [hr, hne]
  unfold take WorkQueue.poll at h
  split at h
  · cases h
  · rename_i r taken nic heq
    simp only [Option.some.injEq] at h
    subst h
    obtain ⟨htaken, rfl⟩ := Prod.mk.inj heq
    rw [htaken] at hfst
    cases hf : s.nic.done.filter fun r => decide (r.1 = t) with
    | nil => simp [hf] at hfst
    | cons y ys =>
      simp only [hf, List.take_succ_cons, List.take_zero, List.cons.injEq] at hfst
      simp only [hf, List.drop_succ_cons, List.drop_zero] at hsnd
      refine ⟨r.2, ys.map Prod.snd, by simp [onQueue, hf, hfst.1], rfl, ?_, hother⟩
      simp [onQueue, hsnd]

theorem take_eq_none {s : DataPath} {t : Transport} :
    s.take t = none ↔ onQueue t s.nic.done = [] := by
  have hfst := List.takeFirst_fst (fun r : Transport × Nat => decide (r.1 = t)) 1 s.nic.done
  constructor
  · intro h
    unfold take WorkQueue.poll at h
    split at h
    · rename_i nic heq
      rw [(Prod.mk.inj heq).1] at hfst
      cases hf : s.nic.done.filter fun r => decide (r.1 = t) with
      | nil => simp [onQueue, hf]
      | cons y ys => simp [hf] at hfst
    · cases h
  · intro h
    have hnil : s.nic.done.filter (fun r => decide (r.1 = t)) = [] := by
      simpa [onQueue] using h
    have hpoll : (s.nic.poll (fun r => decide (r.1 = t)) 1).1 = [] := by
      rw [WorkQueue.poll, hfst, hnil]
      rfl
    unfold take
    split
    · rfl
    · rename_i heq
      rw [heq] at hpoll
      cases hpoll

theorem complete_eq_some {s s' : DataPath} {t : Transport}
    (h : s.step (.complete t) = some s') :
    ∃ x rest, onQueue t s.nic.pending = x :: rest ∧ s' = { s with nic := s'.nic } ∧
      onQueue t s'.nic.pending = rest ∧ onQueue t s'.nic.done = onQueue t s.nic.done ++ [x] ∧
      ∀ t', t' ≠ t → onQueue t' s'.nic.pending = onQueue t' s.nic.pending ∧
        onQueue t' s'.nic.done = onQueue t' s.nic.done := by
  simp only [step, Option.map_eq_some_iff] at h
  obtain ⟨nic, hnic, rfl⟩ := h
  obtain ⟨r, hpending, hdone, hrest⟩ := WorkQueue.completeFirst_eq_some hnic
  have hrt : r.1 = t := by
    have hmem : r ∈ s.nic.pending.filter fun r => decide (r.1 = t) := by
      rw [hpending]
      exact List.mem_cons_self
    simpa using (List.mem_filter.mp hmem).2
  refine ⟨r.2, onQueue t nic.pending, by simp [onQueue, hpending], rfl, rfl, ?_,
    fun t' hne => ⟨?_, ?_⟩⟩
  · simp only [hdone, onQueue_append]
    simp [onQueue, hrt]
  · unfold onQueue
    rw [hrest, List.takeFirst_snd_filter_of_disjoint]
    intro r' hr'
    simp only [decide_eq_true_eq] at hr'
    simp [hr', hne]
  · have hne' : r.1 ≠ t' := fun heq => hne (heq.symm.trans hrt)
    simp only [hdone, onQueue_append]
    simp [onQueue, hne']

/-! ## One step -/

/-- Taking from the DC returns the oldest request that has not been returned. -/
theorem Ordered.takeDc {s s' : DataPath} (h : s.Ordered) (htake : s.take .dc = some s') :
    s'.Ordered := by
  obtain ⟨x, rest, hdone, hs', hdone', hother⟩ := take_eq_some htake
  have hrc := hother .rc (by decide)
  rw [hs'] at hdone' hrc ⊢
  exact ⟨by simpa [hdone', hrc, hdone] using h.order, by simpa [hrc] using h.unconnected⟩

theorem dcDrained_iff {s : DataPath} :
    (∀ r ∈ s.nic.all, r.1 ≠ .dc) ↔ onQueue .dc s.nic.done ++ onQueue .dc s.nic.pending = [] := by
  rw [← onQueue_append, onQueue_eq_nil]
  simp only [WorkQueue.all, List.mem_append]
  exact ⟨fun h r hr => h r hr.symm, fun h r hr => h r hr.symm⟩

/-- Taking from the RC keeps the order if nothing is left on the DC. -/
theorem Ordered.takeRc {s s' : DataPath} (h : s.Ordered) (htake : s.take .rc = some s')
    (hdrained : ∀ r ∈ s.nic.all, r.1 ≠ .dc) : s'.Ordered := by
  obtain ⟨x, rest, hdone, hs', hdone', hother⟩ := take_eq_some htake
  have hdc := hother .dc (by decide)
  obtain ⟨hd, hp⟩ := List.append_eq_nil_iff.mp (dcDrained_iff.mp hdrained)
  have horder := h.order
  have hconn : s.rcConnected = true := by
    by_contra hne
    have := (h.unconnected (by simpa using hne)).1
    rw [hdone] at this
    cases this
  rw [hs'] at hdone' hdc ⊢
  exact ⟨by simpa [hdone', hdc, hd, hp, hdone] using horder, by simp [hconn]⟩

/-- If something is left on the DC, what is taken from the RC overtakes it. -/
theorem Ordered.takeRc_overtakes {s s' : DataPath} (h : s.Ordered) (htake : s.take .rc = some s')
    (horder : s'.InPushOrder) : ∀ r ∈ s.nic.all, r.1 ≠ .dc := by
  obtain ⟨x, rest, hdone, hs', -, -⟩ := take_eq_some htake
  obtain ⟨rest', hrange, -⟩ := horder
  rw [dcDrained_iff]
  cases hdc : onQueue .dc s.nic.done ++ onQueue .dc s.nic.pending with
  | nil => rfl
  | cons d ds =>
    exfalso
    have hold := h.order
    rw [hdc, hdone] at hold
    rw [hs'] at hrange
    -- Both ways to continue the returned requests agree, so `x` is the request `d`.
    have hcancel : [x] ++ rest' = d :: ds ++ (x :: rest ++ onQueue .rc s.nic.pending) := by
      have heq := hrange.symm.trans hold
      rw [List.append_assoc] at heq
      exact List.append_cancel_left heq
    have hxd : x = d := by simpa using (List.cons.inj hcancel).1
    have hnodup : (s.returned ++ (d :: ds ++ (x :: rest ++ onQueue .rc s.nic.pending))).Nodup := by
      rw [← hold]
      exact List.nodup_range
    have htail := (List.nodup_append.mp hnodup).2.1
    rw [hxd] at htail
    simp at htail

theorem Ordered.batch {s s' : DataPath} (h : s.Ordered) {accepted : Nat}
    (hstep : s.batch accepted = some s') : s'.Ordered := by
  simp only [DataPath.batch, Option.bind_eq_bind, Option.bind_eq_some_iff] at hstep
  obtain ⟨call, -, hstep⟩ := hstep
  split at hstep
  · simp only [Option.some.injEq] at hstep
    subst hstep
    have hrange : List.range (s.pushed + accepted) =
        List.range s.pushed ++ List.range' s.pushed accepted := by
      rw [List.range_eq_range', List.range_eq_range', ← List.range'_append]
      simp
    cases hconn : s.rcConnected with
    | false =>
      obtain ⟨hd, hp⟩ := h.unconnected hconn
      refine ⟨?_, ?_⟩
      · simp [hrange, h.order, onQueue_map, hd, hp]
      · simp [onQueue_map, hd, hp]
    | true =>
      refine ⟨?_, by simp⟩
      simp [hrange, h.order, onQueue_map]
  · cases hstep

theorem Ordered.complete {s s' : DataPath} (h : s.Ordered) {t : Transport}
    (hstep : s.step (.complete t) = some s') : s'.Ordered := by
  obtain ⟨x, rest, hpending, hs', hpending', hdone', hother⟩ := complete_eq_some hstep
  have horder := h.order
  cases t with
  | dc =>
    obtain ⟨hp, hd⟩ := hother .rc (by decide)
    rw [hs'] at hpending' hdone' hp hd ⊢
    exact ⟨by simpa [hpending', hdone', hp, hd, hpending] using horder,
      by simpa [hp, hd] using h.unconnected⟩
  | rc =>
    obtain ⟨hp, hd⟩ := hother .dc (by decide)
    have hconn : s.rcConnected = true := by
      by_contra hne
      have := (h.unconnected (by simpa using hne)).2
      rw [hpending] at this
      cases this
    rw [hs'] at hpending' hdone' hp hd ⊢
    exact ⟨by simpa [hpending', hdone', hp, hd, hpending] using horder, by simp [hconn]⟩

/-- What a step does from an ordered state: it stays ordered exactly if nothing is
    taken from the RC while something is left on the DC. -/
def OrderedStep (s : DataPath) (e : Event) (s' : DataPath) : Prop :=
  (s.DcDrained e → s'.Ordered) ∧ (s'.InPushOrder → s.DcDrained e)

/-- Steps that do not touch the RC's completions only have to stay ordered. -/
theorem Ordered.quiet {s s' : DataPath} {e : Event} (h : s'.Ordered) (hno : ¬ s.TakesRc e) :
    OrderedStep s e s' :=
  ⟨fun _ => h, fun _ ht => absurd ht hno⟩

theorem Ordered.pop {s : DataPath} (h : s.Ordered) : OrderedStep s .pop s.popImpl := by
  cases hdc : s.take .dc with
  | some s₁ =>
    obtain ⟨x, rest, hdone, -⟩ := take_eq_some hdc
    have hno : ¬ s.TakesRc .pop := fun ht => by
      have hnil := ht.2.1
      rw [hdone] at hnil
      cases hnil
    simpa only [popImpl, hdc] using (h.takeDc hdc).quiet hno
  | none =>
    simp only [popImpl, hdc]
    split
    · rename_i hconn
      cases hrc : s.take .rc with
      | none => exact h.quiet fun ht => ht.2.2 (take_eq_none.mp hrc)
      | some s₁ =>
        have ht : s.TakesRc .pop := by
          refine ⟨hconn, take_eq_none.mp hdc, fun hnil => ?_⟩
          rw [take_eq_none.mpr hnil] at hrc
          cases hrc
        exact ⟨fun hd => h.takeRc hrc (hd ht), fun horder _ => h.takeRc_overtakes hrc horder⟩
    · rename_i hconn
      exact h.quiet fun ht => hconn ht.1

theorem Ordered.loopEnd {s s' : DataPath} (h : s.Ordered) (hstep : s.loopEnd = some s') :
    s'.Ordered := by
  simp only [DataPath.loopEnd, Option.bind_eq_bind, Option.bind_eq_some_iff] at hstep
  obtain ⟨call, -, hstep⟩ := hstep
  split at hstep
  · cases hstep
  · split at hstep
    · cases hstep
      exact ⟨h.order, h.unconnected⟩
    · cases hstep
      exact ⟨h.order, h.unconnected⟩

theorem Ordered.waitTilComp {s s' : DataPath} (h : s.Ordered) {udReady : Bool}
    (hstep : s.waitTilComp udReady = some s') : OrderedStep s (.waitTilComp udReady) s' := by
  simp only [DataPath.waitTilComp, Option.bind_eq_bind, Option.bind_eq_some_iff] at hstep
  obtain ⟨call, hcall, hstep⟩ := hstep
  split at hstep
  · cases hstep
  · rename_i hwait
    simp only [Option.map_eq_some_iff] at hstep
    obtain ⟨s₁, htake, rfl⟩ := hstep
    refine ⟨fun hd => ?_, fun horder _ => h.takeRc_overtakes htake horder⟩
    have ho := h.takeRc htake (hd ⟨call, hcall, hwait⟩)
    exact ⟨ho.order, ho.unconnected⟩
  · rename_i hwait
    split at hstep
    · cases hstep
      refine Ordered.quiet ⟨h.order, h.unconnected⟩ fun ⟨call', hcall', hrc⟩ => ?_
      obtain rfl : call = call' := Option.some.inj (hcall.symm.trans hcall')
      rw [hwait] at hrc
      cases hrc
    · cases hstep

theorem Ordered.step {s s' : DataPath} (h : s.Ordered) {e : Event} (hstep : s.step e = some s') :
    OrderedStep s e s' := by
  cases e with
  | push reqLen popRes recvRet =>
    simp only [DataPath.step] at hstep
    split at hstep
    · cases hstep
    · cases hstep
      exact Ordered.quiet ⟨h.order, h.unconnected⟩ id
  | batch accepted => exact (h.batch hstep).quiet id
  | loopEnd => exact (h.loopEnd hstep).quiet id
  | waitTilComp udReady => exact h.waitTilComp hstep
  | migrate =>
    simp only [DataPath.step] at hstep
    split at hstep
    · cases hstep
    · cases hstep
      exact Ordered.quiet ⟨h.order, by simp⟩ id
  | complete t => exact (h.complete hstep).quiet id
  | pop =>
    cases hstep
    exact h.pop

theorem ordered_start : start.Ordered := ⟨rfl, fun _ => ⟨rfl, rfl⟩⟩

/-- In a run the user gets the completions of the pushed requests in push order,
    each once, in every state reached exactly if completions are taken from the
    RC only when nothing is left on the DC. -/
theorem inPushOrder_iff (es : List Event) :
    Run.Always DataPath.step InPushOrder start es ↔ Run.Guarded DataPath.step DcDrained start es :=
  Run.always_iff_guarded (I := Ordered)
    (fun _ _ _ h hstep horder => (h.step hstep).1 ((h.step hstep).2 horder))
    (fun _ _ _ h _ hstep => ⟨(h.step hstep).2, fun hd => ((h.step hstep).1 hd).inPushOrder⟩)
    ordered_start ordered_start.inPushOrder es

/-- A request on the DC, the migration, a request on the RC, which completes
    first: Pop returns the second request before the first. -/
theorem rc_overtakes_dc :
    ∃ s, Run.exec DataPath.step start
        [.push 1 false .ok, .batch 1, .loopEnd, .migrate, .push 1 false .ok, .batch 1, .loopEnd,
          .complete .rc, .pop] = some s ∧
      s.returned = [1] ∧ ¬ s.InPushOrder := by
  refine ⟨_, rfl, rfl, ?_⟩
  rintro ⟨rest, hrange, -⟩
  cases hrange

end DataPath

end Migration
