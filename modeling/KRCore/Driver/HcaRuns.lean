-- SUMMARY: Runs of the queue pairs and completion queues of the mlx5 driver: every run is one of the histories, and polls return requests in order.
import Mathlib.Data.List.Sublists
import KRCore.Driver.QpHistory

/-!
# Runs of queue pairs and completion queues

What a queue pair and a completion queue do to each other, and what follows for all
runs: the log of a run can be replayed on the histories, a poll never fails, and it
returns the requests of each queue in the order in which they were posted, across
resets and reuse of queue pair numbers.
-/

namespace Driver

/-! ## All queues together -/

/-- The completions of the send queue of a queue pair. -/
def sendsOf (qpn : Nat) (q : List Cqe) : List Cqe :=
  q.filter fun c => decide (c.qpn = qpn) && c.opcode.isSend

def recvsOf (qpn : Nat) (q : List Cqe) : List Cqe :=
  q.filter fun c => decide (c.qpn = qpn) && c.opcode.isRecv

/-- A completion is in a completion queue of its queue pair. -/
def HcaCfg.Owns (cfg : HcaCfg) (cqn : Nat) (c : Cqe) : Prop :=
  (c.opcode.isSend = true ∧ cfg.sendCq c.qpn = cqn) ∨
    (c.opcode.isRecv = true ∧ cfg.recvCq c.qpn = cqn)

structure HcaInv (cfg : HcaCfg) (s : HcaState) (q : Nat → List Cqe) (hs : Nat → QpHist) :
    Prop where
  cqs : ∀ cqn, ∃ p reported, CqInv (cfg.logCqe cqn) (s.cqs cqn) (q cqn) p reported
  owns : ∀ cqn, ∀ c ∈ q cqn, cfg.Owns cqn c
  -- the removal of completions will reach all of them
  beyond : ∀ cqn cl, (s.cqs cqn).clean = some cl →
    ∀ c ∈ (q cqn).drop (2 ^ cfg.logCqe cqn - 1), c.qpn ≠ cl.rsn
  locked : ∀ qpn cqn next, (s.qps qpn).cleaning cfg qpn = some (cqn, next) →
    (s.cqs cqn).clean.map Clean.rsn = some qpn
  qps : ∀ qpn, QpInv cfg qpn (s.qps qpn) (hs qpn) (sendsOf qpn (q (cfg.sendCq qpn)))
    (recvsOf qpn (q (cfg.recvCq qpn)))
  log : Run.exec (histStep cfg) (fun _ => .init false) s.log = some hs

section Completions

variable {qpn : Nat} {c : Cqe}

theorem isRecv_of_isSend {o : CqeOpcode} (h : o.isSend = true) : o.isRecv = false := by
  cases o <;> first | rfl | cases h

theorem isSend_of_isRecv {o : CqeOpcode} (h : o.isRecv = true) : o.isSend = false := by
  cases o <;> first | rfl | cases h

/-- What looks the same in a new list looks the same in all lists. -/
theorem apply_update {β : Type*} (f : List Cqe → β) {q : Nat → List Cqe} {cqn : Nat}
    {q' : List Cqe} (h : f q' = f (q cqn)) (n : Nat) : f (Function.update q cqn q' n) = f (q n) := by
  by_cases hn : n = cqn
  · rw [hn, Function.update_self, h]
  · rw [Function.update_of_ne hn]

theorem sendsOf_concat (q : List Cqe) :
    sendsOf qpn (q ++ [c]) =
      sendsOf qpn q ++ (if c.qpn = qpn ∧ c.opcode.isSend = true then [c] else []) := by
  simp [sendsOf, List.filter_cons]

theorem recvsOf_concat (q : List Cqe) :
    recvsOf qpn (q ++ [c]) =
      recvsOf qpn q ++ (if c.qpn = qpn ∧ c.opcode.isRecv = true then [c] else []) := by
  simp [recvsOf, List.filter_cons]

theorem sendsOf_cons (q : List Cqe) :
    sendsOf qpn (c :: q) =
      if c.qpn = qpn ∧ c.opcode.isSend = true then c :: sendsOf qpn q else sendsOf qpn q := by
  simp [sendsOf, List.filter_cons]

theorem recvsOf_cons (q : List Cqe) :
    recvsOf qpn (c :: q) =
      if c.qpn = qpn ∧ c.opcode.isRecv = true then c :: recvsOf qpn q else recvsOf qpn q := by
  simp [recvsOf, List.filter_cons]

theorem sendsOf_filter_self (q : List Cqe) :
    sendsOf qpn (q.filter fun c => !decide (c.qpn = qpn)) = [] := by
  rw [sendsOf, List.filter_filter, List.filter_eq_nil_iff]
  intro c _
  by_cases h : c.qpn = qpn <;> simp [h]

theorem recvsOf_filter_self (q : List Cqe) :
    recvsOf qpn (q.filter fun c => !decide (c.qpn = qpn)) = [] := by
  rw [recvsOf, List.filter_filter, List.filter_eq_nil_iff]
  intro c _
  by_cases h : c.qpn = qpn <;> simp [h]

theorem sendsOf_filter_of_ne {qpn' : Nat} (hne : qpn' ≠ qpn) (q : List Cqe) :
    sendsOf qpn' (q.filter fun c => !decide (c.qpn = qpn)) = sendsOf qpn' q := by
  rw [sendsOf, List.filter_filter]
  refine List.filter_congr fun c _ => ?_
  by_cases h : c.qpn = qpn' <;> simp [h, hne]

theorem recvsOf_filter_of_ne {qpn' : Nat} (hne : qpn' ≠ qpn) (q : List Cqe) :
    recvsOf qpn' (q.filter fun c => !decide (c.qpn = qpn)) = recvsOf qpn' q := by
  rw [recvsOf, List.filter_filter]
  refine List.filter_congr fun c _ => ?_
  by_cases h : c.qpn = qpn' <;> simp [h, hne]

end Completions

section HcaInv

variable {cfg : HcaCfg} {s s' : HcaState} {q : Nat → List Cqe} {hs : Nat → QpHist}

theorem HcaInv.init (hcfg : cfg.Ok) :
    HcaInv cfg (.init cfg) (fun _ => []) (fun _ => .init false) where
  cqs := fun cqn => ⟨0, 0, .init (cfg.logCqe cqn)⟩
  owns := by simp
  beyond := by simp
  locked := fun qpn cqn next hcl => by cases hcl
  qps := .init hcfg
  log := rfl

/-- What happens to a queue pair happens to its history only. -/
theorem exec_histStep {qpn : Nat} {log : List QpLog} {h' : QpHist}
    (h : Run.exec (QpHist.step cfg qpn) (hs qpn) log = some h') :
    Run.exec (histStep cfg) hs (log.map (.qp qpn)) = some (Function.update hs qpn h') := by
  induction log generalizing hs with
  | nil =>
    cases h
    simp
  | cons l log ih =>
    obtain ⟨h₁, hstep, hrest⟩ := Run.exec_cons_eq_some.mp h
    have hnext := @ih (Function.update hs qpn h₁) (by simpa using hrest)
    simpa [histStep, hstep] using hnext

/-- A queue pair and a completion queue change together; the completions of the other queue
    pairs stay. -/
theorem HcaInv.update (hinv : HcaInv cfg s q hs) {qpn cqn : Nat} {qp' : Qp} {h' : QpHist}
    {log : List QpLog} {cq' : CqState} {q' : List Cqe}
    (hcq : ∃ p reported, CqInv (cfg.logCqe cqn) cq' q' p reported)
    (howns : ∀ c ∈ q', cfg.Owns cqn c)
    (hbeyond : ∀ cl, cq'.clean = some cl →
      ∀ c ∈ q'.drop (2 ^ cfg.logCqe cqn - 1), c.qpn ≠ cl.rsn)
    (hself : ∀ cqn' next, qp'.cleaning cfg qpn = some (cqn', next) →
      (Function.update s.cqs cqn cq' cqn').clean.map Clean.rsn = some qpn)
    (hother : ∀ qpn', qpn' ≠ qpn → ∀ next, (s.qps qpn').cleaning cfg qpn' = some (cqn, next) →
      cq'.clean.map Clean.rsn = some qpn')
    (hsends : ∀ qpn', qpn' ≠ qpn → sendsOf qpn' q' = sendsOf qpn' (q cqn))
    (hrecvs : ∀ qpn', qpn' ≠ qpn → recvsOf qpn' q' = recvsOf qpn' (q cqn))
    (hqp : QpInv cfg qpn qp' h' (sendsOf qpn (Function.update q cqn q' (cfg.sendCq qpn)))
      (recvsOf qpn (Function.update q cqn q' (cfg.recvCq qpn))))
    (hlog : Run.exec (QpHist.step cfg qpn) (hs qpn) log = some h') :
    HcaInv cfg ((s.setQp qpn qp' log).setCq cqn cq') (Function.update q cqn q')
      (Function.update hs qpn h') := by
  constructor
  case cqs =>
    intro n
    by_cases hn : n = cqn
    · subst hn
      simpa [HcaState.setCq] using hcq
    · simpa [HcaState.setCq, HcaState.setQp, Function.update_of_ne hn] using hinv.cqs n
  case owns =>
    intro n
    by_cases hn : n = cqn
    · subst hn
      simpa using howns
    · simpa [Function.update_of_ne hn] using hinv.owns n
  case beyond =>
    intro n
    by_cases hn : n = cqn
    · subst hn
      simpa [HcaState.setCq] using hbeyond
    · simpa [HcaState.setCq, HcaState.setQp, Function.update_of_ne hn] using hinv.beyond n
  case locked =>
    intro n m next hcl
    by_cases hn : n = qpn
    · subst hn
      simp only [HcaState.setCq, HcaState.setQp, Function.update_self] at hcl
      exact hself m next hcl
    · simp only [HcaState.setCq, HcaState.setQp, Function.update_of_ne hn] at hcl
      by_cases hm : m = cqn
      · subst hm
        simpa [HcaState.setCq] using hother n hn next hcl
      · simpa [HcaState.setCq, HcaState.setQp, Function.update_of_ne hm] using
          hinv.locked n m next hcl
  case qps =>
    intro n
    by_cases hn : n = qpn
    · subst hn
      simpa [HcaState.setCq, HcaState.setQp] using hqp
    · rw [Function.update_of_ne hn, apply_update (sendsOf n) (hsends n hn),
        apply_update (recvsOf n) (hrecvs n hn)]
      simpa [HcaState.setCq, HcaState.setQp, Function.update_of_ne hn] using hinv.qps n
  case log =>
    change Run.exec (histStep cfg) _ (s.log ++ log.map (.qp qpn)) = _
    rw [Run.exec_append, hinv.log]
    exact exec_histStep hlog

/-- Only a queue pair changes. -/
theorem HcaInv.setQp (hinv : HcaInv cfg s q hs) {qpn : Nat} {qp' : Qp} {h' : QpHist}
    {log : List QpLog}
    (hself : ∀ cqn next, qp'.cleaning cfg qpn = some (cqn, next) →
      (s.cqs cqn).clean.map Clean.rsn = some qpn)
    (hqp : QpInv cfg qpn qp' h' (sendsOf qpn (q (cfg.sendCq qpn))) (recvsOf qpn (q (cfg.recvCq qpn))))
    (hlog : Run.exec (QpHist.step cfg qpn) (hs qpn) log = some h') :
    HcaInv cfg (s.setQp qpn qp' log) q (Function.update hs qpn h') := by
  have h : HcaInv cfg ((s.setQp qpn qp' log).setCq 0 (s.cqs 0)) (Function.update q 0 (q 0))
      (Function.update hs qpn h') :=
    hinv.update (hinv.cqs 0) (hinv.owns 0) (hinv.beyond 0) (by simpa using hself)
      (fun n _ next hcl => hinv.locked n 0 next hcl) (fun _ _ => rfl) (fun _ _ => rfl)
      (by simpa using hqp) hlog
  simpa [HcaState.setCq, HcaState.setQp] using h

/-- Only a completion queue changes, and not what is in it. -/
theorem HcaInv.setCq (hinv : HcaInv cfg s q hs) {cqn : Nat} {cq' : CqState}
    (hcq : ∃ p reported, CqInv (cfg.logCqe cqn) cq' (q cqn) p reported)
    (hclean : cq'.clean = (s.cqs cqn).clean) : HcaInv cfg (s.setCq cqn cq') q hs where
  cqs := by
    intro n
    by_cases hn : n = cqn
    · subst hn
      simpa [HcaState.setCq] using hcq
    · simpa [HcaState.setCq, Function.update_of_ne hn] using hinv.cqs n
  owns := hinv.owns
  beyond := by
    intro n
    by_cases hn : n = cqn
    · subst hn
      simpa [HcaState.setCq, hclean] using hinv.beyond n
    · simpa [HcaState.setCq, Function.update_of_ne hn] using hinv.beyond n
  locked := by
    intro n m next hcl
    have := hinv.locked n m next hcl
    by_cases hm : m = cqn
    · subst hm
      simpa [HcaState.setCq, hclean] using this
    · simpa [HcaState.setCq, Function.update_of_ne hm] using this
  qps := hinv.qps
  log := hinv.log

/-- The device writes a completion of a queue pair that is up. -/
theorem HcaInv.write (hcfg : cfg.Ok) (hinv : HcaInv cfg s q hs) {c : Cqe} {cqn : Nat} {qp' : Qp}
    {h' : QpHist} {l : QpLog} {cq' : CqState}
    (hstep : cqStep (s.cqs cqn) (.write c) = some cq') (howns : cfg.Owns cqn c)
    (hdown : qp'.down = none)
    (hqp : QpInv cfg c.qpn qp' h'
      (sendsOf c.qpn (Function.update q cqn (q cqn ++ [c]) (cfg.sendCq c.qpn)))
      (recvsOf c.qpn (Function.update q cqn (q cqn ++ [c]) (cfg.recvCq c.qpn))))
    (hlog : (hs c.qpn).step cfg c.qpn l = some h') :
    HcaInv cfg ((s.setQp c.qpn qp' [l]).setCq cqn cq') (Function.update q cqn (q cqn ++ [c]))
      (Function.update hs c.qpn h') := by
  obtain ⟨p, reported, hcq⟩ := hinv.cqs cqn
  have hcq' := hcq.write (hcfg.cq cqn) hstep
  obtain ⟨hclean, hquiet⟩ := cqStep_write_eq_some hstep
  refine hinv.update ⟨p, reported, hcq'⟩ ?_ ?_ ?_ ?_ ?_ ?_ hqp (by simpa using hlog)
  · intro c' hc'
    rcases List.mem_append.mp hc' with hold | hnew
    · exact hinv.owns cqn c' hold
    · rw [List.mem_singleton.mp hnew]
      exact howns
  · intro cl hcl c' hc'
    rw [hclean] at hcl
    rw [List.drop_append] at hc'
    rcases List.mem_append.mp hc' with hold | hnew
    · exact hinv.beyond cqn cl hcl c' hold
    · rw [List.mem_singleton.mp (List.mem_of_mem_drop hnew)]
      simpa [hcl] using hquiet
  · intro n next hcl
    rw [Qp.cleaning, hdown] at hcl
    cases hcl
  · intro n _ next hcl
    rw [hclean]
    exact hinv.locked n cqn next hcl
  · intro n hn
    rw [sendsOf_concat, if_neg fun h => hn h.1.symm, List.append_nil]
  · intro n hn
    rw [recvsOf_concat, if_neg fun h => hn h.1.symm, List.append_nil]

theorem HcaInv.execute (hcfg : cfg.Ok) (hinv : HcaInv cfg s q hs) {qpn : Nat} {ok : Bool} {c : Cqe}
    (hstep : hcaStep cfg s (.execute qpn ok c) = some s') : ∃ q' hs', HcaInv cfg s' q' hs' := by
  simp only [hcaStep] at hstep
  split at hstep
  case h_1 => cases hstep
  case h_2 e rest hsq =>
    split at hstep
    case isFalse => cases hstep
    case isTrue hgo =>
      obtain ⟨hdown, hok⟩ := hgo
      obtain ⟨send', hexec, hsilent, hreport⟩ := (hinv.qps qpn).execute hsq hdown hok
      have hlog : (hs qpn).step cfg qpn (.executed ok) = some { hs qpn with send := send' } := by
        rw [QpHist.step, hexec]
        rfl
      split at hstep
      case isFalse hnot =>
        cases hstep
        refine ⟨q, _, hinv.setQp ?_ (hsilent (by simpa using hnot)) (by simpa using hlog)⟩
        exact fun cqn next hcl => hinv.locked qpn cqn next hcl
      case isTrue hsig =>
        split at hstep
        case isFalse => cases hstep
        case isTrue hc =>
          obtain ⟨cq', hwrite, rfl⟩ := Option.map_eq_some_iff.mp hstep
          obtain rfl := hc.1
          have hsend : c.opcode.isSend = true := by
            rw [hc.2.2]
            cases ok <;> rfl
          refine ⟨_, _, hinv.write hcfg hwrite (.inl ⟨hsend, rfl⟩) hdown ?_ hlog⟩
          rw [Function.update_self, sendsOf_concat, if_pos ⟨rfl, hsend⟩, apply_update (recvsOf _)]
          · exact hreport c hsig hc
          · rw [recvsOf_concat, isRecv_of_isSend hsend]
            simp

theorem HcaInv.receive (hcfg : cfg.Ok) (hinv : HcaInv cfg s q hs) {qpn : Nat} {ok : Bool} {c : Cqe}
    (hstep : hcaStep cfg s (.receive qpn ok c) = some s') : ∃ q' hs', HcaInv cfg s' q' hs' := by
  simp only [hcaStep] at hstep
  split at hstep
  case isFalse => cases hstep
  case isTrue hgo =>
    obtain ⟨hdown, hrq, hok, hc⟩ := hgo
    obtain ⟨recv', hconsume, hqp⟩ := (hinv.qps qpn).receive hrq hdown ok c
    have hlog : (hs qpn).step cfg qpn .received = some { hs qpn with recv := recv' } := by
      rw [QpHist.step, hconsume]
      rfl
    obtain ⟨cq', hwrite, rfl⟩ := Option.map_eq_some_iff.mp hstep
    obtain ⟨rfl, hrecv, -⟩ := hc
    refine ⟨_, _, hinv.write hcfg hwrite (.inr ⟨hrecv, rfl⟩) hdown ?_ hlog⟩
    rw [Function.update_self, recvsOf_concat, if_pos ⟨rfl, hrecv⟩, apply_update (sendsOf _)]
    · exact hqp
    · rw [sendsOf_concat, isSend_of_isRecv hrecv]
      simp

/-- A poll takes the oldest completion of a queue; the driver finds its queue pair and its
    request. -/
theorem HcaInv.poll_cons (hcfg : cfg.Ok) (hinv : HcaInv cfg s q hs) {cqn : Nat} {c : Cqe}
    {rest : List Cqe} (hq : q cqn = c :: rest) {cq' : CqState}
    (hpoll : cqStep (s.cqs cqn) .poll = some cq') :
    ∃ qp' l h', (s.qps c.qpn).pollOne c = some (qp', l) ∧
      HcaInv cfg ((s.setQp c.qpn qp' [l]).setCq cqn cq') (Function.update q cqn rest)
        (Function.update hs c.qpn h') := by
  obtain ⟨p, reported, hcq⟩ := hinv.cqs cqn
  obtain ⟨p', hcq'⟩ := hcq.poll (hcfg.cq cqn) hpoll
  rw [hq] at hcq'
  obtain ⟨hidle, hidle'⟩ := cqStep_poll_eq_some hpoll
  have hupdate : ∀ {qp' l h'}, qp'.down = (s.qps c.qpn).down →
      (hs c.qpn).step cfg c.qpn l = some h' →
      QpInv cfg c.qpn qp' h' (sendsOf c.qpn (Function.update q cqn rest (cfg.sendCq c.qpn)))
        (recvsOf c.qpn (Function.update q cqn rest (cfg.recvCq c.qpn))) →
      HcaInv cfg ((s.setQp c.qpn qp' [l]).setCq cqn cq') (Function.update q cqn rest)
        (Function.update hs c.qpn h') := by
    intro qp' l h' hdown hlog hqp
    refine hinv.update ⟨p', reported, hcq'⟩ ?_ ?_ ?_ ?_ ?_ ?_ hqp (by simpa using hlog)
    · intro c' hc'
      exact hinv.owns cqn c' (hq ▸ List.mem_cons_of_mem _ hc')
    · intro cl hcl
      rw [hidle'] at hcl
      cases hcl
    · intro n next hcl
      rw [Qp.cleaning, hdown] at hcl
      have hlocked := hinv.locked _ n next hcl
      refine (congrArg (Option.map Clean.rsn) ?_).trans hlocked
      exact Function.update_apply s.cqs cqn cq' n ▸ by
        split
        case isTrue hn => rw [hn, hidle, hidle']
        case isFalse => rfl
    · intro n _ next hcl
      have := hinv.locked n cqn next hcl
      rw [hidle] at this
      cases this
    · intro n hn
      rw [hq, sendsOf_cons, if_neg fun h => hn h.1.symm]
    · intro n hn
      rw [hq, recvsOf_cons, if_neg fun h => hn h.1.symm]
  have hqp := hinv.qps c.qpn
  rcases hinv.owns cqn c (hq ▸ List.mem_cons_self) with ⟨hsend, hcqn⟩ | ⟨hrecv, hcqn⟩
  · rw [hcqn, hq, sendsOf_cons, if_pos ⟨rfl, hsend⟩] at hqp
    obtain ⟨qp', l, h', hone, hdown, hlog, hqp'⟩ := hqp.pollOne_send hsend
    refine ⟨qp', l, h', hone, hupdate hdown hlog ?_⟩
    rw [hcqn, Function.update_self, apply_update (recvsOf _)]
    · exact hqp'
    · rw [hq, recvsOf_cons, isRecv_of_isSend hsend]
      simp
  · rw [hcqn, hq, recvsOf_cons, if_pos ⟨rfl, hrecv⟩] at hqp
    obtain ⟨qp', l, h', hone, hdown, hlog, hqp'⟩ := hqp.pollOne_recv hrecv
    refine ⟨qp', l, h', hone, hupdate hdown hlog ?_⟩
    rw [hcqn, Function.update_self, apply_update (sendsOf _)]
    · exact hqp'
    · rw [hq, sendsOf_cons, isSend_of_isRecv hrecv]
      simp

/-- A poll that finds nothing. -/
theorem HcaInv.poll_nil (hcfg : cfg.Ok) (hinv : HcaInv cfg s q hs) {cqn : Nat} (hq : q cqn = [])
    {cq' : CqState} (hpoll : cqStep (s.cqs cqn) .poll = some cq') :
    HcaInv cfg { s.setCq cqn cq' with log := s.log ++ [.pollEmpty cqn] } q hs := by
  obtain ⟨p, reported, hcq⟩ := hinv.cqs cqn
  obtain ⟨p', hcq'⟩ := hcq.poll (hcfg.cq cqn) hpoll
  obtain ⟨hidle, hidle'⟩ := cqStep_poll_eq_some hpoll
  rw [hq] at hcq'
  have hset : HcaInv cfg (s.setCq cqn cq') q hs :=
    hinv.setCq ⟨p', reported, hq ▸ hcq'⟩ (hidle'.trans hidle.symm)
  have hempty : histStep cfg hs (.pollEmpty cqn) = some hs := by
    refine if_pos fun qpn _ hup => ?_
    have hqp := hinv.qps qpn
    have hdown : (s.qps qpn).down = none := by
      rw [hqp.up] at hup
      exact of_decide_eq_true hup
    constructor
    · intro hcqn
      have hsends := hqp.sends (by simp [sendLive, hdown])
      rw [hcqn, hq] at hsends
      simpa [sendsOf] using hsends
    · intro hcqn
      have hrecvs := hqp.recvs (.inl hdown)
      rw [hcqn, hq] at hrecvs
      exact hrecvs
  exact
    { hset with
      log := by
        rw [Run.exec_concat_eq_some]
        exact ⟨hs, hinv.log, hempty⟩ }

theorem HcaInv.poll (hcfg : cfg.Ok) (hinv : HcaInv cfg s q hs) {cqn : Nat}
    (hstep : hcaStep cfg s (.poll cqn) = some s') : ∃ q' hs', HcaInv cfg s' q' hs' := by
  simp only [hcaStep] at hstep
  obtain ⟨cq', hpoll, hrest⟩ := Option.bind_eq_some_iff.mp hstep
  obtain ⟨p, reported, hcq⟩ := hinv.cqs cqn
  rw [hcq.nextCqeSw_eq (hcfg.cq cqn) (cqStep_poll_eq_some hpoll).1] at hrest
  cases hq : q cqn with
  | nil =>
    rw [hq] at hrest
    cases hrest
    exact ⟨q, hs, hinv.poll_nil hcfg hq hpoll⟩
  | cons c rest =>
    rw [hq] at hrest
    obtain ⟨qp', l, h', hone, hinv'⟩ := hinv.poll_cons hcfg hq hpoll
    simp only [List.head?_cons, hone, Option.map_some] at hrest
    cases hrest
    exact ⟨_, _, hinv'⟩

/-! ## Removing the completions of a queue pair -/

theorem HcaInv.clean (hcfg : cfg.Ok) (hinv : HcaInv cfg s q hs) {qpn : Nat}
    (hguard : HcaGuard cfg s (.clean qpn)) (hstep : hcaStep cfg s (.clean qpn) = some s') :
    ∃ q' hs', HcaInv cfg s' q' hs' := by
  simp only [hcaStep] at hstep
  obtain ⟨⟨cqn, next⟩, htarget, hrest⟩ := Option.bind_eq_some_iff.mp hstep
  obtain ⟨cq', hclean, rfl⟩ := Option.map_eq_some_iff.mp hrest
  obtain ⟨p, reported, hcq⟩ := hinv.cqs cqn
  obtain ⟨hidle, hrsn⟩ := cqStep_clean_eq_some hclean
  have hlen : (s.cqs cqn).cq.swCqes.length < 2 ^ cfg.logCqe cqn := by
    simpa only [HcaGuard, htarget] using hguard
  rw [hcq.swCqes_eq (hcfg.cq cqn) hidle] at hlen
  -- the queue pair takes the lock of the completion queue that it is about to clean
  have hphase : (s.qps qpn).down ≠ none ∧
      (sendLive (some next) ∧ sendLive (s.qps qpn).down) ∧
      (recvLive (some next) ↔ recvLive (s.qps qpn).down) ∧
      (next = .sendCq ∨ next = .sendCqLocked → cfg.sendCq qpn ≠ cfg.recvCq qpn) ∧
      ∀ n next', Qp.cleaning cfg qpn { s.qps qpn with down := some next } = some (n, next') →
        n = cqn := by
    simp only [Qp.toClean] at htarget
    split at htarget
    case h_1 hdown =>
      cases htarget
      simp [hdown, sendLive, recvLive, Qp.cleaning]
    case h_2 hdown =>
      cases htarget
      have := (hinv.qps qpn).other (.inl hdown)
      simp [hdown, sendLive, recvLive, Qp.cleaning, this]
    case h_3 => cases htarget
  obtain ⟨hdown, hsends, hrecvs, hother, htake⟩ := hphase
  have hqp := (hinv.qps qpn).setDown (d := next) hdown (fun _ => ⟨hsends.2, rfl⟩)
    (fun hgone => absurd hsends.1 hgone) (fun hlive => ⟨hrecvs.mp hlive, rfl⟩)
    (fun hgone => (hinv.qps qpn).recvs_gone fun hlive => hgone (hrecvs.mpr hlive)) hother
  refine ⟨Function.update q cqn (q cqn), Function.update hs qpn (hs qpn),
    hinv.update ⟨p, reported, hcq.clean hclean⟩ (hinv.owns cqn) ?_ ?_ ?_ (fun _ _ => rfl)
      (fun _ _ => rfl) (by simpa using hqp) (by simp)⟩
  · intro cl _ c hc
    change c ∈ (q cqn).drop (2 ^ cfg.logCqe cqn - 1) at hc
    rw [List.drop_eq_nil_of_le (by omega)] at hc
    cases hc
  · intro n next' hcl
    rw [htake n next' hcl, Function.update_self]
    exact hrsn
  · intro n _ next' hcl
    have := hinv.locked n cqn next' hcl
    rw [hidle] at this
    cases this

/-- The completions of the queue pair on one of its completion queues are gone. -/
theorem HcaInv.cleaned_qp (hinv : HcaInv cfg s q hs) {qpn cqn : Nat} {next : Down}
    (hcl : (s.qps qpn).cleaning cfg qpn = some (cqn, next)) :
    QpInv cfg qpn { s.qps qpn with down := some next } (hs qpn)
      (sendsOf qpn (Function.update q cqn ((q cqn).filter fun c => !decide (c.qpn = qpn))
        (cfg.sendCq qpn)))
      (recvsOf qpn (Function.update q cqn ((q cqn).filter fun c => !decide (c.qpn = qpn))
        (cfg.recvCq qpn))) := by
  have hqp := hinv.qps qpn
  simp only [Qp.cleaning] at hcl
  split at hcl
  case h_1 hdown =>
    rw [Option.some_inj, Prod.mk.injEq] at hcl
    obtain ⟨rfl, hnext⟩ := hcl
    by_cases hsame : cfg.sendCq qpn = cfg.recvCq qpn
    · rw [if_pos hsame] at hnext
      subst hnext
      rw [hsame, Function.update_self, sendsOf_filter_self, recvsOf_filter_self]
      refine hqp.setDown (by simp [hdown]) ?_ (fun _ => rfl) ?_ (fun _ => rfl) ?_
      all_goals simp [sendLive, recvLive]
    · rw [if_neg hsame] at hnext
      subst hnext
      rw [Function.update_of_ne hsame, Function.update_self, recvsOf_filter_self]
      refine hqp.setDown (by simp [hdown]) ?_ ?_ ?_ (fun _ => rfl) (fun _ => hsame)
      all_goals simp [sendLive, recvLive, hdown]
  case h_2 hdown =>
    rw [Option.some_inj, Prod.mk.injEq] at hcl
    obtain ⟨rfl, rfl⟩ := hcl
    have hne := hqp.other (.inr hdown)
    rw [Function.update_self, Function.update_of_ne (Ne.symm hne), sendsOf_filter_self,
      hqp.recvs_gone (by simp [recvLive, hdown])]
    refine hqp.setDown (by simp [hdown]) ?_ (fun _ => rfl) ?_ (fun _ => rfl) ?_
    all_goals simp [sendLive, recvLive]
  case h_3 => cases hcl

theorem HcaInv.cleanStep (hcfg : cfg.Ok) (hinv : HcaInv cfg s q hs) {qpn : Nat}
    (hstep : hcaStep cfg s (.cleanStep qpn) = some s') : ∃ q' hs', HcaInv cfg s' q' hs' := by
  simp only [hcaStep] at hstep
  obtain ⟨⟨cqn, next⟩, hcl, hrest⟩ := Option.bind_eq_some_iff.mp hstep
  obtain ⟨cq', hclean, rfl⟩ := Option.map_eq_some_iff.mp hrest
  dsimp only at hclean ⊢
  obtain ⟨p, reported, hcq⟩ := hinv.cqs cqn
  obtain ⟨cl, hlock, hrsn⟩ := Option.map_eq_some_iff.mp (hinv.locked qpn cqn next hcl)
  subst hrsn
  obtain ⟨q', p', reported', hcq', -, hq'⟩ := hcq.cleanStep (hcfg.cq cqn) hlock
  simp only [cqStep, hlock, Option.map_some, Option.some_inj] at hclean
  rw [hclean] at hcq' hq'
  have hlog : Run.exec (QpHist.step cfg cl.rsn) (hs cl.rsn) [] = some (hs cl.rsn) := rfl
  -- another queue pair cannot hold the same lock
  have hothers : ∀ n, n ≠ cl.rsn → ∀ next', (s.qps n).cleaning cfg n = some (cqn, next') →
      cq'.clean.map Clean.rsn = some n := by
    intro n hn next' hcl'
    have := hinv.locked n cqn next' hcl'
    rw [hlock] at this
    exact absurd (Option.some_inj.mp this).symm hn
  rcases hq' with ⟨hgo, rfl⟩ | ⟨hend, rfl⟩
  · have hsome : cq'.clean.isSome = true := by
      obtain ⟨cl', hcl', -⟩ := Option.map_eq_some_iff.mp hgo
      rw [hcl']
      rfl
    rw [if_pos hsome]
    refine ⟨_, _, hinv.update ⟨p', reported', hcq'⟩ (hinv.owns cqn) ?_ ?_ hothers (fun _ _ => rfl)
      (fun _ _ => rfl) (by simpa using hinv.qps cl.rsn) hlog⟩
    · intro cl' hcl' c hc
      have : cl'.rsn = cl.rsn := by simpa [hcl'] using hgo
      rw [this]
      exact hinv.beyond cqn cl hlock c hc
    · intro n next' hcl'
      have heq := hcl.symm.trans hcl'
      simp only [Option.some_inj, Prod.mk.injEq] at heq
      rw [← heq.1, Function.update_self]
      exact hgo
  · rw [cleaned_eq_filter (hinv.beyond cqn cl hlock)] at hcq'
    rw [if_neg (by simp [hend])]
    refine ⟨_, _, hinv.update ⟨p', reported', hcq'⟩ ?_ ?_ ?_ hothers ?_ ?_ (hinv.cleaned_qp hcl)
      hlog⟩
    · intro c hc
      exact hinv.owns cqn c (List.mem_of_mem_filter hc)
    · intro cl' hcl'
      rw [hend] at hcl'
      cases hcl'
    · intro n next' hcl'
      -- after a removal the queue pair holds no lock
      simp only [Qp.cleaning] at hcl hcl'
      grind
    · intro n hn
      exact sendsOf_filter_of_ne hn _
    · intro n hn
      exact recvsOf_filter_of_ne hn _

/-! ## Whole runs -/

theorem HcaInv.step (hcfg : cfg.Ok) (hinv : HcaInv cfg s q hs) {e : HcaEvent}
    (hguard : HcaGuard cfg s e) (hstep : hcaStep cfg s e = some s') :
    ∃ q' hs', HcaInv cfg s' q' hs' := by
  cases e with
  | execute qpn ok c => exact hinv.execute hcfg hstep
  | receive qpn ok c => exact hinv.receive hcfg hstep
  | poll cqn => exact hinv.poll hcfg hstep
  | clean qpn => exact hinv.clean hcfg hguard hstep
  | cleanStep qpn => exact hinv.cleanStep hcfg hstep
  | report cqn =>
    obtain ⟨cq', hreport, rfl⟩ := Option.map_eq_some_iff.mp hstep
    obtain ⟨p, reported, hcq⟩ := hinv.cqs cqn
    exact ⟨q, hs, hinv.setCq ⟨_, _, hcq.report hreport⟩ (cqStep_report_eq_some hreport)⟩
  | sendBegin qpn =>
    simp only [hcaStep] at hstep
    split at hstep
    case isFalse => cases hstep
    case isTrue hgo =>
      cases hstep
      have hqp := (hinv.qps qpn).sendBegin (Option.isNone_iff_eq_none.mp hgo.2) hgo.1
      exact ⟨q, _, hinv.setQp (fun n next hcl => hinv.locked qpn n next hcl) hqp (by simp)⟩
  | sendOne qpn w =>
    simp only [hcaStep] at hstep
    split at hstep
    case h_2 => cases hstep
    case h_1 entries hcall =>
      cases hstep
      have hroom : ∀ w', w = some w' → w'.blocks ≤ cfg.room qpn := by
        rintro w' rfl
        exact hguard
      obtain ⟨h', hlog, hqp⟩ := (hinv.qps qpn).sendOne hcall hroom
      refine ⟨q, _, hinv.setQp (fun n next hcl => hinv.locked qpn n next ?_) hqp hlog⟩
      have hdown : ((s.qps qpn).sendOne ⟨entries, false⟩ w).1.down = (s.qps qpn).down := by
        rw [Qp.sendOne.eq_def]
        grind
      rwa [Qp.cleaning, hdown] at hcl
  | sendEnd qpn =>
    obtain ⟨call, hcall, rfl⟩ := Option.map_eq_some_iff.mp hstep
    have hqp := (hinv.qps qpn).sendEnd hcall
    exact ⟨q, _, hinv.setQp (fun n next hcl => hinv.locked qpn n next hcl) hqp (by simp)⟩
  | recvBegin qpn =>
    simp only [hcaStep] at hstep
    split at hstep
    case isFalse => cases hstep
    case isTrue hgo =>
      cases hstep
      have hqp := (hinv.qps qpn).recvBegin (Option.isNone_iff_eq_none.mp hgo.2) hgo.1
      exact ⟨q, _, hinv.setQp (fun n next hcl => hinv.locked qpn n next hcl) hqp (by simp)⟩
  | recvOne qpn wrId =>
    simp only [hcaStep] at hstep
    split at hstep
    case h_2 => cases hstep
    case h_1 nreq ind hcall =>
      cases hstep
      obtain ⟨h', hlog, hqp⟩ := (hinv.qps qpn).recvOne hcall wrId
      refine ⟨q, _, hinv.setQp (fun n next hcl => hinv.locked qpn n next ?_) hqp hlog⟩
      have hdown : ((s.qps qpn).recvOne ⟨nreq, ind, false⟩ wrId).1.down =
          (s.qps qpn).down := by
        rw [Qp.recvOne.eq_def]
        grind
      rwa [Qp.cleaning, hdown] at hcl
  | recvEnd qpn =>
    obtain ⟨call, hcall, rfl⟩ := Option.map_eq_some_iff.mp hstep
    have hqp := (hinv.qps qpn).recvEnd hcall
    exact ⟨q, _, hinv.setQp (fun n next hcl => hinv.locked qpn n next hcl) hqp (by simp)⟩
  | down qpn =>
    simp only [hcaStep] at hstep
    split at hstep
    case isFalse => cases hstep
    case isTrue hgo =>
      cases hstep
      have hqp := (hinv.qps qpn).down hgo.1 (Option.isNone_iff_eq_none.mp hgo.2.1)
        (Option.isNone_iff_eq_none.mp hgo.2.2)
      exact ⟨q, _, hinv.setQp (fun n next hcl => by cases hcl) hqp rfl⟩
  | gone qpn =>
    simp only [hcaStep] at hstep
    split at hstep
    case isFalse => cases hstep
    case isTrue hgo =>
      cases hstep
      have hqp := (hinv.qps qpn).setDown (d := .gone) (by simp [hgo])
        (by simp [sendLive]) (fun _ => (hinv.qps qpn).sends_gone (by simp [sendLive, hgo]))
        (by simp [recvLive]) (fun _ => (hinv.qps qpn).recvs_gone (by simp [recvLive, hgo])) (by simp)
      exact ⟨q, _, hinv.setQp (fun n next hcl => by cases hcl) hqp (by simp)⟩
  | up qpn =>
    simp only [hcaStep] at hstep
    split at hstep
    case isFalse => cases hstep
    case isTrue hgo =>
      cases hstep
      have hqp := (hinv.qps qpn).fresh (by rcases hgo with h | h <;> simp [sendLive, h])
        (by rcases hgo with h | h <;> simp [recvLive, h])
      exact ⟨q, _, hinv.setQp (fun n next hcl => by cases hcl) hqp rfl⟩

theorem HcaInv.of_run (hcfg : cfg.Ok) {es : List HcaEvent}
    (hguard : Run.Guarded (hcaStep cfg) (HcaGuard cfg) (.init cfg) es)
    (hrun : Run.exec (hcaStep cfg) (.init cfg) es = some s) : ∃ q hs, HcaInv cfg s q hs :=
  Run.always_of_guarded (I := fun s => ∃ q hs, HcaInv cfg s q hs)
    (fun _ _ _ ⟨_, _, h⟩ hg hstep => h.step hcfg hg hstep) ⟨_, _, .init hcfg⟩ hguard es s
    List.prefix_rfl hrun

end HcaInv

/-- However callers, the device, polls, resets and destructions interleave, as long as no
    request takes more blocks than there are for it and no completion queue is full when the
    completions of a queue pair are removed (`HcaGuard`): what they see is a history of the
    queues. Requests are refused only if the queue is full, a completion carries the `wr_id`
    of its request, and a poll that finds nothing has missed nothing. -/
theorem hca_refines {cfg : HcaCfg} (hcfg : cfg.Ok) {es : List HcaEvent} {s : HcaState}
    (hguard : Run.Guarded (hcaStep cfg) (HcaGuard cfg) (.init cfg) es)
    (hrun : Run.exec (hcaStep cfg) (.init cfg) es = some s) :
    ∃ hs, Run.exec (histStep cfg) (fun _ => .init false) s.log = some hs := by
  obtain ⟨q, hs, hinv⟩ := HcaInv.of_run hcfg hguard hrun
  exact ⟨hs, hinv.log⟩

/-- Queue pairs that share one completion queue with four entries. -/
def sharedCfg : HcaCfg where
  qpns := [7, 9]
  sendCq := fun _ => 0
  recvCq := fun _ => 0
  logCqe := fun _ => 2
  sqCnt := fun _ => 4
  sqMax := fun _ => 2
  rqCnt := fun _ => 2
  rqMax := fun _ => 2
  room := fun _ => 2

theorem sharedCfg_ok : sharedCfg.Ok where
  cq := fun _ => (by decide : 2 ≤ 23)
  sq := fun _ => ⟨⟨2, (by decide : 2 ≤ 16), rfl⟩, (by decide : 0 < 2), (by decide : 2 * 2 ≤ 4)⟩
  rq := fun _ => ⟨⟨1, (by decide : 1 ≤ 16), rfl⟩, Nat.one_pos, (by decide : 2 * 1 ≤ 2)⟩

/-- Queue pair 7 sends twice and receives once, and is reset between the two polls. -/
def resetRun : List HcaEvent :=
  [.up 7, .up 9, .sendBegin 7, .sendOne 7 (some ⟨100, false, 2, Nat.two_pos⟩),
    .sendOne 7 (some ⟨101, true, 1, Nat.one_pos⟩), .sendEnd 7, .recvBegin 7, .recvOne 7 (some 200),
    .recvEnd 7, .recvBegin 9, .recvOne 9 (some 300), .recvEnd 9, .execute 7 true (recvCqe 0 0),
    .execute 7 true ⟨.req, 7, 2, 0, 0, 0, 0, 0⟩, .receive 7 true (recvCqe 7 0), .poll 0,
    .receive 9 true (recvCqe 9 0), .down 7, .clean 7, .cleanStep 7, .cleanStep 7, .cleanStep 7,
    .cleanStep 7, .cleanStep 7, .cleanStep 7, .up 7, .recvBegin 7, .recvOne 7 (some 201),
    .recvEnd 7, .receive 7 true (recvCqe 7 0), .poll 0, .poll 0, .poll 0]

theorem resetRun_guarded :
    Run.Guarded (hcaStep sharedCfg) (HcaGuard sharedCfg) (.init sharedCfg) resetRun := by
  decide +kernel

theorem hca_refines_reset :
    ∃ s, Run.exec (hcaStep sharedCfg) (.init sharedCfg) resetRun = some s ∧
      ∃ hs, Run.exec (histStep sharedCfg) (fun _ => .init false) s.log = some hs := by
  obtain ⟨s, hs⟩ := Option.isSome_iff_exists.mp
    (show (Run.exec (hcaStep sharedCfg) (.init sharedCfg) resetRun).isSome by decide +kernel)
  exact ⟨s, hs, hca_refines sharedCfg_ok resetRun_guarded hs⟩

/-- A poll of a completion queue that is not locked always ends: it finds the queue pair of a
    completion, and `handle_atomics` the request. -/
theorem hca_poll_total {cfg : HcaCfg} (hcfg : cfg.Ok) {es : List HcaEvent} {s : HcaState}
    (hguard : Run.Guarded (hcaStep cfg) (HcaGuard cfg) (.init cfg) es)
    (hrun : Run.exec (hcaStep cfg) (.init cfg) es = some s) {cqn : Nat}
    (hidle : (s.cqs cqn).clean = none) : (hcaStep cfg s (.poll cqn)).isSome = true := by
  obtain ⟨q, hs, hinv⟩ := HcaInv.of_run hcfg hguard hrun
  obtain ⟨p, reported, hcq⟩ := hinv.cqs cqn
  have hnext := hcq.nextCqeSw_eq (hcfg.cq cqn) hidle
  obtain ⟨cq', hpoll⟩ : ∃ cq', cqStep (s.cqs cqn) .poll = some cq' := by
    rw [cqStep, hidle]
    dsimp only
    split
    · exact ⟨_, rfl⟩
    · exact ⟨_, rfl⟩
  rw [hcaStep, hpoll, Option.bind_some, hnext]
  cases hq : q cqn with
  | nil => rfl
  | cons c rest =>
    obtain ⟨qp', l, h', hone, -⟩ := hinv.poll_cons hcfg hq hpoll
    simp [hone]

theorem hca_poll_total_reset :
    ∃ s, Run.exec (hcaStep sharedCfg) (.init sharedCfg) resetRun = some s ∧
      (s.cqs 0).clean.isNone = true ∧ (hcaStep sharedCfg s (.poll 0)).isSome = true := by
  obtain ⟨s, hs⟩ := Option.isSome_iff_exists.mp
    (show (Run.exec (hcaStep sharedCfg) (.init sharedCfg) resetRun).isSome by decide +kernel)
  have hidle : (Run.exec (hcaStep sharedCfg) (.init sharedCfg) resetRun).map
      (fun s => (s.cqs 0).clean.isNone) = some true := by decide +kernel
  rw [hs, Option.map_some, Option.some_inj] at hidle
  exact ⟨s, hs, hidle, hca_poll_total sharedCfg_ok resetRun_guarded hs
    (Option.isNone_iff_eq_none.mp hidle)⟩

/-! ## In order and at most once -/

/-- What is logged for a queue pair. -/
def qpLog (qpn : Nat) (log : List HcaLog) : List QpLog :=
  log.filterMap fun
    | .qp n l => if n = qpn then some l else none
    | .pollEmpty _ => none

/-- The requests that were posted to a queue pair since it came up, and those that polls have
    returned. -/
structure Trace where
  sends : List Nat
  sendsBack : List Nat
  recvs : List Nat
  recvsBack : List Nat

def Trace.init : Trace := ⟨[], [], [], []⟩

def Trace.step (t : Trace) : QpLog → Trace
  | .sendPosted w => { t with sends := t.sends ++ [w.wrId] }
  | .polledSend wrId _ => { t with sendsBack := t.sendsBack ++ [wrId] }
  | .recvPosted wrId => { t with recvs := t.recvs ++ [wrId] }
  | .polledRecv wrId => { t with recvsBack := t.recvsBack ++ [wrId] }
  | .up => .init
  | _ => t

def trace (log : List QpLog) : Trace := log.foldl Trace.step .init

structure Traced (t : Trace) (h : QpHist) : Prop where
  sends : t.sends = h.send.posted.map SendWqe.wrId
  sendsBack : t.sendsBack.Sublist ((h.send.posted.take h.send.retired).map SendWqe.wrId)
  retired_le : h.send.retired ≤ h.send.executed
  done : ∀ d ∈ h.send.done, h.send.retired ≤ d.1 ∧ d.1 < h.send.executed
  sorted : h.send.done.Pairwise fun d d' => d.1 < d'.1
  recvs : t.recvs = h.recv.posted
  recvsBack : t.recvsBack = h.recv.posted.take h.recv.polled
  polled_le : h.recv.polled ≤ h.recv.posted.length

section Traced

variable {cfg : HcaCfg} {qpn : Nat} {t : Trace} {h h' : QpHist} {l : QpLog}

theorem Traced.init (up : Bool) : Traced .init (.init up) := by
  constructor <;> simp [Trace.init, QpHist.init, SendHist.init, RecvHist.init]

theorem Traced.sendPosted (ht : Traced t h) {w : SendWqe}
    (hstep : h.step cfg qpn (.sendPosted w) = some h') : Traced (t.step (.sendPosted w)) h' := by
  obtain ⟨send', hpost, rfl⟩ := Option.map_eq_some_iff.mp hstep
  simp only [SendHist.post] at hpost
  split at hpost
  case isFalse => cases hpost
  case isTrue =>
    cases hpost
    exact
      { ht with
        sends := by simp [Trace.step, ht.sends]
        sendsBack := by
          refine ht.sendsBack.trans (List.Sublist.map _ ?_)
          rw [List.take_append]
          exact List.sublist_append_left _ _ }

theorem Traced.executed (ht : Traced t h) {ok : Bool}
    (hstep : h.step cfg qpn (.executed ok) = some h') : Traced t h' := by
  obtain ⟨send', hexec, rfl⟩ := Option.map_eq_some_iff.mp hstep
  obtain ⟨w, -, rfl⟩ := Option.map_eq_some_iff.mp hexec
  have hlater : ∀ d ∈ h.send.done, h.send.retired ≤ d.1 ∧ d.1 < h.send.executed + 1 :=
    fun d hd => ⟨(ht.done d hd).1, Nat.lt_succ_of_lt (ht.done d hd).2⟩
  have hkeep := { ht with retired_le := Nat.le_succ_of_le ht.retired_le, done := hlater : Traced t
    { h with send := { h.send with executed := h.send.executed + 1 } } }
  split
  · exact
      { hkeep with
        done := fun d hd => by
          rcases List.mem_append.mp hd with hd | hd
          · exact hlater d hd
          · rw [List.mem_singleton.mp hd]
            exact ⟨ht.retired_le, Nat.lt_succ_self _⟩
        sorted := List.pairwise_append.mpr ⟨ht.sorted, List.pairwise_singleton _ _,
          fun d hd d' hd' => by
            rw [List.mem_singleton.mp hd']
            exact (ht.done d hd).2⟩ }
  · exact hkeep

theorem Traced.polledSend (ht : Traced t h) {wrId : Nat} {ok : Bool}
    (hstep : h.step cfg qpn (.polledSend wrId ok) = some h') :
    Traced (t.step (.polledSend wrId ok)) h' := by
  obtain ⟨send', hpoll, rfl⟩ := Option.map_eq_some_iff.mp hstep
  simp only [SendHist.poll] at hpoll
  split at hpoll
  case h_1 => cases hpoll
  case h_2 i ok' done hdone =>
    split at hpoll
    case isFalse => cases hpoll
    case isTrue hwr =>
      cases hpoll
      obtain ⟨hretired, hexecuted⟩ := ht.done (i, ok') (hdone ▸ List.mem_cons_self)
      have hsorted := ht.sorted
      rw [hdone] at hsorted
      obtain ⟨hbehind, hsorted⟩ := List.pairwise_cons.mp hsorted
      obtain ⟨w, hw, rfl⟩ := Option.map_eq_some_iff.mp hwr.1
      exact
        { ht with
          sendsBack := by
            -- the request that is returned stands behind all that were returned before
            have hsub : (h.send.posted.take h.send.retired).Sublist (h.send.posted.take i) :=
              (List.take_prefix_take_left hretired).sublist
            have happend : h.send.posted.take (i + 1) = h.send.posted.take i ++ [w] := by
              rw [List.take_add_one, hw]
              rfl
            change (t.sendsBack ++ [w.wrId]).Sublist ((h.send.posted.take (i + 1)).map _)
            rw [happend, List.map_append]
            exact (ht.sendsBack.trans (hsub.map _)).append (List.Sublist.refl _)
          retired_le := hexecuted
          done := fun d hd =>
            ⟨hbehind d hd, (ht.done d (hdone ▸ List.mem_cons_of_mem _ hd)).2⟩
          sorted := hsorted }

theorem Traced.step (ht : Traced t h) (hstep : h.step cfg qpn l = some h') :
    Traced (t.step l) h' := by
  cases l with
  | sendPosted w => exact ht.sendPosted hstep
  | executed ok => exact ht.executed hstep
  | polledSend wrId ok => exact ht.polledSend hstep
  | up =>
    cases hstep
    exact .init true
  | down =>
    cases hstep
    exact { ht with }
  | sendRefused =>
    obtain ⟨send', hrefuse, rfl⟩ := Option.map_eq_some_iff.mp hstep
    simp only [SendHist.refuse] at hrefuse
    split at hrefuse <;> cases hrefuse
    exact ht
  | recvRefused =>
    obtain ⟨recv', hrefuse, rfl⟩ := Option.map_eq_some_iff.mp hstep
    simp only [RecvHist.refuse] at hrefuse
    split at hrefuse <;> cases hrefuse
    exact ht
  | received =>
    obtain ⟨recv', hconsume, rfl⟩ := Option.map_eq_some_iff.mp hstep
    simp only [RecvHist.consume] at hconsume
    split at hconsume <;> cases hconsume
    exact { ht with }
  | recvPosted wrId =>
    obtain ⟨recv', hpost, rfl⟩ := Option.map_eq_some_iff.mp hstep
    simp only [RecvHist.post] at hpost
    split at hpost <;> cases hpost
    have hle := ht.polled_le
    exact
      { ht with
        recvs := by simp [Trace.step, ht.recvs]
        recvsBack := by
          rw [List.take_append_of_le_length hle]
          exact ht.recvsBack
        polled_le := by
          rw [List.length_append]
          exact Nat.le_add_right_of_le hle }
  | polledRecv wrId =>
    obtain ⟨recv', hpoll, rfl⟩ := Option.map_eq_some_iff.mp hstep
    simp only [RecvHist.poll] at hpoll
    split at hpoll
    case isFalse => cases hpoll
    case isTrue hnext =>
      cases hpoll
      obtain ⟨hlt, heq⟩ := List.getElem?_eq_some_iff.mp hnext.2
      exact
        { ht with
          recvsBack := by
            change t.recvsBack ++ [wrId] = h.recv.posted.take (h.recv.polled + 1)
            rw [ht.recvsBack, List.take_add_one, hnext.2]
            rfl
          polled_le := hlt }

/-- The log of all queues gives the histories of each queue pair. -/
theorem exec_qpLog {hs hs' : Nat → QpHist} {log : List HcaLog}
    (hrun : Run.exec (histStep cfg) hs log = some hs') (ht : Traced t (hs qpn)) :
    Traced ((qpLog qpn log).foldl Trace.step t) (hs' qpn) := by
  induction log generalizing hs t with
  | nil =>
    cases hrun
    exact ht
  | cons l log ih =>
    obtain ⟨hs₁, hstep, hrest⟩ := Run.exec_cons_eq_some.mp hrun
    cases l with
    | pollEmpty cqn =>
      simp only [histStep] at hstep
      split at hstep <;> cases hstep
      exact ih hrest ht
    | qp n l =>
      obtain ⟨h', hl, rfl⟩ := Option.map_eq_some_iff.mp hstep
      by_cases hn : n = qpn
      · subst hn
        have := ih (t := t.step l) hrest (by simpa using ht.step hl)
        simpa [qpLog] using this
      · have := ih (t := t) hrest (by simpa [Function.update_of_ne (Ne.symm hn)] using ht)
        simpa [qpLog, hn] using this

end Traced

/-- Since a queue pair came up, polls have returned its receive requests in the order in which
    they were posted, from the first on, and send requests in that order and each at most
    once; nothing of an earlier life of the queue pair, or of another one, comes up. -/
theorem hca_in_order {cfg : HcaCfg} (hcfg : cfg.Ok) {es : List HcaEvent} {s : HcaState}
    (hguard : Run.Guarded (hcaStep cfg) (HcaGuard cfg) (.init cfg) es)
    (hrun : Run.exec (hcaStep cfg) (.init cfg) es = some s) (qpn : Nat) :
    (trace (qpLog qpn s.log)).recvsBack <+: (trace (qpLog qpn s.log)).recvs ∧
      (trace (qpLog qpn s.log)).sendsBack.Sublist (trace (qpLog qpn s.log)).sends := by
  obtain ⟨q, hs, hinv⟩ := HcaInv.of_run hcfg hguard hrun
  have ht : Traced (trace (qpLog qpn s.log)) (hs qpn) := exec_qpLog hinv.log (.init false)
  refine ⟨?_, ?_⟩
  · rw [ht.recvsBack, ht.recvs]
    exact List.take_prefix _ _
  · rw [ht.sends]
    exact ht.sendsBack.trans ((List.take_sublist _ _).map _)

theorem hca_in_order_reset :
    ∃ s, Run.exec (hcaStep sharedCfg) (.init sharedCfg) resetRun = some s ∧
      (trace (qpLog 7 s.log)).recvsBack <+: (trace (qpLog 7 s.log)).recvs ∧
      (trace (qpLog 7 s.log)).sendsBack.Sublist (trace (qpLog 7 s.log)).sends := by
  obtain ⟨s, hs⟩ := Option.isSome_iff_exists.mp
    (show (Run.exec (hcaStep sharedCfg) (.init sharedCfg) resetRun).isSome by decide +kernel)
  exact ⟨s, hs, hca_in_order sharedCfg_ok resetRun_guarded hs 7⟩

-- the receive of the first life of queue pair 7 is not returned in its second one
example : ((Run.exec (hcaStep sharedCfg) (.init sharedCfg) resetRun).map fun s =>
    ((trace (qpLog 7 s.log)).recvsBack, (trace (qpLog 9 s.log)).recvsBack)) =
    some ([201], [300]) := by
  decide +kernel

-- The completion queue is full when queue pair 7 is reset, and the newest completion is its own:
-- that one stays, and a poll returns it although nothing was posted since.
theorem reset_on_full_cq :
    (Run.exec (hcaStep sharedCfg) (.init sharedCfg)
      [.up 7, .up 9, .recvBegin 7, .recvOne 7 (some 200), .recvOne 7 (some 201), .recvEnd 7,
        .recvBegin 9, .recvOne 9 (some 300), .recvOne 9 (some 301), .recvEnd 9,
        .receive 9 true (recvCqe 9 0), .receive 9 true (recvCqe 9 1),
        .receive 7 true (recvCqe 7 0), .receive 7 true (recvCqe 7 1), .down 7, .clean 7,
        .cleanStep 7, .cleanStep 7, .cleanStep 7, .cleanStep 7, .cleanStep 7, .cleanStep 7,
        .cleanStep 7, .cleanStep 7, .up 7, .poll 0, .poll 0, .poll 0]).map
      (fun s => ((trace (qpLog 7 s.log)).recvs, (trace (qpLog 7 s.log)).recvsBack)) =
    some ([], [200]) := by
  decide +kernel

/-- When the device is gone, the driver returns what is left of each queue: the requests that
    no completion has retired, in their order, unless the completion of an error was polled. -/
theorem hca_flush_exact {cfg : HcaCfg} (hcfg : cfg.Ok) {es : List HcaEvent} {s : HcaState}
    (hguard : Run.Guarded (hcaStep cfg) (HcaGuard cfg) (.init cfg) es)
    (hrun : Run.exec (hcaStep cfg) (.init cfg) es = some s) :
    ∃ hs, Run.exec (histStep cfg) (fun _ => .init false) s.log = some hs ∧ ∀ qpn n,
      ((s.qps qpn).rqCall = none →
        ((s.qps qpn).rq.swComp false n).1 =
          ((hs qpn).recv.posted.drop (hs qpn).recv.polled).take n) ∧
      ((s.qps qpn).sqCall = none → (hs qpn).send.errPolled = false →
        ((s.qps qpn).sq.swComp true n).1 =
          (((hs qpn).send.posted.drop (hs qpn).send.retired).take n).map SendWqe.wrId) := by
  obtain ⟨q, hs, hinv⟩ := HcaInv.of_run hcfg hguard hrun
  refine ⟨hs, hinv.log, fun qpn n => ⟨fun hcall => ?_, fun hcall herr => ?_⟩⟩
  · have hrq := (hinv.qps qpn).rq
    rw [Qp.callRecvs, hcall] at hrq
    exact hrq.swComp n
  · have hsq := (hinv.qps qpn).sq
    rw [Qp.callEntries, hcall] at hsq
    exact hsq.swComp herr n

theorem hca_flush_exact_reset :
    ∃ s, Run.exec (hcaStep sharedCfg) (.init sharedCfg) resetRun = some s ∧
      ∃ hs, Run.exec (histStep sharedCfg) (fun _ => .init false) s.log = some hs ∧ ∀ qpn n,
        ((s.qps qpn).rqCall = none →
          ((s.qps qpn).rq.swComp false n).1 =
            ((hs qpn).recv.posted.drop (hs qpn).recv.polled).take n) ∧
        ((s.qps qpn).sqCall = none → (hs qpn).send.errPolled = false →
          ((s.qps qpn).sq.swComp true n).1 =
            (((hs qpn).send.posted.drop (hs qpn).send.retired).take n).map SendWqe.wrId) := by
  obtain ⟨s, hs⟩ := Option.isSome_iff_exists.mp
    (show (Run.exec (hcaStep sharedCfg) (.init sharedCfg) resetRun).isSome by decide +kernel)
  exact ⟨s, hs, hca_flush_exact sharedCfg_ok resetRun_guarded hs⟩

/-- The completion of an error leaves `last_poll` behind: what is returned then is the request
    that failed, once more, and not the one that is left. -/
theorem flush_after_error :
    (Run.exec (hcaStep sharedCfg) (.init sharedCfg)
      [.up 7, .sendBegin 7, .sendOne 7 (some ⟨100, true, 1, Nat.one_pos⟩),
        .sendOne 7 (some ⟨101, true, 1, Nat.one_pos⟩), .sendEnd 7,
        .execute 7 false ⟨.reqErr, 7, 0, 0, 0, 0, 0, 0⟩, .poll 0]).map
      (fun s => ((s.qps 7).sq.swComp true 2).1) = some [100] := by
  decide +kernel

end Driver
