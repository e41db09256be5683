-- SUMMARY: One queue pair of the mlx5 driver agrees with the history of its queues, and every event of it keeps that.
import KRCore.Driver.Hca

/-!
# A queue pair and its history

`QpInv` relates the queues of a queue pair, what the device has to do for them and the
completions that have not been polled to the history since the queue pair came up.
There is a lemma for each event of a queue pair; which completion queues are involved
does not matter here.
-/

namespace Driver

/-- The requests of a post call that is not over. -/
def Qp.callEntries (qp : Qp) : List SqEntry :=
  match qp.sqCall with
  | none => []
  | some call => call.entries

def Qp.callRecvs (qp : Qp) : Nat :=
  match qp.rqCall with
  | none => 0
  | some call => call.nreq

/-- The entries of the requests of a send queue. -/
def entriesOf (ws : List SendWqe) : List SqEntry :=
  ws.mapIdx fun i w => ⟨startOf ws i % 65536, w.signaled⟩

/-- What the driver reads from the completion of a send request. -/
def Cqe.key (c : Cqe) : Nat × Bool := (c.wqeCounter, decide (c.opcode = .req))

def doneKey (ws : List SendWqe) (d : Nat × Bool) : Nat × Bool := (startOf ws d.1 % 65536, d.2)

/-- The completions of the send queue have not been removed. -/
def sendLive (down : Option Down) : Prop := down ≠ some .cleaned ∧ down ≠ some .gone

def recvLive (down : Option Down) : Prop :=
  down = none ∨ down = some .recvCq ∨ down = some .recvCqLocked

/-- The queue pair agrees with its history. `qs` and `qr` are its completions that have not been
    polled. -/
structure QpInv (cfg : HcaCfg) (qpn : Nat) (qp : Qp) (h : QpHist) (qs qr : List Cqe) : Prop where
  sq : SqInv qp.sq (cfg.room qpn) qp.callEntries.length h.send
  rq : RqInv qp.rq qp.callRecvs h.recv
  sqMax : qp.sq.maxPost = cfg.sqMax qpn
  rqMax : qp.rq.maxPost = cfg.rqMax qpn
  devSq : qp.down = none →
    qp.dev.sq ++ qp.callEntries = (entriesOf h.send.posted).drop h.send.executed
  devRq : qp.down = none → h.recv.consumed + qp.dev.rq + qp.callRecvs = h.recv.posted.length
  ind : ∀ call, qp.rqCall = some call → call.ind = h.recv.posted.length % qp.rq.wqeCnt
  calls : qp.down ≠ none → qp.sqCall = none ∧ qp.rqCall = none
  sends : sendLive qp.down → qs.map Cqe.key = h.send.done.map (doneKey h.send.posted)
  sends_gone : ¬sendLive qp.down → qs = []
  recvs : recvLive qp.down → h.recv.polled + qr.length = h.recv.consumed
  recvs_gone : ¬recvLive qp.down → qr = []
  failed : qp.dev.failed = false → h.send.errPolled = false ∧ ∀ d ∈ h.send.done, d.2 = true
  up : h.up = decide (qp.down = none)
  other : qp.down = some .sendCq ∨ qp.down = some .sendCqLocked → cfg.sendCq qpn ≠ cfg.recvCq qpn

section QpInv

variable {cfg : HcaCfg} {qpn : Nat} {qp : Qp} {h : QpHist} {qs qr : List Cqe}

theorem entriesOf_concat (ws : List SendWqe) (w : SendWqe) :
    entriesOf (ws ++ [w]) = entriesOf ws ++ [⟨BlockRing.total (blocksOf ws) % 65536, w.signaled⟩] := by
  refine List.ext_getElem? fun i => ?_
  simp only [entriesOf, List.getElem?_mapIdx, List.getElem?_append, List.length_mapIdx]
  split
  case isTrue hi => rw [startOf_concat (Nat.le_of_lt hi)]
  case isFalse hi =>
    obtain hi | hi := Nat.lt_or_eq_of_le (Nat.le_of_not_lt hi)
    · rw [List.getElem?_eq_none (by simp; omega), List.getElem?_eq_none (by simp; omega)]
      rfl
    · subst hi
      simp [startOf_concat, startOf_length]

@[simp] theorem entriesOf_length (ws : List SendWqe) : (entriesOf ws).length = ws.length :=
  List.length_mapIdx

theorem QpInv.sendBegin (hinv : QpInv cfg qpn qp h qs qr) (hcall : qp.sqCall = none)
    (hdown : qp.down = none) :
    QpInv cfg qpn { qp with sqCall := some ⟨[], false⟩ } h qs qr := by
  have hentries : qp.callEntries = [] := by rw [Qp.callEntries, hcall]
  have hsq := hinv.sq
  have hdev := hinv.devSq
  rw [hentries] at hsq hdev
  exact
    { hinv with
      sq := hsq
      devSq := hdev
      calls := fun hne => absurd hdown hne }

theorem QpInv.sendOne (hinv : QpInv cfg qpn qp h qs qr) {entries : List SqEntry}
    (hcall : qp.sqCall = some ⟨entries, false⟩) {w : Option SendWqe}
    (hroom : ∀ w', w = some w' → w'.blocks ≤ cfg.room qpn) :
    ∃ h', Run.exec (QpHist.step cfg qpn) h (qp.sendOne ⟨entries, false⟩ w).2 = some h' ∧
      QpInv cfg qpn (qp.sendOne ⟨entries, false⟩ w).1 h' qs qr := by
  have hentries : qp.callEntries = entries := by rw [Qp.callEntries, hcall]
  have hdown : qp.down = none := by
    by_contra hne
    rw [(hinv.calls hne).1] at hcall
    cases hcall
  have hsq := hinv.sq
  have hdev := hinv.devSq hdown
  rw [hentries] at hsq hdev
  -- a request that is refused ends the loop
  have hfail : QpInv cfg qpn { qp with sqCall := some ⟨entries, true⟩ } h qs qr :=
    { hinv with
      sq := hsq
      devSq := fun _ => hdev
      calls := fun hne => absurd hdown hne }
  cases w with
  | none => exact ⟨h, rfl, hfail⟩
  | some w =>
    rw [Qp.sendOne]
    cases hover : qp.sq.overflow entries.length with
    | true =>
      refine ⟨h, ?_, by simpa using hfail⟩
      have hfull : ¬h.send.posted.length < h.send.retired + cfg.sqMax qpn := by
        rw [hsq.overflow_eq, hinv.sqMax] at hover
        simpa using hover
      simp [QpHist.step, SendHist.refuse, hfull]
    | false =>
      obtain ⟨send', hpost, hsq'⟩ := hsq.finishWqe hover (hroom w rfl)
      rw [hinv.sqMax] at hpost
      refine ⟨{ h with send := send' }, by simp [QpHist.step, hpost], ?_⟩
      · simp only [SendHist.post] at hpost
        split at hpost
        case isFalse => cases hpost
        case isTrue =>
          cases hpost
          have hexecuted := hsq.executed_le
          have hlen : (entries ++ [(⟨qp.sq.curPost, w.signaled⟩ : SqEntry)]).length =
              entries.length + 1 := List.length_append
          exact
            { hinv with
              sq := by
                change SqInv _ _ (entries ++ [(⟨qp.sq.curPost, w.signaled⟩ : SqEntry)]).length _
                rw [hlen]
                exact hsq'
              devSq := fun _ => by
                change qp.dev.sq ++ (entries ++ [_]) = _
                rw [← List.append_assoc, hdev, entriesOf_concat,
                  List.drop_append_of_le_length (by simp; omega), hsq.curPost]
              calls := fun hne => absurd hdown hne
              sends := fun hlive => by
                rw [hinv.sends hlive]
                refine List.map_congr_left fun d hd => ?_
                have := (hsq.done d hd).2
                rw [doneKey, doneKey, startOf_concat (by omega)] }

theorem QpInv.sendEnd (hinv : QpInv cfg qpn qp h qs qr) {call : SqCall}
    (hcall : qp.sqCall = some call) :
    QpInv cfg qpn
      { qp with
        sq := qp.sq.advance call.entries.length
        sqCall := none
        dev := { qp.dev with sq := qp.dev.sq ++ call.entries } } h qs qr := by
  have hentries : qp.callEntries = call.entries := by rw [Qp.callEntries, hcall]
  have hsq := hinv.sq
  have hdev := hinv.devSq
  rw [hentries] at hsq hdev
  exact
    { hinv with
      sq := hsq.advance
      devSq := fun hdown => (List.append_nil _).trans (hdev hdown)
      calls := fun hne => ⟨rfl, (hinv.calls hne).2⟩ }

theorem QpInv.recvBegin (hinv : QpInv cfg qpn qp h qs qr) (hcall : qp.rqCall = none)
    (hdown : qp.down = none) :
    QpInv cfg qpn { qp with rqCall := some ⟨0, qp.rq.idx qp.rq.head, false⟩ } h qs qr := by
  have hnreq : qp.callRecvs = 0 := by rw [Qp.callRecvs, hcall]
  have hrq := hinv.rq
  have hdev := hinv.devRq
  rw [hnreq] at hrq hdev
  have hdvd : qp.rq.wqeCnt ∣ 4294967296 := hrq.roomy.dvd.trans (by decide)
  exact
    { hinv with
      rq := hrq
      devRq := hdev
      ind := by
        rintro _ ⟨⟩
        rw [hrq.roomy.idx_eq, hrq.head, Nat.mod_mod_of_dvd _ hdvd, Nat.sub_zero]
      calls := fun hne => absurd hdown hne }

theorem QpInv.recvOne (hinv : QpInv cfg qpn qp h qs qr) {nreq ind : Nat}
    (hcall : qp.rqCall = some ⟨nreq, ind, false⟩) (wrId : Option Nat) :
    ∃ h', Run.exec (QpHist.step cfg qpn) h (qp.recvOne ⟨nreq, ind, false⟩ wrId).2 = some h' ∧
      QpInv cfg qpn (qp.recvOne ⟨nreq, ind, false⟩ wrId).1 h' qs qr := by
  have hnreq : qp.callRecvs = nreq := by rw [Qp.callRecvs, hcall]
  have hdown : qp.down = none := by
    by_contra hne
    rw [(hinv.calls hne).2] at hcall
    cases hcall
  have hrq := hinv.rq
  have hdev := hinv.devRq hdown
  have hind := hinv.ind _ hcall
  rw [hnreq] at hrq hdev
  have hfail : QpInv cfg qpn { qp with rqCall := some ⟨nreq, ind, true⟩ } h qs qr :=
    { hinv with
      rq := hrq
      devRq := fun _ => hdev
      ind := by
        rintro _ ⟨⟩
        exact hind
      calls := fun hne => absurd hdown hne }
  have hrefuse : qp.rq.overflow nreq = true →
      Run.exec (QpHist.step cfg qpn) h [.recvRefused] = some h := by
    intro hover
    have hfull : ¬h.recv.posted.length < h.recv.polled + cfg.rqMax qpn := by
      rw [hrq.overflow_eq, hinv.rqMax] at hover
      simpa using hover
    simp [QpHist.step, RecvHist.refuse, hfull]
  cases wrId with
  | none =>
    refine ⟨h, ?_, hfail⟩
    rw [Qp.recvOne]
    cases hover : qp.rq.overflow nreq with
    | true => exact hrefuse hover
    | false => rfl
  | some wrId =>
    rw [Qp.recvOne]
    cases hover : qp.rq.overflow nreq with
    | true => exact ⟨h, hrefuse hover, hfail⟩
    | false =>
      obtain ⟨recv', hpost, hrq'⟩ := hrq.writeRecv hover wrId
      rw [hinv.rqMax] at hpost
      refine ⟨{ h with recv := recv' }, by simp [QpHist.step, hpost], ?_⟩
      · simp only [RecvHist.post] at hpost
        split at hpost
        case isFalse => cases hpost
        case isTrue =>
          cases hpost
          have hlen : (h.recv.posted ++ [wrId]).length = h.recv.posted.length + 1 :=
            List.length_append
          exact
            { hinv with
              rq := by
                dsimp only at hind
                rw [← hind] at hrq'
                exact hrq'
              devRq := fun _ => by
                rw [hlen, ← hdev]
                exact (Nat.add_assoc _ nreq 1).symm
              ind := by
                rintro _ ⟨⟩
                dsimp only at hind
                rw [hlen, hind, hrq.roomy.idx_eq, Nat.mod_add_mod]
                rfl
              calls := fun hne => absurd hdown hne }

theorem QpInv.recvEnd (hinv : QpInv cfg qpn qp h qs qr) {call : RqCall}
    (hcall : qp.rqCall = some call) :
    QpInv cfg qpn
      { qp with
        rq := qp.rq.advance call.nreq
        rqCall := none
        dev := { qp.dev with rq := qp.dev.rq + call.nreq } } h qs qr := by
  have hnreq : qp.callRecvs = call.nreq := by rw [Qp.callRecvs, hcall]
  have hrq := hinv.rq
  have hdev := hinv.devRq
  rw [hnreq] at hrq hdev
  exact
    { hinv with
      rq := hrq.advance
      devRq := fun hdown => (Nat.add_assoc _ _ _).symm.trans (hdev hdown)
      ind := fun _ hnone => by cases hnone
      calls := fun hne => ⟨(hinv.calls hne).1, rfl⟩ }

/-- The device finishes a send request, and writes a completion if it is to be reported. -/
theorem QpInv.execute (hinv : QpInv cfg qpn qp h qs qr) {e : SqEntry} {rest : List SqEntry}
    (hsq : qp.dev.sq = e :: rest) (hdown : qp.down = none) {ok : Bool}
    (hok : ok = true → qp.dev.failed = false) :
    ∃ send', h.send.execute ok = some send' ∧
      (((e.signaled || !ok) = false →
          QpInv cfg qpn
            { qp with dev := { qp.dev with sq := rest, failed := qp.dev.failed || !ok } }
            { h with send := send' } qs qr) ∧
        ∀ c, (e.signaled || !ok) = true → c.IsSendOf qpn e.start ok →
          QpInv cfg qpn
            { qp with dev := { qp.dev with sq := rest, failed := qp.dev.failed || !ok } }
            { h with send := send' } (qs ++ [c]) qr) := by
  have hdev := hinv.devSq hdown
  rw [hsq, List.cons_append] at hdev
  have hlen := congrArg List.length hdev
  rw [List.length_cons, List.length_append, List.length_drop, entriesOf_length] at hlen
  have hlt : h.send.executed < h.send.posted.length := by omega
  rw [List.drop_eq_getElem_cons (by simpa using hlt), List.cons.injEq] at hdev
  obtain ⟨hentry, hrest⟩ := hdev
  have hentry' : e = ⟨startOf h.send.posted h.send.executed % 65536,
      h.send.posted[h.send.executed].signaled⟩ := by
    rw [hentry]
    simp [entriesOf]
  obtain ⟨send', hexec, hinv'⟩ := hinv.sq.execute ok (by omega)
    fun htrue => hinv.failed (hok htrue)
  refine ⟨send', hexec, ?_⟩
  rw [SendHist.execute, List.getElem?_eq_getElem hlt, Option.map_some, Option.some_inj] at hexec
  subst hexec
  subst hentry'
  have hfailed : (qp.dev.failed || !ok) = false →
      h.send.errPolled = false ∧ (∀ d ∈ h.send.done, d.2 = true) ∧ ok = true := by
    intro hnot
    rw [Bool.or_eq_false_iff] at hnot
    exact ⟨(hinv.failed hnot.1).1, (hinv.failed hnot.1).2, by simpa using hnot.2⟩
  constructor
  · intro hsilent
    simp only [hsilent, Bool.false_eq_true, if_false] at hinv' ⊢
    exact
      { hinv with
        sq := hinv'
        devSq := fun _ => hrest
        failed := fun hnot => ⟨(hfailed hnot).1, (hfailed hnot).2.1⟩ }
  · intro c hreport hc
    obtain ⟨-, hstart, hopcode⟩ := hc
    have hkey : c.key = doneKey h.send.posted (h.send.executed, ok) := by
      cases ok <;> simp [Cqe.key, doneKey, hstart, hopcode]
    simp only [hreport, if_true] at hinv' ⊢
    exact
      { hinv with
        sq := hinv'
        devSq := fun _ => hrest
        sends := fun hlive => by
          rw [List.map_append, List.map_append, hinv.sends hlive]
          simp [hkey]
        sends_gone := fun hgone => absurd (by simp [sendLive, hdown]) hgone
        failed := fun hnot => by
          refine ⟨(hfailed hnot).1, fun d hd => ?_⟩
          rcases List.mem_append.mp hd with hd | hd
          · exact (hfailed hnot).2.1 d hd
          · rw [List.mem_singleton.mp hd]
            exact (hfailed hnot).2.2 }

/-- The device uses a receive request. -/
theorem QpInv.receive (hinv : QpInv cfg qpn qp h qs qr) (hrq : 0 < qp.dev.rq)
    (hdown : qp.down = none) (ok : Bool) (c : Cqe) :
    ∃ recv', h.recv.consume = some recv' ∧
      QpInv cfg qpn
        { qp with dev := { qp.dev with rq := qp.dev.rq - 1, failed := qp.dev.failed || !ok } }
        { h with recv := recv' } qs (qr ++ [c]) := by
  have hdev := hinv.devRq hdown
  obtain ⟨recv', hconsume, hposted, hconsumed, hpolled, hinv'⟩ := hinv.rq.consume (by omega)
  refine ⟨recv', hconsume, ?_⟩
  exact
    { hinv with
      rq := hinv'
      devRq := fun _ => by
        change recv'.consumed + (qp.dev.rq - 1) + qp.callRecvs = _
        rw [hposted, hconsumed]
        omega
      ind := fun call hcall => by
        rw [hposted]
        exact hinv.ind call hcall
      recvs := fun hlive => by
        have := hinv.recvs hlive
        rw [List.length_append, List.length_singleton, hpolled, hconsumed]
        omega
      recvs_gone := fun hgone => absurd (.inl hdown) hgone
      failed := fun hnot => hinv.failed (Bool.or_eq_false_iff.mp hnot).1 }

/-- The oldest completion of the send queue is polled. -/
theorem QpInv.pollOne_send {c : Cqe} (hinv : QpInv cfg c.qpn qp h (c :: qs) qr)
    (hsend : c.opcode.isSend = true) :
    ∃ qp' l h', qp.pollOne c = some (qp', l) ∧ qp'.down = qp.down ∧
      h.step cfg c.qpn l = some h' ∧ QpInv cfg c.qpn qp' h' qs qr := by
  have hlive : sendLive qp.down := by
    by_contra hgone
    cases hinv.sends_gone hgone
  have hkeys := hinv.sends hlive
  cases hdone : h.send.done with
  | nil =>
    rw [hdone] at hkeys
    cases hkeys
  | cons d done =>
    obtain ⟨i, ok⟩ := d
    rw [hdone, List.map_cons, List.map_cons, List.cons.injEq] at hkeys
    obtain ⟨hkey, hkeys⟩ := hkeys
    rw [Cqe.key, doneKey, Prod.mk.injEq] at hkey
    obtain ⟨hstart, hok⟩ := hkey
    obtain ⟨wrId, sq', hpoll, hmax, hhist, hsq'⟩ := hinv.sq.pollSend hdone
    have hone : qp.pollOne c = some ({ qp with sq := sq' }, .polledSend wrId ok) := by
      rw [Qp.pollOne, if_neg hlive.2, hstart]
      cases hop : c.opcode <;> rw [hop] at hsend hok
      case req =>
        obtain rfl : ok = true := hok.symm
        simp [hpoll]
      case reqErr =>
        obtain rfl : ok = false := hok.symm
        simp [hpoll]
      all_goals cases hsend
    have hstep : h.step cfg c.qpn (.polledSend wrId ok) =
        some { h with send := { h.send with
          done, retired := i + 1, errPolled := h.send.errPolled || !ok } } := by
      rw [QpHist.step, hhist]
      rfl
    refine ⟨_, _, _, hone, rfl, hstep, ?_⟩
    exact
      { hinv with
        sq := hsq'
        sqMax := hmax.trans hinv.sqMax
        sends := fun _ => hkeys
        sends_gone := fun hgone => absurd hlive hgone
        failed := fun hnot => by
          obtain ⟨hpolled, hall⟩ := hinv.failed hnot
          rw [hdone] at hall
          have hthis : ok = true := hall (i, ok) List.mem_cons_self
          rw [hpolled, hthis]
          exact ⟨rfl, fun d hd => hall d (List.mem_cons_of_mem _ hd)⟩ }

/-- The oldest completion of the receive queue is polled. -/
theorem QpInv.pollOne_recv {c : Cqe} (hinv : QpInv cfg c.qpn qp h qs (c :: qr))
    (hrecv : c.opcode.isRecv = true) :
    ∃ qp' l h', qp.pollOne c = some (qp', l) ∧ qp'.down = qp.down ∧
      h.step cfg c.qpn l = some h' ∧ QpInv cfg c.qpn qp' h' qs qr := by
  have hlive : recvLive qp.down := by
    by_contra hgone
    cases hinv.recvs_gone hgone
  have hpresent : qp.down ≠ some .gone := by
    rcases hlive with hd | hd | hd <;> rw [hd] <;> decide
  have hcount := hinv.recvs hlive
  rw [List.length_cons] at hcount
  obtain ⟨recv', hhist, hposted, hconsumed, hpolled, hrq'⟩ := hinv.rq.pollRecv (by omega)
  have hone : qp.pollOne c = some ({ qp with rq := qp.rq.pollRecv.2 },
      .polledRecv qp.rq.pollRecv.1) := by
    rw [Qp.pollOne, if_neg hpresent]
    cases hop : c.opcode <;> rw [hop] at hrecv
    all_goals cases hrecv
  refine ⟨_, _, { h with recv := recv' }, hone, rfl, by simp [QpHist.step, hhist], ?_⟩
  · exact
      { hinv with
        rq := hrq'
        rqMax := hinv.rqMax
        devRq := fun hdown => by
          rw [hposted, hconsumed]
          exact hinv.devRq hdown
        ind := fun call hcall => by
          rw [hposted]
          exact hinv.ind call hcall
        recvs := fun _ => by
          rw [hpolled, hconsumed]
          omega
        recvs_gone := fun hgone => absurd hlive hgone }

/-- The device drops the requests of a queue pair that goes down. -/
theorem QpInv.down (hinv : QpInv cfg qpn qp h qs qr) (hdown : qp.down = none)
    (hsq : qp.sqCall = none) (hrq : qp.rqCall = none) :
    QpInv cfg qpn
      { qp with dev := { qp.dev with sq := [], rq := 0 }, down := some .recvCq }
      { h with up := false } qs qr :=
  { hinv with
    devSq := fun hnone => by cases hnone
    devRq := fun hnone => by cases hnone
    calls := fun _ => ⟨hsq, hrq⟩
    sends := fun _ => hinv.sends (by simp [sendLive, hdown])
    sends_gone := fun hgone => absurd (by simp [sendLive]) hgone
    recvs := fun _ => hinv.recvs (.inl hdown)
    recvs_gone := fun hgone => absurd (.inr (.inl rfl)) hgone
    up := rfl
    other := fun hne => by rcases hne with hne | hne <;> cases hne }

/-- The next phase of stopping a queue pair. -/
theorem QpInv.setDown (hinv : QpInv cfg qpn qp h qs qr) (hdown : qp.down ≠ none) {d : Down}
    {qs' qr' : List Cqe} (hsends : sendLive (some d) → sendLive qp.down ∧ qs' = qs)
    (hsends_gone : ¬sendLive (some d) → qs' = [])
    (hrecvs : recvLive (some d) → recvLive qp.down ∧ qr' = qr)
    (hrecvs_gone : ¬recvLive (some d) → qr' = [])
    (hother : d = .sendCq ∨ d = .sendCqLocked → cfg.sendCq qpn ≠ cfg.recvCq qpn) :
    QpInv cfg qpn { qp with down := some d } h qs' qr' :=
  { hinv with
    devSq := fun hnone => by cases hnone
    devRq := fun hnone => by cases hnone
    calls := fun _ => hinv.calls hdown
    sends := fun hlive => by
      rw [(hsends hlive).2]
      exact hinv.sends (hsends hlive).1
    sends_gone := hsends_gone
    recvs := fun hlive => by
      rw [(hrecvs hlive).2]
      exact hinv.recvs (hrecvs hlive).1
    recvs_gone := hrecvs_gone
    up := hinv.up.trans (by simp [hdown])
    other := fun hne => hother (by simpa using hne) }

/-- The queue pair comes up again, or another one gets its number. -/
theorem QpInv.fresh (hinv : QpInv cfg qpn qp h qs qr) (hsends : ¬sendLive qp.down)
    (hrecvs : ¬recvLive qp.down) : QpInv cfg qpn qp.fresh (.init true) qs qr where
  sq := SqInv.init hinv.sq.roomy
  rq := RqInv.init hinv.rq.roomy
  sqMax := hinv.sqMax
  rqMax := hinv.rqMax
  devSq := fun _ => rfl
  devRq := fun _ => rfl
  ind := fun _ hnone => by cases hnone
  calls := fun hne => absurd rfl hne
  sends := fun _ => by
    rw [hinv.sends_gone hsends]
    rfl
  sends_gone := fun _ => hinv.sends_gone hsends
  recvs := fun _ => by
    rw [hinv.recvs_gone hrecvs]
    rfl
  recvs_gone := fun _ => hinv.recvs_gone hrecvs
  failed := fun _ => ⟨rfl, by simp [QpHist.init, SendHist.init]⟩
  up := rfl
  other := fun hne => by rcases hne with hne | hne <;> cases hne

theorem QpInv.init (hcfg : cfg.Ok) (qpn : Nat) :
    QpInv cfg qpn (.init cfg qpn) (.init false) [] [] where
  sq := SqInv.init (hcfg.sq qpn)
  rq := RqInv.init (hcfg.rq qpn)
  sqMax := rfl
  rqMax := rfl
  devSq := fun _ => rfl
  devRq := fun _ => rfl
  ind := fun _ hnone => by cases hnone
  calls := fun _ => ⟨rfl, rfl⟩
  sends := fun _ => rfl
  sends_gone := fun _ => rfl
  recvs := fun _ => rfl
  recvs_gone := fun _ => rfl
  failed := fun _ => ⟨rfl, by simp [QpHist.init, SendHist.init]⟩
  up := rfl
  other := fun hne => by rcases hne with hne | hne <;> cases hne

end QpInv

end Driver
