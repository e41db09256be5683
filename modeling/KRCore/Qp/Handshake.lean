-- SUMMARY: The CM handshake of an RC connection on both machines, and when a successful connect means agreement.
import Mathlib.Logic.Function.Basic
import KRCore.Base.Run
import KRCore.Base.Word
import KRCore.Verbs.Types

/-!
# The RC handshake

`RC::connect` on the client and `RCtrl::rc_conn_callback` on the server. Every
`ib_cm_init_qp_attr`, `ib_modify_qp` and CM send may fail. The server sends its
reply before it registers the RC, and the two machines run concurrently, so
these are two steps. Both callbacks only print the errors of the state
transitions, and nobody checks the status in the reply.
-/

/-- `ib_qp_state`, as far as an RC gets. -/
inductive QpState where
  | reset
  | init
  | rtr
  | rts
  | err
deriving DecidableEq, Repr

/-- Which of the calls succeed that bring a queue up, in the order they are
    made. -/
structure BringAnswers where
  initAttr : Bool
  initModify : Bool
  rtrAttr : Bool
  rtrModify : Bool
  rtsAttr : Bool
  rtsModify : Bool
deriving DecidableEq

def BringAnswers.allOk (a : BringAnswers) : Bool :=
  a.initAttr && a.initModify && a.rtrAttr && a.rtrModify && a.rtsAttr && a.rtsModify

namespace QpState

/-- `bring_to_init`: whether it succeeds, and the state afterwards. -/
def bringToInit (st : QpState) (a : BringAnswers) : Bool × QpState :=
  if st = .reset ∨ st = .err then
    if a.initAttr && a.initModify then (true, .init) else (false, st)
  else (true, st)

def bringToRtr (st : QpState) (a : BringAnswers) : Bool × QpState :=
  match st.bringToInit a with
  | (false, st) => (false, st)
  | (true, st) =>
    if st = .init then if a.rtrAttr && a.rtrModify then (true, .rtr) else (false, st)
    else (true, st)

def bringToRts (st : QpState) (a : BringAnswers) : Bool × QpState :=
  if st = .rtr then if a.rtsAttr && a.rtsModify then (true, .rts) else (false, st)
  else (true, st)

/-- What both callbacks do: `bring_to_rtr`, and on success `bring_to_rts`, whose
    result is ignored. -/
def bringUp (st : QpState) (a : BringAnswers) : Bool × QpState :=
  match st.bringToRtr a with
  | (false, st) => (false, st)
  | (true, st) => (true, (st.bringToRts a).2)

/-- A new queue is brought up to RTS exactly if every call succeeds. -/
theorem bringUp_reset_eq_rts_iff (a : BringAnswers) :
    (reset.bringUp a).2 = .rts ↔ a.allOk = true := by
  obtain ⟨a1, a2, a3, a4, a5, a6⟩ := a
  revert a1 a2 a3 a4 a5 a6
  decide

theorem bringUp_reset_fst {a : BringAnswers} (h : a.allOk = true) : (reset.bringUp a).1 = true := by
  obtain ⟨a1, a2, a3, a4, a5, a6⟩ := a
  revert a1 a2 a3 a4 a5 a6
  decide

end QpState

/-- `conn::reply::Status`. -/
inductive ConnStatus where
  | ok
  | err
  | nil
  | exist
  | notExist
deriving DecidableEq

/-- `conn::reply::Payload`. -/
structure ConnReply where
  qd : Nat
  mr : TempMR
  status : ConnStatus
deriving DecidableEq

/-- `get_next_in_qp_key`: the key and the next free one, with the overflow check of
    `*qp_key += 1`. -/
def getNextInQpKey (free vid : Nat) : Option (Nat × Nat) :=
  if vid = 0 then (Word.checkedAdd 64 free 1).map fun next => (free, next) else some (vid, free)

theorem getNextInQpKey_fst {free vid key free' : Nat}
    (h : getNextInQpKey free vid = some (key, free')) : key = if vid = 0 then free else vid := by
  unfold getNextInQpKey at h
  split at h
  · rename_i hvid
    simp only [Option.map_eq_some_iff, Prod.mk.injEq] at h
    obtain ⟨next, -, rfl, -⟩ := h
    rw [if_pos hvid]
  · rename_i hvid
    cases h
    rw [if_neg hvid]

theorem getNextInQpKey_snd {free vid key free' : Nat}
    (h : getNextInQpKey free vid = some (key, free')) :
    free' = if vid = 0 then free + 1 else free := by
  unfold getNextInQpKey at h
  split at h
  · rename_i hvid
    simp only [Option.map_eq_some_iff, Prod.mk.injEq, Word.checkedAdd_eq_some] at h
    obtain ⟨next, ⟨-, hnext⟩, -, rfl⟩ := h
    rw [if_pos hvid, hnext]
  · rename_i hvid
    cases h
    rw [if_neg hvid]

/-- Where `RC::connect` stands. -/
inductive ClientPhase where
  | start
  | waiting
  | returned (ok : Bool)
deriving DecidableEq

/-- The RC that the server makes for the connection: its key in
    `registered_rcs`, its state, and whether `bring_to_rtr` succeeded. -/
structure ServerRc where
  key : Nat
  qp : QpState
  rtr : Bool
deriving DecidableEq

/-- Where `rc_conn_callback` stands. -/
inductive ServerPhase where
  | idle
  | built (rc : ServerRc)
  | replied (rc : ServerRc)
  | registered (rc : ServerRc)
  | dropped
deriving DecidableEq

/-- An entry of `registered_rcs`: the RC of this connection or another one. -/
inductive RegisteredRc where
  | ours (qp : QpState)
  | other
deriving DecidableEq

/-- Both machines and the CM messages between them. `clientAns` and `serverAns`
    record how the calls went that brought the queues up, and `replaced` that
    another connection has been registered, or deregistered, under the key of
    this one. -/
structure Handshake where
  phase : ClientPhase
  done : Bool
  qp : QpState
  remoteMr : Option TempMR
  req : Bool
  server : ServerPhase
  rep : Option ConnReply
  freeInQpKey : Nat
  registeredRcs : Nat → Option RegisteredRc
  clientAns : Option BringAnswers
  serverAns : Option BringAnswers
  replaced : Bool

namespace Handshake

inductive Event where
  | sendReq (ok : Bool)
  /-- The server gets the request. -/
  | request (ans : BringAnswers)
  | reply (ok : Bool)
  /-- The rest of the callback. -/
  | register
  /-- The client gets the reply. -/
  | handleReply (ans : BringAnswers)
  /-- The CM reports a rejection or the end of the time wait. -/
  | report
  | waitTimeout
  | sendRtu (ok : Bool)
  /-- The server registers an RC for another connection. -/
  | other (qd : Nat)
  /-- The server gets the DREQ of another connection. -/
  | deregRc (key : Nat)

def init (free : Nat) (registered : Nat → Bool) : Handshake where
  phase := .start
  done := false
  qp := .reset
  remoteMr := none
  req := false
  server := .idle
  rep := none
  freeInQpKey := free
  registeredRcs key := if registered key then some .other else none
  clientAns := none
  serverAns := none
  replaced := false

/-! ## The client -/

def sendReq (s : Handshake) (ok : Bool) : Option Handshake :=
  match s.phase with
  | .start =>
    if ok then some { s with phase := .waiting, req := true }
    else some { s with phase := .returned false }
  | _ => none

/-- `handle_reply`. -/
def handleReply (s : Handshake) (ans : BringAnswers) : Option Handshake :=
  match s.rep with
  | none => none
  | some reply =>
    some
      { s with
        rep := none
        qp := (s.qp.bringUp ans).2
        remoteMr := some reply.mr
        done := true
        clientAns := some ans }

def waitTimeout (s : Handshake) : Option Handshake :=
  match s.phase, s.done with
  | .waiting, false => some { s with phase := .returned false }
  | _, _ => none

def sendRtu (s : Handshake) (ok : Bool) : Option Handshake :=
  match s.phase, s.done with
  | .waiting, true => some { s with phase := .returned ok }
  | _, _ => none

/-! ## The server -/

/-- `rc_conn_callback` up to its reply. -/
def request (qd : Nat) (s : Handshake) (ans : BringAnswers) : Option Handshake :=
  match s.req, s.server with
  | true, .idle =>
    (getNextInQpKey s.freeInQpKey qd).map fun (key, free) =>
      let (rtr, qp) := QpState.reset.bringUp ans
      { s with server := .built { key, qp, rtr }, freeInQpKey := free, serverAns := some ans }
  | _, _ => none

/-- `connect_reply`, on both branches with the status `Nil`. -/
def reply (qd : Nat) (testMr : TempMR) (s : Handshake) (ok : Bool) : Option Handshake :=
  match s.server with
  | .built rc =>
    some
      { s with
        server := .replied rc
        rep := if ok then some { qd, mr := testMr, status := .nil } else none }
  | _ => none

/-- Without RTR the RC is dropped at the end of the callback. -/
def register (s : Handshake) : Option Handshake :=
  match s.server with
  | .replied rc =>
    if rc.rtr then
      some
        { s with
          server := .registered rc
          registeredRcs := Function.update s.registeredRcs rc.key (some (.ours rc.qp)) }
    else some { s with server := .dropped }
  | _ => none

/-- The key under which this connection is registered. -/
def registeredKey (s : Handshake) : Option Nat :=
  match s.server with
  | .registered rc => some rc.key
  | _ => none

/-- `rc_conn_callback` has returned. -/
def callbackReturned (s : Handshake) : Bool :=
  match s.server with
  | .registered _ => true
  | .dropped => true
  | _ => false

/-- Another connection changes an entry of `registered_rcs`. -/
def replaceEntry (s : Handshake) (key : Nat) (entry : Option RegisteredRc) : Handshake :=
  { s with
    registeredRcs := Function.update s.registeredRcs key entry
    replaced := s.replaced || s.registeredKey == some key }

def other (s : Handshake) (vid : Nat) : Option Handshake :=
  (getNextInQpKey s.freeInQpKey vid).map fun (key, free) =>
    { s with freeInQpKey := free }.replaceEntry key (some .other)

/-- `dereg_rc`, by the key in the context of the connection. -/
def deregRc (s : Handshake) (key : Nat) : Handshake := s.replaceEntry key none

def step (qd : Nat) (testMr : TempMR) (s : Handshake) : Event → Option Handshake
  | .sendReq ok => s.sendReq ok
  | .request ans => s.request qd ans
  | .reply ok => s.reply qd testMr ok
  | .register => s.register
  | .handleReply ans => s.handleReply ans
  | .report => some s
  | .waitTimeout => s.waitTimeout
  | .sendRtu ok => s.sendRtu ok
  | .other vid => s.other vid
  | .deregRc key => some (s.deregRc key)

/-- Everything a step can do. -/
inductive Stepped (qd : Nat) (testMr : TempMR) (s : Handshake) : Event → Handshake → Prop
  | requested (hphase : s.phase = .start) :
      Stepped qd testMr s (.sendReq true) { s with phase := .waiting, req := true }
  | unsent (hphase : s.phase = .start) :
      Stepped qd testMr s (.sendReq false) { s with phase := .returned false }
  | built {ans : BringAnswers} {rc : ServerRc} {free : Nat} (hserver : s.server = .idle)
      (hkey : getNextInQpKey s.freeInQpKey qd = some (rc.key, free))
      (hbring : (rc.rtr, rc.qp) = QpState.reset.bringUp ans) :
      Stepped qd testMr s (.request ans)
        { s with server := .built rc, freeInQpKey := free, serverAns := some ans }
  | replied {ok : Bool} {rc : ServerRc} (hserver : s.server = .built rc) :
      Stepped qd testMr s (.reply ok)
        { s with
          server := .replied rc
          rep := if ok then some { qd, mr := testMr, status := .nil } else none }
  | registered {rc : ServerRc} (hserver : s.server = .replied rc) (hrtr : rc.rtr = true) :
      Stepped qd testMr s .register
        { s with
          server := .registered rc
          registeredRcs := Function.update s.registeredRcs rc.key (some (.ours rc.qp)) }
  | dropped {rc : ServerRc} (hserver : s.server = .replied rc) (hrtr : rc.rtr = false) :
      Stepped qd testMr s .register { s with server := .dropped }
  | handled {ans : BringAnswers} {reply : ConnReply} (hrep : s.rep = some reply) :
      Stepped qd testMr s (.handleReply ans)
        { s with
          rep := none
          qp := (s.qp.bringUp ans).2
          remoteMr := some reply.mr
          done := true
          clientAns := some ans }
  | reported : Stepped qd testMr s .report s
  | timedOut (hphase : s.phase = .waiting) (hdone : s.done = false) :
      Stepped qd testMr s .waitTimeout { s with phase := .returned false }
  | returned {ok : Bool} (hphase : s.phase = .waiting) (hdone : s.done = true) :
      Stepped qd testMr s (.sendRtu ok) { s with phase := .returned ok }
  | other {vid key free : Nat} (hkey : getNextInQpKey s.freeInQpKey vid = some (key, free)) :
      Stepped qd testMr s (.other vid)
        ({ s with freeInQpKey := free }.replaceEntry key (some .other))
  | deregistered {key : Nat} : Stepped qd testMr s (.deregRc key) (s.deregRc key)

theorem step_stepped {qd : Nat} {testMr : TempMR} {s s' : Handshake} {e : Event}
    (h : s.step qd testMr e = some s') : Stepped qd testMr s e s' := by
  cases e with
  | sendReq ok =>
    simp only [step, sendReq] at h
    split at h
    · rename_i hphase
      cases ok with
      | true => cases h; exact .requested hphase
      | false => cases h; exact .unsent hphase
    · cases h
  | request ans =>
    simp only [step, request] at h
    split at h
    · rename_i hreq hserver
      simp only [Option.map_eq_some_iff, Prod.exists] at h
      obtain ⟨key, free, hkey, rfl⟩ := h
      exact .built hserver hkey rfl
    · cases h
  | reply ok =>
    simp only [step, reply] at h
    split at h
    · rename_i rc hserver
      cases h
      exact .replied hserver
    · cases h
  | register =>
    simp only [step, register] at h
    split at h
    · rename_i rc hserver
      split at h
      · rename_i hrtr
        cases h
        exact .registered hserver hrtr
      · rename_i hrtr
        cases h
        exact .dropped hserver (Bool.eq_false_iff.mpr hrtr)
    · cases h
  | handleReply ans =>
    simp only [step, handleReply] at h
    split at h
    · cases h
    · rename_i reply hrep
      cases h
      exact .handled hrep
  | report =>
    cases h
    exact .reported
  | waitTimeout =>
    simp only [step, waitTimeout] at h
    split at h
    · rename_i hphase hdone
      cases h
      exact .timedOut hphase hdone
    · cases h
  | sendRtu ok =>
    simp only [step, sendRtu] at h
    split at h
    · rename_i hphase hdone
      cases h
      exact .returned hphase hdone
    · cases h
  | other vid =>
    simp only [step, other, Option.map_eq_some_iff, Prod.exists] at h
    obtain ⟨key, free, hkey, rfl⟩ := h
    exact .other hkey
  | deregRc key =>
    cases h
    exact .deregistered

/-! ## Agreement -/

/-- The client's queue is in RTS, it has the server's test MR, and the server has
    the RC of this connection in RTS, registered. -/
def Agreed (testMr : TempMR) (s : Handshake) : Prop :=
  s.qp = .rts ∧ s.remoteMr = some testMr ∧ ∃ key, s.registeredRcs key = some (.ours .rts)

/-- All calls that brought the queues up have succeeded, the server's callback
    has returned, and no other connection has used its key since. -/
def Sound (s : Handshake) : Prop :=
  (∀ a ∈ s.clientAns, a.allOk = true) ∧ (∀ a ∈ s.serverAns, a.allOk = true) ∧
    s.callbackReturned = true ∧ s.replaced = false

/-- What the client has is what the recorded answers and the reply make of it. -/
structure ClientInv (testMr : TempMR) (s : Handshake) : Prop where
  fresh : s.clientAns = none → s.qp = .reset ∧ s.done = false
  brought : ∀ a, s.clientAns = some a →
    s.qp = (QpState.reset.bringUp a).2 ∧ s.remoteMr = some testMr ∧ s.rep = none
  rep : ∀ r, s.rep = some r → r.mr = testMr
  unsent : s.server = .idle ∨ (∃ rc, s.server = .built rc) → s.rep = none ∧ s.clientAns = none

/-- The RC that the callback works with or has registered. -/
def serverRc (s : Handshake) : Option ServerRc :=
  match s.server with
  | .built rc => some rc
  | .replied rc => some rc
  | .registered rc => some rc
  | _ => none

/-- The server's RC is what the recorded answers make of it, and it is the one
    registered, unless another connection has taken its key. -/
structure ServerInv (s : Handshake) : Prop where
  built : ∀ rc, s.serverRc = some rc →
    ∃ a, s.serverAns = some a ∧ (rc.rtr, rc.qp) = QpState.reset.bringUp a
  dropped : s.server = .dropped → ∃ a, s.serverAns = some a ∧ a.allOk = false
  ours : ∀ key qp, s.registeredRcs key = some (.ours qp) →
    ∃ rc, s.server = .registered rc ∧ rc.key = key ∧ rc.qp = qp ∧ s.replaced = false
  entry : ∀ rc, s.server = .registered rc → s.replaced = false →
    s.registeredRcs rc.key = some (.ours rc.qp)
  unreplaced : s.registeredKey = none → s.replaced = false

variable {qd : Nat} {testMr : TempMR} {s s' : Handshake}

theorem clientInv_init (free : Nat) (registered : Nat → Bool) :
    (init free registered).ClientInv testMr where
  fresh _ := ⟨rfl, rfl⟩
  brought _ h := by cases h
  rep _ h := by cases h
  unsent _ := ⟨rfl, rfl⟩

theorem serverInv_init (free : Nat) (registered : Nat → Bool) :
    (init free registered).ServerInv where
  built _ h := by cases h
  dropped h := by cases h
  ours key qp h := by
    simp only [init] at h
    split at h <;> cases h
  entry _ h := by cases h
  unreplaced _ := rfl

/-- The steps that touch neither the reply nor what the client has made of it. -/
theorem ClientInv.congr (hs : s.ClientInv testMr) (hqp : s'.qp = s.qp) (hdone : s'.done = s.done)
    (hmr : s'.remoteMr = s.remoteMr) (hrep : s'.rep = s.rep) (hans : s'.clientAns = s.clientAns)
    (hserver : s'.server = .idle ∨ (∃ rc, s'.server = .built rc) →
      s.server = .idle ∨ ∃ rc, s.server = .built rc) : s'.ClientInv testMr where
  fresh := by rw [hans, hqp, hdone]; exact hs.fresh
  brought := by rw [hans, hqp, hmr, hrep]; exact hs.brought
  rep := by rw [hrep]; exact hs.rep
  unsent h := by rw [hrep, hans]; exact hs.unsent (hserver h)

/-- A client that has been brought up has no reply left to handle. -/
theorem ClientInv.clientAns_of_rep {reply : ConnReply} (hs : s.ClientInv testMr)
    (hrep : s.rep = some reply) : s.clientAns = none := by
  cases hans : s.clientAns with
  | none => rfl
  | some a =>
    have hnone := (hs.brought a hans).2.2
    rw [hrep] at hnone
    cases hnone

theorem ClientInv.step {e : Event} (hs : s.ClientInv testMr) (h : s.step qd testMr e = some s') :
    s'.ClientInv testMr := by
  cases step_stepped h with
  | requested hphase => exact hs.congr rfl rfl rfl rfl rfl id
  | unsent hphase => exact hs.congr rfl rfl rfl rfl rfl id
  | built hserver hkey hbring => exact hs.congr rfl rfl rfl rfl rfl fun _ => .inl hserver
  | @replied ok rc hserver =>
    obtain ⟨-, hnone⟩ := hs.unsent (.inr ⟨rc, hserver⟩)
    refine ⟨hs.fresh, fun a ha => ?_, fun r hr => ?_, by simp⟩
    · rw [hnone] at ha
      cases ha
    · cases ok with
      | true => cases hr; rfl
      | false => cases hr
  | registered hserver hrtr => exact hs.congr rfl rfl rfl rfl rfl (by simp)
  | dropped hserver hrtr => exact hs.congr rfl rfl rfl rfl rfl (by simp)
  | @handled ans reply hrep =>
    have hfresh := hs.fresh (hs.clientAns_of_rep hrep)
    refine ⟨fun hans => (by cases hans), fun a ha => ?_, fun r hr => (by cases hr),
      fun hphase => ?_⟩
    · cases ha
      exact ⟨by rw [hfresh.1], by rw [hs.rep reply hrep], rfl⟩
    · have hnone := (hs.unsent hphase).1
      rw [hrep] at hnone
      cases hnone
  | reported => exact hs
  | timedOut hphase hdone => exact hs.congr rfl rfl rfl rfl rfl id
  | returned hphase hdone => exact hs.congr rfl rfl rfl rfl rfl id
  | other hkey => exact hs.congr rfl rfl rfl rfl rfl id
  | deregistered => exact hs.congr rfl rfl rfl rfl rfl id

/-- The steps of the client do not touch the server. -/
theorem ServerInv.congr (hs : s.ServerInv) (hserver : s'.server = s.server)
    (hans : s'.serverAns = s.serverAns) (hrcs : s'.registeredRcs = s.registeredRcs)
    (hrep : s'.replaced = s.replaced) : s'.ServerInv where
  built := by unfold serverRc; rw [hserver, hans]; exact hs.built
  dropped := by rw [hserver, hans]; exact hs.dropped
  ours := by rw [hrcs, hserver, hrep]; exact hs.ours
  entry := by rw [hserver, hrep, hrcs]; exact hs.entry
  unreplaced := by unfold registeredKey; rw [hserver, hrep]; exact hs.unreplaced

/-- Before the registration no entry is the one of this connection. -/
theorem ServerInv.not_ours (hs : s.ServerInv) (hserver : ∀ rc, s.server ≠ .registered rc)
    (key : Nat) (qp : QpState) : s.registeredRcs key ≠ some (.ours qp) := by
  intro hkey
  obtain ⟨rc, hrc, -⟩ := hs.ours key qp hkey
  exact hserver rc hrc

/-- As long as the RC is not registered, the callback may change its phase. -/
theorem ServerInv.advance (hs : s.ServerInv) (hserver : ∀ rc, s.server ≠ .registered rc)
    (hserver' : ∀ rc, s'.server ≠ .registered rc) (hrcs : s'.registeredRcs = s.registeredRcs)
    (hrep : s'.replaced = s.replaced)
    (hbuilt : ∀ rc, s'.serverRc = some rc →
      ∃ a, s'.serverAns = some a ∧ (rc.rtr, rc.qp) = QpState.reset.bringUp a)
    (hdropped : s'.server = .dropped → ∃ a, s'.serverAns = some a ∧ a.allOk = false) :
    s'.ServerInv where
  built := hbuilt
  dropped := hdropped
  ours key qp hkey := absurd (hrcs ▸ hkey) (hs.not_ours hserver key qp)
  entry rc hrc := absurd hrc (hserver' rc)
  unreplaced _ := by
    rw [hrep]
    refine hs.unreplaced ?_
    unfold registeredKey
    split
    · rename_i rc hrc
      exact absurd hrc (hserver rc)
    · rfl

theorem ServerInv.register {rc : ServerRc} (hs : s.ServerInv) (hserver : s.server = .replied rc) :
    ServerInv { s with
      server := .registered rc
      registeredRcs := Function.update s.registeredRcs rc.key (some (.ours rc.qp)) } := by
  have hunreplaced : s.replaced = false := hs.unreplaced (by simp [registeredKey, hserver])
  refine ⟨fun rc' hrc => ?_, fun hdrop => (by cases hdrop), fun key qp hkey => ?_,
    fun rc' hrc _ => ?_, fun _ => hunreplaced⟩
  · exact hs.built rc' (by simpa [serverRc, hserver] using hrc)
  · by_cases hk : key = rc.key
    · subst hk
      simp only [Function.update_self, Option.some.injEq, RegisteredRc.ours.injEq] at hkey
      exact ⟨rc, rfl, rfl, hkey, hunreplaced⟩
    · simp only [Function.update_of_ne hk] at hkey
      exact absurd hkey (hs.not_ours (by simp [hserver]) key qp)
  · cases hrc
    simp

theorem ServerInv.replaceEntry (hs : s.ServerInv) (key : Nat) {entry : Option RegisteredRc}
    (hentry : ∀ qp, entry ≠ some (.ours qp)) : (s.replaceEntry key entry).ServerInv := by
  refine ⟨hs.built, hs.dropped, fun key' qp hkey => ?_, fun rc hrc hrep => ?_, fun hnone => ?_⟩
  · simp only [Handshake.replaceEntry] at hkey ⊢
    by_cases hk : key' = key
    · subst hk
      rw [Function.update_self] at hkey
      exact absurd hkey (hentry qp)
    · rw [Function.update_of_ne hk] at hkey
      obtain ⟨rc, hrc, rfl, hqp, hrep⟩ := hs.ours key' qp hkey
      exact ⟨rc, hrc, rfl, hqp, by simp [hrep, registeredKey, hrc, hk]⟩
  · have hserver : s.server = .registered rc := hrc
    simp only [Handshake.replaceEntry, Bool.or_eq_false_iff, registeredKey, hserver] at hrep ⊢
    have hk : rc.key ≠ key := fun heq => by simp [heq] at hrep
    rw [Function.update_of_ne hk]
    exact hs.entry rc hserver hrep.1
  · have hkey : s.registeredKey = none := hnone
    simp [Handshake.replaceEntry, hkey, hs.unreplaced hkey]

theorem ServerInv.step {e : Event} (hs : s.ServerInv) (h : s.step qd testMr e = some s') :
    s'.ServerInv := by
  cases step_stepped h with
  | requested hphase => exact hs.congr rfl rfl rfl rfl
  | unsent hphase => exact hs.congr rfl rfl rfl rfl
  | @built ans rc free hserver hkey hbring =>
    refine hs.advance (by simp [hserver]) (by simp) rfl rfl (fun rc' hrc => ?_) (by simp)
    cases hrc
    exact ⟨ans, rfl, hbring⟩
  | replied hserver =>
    refine hs.advance (by simp [hserver]) (by simp) rfl rfl (fun rc' hrc => ?_) (by simp)
    exact hs.built rc' (by simpa [serverRc, hserver] using hrc)
  | registered hserver hrtr => exact hs.register hserver
  | @dropped rc hserver hrtr =>
    refine hs.advance (by simp [hserver]) (by simp) rfl rfl (by simp [serverRc]) fun _ => ?_
    obtain ⟨a, hans, hbring⟩ := hs.built rc (by simp [serverRc, hserver])
    refine ⟨a, hans, Bool.eq_false_iff.mpr fun hok => ?_⟩
    have htrue : rc.rtr = true := (congrArg Prod.fst hbring).trans (QpState.bringUp_reset_fst hok)
    rw [hrtr] at htrue
    cases htrue
  | handled hrep => exact hs.congr rfl rfl rfl rfl
  | reported => exact hs
  | timedOut hphase hdone => exact hs.congr rfl rfl rfl rfl
  | returned hphase hdone => exact hs.congr rfl rfl rfl rfl
  | @other vid key free hkey =>
    have hfree : ServerInv { s with freeInQpKey := free } := hs.congr rfl rfl rfl rfl
    exact hfree.replaceEntry key (by simp)
  | @deregistered key => exact hs.replaceEntry key (by simp)

/-- The registry has the RC of this connection in RTS exactly if the server's
    part went well. -/
theorem ServerInv.registered_rts_iff (hs : s.ServerInv) :
    (∃ key, s.registeredRcs key = some (.ours .rts)) ↔
      (∀ a ∈ s.serverAns, a.allOk = true) ∧ s.callbackReturned = true ∧ s.replaced = false := by
  constructor
  · rintro ⟨key, hkey⟩
    obtain ⟨rc, hserver, -, hqp, hrep⟩ := hs.ours key .rts hkey
    obtain ⟨a, hans, hbring⟩ := hs.built rc (by simp [serverRc, hserver])
    refine ⟨fun a' ha' => ?_, by simp [callbackReturned, hserver], hrep⟩
    obtain rfl : a = a' := Option.some.inj (hans.symm.trans ha')
    rw [← QpState.bringUp_reset_eq_rts_iff, ← hbring]
    exact hqp
  · rintro ⟨hok, hret, hrep⟩
    cases hserver : s.server with
    | registered rc =>
      obtain ⟨a, hans, hbring⟩ := hs.built rc (by simp [serverRc, hserver])
      have hqp : rc.qp = .rts :=
        (congrArg Prod.snd hbring).trans ((QpState.bringUp_reset_eq_rts_iff a).mpr (hok a hans))
      exact ⟨rc.key, by rw [hs.entry rc hserver hrep, hqp]⟩
    | dropped =>
      obtain ⟨a, hans, hbad⟩ := hs.dropped hserver
      rw [hok a hans] at hbad
      cases hbad
    | _ => simp [callbackReturned, hserver] at hret

/-- In every run of the handshake: when `RC::connect` returns Ok, the two sides
    agree exactly if all calls that brought the queues up have succeeded, the
    server's callback has returned already, and no other connection has used its
    key since. -/
theorem connect_ok_agreed_iff (qd : Nat) (testMr : TempMR) (free : Nat) (registered : Nat → Bool)
    (es : List Event) (s s' : Handshake)
    (hrun : Run.exec (step qd testMr) (init free registered) es = some s)
    (hret : s.step qd testMr (.sendRtu true) = some s') : Agreed testMr s' ↔ Sound s := by
  obtain ⟨hclient, hserver⟩ : s.ClientInv testMr ∧ s.ServerInv :=
    Run.exec_invariant (I := fun s => s.ClientInv testMr ∧ s.ServerInv)
      (fun _ _ _ hs h => ⟨hs.1.step h, hs.2.step h⟩)
      ⟨clientInv_init free registered, serverInv_init free registered⟩ hrun
  cases step_stepped hret with
  | returned hphase hdone =>
    cases hans : s.clientAns with
    | none =>
      rw [(hclient.fresh hans).2] at hdone
      cases hdone
    | some a =>
      obtain ⟨hqp, hmr, -⟩ := hclient.brought a hans
      simp only [Agreed, Sound, hqp, hmr, hans, QpState.bringUp_reset_eq_rts_iff,
        hserver.registered_rts_iff, true_and, Option.mem_def, Option.some.injEq, forall_eq']

/-! ## Runs without agreement -/

def BringAnswers.good : BringAnswers := ⟨true, true, true, true, true, true⟩

/-- The last `ib_modify_qp` fails. -/
def BringAnswers.noRts : BringAnswers := ⟨true, true, true, true, true, false⟩

/-- The `ib_modify_qp` to RTR fails. -/
def BringAnswers.noRtr : BringAnswers := ⟨true, true, true, false, true, true⟩

/-- A handshake with the given answers on the server and on the client. -/
def run (server client : BringAnswers) : List Event :=
  [.sendReq true, .request server, .reply true, .register, .handleReply client, .sendRtu true]

/-- `RC::connect` returns Ok although the client's queue is not in RTS, although
    the server has dropped its RC, and although the server has not registered it
    yet. -/
theorem connect_ok_without_agreement :
    (∃ s, Run.exec (step 5 default) (init 1 fun _ => false)
        (run BringAnswers.good BringAnswers.noRts) = some s ∧
      s.phase = .returned true ∧ s.qp = .rtr) ∧
    (∃ s, Run.exec (step 5 default) (init 1 fun _ => false)
        (run BringAnswers.noRtr BringAnswers.good) = some s ∧
      s.phase = .returned true ∧ s.server = .dropped ∧ s.registeredRcs 5 = none) ∧
    ∃ s, Run.exec (step 5 default) (init 1 fun _ => false)
        [.sendReq true, .request BringAnswers.good, .reply true, .handleReply BringAnswers.good,
          .sendRtu true] = some s ∧
      s.phase = .returned true ∧ s.registeredRcs 5 = none :=
  ⟨⟨_, rfl, rfl, rfl⟩, ⟨_, rfl, rfl, rfl, rfl⟩, ⟨_, rfl, rfl, rfl⟩⟩

theorem connect_ok_agreed_iff_good :
    ∃ s s', Run.exec (step 5 default) (init 1 fun _ => false)
        ((run BringAnswers.good BringAnswers.good).dropLast) = some s ∧
      s.step 5 default (.sendRtu true) = some s' ∧ (Agreed default s' ↔ Sound s) :=
  ⟨_, _, rfl, rfl, connect_ok_agreed_iff 5 default 1 (fun _ => false)
    (run BringAnswers.good BringAnswers.good).dropLast _ _ rfl rfl⟩

end Handshake
