-- SUMMARY: RPC calls over a network that delays, reorders and loses datagrams, and when a reply belongs to its call.
import KRCore.Base.Run
import KRCore.Rpc.Poll
import KRCore.Rpc.Server

/-!
# Calls and their replies

One endpoint calls (`RPCClient::call`), another one serves (`poll_all`), and the
datagrams between them may be delayed, reordered and lost. A call takes the
first receive completion it finds as its reply: the `rpc_id` of the header is
neither sent back nor compared. Calls are numbered here, and the number is
attached to every request and to the reply that was produced for it; the program
does not see it.

A posted send is read from the send buffer when the NIC gets to it.
`wait_one_cq` gives up after a while, so the buffer may have changed by then.
-/

namespace Rpc

/-- A call that has not returned: its number and the size of its reply type. -/
structure Pending where
  call : Nat
  replyLen : Nat
deriving DecidableEq

structure Config (σ : Type) where
  layout : EndPointLayout
  self : EndPoint
  handlers : UInt8 → Option (RpcHandler σ)

/-- A caller with a ring of `M` slots and a server with a ring of `N` slots.
    `requestFor` and `replyFor` say for which call the send buffers have been
    filled, `produced` lists the send buffer of the server after each request it
    has handled, and `results` what the calls have returned. -/
structure System (M N : Nat) (σ : Type) where
  calls : Nat
  waiting : Option Pending
  caller : Poller M Nat
  requestBuf : Mem
  requestFor : Nat
  requestSends : List Nat
  requests : List (Datagram Nat)
  listener : Poller N Nat
  server : RpcServer σ
  replyFor : Option Nat
  replySends : List Nat
  replies : List (Datagram Nat)
  produced : List (Nat × Mem)
  results : List (Nat × Option (List UInt8))

inductive Event where
  /-- A call begins; `sent` tells whether its send can be posted. -/
  | call (reqType : UInt8) (rpcId : BitVec 64) (payload : List UInt8) (replyLen : Nat) (sent : Bool)
  | sendRequest
  | loseRequest (i : Nat)
  | deliverRequest (i : Nat)
  | serverPoll (k : Nat)
  | serverRepost (ans : PostAnswer)
  /-- The server handles the next request of its batch. -/
  | handle (sent : Bool)
  | sendReply
  | loseReply (i : Nat)
  | deliverReply (i : Nat)
  | pop
  | repost (ans : PostAnswer)
  | copy
  | timeout

namespace System

variable {M N : Nat} {σ : Type}

/-! ## The caller -/

/-- `call` up to its waiting loop. -/
def call (cfg : Config σ) (s : System M N σ) (reqType : UInt8) (rpcId : BitVec 64)
    (payload : List UInt8) (replyLen : Nat) (sent : Bool) : Option (System M N σ) :=
  match s.waiting with
  | some _ => none
  | none =>
    let header : Header := { reqType, rpcId, endPoint := cfg.self.selfClone }
    let bytes := header.enc cfg.layout ++ payload
    some
      { s with
        calls := s.calls + 1
        waiting := some { call := s.calls, replyLen }
        requestBuf := s.requestBuf.write 0 bytes
        requestFor := s.calls
        requestSends :=
          if sent then s.requestSends ++ [max 64 (headerSz + payload.length)] else s.requestSends }

/-- The waiting loop finds a completion. -/
def pop (s : System M N σ) : Option (System M N σ) :=
  match s.waiting with
  | none => none
  | some _ => (s.caller.poll 1).map fun caller => { s with caller }

/-- The reply is copied out of the slot and returned. -/
def copy (s : System M N σ) : Option (System M N σ) :=
  match s.waiting, s.caller.repost, s.caller.batch with
  | some w, none, [c] =>
    some
      { s with
        waiting := none
        caller := { s.caller with batch := [] }
        results := s.results ++ [(w.call, some (s.caller.ring.readSlot c.slot 0 w.replyLen))] }
  | _, _, _ => none

/-- The waiting loop has found no completion and gives up. -/
def timeout (s : System M N σ) : Option (System M N σ) :=
  match s.waiting, s.caller.repost, s.caller.batch with
  | some w, none, [] => some { s with waiting := none, results := s.results ++ [(w.call, none)] }
  | _, _, _ => none

/-! ## The server -/

/-- One request of the batch. It is the request that stands in the slot. -/
def handle (cfg : Config σ) (s : System M N σ) (sent : Bool) : Option (System M N σ) :=
  match s.listener.repost, s.listener.batch with
  | none, c :: batch =>
    let out := RpcServer.handleOne cfg.layout cfg.handlers (s.listener.ring.mem c.slot) s.server
    let call := (s.listener.ring.occupant c).tag
    some
      { s with
        listener := { s.listener with batch }
        server := out.1
        replyFor := some call
        replySends := if sent then s.replySends ++ [out.2.1] else s.replySends
        produced := s.produced ++ [(call, out.1.sendBuf)] }
  | _, _ => none

/-! ## The NICs and the network -/

def sendRequest (s : System M N σ) : Option (System M N σ) :=
  match s.requestSends with
  | [] => none
  | len :: rest =>
    some
      { s with
        requestSends := rest
        requests := s.requests ++ [⟨s.requestFor, s.requestBuf.read 0 len⟩] }

def sendReply (s : System M N σ) : Option (System M N σ) :=
  match s.replySends, s.replyFor with
  | len :: rest, some call =>
    some
      { s with
        replySends := rest
        replies := s.replies ++ [⟨call, s.server.sendBuf.read 0 len⟩] }
  | _, _ => none

def deliverRequest (s : System M N σ) (i : Nat) : Option (System M N σ) := do
  let d ← s.requests[i]?
  let ring ← s.listener.ring.arrive d
  some { s with listener := { s.listener with ring }, requests := s.requests.eraseIdx i }

def deliverReply (s : System M N σ) (i : Nat) : Option (System M N σ) := do
  let d ← s.replies[i]?
  let ring ← s.caller.ring.arrive d
  some { s with caller := { s.caller with ring }, replies := s.replies.eraseIdx i }

def step [NeZero M] [NeZero N] (cfg : Config σ) (s : System M N σ) : Event → Option (System M N σ)
  | .call reqType rpcId payload replyLen sent => s.call cfg reqType rpcId payload replyLen sent
  | .sendRequest => s.sendRequest
  | .loseRequest i => some { s with requests := s.requests.eraseIdx i }
  | .deliverRequest i => s.deliverRequest i
  | .serverPoll k => (s.listener.poll k).map fun listener => { s with listener }
  | .serverRepost ans => (s.listener.postBack ans).map fun listener => { s with listener }
  | .handle sent => s.handle cfg sent
  | .sendReply => s.sendReply
  | .loseReply i => some { s with replies := s.replies.eraseIdx i }
  | .deliverReply i => s.deliverReply i
  | .pop => s.pop
  | .repost ans => (s.caller.postBack ans).map fun caller => { s with caller }
  | .copy => s.copy
  | .timeout => s.timeout

/-- No call has been made. -/
def init (caller : Poller M Nat) (listener : Poller N Nat) (server : RpcServer σ) :
    System M N σ where
  calls := 0
  waiting := none
  caller
  requestBuf := fun _ => 0
  requestFor := 0
  requestSends := []
  requests := []
  listener
  server
  replyFor := none
  replySends := []
  replies := []
  produced := []
  results := []

/-! ## Replies that belong to their calls -/

/-- What a call has returned is the beginning of what the server produced for the
    request of this call. -/
def Matched (s : System M N σ) : Prop :=
  ∀ call r, (call, some r) ∈ s.results → ∃ buf, (call, buf) ∈ s.produced ∧ r = buf.read 0 r.length

/-- A call begins with no completion left over and a reply type that the smallest
    datagram fills, and a reply arrives only while the call it belongs to is
    waiting. -/
def InTime (s : System M N σ) : Event → Prop
  | .call _ _ _ replyLen _ => s.caller.ring.completed = [] ∧ replyLen ≤ RpcServer.minReply
  | .deliverReply i => ∀ d, s.replies[i]? = some d →
      ∃ w, s.waiting = some w ∧ w.call = d.tag ∧ s.caller.batch = []
  | _ => True

/-- The datagram is the beginning of what was produced for its call. -/
def Answers (produced : List (Nat × Mem)) (d : Datagram Nat) : Prop :=
  RpcServer.minReply ≤ d.bytes.length ∧
    ∃ buf, (d.tag, buf) ∈ produced ∧ d.bytes = buf.read 0 d.bytes.length

/-- A slot holds the beginning of what was produced for the call. -/
def SlotAnswers (produced : List (Nat × Mem)) (call : Nat) (slot : Mem) : Prop :=
  ∃ buf, (call, buf) ∈ produced ∧
    slot.read udHeaderSz RpcServer.minReply = buf.read 0 RpcServer.minReply

theorem Answers.mono {produced produced' : List (Nat × Mem)} {d : Datagram Nat}
    (h : Answers produced d) (hsub : produced ⊆ produced') : Answers produced' d := by
  obtain ⟨hlen, buf, hbuf, hbytes⟩ := h
  exact ⟨hlen, buf, hsub hbuf, hbytes⟩

theorem SlotAnswers.mono {produced produced' : List (Nat × Mem)} {call : Nat} {slot : Mem}
    (h : SlotAnswers produced call slot) (hsub : produced ⊆ produced') :
    SlotAnswers produced' call slot := by
  obtain ⟨buf, hbuf, hread⟩ := h
  exact ⟨buf, hsub hbuf, hread⟩

/-- A slot that a reply is written to answers its call. -/
theorem Answers.write {produced : List (Nat × Mem)} {d : Datagram Nat} (h : Answers produced d)
    (slot : Mem) : SlotAnswers produced d.tag (slot.write udHeaderSz d.bytes) := by
  obtain ⟨hlen, buf, hbuf, hbytes⟩ := h
  refine ⟨buf, hbuf, ?_⟩
  rw [Mem.read_write_take hlen, hbytes, Mem.read_take hlen]

/-- Send buffers, datagrams and the slots that the waiting call may still read
    are attributed to the right call. -/
structure Attributed (s : System M N σ) : Prop where
  buffer : ∀ call, s.replyFor = some call → (call, s.server.sendBuf) ∈ s.produced
  sends : ∀ len ∈ s.replySends, RpcServer.minReply ≤ len
  flight : ∀ d ∈ s.replies, Answers s.produced d
  short : ∀ w, s.waiting = some w → w.replyLen ≤ RpcServer.minReply
  slots : ∀ w, s.waiting = some w → ∀ c ∈ s.caller.batch ++ s.caller.ring.completed,
    SlotAnswers s.produced w.call (s.caller.ring.mem c.slot)
  idle : s.waiting = none → s.caller.batch = []
  matched : s.Matched

theorem Attributed.call {cfg : Config σ} {s s' : System M N σ} {reqType : UInt8}
    {rpcId : BitVec 64} {payload : List UInt8} {replyLen : Nat} {sent : Bool}
    (hs : s.Attributed) (hempty : s.caller.ring.completed = [])
    (hshort : replyLen ≤ RpcServer.minReply)
    (h : s.call cfg reqType rpcId payload replyLen sent = some s') : s'.Attributed := by
  unfold System.call at h
  split at h
  · cases h
  · rename_i hidle
    cases h
    refine { hs with short := ?_, slots := ?_, idle := fun hnone => by cases hnone }
    · rintro w ⟨⟩
      exact hshort
    · intro w _ c hc
      rw [hs.idle hidle, hempty] at hc
      cases hc

theorem Attributed.handle {cfg : Config σ} {s s' : System M N σ} {sent : Bool}
    (hs : s.Attributed) (h : s.handle cfg sent = some s') : s'.Attributed := by
  unfold System.handle at h
  split at h
  · rename_i c batch hrepost hbatch
    cases h
    have hsub : ∀ x, s.produced ⊆ s.produced ++ [x] := fun _ => List.subset_append_left _ _
    refine
      { buffer := ?_
        sends := ?_
        flight := fun d hd => (hs.flight d hd).mono (hsub _)
        short := hs.short
        slots := fun w hw c' hc' => (hs.slots w hw c' hc').mono (hsub _)
        idle := hs.idle
        matched := ?_ }
    · rintro call ⟨⟩
      exact List.mem_append_right _ List.mem_cons_self
    · intro len hlen
      dsimp only at hlen
      split at hlen
      · rcases List.mem_append.mp hlen with hold | hnew
        · exact hs.sends len hold
        · rw [List.mem_singleton.mp hnew]
          exact RpcServer.minReply_le_handleOne ..
      · exact hs.sends len hlen
    · intro call r hr
      obtain ⟨buf, hbuf, hread⟩ := hs.matched call r hr
      exact ⟨buf, hsub _ hbuf, hread⟩
  · cases h

theorem Attributed.sendReply {s s' : System M N σ} (hs : s.Attributed)
    (h : s.sendReply = some s') : s'.Attributed := by
  unfold System.sendReply at h
  split at h
  · rename_i len rest call hsends hfor
    cases h
    have hlen : RpcServer.minReply ≤ len := hs.sends len (by simp [hsends])
    refine { hs with sends := fun l hl => hs.sends l (by simp [hsends, hl]), flight := ?_ }
    intro d hd
    rcases List.mem_append.mp hd with hold | hnew
    · exact hs.flight d hold
    · rw [List.mem_singleton.mp hnew]
      exact ⟨by simpa using hlen, s.server.sendBuf, hs.buffer call hfor, by simp⟩
  · cases h

/-- The reply that arrives belongs to the waiting call, and so does everything
    the call may read. -/
theorem Attributed.deliverReply {s s' : System M N σ} {i : Nat} (hs : s.Attributed)
    (hint : s.InTime (.deliverReply i)) (h : s.deliverReply i = some s') : s'.Attributed := by
  simp only [System.deliverReply, Option.bind_eq_bind, Option.bind_eq_some_iff] at h
  obtain ⟨d, hd, ring, harrive, hs'⟩ := h
  cases hs'
  obtain ⟨w, hwait, htag, hbatch⟩ := hint d hd
  have hans := hs.flight d (List.mem_of_getElem? hd)
  refine { hs with flight := fun d' hd' => hs.flight d' (List.mem_of_mem_eraseIdx hd'), slots := ?_ }
  intro w' hw' c hc
  have hold := hs.slots w' hw'
  obtain rfl : w = w' := Option.some.inj (hwait.symm.trans hw')
  rcases RecvRing.arrive_eq_some harrive with rfl | ⟨slot, rest, hposted, rfl⟩
  · exact hold c hc
  · by_cases hslot : c.slot = slot
    · subst hslot
      simpa [htag] using hans.write (s.caller.ring.mem c.slot)
    · simp only [Function.update_of_ne hslot]
      refine hold c ?_
      simp only [← List.append_assoc, List.mem_append, List.mem_singleton] at hc
      rcases hc with hmem | rfl
      · exact List.mem_append.mpr hmem
      · exact absurd rfl hslot

theorem Attributed.pop {s s' : System M N σ} (hs : s.Attributed) (h : s.pop = some s') :
    s'.Attributed := by
  unfold System.pop Poller.poll at h
  split at h
  · cases h
  · rename_i w hwait
    split at h
    · simp only [Option.map_map, Option.map_eq_some_iff, Function.comp_apply, Prod.exists] at h
      obtain ⟨cs, ring, hpop, rfl⟩ := h
      obtain ⟨-, -, rfl, rfl⟩ := RecvRing.popRecvCq_eq_some hpop
      refine { hs with slots := fun w' hw' c hc => ?_, idle := fun hnone => ?_ }
      · rw [List.take_append_drop] at hc
        exact hs.slots w' hw' c (List.mem_append_right _ hc)
      · rw [hwait] at hnone
        cases hnone
    · cases h

theorem Attributed.postBack [NeZero M] {s : System M N σ} {caller : Poller M Nat}
    {ans : PostAnswer} (hs : s.Attributed) (h : s.caller.postBack ans = some caller) :
    Attributed { s with caller } := by
  unfold Poller.postBack at h
  split at h
  · cases h
  · simp only [Option.map_eq_some_iff] at h
    obtain ⟨ring, hpost, rfl⟩ := h
    obtain ⟨out, -, rfl⟩ := RecvRing.postRecv_eq_some hpost
    exact { hs with }

theorem Attributed.copy {s s' : System M N σ} (hs : s.Attributed) (h : s.copy = some s') :
    s'.Attributed := by
  unfold System.copy at h
  split at h
  · rename_i w c hwait hrepost hbatch
    cases h
    obtain ⟨buf, hbuf, hread⟩ := hs.slots w hwait c (by simp [hbatch])
    refine
      { hs with
        short := fun w' hw' => by cases hw'
        slots := fun w' hw' => by cases hw'
        idle := fun _ => rfl
        matched := fun call r hr => ?_ }
    rcases List.mem_append.mp hr with hold | hnew
    · exact hs.matched call r hold
    · -- The reply type is not longer than what the slot holds of the reply.
      simp only [List.mem_singleton, Prod.mk.injEq, Option.some.injEq] at hnew
      obtain ⟨rfl, rfl⟩ := hnew
      refine ⟨buf, hbuf, ?_⟩
      rw [RecvRing.readSlot, Mem.read_length, Nat.add_zero, ← Mem.read_take (hs.short w hwait),
        hread, Mem.read_take (hs.short w hwait)]
  · cases h

theorem Attributed.timeout {s s' : System M N σ} (hs : s.Attributed)
    (h : s.timeout = some s') : s'.Attributed := by
  unfold System.timeout at h
  split at h
  · rename_i w hwait hrepost hbatch
    cases h
    refine
      { hs with
        short := fun w' hw' => by cases hw'
        slots := fun w' hw' => by cases hw'
        idle := fun _ => hbatch
        matched := fun call r hr => ?_ }
    rcases List.mem_append.mp hr with hold | hnew
    · exact hs.matched call r hold
    · simp at hnew
  · cases h

/-- The steps of the server's ring and of the requests do not concern replies. -/
theorem Attributed.congr {s s' : System M N σ} (hs : s.Attributed)
    (hwaiting : s'.waiting = s.waiting) (hcaller : s'.caller = s.caller)
    (hserver : s'.server = s.server) (hfor : s'.replyFor = s.replyFor)
    (hsends : s'.replySends = s.replySends) (hreplies : s'.replies ⊆ s.replies)
    (hproduced : s'.produced = s.produced) (hresults : s'.results = s.results) :
    s'.Attributed where
  buffer := by rw [hfor, hserver, hproduced]; exact hs.buffer
  sends := by rw [hsends]; exact hs.sends
  flight d hd := by rw [hproduced]; exact hs.flight d (hreplies hd)
  short := by rw [hwaiting]; exact hs.short
  slots := by rw [hwaiting, hcaller, hproduced]; exact hs.slots
  idle := by rw [hwaiting, hcaller]; exact hs.idle
  matched := by unfold Matched; rw [hresults, hproduced]; exact hs.matched

theorem Attributed.step [NeZero M] [NeZero N] {cfg : Config σ} {s s' : System M N σ} {e : Event}
    (hs : s.Attributed) (hint : s.InTime e) (h : s.step cfg e = some s') : s'.Attributed := by
  cases e with
  | call reqType rpcId payload replyLen sent => exact hs.call hint.1 hint.2 h
  | sendRequest =>
    simp only [System.step, sendRequest] at h
    split at h
    · cases h
    · cases h
      exact hs.congr rfl rfl rfl rfl rfl (List.Subset.refl _) rfl rfl
  | loseRequest i =>
    cases h
    exact hs.congr rfl rfl rfl rfl rfl (List.Subset.refl _) rfl rfl
  | deliverRequest i =>
    simp only [System.step, deliverRequest, Option.bind_eq_bind, Option.bind_eq_some_iff] at h
    obtain ⟨d, -, ring, -, hs'⟩ := h
    cases hs'
    exact hs.congr rfl rfl rfl rfl rfl (List.Subset.refl _) rfl rfl
  | serverPoll k =>
    simp only [System.step, Option.map_eq_some_iff] at h
    obtain ⟨listener, -, rfl⟩ := h
    exact hs.congr rfl rfl rfl rfl rfl (List.Subset.refl _) rfl rfl
  | serverRepost ans =>
    simp only [System.step, Option.map_eq_some_iff] at h
    obtain ⟨listener, -, rfl⟩ := h
    exact hs.congr rfl rfl rfl rfl rfl (List.Subset.refl _) rfl rfl
  | handle sent => exact hs.handle h
  | sendReply => exact hs.sendReply h
  | loseReply i =>
    cases h
    exact hs.congr rfl rfl rfl rfl rfl (List.eraseIdx_subset ..) rfl rfl
  | deliverReply i => exact hs.deliverReply hint h
  | pop => exact hs.pop h
  | repost ans =>
    simp only [System.step, Option.map_eq_some_iff] at h
    obtain ⟨caller, hpost, rfl⟩ := h
    exact hs.postBack hpost
  | copy => exact hs.copy h
  | timeout => exact hs.timeout h

theorem attributed_init {caller : Poller M Nat} {listener : Poller N Nat} {server : RpcServer σ}
    (hbatch : caller.batch = []) : (init caller listener server).Attributed where
  buffer call h := by cases h
  sends len h := by cases h
  flight d h := by cases h
  short w h := by cases h
  slots w h := by cases h
  idle _ := hbatch
  matched call r h := by cases h

/-- In every run of calls over the network whose steps are in time, every reply
    that a call returns was produced for the request of this call. -/
theorem replies_matched [NeZero M] [NeZero N] (cfg : Config σ) (caller : Poller M Nat)
    (listener : Poller N Nat) (server : RpcServer σ) (hbatch : caller.batch = [])
    (es : List Event) (hint : Run.Guarded (step cfg) InTime (init caller listener server) es) :
    Run.Always (step cfg) Matched (init caller listener server) es := by
  have hall := Run.always_of_guarded (I := Attributed) (fun _ _ _ hs hc h => hs.step hc h)
    (attributed_init hbatch) hint
  exact fun pre t hpre hrun => (hall pre t hpre hrun).matched

/-- A server that knows the dummy request only. -/
def Config.dummy : Config Unit where
  layout := EndPointLayout.packed
  self := default
  handlers reqType := if reqType = 0 then some RpcServer.dummyHandler else none

/-- A fresh ring of one slot. -/
def oneSlot : Poller 1 Nat := (Poller.create id 0 0 (fun _ _ => 0) .ok).get rfl

/-- A fresh caller and a fresh server with rings of one slot. -/
def fresh : System 1 1 Unit := init oneSlot oneSlot { app := (), sendBuf := fun _ => 0 }

/-- The request of the first call is served, but the call gives up before the
    reply is there; the reply arrives before the second call. -/
def lateReply : List Event :=
  [.call 0 0 [] 8 true, .sendRequest, .deliverRequest 0, .serverPoll 1, .serverRepost .ok,
    .handle true, .sendReply, .timeout, .deliverReply 0,
    .call 0 1 [] 8 true, .pop, .repost .ok, .copy]

/-- A call that returns although nothing was produced for it. -/
theorem not_matched_of_unproduced {s : System M N σ} {call : Nat} {r : List UInt8}
    (results : List (Nat × Option (List UInt8))) (calls : List Nat) (hresults : s.results = results)
    (hcalls : s.produced.map Prod.fst = calls) (hreturned : (call, some r) ∈ results)
    (hunproduced : call ∉ calls) : ¬ s.Matched := by
  intro hmatched
  rw [← hresults] at hreturned
  obtain ⟨buf, hbuf, -⟩ := hmatched call r hreturned
  rw [← hcalls] at hunproduced
  exact hunproduced (List.mem_map_of_mem hbuf)

/-- The second call returns the reply that was produced for the first; its own
    request has not even been sent. -/
theorem late_reply_answers_next_call :
    ∃ s, Run.exec (step Config.dummy) fresh lateReply = some s ∧
      s.results = [(0, none), (1, some (Word.toBytes 8 1024))] ∧
      s.produced.map Prod.fst = [0] ∧ s.requests = [] ∧ ¬ s.Matched := by
  refine ⟨_, rfl, rfl, rfl, rfl, ?_⟩
  exact not_matched_of_unproduced [(0, none), (1, some (Word.toBytes 8 1024))] [0] rfl rfl
    (List.mem_cons_of_mem _ List.mem_cons_self) (by decide)

/-- A call whose reply arrives while it waits. -/
def promptReply : List Event :=
  [.call 0 0 [] 8 true, .sendRequest, .deliverRequest 0, .serverPoll 1, .serverRepost .ok,
    .handle true, .sendReply, .deliverReply 0, .pop, .repost .ok, .copy]

theorem replies_matched_promptReply :
    Run.Guarded (step Config.dummy) InTime fresh promptReply ∧
      Run.Always (step Config.dummy) Matched fresh promptReply := by
  have hint : Run.Guarded (step Config.dummy) InTime fresh promptReply := by
    refine Run.guarded_cons_of_step rfl ⟨rfl, by decide⟩ ?_
    refine Run.guarded_cons_of_step rfl trivial (Run.guarded_cons_of_step rfl trivial ?_)
    refine Run.guarded_cons_of_step rfl trivial (Run.guarded_cons_of_step rfl trivial ?_)
    refine Run.guarded_cons_of_step rfl trivial (Run.guarded_cons_of_step rfl trivial ?_)
    refine Run.guarded_cons_of_step rfl (fun d hd => ?_) ?_
    · cases hd
      exact ⟨_, rfl, rfl, rfl⟩
    · refine Run.guarded_cons_of_step rfl trivial (Run.guarded_cons_of_step rfl trivial ?_)
      exact Run.guarded_cons_of_step rfl trivial Run.guarded_nil
  exact ⟨hint, replies_matched Config.dummy _ _ _ rfl promptReply hint⟩

end System
end Rpc
