-- SUMMARY: When the RPC client never writes into its send buffer while a send from it is outstanding.
import KRCore.Base.PollWait
import KRCore.Rpc.Call

/-!
# The send buffer

Calls and replies of an RPC client are sent from one buffer. `UDOp::send` posts a send and
waits for a completion with `wait_one_cq`, which gives up after 1001 polls or at the first
poll that fails, and takes any completion it finds for that of the send. Either way the
result is an ok, and nobody looks at it: the next request is written into the buffer.
-/

namespace Rpc.SendBuffer

open PollWait (Device Poll)

/-- The polls of `wait_one_cq`. -/
def waitPolls : Nat := 1001

/-- What `ib_post_send` answers to a send, and how the polls go that wait for it. -/
structure SendAnswer where
  errno : Int
  polls : Nat → Poll

/-- An RPC client with its send buffer and its send queue. The sends are numbered. `writes` has
    for every write to the buffer the sends that were outstanding then, and `returned` for
    every ok of `UDOp::send` the send and the completion that came with it, or none. -/
structure State (σ : Type) where
  server : RpcServer σ
  device : Device Nat
  sends : Nat
  writes : List (List Nat)
  returned : List (Nat × Option Nat)

inductive Event where
  /-- The oldest outstanding send completes. -/
  | complete
  /-- `call`, up to its waiting loop. -/
  | call (reqType : UInt8) (rpcId : BitVec 64) (payload : List UInt8) (ans : SendAnswer)
  /-- `poll_all` serves the request in a receive slot. -/
  | serve (slot : Mem) (ans : SendAnswer)

namespace State

variable {σ : Type}

def start (server : RpcServer σ) : State σ where
  server
  device := .idle
  sends := 0
  writes := []
  returned := []

/-- The buffer is written. -/
def write (s : State σ) (server : RpcServer σ) : State σ :=
  { s with server, writes := s.writes ++ [s.device.pending] }

/-- `UDOp::send`. -/
def send (s : State σ) (ans : SendAnswer) : State σ :=
  if ans.errno ≠ 0 then s
  else
    let (wc, device) := PollWait.waitOne ans.polls waitPolls 0 (s.device.post s.sends)
    { s with device, sends := s.sends + 1, returned := s.returned ++ [(s.sends, wc)] }

/-- `call`: the header and the payload are copied into the buffer. -/
def call (cfg : Config σ) (s : State σ) (reqType : UInt8) (rpcId : BitVec 64)
    (payload : List UInt8) : State σ :=
  let header : Header := { reqType, rpcId, endPoint := cfg.self.selfClone }
  s.write { s.server with
    sendBuf := s.server.sendBuf.write 0 (header.enc cfg.layout ++ payload) }

/-- The handler of a request writes into the buffer. Without a handler nothing is written. -/
def serve (cfg : Config σ) (s : State σ) (slot : Mem) : State σ :=
  match cfg.handlers (Header.readAt cfg.layout slot udHeaderSz).reqType with
  | some _ => s.write (RpcServer.handleOne cfg.layout cfg.handlers slot s.server).1
  | none => s

def step (cfg : Config σ) (s : State σ) : Event → Option (State σ)
  | .complete =>
    if s.device.pending = [] then none else some { s with device := s.device.complete 1 }
  | .call reqType rpcId payload ans => some ((s.call cfg reqType rpcId payload).send ans)
  | .serve slot ans => some ((s.serve cfg slot).send ans)

end State

/-! ## What should hold -/

/-- Every ok of `UDOp::send` came with the completion of its send. -/
def Own {σ : Type} (s : State σ) : Prop := ∀ p ∈ s.returned, p.2 = some p.1

/-- At no write to the buffer was a send outstanding. -/
def Unshared {σ : Type} (s : State σ) : Prop := ∀ outstanding ∈ s.writes, outstanding = []

/-- A send that is posted completes before one of the 1001 polls, and none fails before. -/
def Event.InTime : Event → Prop
  | .complete => True
  | .call _ _ _ ans => ans.errno ≠ 0 ∨ PollWait.InTime ans.polls waitPolls 0
  | .serve _ ans => ans.errno ≠ 0 ∨ PollWait.InTime ans.polls waitPolls 0

/-! ## The steps -/

section Step

variable {σ : Type} {cfg : Config σ} {s : State σ}

theorem own_concat {s : State σ} {l : List (Nat × Option Nat)} {p : Nat × Option Nat}
    (hs : Own s) (hl : s.returned = l ++ [p]) : p.2 = some p.1 :=
  hs p (hl ▸ List.mem_append_right l List.mem_cons_self)

/-- A send on an idle queue returns its own completion exactly if that is in time. -/
theorem send_own_iff (hidle : s.device = .idle) (hown : Own s) (ans : SendAnswer) :
    Own (s.send ans) ↔ ans.errno ≠ 0 ∨ PollWait.InTime ans.polls waitPolls 0 := by
  unfold State.send
  by_cases herr : ans.errno ≠ 0
  · rw [if_pos herr]
    exact iff_of_true hown (.inl herr)
  · rw [if_neg herr, hidle, or_iff_right herr, ← PollWait.waitOne_eq_some_iff s.sends]
    constructor
    · intro h
      exact own_concat h rfl
    · intro h p hp
      rcases List.mem_append.mp hp with hp | hp
      · exact hown p hp
      · rw [List.mem_singleton.mp hp]
        exact h

/-- And then the queue is idle again. -/
theorem send_idle (hidle : s.device = .idle) {ans : SendAnswer} (h : Own (s.send ans))
    (hown : Own s) : (s.send ans).device = .idle := by
  have hcond := (send_own_iff hidle hown ans).mp h
  unfold State.send
  by_cases herr : ans.errno ≠ 0
  · rw [if_pos herr]
    exact hidle
  · rw [if_neg herr, hidle, PollWait.waitOne_of_inTime s.sends (hcond.resolve_left herr)]

@[simp] theorem send_writes (ans : SendAnswer) : (s.send ans).writes = s.writes := by
  unfold State.send
  split <;> rfl

theorem write_unshared {s : State σ} (hidle : s.device = .idle) (h : Unshared s)
    (server : RpcServer σ) : Unshared (s.write server) := by
  intro outstanding hmem
  rcases List.mem_append.mp hmem with hmem | hmem
  · exact h outstanding hmem
  · rw [List.mem_singleton.mp hmem, hidle]
    rfl

/-- To serve a request writes at most, and does not touch the send queue. -/
theorem serve_eq (slot : Mem) :
    s.serve cfg slot = s ∨ ∃ server, s.serve cfg slot = s.write server := by
  unfold State.serve
  split
  · exact .inr ⟨_, rfl⟩
  · exact .inl rfl

/-- What a step on an idle queue does: nothing completes; a send may follow a write. -/
theorem step_cases {ev : Event} {s' : State σ} (hidle : s.device = .idle)
    (h : s.step cfg ev = some s') :
    ∃ s₁ ans, (s₁ = s ∨ ∃ server, s₁ = s.write server) ∧ s' = s₁.send ans ∧
      (ev.InTime ↔ ans.errno ≠ 0 ∨ PollWait.InTime ans.polls waitPolls 0) := by
  cases ev with
  | complete =>
    rw [State.step, hidle] at h
    cases h
  | call reqType rpcId payload ans =>
    cases h
    exact ⟨_, ans, .inr ⟨_, rfl⟩, rfl, Iff.rfl⟩
  | serve slot ans =>
    cases h
    exact ⟨_, ans, serve_eq slot, rfl, Iff.rfl⟩

end Step

/-- On an idle queue. -/
structure Idle {σ : Type} (s : State σ) : Prop where
  device : s.device = .idle
  unshared : Unshared s

section Run

variable {σ : Type} {cfg : Config σ} {s s' : State σ} {ev : Event}

theorem step_own_iff (h : Idle s) (hown : Own s) (hstep : s.step cfg ev = some s') :
    Own s' ↔ ev.InTime := by
  obtain ⟨s₁, ans, hs₁, rfl, hin⟩ := step_cases h.device hstep
  rw [hin]
  rcases hs₁ with rfl | ⟨server, rfl⟩
  · exact send_own_iff h.device hown ans
  · exact send_own_iff (s := s.write server) h.device hown ans

theorem step_unshared (h : Idle s) (hstep : s.step cfg ev = some s') : Unshared s' := by
  obtain ⟨s₁, ans, hs₁, rfl, -⟩ := step_cases h.device hstep
  rw [Unshared, send_writes]
  rcases hs₁ with rfl | ⟨server, rfl⟩
  · exact h.unshared
  · exact write_unshared h.device h.unshared server

theorem step_idle (h : Idle s) (hown : Own s) (hstep : s.step cfg ev = some s') (hown' : Own s') :
    Idle s' := by
  refine ⟨?_, step_unshared h hstep⟩
  obtain ⟨s₁, ans, hs₁, rfl, -⟩ := step_cases h.device hstep
  rcases hs₁ with rfl | ⟨server, rfl⟩
  · exact send_idle h.device hown' hown
  · exact send_idle (s := s.write server) h.device hown' hown

end Run

theorem idle_start {σ : Type} (server : RpcServer σ) : Idle (State.start server) :=
  ⟨rfl, fun _ h => absurd h List.not_mem_nil⟩

theorem own_start {σ : Type} (server : RpcServer σ) : Own (State.start server) :=
  fun _ h => absurd h List.not_mem_nil

/-- For every sequence of calls and of requests served, and all delays of the completions: every
    ok of `UDOp::send` comes with the completion of its own send if and only if every send
    that is posted completes before one of the 1001 polls of its wait and none of these
    fails before. The buffer is then never written while a send from it is outstanding. -/
theorem send_buffer_iff {σ : Type} (cfg : Config σ) (server : RpcServer σ) (evs : List Event) :
    (Run.Always (State.step cfg) Own (.start server) evs ↔
      Run.Guarded (State.step cfg) (fun _ ev => ev.InTime) (.start server) evs) ∧
    (Run.Always (State.step cfg) (fun s => Own s ∧ Unshared s) (.start server) evs ↔
      Run.Guarded (State.step cfg) (fun _ ev => ev.InTime) (.start server) evs) := by
  constructor
  · exact Run.always_iff_guarded (I := fun s => Idle s ∧ Own s)
      (fun s ev s' h hstep hown => ⟨step_idle h.1 h.2 hstep hown, hown⟩)
      (fun s ev s' h _ hstep => step_own_iff h.1 h.2 hstep)
      ⟨idle_start server, own_start server⟩ (own_start server) evs
  · refine Run.always_iff_guarded (I := fun s => Idle s ∧ Own s)
      (fun s ev s' h hstep hown => ⟨step_idle h.1 h.2 hstep hown.1, hown.1⟩)
      (fun s ev s' h _ hstep => ?_) ⟨idle_start server, own_start server⟩
      ⟨own_start server, (idle_start server).unshared⟩ evs
    rw [and_iff_left (step_unshared h.1 hstep)]
    exact step_own_iff h.1 h.2 hstep

/-- A client that answers every request. -/
def sampleConfig : Config Unit where
  layout := .packed
  self := default
  handlers _ := some RpcServer.dummyHandler

/-- A client that has not sent anything. -/
def State.sample : State Unit := .start { app := (), sendBuf := fun _ => 0 }

/-- Nothing completes during the first wait, and the second one finds the completion of the
    first send: both return ok, and the second reply is written while the first one is still
    to be sent. -/
theorem send_buffer_overwritten :
    ∃ s, Run.exec (State.step sampleConfig) .sample
        [.serve (fun _ => 0) ⟨0, fun _ => ⟨0, false⟩⟩,
          .serve (fun _ => 0) ⟨0, fun _ => ⟨1, false⟩⟩] = some s ∧
      s.writes = [[], [0]] ∧ s.returned = [(0, none), (1, some 0)] := by
  have hfirst := PollWait.waitOne_of_silent waitPolls 0 [0]
  refine ⟨_, rfl, ?_, ?_⟩
  · simp [State.send, State.serve, State.write, sampleConfig, State.sample, State.start,
      Device.post, Device.idle, hfirst]
  · simp [State.send, State.serve, State.write, sampleConfig, State.sample, State.start,
      Device.post, Device.idle, hfirst]
    rfl

end Rpc.SendBuffer
