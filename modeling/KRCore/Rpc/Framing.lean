-- SUMMARY: End-to-end framing of RPCs: what the polling loop makes of a batch of messages that calls have written.
import KRCore.Rpc.Call
import KRCore.Verbs.AddressHandle
import KRCore.VirtualQueue.WorkRequest

/-!
# Framing

`RPCClient::call` writes a header and a payload into its send buffer and sends both.
`RPCClient::poll_all` finds them behind the UD header in a receive slot, runs the
handler of the request type on the payload, and sends the reply to the endpoint in
the header, for which it creates an address handle. Here a slot may lie anywhere in
memory, and every request may come from another caller.
-/

namespace Rpc

/-! ## The message of a call -/

/-- A call of the client with endpoint `self`. Header and payload fit into a slot. -/
structure Request where
  self : EndPoint
  reqType : UInt8
  rpcId : BitVec 64
  payload : List UInt8
  fits : headerSz + payload.length ≤ rpcSlotSz - udHeaderSz

namespace Request

def header (q : Request) : Header where
  reqType := q.reqType
  rpcId := q.rpcId
  endPoint := q.self.selfClone

/-- What `call` sends, with `sendBuf` in the send buffer before. -/
def message (q : Request) (L : EndPointLayout) (sendBuf : Mem) : List UInt8 :=
  (sendBuf.write 0 (q.header.enc L ++ q.payload)).read 0 (max 64 (headerSz + q.payload.length))

/-- A header is longer than the smallest datagram, so the message has no other bytes. -/
theorem message_eq (q : Request) (L : EndPointLayout) (sendBuf : Mem) :
    q.message L sendBuf = q.header.enc L ++ q.payload := by
  have hlen : max 64 (headerSz + q.payload.length) = (q.header.enc L ++ q.payload).length := by
    rw [List.length_append, Header.enc_length]
    exact Nat.max_eq_right (Nat.le_add_right_of_le (by decide))
  rw [message, hlen, Mem.read_write_self]

/-- The message fits into a slot behind the UD header. -/
theorem message_length_le (q : Request) (L : EndPointLayout) (sendBuf : Mem) :
    udHeaderSz + (q.message L sendBuf).length ≤ rpcSlotSz := by
  rw [message_eq, List.length_append, Header.enc_length]
  have hfits := q.fits
  simp only [rpcSlotSz, udHeaderSz] at hfits ⊢
  omega

end Request

/-- A call whose send is posted puts its message on the network. -/
theorem System.call_sends {M N : Nat} {σ : Type} {cfg : Config σ} {s s₁ s₂ : System M N σ}
    {q : Request} {replyLen : Nat} (hself : cfg.self = q.self) (hidle : s.requestSends = [])
    (hcall : s.call cfg q.reqType q.rpcId q.payload replyLen true = some s₁)
    (hsend : s₁.sendRequest = some s₂) :
    s₂.requests = s.requests ++ [⟨s.calls, q.message cfg.layout s.requestBuf⟩] := by
  unfold System.call at hcall
  split at hcall
  · cases hcall
  · cases hcall
    simp only [System.sendRequest, hidle, if_true, List.nil_append, Option.some.injEq] at hsend
    rw [← hsend, hself]
    rfl

/-! ## The polling loop -/

/-- A completion of a batch: its `wr_id`, the memory when it is processed, and what
    `rdma_create_ah` answers then. -/
structure Received where
  mem : Mem
  wrId : Nat
  res : BitVec 64

structure ServeConfig (σ : Type) where
  layout : EndPointLayout
  handlers : UInt8 → Option (RpcHandler σ)
  sendAddr : Nat
  lkey : BitVec 32
  /-- Handlers return a `u32`. -/
  returns_lt : ∀ t f, handlers t = some f → ∀ app mem va buf, (f app mem va buf).2.2 < 2 ^ 32

/-- What has been done with a completion: the header that was read, the handler that was
    run and on which address, what it returned, and the send request for the reply with
    the place where its address handle leads. -/
structure Served (σ : Type) where
  header : Header
  handler : Option (RpcHandler σ)
  payloadVa : Nat
  returned : Option Nat
  wr : UdWr
  av : Option AddressVector

structure Serving (σ : Type) where
  server : RpcServer σ
  ahs : Ahs
  served : List (Served σ)

section Serve

variable {σ : Type}

def invoke (handler : Option (RpcHandler σ)) (mem : Mem) (va : Nat) (s : RpcServer σ) :
    RpcServer σ × Option Nat :=
  match handler with
  | some f =>
    let (app, sendBuf, len) := f s.app mem va s.sendBuf
    ({ app, sendBuf }, some len)
  | none => (s, none)

/-- The length of a reply. -/
def replyLen : Option Nat → Nat
  | some len => max RpcServer.minReply len
  | none => RpcServer.minReply

/-- The body of the loop of `poll_all`. The address handle for the reply is destroyed when
    the endpoint goes out of scope. -/
def serve (cfg : ServeConfig σ) (s : Serving σ) (r : Received) : Option (Serving σ) := do
  let va := r.wrId + udHeaderSz
  let header := Header.readAt cfg.layout r.mem va
  let payloadVa := headerSz + va
  let handler := cfg.handlers header.reqType
  let (server, returned) := invoke handler r.mem payloadVa s.server
  let (remote, ahs) ← header.endPoint.bindPd s.ahs r.res
  let wr := UDOp.send cfg.sendAddr cfg.lkey remote (replyLen returned)
  let out : Served σ := { header, handler, payloadVa, returned, wr, av := ahs remote.ah }
  let ahs ← remote.drop ahs
  some { server, ahs, served := s.served ++ [out] }

/-- In a slot at address 0 this is what the server of the RPC system does. -/
theorem handleOne_eq_invoke (L : EndPointLayout) (handlers : UInt8 → Option (RpcHandler σ))
    (slot : Mem) (s : RpcServer σ) :
    RpcServer.handleOne L handlers slot s =
      let header := Header.readAt L slot udHeaderSz
      let out := invoke (handlers header.reqType) slot (udHeaderSz + headerSz) s
      (out.1, replyLen out.2, header.endPoint) := by
  simp only [RpcServer.handleOne, invoke]
  cases handlers (Header.readAt L slot udHeaderSz).reqType with
  | none => rfl
  | some f => rfl

/-! ## One request -/

/-- The message of the request is in the slot behind the UD header, and the address handle
    for the reply is created. -/
structure Delivered (L : EndPointLayout) (ahs : Ahs) (q : Request) (r : Received) : Prop where
  message : ∃ sendBuf, r.mem.read (r.wrId + udHeaderSz) (q.message L sendBuf).length =
    q.message L sendBuf
  created : ptrIsErr r.res = false
  fresh : ahs.Fresh r.res

/-- The request has been answered as its caller meant it: its handler, if there is one, has
    been run once on its payload, and has taken the server from `s` to `s'`. -/
structure Answered (cfg : ServeConfig σ) (s : RpcServer σ) (q : Request) (r : Received)
    (out : Served σ) (s' : RpcServer σ) : Prop where
  header : out.header = q.header
  handler : out.handler = cfg.handlers q.reqType
  unregistered : out.handler = none → out.returned = none ∧ s' = s
  invoked : ∀ f, out.handler = some f → ∃ len, out.returned = some len ∧
    f s.app r.mem out.payloadVa s.sendBuf = (s'.app, s'.sendBuf, len)
  payload : r.mem.read out.payloadVa q.payload.length = q.payload
  opcode : out.wr.opcode = .send
  buffer : out.wr.sge.addr = cfg.sendAddr
  minimum : 64 ≤ out.wr.sge.length
  whole : ∀ len ∈ out.returned, len ≤ out.wr.sge.length
  qpn : out.wr.remoteQpn = q.self.qpn
  qkey : out.wr.remoteQkey = q.self.qkey
  av : out.av = some { lid := q.self.lid, gid := q.self.gid }

variable {cfg : ServeConfig σ} {q : Request} {r : Received}

/-- The header and the payload are found where the loop looks for them. -/
theorem Delivered.read {L : EndPointLayout} {ahs : Ahs} (h : Delivered L ahs q r) :
    Header.readAt L r.mem (r.wrId + udHeaderSz) = q.header ∧
      r.mem.read (headerSz + (r.wrId + udHeaderSz)) q.payload.length = q.payload := by
  obtain ⟨sendBuf, hmsg⟩ := h.message
  rw [q.message_eq, List.length_append, Header.enc_length, Mem.read_add] at hmsg
  obtain ⟨hheader, hpayload⟩ := List.append_inj hmsg (by simp [Header.enc_length])
  rw [Nat.add_comm headerSz]
  exact ⟨Header.readAt_of_read hheader, hpayload⟩

/-- A message that finds a posted slot of a receive ring is delivered there. -/
theorem arrive_delivers {N : Nat} {τ : Type} {ring : RecvRing N τ} {slot : Fin N}
    {rest : List (Fin N)} (hposted : ring.posted = slot :: rest) {L : EndPointLayout} {ahs : Ahs}
    (q : Request) (sendBuf : Mem) (tag : τ) {res : BitVec 64} (hres : ptrIsErr res = false)
    (hfresh : ahs.Fresh res) :
    ∃ ring', ring.arrive ⟨tag, q.message L sendBuf⟩ = some ring' ∧
      Delivered L ahs q { mem := ring'.mem slot, wrId := 0, res } := by
  unfold RecvRing.arrive
  rw [if_pos (q.message_length_le L sendBuf), hposted]
  refine ⟨_, rfl, ⟨sendBuf, ?_⟩, hres, hfresh⟩
  simp only [Function.update_self, Nat.zero_add]
  exact Mem.read_write_self _ _ _

/-- The handler of the request, run on its payload. -/
def Request.invoke (cfg : ServeConfig σ) (q : Request) (r : Received) (s : RpcServer σ) :
    RpcServer σ × Option Nat :=
  Rpc.invoke (cfg.handlers q.reqType) r.mem (headerSz + (r.wrId + udHeaderSz)) s

/-- What becomes of the request: its own header, handler and payload, and a reply to its
    caller. -/
def Request.served (cfg : ServeConfig σ) (q : Request) (r : Received) (s : RpcServer σ) :
    Served σ where
  header := q.header
  handler := cfg.handlers q.reqType
  payloadVa := headerSz + (r.wrId + udHeaderSz)
  returned := (q.invoke cfg r s).2
  wr := UDOp.send cfg.sendAddr cfg.lkey (q.self.new r.res) (replyLen (q.invoke cfg r s).2)
  av := some { lid := q.self.lid, gid := q.self.gid }

end Serve

/-! ## A sample batch -/

def ServeConfig.sample : ServeConfig Unit where
  layout := EndPointLayout.packed
  handlers t := if t = 0 then some RpcServer.dummyHandler else none
  sendAddr := 0
  lkey := 0
  returns_lt t f hf app mem va buf := by
    split at hf
    · cases hf
      exact (by decide : (64 : Nat) < 2 ^ 32)
    · cases hf

/-- A request of the type `t` with three bytes of payload. -/
def Request.sample (t : UInt8) (qpn : BitVec 32) : Request where
  self := { (default : EndPoint) with qpn }
  reqType := t
  rpcId := 1024
  payload := [1, 2, 3]
  fits := by decide

/-- The message of the request in a slot at `wrId`. -/
def Received.sample (q : Request) (wrId : Nat) : Received where
  mem := Mem.write (fun _ => 0) (wrId + udHeaderSz) (q.message EndPointLayout.packed fun _ => 0)
  wrId := wrId
  res := 1

end Rpc
