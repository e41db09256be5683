-- SUMMARY: Request headers, RPC handlers, and what the RPC server does with one request.
import KRCore.Rpc.RecvRing
import KRCore.Verbs.Layout

/-!
# The RPC server

A request is a header followed by a payload. The server copies the header out of
the receive slot, runs the handler of its request type on the payload, which
writes into the one send buffer, and sends at least 64 bytes of that buffer
back.
-/

/-- `data::Header`. -/
structure Header where
  reqType : UInt8
  rpcId : BitVec 64
  endPoint : EndPoint
deriving DecidableEq

/-- `size_of::<Header>()`. -/
def headerSz : Nat := 72

namespace Header

/-- The request type is followed by seven bytes of padding. -/
def enc (L : EndPointLayout) (h : Header) : List UInt8 :=
  (h.reqType :: List.replicate 7 0) ++ (Word.toBytes 8 h.rpcId.toNat ++ L.enc h.endPoint)

def readAt (L : EndPointLayout) (mem : Mem) (va : Nat) : Header where
  reqType := mem va
  rpcId := BitVec.ofNat 64 (Word.ofBytes (mem.read (va + 8) 8))
  endPoint := L.readAt mem (va + 16)

theorem enc_length (L : EndPointLayout) (h : Header) : (h.enc L).length = headerSz := by
  simp [enc, L.enc_length, endPointSz, headerSz]

/-- The server reads the header that the client wrote. -/
theorem readAt_of_read {L : EndPointLayout} {mem : Mem} {va : Nat} {h : Header}
    (hread : mem.read va headerSz = h.enc L) : readAt L mem va = h := by
  have hsplit : mem.read va headerSz =
      mem.read va 8 ++ (mem.read (va + 8) 8 ++ mem.read (va + 16) endPointSz) := by
    rw [show headerSz = 8 + (8 + endPointSz) from rfl, Mem.read_add, Mem.read_add]
  rw [hsplit, enc] at hread
  obtain ⟨htype, hrest⟩ := List.append_inj hread (by simp)
  obtain ⟨hid, hpoint⟩ := List.append_inj hrest (by simp)
  have hfirst : mem va = h.reqType := by
    have := congrArg List.head? htype
    simpa [Mem.read, List.range_succ] using this
  have hword : BitVec.ofNat 64 (Word.ofBytes (mem.read (va + 8) 8)) = h.rpcId := by
    rw [hid, Word.ofBytes_toBytes_of_lt h.rpcId.isLt, BitVec.ofNat_toNat, BitVec.setWidth_eq]
  cases h
  simp only [readAt, hfirst, hword, EndPointLayout.readAt_of_read hpoint]

end Header

/-- `RpcHandlerT`: a handler works on the state of the module, reads its request
    at an address of a memory, writes its reply at the beginning of another, and
    returns a length. -/
abbrev RpcHandler (σ : Type) := σ → Mem → Nat → Mem → σ × Mem × Nat

/-- The part of an `RPCClient` that serves requests. -/
structure RpcServer (σ : Type) where
  app : σ
  sendBuf : Mem

namespace RpcServer

variable {σ : Type}

/-- The smallest datagram. -/
def minReply : Nat := 64

/-- `dummy_handler`. -/
def dummyHandler : RpcHandler σ := fun app _ _ buf =>
  (app, buf.write 0 (Word.toBytes 8 1024), 64)

/-- The body of the loop of `poll_all` for one request in a receive slot: the new
    state, the number of bytes of the send buffer that are sent back, and to
    whom. -/
def handleOne (L : EndPointLayout) (handlers : UInt8 → Option (RpcHandler σ)) (slot : Mem)
    (s : RpcServer σ) : RpcServer σ × Nat × EndPoint :=
  let header := Header.readAt L slot udHeaderSz
  match handlers header.reqType with
  | some handler =>
    let (app, sendBuf, len) := handler s.app slot (udHeaderSz + headerSz) s.sendBuf
    ({ app, sendBuf }, max minReply len, header.endPoint)
  | none => (s, minReply, header.endPoint)

theorem minReply_le_handleOne (L : EndPointLayout) (handlers : UInt8 → Option (RpcHandler σ))
    (slot : Mem) (s : RpcServer σ) : minReply ≤ (handleOne L handlers slot s).2.1 := by
  unfold handleOne
  dsimp only
  split
  · exact Nat.le_max_left _ _
  · exact le_rfl

end RpcServer
