-- SUMMARY: The wrappers of syscall.h over ioctrl: which status the caller reads from its reply structure.
import KRCore.Base.Memory
import KRCore.VirtualQueue.Ioctl

/-!
# The status that the caller reads

Every wrapper of `syscall.h` passes the address of a reply structure, and returns
the status that stands there after the call. `ioctrl` copies the reply to the user
at its end. On the one way that leaves it earlier, that of a Connect of a queue with
an RC, nothing is copied and the status is the return value instead, which the
wrapper only compares with -1.
-/

/-- The numbers of `enum reply_status`. -/
def ReplyStatus.code : ReplyStatus → Nat
  | .err => 0
  | .ok => 1
  | .timeout => 2
  | .alreadyConnected => 3
  | .alreadyBind => 4
  | .addrError => 5
  | .nil => 6
  | .notConnected => 7
  | .notBind => 8

theorem ReplyStatus.code_lt (status : ReplyStatus) : status.code < 9 := by
  cases status <;> decide

namespace Ioctl

/-! ## The kernel side -/

/-- A `reply_t`. -/
def replyBytes (status : ReplyStatus) : List UInt8 :=
  Word.toBytes 4 status.code ++ List.replicate (replySz - 4) 0

/-- What is copied to the user, copy by copy. -/
def copyToUser (mem : Mem) (copies : List (Nat × List UInt8)) : Mem :=
  copies.foldl (fun mem copy => mem.write copy.1 copy.2) mem

def Call.isConnect : Call → Bool
  | .connect _ _ _ _ _ => true
  | _ => false

/-- The memory of the user and the return value of `ioctl`. -/
structure Returned where
  mem : Mem
  ret : Int

/-- `ioctl`, where all copies succeed. `copies` is what `handle_pop_ret` copies. -/
def ioctl (cfg : Config) (s : State) (mem : Mem) (arg replyBuf : BitVec 64) (call : Call)
    (copies : List (Nat × List UInt8)) : Option Returned := do
  let r ← ioctrl cfg s arg replyBuf call
  if call.isConnect && s.vq.isRcConnected then some { mem, ret := r.status.code }
  else
    some
      { mem := (copyToUser mem copies).write replyBuf.toNat (replyBytes r.status)
        ret := 0 }

/-! ## The user side -/

/-- The wrappers of `syscall.h`, each with its arguments and with what the kernel meets. -/
inductive Wrapper where
  | qnil
  | qconnect (addr : UserAddr) (port vid : BitVec 32) (scan : MetaScan) (ans : ConnectAnswers)
  | qregMr (size : BitVec 32)
  | qpush (p : PushReq) (ans : PushAnswers)
  | qpop (vid : BitVec 32) (ans : PopAnswers)
  | qpushRecv (pushCount : BitVec 32) (ans : PostAnswer)
  | qpopMsgs (popCount payloadSz : BitVec 32) (polls : Nat → Int) (wrIds : Nat → BitVec 64)
  | qbind (port : BitVec 32)
  | qunbind (port : BitVec 32) (ret : Int)
  | qpollRpc (rounds : List (BitVec 32 × PostAnswer))

namespace Wrapper

def call : Wrapper → Call
  | qnil => .nil
  | qconnect addr port vid scan ans => .connect addr port vid scan ans
  | qregMr size => .regMRs size
  | qpush p ans => .push p ans
  | qpop vid ans => .pop vid ans
  | qpushRecv pushCount ans => .pushRecv pushCount ans
  | qpopMsgs popCount payloadSz polls wrIds => .popMsgs popCount payloadSz polls wrIds
  | qbind port => .binds port
  | qunbind port ret => .unBinds port ret
  | qpollRpc rounds => .rpcPoll rounds

/-- The status that a wrapper puts into its reply structure before the call, if any. -/
def initial : Wrapper → Option ReplyStatus
  | qconnect _ _ _ _ _ => some .err
  | _ => none

/-- What a wrapper returns, with its reply structure at `replyBuf`. -/
def run (cfg : Config) (s : State) (mem : Mem) (arg replyBuf : BitVec 64)
    (copies : List (Nat × List UInt8)) (w : Wrapper) : Option Int := do
  let mem := w.initial.elim mem fun status =>
    mem.write replyBuf.toNat (Word.toBytes 4 status.code)
  let out ← ioctl cfg s mem arg replyBuf w.call copies
  if out.ret = -1 then some (-1)
  else some (BitVec.ofNat 32 (Word.ofBytes (out.mem.read replyBuf.toNat 4))).toInt

end Wrapper

/-! ## What the caller reads -/

theorem read_status (mem : Mem) (addr : Nat) (status : ReplyStatus) (rest : List UInt8) :
    (BitVec.ofNat 32 (Word.ofBytes
      ((mem.write addr (Word.toBytes 4 status.code ++ rest)).read addr 4))).toInt = status.code := by
  have hlt := status.code_lt
  have hread : (mem.write addr (Word.toBytes 4 status.code ++ rest)).read addr 4 =
      Word.toBytes 4 status.code := by
    rw [Mem.read_write_take (by simp), List.take_left' (Word.toBytes_length 4 _)]
  rw [hread, Word.ofBytes_toBytes_of_lt (by omega)]
  cases status <;> rfl

theorem Wrapper.initial_of_isConnect {w : Wrapper} (h : w.call.isConnect = true) :
    w.initial = some .err := by
  cases w with
  | qconnect addr port vid scan ans => rfl
  | _ => cases h

theorem status_of_connected {cfg : Config} {s : State} {arg replyBuf : BitVec 64} {call : Call}
    {r : Reply} (h : ioctrl cfg s arg replyBuf call = some r) (hconnect : call.isConnect = true)
    (hconn : s.vq.isRcConnected = true) : r.status = .alreadyConnected := by
  cases call with
  | connect addr port vid scan ans =>
    simp only [ioctrl, connect, hconn, if_true, Option.some.injEq] at h
    rw [← h]
    rfl
  | _ => cases hconnect

/-- For every wrapper, state, argument and memory of the user: if `ioctrl` returns, the caller
    reads the status that it has determined if and only if the call was not a Connect of a
    queue that already has an RC. -/
theorem caller_reads_status_iff (cfg : Config) (s : State) (mem : Mem) (arg replyBuf : BitVec 64)
    (copies : List (Nat × List UInt8)) (w : Wrapper) (r : Reply)
    (h : ioctrl cfg s arg replyBuf w.call = some r) :
    w.run cfg s mem arg replyBuf copies = some (r.status.code : Int) ↔
      ¬ (w.call.isConnect = true ∧ s.vq.isRcConnected = true) := by
  simp only [Wrapper.run, ioctl, h, Option.bind_eq_bind, Option.bind_some]
  by_cases hearly : w.call.isConnect = true ∧ s.vq.isRcConnected = true
  · -- The reply structure is left as the wrapper has prepared it.
    obtain ⟨hconnect, hconn⟩ := hearly
    have hstatus := status_of_connected h hconnect hconn
    have hread := read_status mem replyBuf.toNat .err []
    rw [List.append_nil] at hread
    rw [Wrapper.initial_of_isConnect hconnect]
    simp only [hconnect, hconn, Bool.and_self, if_true, hstatus, Option.bind_some,
      Option.elim_some, and_self, not_true_eq_false, iff_false]
    rw [if_neg (by decide), hread]
    decide
  · have hcond : (w.call.isConnect && s.vq.isRcConnected) = false := by
      rw [Bool.eq_false_iff, ne_eq, Bool.and_eq_true]
      exact hearly
    simp only [hcond, Bool.false_eq_true, if_false, Option.bind_some, hearly, not_false_eq_true,
      iff_true]
    rw [if_neg (by decide), replyBytes, read_status]

/-- A bind on a queue that was just opened. -/
theorem caller_reads_status_of_bind :
    ∃ r, ioctrl (.sample .dct) State.sample 0 64 (Wrapper.qbind 1).call = some r ∧
      r.status = .ok ∧
      (Wrapper.qbind 1).run (.sample .dct) State.sample (fun _ => 0) 0 64 [] = some 1 := by
  obtain ⟨r, hr, hok⟩ : ∃ r,
      ioctrl (.sample .dct) State.sample 0 64 (Wrapper.qbind 1).call = some r ∧ r.status = .ok :=
    ⟨_, rfl, rfl⟩
  have hread := (caller_reads_status_iff (.sample .dct) State.sample (fun _ => 0) 0 64 []
    (.qbind 1) r hr).mpr fun hand => Bool.false_ne_true hand.1
  rw [hok] at hread
  exact ⟨r, hr, hok, hread⟩

/-- A Connect of a queue that has an RC: the status is `already_connected`, and `qconnect`
    returns `err`. -/
theorem caller_reads_err_when_connected :
    ∃ (s : State) (w : Wrapper) (r : Reply), s.vq = VQ.sampleBoth ∧
      ioctrl (.sample .dct) s 0 64 w.call = some r ∧ r.status = .alreadyConnected ∧
      w.run (.sample .dct) s (fun _ => 0) 0 64 [] = some 0 :=
  ⟨{ State.sample with vq := VQ.sampleBoth },
    .qconnect UserAddr.sample 0 1 MetaScan.sample (ConnectReq.sample 'a' 7 .notCreated).ans,
    _, rfl, rfl, rfl, rfl⟩

end Ioctl
