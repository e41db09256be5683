-- SUMMARY: The records that the kernel module exchanges with the verbs layer and with its peers.
import Mathlib.Data.Nat.Basic

/-!
# Records of the verbs layer

Gids, memory regions, endpoints and path records. Fixed-width fields are bit
vectors; a pointer is its 64-bit value, with zero for null.
-/

/-- The 16 raw bytes of an `ib_gid`. -/
abbrev Gid := BitVec 128

/-- A remote memory region. -/
structure TempMR where
  addr : BitVec 64
  capacity : BitVec 32
  rkey : BitVec 32
deriving DecidableEq, Repr, Inhabited

/-- What is needed to reach a peer's UD queue and its DC target. -/
structure EndPoint where
  qpn : BitVec 32
  qkey : BitVec 32
  lid : BitVec 16
  gid : Gid
  dctNum : BitVec 32
  mr : TempMR
  ah : BitVec 64
deriving DecidableEq, Repr, Inhabited

namespace EndPoint

/-- `EndPoint::new`: the same peer, with the address handle that `create_ib_ah`
    answered. -/
def new (e : EndPoint) (ah : BitVec 64) : EndPoint := { e with ah }

/-- `EndPoint::self_clone`: the same peer without an address handle. -/
def selfClone (e : EndPoint) : EndPoint := { e with ah := 0 }

@[simp] theorem selfClone_new (e : EndPoint) (ah : BitVec 64) :
    (e.new ah).selfClone = e.selfClone := rfl

@[simp] theorem selfClone_selfClone (e : EndPoint) : e.selfClone.selfClone = e.selfClone := rfl

@[simp] theorem selfClone_gid (e : EndPoint) : e.selfClone.gid = e.gid := rfl

end EndPoint

/-- The part of an endpoint that the DC metadata cache keeps. -/
structure DCTargetMeta where
  dctNum : BitVec 32
  lid : BitVec 16
  gid : Gid
  mr : TempMR
deriving DecidableEq, Repr, Inhabited

/-- The fields of a path record that a query fixes, and the destination lid that
    the subnet administrator answers. -/
structure SaPathRec where
  dgid : Gid
  sgid : Gid
  serviceId : Nat
  dlid : BitVec 16
deriving DecidableEq, Repr, Inhabited

/-- `enum reply_status`. -/
inductive ReplyStatus where
  | err
  | ok
  | timeout
  | alreadyConnected
  | alreadyBind
  | addrError
  | nil
  | notConnected
  | notBind
deriving DecidableEq, Repr
