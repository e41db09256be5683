-- SUMMARY: Memory layouts of endpoints, as parameters and as one concrete instance.
import KRCore.Base.Memory
import KRCore.Verbs.Types

/-!
# Layouts of endpoints

`EndPoint` is copied between machines as raw memory. Its layout is the
compiler's choice; all that matters is its size and that copying it loses
nothing.
-/

/-- `size_of::<EndPoint>()`. -/
def endPointSz : Nat := 56

/-- How an endpoint lies in memory. -/
structure EndPointLayout where
  enc : EndPoint → List UInt8
  dec : List UInt8 → EndPoint
  enc_length : ∀ e, (enc e).length = endPointSz
  dec_enc : ∀ e, dec (enc e) = e

namespace EndPointLayout

/-- The endpoint at an address. -/
def readAt (L : EndPointLayout) (mem : Mem) (addr : Nat) : EndPoint :=
  L.dec (mem.read addr endPointSz)

theorem readAt_of_read {L : EndPointLayout} {mem : Mem} {addr : Nat} {e : EndPoint}
    (h : mem.read addr endPointSz = L.enc e) : L.readAt mem addr = e := by
  rw [readAt, h, L.dec_enc]

end EndPointLayout

/-- The number in `n` bytes of a string from `off` on. -/
def Word.fieldAt (bs : List UInt8) (off n : Nat) : Nat := Word.ofBytes ((bs.drop off).take n)

theorem Word.fieldAt_skip {m n y off : Nat} {post : List UInt8} (h : m ≤ off) :
    Word.fieldAt (Word.toBytes m y ++ post) off n = Word.fieldAt post (off - m) n := by
  rw [fieldAt, List.drop_append, List.drop_of_length_le (by simpa using h), List.nil_append,
    toBytes_length, fieldAt]

theorem Word.fieldAt_zero {w n : Nat} {post : List UInt8} (x : BitVec w) (hw : w = 8 * n) :
    BitVec.ofNat w (Word.fieldAt (Word.toBytes n x.toNat ++ post) 0 n) = x := by
  have hlt : x.toNat < 256 ^ n := by
    have hpow : 256 ^ n = 2 ^ w := by rw [hw, Nat.pow_mul]
    rw [hpow]
    exact x.isLt
  rw [fieldAt, List.drop_zero, List.take_left' (toBytes_length n _), ofBytes_toBytes_of_lt hlt,
    BitVec.ofNat_toNat, BitVec.setWidth_eq]

/-- The fields in the order of falling alignment, with two bytes of padding. -/
def EndPointLayout.packed : EndPointLayout where
  enc e :=
    Word.toBytes 8 e.mr.addr.toNat ++ (Word.toBytes 4 e.mr.capacity.toNat ++
      (Word.toBytes 4 e.mr.rkey.toNat ++ (Word.toBytes 8 e.ah.toNat ++
        (Word.toBytes 16 e.gid.toNat ++ (Word.toBytes 4 e.qpn.toNat ++
          (Word.toBytes 4 e.qkey.toNat ++ (Word.toBytes 4 e.dctNum.toNat ++
            (Word.toBytes 2 e.lid.toNat ++ [0, 0]))))))))
  dec bs :=
    { qpn := BitVec.ofNat 32 (Word.fieldAt bs 40 4)
      qkey := BitVec.ofNat 32 (Word.fieldAt bs 44 4)
      lid := BitVec.ofNat 16 (Word.fieldAt bs 52 2)
      gid := BitVec.ofNat 128 (Word.fieldAt bs 24 16)
      dctNum := BitVec.ofNat 32 (Word.fieldAt bs 48 4)
      mr :=
        { addr := BitVec.ofNat 64 (Word.fieldAt bs 0 8)
          capacity := BitVec.ofNat 32 (Word.fieldAt bs 8 4)
          rkey := BitVec.ofNat 32 (Word.fieldAt bs 12 4) }
      ah := BitVec.ofNat 64 (Word.fieldAt bs 16 8) }
  enc_length e := by simp [endPointSz]
  dec_enc e := by
    simp [Word.fieldAt_skip, Word.fieldAt_zero]
