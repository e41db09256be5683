-- SUMMARY: `query_dct_meta` over the buffer of the queue, with every outcome of its two READs, and when it believes a READ that failed.
import Mathlib.Data.Nat.Find
import KRCore.Rpc.MetaImage
import KRCore.VirtualQueue.Ioctl

/-!
# Reading the metadata over RDMA

`query_dct_meta` READs the number of entries and then the entries into the data
buffer of the queue. It drops what the two READs return and goes on with whatever
is in the buffer then. `failed_reads_not_believed_iff` says for which outcomes of
the READs it still returns an endpoint only if both were successful.
-/

namespace MetaRead

/-! ## The two READs -/

/-- How a READ ends. -/
inductive ReadKind where
  | rejected
  | timeout
  | failed
  | success
deriving DecidableEq, Repr

/-- How a READ ends, and what it has put into the buffer: nothing if `post_send` refuses it,
    any bytes if there is no completion in time or one with an error. -/
inductive ReadOutcome where
  | rejected (errno : Int)
  | timeout (landed : List UInt8)
  | failed (landed : List UInt8)
  | success
deriving DecidableEq, Repr

namespace ReadOutcome

def kind : ReadOutcome → ReadKind
  | .rejected _ => .rejected
  | .timeout _ => .timeout
  | .failed _ => .failed
  | .success => .success

theorem eq_success {o : ReadOutcome} (h : o.kind = .success) : o = .success := by
  cases o with
  | success => rfl
  | _ => cases h

/-- What the caller sees of it: `pop` returns a completion whatever its status is. -/
def answer : ReadOutcome → Ioctl.ReadAnswer
  | .rejected errno => { errno, comp := false }
  | .timeout _ => { errno := 0, comp := false }
  | .failed _ => { errno := 0, comp := true }
  | .success => { errno := 0, comp := true }

/-- The local memory after a READ of `len` bytes. -/
def land (outcome : ReadOutcome) (remote mem : Mem) (localPa remotePa len : Nat) : Mem :=
  match outcome with
  | .rejected _ => mem
  | .timeout landed => mem.write localPa (landed.take len)
  | .failed landed => mem.write localPa (landed.take len)
  | .success => mem.write localPa (remote.read remotePa len)

end ReadOutcome

/-- A READ that ends in this way before anything has arrived. -/
def ReadKind.bare : ReadKind → ReadOutcome
  | .rejected => .rejected (-12)
  | .timeout => .timeout []
  | .failed => .failed []
  | .success => .success

@[simp] theorem ReadKind.kind_bare (k : ReadKind) : k.bare.kind = k := by
  cases k <;> rfl

theorem ReadKind.bare_land {k : ReadKind} (hk : k ≠ .success) (remote mem : Mem)
    (localPa remotePa len : Nat) : k.bare.land remote mem localPa remotePa len = mem := by
  cases k with
  | success => exact absurd rfl hk
  | rejected => rfl
  | timeout => simp [bare, ReadOutcome.land, Mem.write_nil]
  | failed => simp [bare, ReadOutcome.land, Mem.write_nil]

theorem ReadKind.bare_land_zero (k : ReadKind) (remote mem : Mem) (localPa remotePa : Nat) :
    k.bare.land remote mem localPa remotePa 0 = mem := by
  cases k with
  | rejected => rfl
  | timeout => exact Mem.write_nil mem localPa
  | failed => exact Mem.write_nil mem localPa
  | success => exact Mem.write_nil mem localPa

/-! ## The query -/

/-- What a query works with: the address of the image (`META_KV_PA`) and the data buffer of
    the queue, which both lie in the address space. -/
structure QueryCfg where
  layout : EndPointLayout
  strToGid : List Char → Option Gid
  kvPa : Nat
  localPa : Nat
  paToVa : Nat → Nat
  kv_fits : kvPa + globalMemSz ≤ 2 ^ 64
  local_fits : localPa + maxKmallocSz ≤ 2 ^ 64
  va_fits : paToVa (localPa + 8) + maxKmallocSz ≤ 2 ^ 64

namespace QueryCfg

/-- Entry number `i` of the list in the buffer. -/
def entry (q : QueryCfg) (mem : Mem) (i : Nat) : EndPoint :=
  q.layout.readAt mem (q.localPa + 8 + i * endPointSz)

/-- The loop over the next `n` entries, from number `i` on. -/
def scan (q : QueryCfg) (mem : Mem) (gid : Gid) : Nat → Nat → Option (Option EndPoint)
  | 0, _ => some none
  | n + 1, i => do
    let _ ← Word.checkedAdd 64 (q.paToVa (q.localPa + 8)) (i * endPointSz)
    let point := q.entry mem i
    if point.gid = gid then some (some point.selfClone) else q.scan mem gid n (i + 1)

/-- `*(local_va as *mut u64)`. -/
def entriesNum (q : QueryCfg) (mem : Mem) : Nat := Word.ofBytes (mem.read q.localPa 8)

/-- The buffer after the first READ. -/
def afterHead (q : QueryCfg) (remote mem : Mem) (head : ReadOutcome) : Mem :=
  head.land remote mem q.localPa q.kvPa 8

/-- The buffer after the second READ. The length of a work request has 32 bits. -/
def afterList (q : QueryCfg) (remote mem : Mem) (list : ReadOutcome) : Mem :=
  list.land remote mem (q.localPa + 8) (q.kvPa + 8)
    (q.entriesNum mem * endPointSz % 2 ^ 32)

/-- The buffer that the loop looks at. -/
def buffer (q : QueryCfg) (remote mem : Mem) (head list : ReadOutcome) : Mem :=
  q.afterList remote (q.afterHead remote mem head) list

/-- `VQ::query_dct_meta`: the inner option is what it returns, `none` outside is a panic. -/
def queryDctMeta (q : QueryCfg) (remote mem : Mem) (text : List Char) (head list : ReadOutcome) :
    Option (Option EndPoint) := do
  let entriesNum := q.entriesNum (q.afterHead remote mem head)
  let _ ← Word.checkedAdd 64 q.kvPa 8
  let _ ← Word.checkedAdd 64 q.localPa 8
  let _ ← Word.checkedMul 64 entriesNum endPointSz
  let gid ← q.strToGid text
  q.scan (q.buffer remote mem head list) gid entriesNum 0

/-- No address before the loop overflows. -/
theorem queryDctMeta_eq {q : QueryCfg} {text : List Char} {gid : Gid}
    (htext : q.strToGid text = some gid) (remote mem : Mem) (head list : ReadOutcome) :
    q.queryDctMeta remote mem text head list =
      if q.entriesNum (q.afterHead remote mem head) * endPointSz < 2 ^ 64 then
        q.scan (q.buffer remote mem head list) gid (q.entriesNum (q.afterHead remote mem head)) 0
      else none := by
  have hkv := q.kv_fits
  have hlocal := q.local_fits
  simp only [globalMemSz, maxKmallocSz] at hkv hlocal
  have hremoteBase : Word.checkedAdd 64 q.kvPa 8 = some (q.kvPa + 8) :=
    Word.checkedAdd_eq_some.mpr ⟨by omega, rfl⟩
  have hlocalBase : Word.checkedAdd 64 q.localPa 8 = some (q.localPa + 8) :=
    Word.checkedAdd_eq_some.mpr ⟨by omega, rfl⟩
  simp only [queryDctMeta, hremoteBase, hlocalBase, htext, Option.bind_eq_bind, Option.bind_some,
    Word.checkedMul]
  split
  · rw [Option.bind_some]
  · rw [Option.bind_none]

theorem scan_succ (q : QueryCfg) (mem : Mem) (gid : Gid) (n i : Nat) :
    q.scan mem gid (n + 1) i =
      if q.paToVa (q.localPa + 8) + i * endPointSz < 2 ^ 64 then
        if (q.entry mem i).gid = gid then some (some (q.entry mem i).selfClone)
        else q.scan mem gid n (i + 1)
      else none := by
  rw [scan, Word.checkedAdd, Option.bind_eq_bind]
  split
  · rw [Option.bind_some]
  · rw [Option.bind_none]

/-- The loop when none of the entries has the gid. The last address decides. -/
theorem scan_miss {q : QueryCfg} {mem : Mem} {gid : Gid} {n i : Nat}
    (hmiss : ∀ j < n, (q.entry mem (i + j)).gid ≠ gid) :
    q.scan mem gid n i =
      if n = 0 ∨ q.paToVa (q.localPa + 8) + (i + n - 1) * endPointSz < 2 ^ 64 then some none
      else none := by
  induction n generalizing i with
  | zero => rw [if_pos (.inl rfl), scan]
  | succ n ih =>
    have hrest : ∀ j < n, (q.entry mem (i + 1 + j)).gid ≠ gid := by
      intro j hj
      rw [Nat.add_assoc, Nat.add_comm 1]
      exact hmiss (j + 1) (by omega)
    rw [scan_succ, if_neg (show (q.entry mem i).gid ≠ gid from hmiss 0 (Nat.zero_lt_succ n)),
      ih hrest]
    rcases Nat.lt_or_ge (q.paToVa (q.localPa + 8) + i * endPointSz) (2 ^ 64) with hi | hi
    · rw [if_pos hi]
      exact if_congr (by simp only [endPointSz] at hi ⊢; omega) rfl rfl
    · rw [if_neg (Nat.not_lt.mpr hi), if_neg (by simp only [endPointSz] at hi ⊢; omega)]

/-- The loop up to the first entry with the gid. -/
theorem scan_hit {q : QueryCfg} {mem : Mem} {gid : Gid} {n i k : Nat} (hk : k < n)
    (hmiss : ∀ j < k, (q.entry mem (i + j)).gid ≠ gid) (hhit : (q.entry mem (i + k)).gid = gid) :
    q.scan mem gid n i =
      if q.paToVa (q.localPa + 8) + (i + k) * endPointSz < 2 ^ 64 then
        some (some (q.entry mem (i + k)).selfClone)
      else none := by
  induction k generalizing n i with
  | zero =>
    obtain ⟨n, rfl⟩ := Nat.exists_eq_succ_of_ne_zero (Nat.ne_of_gt hk)
    simp only [Nat.add_zero] at hhit ⊢
    rw [scan_succ, if_pos hhit]
  | succ k ih =>
    obtain ⟨n, rfl⟩ := Nat.exists_eq_succ_of_ne_zero (Nat.ne_of_gt (Nat.zero_lt_of_lt hk))
    have hrest : ∀ j < k, (q.entry mem (i + 1 + j)).gid ≠ gid := by
      intro j hj
      rw [Nat.add_assoc, Nat.add_comm 1]
      exact hmiss (j + 1) (by omega)
    rw [← Nat.add_assoc, Nat.add_right_comm] at hhit ⊢
    rw [scan_succ, if_neg (show (q.entry mem i).gid ≠ gid from hmiss 0 (Nat.zero_lt_succ k)),
      ih (Nat.lt_of_succ_lt_succ hk) hrest hhit]
    rcases Nat.lt_or_ge (q.paToVa (q.localPa + 8) + i * endPointSz) (2 ^ 64) with hi | hi
    · rw [if_pos hi]
    · rw [if_neg (Nat.not_lt.mpr hi), if_neg (by simp only [endPointSz] at hi ⊢; omega)]

end QueryCfg

/-! ## The query inside a Connect -/

/-- A scan of the ioctl interface meets what this query meets. -/
structure Describes (scan : Ioctl.MetaScan) (q : QueryCfg) (remote mem : Mem) (gid : Gid)
    (head list : ReadOutcome) : Prop where
  kvPa_eq : scan.kvPa.toNat = q.kvPa
  head_eq : scan.head = head.answer
  list_eq : scan.list = list.answer
  entriesNum_eq : scan.entriesNum.toNat = q.entriesNum (q.afterHead remote mem head)
  found : ∀ i p, scan.found = some (i, p) →
    p = (q.entry (q.buffer remote mem head list) i).selfClone ∧
    (q.entry (q.buffer remote mem head list) i).gid = gid ∧
    ∀ j < i.val, (q.entry (q.buffer remote mem head list) j).gid ≠ gid
  missed : scan.found = none → ∀ j < scan.entriesNum.toNat,
    (q.entry (q.buffer remote mem head list) j).gid ≠ gid

/-- A Connect runs this query: it gets to its result in the same cases, with the same
    endpoint. -/
theorem Describes.queryDctMeta_eq {scan : Ioctl.MetaScan} {q : QueryCfg} {remote mem : Mem}
    {text : List Char} {gid : Gid} {head list : ReadOutcome} {cfg : Ioctl.Config} {vq : VQ}
    {server : EndPoint} {d : Nat} (h : Describes scan q remote mem gid head list)
    (htext : q.strToGid text = some gid) (hpa : cfg.paToVa = q.paToVa)
    (hmr : vq.localCache.localMr.addr.toNat = q.localPa) (hserver : scan.metaPoint = some server)
    (hdc : vq.localDc = some d) :
    q.queryDctMeta remote mem text head list =
      (scan.run cfg vq).map fun _ => scan.found.map Prod.snd := by
  have hkv := q.kv_fits
  have hlocal := q.local_fits
  simp only [globalMemSz, maxKmallocSz] at hkv hlocal
  have hremoteBase : Word.checkedAdd 64 q.kvPa 8 = some (q.kvPa + 8) :=
    Word.checkedAdd_eq_some.mpr ⟨by omega, rfl⟩
  have hlocalBase : Word.checkedAdd 64 q.localPa 8 = some (q.localPa + 8) :=
    Word.checkedAdd_eq_some.mpr ⟨by omega, rfl⟩
  rw [QueryCfg.queryDctMeta_eq htext, ← h.entriesNum_eq]
  simp only [Ioctl.MetaScan.run, hserver, hdc, hmr, h.kvPa_eq, hpa, hremoteBase, hlocalBase,
    Option.bind_eq_bind, Option.bind_some]
  rcases Nat.lt_or_ge (scan.entriesNum.toNat * endPointSz) (2 ^ 64) with hlen | hlen
  · rw [if_pos hlen, if_neg (Nat.not_le.mpr hlen)]
    cases hfound : scan.found with
    | some hit =>
      obtain ⟨i, p⟩ := hit
      obtain ⟨rfl, hgid, hbefore⟩ := h.found i p hfound
      have hlooked : scan.looked = i + 1 := by simp [Ioctl.MetaScan.looked, hfound]
      rw [QueryCfg.scan_hit (i := 0) i.isLt (by simpa using hbefore) (by simpa using hgid),
        hlooked, if_neg (Nat.succ_ne_zero i), Nat.add_sub_cancel, Nat.zero_add, Word.checkedAdd]
      split <;> simp
    | none =>
      have hlooked : scan.looked = scan.entriesNum.toNat := by simp [Ioctl.MetaScan.looked, hfound]
      rw [QueryCfg.scan_miss (i := 0) (by simpa using h.missed hfound), hlooked, Nat.zero_add,
        Word.checkedAdd]
      by_cases hzero : scan.entriesNum.toNat = 0
      · simp [hzero]
      · simp only [hzero, false_or, if_false]
        split <;> simp
  · rw [if_neg (Nat.not_lt.mpr hlen), if_pos hlen]
    rfl

/-- Every query is met by some Connect. -/
theorem exists_describes (q : QueryCfg) (remote mem : Mem) (gid : Gid) (head list : ReadOutcome)
    (server : EndPoint) :
    ∃ scan, Describes scan q remote mem gid head list ∧ scan.metaPoint = some server := by
  have hkv := q.kv_fits
  simp only [globalMemSz] at hkv
  have hkvPa : (BitVec.ofNat 64 q.kvPa).toNat = q.kvPa := Nat.mod_eq_of_lt (by omega)
  have hnum : (BitVec.ofNat 64 (q.entriesNum (q.afterHead remote mem head))).toNat =
      q.entriesNum (q.afterHead remote mem head) := by
    refine Nat.mod_eq_of_lt ?_
    have hlt := Word.ofBytes_lt ((q.afterHead remote mem head).read q.localPa 8)
    rw [Mem.read_length] at hlt
    exact Nat.lt_of_lt_of_eq hlt (by decide)
  generalize BitVec.ofNat 64 (q.entriesNum (q.afterHead remote mem head)) = num at hnum
  by_cases hex : ∃ i, i < num.toNat ∧ (q.entry (q.buffer remote mem head list) i).gid = gid
  · -- The loop stops at the first of them.
    have hfirst := Nat.find_spec hex
    refine ⟨⟨some server, .ofNat 64 q.kvPa, head.answer, num, list.answer,
      some (⟨Nat.find hex, hfirst.1⟩, (q.entry (q.buffer remote mem head list)
        (Nat.find hex)).selfClone)⟩, ⟨hkvPa, rfl, rfl, hnum, ?_, nofun⟩, rfl⟩
    rintro i p hfound
    cases hfound
    refine ⟨rfl, hfirst.2, fun j hj hgid => Nat.find_min hex hj ⟨?_, hgid⟩⟩
    exact Nat.lt_trans hj hfirst.1
  · push Not at hex
    exact ⟨⟨some server, .ofNat 64 q.kvPa, head.answer, num, list.answer, none⟩,
      ⟨hkvPa, rfl, rfl, hnum, nofun, fun _ => hex⟩, rfl⟩

namespace QueryCfg

/-- The number of entries in the image. -/
def imageCount (q : QueryCfg) (remote : Mem) : Nat := Word.ofBytes (remote.read q.kvPa 8)

theorem entriesNum_afterHead_success (q : QueryCfg) (remote mem : Mem) :
    q.entriesNum (q.afterHead remote mem .success) = q.imageCount remote := by
  rw [entriesNum, afterHead, ReadOutcome.land, Mem.read_write_take (by simp),
    List.take_of_length_le (by simp), imageCount]

/-- A match in the first entry is returned at once. -/
theorem queryDctMeta_first {q : QueryCfg} {remote mem : Mem} {text : List Char} {gid : Gid}
    {head list : ReadOutcome} (htext : q.strToGid text = some gid)
    (hpos : 0 < q.entriesNum (q.afterHead remote mem head))
    (hlen : q.entriesNum (q.afterHead remote mem head) * endPointSz < 2 ^ 64)
    (hfirst : (q.entry (q.buffer remote mem head list) 0).gid = gid) :
    q.queryDctMeta remote mem text head list =
      some (some (q.entry (q.buffer remote mem head list) 0).selfClone) := by
  have hva := q.va_fits
  simp only [maxKmallocSz] at hva
  rw [queryDctMeta_eq htext, if_pos hlen, scan_hit (i := 0) (k := 0) hpos (by simp) hfirst,
    if_pos (by omega)]

/-! ## What an earlier use leaves in the buffer -/

/-- A buffer with an entry behind some number of entries. -/
def staleEntry (q : QueryCfg) (count : Nat) (point : EndPoint) : Mem :=
  (Mem.write (fun _ => 0) q.localPa (Word.toBytes 8 count)).write (q.localPa + 8)
    (q.layout.enc point)

/-- A buffer with an entry for the gid. -/
def stale (q : QueryCfg) (count : Nat) (gid : Gid) : Mem :=
  q.staleEntry count { (default : EndPoint) with gid }

theorem entriesNum_stale (q : QueryCfg) {count : Nat} (point : EndPoint) (h : count < 256 ^ 8) :
    q.entriesNum (q.staleEntry count point) = count := by
  rw [entriesNum, staleEntry, Mem.read_write_of_disjoint (.inl (Nat.le_refl _)),
    Mem.read_write_take (by simp), List.take_of_length_le (by simp), Word.ofBytes_toBytes_of_lt h]

theorem entry_stale (q : QueryCfg) (count : Nat) (point : EndPoint) :
    q.entry (q.staleEntry count point) 0 = point := by
  have hsz := q.layout.enc_length point
  have hread : (q.staleEntry count point).read (q.localPa + 8 + 0 * endPointSz) endPointSz =
      q.layout.enc point := by
    rw [Nat.zero_mul, Nat.add_zero, staleEntry, Mem.read_write_take hsz.ge,
      List.take_of_length_le hsz.le]
  rw [entry, EndPointLayout.readAt_of_read hread]

/-- The first READ only reaches the number of entries. -/
theorem entry_afterHead (q : QueryCfg) (remote mem : Mem) (i : Nat) :
    q.entry (q.afterHead remote mem .success) i = q.entry mem i := by
  rw [entry, entry, EndPointLayout.readAt, EndPointLayout.readAt, afterHead, ReadOutcome.land,
    Mem.read_write_of_disjoint (.inr (by simp))]

/-- After a first READ that brought nothing, the buffer decides how much the second one is
    to bring, and `2 ^ 29` entries make its length zero. So any endpoint with the gid can be
    returned. -/
theorem exists_believed_of_head {q : QueryCfg} {text : List Char} {k₁ : ReadKind}
    (point : EndPoint) (htext : q.strToGid text = some point.gid) (hk : k₁ ≠ .success)
    (remote : Mem) (k₂ : ReadKind) :
    ∃ mem, q.queryDctMeta remote mem text k₁.bare k₂.bare = some (some point.selfClone) := by
  have hhead : q.afterHead remote (q.staleEntry (2 ^ 29) point) k₁.bare =
      q.staleEntry (2 ^ 29) point := ReadKind.bare_land hk _ _ _ _ _
  have hnum : q.entriesNum (q.staleEntry (2 ^ 29) point) = 2 ^ 29 :=
    entriesNum_stale q point (by decide)
  have hlist : q.afterList remote (q.staleEntry (2 ^ 29) point) k₂.bare =
      q.staleEntry (2 ^ 29) point := by
    rw [afterList, hnum]
    exact ReadKind.bare_land_zero _ _ _ _ _
  have hentry : q.entry (q.buffer remote (q.staleEntry (2 ^ 29) point) k₁.bare k₂.bare) 0 =
      point := by
    rw [buffer, hhead, hlist, entry_stale]
  refine ⟨q.staleEntry (2 ^ 29) point, ?_⟩
  rw [queryDctMeta_first htext, hentry]
  · rw [hhead, hnum]
    decide
  · rw [hhead, hnum]
    decide
  · rw [hentry]

/-- If only the second READ failed, the entries are those that were in the buffer. -/
theorem exists_believed_of_list {q : QueryCfg} {remote : Mem} {text : List Char} {k₂ : ReadKind}
    (point : EndPoint) (htext : q.strToGid text = some point.gid) (hk : k₂ ≠ .success)
    (hpos : 0 < q.imageCount remote)
    (hlen : q.imageCount remote * endPointSz < 2 ^ 64) :
    ∃ mem, q.queryDctMeta remote mem text .success k₂.bare = some (some point.selfClone) := by
  have hlist : ∀ mem, q.afterList remote mem k₂.bare = mem := fun mem =>
    ReadKind.bare_land hk _ _ _ _ _
  have hentry : q.entry (q.buffer remote (q.staleEntry 0 point) .success k₂.bare) 0 = point := by
    rw [buffer, hlist, entry_afterHead, entry_stale]
  refine ⟨q.staleEntry 0 point, ?_⟩
  rw [queryDctMeta_first htext, hentry]
  · rw [entriesNum_afterHead_success]
    exact hpos
  · rw [entriesNum_afterHead_success]
    exact hlen
  · rw [hentry]

/-- An endpoint that no contents of the buffer can bring: then both READs were successful. -/
theorem kinds_success_of_forall_ne {q : QueryCfg} {remote : Mem} {text : List Char}
    {k₁ k₂ : ReadKind} (point : EndPoint) (htext : q.strToGid text = some point.gid)
    (hpos : 0 < q.imageCount remote) (hlen : q.imageCount remote * endPointSz < 2 ^ 64)
    (hnot : ∀ mem, q.queryDctMeta remote mem text k₁.bare k₂.bare ≠ some (some point.selfClone)) :
    k₁ = .success ∧ k₂ = .success := by
  have hk₁ : k₁ = .success := by
    by_contra hk₁
    obtain ⟨mem, hquery⟩ := exists_believed_of_head point htext hk₁ remote k₂
    exact hnot mem hquery
  subst hk₁
  refine ⟨rfl, ?_⟩
  by_contra hk₂
  obtain ⟨mem, hquery⟩ := exists_believed_of_list point htext hk₂ hpos hlen
  exact hnot mem hquery

end QueryCfg

/-! ## Failed READs -/

/-- A query that returns an endpoint only if both READs were successful, so that Connect
    otherwise takes the endpoint that SIDR gives. -/
structure NotBelieved (q : QueryCfg) (remote mem : Mem) (text : List Char)
    (head list : ReadOutcome) : Prop where
  query : ∀ point, q.queryDctMeta remote mem text head list = some (some point) →
    head.kind = .success ∧ list.kind = .success
  connect : ∀ feat m vq addr port dgid (ans : ConnectAnswers) found vq' point, feat.metaKv = true →
    q.queryDctMeta remote mem text head list = some found →
    ¬ (head.kind = .success ∧ list.kind = .success) →
    VQ.fetchEndpoint feat m vq addr port dgid { ans with metaQuery := found } =
      some (.ok point, vq') →
    ans.sidr = .ok point

/-- Connect asks SIDR when the query finds nothing. -/
theorem fetchEndpoint_sidr {feat : Features} {m : Machine} {vq vq' : VQ} {addr : Address}
    {port : Nat} {dgid : Gid} {ans : ConnectAnswers} {point : EndPoint}
    (h : VQ.fetchEndpoint feat m vq addr port dgid { ans with metaQuery := none } =
      some (.ok point, vq')) : ans.sidr = .ok point := by
  simp only [VQ.fetchEndpoint, ite_self] at h
  split at h
  · cases h
  · split at h
    · exact congrArg Prod.fst (Option.some.inj h)
    · cases h

theorem notBelieved_of_query {q : QueryCfg} {remote mem : Mem} {text : List Char}
    {head list : ReadOutcome}
    (h : ∀ point, q.queryDctMeta remote mem text head list = some (some point) →
      head.kind = .success ∧ list.kind = .success) :
    NotBelieved q remote mem text head list where
  query := h
  connect feat m vq addr port dgid ans found vq' point _ hfound hnot hfetch := by
    cases found with
    | some p => exact absurd (h p hfound) hnot
    | none => exact fetchEndpoint_sidr hfetch

/-- For every image and every way in which the two READs end: whatever was in the buffer and
    whatever part of a READ has arrived, the query returns an endpoint only if both were
    successful, if and only if the first one was and the second one either was, too, or had
    nothing to bring (or so much that the length overflows). -/
theorem failed_reads_not_believed_iff (q : QueryCfg) (remote : Mem) (text : List Char) (gid : Gid)
    (htext : q.strToGid text = some gid) (k₁ k₂ : ReadKind) :
    (∀ mem head list, head.kind = k₁ → list.kind = k₂ →
        NotBelieved q remote mem text head list) ↔
      k₁ = .success ∧ (k₂ = .success ∨ q.imageCount remote = 0 ∨
        2 ^ 64 ≤ q.imageCount remote * endPointSz) := by
  constructor
  · intro h
    have hquery : ∀ mem point,
        q.queryDctMeta remote mem text k₁.bare k₂.bare = some (some point) →
        k₁ = .success ∧ k₂ = .success := by
      intro mem point hp
      simpa using (h mem k₁.bare k₂.bare k₁.kind_bare k₂.kind_bare).query point hp
    by_cases hk₁ : k₁ = .success
    · refine ⟨hk₁, ?_⟩
      subst hk₁
      by_contra hcon
      push Not at hcon
      obtain ⟨hk₂, hne, hlt⟩ := hcon
      obtain ⟨mem, hp⟩ := QueryCfg.exists_believed_of_list
        { (default : EndPoint) with gid } htext hk₂ (Nat.pos_of_ne_zero hne) hlt
      exact hk₂ (hquery mem _ hp).2
    · obtain ⟨mem, hp⟩ := QueryCfg.exists_believed_of_head { (default : EndPoint) with gid }
        htext hk₁ remote k₂
      exact absurd (hquery mem _ hp).1 hk₁
  · rintro ⟨rfl, hcases⟩ mem head list hhead hlist
    refine notBelieved_of_query fun point hp => ?_
    obtain rfl := ReadOutcome.eq_success hhead
    rw [QueryCfg.queryDctMeta_eq htext, QueryCfg.entriesNum_afterHead_success] at hp
    rcases hcases with rfl | hzero | hover
    · exact ⟨rfl, hlist⟩
    · rw [hzero, QueryCfg.scan] at hp
      simp at hp
    · rw [if_neg (Nat.not_lt.mpr hover)] at hp
      cases hp

/-- The queue's buffer is at address 4096 and the image at address 0. -/
def QueryCfg.sample : QueryCfg where
  layout := EndPointLayout.packed
  strToGid text := some (BitVec.ofNat 128 text.length)
  kvPa := 0
  localPa := globalMemSz
  paToVa := id
  kv_fits := by decide
  local_fits := by decide
  va_fits := by decide

/-- The image of a registry with one endpoint, whose gid is 1. -/
def sampleImage : Mem :=
  writeImage EndPointLayout.packed 0 [{ (default : EndPoint) with gid := 1 }] fun _ => 0

/-- With both READs successful the entry of the image is found, and nothing of the buffer is
    believed. -/
theorem both_reads_succeed :
    QueryCfg.sample.strToGid ['0'] = some 1 ∧
      QueryCfg.sample.queryDctMeta sampleImage (QueryCfg.sample.stale 1 2) ['0'] .success .success =
        some (some { (default : EndPoint) with gid := 1 }) ∧
      ∀ mem head list, head.kind = .success → list.kind = .success →
        NotBelieved QueryCfg.sample sampleImage mem ['0'] head list :=
  ⟨rfl, by decide +kernel, (failed_reads_not_believed_iff QueryCfg.sample sampleImage ['0'] 1 rfl
    .success .success).mpr ⟨rfl, .inl rfl⟩⟩

/-- Both READs are rejected, and an endpoint that lies in the buffer is returned. -/
theorem rejected_reads_believed :
    QueryCfg.sample.queryDctMeta (fun _ => 0) (QueryCfg.sample.stale 1 1) ['0'] (.rejected (-12))
      (.rejected (-12)) = some (some { (default : EndPoint) with gid := 1 }) := by
  decide +kernel

end MetaRead
