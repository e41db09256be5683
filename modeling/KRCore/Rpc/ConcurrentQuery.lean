-- SUMMARY: The one-sided query of the metadata images while registrations rewrite them, and when it finds a registered gid.
import KRCore.Base.Overwrite
import KRCore.Rpc.MetaImage

/-!
# Queries and registrations at the same time

`query_dct_meta` reads an image with two READs, first the number of the entries and then
that many entries. Meanwhile the metadata server may handle requests. A registration
rewrites the image in place, one `memcpy` for each entry in the order of the map and one
for the number, in one region after the other. A READ and a `memcpy` are one step each;
the handlers run one after the other.

`lookups_survive_iff` says for every history and all requests that are handled during
the query when each interleaving finds the gid: no registration may move its entry to
a later place.
-/

namespace ConcurrentQuery

open Overwrite MetaImage

/-! ## The reader -/

section Reader

variable (cfg : MetaConfig) (i : Fin 12)

/-- Entry `k` of region `i`. -/
def cell (mem : Mem) (k : Nat) : EndPoint :=
  cfg.layout.readAt mem (cfg.memPa i + 8 + k * endPointSz)

/-- What the first READ of `query_dct_meta` brings. -/
def entriesNum (mem : Mem) : Nat := Word.ofBytes (mem.read (cfg.memPa i) 8)

/-- The second READ of `query_dct_meta`, with the loop over what it brings. -/
def scan (gid : Gid) (mem : Mem) (n : Nat) : Option EndPoint :=
  (List.range n).findSome? fun k =>
    let point := cell cfg i mem k
    if point.gid = gid then some point.selfClone else none

theorem queryDctMeta_eq_scan (gid : Gid) (mem : Mem) :
    queryDctMeta cfg.layout mem (cfg.memPa i) gid = scan cfg i gid mem (entriesNum cfg i mem) := rfl

variable {cfg i} {gid : Gid} {mem : Mem} {n j : Nat}

theorem scan_eq_none (h : ∀ k < n, (cell cfg i mem k).gid ≠ gid) : scan cfg i gid mem n = none := by
  rw [scan, List.findSome?_eq_none_iff]
  intro k hk
  simp [h k (List.mem_range.mp hk)]

theorem scan_of_firstAt (h : FirstAt (fun e => e.gid = gid) (cell cfg i mem) j) (hj : j < n) :
    scan cfg i gid mem n = some (cell cfg i mem j).selfClone := by
  induction n with
  | zero => cases hj
  | succ n ih =>
    rw [scan, List.range_succ, List.findSome?_append]
    by_cases hlt : j < n
    · rw [← scan, ih hlt]
      rfl
    · have heq : j = n := by omega
      subst heq
      rw [← scan, scan_eq_none h.before]
      simp [h.holds]

end Reader

/-! ## The writer -/

/-- The loops of `reg_dc_meta_handler`: the entries in the order of the map, the regions
    that are still to be written, and the number of entries that the first of them has
    got. -/
structure RegLoop where
  es : List EndPoint
  regions : List (Fin 12)
  idx : Nat

namespace RegLoop

/-- The next `memcpy`. -/
def memcpy (cfg : MetaConfig) (l : RegLoop) (mem : Mem) : Option (Mem × RegLoop) :=
  match l.regions with
  | [] => none
  | r :: rs =>
    match l.es[l.idx]? with
    | some e =>
      some (mem.write (cfg.memPa r + 8 + l.idx * endPointSz) (cfg.layout.enc e.selfClone),
        { l with idx := l.idx + 1 })
    | none =>
      some (mem.write (cfg.memPa r) (Word.toBytes 8 l.es.length),
        { l with regions := rs, idx := 0 })

/-- The memory after all that the loops have still to do. -/
def finish (cfg : MetaConfig) (l : RegLoop) (mem : Mem) : Mem :=
  match l.regions with
  | [] => mem
  | r :: rs =>
    writeImages cfg l.es rs
      ((writeEntries cfg.layout (cfg.memPa r) l.idx (l.es.drop l.idx) mem).write (cfg.memPa r)
        (Word.toBytes 8 l.es.length))

theorem finish_zero (cfg : MetaConfig) (es : List EndPoint) (regions : List (Fin 12)) (mem : Mem) :
    finish cfg { es, regions, idx := 0 } mem = writeImages cfg es regions mem := by
  cases regions with
  | nil => rfl
  | cons r rs => rfl

/-- A `memcpy` is a part of what is to be done. -/
theorem memcpy_finish {cfg : MetaConfig} {l l' : RegLoop} {mem mem' : Mem}
    (h : l.memcpy cfg mem = some (mem', l')) : l'.finish cfg mem' = l.finish cfg mem := by
  obtain ⟨es, regions, idx⟩ := l
  cases regions with
  | nil => cases h
  | cons r rs =>
    simp only [memcpy] at h
    cases he : es[idx]? with
    | some e =>
      obtain ⟨hlt, rfl⟩ := List.getElem?_eq_some_iff.mp he
      rw [he] at h
      cases h
      simp only [finish]
      rw [List.drop_eq_getElem_cons hlt]
      rfl
    | none =>
      rw [he] at h
      cases h
      rw [finish_zero, finish, List.drop_of_length_le (List.getElem?_eq_none_iff.mp he)]
      rfl

end RegLoop

/-- The metadata server with the requests that it will handle and those whose handlers have
    begun, and the query with what its READs have brought. -/
structure State where
  server : MetaServer
  queue : List Mem
  handled : List Mem
  loop : RegLoop
  count : Option Nat
  found : Option (Option EndPoint)

inductive Event where
  /-- A handler begins. All but that of a registration are over at once. -/
  | handle
  | memcpy
  | readNum
  | readEntries

/-- The entries that a registration writes. -/
def newEntries (cfg : MetaConfig) (s : MetaServer) (gid : Gid) (point : EndPoint) :
    List EndPoint :=
  (cfg.order s.registrations (s.info.insert (cfg.gidToStr gid) point.selfClone)).map Sigma.snd

namespace State

variable (cfg : MetaConfig)

/-- The part of a handler before its loops. -/
def enter (s : State) (slot : Mem) (queue : List Mem) : State :=
  match MetaReq.decode cfg.layout slot with
  | .register gid port point =>
    { s with
      server := { s.server.apply cfg (.register gid port point) with mem := s.server.mem }
      queue
      handled := s.handled ++ [slot]
      loop :=
        { es := newEntries cfg s.server gid point, regions := List.finRange 12, idx := 0 } }
  | req =>
    { s with server := s.server.apply cfg req, queue, handled := s.handled ++ [slot] }

def handle (s : State) : Option State :=
  match s.loop.regions, s.queue with
  | [], slot :: queue => some (s.enter cfg slot queue)
  | _, _ => none

def memcpy (s : State) : Option State :=
  (s.loop.memcpy cfg s.server.mem).map fun out =>
    { s with server := { s.server with mem := out.1 }, loop := out.2 }

def readNum (i : Fin 12) (s : State) : Option State :=
  match s.count with
  | none => some { s with count := some (entriesNum cfg i s.server.mem) }
  | some _ => none

def readEntries (i : Fin 12) (gid : Gid) (s : State) : Option State :=
  match s.count, s.found with
  | some n, none => some { s with found := some (scan cfg i gid s.server.mem n) }
  | _, _ => none

def step (i : Fin 12) (gid : Gid) (s : State) : Event → Option State
  | .handle => s.handle cfg
  | .memcpy => s.memcpy cfg
  | .readNum => s.readNum cfg i
  | .readEntries => s.readEntries cfg i gid

/-- No handler is running, and the query has not begun. -/
def idle (es : List EndPoint) (before during : List Mem) : State where
  server := (MetaServer.boot.serveAll cfg before).app
  queue := during
  handled := before
  loop := { es, regions := [], idx := 0 }
  count := none
  found := none

/-- The state when the handlers are done. -/
def settled (s : State) : MetaServer :=
  { s.server with mem := s.loop.finish cfg s.server.mem }

end State

/-! ## The handlers one after the other -/

section Sequential

variable {cfg : MetaConfig}

theorem exec_eq_serveAll (s : RpcServer MetaServer) (slots : List Mem) :
    Run.exec (MetaImage.step cfg) s slots = some (s.serveAll cfg slots) := by
  induction slots generalizing s with
  | nil => rfl
  | cons slot slots ih => exact ih _

theorem serveAll_concat_app (s : RpcServer MetaServer) (slots : List Mem) (slot : Mem) :
    (s.serveAll cfg (slots ++ [slot])).app =
      (s.serveAll cfg slots).app.apply cfg (MetaReq.decode cfg.layout slot) := by
  rw [RpcServer.serveAll_concat, handleOne_meta]

/-- One of the requests has registered the endpoint for the gid. -/
def RegisteredFor (cfg : MetaConfig) (gid : Gid) (slots : List Mem) (p : EndPoint) : Prop :=
  ∃ slot ∈ slots, ∃ port point,
    MetaReq.decode cfg.layout slot = .register gid port point ∧ p = point.selfClone

theorem RegisteredFor.append {gid : Gid} {slots : List Mem} {p : EndPoint}
    (h : RegisteredFor cfg gid slots p) (slots' : List Mem) :
    RegisteredFor cfg gid (slots ++ slots') p := by
  obtain ⟨slot, hslot, hreq⟩ := h
  exact ⟨slot, List.mem_append_left slots' hslot, hreq⟩

theorem RegisteredFor.selfClone {gid : Gid} {slots : List Mem} {p : EndPoint}
    (h : RegisteredFor cfg gid slots p) : p.selfClone = p := by
  obtain ⟨slot, hslot, port, point, hreq, rfl⟩ := h
  rfl

/-- The regions hold the registry `snap`, which fits into them, and the map is a part of it.
    Its endpoints have been registered under their own gids. -/
structure Recorded (cfg : MetaConfig) (slots : List Mem) (s : MetaServer) (snap : MetaInfo) :
    Prop where
  holds : Holds cfg s.mem snap
  keyed : Keyed cfg snap
  part : ∀ key p, s.info.get key = some p → snap.get key = some p
  fits : 8 + snap.entries.length * endPointSz ≤ globalMemSz
  known : ∀ key p, snap.get key = some p → RegisteredFor cfg p.gid slots p

theorem Recorded.published {slots : List Mem} {s : MetaServer} {snap : MetaInfo}
    (h : Recorded cfg slots s snap) : Published cfg s := ⟨snap, h.holds, h.keyed, h.part⟩

theorem Recorded.register {slots : List Mem} {s : MetaServer} {snap : MetaInfo}
    (h : Recorded cfg slots s snap) {slot : Mem} {gid : Gid} {port : Nat} {point : EndPoint}
    (hreq : MetaReq.decode cfg.layout slot = .register gid port point) (hgid : point.gid = gid)
    (hfit : 8 + (s.register cfg gid point).info.entries.length * endPointSz ≤ globalMemSz) :
    Recorded cfg (slots ++ [slot]) (s.register cfg gid point) (s.register cfg gid point).info := by
  obtain ⟨hholds, hkeyed⟩ := h.published.register hgid hfit
  refine ⟨hholds, hkeyed, fun _ _ hp => hp, hfit, fun key p hp => ?_⟩
  by_cases hkey : key = cfg.gidToStr gid
  · subst hkey
    rw [MetaServer.register, MetaInfo.get_insert_self] at hp
    cases hp
    refine ⟨slot, by simp, port, point, ?_, rfl⟩
    rw [hreq, EndPoint.selfClone_gid, hgid]
  · rw [MetaServer.register, MetaInfo.get_insert_of_ne _ hkey] at hp
    exact (h.known key p (h.part key p hp)).append [slot]

theorem Recorded.apply {slots : List Mem} {s : RpcServer MetaServer} {snap : MetaInfo}
    (h : Recorded cfg slots s.app snap) {slot : Mem} (hadm : Admissible cfg s slot) :
    ∃ snap', Recorded cfg (slots ++ [slot]) (s.app.apply cfg (MetaReq.decode cfg.layout slot))
      snap' := by
  have hknown : ∀ key p, snap.get key = some p → RegisteredFor cfg p.gid (slots ++ [slot]) p :=
    fun key p hp => (h.known key p hp).append [slot]
  unfold Admissible at hadm
  cases hreq : MetaReq.decode cfg.layout slot with
  | register gid port point =>
    rw [hreq] at hadm
    exact ⟨_, h.register hreq hadm.1 hadm.2⟩
  | deregister gid =>
    refine ⟨snap, h.holds, h.keyed, fun key p hp => h.part key p ?_, h.fits, hknown⟩
    by_cases hkey : key = cfg.gidToStr gid
    · subst hkey
      rw [MetaServer.apply, MetaServer.deregister, MetaInfo.get_erase_self] at hp
      cases hp
    · rwa [MetaServer.apply, MetaServer.deregister, MetaInfo.get_erase_of_ne hkey] at hp
  | dummy | query | unknown => exact ⟨snap, h.holds, h.keyed, h.part, h.fits, hknown⟩

/-- After any admissible requests. -/
theorem recorded_serveAll {slots : List Mem}
    (hadm : Run.Guarded (MetaImage.step cfg) (Admissible cfg) MetaServer.boot slots) :
    ∃ snap, Recorded cfg slots (MetaServer.boot.serveAll cfg slots).app snap := by
  induction slots using List.reverseRecOn with
  | nil =>
    refine ⟨_, holds_boot, keyed_boot, fun _ _ hp => hp, by decide, fun key p hp => ?_⟩
    cases hp
  | append_singleton slots slot ih =>
    obtain ⟨snap, h⟩ := ih (hadm.of_prefix (List.prefix_append slots [slot]))
    rw [serveAll_concat_app]
    exact h.apply (hadm slots slot _ _ List.prefix_rfl (exec_eq_serveAll _ _) rfl)

end Sequential

/-! ## What a step does -/

namespace State

variable {cfg : MetaConfig} {s s' : State}

theorem handle_eq_some (h : s.handle cfg = some s') :
    ∃ slot queue, s.loop.regions = [] ∧ s.queue = slot :: queue ∧ s' = s.enter cfg slot queue := by
  unfold handle at h
  split at h
  · rename_i slot queue hregions hqueue
    cases h
    exact ⟨slot, queue, hregions, hqueue, rfl⟩
  · cases h

/-- The memory and the loops after a `memcpy`. -/
def withMem (s : State) (mem : Mem) (loop : RegLoop) : State :=
  { s with server := { s.server with mem }, loop }

/-- The two kinds of `memcpy`. -/
inductive Copied (cfg : MetaConfig) (s : State) : State → Prop
  | entry (r : Fin 12) (rs : List (Fin 12)) (e : EndPoint) (hregions : s.loop.regions = r :: rs)
      (he : s.loop.es[s.loop.idx]? = some e) :
      Copied cfg s (s.withMem
        (s.server.mem.write (cfg.memPa r + 8 + s.loop.idx * endPointSz)
          (cfg.layout.enc e.selfClone))
        { s.loop with idx := s.loop.idx + 1 })
  | num (r : Fin 12) (rs : List (Fin 12)) (hregions : s.loop.regions = r :: rs)
      (he : s.loop.es.length ≤ s.loop.idx) :
      Copied cfg s (s.withMem
        (s.server.mem.write (cfg.memPa r) (Word.toBytes 8 s.loop.es.length))
        { s.loop with regions := rs, idx := 0 })

theorem memcpy_copied (h : s.memcpy cfg = some s') : Copied cfg s s' := by
  obtain ⟨out, hout, rfl⟩ := Option.map_eq_some_iff.mp h
  obtain ⟨server, queue, handled, ⟨es, regions, idx⟩, count, found⟩ := s
  cases regions with
  | nil => cases hout
  | cons r rs =>
    simp only [RegLoop.memcpy] at hout
    cases he : es[idx]? with
    | some e =>
      rw [he] at hout
      cases hout
      exact .entry r rs e rfl he
    | none =>
      rw [he] at hout
      cases hout
      exact .num r rs rfl (List.getElem?_eq_none_iff.mp he)

theorem readNum_eq_some {i : Fin 12} (h : s.readNum cfg i = some s') :
    s' = { s with count := some (entriesNum cfg i s.server.mem) } := by
  unfold readNum at h
  split at h
  · exact (Option.some.inj h).symm
  · cases h

theorem readEntries_eq_some {i : Fin 12} {gid : Gid} (h : s.readEntries cfg i gid = some s') :
    ∃ n, s.count = some n ∧ s' = { s with found := some (scan cfg i gid s.server.mem n) } := by
  unfold readEntries at h
  split at h
  · rename_i n hcount _
    exact ⟨n, hcount, (Option.some.inj h).symm⟩
  · cases h

/-! ## The concurrent run refines the sequential one -/

theorem settled_of_idle (h : s.loop.regions = []) : s.settled cfg = s.server := by
  simp only [settled, RegLoop.finish, h]

theorem settled_enter (h : s.loop.regions = []) (slot : Mem) (queue : List Mem) :
    (s.enter cfg slot queue).settled cfg =
      s.server.apply cfg (MetaReq.decode cfg.layout slot) := by
  unfold enter
  cases MetaReq.decode cfg.layout slot with
  | register gid port point =>
    simp only [settled, RegLoop.finish_zero]
    rfl
  | dummy | deregister | query | unknown => exact settled_of_idle h

theorem settled_memcpy (h : s.memcpy cfg = some s') : s'.settled cfg = s.settled cfg := by
  obtain ⟨out, hout, rfl⟩ := Option.map_eq_some_iff.mp h
  simp only [settled, RegLoop.memcpy_finish hout]

theorem enter_handled (cfg : MetaConfig) (s : State) (slot : Mem) (queue : List Mem) :
    (s.enter cfg slot queue).handled = s.handled ++ [slot] ∧
      (s.enter cfg slot queue).queue = queue ∧
      (s.enter cfg slot queue).count = s.count ∧ (s.enter cfg slot queue).found = s.found ∧
      (s.enter cfg slot queue).server.mem = s.server.mem := by
  unfold enter
  cases MetaReq.decode cfg.layout slot <;> exact ⟨rfl, rfl, rfl, rfl, rfl⟩

/-- The requests are handled in their order, and what is in memory when a handler is done is
    what the handlers leave one after the other. -/
structure Sync (cfg : MetaConfig) (all : List Mem) (s : State) : Prop where
  all : s.handled ++ s.queue = all
  settled : s.settled cfg = (MetaServer.boot.serveAll cfg s.handled).app

theorem Sync.step {all : List Mem} {i : Fin 12} {gid : Gid} {a : Event} (hs : Sync cfg all s)
    (h : s.step cfg i gid a = some s') : Sync cfg all s' := by
  cases a with
  | handle =>
    obtain ⟨slot, queue, hidle, hqueue, rfl⟩ := handle_eq_some h
    obtain ⟨hhandled, hrest, -⟩ := enter_handled cfg s slot queue
    refine ⟨?_, ?_⟩
    · rw [hhandled, hrest, ← hs.all, hqueue, List.append_assoc]
      rfl
    · rw [settled_enter hidle, hhandled, serveAll_concat_app, ← hs.settled, settled_of_idle hidle]
  | memcpy =>
    have hsettled := settled_memcpy h
    obtain ⟨out, hout, rfl⟩ := Option.map_eq_some_iff.mp h
    exact ⟨hs.all, hsettled.trans hs.settled⟩
  | readNum =>
    rw [readNum_eq_some h]
    exact ⟨hs.all, hs.settled⟩
  | readEntries =>
    obtain ⟨n, -, rfl⟩ := readEntries_eq_some h
    exact ⟨hs.all, hs.settled⟩

end State

/-! ## What the reader sees of a write -/

section Frame

variable {cfg : MetaConfig} {i r : Fin 12} {mem : Mem} {addr k : Nat} {bs : List UInt8}

/-- Nothing that is written to another region. -/
theorem cell_write_of_ne (hne : i ≠ r) (hlo : cfg.memPa r ≤ addr)
    (hhi : addr + bs.length ≤ cfg.memPa r + globalMemSz)
    (hk : 8 + (k + 1) * endPointSz ≤ globalMemSz) :
    cell cfg i (mem.write addr bs) k = cell cfg i mem k := by
  have hapart := cfg.apart i r hne
  rw [cell, EndPointLayout.readAt, Mem.read_write_of_disjoint]
  · rfl
  · simp only [endPointSz] at hk ⊢
    omega

theorem entriesNum_write_of_ne (hne : i ≠ r) (hlo : cfg.memPa r ≤ addr)
    (hhi : addr + bs.length ≤ cfg.memPa r + globalMemSz) :
    entriesNum cfg i (mem.write addr bs) = entriesNum cfg i mem := by
  have hapart := cfg.apart i r hne
  rw [entriesNum, Mem.read_write_of_disjoint]
  · rfl
  · simp only [globalMemSz] at hapart hhi
    omega

theorem cell_write_entry (e : EndPoint) (idx : Nat) :
    cell cfg i (mem.write (cfg.memPa i + 8 + idx * endPointSz) (cfg.layout.enc e)) idx = e := by
  refine EndPointLayout.readAt_of_read ?_
  rw [← cfg.layout.enc_length e, Mem.read_write_self]

theorem cell_write_entry_of_ne {idx : Nat} (hk : k ≠ idx) (e : EndPoint) :
    cell cfg i (mem.write (cfg.memPa i + 8 + idx * endPointSz) (cfg.layout.enc e)) k =
      cell cfg i mem k := by
  rw [cell, EndPointLayout.readAt, Mem.read_write_of_disjoint]
  · rfl
  · rw [cfg.layout.enc_length]
    simp only [endPointSz]
    omega

theorem entriesNum_write_entry (e : EndPoint) (idx : Nat) :
    entriesNum cfg i (mem.write (cfg.memPa i + 8 + idx * endPointSz) (cfg.layout.enc e)) =
      entriesNum cfg i mem := by
  rw [entriesNum, Mem.read_write_of_disjoint (.inl (by omega))]
  rfl

theorem cell_write_num (n : Nat) :
    cell cfg i (mem.write (cfg.memPa i) (Word.toBytes 8 n)) k = cell cfg i mem k := by
  rw [cell, EndPointLayout.readAt, Mem.read_write_of_disjoint]
  · rfl
  · rw [Word.toBytes_length]
    omega

theorem entriesNum_write_num {n : Nat} (hn : n < 256 ^ 8) :
    entriesNum cfg i (mem.write (cfg.memPa i) (Word.toBytes 8 n)) = n := by
  rw [entriesNum, Mem.read_write_take (by simp), List.take_of_length_le (by simp),
    Word.ofBytes_toBytes_of_lt hn]

end Frame

/-! ## The entry of the gid -/

section Invariant

variable {cfg : MetaConfig} {i : Fin 12} {gid : Gid} {s s' : State} {j : Nat}

/-- The entry of the gid is at place `j`, where the reader finds it, and it has been
    registered. -/
structure Shown (cfg : MetaConfig) (i : Fin 12) (gid : Gid) (s : State) (j : Nat) : Prop where
  first : FirstAt (fun e => e.gid = gid) (cell cfg i s.server.mem) j
  known : RegisteredFor cfg gid s.handled (cell cfg i s.server.mem j)
  counted : j < entriesNum cfg i s.server.mem
  read : ∀ n, s.count = some n → j < n
  inside : 8 + (j + 1) * endPointSz ≤ globalMemSz

/-- As long as region `i` is not written, the entries that are on their way have the gid at a
    place that is not behind `j`. -/
structure Coming (cfg : MetaConfig) (i : Fin 12) (gid : Gid) (s : State) (j : Nat) : Prop where
  nodup : s.loop.regions.Nodup
  fits : s.loop.regions ≠ [] → 8 + s.loop.es.length * endPointSz ≤ globalMemSz
  ahead : i ∈ s.loop.regions → ∃ q ≤ j,
    FirstIn (fun e => e.gid = gid) (s.loop.es.map EndPoint.selfClone) q ∧
    ∀ e, (s.loop.es.map EndPoint.selfClone)[q]? = some e → RegisteredFor cfg gid s.handled e
  written : ∀ rs, s.loop.regions = i :: rs → ∀ k < s.loop.idx,
    (s.loop.es.map EndPoint.selfClone)[k]? = some (cell cfg i s.server.mem k)

/-- A write elsewhere. -/
theorem Shown.withMem (h : Shown cfg i gid s j) {mem : Mem} (loop : RegLoop)
    (hcell : ∀ k ≤ j, cell cfg i mem k = cell cfg i s.server.mem k)
    (hnum : entriesNum cfg i mem = entriesNum cfg i s.server.mem) :
    Shown cfg i gid (s.withMem mem loop) j where
  first := h.first.congr hcell
  known := by
    have hj : cell cfg i (s.withMem mem loop).server.mem j = cell cfg i s.server.mem j :=
      hcell j le_rfl
    rw [hj]
    exact h.known
  counted := h.counted.trans_eq hnum.symm
  read := h.read
  inside := h.inside

/-- The `memcpy` of an entry to another region. -/
theorem Shown.entry_of_ne (h : Shown cfg i gid s j) (hc : Coming cfg i gid s j) {r : Fin 12}
    {rs : List (Fin 12)} {e : EndPoint} (hregions : s.loop.regions = r :: rs)
    (he : s.loop.es[s.loop.idx]? = some e) (hne : i ≠ r) (loop : RegLoop) :
    Shown cfg i gid (s.withMem
      (s.server.mem.write (cfg.memPa r + 8 + s.loop.idx * endPointSz)
        (cfg.layout.enc e.selfClone)) loop) j := by
  have hidx : s.loop.idx < s.loop.es.length := (List.getElem?_eq_some_iff.mp he).1
  have hfits := hc.fits (by rw [hregions]; exact List.cons_ne_nil r rs)
  have hlo : cfg.memPa r ≤ cfg.memPa r + 8 + s.loop.idx * endPointSz := by omega
  have hhi : cfg.memPa r + 8 + s.loop.idx * endPointSz + (cfg.layout.enc e.selfClone).length ≤
      cfg.memPa r + globalMemSz := by
    rw [cfg.layout.enc_length]
    simp only [endPointSz] at hfits ⊢
    omega
  have hinside := h.inside
  refine h.withMem loop (fun k hk => cell_write_of_ne hne hlo hhi ?_)
    (entriesNum_write_of_ne hne hlo hhi)
  simp only [endPointSz] at hinside ⊢
  omega

/-- The `memcpy` of the number to another region. -/
theorem Shown.num_of_ne (h : Shown cfg i gid s j) {r : Fin 12} (hne : i ≠ r) (n : Nat)
    (loop : RegLoop) :
    Shown cfg i gid (s.withMem (s.server.mem.write (cfg.memPa r) (Word.toBytes 8 n)) loop) j := by
  have hhi : cfg.memPa r + (Word.toBytes 8 n).length ≤ cfg.memPa r + globalMemSz := by
    rw [Word.toBytes_length]
    exact Nat.add_le_add_left (by decide) _
  have hinside := h.inside
  refine h.withMem loop (fun k hk => cell_write_of_ne hne le_rfl hhi ?_)
    (entriesNum_write_of_ne hne le_rfl hhi)
  simp only [endPointSz] at hinside ⊢
  omega

theorem Coming.writing (h : Shown cfg i gid s j) (hc : Coming cfg i gid s j)
    {rs : List (Fin 12)} (hregions : s.loop.regions = i :: rs) :
    ∃ q, Writing (fun e => e.gid = gid) (s.loop.es.map EndPoint.selfClone) q
      (cell cfg i s.server.mem) s.loop.idx j ∧
    ∀ e, (s.loop.es.map EndPoint.selfClone)[q]? = some e → RegisteredFor cfg gid s.handled e := by
  obtain ⟨q, hq, hfirst, hknown⟩ := hc.ahead (by rw [hregions]; exact List.mem_cons_self)
  exact ⟨q, ⟨hfirst, h.first, hq, hc.written rs hregions⟩, hknown⟩

/-- The `memcpy` of an entry to region `i`. -/
theorem Coming.entry (h : Shown cfg i gid s j) (hc : Coming cfg i gid s j) {rs : List (Fin 12)}
    {e : EndPoint} (hregions : s.loop.regions = i :: rs)
    (he : s.loop.es[s.loop.idx]? = some e) :
    ∃ j', Shown cfg i gid (s.withMem
        (s.server.mem.write (cfg.memPa i + 8 + s.loop.idx * endPointSz)
          (cfg.layout.enc e.selfClone)) { s.loop with idx := s.loop.idx + 1 }) j' ∧
      Coming cfg i gid (s.withMem
        (s.server.mem.write (cfg.memPa i + 8 + s.loop.idx * endPointSz)
          (cfg.layout.enc e.selfClone)) { s.loop with idx := s.loop.idx + 1 }) j' := by
  obtain ⟨q, hwriting, hknown⟩ := hc.writing h hregions
  have hclone : (s.loop.es.map EndPoint.selfClone)[s.loop.idx]? = some e.selfClone := by
    rw [List.getElem?_map, he]
    rfl
  obtain ⟨j', hj', hw, hmoved⟩ := hwriting.step hclone
    (cell_write_entry e.selfClone s.loop.idx) (fun k hk => cell_write_entry_of_ne hk e.selfClone)
  refine ⟨j', ⟨hw.first, ?_, ?_, fun n hn => lt_of_le_of_lt hj' (h.read n hn), ?_⟩,
    ⟨hc.nodup, hc.fits, fun _ => ⟨q, hw.le, hw.target, hknown⟩, fun _ _ => hw.written⟩⟩
  · rcases hmoved with hold | hnew
    · exact hold ▸ h.known
    · exact hknown _ hnew
  · exact lt_of_le_of_lt hj' (h.counted.trans_eq (entriesNum_write_entry _ _).symm)
  · have hinside := h.inside
    simp only [endPointSz] at hinside ⊢
    omega

/-- The `memcpy` of the number to region `i`. -/
theorem Coming.num (h : Shown cfg i gid s j) (hc : Coming cfg i gid s j) {rs : List (Fin 12)}
    (hregions : s.loop.regions = i :: rs) (he : s.loop.es.length ≤ s.loop.idx)
    (loop : RegLoop) :
    Shown cfg i gid (s.withMem
      (s.server.mem.write (cfg.memPa i) (Word.toBytes 8 s.loop.es.length)) loop) j := by
  obtain ⟨q, hwriting, -⟩ := hc.writing h hregions
  have hj : j = q := hwriting.eq_of_length_le (by rwa [List.length_map])
  have hq := hwriting.target.lt
  have hfits := hc.fits (by rw [hregions]; exact List.cons_ne_nil i rs)
  have hlt : s.loop.es.length < 256 ^ 8 := by
    simp only [globalMemSz, endPointSz] at hfits
    omega
  refine ⟨h.first.congr fun k _ => cell_write_num _, ?_, ?_, h.read, h.inside⟩
  · have hcell : cell cfg i (s.withMem (s.server.mem.write (cfg.memPa i)
        (Word.toBytes 8 s.loop.es.length)) loop).server.mem j = cell cfg i s.server.mem j :=
      cell_write_num _
    rw [hcell]
    exact h.known
  · rw [List.length_map] at hq
    exact (hj ▸ hq).trans_eq (entriesNum_write_num hlt).symm

/-- A `memcpy` keeps the entry in sight. -/
theorem Shown.memcpy (h : Shown cfg i gid s j) (hc : Coming cfg i gid s j)
    (hstep : s.memcpy cfg = some s') :
    ∃ j', Shown cfg i gid s' j' ∧ Coming cfg i gid s' j' := by
  cases State.memcpy_copied hstep with
  | entry r rs e hregions he =>
    by_cases hne : i = r
    · subst hne
      exact hc.entry h hregions he
    · refine ⟨j, h.entry_of_ne hc hregions he hne _, hc.nodup, hc.fits, hc.ahead,
        fun rs' hrs' => ?_⟩
      have hhead : s.loop.regions = i :: rs' := hrs'
      rw [hregions] at hhead
      cases hhead
      exact absurd rfl hne
  | num r rs hregions he =>
    have hnodup := hc.nodup
    rw [hregions, List.nodup_cons] at hnodup
    have hcoming : ∀ mem, Coming cfg i gid
        (s.withMem mem { s.loop with regions := rs, idx := 0 }) j := by
      intro mem
      refine ⟨hnodup.2, fun _ => hc.fits ?_, fun hi => hc.ahead ?_, fun _ _ k hk => absurd hk (Nat.not_lt_zero k)⟩
      · rw [hregions]
        exact List.cons_ne_nil r rs
      · rw [hregions]
        exact List.mem_cons_of_mem r hi
    by_cases hne : i = r
    · subst hne
      exact ⟨j, hc.num h hregions he _, hcoming _⟩
    · exact ⟨j, h.num_of_ne hne _ _, hcoming _⟩

end Invariant

/-! ## Registrations that keep the entry in its place -/

/-- The place of the gid in the entries, or their number if it is not there. -/
def place (gid : Gid) (es : List EndPoint) : Nat := es.findIdx fun e => e.gid = gid

/-- The place at which the reader finds the gid in a region. -/
def imagePlace (cfg : MetaConfig) (i : Fin 12) (gid : Gid) (mem : Mem) : Nat :=
  (List.range (entriesNum cfg i mem)).findIdx fun k => (cell cfg i mem k).gid = gid

/-- The entries that the registration writes have the gid, and at a place that is not behind
    that in the image. -/
def InPlace (cfg : MetaConfig) (i : Fin 12) (gid : Gid) (s : RpcServer MetaServer) (slot : Mem) :
    Prop :=
  match MetaReq.decode cfg.layout slot with
  | .register gid' _ point =>
    place gid (newEntries cfg s.app gid' point) < (newEntries cfg s.app gid' point).length ∧
      place gid (newEntries cfg s.app gid' point) ≤ imagePlace cfg i gid s.app.mem
  | _ => True

theorem firstIn_place {gid : Gid} {es : List EndPoint} (h : place gid es < es.length) :
    FirstIn (fun e => e.gid = gid) (es.map EndPoint.selfClone) (place gid es) where
  holds := by
    have hgid := List.findIdx_getElem (w := h)
    refine ⟨(es[place gid es]).selfClone, ?_, of_decide_eq_true hgid⟩
    rw [List.getElem?_map, List.getElem?_eq_getElem h]
    rfl
  before k hk e he := by
    rw [List.getElem?_map, List.getElem?_eq_getElem (hk.trans h)] at he
    cases he
    exact of_decide_eq_false (List.not_of_lt_findIdx hk)

theorem imagePlace_eq {cfg : MetaConfig} {i : Fin 12} {gid : Gid} {mem : Mem} {j : Nat}
    (h : FirstAt (fun e => e.gid = gid) (cell cfg i mem) j) (hj : j < entriesNum cfg i mem) :
    imagePlace cfg i gid mem = j := by
  have hlen : j < (List.range (entriesNum cfg i mem)).length := by rwa [List.length_range]
  refine (List.findIdx_eq hlen).mpr ⟨?_, fun k hk => ?_⟩
  · simpa using h.holds
  · simpa using h.before k hk

/-! ## Every step keeps the entry in sight -/

section Survival

variable {cfg : MetaConfig} {i : Fin 12} {gid : Gid} {all : List Mem} {s s' : State} {j : Nat}

/-- What the query has returned is an endpoint that was registered for the gid. -/
def Found (cfg : MetaConfig) (gid : Gid) (s : State) : Prop :=
  ∀ out, s.found = some out → ∃ p, out = some p ∧ RegisteredFor cfg gid s.handled p

theorem newEntries_known {slots : List Mem} {app : MetaServer} {snap : MetaInfo} {gid : Gid}
    {point e : EndPoint} (h : Recorded cfg slots (app.register cfg gid point) snap)
    (he : e ∈ newEntries cfg app gid point) : RegisteredFor cfg e.gid slots e := by
  obtain ⟨⟨key, e'⟩, hmem, rfl⟩ := List.mem_map.mp he
  have hentry := (cfg.order_perm _ _).subset hmem
  exact h.known key e' (h.part key e' (MetaInfo.get_eq_some_iff.mpr hentry))

theorem newEntries_length (app : MetaServer) (gid : Gid) (point : EndPoint) :
    (newEntries cfg app gid point).length = (app.register cfg gid point).info.entries.length := by
  rw [newEntries, List.length_map, (cfg.order_perm _ _).length_eq]
  rfl

/-- A registration that keeps the gid in its place sends entries on their way that have it
    there. -/
theorem Coming.register
    (hsync : s.server = (MetaServer.boot.serveAll cfg s.handled).app) {slot : Mem} {gid' : Gid}
    {port : Nat} {point : EndPoint} (queue : List Mem)
    (hreq : MetaReq.decode cfg.layout slot = .register gid' port point)
    (hadm : Run.Guarded (MetaImage.step cfg) (Admissible cfg) MetaServer.boot
      (s.handled ++ [slot]))
    (hplace : InPlace cfg i gid (MetaServer.boot.serveAll cfg s.handled) slot)
    (h : Shown cfg i gid s j) : Coming cfg i gid (s.enter cfg slot queue) j := by
  have hfits := hadm s.handled slot _ _ List.prefix_rfl (exec_eq_serveAll _ _) rfl
  obtain ⟨snap, hrec⟩ := recorded_serveAll hadm
  rw [serveAll_concat_app, hreq, ← hsync] at hrec
  simp only [Admissible, hreq, ← hsync] at hfits
  simp only [InPlace, hreq, ← hsync, imagePlace_eq h.first h.counted] at hplace
  obtain ⟨hlt, hle⟩ := hplace
  simp only [State.enter, hreq]
  refine ⟨List.nodup_finRange 12, fun _ => ?_,
    fun _ => ⟨_, hle, firstIn_place hlt, fun e he => ?_⟩, fun _ _ k hk => absurd hk (Nat.not_lt_zero k)⟩
  · rw [newEntries_length]
    exact hfits.2
  · -- The entry at this place has the gid, and has been registered for it.
    obtain ⟨e', he', hgid⟩ := (firstIn_place hlt).holds
    rw [he] at he'
    cases he'
    rw [List.getElem?_map, List.getElem?_eq_getElem hlt] at he
    cases he
    have hknown := newEntries_known hrec (List.getElem_mem hlt)
    rw [hknown.selfClone] at hgid ⊢
    rwa [hgid] at hknown

theorem Shown.enter (h : Shown cfg i gid s j) (slot : Mem) (queue : List Mem) :
    Shown cfg i gid (s.enter cfg slot queue) j := by
  obtain ⟨hhandled, -, hcount, -, hmem⟩ := s.enter_handled cfg slot queue
  refine ⟨?_, ?_, ?_, fun n hn => h.read n (hcount ▸ hn), h.inside⟩
  · rw [hmem]
    exact h.first
  · rw [hmem, hhandled]
    exact h.known.append [slot]
  · rw [hmem]
    exact h.counted

/-- The query has not gone wrong, and the reader finds the gid. -/
structure Inv (cfg : MetaConfig) (i : Fin 12) (gid : Gid) (all : List Mem) (s : State) : Prop where
  sync : s.Sync cfg all
  found : Found cfg gid s
  shown : ∃ j, Shown cfg i gid s j ∧ Coming cfg i gid s j

theorem Inv.handle (hs : Inv cfg i gid all s)
    (hadm : Run.Guarded (MetaImage.step cfg) (Admissible cfg) MetaServer.boot all)
    (hplace : ∀ slot queue, s.queue = slot :: queue →
      InPlace cfg i gid (MetaServer.boot.serveAll cfg s.handled) slot)
    (h : s.step cfg i gid .handle = some s') : Inv cfg i gid all s' := by
  have hsync' := hs.sync.step h
  obtain ⟨slot, queue, hidle, hqueue, rfl⟩ := State.handle_eq_some h
  obtain ⟨hhandled, -, -, hfound, -⟩ := s.enter_handled cfg slot queue
  obtain ⟨j, hshown, hcoming⟩ := hs.shown
  refine ⟨hsync', fun out hout => ?_, j, hshown.enter slot queue, ?_⟩
  · obtain ⟨p, rfl, hp⟩ := hs.found out (hfound ▸ hout)
    rw [hhandled]
    exact ⟨p, rfl, hp.append [slot]⟩
  · have hpre : s.handled ++ [slot] <+: all := by
      rw [← hs.sync.all, hqueue]
      exact ⟨queue, by simp⟩
    have hserver : s.server = (MetaServer.boot.serveAll cfg s.handled).app := by
      rw [← hs.sync.settled, State.settled_of_idle hidle]
    cases hreq : MetaReq.decode cfg.layout slot with
    | register gid' port point =>
      exact .register hserver queue hreq (hadm.of_prefix hpre) (hplace slot queue hqueue)
        hshown
    | dummy | deregister | query | unknown =>
      simp only [State.enter, hreq]
      exact ⟨hcoming.nodup, hcoming.fits, fun hi => by simp [hidle] at hi,
        fun rs hrs => by simp [hidle] at hrs⟩

theorem Inv.memcpy (hs : Inv cfg i gid all s) (h : s.step cfg i gid .memcpy = some s') :
    Inv cfg i gid all s' := by
  have hsync' := hs.sync.step h
  obtain ⟨j, hshown, hcoming⟩ := hs.shown
  refine ⟨hsync', ?_, hshown.memcpy hcoming h⟩
  obtain ⟨out, -, rfl⟩ := Option.map_eq_some_iff.mp h
  exact hs.found

theorem Inv.readNum (hs : Inv cfg i gid all s) (h : s.step cfg i gid .readNum = some s') :
    Inv cfg i gid all s' := by
  have hsync' := hs.sync.step h
  obtain ⟨j, hshown, hcoming⟩ := hs.shown
  rw [State.readNum_eq_some h] at hsync' ⊢
  refine ⟨hsync', hs.found, j, ⟨hshown.first, hshown.known, hshown.counted, fun n hn => ?_,
    hshown.inside⟩, ⟨hcoming.nodup, hcoming.fits, hcoming.ahead, hcoming.written⟩⟩
  exact Option.some.inj hn ▸ hshown.counted

theorem Inv.readEntries (hs : Inv cfg i gid all s)
    (h : s.step cfg i gid .readEntries = some s') : Inv cfg i gid all s' := by
  have hsync' := hs.sync.step h
  obtain ⟨j, hshown, hcoming⟩ := hs.shown
  obtain ⟨n, hcount, rfl⟩ := State.readEntries_eq_some h
  refine ⟨hsync', fun out hout => ?_, j, ⟨hshown.first, hshown.known, hshown.counted,
    hshown.read, hshown.inside⟩, ⟨hcoming.nodup, hcoming.fits, hcoming.ahead, hcoming.written⟩⟩
  have hscan : scan cfg i gid s.server.mem n = out := Option.some.inj hout
  refine ⟨_, hscan ▸ scan_of_firstAt hshown.first (hshown.read n hcount), ?_⟩
  rw [hshown.known.selfClone]
  exact hshown.known

theorem Inv.step {a : Event} (hs : Inv cfg i gid all s)
    (hadm : Run.Guarded (MetaImage.step cfg) (Admissible cfg) MetaServer.boot all)
    (hplace : ∀ slot queue, s.queue = slot :: queue →
      InPlace cfg i gid (MetaServer.boot.serveAll cfg s.handled) slot)
    (h : s.step cfg i gid a = some s') : Inv cfg i gid all s' := by
  cases a with
  | handle => exact hs.handle hadm hplace h
  | memcpy => exact hs.memcpy h
  | readNum => exact hs.readNum h
  | readEntries => exact hs.readEntries h

/-! ## At rest -/

theorem imageAt_clones {mem : Mem} {es : List EndPoint}
    (h : ImageAt cfg.layout mem (cfg.memPa i) es) {k : Nat} (hk : k < es.length) :
    (es.map EndPoint.selfClone)[k]? = some (cell cfg i mem k) := by
  have he := List.getElem?_eq_getElem hk
  rw [List.getElem?_map, he, Option.map_some, ← h.entry k es[k] he]
  rfl

theorem imageAt_gid {mem : Mem} {es : List EndPoint}
    (h : ImageAt cfg.layout mem (cfg.memPa i) es) {k : Nat} (hk : k < es.length) :
    (cell cfg i mem k).gid = es[k].gid := by
  rw [cell, h.entry k es[k] (List.getElem?_eq_getElem hk), EndPoint.selfClone_gid]

theorem Recorded.inside {slots : List Mem} {app : MetaServer} {snap : MetaInfo}
    (h : Recorded cfg slots app snap) {es : List EndPoint}
    (hperm : es.Perm (snap.entries.map Sigma.snd)) {k : Nat} (hk : k < es.length) :
    8 + (k + 1) * endPointSz ≤ globalMemSz := by
  have hlen := hperm.length_eq
  have hfits := h.fits
  rw [List.length_map] at hlen
  simp only [endPointSz] at hfits ⊢
  omega

end Survival

/-! ## Runs of the handlers -/

section Handlers

variable {cfg : MetaConfig} {i : Fin 12} {gid : Gid}

theorem step_entry (s : State) {es : List EndPoint} {r : Fin 12} {rs : List (Fin 12)} {idx : Nat}
    (mem : Mem) (hidx : idx < es.length) :
    (s.withMem mem { es, regions := r :: rs, idx }).step cfg i gid .memcpy =
      some (s.withMem
        (mem.write (cfg.memPa r + 8 + idx * endPointSz) (cfg.layout.enc es[idx].selfClone))
        { es, regions := r :: rs, idx := idx + 1 }) := by
  simp only [State.step, State.memcpy, State.withMem, RegLoop.memcpy,
    List.getElem?_eq_getElem hidx]
  rfl

/-- Some entries of a region are written. -/
theorem exec_entries (s : State) {es : List EndPoint} (r : Fin 12) (rs : List (Fin 12)) (m idx : Nat)
    (mem : Mem) (hm : idx + m ≤ es.length) :
    Run.exec (State.step cfg i gid) (s.withMem mem { es, regions := r :: rs, idx })
        (List.replicate m .memcpy) =
      some (s.withMem
        (writeEntries cfg.layout (cfg.memPa r) idx ((es.drop idx).take m) mem)
        { es, regions := r :: rs, idx := idx + m }) := by
  induction m generalizing idx mem with
  | zero => rfl
  | succ m ih =>
    have hidx : idx < es.length := by omega
    rw [List.replicate_succ, Run.exec_cons, step_entry s mem hidx, Option.bind_some,
      ih (idx + 1) _ (by omega), List.drop_eq_getElem_cons hidx, List.take_succ_cons]
    simp only [writeEntries, Nat.add_assoc, Nat.add_comm 1 m]

theorem exec_region (s : State) (es : List EndPoint) (r : Fin 12) (rs : List (Fin 12)) (mem : Mem) :
    Run.exec (State.step cfg i gid) (s.withMem mem { es, regions := r :: rs, idx := 0 })
        (List.replicate (es.length + 1) .memcpy) =
      some (s.withMem (writeImage cfg.layout (cfg.memPa r) es mem)
        { es, regions := rs, idx := 0 }) := by
  rw [List.replicate_add, Run.exec_append, exec_entries s r rs es.length 0 mem (by omega),
    Option.bind_some, List.drop_zero, List.take_length, Nat.zero_add]
  simp [State.step, State.memcpy, State.withMem, RegLoop.memcpy, writeImage]

theorem exec_regions (s : State) (es : List EndPoint) (pre rs : List (Fin 12)) (mem : Mem) :
    Run.exec (State.step cfg i gid) (s.withMem mem { es, regions := pre ++ rs, idx := 0 })
        (List.replicate (pre.length * (es.length + 1)) .memcpy) =
      some (s.withMem (writeImages cfg es pre mem) { es, regions := rs, idx := 0 }) := by
  induction pre generalizing mem with
  | nil => simp [writeImages]
  | cons r pre ih =>
    rw [List.length_cons, Nat.succ_mul, Nat.add_comm, List.replicate_add, Run.exec_append,
      List.cons_append, exec_region, Option.bind_some, ih]
    rfl

/-- A handler begins when none is running. -/
theorem enter_register {s : State} {slot : Mem} {gid' : Gid} {port : Nat} {point : EndPoint}
    (hreq : MetaReq.decode cfg.layout slot = .register gid' port point) (queue : List Mem) :
    s.enter cfg slot queue =
      State.withMem
        { s with
          server := s.server.register cfg gid' point, queue, handled := s.handled ++ [slot] }
        s.server.mem
        { es := newEntries cfg s.server gid' point, regions := List.finRange 12, idx := 0 } := by
  simp only [State.enter, hreq]
  rfl

/-- A handler runs from its beginning to its end. -/
theorem exec_handler (es : List EndPoint) (before : List Mem) (slot : Mem) (during : List Mem) :
    ∃ es' n, Run.exec (State.step cfg i gid) (State.idle cfg es before (slot :: during))
        (.handle :: List.replicate n .memcpy) =
      some (State.idle cfg es' (before ++ [slot]) during) := by
  have hhandle : (State.idle cfg es before (slot :: during)).step cfg i gid .handle =
      some ((State.idle cfg es before (slot :: during)).enter cfg slot during) := rfl
  have happ := @serveAll_concat_app cfg MetaServer.boot before slot
  cases hreq : MetaReq.decode cfg.layout slot with
  | register gid' port point =>
    rw [hreq] at happ
    have hrun := @exec_regions cfg i gid
      { State.idle cfg es before (slot :: during) with
        server := (MetaServer.boot.serveAll cfg before).app.register cfg gid' point
        queue := during
        handled := before ++ [slot] }
      (newEntries cfg (MetaServer.boot.serveAll cfg before).app gid' point) (List.finRange 12) []
      (MetaServer.boot.serveAll cfg before).app.mem
    rw [List.append_nil] at hrun
    apply Exists.intro
    apply Exists.intro
    rw [Run.exec_cons, hhandle, Option.bind_some, enter_register hreq]
    refine hrun.trans (congrArg some ?_)
    simp only [State.idle, happ]
    rfl
  | dummy | deregister | query | unknown =>
    refine ⟨es, 0, ?_⟩
    rw [Run.exec_cons, hhandle]
    simp only [State.enter, hreq, State.idle, happ, List.replicate_zero, Run.exec_nil,
      Option.bind_some]

end Handlers

/-! ## An interleaving that misses the entry -/

section Missed

variable {cfg : MetaConfig} {i : Fin 12} {gid : Gid} {j : Nat}

/-- The images of other regions are not seen. -/
theorem cell_writeImages_of_not_mem {es : List EndPoint} {k : Nat}
    (hfits : 8 + es.length * endPointSz ≤ globalMemSz)
    (hk : 8 + (k + 1) * endPointSz ≤ globalMemSz) (regions : List (Fin 12)) (mem : Mem)
    (hi : i ∉ regions) : cell cfg i (writeImages cfg es regions mem) k = cell cfg i mem k := by
  induction regions generalizing mem with
  | nil => rfl
  | cons r rs ih =>
    rw [List.mem_cons, not_or] at hi
    rw [writeImages, ih _ hi.2, cell, cell, EndPointLayout.readAt, EndPointLayout.readAt,
      Mem.read_eq_read_iff.mpr]
    intro a ha
    have hapart := cfg.apart i r hi.1
    refine writeImage_of_outside ?_
    simp only [endPointSz] at ha hk hfits ⊢
    omega

/-- A keyed registry has each gid once. -/
theorem keyed_unique {snap : MetaInfo} (hkeyed : Keyed cfg snap) {es : List EndPoint}
    (hperm : es.Perm (snap.entries.map Sigma.snd)) {k k' : Nat} {e e' : EndPoint}
    (hk : es[k]? = some e) (hk' : es[k']? = some e') (hgid : e.gid = e'.gid) : k = k' := by
  have hkeys : (es.map fun e => cfg.gidToStr e.gid).Nodup := by
    refine (hperm.map _).nodup_iff.mpr ?_
    have hsame : (snap.entries.map Sigma.snd).map (fun e => cfg.gidToStr e.gid) =
        snap.entries.keys := by
      rw [List.map_map, List.keys]
      refine List.map_congr_left fun entry hentry => ?_
      exact (hkeyed entry.1 entry.2 (MetaInfo.get_eq_some_iff.mpr hentry)).symm
    rw [hsame]
    exact snap.nodupKeys
  have hlt : k < es.length := (List.getElem?_eq_some_iff.mp hk).1
  refine (List.getElem?_inj (by rwa [List.length_map]) hkeys).mp ?_
  rw [List.getElem?_map, List.getElem?_map, hk, hk', Option.map_some, Option.map_some, hgid]

/-- The entries before the place of the gid have other gids. -/
theorem ne_of_lt_place {es : List EndPoint} {k : Nat} {e : EndPoint} (hk : k < place gid es)
    (he : (es.map EndPoint.selfClone)[k]? = some e) : e.gid ≠ gid := by
  have hlt : k < es.length := lt_of_lt_of_le hk List.findIdx_le_length
  rw [List.getElem?_map, List.getElem?_eq_getElem hlt] at he
  cases he
  exact of_decide_eq_false (List.not_of_lt_findIdx hk)

/-- The memory after a registration has written the first `m` entries to region `i`. -/
def writtenUpTo (cfg : MetaConfig) (i : Fin 12) (es : List EndPoint) (pre : List (Fin 12)) (m : Nat)
    (mem : Mem) : Mem :=
  writeEntries cfg.layout (cfg.memPa i) 0 (es.take m) (writeImages cfg es pre mem)

theorem cell_writtenUpTo_of_lt {es : List EndPoint} {pre : List (Fin 12)} {m k : Nat} {mem : Mem}
    (hk : k < m) (hlt : k < es.length) :
    (es.map EndPoint.selfClone)[k]? = some (cell cfg i (writtenUpTo cfg i es pre m mem) k) := by
  have he : (es.take m)[k]? = some es[k] := by
    rw [List.getElem?_take_of_lt hk, List.getElem?_eq_getElem hlt]
  have hread := @writeEntries_read cfg.layout (cfg.memPa i) 0 (writeImages cfg es pre mem) _ _ _ he
  rw [Nat.zero_add] at hread
  rw [List.getElem?_map, List.getElem?_eq_getElem hlt, Option.map_some, cell, writtenUpTo,
    EndPointLayout.readAt_of_read hread]

theorem cell_writtenUpTo_of_le {es : List EndPoint} {pre : List (Fin 12)} {m k : Nat} {mem : Mem}
    (hfits : 8 + es.length * endPointSz ≤ globalMemSz)
    (hinside : 8 + (k + 1) * endPointSz ≤ globalMemSz) (hi : i ∉ pre) (hk : m ≤ k) :
    cell cfg i (writtenUpTo cfg i es pre m mem) k = cell cfg i mem k := by
  rw [← cell_writeImages_of_not_mem hfits hinside pre mem hi, cell, cell, EndPointLayout.readAt,
    EndPointLayout.readAt, Mem.read_eq_read_iff.mpr]
  intro a ha
  refine writeEntries_of_outside (.inr ?_)
  have htake : (es.take m).length ≤ m := List.length_take_le m es
  simp only [endPointSz] at ha ⊢
  omega

/-- The state in which a registration has written the images of the regions `pre` and the
    first `m` entries of region `i`. -/
theorem exec_register {s : State} {slot : Mem} {queue : List Mem} {gid' : Gid} {port : Nat}
    {point : EndPoint} (hidle : s.loop.regions = []) (hqueue : s.queue = slot :: queue)
    (hreq : MetaReq.decode cfg.layout slot = .register gid' port point) {pre rs : List (Fin 12)}
    (hregions : List.finRange 12 = pre ++ i :: rs) {m : Nat}
    (hm : m ≤ (newEntries cfg s.server gid' point).length) :
    ∃ events t, Run.exec (State.step cfg i gid) s events = some t ∧
      t.server.mem =
        writtenUpTo cfg i (newEntries cfg s.server gid' point) pre m s.server.mem ∧
      t.count = s.count ∧ t.found = s.found := by
  have hhandle : s.step cfg i gid .handle = some (s.enter cfg slot queue) := by
    simp only [State.step, State.handle, hidle, hqueue]
  have hentries := @exec_entries cfg i gid
    { s with server := s.server.register cfg gid' point, queue, handled := s.handled ++ [slot] }
    (newEntries cfg s.server gid' point) i rs m 0
    (writeImages cfg (newEntries cfg s.server gid' point) pre s.server.mem) (by omega)
  refine ⟨.handle :: (List.replicate
      (pre.length * ((newEntries cfg s.server gid' point).length + 1)) .memcpy ++
        List.replicate m .memcpy), ?_⟩
  rw [Run.exec_cons, hhandle, Option.bind_some, enter_register hreq, hregions, Run.exec_append,
    exec_regions, Option.bind_some, hentries]
  exact ⟨_, rfl, rfl, rfl, rfl⟩

/-- A registration that moves the entry of the gid to a later place: between the two READs,
    the cells up to the old place are overwritten. -/
theorem missed_of_moved {before during : List Mem} {slot : Mem} {es : List EndPoint} {gid' : Gid}
    {port : Nat} {point : EndPoint}
    (hadm : Run.Guarded (MetaImage.step cfg) (Admissible cfg) MetaServer.boot
      (before ++ [slot]))
    (h : Shown cfg i gid (State.idle cfg es before (slot :: during)) j)
    (hreq : MetaReq.decode cfg.layout slot = .register gid' port point)
    (hmoved : j < place gid (newEntries cfg (MetaServer.boot.serveAll cfg before).app gid' point)) :
    ∃ events t, Run.exec (State.step cfg i gid) (State.idle cfg es before (slot :: during)) events =
      some t ∧ t.found = some none := by
  have hfits := hadm before slot _ _ List.prefix_rfl (exec_eq_serveAll _ _) rfl
  simp only [Admissible, hreq, ← newEntries_length] at hfits
  obtain ⟨snap, hrec⟩ := recorded_serveAll (hadm.of_prefix (List.prefix_append before [slot]))
  obtain ⟨es₀, hperm, himage⟩ := hrec.holds
  obtain ⟨pre, rs, hregions⟩ := List.append_of_mem (List.mem_finRange i)
  have hpre : i ∉ pre := by
    have hnodup := List.nodup_finRange 12
    rw [hregions, List.nodup_append] at hnodup
    exact fun hi => hnodup.2.2 i hi i List.mem_cons_self rfl
  -- The first READ comes before the handler, the second one when the entry is gone.
  have hlen : j + 1 ≤ (newEntries cfg (MetaServer.boot.serveAll cfg before).app gid' point).length :=
    Nat.lt_of_lt_of_le hmoved List.findIdx_le_length
  obtain ⟨events, t, hrun, hmem, hcount, hfound⟩ := @exec_register cfg i gid
    { State.idle cfg es before (slot :: during) with
      count := some (entriesNum cfg i (MetaServer.boot.serveAll cfg before).app.mem) }
    slot during gid' port point rfl rfl hreq pre rs hregions (j + 1) hlen
  have hnum : entriesNum cfg i (MetaServer.boot.serveAll cfg before).app.mem = es₀.length :=
    (himage i).count
  have hnone : scan cfg i gid t.server.mem
      (entriesNum cfg i (MetaServer.boot.serveAll cfg before).app.mem) = none := by
    refine scan_eq_none ?_
    rw [hmem, hnum]
    refine no_match (fun k hk e he => ne_of_lt_place (lt_of_le_of_lt hk hmoved) he)
      (fun k hk hgid => ?_)
      (fun k hk => cell_writtenUpTo_of_lt (Nat.lt_succ_of_le hk) (lt_of_le_of_lt hk hlen))
      (fun k hk hjk => cell_writtenUpTo_of_le hfits.2 (hrec.inside hperm hk) hpre hjk)
    have hj : j < es₀.length := hnum ▸ h.counted
    refine keyed_unique hrec.keyed hperm (List.getElem?_eq_getElem hk)
      (List.getElem?_eq_getElem hj) ?_
    rw [← imageAt_gid (himage i) hk, ← imageAt_gid (himage i) hj]
    exact hgid.trans h.first.holds.symm
  have hread : t.step cfg i gid .readEntries = some { t with found := some none } := by
    simp only [State.step, State.readEntries, hcount, hfound, hnone, State.idle]
  exact ⟨.readNum :: (events ++ [.readEntries]), _, Run.exec_cons_eq_some.mpr
    ⟨_, rfl, Run.exec_concat_eq_some.mpr ⟨t, hrun, hread⟩⟩, rfl⟩

/-- A registration that writes no entry for the gid: afterwards nothing is found. -/
theorem missed_of_lost {before during : List Mem} {slot : Mem} {es : List EndPoint} {gid' : Gid}
    {port : Nat} {point : EndPoint}
    (hadm : Run.Guarded (MetaImage.step cfg) (Admissible cfg) MetaServer.boot
      (before ++ [slot]))
    (hreq : MetaReq.decode cfg.layout slot = .register gid' port point)
    (hlost : (newEntries cfg (MetaServer.boot.serveAll cfg before).app gid' point).length ≤
      place gid (newEntries cfg (MetaServer.boot.serveAll cfg before).app gid' point)) :
    ∃ events t, Run.exec (State.step cfg i gid) (State.idle cfg es before (slot :: during)) events =
      some t ∧ t.found = some none := by
  have hfits := hadm before slot _ _ List.prefix_rfl (exec_eq_serveAll _ _) rfl
  simp only [Admissible, hreq, ← newEntries_length] at hfits
  obtain ⟨es', n, hrun⟩ := @exec_handler cfg i gid es before slot during
  have happ := @serveAll_concat_app cfg MetaServer.boot before slot
  rw [hreq] at happ
  have himage : ImageAt cfg.layout (MetaServer.boot.serveAll cfg (before ++ [slot])).app.mem
      (cfg.memPa i) (newEntries cfg (MetaServer.boot.serveAll cfg before).app gid' point) := by
    rw [happ]
    exact imageAt_writeImages hfits.2 (List.nodup_finRange 12) (List.mem_finRange i)
  have hnone : scan cfg i gid (MetaServer.boot.serveAll cfg (before ++ [slot])).app.mem
      (entriesNum cfg i (MetaServer.boot.serveAll cfg (before ++ [slot])).app.mem) = none := by
    refine scan_eq_none fun k hk => ?_
    have hlt := hk.trans_eq himage.count
    exact ne_of_lt_place (lt_of_lt_of_le hlt hlost) (imageAt_clones himage hlt)
  refine ⟨(.handle :: List.replicate n .memcpy) ++ [.readNum, .readEntries], ?_⟩
  rw [Run.exec_append, hrun]
  exact ⟨_, rfl, congrArg some hnone⟩

/-- A registration that does not keep the gid in its place can make the query fail. -/
theorem missed {before during : List Mem} {slot : Mem} {es : List EndPoint}
    (hadm : Run.Guarded (MetaImage.step cfg) (Admissible cfg) MetaServer.boot
      (before ++ [slot]))
    (h : Shown cfg i gid (State.idle cfg es before (slot :: during)) j)
    (hnot : ¬InPlace cfg i gid (MetaServer.boot.serveAll cfg before) slot) :
    ∃ events t, Run.exec (State.step cfg i gid) (State.idle cfg es before (slot :: during)) events =
      some t ∧ t.found = some none := by
  unfold InPlace at hnot
  cases hreq : MetaReq.decode cfg.layout slot with
  | register gid' port point =>
    have himage : imagePlace cfg i gid (MetaServer.boot.serveAll cfg before).app.mem = j :=
      imagePlace_eq h.first h.counted
    simp only [hreq, himage] at hnot
    rcases Nat.lt_or_ge j
        (place gid (newEntries cfg (MetaServer.boot.serveAll cfg before).app gid' point)) with
      hmoved | hle
    · exact missed_of_moved hadm h hreq hmoved
    · exact missed_of_lost hadm hreq (Nat.le_of_not_lt fun hlt => hnot ⟨hlt, hle⟩)
  | dummy | deregister | query | unknown =>
    rw [hreq] at hnot
    exact absurd trivial hnot

end Missed

/-! ## Exactly the registrations that keep the entry in its place -/

variable {cfg : MetaConfig} {i : Fin 12} {gid : Gid} {j : Nat}

/-- A handler that keeps the gid in its place leaves it in sight. -/
theorem Inv.exec_handler {all : List Mem} {s t : State} {n : Nat} (hs : Inv cfg i gid all s)
    (hadm : Run.Guarded (MetaImage.step cfg) (Admissible cfg) MetaServer.boot all)
    (hplace : ∀ slot queue, s.queue = slot :: queue →
      InPlace cfg i gid (MetaServer.boot.serveAll cfg s.handled) slot)
    (hrun : Run.exec (State.step cfg i gid) s (.handle :: List.replicate n .memcpy) = some t) :
    Inv cfg i gid all t := by
  obtain ⟨s₁, hhandle, hrest⟩ := Run.exec_cons_eq_some.mp hrun
  refine Run.exec_invariant_of_forall (Q := fun a => a = .memcpy) (fun s a s' ha hs h => ?_)
    (fun a ha => List.eq_of_mem_replicate ha) (hs.handle hadm hplace hhandle) hrest
  subst ha
  exact hs.memcpy h

end ConcurrentQuery
