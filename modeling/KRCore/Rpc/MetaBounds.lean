-- SUMMARY: What registrations write into the metadata images and what clients read of them, and when both stay in the regions.
import Mathlib.Data.Finset.Card
import KRCore.Base.MemRange
import KRCore.Rpc.MetaImage

/-!
# The bounds of the images

A registration copies the whole registry into each of the twelve regions of 4096 bytes,
entry by entry and without a look at the size. A client reads as many entries as the
image says. Every gid that is registered and not deregistered has an entry, so the bound
is one on the history of the requests: a region has room for 73.
-/

namespace MetaBounds

open MetaImage

variable {cfg : MetaConfig}

/-! ## What a registration copies -/

/-- A `memcpy` into the image in a region. -/
structure Memcpy where
  region : Fin 12
  addr : Nat
  bytes : List UInt8

def Memcpy.range (c : Memcpy) : MemRange := { addr := c.addr, len := c.bytes.length }

/-- The copies of the entries from number `idx` on. -/
def entryCopies (cfg : MetaConfig) (i : Fin 12) : Nat → List EndPoint → List Memcpy
  | _, [] => []
  | idx, e :: es =>
    { region := i
      addr := cfg.memPa i + 8 + idx * endPointSz
      bytes := cfg.layout.enc e.selfClone } :: entryCopies cfg i (idx + 1) es

/-- The copies for one region: the entries, and then their number. -/
def imageCopies (cfg : MetaConfig) (es : List EndPoint) (i : Fin 12) : List Memcpy :=
  entryCopies cfg i 0 es ++
    [{ region := i, addr := cfg.memPa i, bytes := Word.toBytes 8 es.length }]

/-- All copies that a request makes the server do. -/
def copies (cfg : MetaConfig) (s : MetaServer) : MetaReq → List Memcpy
  | .register gid _ point =>
    let info := s.info.insert (cfg.gidToStr gid) point.selfClone
    (List.finRange 12).flatMap
      (imageCopies cfg ((cfg.order s.registrations info).map Sigma.snd))
  | _ => []

def perform (cs : List Memcpy) (mem : Mem) : Mem :=
  cs.foldl (fun mem c => mem.write c.addr c.bytes) mem

theorem perform_append (cs cs' : List Memcpy) (mem : Mem) :
    perform (cs ++ cs') mem = perform cs' (perform cs mem) := List.foldl_append

theorem perform_entryCopies (i : Fin 12) (idx : Nat) (es : List EndPoint) (mem : Mem) :
    perform (entryCopies cfg i idx es) mem = writeEntries cfg.layout (cfg.memPa i) idx es mem := by
  induction es generalizing idx mem with
  | nil => rfl
  | cons e es ih => exact ih (idx + 1) _

theorem perform_imageCopies (es : List EndPoint) (is : List (Fin 12)) (mem : Mem) :
    perform (is.flatMap (imageCopies cfg es)) mem = writeImages cfg es is mem := by
  induction is generalizing mem with
  | nil => rfl
  | cons i is ih =>
    rw [List.flatMap_cons, perform_append, ih, imageCopies, perform_append, perform_entryCopies]
    rfl

/-- The copies are all that a request does to the images. -/
theorem apply_mem (s : MetaServer) (req : MetaReq) :
    (s.apply cfg req).mem = perform (copies cfg s req) s.mem := by
  cases req with
  | register gid port point => exact (perform_imageCopies _ _ _).symm
  | _ => rfl

/-! ## The bound for one request -/

/-- The memory that has been allocated for an image. -/
def region (cfg : MetaConfig) (i : Fin 12) : MemRange := { addr := cfg.memPa i, len := globalMemSz }

/-- Every byte that the request makes the server write lies in the region of its image. -/
def WritesInside (cfg : MetaConfig) (s : RpcServer MetaServer) (slot : Mem) : Prop :=
  ∀ c ∈ copies cfg s.app (MetaReq.decode cfg.layout slot), c.range.Inside (region cfg c.region)

/-- What a client reads of an image: the number of the entries, and that many entries. -/
def readRange (cfg : MetaConfig) (mem : Mem) (i : Fin 12) : MemRange where
  addr := cfg.memPa i
  len := 8 + Word.ofBytes (mem.read (cfg.memPa i) 8) * endPointSz

/-- Every byte that a client reads lies in the region of the image. -/
def ReadsInside (cfg : MetaConfig) (s : RpcServer MetaServer) : Prop :=
  ∀ i, (readRange cfg s.app.mem i).Inside (region cfg i)

/-- The number of entries that fit into a region. -/
def imageCapacity : Nat := 73

theorem image_fits_iff {n : Nat} : 8 + n * endPointSz ≤ globalMemSz ↔ n ≤ imageCapacity := by
  simp only [endPointSz, globalMemSz, imageCapacity]
  omega

theorem entryCopies_range (i : Fin 12) (idx : Nat) (es : List EndPoint) :
    (entryCopies cfg i idx es).map Memcpy.range =
      (List.range' idx es.length).map (MemRange.entry (cfg.memPa i + 8) endPointSz) := by
  induction es generalizing idx with
  | nil => rfl
  | cons e es ih =>
    rw [entryCopies, List.map_cons, ih, List.length_cons, List.range'_succ, List.map_cons]
    congr 1
    simp only [Memcpy.range, MemRange.entry, cfg.layout.enc_length]

theorem entryCopies_region {i : Fin 12} {idx : Nat} {es : List EndPoint} {c : Memcpy}
    (h : c ∈ entryCopies cfg i idx es) : c.region = i := by
  induction es generalizing idx with
  | nil => cases h
  | cons e es ih =>
    rcases List.mem_cons.mp h with rfl | h
    · rfl
    · exact ih h

/-- An image with entries lies in its region if there are not too many. -/
theorem imageCopies_inside_iff {es : List EndPoint} (hne : es ≠ []) (i : Fin 12) :
    (∀ c ∈ imageCopies cfg es i, c.range.Inside (region cfg c.region)) ↔
      es.length ≤ imageCapacity := by
  have hpos := List.length_pos_iff.mpr hne
  have hhead : (MemRange.mk (cfg.memPa i) (Word.toBytes 8 es.length).length).Inside
      (region cfg i) := by
    rw [MemRange.inside_iff, Word.toBytes_length]
    simp only [region, globalMemSz]
    omega
  have hentries : (∀ c ∈ entryCopies cfg i 0 es, c.range.Inside (region cfg c.region)) ↔
      ∀ k < es.length, (MemRange.entry (cfg.memPa i + 8) endPointSz k).Inside (region cfg i) := by
    have hregion : (∀ c ∈ entryCopies cfg i 0 es, c.range.Inside (region cfg c.region)) ↔
        ∀ c ∈ entryCopies cfg i 0 es, c.range.Inside (region cfg i) :=
      forall₂_congr fun c hc => by rw [entryCopies_region hc]
    rw [hregion,
      ← List.forall_mem_map (f := Memcpy.range) (P := fun r => r.Inside (region cfg i)),
      entryCopies_range, List.forall_mem_map, ← List.range_eq_range']
    simp only [List.mem_range]
  rw [imageCopies, List.forall_mem_append, hentries, List.forall_mem_singleton]
  rw [region, MemRange.forall_entry_inside_iff, image_fits_iff]
  constructor
  · rintro ⟨hzero | hfits, -⟩
    · simp only [endPointSz] at hzero
      omega
    · exact hfits
  · exact fun hfits => ⟨.inr hfits, hhead⟩

/-- A registration finds room for the registry with its gid. -/
def HasRoom (cfg : MetaConfig) (s : RpcServer MetaServer) (slot : Mem) : Prop :=
  match MetaReq.decode cfg.layout slot with
  | .register gid _ point =>
    (s.app.register cfg gid point).info.entries.length ≤ imageCapacity
  | _ => True

/-- The entries in the order in which a registration copies them. -/
theorem order_length (cfg : MetaConfig) (s : MetaServer) (gid : Gid) (point : EndPoint) :
    ((cfg.order s.registrations (s.info.insert (cfg.gidToStr gid) point.selfClone)).map
      Sigma.snd).length = (s.register cfg gid point).info.entries.length := by
  rw [List.length_map, (cfg.order_perm _ _).length_eq]
  rfl

theorem writesInside_iff (s : RpcServer MetaServer) (slot : Mem) :
    WritesInside cfg s slot ↔ HasRoom cfg s slot := by
  unfold WritesInside HasRoom
  cases hreq : MetaReq.decode cfg.layout slot with
  | register gid port point =>
    simp only [copies]
    generalize hes : (cfg.order s.app.registrations
      (s.app.info.insert (cfg.gidToStr gid) point.selfClone)).map Sigma.snd = es
    have hlen := order_length cfg s.app gid point
    rw [hes] at hlen
    -- The registry has at least the new entry.
    have hne : es ≠ [] := by
      have hget := MetaInfo.get_insert_self s.app.info (cfg.gidToStr gid) point.selfClone
      have hmem := List.length_pos_of_mem (MetaInfo.get_eq_some_iff.mp hget)
      rw [← List.length_pos_iff, hlen]
      exact hmem
    rw [← hlen, List.forall_mem_flatMap]
    constructor
    · intro h
      exact (imageCopies_inside_iff hne 0).mp (h 0 (List.mem_finRange 0))
    · intro h i _
      exact (imageCopies_inside_iff hne i).mpr h
  | dummy => simp [copies]
  | deregister gid => simp [copies]
  | query gid => simp [copies]
  | unknown => simp [copies]

/-! ## The images hold what fits -/

/-- All regions hold the same entries, and these fit. -/
def Held (cfg : MetaConfig) (s : RpcServer MetaServer) : Prop :=
  ∃ es : List EndPoint, es.length ≤ imageCapacity ∧
    ∀ i, ImageAt cfg.layout s.app.mem (cfg.memPa i) es

theorem Held.readsInside {s : RpcServer MetaServer} (h : Held cfg s) : ReadsInside cfg s := by
  obtain ⟨es, hlen, himage⟩ := h
  intro i
  rw [MemRange.inside_iff]
  refine .inr ⟨Nat.le_refl _, ?_⟩
  simp only [readRange, region, (himage i).count]
  have := image_fits_iff.mpr hlen
  omega

theorem Held.step {s s' : RpcServer MetaServer} {slot : Mem} (h : Held cfg s)
    (hroom : HasRoom cfg s slot) (hstep : MetaImage.step cfg s slot = some s') : Held cfg s' := by
  have happ := step_app hstep
  unfold HasRoom at hroom
  unfold Held
  rw [happ]
  cases hreq : MetaReq.decode cfg.layout slot with
  | register gid port point =>
    simp only [hreq] at hroom
    rw [← order_length] at hroom
    exact ⟨_, hroom, fun i => imageAt_writeImages (image_fits_iff.mpr hroom)
      (List.nodup_finRange 12) (List.mem_finRange i)⟩
  | dummy => exact h
  | deregister gid => exact h
  | query gid => exact h
  | unknown => exact h

/-! ## The registry and the history -/

/-- The keys that are registered after a request. -/
def keysNext (cfg : MetaConfig) (keys : Finset (List Char)) : MetaReq → Finset (List Char)
  | .register gid _ _ => insert (cfg.gidToStr gid) keys
  | .deregister gid => keys.erase (cfg.gidToStr gid)
  | _ => keys

/-- The keys that are registered after a history of requests. -/
def registeredKeys (cfg : MetaConfig) (keys : Finset (List Char)) (slots : List Mem) :
    Finset (List Char) :=
  slots.foldl (fun keys slot => keysNext cfg keys (MetaReq.decode cfg.layout slot)) keys

theorem registeredKeys_concat (keys : Finset (List Char)) (slots : List Mem) (slot : Mem) :
    registeredKeys cfg keys (slots ++ [slot]) =
      keysNext cfg (registeredKeys cfg keys slots) (MetaReq.decode cfg.layout slot) := by
  simp [registeredKeys, List.foldl_append]

def MetaInfo.keySet (info : MetaInfo) : Finset (List Char) := info.keys.toFinset

theorem keySet_card (info : MetaInfo) : (MetaInfo.keySet info).card = info.entries.length := by
  rw [MetaInfo.keySet, List.toFinset_card_of_nodup info.keys_nodup, AList.keys, List.keys,
    List.length_map]

theorem mem_keySet {info : MetaInfo} {key : List Char} :
    key ∈ MetaInfo.keySet info ↔ key ∈ info := by
  rw [MetaInfo.keySet, List.mem_toFinset]
  rfl

theorem keySet_apply (cfg : MetaConfig) (s : MetaServer) (req : MetaReq) :
    MetaInfo.keySet (s.apply cfg req).info = keysNext cfg (MetaInfo.keySet s.info) req := by
  cases req with
  | register gid port point =>
    ext key
    simp only [keysNext, MetaServer.apply, MetaServer.register, mem_keySet, AList.mem_insert,
      Finset.mem_insert]
  | deregister gid =>
    ext key
    simp only [keysNext, MetaServer.apply, MetaServer.deregister, mem_keySet, AList.mem_erase,
      Finset.mem_erase]
  | dummy => rfl
  | query gid => rfl
  | unknown => rfl

/-- The server with a registry, before its first request. -/
def bootWith (info : MetaInfo) : RpcServer MetaServer :=
  { MetaServer.boot with app := { MetaServer.boot.app with info } }

theorem keySet_exec {s t : RpcServer MetaServer} {slots : List Mem}
    (h : Run.exec (MetaImage.step cfg) s slots = some t) :
    MetaInfo.keySet t.app.info = registeredKeys cfg (MetaInfo.keySet s.app.info) slots := by
  induction slots generalizing s with
  | nil =>
    cases h
    rfl
  | cons slot slots ih =>
    obtain ⟨s₁, hstep, hrest⟩ := Run.exec_cons_eq_some.mp h
    rw [ih hrest, step_app hstep, keySet_apply]
    rfl

theorem exists_exec (cfg : MetaConfig) (s : RpcServer MetaServer) (slots : List Mem) :
    ∃ t, Run.exec (MetaImage.step cfg) s slots = some t := by
  induction slots generalizing s with
  | nil => exact ⟨s, rfl⟩
  | cons slot slots ih => exact ih _

/-- Whether a registration finds room depends on the history. -/
theorem hasRoom_iff {s : RpcServer MetaServer} {slot : Mem} {gid : Gid} {port : Nat}
    {point : EndPoint} (hreq : MetaReq.decode cfg.layout slot = .register gid port point) :
    HasRoom cfg s slot ↔
      (keysNext cfg (MetaInfo.keySet s.app.info) (.register gid port point)).card ≤
        imageCapacity := by
  have hkeys := keySet_apply cfg s.app (.register gid port point)
  unfold HasRoom
  rw [hreq, ← hkeys, keySet_card]
  rfl

theorem guarded_hasRoom_iff (s : RpcServer MetaServer) (slots : List Mem) :
    Run.Guarded (MetaImage.step cfg) (HasRoom cfg) s slots ↔
      ∀ pre slot gid port point, pre ++ [slot] <+: slots →
        MetaReq.decode cfg.layout slot = .register gid port point →
        (registeredKeys cfg (MetaInfo.keySet s.app.info) (pre ++ [slot])).card ≤ imageCapacity := by
  constructor
  · intro h pre slot gid port point hpre hreq
    obtain ⟨t, ht⟩ := exists_exec cfg s pre
    have hroom := (hasRoom_iff hreq).mp (h pre slot t _ hpre ht rfl)
    rwa [keySet_exec ht, ← hreq, ← registeredKeys_concat] at hroom
  · intro h pre slot t t' hpre ht hstep
    cases hreq : MetaReq.decode cfg.layout slot with
    | register gid port point =>
      rw [hasRoom_iff hreq, keySet_exec ht, ← hreq, ← registeredKeys_concat]
      exact h pre slot gid port point hpre hreq
    | _ => simp [HasRoom, hreq]

theorem held_boot (info : MetaInfo) : Held cfg (bootWith info) := by
  obtain ⟨es, hperm, himage⟩ := @holds_boot cfg
  have hes : es = [] := hperm.eq_nil
  subst hes
  exact ⟨[], Nat.zero_le _, himage⟩

/-- For every registry to begin with and every sequence of requests: all writes and all reads
    of the images stay in the regions if and only if no registration leads to more than 73
    gids that are registered at the same time. -/
theorem images_inside_iff (cfg : MetaConfig) (info : MetaInfo) (slots : List Mem) :
    (Run.Guarded (MetaImage.step cfg) (WritesInside cfg) (bootWith info) slots ∧
        Run.Always (MetaImage.step cfg) (ReadsInside cfg) (bootWith info) slots) ↔
      ∀ pre slot gid port point, pre ++ [slot] <+: slots →
        MetaReq.decode cfg.layout slot = .register gid port point →
        (registeredKeys cfg (MetaInfo.keySet info) (pre ++ [slot])).card ≤ imageCapacity := by
  rw [Run.guarded_congr fun s slot _ _ => writesInside_iff s slot]
  rw [guarded_hasRoom_iff]
  refine and_iff_left_of_imp fun hroom => ?_
  have hguard := (guarded_hasRoom_iff (bootWith info) slots).mpr hroom
  have hheld := Run.always_of_guarded (I := Held cfg) (fun _ _ _ h hC hstep => h.step hC hstep)
    (held_boot info) hguard
  exact fun pre t hpre hrun => (hheld pre t hpre hrun).readsInside

/-! ## Too many nodes -/

/-- The registration of the node with gid `k`. -/
def registerNode (k : Nat) : Mem := registerSlot EndPointLayout.packed (BitVec.ofNat 128 k) 0 nodeOne

theorem decode_registerNode (k : Nat) :
    MetaReq.decode MetaConfig.sample.layout (registerNode k) =
      .register (BitVec.ofNat 128 k) 0 nodeOne :=
  decode_register EndPointLayout.packed (BitVec.ofNat 128 k) (by decide) nodeOne

theorem registeredKeys_nodes (n : Nat) :
    registeredKeys MetaConfig.sample ∅ ((List.range n).map registerNode) =
      ((List.range n).map fun k => MetaConfig.sample.gidToStr (BitVec.ofNat 128 k)).toFinset := by
  induction n with
  | zero => rfl
  | succ n ih =>
    rw [List.range_succ, List.map_append, List.map_append, List.map_singleton, List.map_singleton,
      registeredKeys_concat, ih, decode_registerNode, List.toFinset_append, keysNext,
      Finset.insert_eq, Finset.union_comm]
    rfl

theorem registeredKeys_nodes_card {n : Nat} (hn : n ≤ 2 ^ 128) :
    (registeredKeys MetaConfig.sample ∅ ((List.range n).map registerNode)).card = n := by
  rw [registeredKeys_nodes, List.toFinset_card_of_nodup, List.length_map, List.length_range]
  refine List.Nodup.map_on ?_ List.nodup_range
  intro i hi j hj heq
  rw [List.mem_range] at hi hj
  have hlen := congrArg List.length heq
  simp only [MetaConfig.sample, List.length_replicate, BitVec.toNat_ofNat] at hlen
  rwa [Nat.mod_eq_of_lt (Nat.lt_of_lt_of_le hi hn),
    Nat.mod_eq_of_lt (Nat.lt_of_lt_of_le hj hn)] at hlen

/-- When node number 74 registers, its entry is written behind the end of the region. -/
theorem registration_writes_outside :
    ∃ s c, Run.exec (MetaImage.step MetaConfig.sample) (bootWith ∅)
        ((List.range 73).map registerNode) = some s ∧
      c ∈ copies MetaConfig.sample s.app
        (MetaReq.decode MetaConfig.sample.layout (registerNode 73)) ∧
      c.range.Apart (region MetaConfig.sample c.region) := by
  obtain ⟨s, hs⟩ := exists_exec MetaConfig.sample (bootWith ∅)
    ((List.range 73).map registerNode)
  have hkeys := registeredKeys_nodes_card (n := 74) (by decide)
  rw [List.range_succ, List.map_append, List.map_singleton, registeredKeys_concat,
    decode_registerNode] at hkeys
  have hlen : (s.app.register MetaConfig.sample (BitVec.ofNat 128 73) nodeOne).info.entries.length =
      74 := by
    rw [← keySet_card, ← hkeys]
    have happ := keySet_apply MetaConfig.sample s.app
      (.register (BitVec.ofNat 128 73) 0 nodeOne)
    rw [keySet_exec hs] at happ
    exact congrArg Finset.card happ
  rw [← order_length] at hlen
  rw [decode_registerNode]
  generalize hes : (MetaConfig.sample.order s.app.registrations
    (s.app.info.insert (MetaConfig.sample.gidToStr (BitVec.ofNat 128 73)) nodeOne.selfClone)).map
      Sigma.snd = es at hlen
  have hmem : MemRange.entry (MetaConfig.sample.memPa 0 + 8) endPointSz 73 ∈
      (entryCopies MetaConfig.sample 0 0 es).map Memcpy.range := by
    rw [entryCopies_range, hlen]
    exact List.mem_map_of_mem (by decide)
  obtain ⟨c, hc, hrange⟩ := List.mem_map.mp hmem
  refine ⟨s, c, hs, ?_, ?_⟩
  · simp only [copies, hes]
    exact List.mem_flatMap.mpr ⟨0, List.mem_finRange 0, List.mem_append_left _ hc⟩
  · rw [hrange, entryCopies_region hc, MemRange.apart_iff]
    decide

end MetaBounds
