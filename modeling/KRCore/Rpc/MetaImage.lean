-- SUMMARY: When the one-sided query of the metadata images agrees with the RPC query of the registry.
import KRCore.Base.Run
import KRCore.Rpc.Protocol

/-!
# The images of the registry

A registration writes the whole registry into every region; a deregistration
changes the map only. The invariant is that the regions hold the registry as the
last registration left it. `lookups_agree_iff` says for every sequence of
requests when the two ways of looking a gid up agree.
-/

namespace MetaImage

/-! ## Writing and reading an image -/

section Image

variable {L : EndPointLayout} {base : Nat}

theorem writeEntries_of_outside {idx a : Nat} {es : List EndPoint} {mem : Mem}
    (h : a < base + 8 + idx * endPointSz ∨ base + 8 + (idx + es.length) * endPointSz ≤ a) :
    writeEntries L base idx es mem a = mem a := by
  induction es generalizing idx mem with
  | nil => rfl
  | cons e es ih =>
    simp only [List.length_cons, endPointSz] at h
    rw [writeEntries, ih (by simp only [endPointSz]; omega), Mem.write_of_outside]
    simp only [L.enc_length, endPointSz]
    omega

/-- Every entry is found where it was written. -/
theorem writeEntries_read (idx : Nat) (mem : Mem) {j : Nat} {es : List EndPoint} {e : EndPoint}
    (h : es[j]? = some e) :
    (writeEntries L base idx es mem).read (base + 8 + (idx + j) * endPointSz) endPointSz =
      L.enc e.selfClone := by
  induction es generalizing idx j mem with
  | nil => cases h
  | cons e' es ih =>
    rw [writeEntries]
    cases j with
    | zero =>
      cases h
      have hkeep : (writeEntries L base (idx + 1) es
          (mem.write (base + 8 + idx * endPointSz) (L.enc e.selfClone))).read
            (base + 8 + idx * endPointSz) endPointSz =
          (mem.write (base + 8 + idx * endPointSz) (L.enc e.selfClone)).read
            (base + 8 + idx * endPointSz) endPointSz := by
        rw [Mem.read_eq_read_iff]
        intro k hk
        refine writeEntries_of_outside (.inl ?_)
        simp only [endPointSz] at hk ⊢
        omega
      have hsz := L.enc_length e.selfClone
      change (writeEntries L base (idx + 1) es _).read (base + 8 + idx * endPointSz) _ = _
      rw [hkeep, Mem.read_write_take hsz.ge, List.take_of_length_le hsz.le]
    | succ j =>
      have := ih (idx + 1) (mem.write (base + 8 + idx * endPointSz) (L.enc e'.selfClone)) h
      rwa [show idx + 1 + j = idx + (j + 1) by omega] at this

/-- The region at `base` holds the entries `es`. -/
structure ImageAt (L : EndPointLayout) (mem : Mem) (base : Nat) (es : List EndPoint) : Prop where
  count : Word.ofBytes (mem.read base 8) = es.length
  entry : ∀ j e, es[j]? = some e → L.readAt mem (base + 8 + j * endPointSz) = e.selfClone

theorem imageAt_writeImage {es : List EndPoint} {mem : Mem} (h : es.length < 256 ^ 8) :
    ImageAt L (writeImage L base es mem) base es where
  count := by
    rw [writeImage, Mem.read_write_take (by simp), List.take_of_length_le (by simp),
      Word.ofBytes_toBytes_of_lt h]
  entry j e hj := by
    refine EndPointLayout.readAt_of_read ?_
    rw [writeImage, Mem.read_write_of_disjoint (.inr (by simp))]
    simpa only [Nat.zero_add] using writeEntries_read 0 mem hj

theorem writeImage_of_outside {a : Nat} {es : List EndPoint} {mem : Mem}
    (h : a < base ∨ base + 8 + es.length * endPointSz ≤ a) :
    writeImage L base es mem a = mem a := by
  rw [writeImage, Mem.write_of_outside (by simp; omega), writeEntries_of_outside]
  simpa using by omega

/-- An image only depends on the region it lies in. -/
theorem ImageAt.congr {mem mem' : Mem} {es : List EndPoint} (h : ImageAt L mem base es)
    (hsame : ∀ a, base ≤ a → a < base + 8 + es.length * endPointSz → mem' a = mem a) :
    ImageAt L mem' base es where
  count := by
    rw [← h.count, Mem.read_eq_read_iff.mpr]
    intro j hj
    exact hsame _ (by omega) (by omega)
  entry j e hj := by
    have hlt : j < es.length := (List.getElem?_eq_some_iff.mp hj).1
    rw [← h.entry j e hj, EndPointLayout.readAt, EndPointLayout.readAt, Mem.read_eq_read_iff.mpr]
    intro k hk
    refine hsame _ (by omega) ?_
    simp only [endPointSz] at hk ⊢
    omega

/-- The query scans the entries. -/
theorem ImageAt.queryDctMeta_eq_some {mem : Mem} {es : List EndPoint} {gid : Gid} {p : EndPoint}
    (h : ImageAt L mem base es) (hq : queryDctMeta L mem base gid = some p) :
    ∃ e ∈ es, e.gid = gid ∧ p = e.selfClone := by
  obtain ⟨j, hj, hfound⟩ := List.exists_of_findSome?_eq_some hq
  rw [h.count, List.mem_range] at hj
  have hentry := h.entry j es[j] (List.getElem?_eq_getElem hj)
  simp only [hentry, EndPoint.selfClone_gid, EndPoint.selfClone_selfClone] at hfound
  split at hfound
  · rename_i hgid
    exact ⟨es[j], List.getElem_mem hj, hgid, (Option.some.inj hfound).symm⟩
  · cases hfound

theorem ImageAt.queryDctMeta_isSome {mem : Mem} {es : List EndPoint} {gid : Gid} {e : EndPoint}
    (h : ImageAt L mem base es) (he : e ∈ es) (hgid : e.gid = gid) :
    (queryDctMeta L mem base gid).isSome = true := by
  obtain ⟨j, hj⟩ := List.mem_iff_getElem?.mp he
  have hlt : j < es.length := (List.getElem?_eq_some_iff.mp hj).1
  rw [queryDctMeta, List.findSome?_isSome_iff]
  exact ⟨j, by rw [h.count]; exact List.mem_range.mpr hlt, by simp [h.entry j e hj, hgid]⟩

end Image

/-! ## All regions -/

/-- Every region holds the entries of the registry `snap`, in some order. -/
def Holds (cfg : MetaConfig) (mem : Mem) (snap : MetaInfo) : Prop :=
  ∃ es : List EndPoint, es.Perm (snap.entries.map Sigma.snd) ∧
    ∀ i, ImageAt cfg.layout mem (cfg.memPa i) es

theorem imageAt_writeImages {cfg : MetaConfig} {es : List EndPoint} {is : List (Fin 12)} {i : Fin 12}
    {mem : Mem} (hfit : 8 + es.length * endPointSz ≤ globalMemSz) (hnodup : is.Nodup)
    (hi : i ∈ is) : ImageAt cfg.layout (writeImages cfg es is mem) (cfg.memPa i) es := by
  -- Later regions do not touch an image that is there.
  have hkeep : ∀ (is : List (Fin 12)) (mem : Mem), i ∉ is →
      ImageAt cfg.layout mem (cfg.memPa i) es →
      ImageAt cfg.layout (writeImages cfg es is mem) (cfg.memPa i) es := by
    intro is
    induction is with
    | nil => exact fun _ _ h => h
    | cons k is ih =>
      intro mem hnot h
      rw [List.mem_cons, not_or] at hnot
      refine ih _ hnot.2 (h.congr fun a hlo hhi => writeImage_of_outside ?_)
      have := cfg.apart i k hnot.1
      omega
  induction is generalizing mem with
  | nil => cases hi
  | cons k is ih =>
    rw [List.nodup_cons] at hnodup
    rw [writeImages]
    by_cases hk : i = k
    · subst hk
      refine hkeep is _ hnodup.1 (imageAt_writeImage ?_)
      simp only [globalMemSz, endPointSz] at hfit
      omega
    · exact ih hnodup.2 ((List.mem_cons.mp hi).resolve_left hk)

/-! ## Lookups -/

/-- Endpoints are registered under their own gid. -/
def Keyed (cfg : MetaConfig) (info : MetaInfo) : Prop :=
  ∀ key p, info.get key = some p → key = cfg.gidToStr p.gid

/-- The RPC query for a gid: `query_dc_meta_handler` and what the caller makes of
    its reply. Length 0 says that there is no entry. -/
def rpcLookup (cfg : MetaConfig) (s : MetaServer) (gid : Gid) : Option EndPoint :=
  let out := queryDcMetaHandler cfg s (Mem.write (fun _ => 0) 0 (Word.toBytes 16 gid.toNat)) 0
    (fun _ => 0)
  if out.2.2 = 0 then none else some (cfg.layout.readAt out.2.1 0)

theorem rpcLookup_eq (cfg : MetaConfig) (s : MetaServer) (gid : Gid) :
    rpcLookup cfg s gid = (s.info.get (cfg.gidToStr gid)).map EndPoint.selfClone := by
  have hgid : readGid (Mem.write (fun _ => 0) 0 (Word.toBytes 16 gid.toNat)) 0 = gid := by
    refine readGid_toBytes ?_
    rw [Mem.read_write_take (by simp), List.take_of_length_le (by simp)]
  simp only [rpcLookup, queryDcMetaHandler, hgid]
  cases s.info.get (cfg.gidToStr gid) with
  | none => rfl
  | some p =>
    have hread : (Mem.write (fun _ => 0) 0 (cfg.layout.enc p.selfClone)).read 0 endPointSz =
        cfg.layout.enc p.selfClone := by
      rw [← cfg.layout.enc_length p.selfClone, Mem.read_write_self]
    simp [EndPointLayout.readAt_of_read hread, endPointSz]

/-- The one-sided query finds what the registry in the images has. -/
theorem Holds.queryDctMeta_eq {cfg : MetaConfig} (hinj : Function.Injective cfg.gidToStr) {mem : Mem}
    {snap : MetaInfo} (h : Holds cfg mem snap) (hkeyed : Keyed cfg snap) (i : Fin 12) (gid : Gid) :
    queryDctMeta cfg.layout mem (cfg.memPa i) gid =
      (snap.get (cfg.gidToStr gid)).map EndPoint.selfClone := by
  obtain ⟨es, hperm, himage⟩ := h
  -- An entry with the gid is the one registered under it.
  have hentry : ∀ e ∈ es, e.gid = gid → snap.get (cfg.gidToStr gid) = some e := by
    intro e he hgid
    obtain ⟨⟨key, e'⟩, hmem, rfl⟩ := List.mem_map.mp (hperm.subset he)
    have hlook : snap.get key = some e' := MetaInfo.get_eq_some_iff.mpr hmem
    have hkey := hkeyed key e' hlook
    rw [← hgid, ← hkey]
    exact hlook
  generalize hq : queryDctMeta cfg.layout mem (cfg.memPa i) gid = found
  cases found with
  | some p =>
    obtain ⟨e, he, hgid, rfl⟩ := (himage i).queryDctMeta_eq_some hq
    rw [hentry e he hgid]
    rfl
  | none =>
    cases hlook : snap.get (cfg.gidToStr gid) with
    | none => rfl
    | some p =>
      have hmem : p ∈ es := by
        refine hperm.symm.subset (List.mem_map.mpr ⟨⟨_, p⟩, MetaInfo.get_eq_some_iff.mp hlook, rfl⟩)
      have hsome := (himage i).queryDctMeta_isSome hmem (hinj (hkeyed _ _ hlook)).symm
      rw [hq] at hsome
      cases hsome

/-! ## Sequences of requests -/

variable {cfg : MetaConfig}

def step (cfg : MetaConfig) (s : RpcServer MetaServer) (slot : Mem) :
    Option (RpcServer MetaServer) :=
  some (RpcServer.handleOne cfg.layout (metaHandlers cfg) slot s).1

/-- Both queries find the same for every gid, in every region. -/
def Agree (cfg : MetaConfig) (s : RpcServer MetaServer) : Prop :=
  ∀ i gid, queryDctMeta cfg.layout s.app.mem (cfg.memPa i) gid = rpcLookup cfg s.app gid

/-- A registration carries the same gid twice, and the registry with it fits
    into a region. -/
def Admissible (cfg : MetaConfig) (s : RpcServer MetaServer) (slot : Mem) : Prop :=
  match MetaReq.decode cfg.layout slot with
  | .register gid _ point => point.gid = gid ∧
      8 + (s.app.register cfg gid point).info.entries.length * endPointSz ≤ globalMemSz
  | _ => True

/-- The request does not deregister a gid that is registered. -/
def Keeps (cfg : MetaConfig) (s : RpcServer MetaServer) (slot : Mem) : Prop :=
  match MetaReq.decode cfg.layout slot with
  | .deregister gid => s.app.info.get (cfg.gidToStr gid) = none
  | _ => True

/-- The images hold a registry that the map is a part of. -/
def Published (cfg : MetaConfig) (s : MetaServer) : Prop :=
  ∃ snap, Holds cfg s.mem snap ∧ Keyed cfg snap ∧
    ∀ key p, s.info.get key = some p → snap.get key = some p

theorem agree_of_holds_info (hinj : Function.Injective cfg.gidToStr) {s : RpcServer MetaServer}
    (h : Holds cfg s.app.mem s.app.info) (hkeyed : Keyed cfg s.app.info) : Agree cfg s := by
  intro i gid
  rw [h.queryDctMeta_eq hinj hkeyed, rpcLookup_eq]

theorem keyed_insert {info : MetaInfo} {gid : Gid} {point : EndPoint} (h : Keyed cfg info)
    (hgid : point.gid = gid) :
    Keyed cfg (info.insert (cfg.gidToStr gid) point.selfClone) := by
  intro key p hp
  by_cases hkey : key = cfg.gidToStr gid
  · subst hkey
    rw [MetaInfo.get_insert_self] at hp
    cases hp
    rw [EndPoint.selfClone_gid, hgid]
  · rw [MetaInfo.get_insert_of_ne _ hkey] at hp
    exact h key p hp

theorem Published.keyed {s : MetaServer} (h : Published cfg s) : Keyed cfg s.info := by
  obtain ⟨snap, -, hkeyed, hpart⟩ := h
  exact fun key p hp => hkeyed key p (hpart key p hp)

/-- A registration publishes the map. -/
theorem Published.register {s : MetaServer} (h : Published cfg s) {gid : Gid} {point : EndPoint}
    (hgid : point.gid = gid)
    (hfit : 8 + (s.register cfg gid point).info.entries.length * endPointSz ≤ globalMemSz) :
    Holds cfg (s.register cfg gid point).mem (s.register cfg gid point).info ∧
      Keyed cfg (s.register cfg gid point).info := by
  refine ⟨⟨_, (cfg.order_perm s.registrations _).map Sigma.snd, fun i => ?_⟩,
    keyed_insert h.keyed hgid⟩
  refine imageAt_writeImages ?_ (List.nodup_finRange 12) (List.mem_finRange i)
  rwa [List.length_map, (cfg.order_perm s.registrations _).length_eq]

/-- A deregistration leaves the images and takes from the map. -/
theorem Published.deregister {s : MetaServer} (h : Published cfg s) (gid : Gid) :
    Published cfg (s.deregister cfg gid) := by
  obtain ⟨snap, hholds, hkeyed, hpart⟩ := h
  refine ⟨snap, hholds, hkeyed, fun key p hp => hpart key p ?_⟩
  by_cases hkey : key = cfg.gidToStr gid
  · subst hkey
    rw [MetaServer.deregister, MetaInfo.get_erase_self] at hp
    cases hp
  · rwa [MetaServer.deregister, MetaInfo.get_erase_of_ne hkey] at hp

theorem step_app {s s' : RpcServer MetaServer} {slot : Mem} (h : step cfg s slot = some s') :
    s'.app = s.app.apply cfg (MetaReq.decode cfg.layout slot) := by
  cases h
  rw [handleOne_meta]

theorem Published.step {s s' : RpcServer MetaServer} {slot : Mem} (hpub : Published cfg s.app)
    (hadm : Admissible cfg s slot) (h : step cfg s slot = some s') : Published cfg s'.app := by
  rw [step_app h]
  unfold Admissible at hadm
  cases hreq : MetaReq.decode cfg.layout slot with
  | register gid port point =>
    rw [hreq] at hadm
    obtain ⟨hholds, hkeyed⟩ := hpub.register hadm.1 hadm.2
    exact ⟨_, hholds, hkeyed, fun _ _ hp => hp⟩
  | deregister gid => exact hpub.deregister gid
  | dummy => exact hpub
  | query gid => exact hpub
  | unknown => exact hpub

/-- A registration makes the queries agree. -/
theorem agree_of_register (hinj : Function.Injective cfg.gidToStr) {s s' : RpcServer MetaServer}
    {slot : Mem} {gid : Gid} {port : Nat} {point : EndPoint} (hpub : Published cfg s.app)
    (hadm : Admissible cfg s slot) (hreq : MetaReq.decode cfg.layout slot = .register gid port point)
    (h : step cfg s slot = some s') : Agree cfg s' := by
  simp only [Admissible, hreq] at hadm
  obtain ⟨hholds, hkeyed⟩ := hpub.register hadm.1 hadm.2
  have happ : s'.app = s.app.register cfg gid point := by rw [step_app h, hreq]; rfl
  exact agree_of_holds_info hinj (by rwa [happ]) (by rwa [happ])

/-- A deregistration keeps the queries in agreement exactly if it is void. -/
theorem agree_deregister_iff {s s' : RpcServer MetaServer} {gid : Gid} (hagree : Agree cfg s)
    (happ : s'.app = s.app.deregister cfg gid) :
    Agree cfg s' ↔ s.app.info.get (cfg.gidToStr gid) = none := by
  constructor
  · intro hagree'
    -- The image still has the gid; the map has not.
    have himage : rpcLookup cfg s.app gid = rpcLookup cfg s'.app gid := by
      rw [← hagree 0 gid, ← hagree' 0 gid, happ]
      rfl
    rw [rpcLookup_eq, rpcLookup_eq, happ, MetaServer.deregister, MetaInfo.get_erase_self] at himage
    simpa using himage
  · intro hnone i gid'
    have hsame : rpcLookup cfg s'.app gid' = rpcLookup cfg s.app gid' := by
      rw [rpcLookup_eq, rpcLookup_eq, happ, MetaServer.deregister]
      by_cases hkey : cfg.gidToStr gid' = cfg.gidToStr gid
      · rw [hkey, MetaInfo.get_erase_self, hnone]
      · rw [MetaInfo.get_erase_of_ne hkey]
    rw [hsame, happ]
    exact hagree i gid'

theorem agree_step (hinj : Function.Injective cfg.gidToStr) {s s' : RpcServer MetaServer}
    {slot : Mem} (hpub : Published cfg s.app) (hagree : Agree cfg s) (hadm : Admissible cfg s slot)
    (h : step cfg s slot = some s') : Agree cfg s' ↔ Keeps cfg s slot := by
  have happ := step_app h
  unfold Keeps
  cases hreq : MetaReq.decode cfg.layout slot with
  | register gid port point =>
    exact iff_of_true (agree_of_register hinj hpub hadm hreq h) trivial
  | deregister gid => exact agree_deregister_iff hagree (by rw [happ, hreq]; rfl)
  | dummy => exact iff_of_true (by unfold Agree; rw [happ, hreq]; exact hagree) trivial
  | query gid => exact iff_of_true (by unfold Agree; rw [happ, hreq]; exact hagree) trivial
  | unknown => exact iff_of_true (by unfold Agree; rw [happ, hreq]; exact hagree) trivial

theorem holds_boot : Holds cfg MetaServer.boot.app.mem MetaServer.boot.app.info := by
  refine ⟨[], List.Perm.refl _, fun i => ⟨?_, fun j e h => by cases h⟩⟩
  rw [show MetaServer.boot.app.mem.read (cfg.memPa i) 8 = List.replicate 8 0 from rfl]
  rfl

theorem keyed_boot : Keyed cfg MetaServer.boot.app.info := by
  intro key p hp
  cases hp

theorem published_boot : Published cfg MetaServer.boot.app :=
  ⟨_, holds_boot, keyed_boot, fun _ _ hp => hp⟩

/-- For every sequence of admissible requests: the queries always agree exactly
    if no request deregisters a registered gid. After a registration they agree
    in any case. -/
theorem lookups_agree_iff (cfg : MetaConfig) (hinj : Function.Injective cfg.gidToStr)
    (slots : List Mem) (hadm : Run.Guarded (step cfg) (Admissible cfg) MetaServer.boot slots) :
    (Run.Always (step cfg) (Agree cfg) MetaServer.boot slots ↔
      Run.Guarded (step cfg) (Keeps cfg) MetaServer.boot slots) ∧
    ∀ pre slot s gid port point, pre ++ [slot] <+: slots →
      MetaReq.decode cfg.layout slot = .register gid port point →
      Run.exec (step cfg) MetaServer.boot (pre ++ [slot]) = some s → Agree cfg s := by
  have hiff : Run.Always (step cfg) (Agree cfg) MetaServer.boot slots ↔
      Run.Guarded (step cfg) (Keeps cfg) MetaServer.boot slots :=
    Run.always_iff_guarded_under (I := fun s => Published cfg s.app) (D := Admissible cfg)
      (fun _ _ _ hpub hc h _ => hpub.step hc h)
      (fun _ _ _ hpub hagree hc h => agree_step hinj hpub hagree hc h) published_boot
      (agree_of_holds_info hinj holds_boot keyed_boot) hadm
  refine ⟨hiff, ?_⟩
  intro pre slot s gid port point hpre hreq hrun
  obtain ⟨s₁, hrun₁, hstep⟩ := Run.exec_concat_eq_some.mp hrun
  have hall := Run.always_of_guarded (I := fun s => Published cfg s.app)
    (fun _ _ _ hpub hc h => hpub.step hc h) published_boot hadm
  have hpub := hall pre s₁ ((List.prefix_append _ _).trans hpre) hrun₁
  exact agree_of_register hinj hpub (hadm pre slot s₁ s hpre hrun₁ hstep) hreq hstep

/-- Node 1 registers and deregisters again. -/
def comeAndGo : List Mem := [registerSlot EndPointLayout.packed 1 0 nodeOne, deregisterSlot 1]

/-- After it has deregistered, node 1 is still found in every region, but not by
    the RPC query. -/
theorem stale_image_after_deregister :
    ∃ s, Run.exec (step MetaConfig.sample) MetaServer.boot comeAndGo = some s ∧
      (∀ i, queryDctMeta EndPointLayout.packed s.app.mem (MetaConfig.sample.memPa i) 1 =
        some nodeOne) ∧
      rpcLookup MetaConfig.sample s.app 1 = none ∧ ¬ Agree MetaConfig.sample s := by
  refine ⟨_, rfl, by decide +kernel, by decide +kernel, fun hagree => ?_⟩
  exact absurd (hagree 0 1) (by decide +kernel)

/-- Node 1 registers. -/
def comes : List Mem := [registerSlot EndPointLayout.packed 1 0 nodeOne]

/-- The registration of node 1 deregisters nobody, and so the queries agree before and
    after it. -/
theorem lookups_agree_iff_register :
    Function.Injective MetaConfig.sample.gidToStr ∧
      Run.Guarded (step MetaConfig.sample) (Admissible MetaConfig.sample) MetaServer.boot comes ∧
      Run.Guarded (step MetaConfig.sample) (Keeps MetaConfig.sample) MetaServer.boot comes ∧
      Run.Always (step MetaConfig.sample) (Agree MetaConfig.sample) MetaServer.boot comes := by
  have hreq : MetaReq.decode MetaConfig.sample.layout
      (registerSlot EndPointLayout.packed 1 0 nodeOne) = .register 1 0 nodeOne :=
    decode_register EndPointLayout.packed 1 (by decide) nodeOne
  have hinj : Function.Injective MetaConfig.sample.gidToStr := by
    intro a b h
    have hlen := congrArg List.length h
    simpa [MetaConfig.sample, BitVec.toNat_inj] using hlen
  have hadm : Run.Guarded (step MetaConfig.sample) (Admissible MetaConfig.sample) MetaServer.boot
      comes := by
    refine Run.guarded_cons_of_step rfl ?_ Run.guarded_nil
    simp only [Admissible, hreq]
    decide
  have hkeeps : Run.Guarded (step MetaConfig.sample) (Keeps MetaConfig.sample) MetaServer.boot
      comes := by
    refine Run.guarded_cons_of_step rfl ?_ Run.guarded_nil
    simp only [Keeps, hreq]
  exact ⟨hinj, hadm, hkeeps, (lookups_agree_iff MetaConfig.sample hinj comes hadm).1.mpr hkeeps⟩

end MetaImage
