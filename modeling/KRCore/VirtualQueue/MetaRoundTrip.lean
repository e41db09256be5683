-- SUMMARY: The images of the registry, written by the metadata server and read back by a client with two READs.
import KRCore.Rpc.MetaBounds
import KRCore.VirtualQueue.MetaRead

/-!
# Round trip of the registry

The server writes the registry into its regions and a client copies an image into
its buffer and looks a gid up there. Successful READs make this the same as looking
at the image in place, and an image that fits its region is the registry. One that
does not fit is torn by the next image, if the regions lie one behind the other.
`meta_round_trip_iff` says for every registry when this holds wherever the regions
lie.
-/

namespace MetaRoundTrip

open MetaBounds MetaImage MetaRead

/-! ## Two successful READs -/

/-- The loop over entries `f` for which no address overflows. -/
theorem scan_eq_findSome {q : QueryCfg} {mem : Mem} {gid : Gid} {f : Nat → EndPoint} {n i : Nat}
    (hfit : (i + n) * endPointSz ≤ maxKmallocSz)
    (hf : ∀ j, i ≤ j → j < i + n → q.entry mem j = f j) :
    q.scan mem gid n i = some ((List.range' i n).findSome? fun j =>
      if (f j).gid = gid then some (f j).selfClone else none) := by
  induction n generalizing i with
  | zero => rfl
  | succ n ih =>
    have hrest := ih (i := i + 1) (by rw [Nat.add_right_comm]; exact hfit)
      (fun j hij hj => hf j (by omega) (by omega))
    have hva := q.va_fits
    simp only [endPointSz, maxKmallocSz] at hfit hva
    rw [QueryCfg.scan_succ, if_pos (by simp only [endPointSz]; omega), hrest,
      hf i (Nat.le_refl i) (by omega), List.range'_succ, List.findSome?_cons]
    split <;> rfl

/-- An entry that lies in what the second READ brings. -/
theorem entry_buffer {q : QueryCfg} {remote mem : Mem} {i : Nat}
    (hi : (i + 1) * endPointSz ≤ q.imageCount remote * endPointSz % 2 ^ 32) :
    q.entry (q.buffer remote mem .success .success) i =
      q.layout.readAt remote (q.kvPa + 8 + i * endPointSz) := by
  rw [Nat.succ_mul] at hi
  rw [QueryCfg.buffer, QueryCfg.afterList, QueryCfg.entriesNum_afterHead_success,
    ReadOutcome.land, QueryCfg.entry, EndPointLayout.readAt, EndPointLayout.readAt]
  congr 1
  exact Mem.read_write_read hi

/-- A client that gets the whole image finds what is in it. -/
theorem queryDctMeta_success {q : QueryCfg} {remote : Mem} {text : List Char} {gid : Gid}
    (htext : q.strToGid text = some gid) (hfit : q.imageCount remote * endPointSz ≤ maxKmallocSz)
    (mem : Mem) :
    q.queryDctMeta remote mem text .success .success =
      some (queryDctMeta q.layout remote q.kvPa gid) := by
  have hlen : q.imageCount remote * endPointSz < 2 ^ 32 :=
    Nat.lt_of_le_of_lt hfit (by decide)
  have hfit' : (0 + q.imageCount remote) * endPointSz ≤ maxKmallocSz := by
    rw [Nat.zero_add]
    exact hfit
  rw [QueryCfg.queryDctMeta_eq htext, QueryCfg.entriesNum_afterHead_success,
    if_pos (Nat.lt_trans hlen (by decide)),
    scan_eq_findSome hfit' fun j _ hj => entry_buffer ?_, ← List.range_eq_range']
  · rfl
  · rw [Nat.mod_eq_of_lt hlen]
    exact Nat.mul_le_mul_right endPointSz (by omega)

/-! ## Registries that fit -/

/-- The endpoints in the order in which the handler comes to them. -/
def listed (cfg : MetaConfig) (n : Nat) (info : MetaInfo) : List EndPoint :=
  (cfg.order n info).map Sigma.snd

/-- The memory of the server after `reg_dc_meta_handler` has refreshed the images for the
    registry `info`, at the `n`-th registration. -/
def refreshed (cfg : MetaConfig) (n : Nat) (info : MetaInfo) (mem : Mem) : Mem :=
  writeImages cfg (listed cfg n info) (List.finRange 12) mem

/-- A client that reads any of the images finds for every gid what the registry has for it,
    without the address handle. -/
def RoundTrips (cfg : MetaConfig) (strToGid : List Char → Option Gid) (info : MetaInfo) : Prop :=
  ∀ (n : Nat) (server mem : Mem) (i : Fin 12) (q : QueryCfg),
    q.layout = cfg.layout → q.strToGid = strToGid → q.kvPa = cfg.memPa i →
    ∀ text gid, strToGid text = some gid →
      q.queryDctMeta (refreshed cfg n info server) mem text .success .success =
        some ((info.get (cfg.gidToStr gid)).map EndPoint.selfClone)

@[simp] theorem listed_length (cfg : MetaConfig) (n : Nat) (info : MetaInfo) :
    (listed cfg n info).length = info.entries.length := by
  rw [listed, List.length_map, (cfg.order_perm n info).length_eq]

theorem roundTrips_of_le {cfg : MetaConfig} {strToGid : List Char → Option Gid} {info : MetaInfo}
    (hparse : ∀ gid, strToGid (cfg.gidToStr gid) = some gid) (hkeyed : Keyed cfg info)
    (hle : info.entries.length ≤ imageCapacity) : RoundTrips cfg strToGid info := by
  intro n server mem i q hlayout hstr hkv text gid htext
  have hinj : Function.Injective cfg.gidToStr := by
    intro g g' heq
    have hg := hparse g
    rw [heq, hparse g'] at hg
    exact (Option.some.inj hg).symm
  have hlen := listed_length cfg n info
  have himage : ∀ i, ImageAt cfg.layout (refreshed cfg n info server) (cfg.memPa i)
      (listed cfg n info) := by
    intro i
    refine imageAt_writeImages ?_ (List.nodup_finRange 12) (List.mem_finRange i)
    rw [hlen]
    simp only [imageCapacity, endPointSz, globalMemSz] at hle ⊢
    omega
  have hholds : Holds cfg (refreshed cfg n info server) info :=
    ⟨_, (cfg.order_perm n info).map Sigma.snd, himage⟩
  have hcount : q.imageCount (refreshed cfg n info server) = info.entries.length := by
    rw [QueryCfg.imageCount, hkv, (himage i).count, hlen]
  have hfit : q.imageCount (refreshed cfg n info server) * endPointSz ≤ maxKmallocSz := by
    rw [hcount]
    simp only [imageCapacity, endPointSz, maxKmallocSz] at hle ⊢
    omega
  rw [queryDctMeta_success (hstr ▸ htext) hfit, hlayout, hkv, hholds.queryDctMeta_eq hinj hkeyed]

/-! ## Registries that do not fit -/

/-- The regions lie one behind the other, like pages of one slab. -/
def Adjacent (cfg : MetaConfig) : Prop := ∀ i : Fin 12, cfg.memPa i = globalMemSz * i.val

/-- What is left of entry 73 of image 0: the number of entries of image 1 and its first entry
    have been written over it. -/
def torn (L : EndPointLayout) (n : Nat) (first : EndPoint) : EndPoint :=
  L.dec (Word.toBytes 8 n ++ (L.enc first.selfClone).take 48)

theorem writeImages_read_below {cfg : MetaConfig} {es : List EndPoint} {is : List (Fin 12)}
    {addr len : Nat} (h : ∀ i ∈ is, addr + len ≤ cfg.memPa i) (mem : Mem) :
    (writeImages cfg es is mem).read addr len = mem.read addr len := by
  induction is generalizing mem with
  | nil => rfl
  | cons i is ih =>
    rw [writeImages, ih fun j hj => h j (List.mem_cons_of_mem i hj), Mem.read_eq_read_iff]
    intro j hj
    have := h i List.mem_cons_self
    exact writeImage_of_outside (.inl (by omega))

/-- A stretch of the memory of an entry. -/
theorem read_entry_slice {L : EndPointLayout} {base j len : Nat} {es : List EndPoint}
    {e : EndPoint} (mem : Mem) (hj : es[j]? = some e) (hlen : len ≤ endPointSz) :
    (writeImage L base es mem).read (base + 8 + j * endPointSz) len =
      (L.enc e.selfClone).take len := by
  have hentry := @writeEntries_read L base 0 mem j es e hj
  rw [Nat.zero_add] at hentry
  rw [writeImage, Mem.read_write_of_disjoint (.inr (by simp)), ← hentry, Mem.read_take hlen]

theorem read_count {L : EndPointLayout} (base : Nat) (es : List EndPoint) (mem : Mem) :
    (writeImage L base es mem).read base 8 = Word.toBytes 8 es.length := by
  rw [writeImage, Mem.read_write_take (by simp), List.take_of_length_le (by simp)]

section Torn

variable {cfg : MetaConfig} (hadj : Adjacent cfg) (n : Nat) (info : MetaInfo) (server : Mem)
include hadj

/-- In region 0 nothing comes after its own image. -/
theorem refreshed_read_first {addr len : Nat} (h : addr + len ≤ globalMemSz) :
    (refreshed cfg n info server).read addr len =
      (writeImage cfg.layout 0 (listed cfg n info) server).read addr len := by
  have hregions : List.finRange 12 = 0 :: (List.finRange 12).drop 1 := by decide
  have hlater : ∀ i ∈ (List.finRange 12).drop 1, 1 ≤ i.val := by decide
  rw [refreshed, hregions, writeImages, hadj 0]
  refine writeImages_read_below (fun i hi => ?_) _
  have hle := hlater i hi
  rw [hadj i]
  simp only [globalMemSz] at h ⊢
  omega

/-- In region 1 nothing comes after its own image. -/
theorem refreshed_read_second {addr len : Nat} (h : addr + len ≤ 2 * globalMemSz) :
    ∃ mem, (refreshed cfg n info server).read addr len =
      (writeImage cfg.layout globalMemSz (listed cfg n info) mem).read addr len := by
  have hregions : List.finRange 12 = 0 :: 1 :: (List.finRange 12).drop 2 := by decide
  have hlater : ∀ i ∈ (List.finRange 12).drop 2, 2 ≤ i.val := by decide
  rw [refreshed, hregions, writeImages, writeImages, hadj 1]
  refine ⟨_, writeImages_read_below (fun i hi => ?_) _⟩
  have hle := hlater i hi
  rw [hadj i]
  simp only [globalMemSz] at h ⊢
  omega

theorem refreshed_count : Word.ofBytes ((refreshed cfg n info server).read 0 8) =
    info.entries.length % 256 ^ 8 := by
  rw [refreshed_read_first hadj n info server (by decide), read_count, Word.ofBytes_toBytes,
    listed_length]

theorem refreshed_entry {j : Nat} {e : EndPoint} (hj : j < imageCapacity)
    (he : (listed cfg n info)[j]? = some e) :
    cfg.layout.readAt (refreshed cfg n info server) (0 + 8 + j * endPointSz) = e.selfClone := by
  refine EndPointLayout.readAt_of_read ?_
  rw [refreshed_read_first hadj n info server, read_entry_slice server he le_rfl,
    List.take_of_length_le (by rw [cfg.layout.enc_length])]
  simp only [imageCapacity, endPointSz, globalMemSz] at hj ⊢
  omega

theorem refreshed_torn {e : EndPoint} (he : (listed cfg n info)[0]? = some e) :
    cfg.layout.readAt (refreshed cfg n info server) (0 + 8 + imageCapacity * endPointSz) =
      torn cfg.layout info.entries.length e := by
  obtain ⟨mem, hread⟩ := refreshed_read_second hadj n info server
    (show globalMemSz + endPointSz ≤ 2 * globalMemSz by decide)
  have haddr : 0 + 8 + imageCapacity * endPointSz = globalMemSz := by decide
  have hsz : endPointSz = 8 + 48 := by decide
  have hfirst := @read_entry_slice cfg.layout globalMemSz 0 48 _ e mem he (by decide)
  rw [Nat.zero_mul, Nat.add_zero] at hfirst
  rw [EndPointLayout.readAt, haddr, hread, hsz, Mem.read_add, read_count, hfirst, listed_length,
    torn]

end Torn

/-- The gids of the registry. -/
def gidSet (info : MetaInfo) : Finset Gid := (info.entries.map fun e => e.2.gid).toFinset

theorem mem_gidSet {info : MetaInfo} {gid : Gid} :
    gid ∈ gidSet info ↔ ∃ key p, info.get key = some p ∧ p.gid = gid := by
  simp [gidSet, MetaInfo.get_eq_some_iff]

theorem gidSet_card {cfg : MetaConfig} {info : MetaInfo} (hkeyed : Keyed cfg info) :
    (gidSet info).card = info.entries.length := by
  have hkeys : info.keys = (info.entries.map fun e => e.2.gid).map cfg.gidToStr := by
    rw [List.map_map]
    refine List.map_congr_left fun e he => ?_
    exact hkeyed e.1 e.2 (MetaInfo.get_eq_some_iff.mpr he)
  have hnodup := info.keys_nodup
  rw [hkeys] at hnodup
  rw [gidSet, List.toFinset_card_of_nodup (List.Nodup.of_map _ hnodup), List.length_map]

/-- If `c` places show at least as many values, each shows one of them, and no two the same. -/
theorem injOn_of_shown {α : Type*} [DecidableEq α] {c : Nat} {values : Finset α} {f : Nat → α}
    (hc : c ≤ values.card) (hshown : ∀ x ∈ values, ∃ j < c, f j = x) :
    c = values.card ∧ (∀ j < c, f j ∈ values) ∧ Set.InjOn f (Finset.range c) := by
  have hsub : values ⊆ (Finset.range c).image f := by
    intro x hx
    obtain ⟨j, hj, rfl⟩ := hshown x hx
    exact Finset.mem_image_of_mem f (Finset.mem_range.mpr hj)
  have hle := Finset.card_image_le (s := Finset.range c) (f := f)
  have hge := Finset.card_le_card hsub
  rw [Finset.card_range] at hle
  have heq := Finset.eq_of_subset_of_card_le hsub (hle.trans hc)
  refine ⟨by omega, fun j hj => ?_, ?_⟩
  · rw [heq]
    exact Finset.mem_image_of_mem f (Finset.mem_range.mpr hj)
  · rw [← Finset.card_image_iff, Finset.card_range]
    omega

/-- A client of the image at address zero. -/
def firstQuery (L : EndPointLayout) (strToGid : List Char → Option Gid) : QueryCfg :=
  { QueryCfg.sample with layout := L, strToGid }

theorem exists_entry_of_query {q : QueryCfg} {remote mem : Mem} {text : List Char} {gid : Gid}
    {p : EndPoint} {head list : ReadOutcome} (htext : q.strToGid text = some gid)
    (h : q.queryDctMeta remote mem text head list = some (some p)) :
    ∃ j < q.entriesNum (q.afterHead remote mem head),
      (q.entry (q.buffer remote mem head list) j).gid = gid := by
  rw [QueryCfg.queryDctMeta_eq htext] at h
  by_contra hnone
  push Not at hnone
  rw [QueryCfg.scan_miss fun j hj => by rw [Nat.zero_add]; exact hnone j hj] at h
  split at h
  · split at h <;> cases h
  · cases h

section Seen

variable (cfg : MetaConfig) (strToGid : List Char → Option Gid) (info : MetaInfo)

/-- Entry `j` in the buffer of a client of image 0 whose buffer was empty. -/
def seen (j : Nat) : EndPoint :=
  (firstQuery cfg.layout strToGid).entry ((firstQuery cfg.layout strToGid).buffer
    (refreshed cfg 0 info fun _ => 0) (fun _ => 0) .success .success) j

variable {cfg strToGid info} (hadj : Adjacent cfg)
include hadj

theorem imageCount_first : (firstQuery cfg.layout strToGid).imageCount
    (refreshed cfg 0 info fun _ => 0) = info.entries.length % 256 ^ 8 :=
  refreshed_count hadj 0 info _

/-- The gids of a registry that can be read back are just those of the entries. -/
theorem RoundTrips.seen_injOn (h : RoundTrips cfg strToGid info)
    (hparse : ∀ gid, strToGid (cfg.gidToStr gid) = some gid) (hkeyed : Keyed cfg info) :
    info.entries.length % 256 ^ 8 = info.entries.length ∧
      (∀ j < info.entries.length, (seen cfg strToGid info j).gid ∈ gidSet info) ∧
      Set.InjOn (fun j => (seen cfg strToGid info j).gid) (Finset.range info.entries.length) := by
  have hshown : ∀ gid ∈ gidSet info, ∃ j < info.entries.length % 256 ^ 8,
      (seen cfg strToGid info j).gid = gid := by
    intro gid hgid
    obtain ⟨key, p, hget, rfl⟩ := mem_gidSet.mp hgid
    have htrip := h 0 (fun _ => 0) (fun _ => 0) 0 (firstQuery cfg.layout strToGid) rfl rfl
      (hadj 0).symm _ p.gid (hparse p.gid)
    rw [← hkeyed key p hget, hget, hkeyed key p hget] at htrip
    obtain ⟨j, hj, hentry⟩ := exists_entry_of_query (hparse p.gid) htrip
    rw [QueryCfg.entriesNum_afterHead_success, imageCount_first hadj] at hj
    exact ⟨j, hj, hentry⟩
  have hle : info.entries.length % 256 ^ 8 ≤ (gidSet info).card := by
    rw [gidSet_card hkeyed]
    exact Nat.mod_le _ _
  have hinj := injOn_of_shown hle hshown
  rw [gidSet_card hkeyed] at hinj
  obtain ⟨hcount, hmem, hinj⟩ := hinj
  rw [hcount] at hmem hinj
  exact ⟨hcount, hmem, hinj⟩

theorem seen_of_landed {j : Nat} (hcount : info.entries.length % 256 ^ 8 = info.entries.length)
    (hj : (j + 1) * endPointSz ≤ info.entries.length * endPointSz % 2 ^ 32) :
    seen cfg strToGid info j =
      cfg.layout.readAt (refreshed cfg 0 info fun _ => 0) (0 + 8 + j * endPointSz) := by
  refine entry_buffer ?_
  rw [imageCount_first hadj, hcount]
  exact hj

/-- Behind what the second READ has brought all entries are the same. -/
theorem seen_behind {j : Nat}
    (hj : info.entries.length % 256 ^ 8 * endPointSz % 2 ^ 32 ≤ j * endPointSz) :
    seen cfg strToGid info j = cfg.layout.readAt (fun _ => 0) 0 := by
  rw [seen, QueryCfg.buffer, QueryCfg.afterList, QueryCfg.entriesNum_afterHead_success,
    imageCount_first hadj, ReadOutcome.land, QueryCfg.entry, EndPointLayout.readAt,
    Mem.read_write_of_disjoint (.inr (by rw [Mem.read_length]; omega)), QueryCfg.afterHead,
    ReadOutcome.land, Mem.read_write_of_disjoint (.inr (by rw [Mem.read_length]; omega))]
  rfl

/-- The second READ brings entry 73, unless two entries are the same. -/
theorem landed_of_injOn (hlen : imageCapacity < info.entries.length)
    (hcount : info.entries.length % 256 ^ 8 = info.entries.length)
    (hinj : Set.InjOn (fun j => (seen cfg strToGid info j).gid)
      (Finset.range info.entries.length)) :
    (imageCapacity + 1) * endPointSz ≤ info.entries.length * endPointSz % 2 ^ 32 := by
  rcases Nat.lt_or_ge (info.entries.length * endPointSz) (2 ^ 32) with hshort | hlong
  · rw [Nat.mod_eq_of_lt hshort]
    exact Nat.mul_le_mul_right endPointSz hlen
  · by_contra hnot
    have hbehind : ∀ j, 74 ≤ j → seen cfg strToGid info j = cfg.layout.readAt (fun _ => 0) 0 := by
      intro j hj
      refine seen_behind hadj ?_
      rw [hcount]
      exact (Nat.le_of_not_le hnot).trans (Nat.mul_le_mul_right endPointSz hj)
    have hmany : 75 < info.entries.length := by
      simp only [endPointSz] at hlong
      omega
    have hsame : 74 = 75 := hinj (by simpa using Nat.lt_of_succ_lt hmany) (by simpa using hmany)
      (by simp only [hbehind 74 le_rfl, hbehind 75 (by decide)])
    exact absurd hsame (by decide)

/-- If a registry with more than 73 entries could be read back from adjacent regions, what is
    left of entry 73 would have the gid of a node that is not among the first 73. -/
theorem RoundTrips.torn_gid (h : RoundTrips cfg strToGid info)
    (hparse : ∀ gid, strToGid (cfg.gidToStr gid) = some gid) (hkeyed : Keyed cfg info)
    (hlen : imageCapacity < info.entries.length) {first : EndPoint}
    (hfirst : (listed cfg 0 info)[0]? = some first) :
    (torn cfg.layout info.entries.length first).gid ∈ gidSet info ∧
      ∀ j e, j < imageCapacity → (listed cfg 0 info)[j]? = some e →
        e.gid ≠ (torn cfg.layout info.entries.length first).gid := by
  obtain ⟨hcount, hmem, hinj⟩ := h.seen_injOn hadj hparse hkeyed
  have hlanded := landed_of_injOn hadj hlen hcount hinj
  have hread : ∀ j ≤ imageCapacity, seen cfg strToGid info j =
      cfg.layout.readAt (refreshed cfg 0 info fun _ => 0) (0 + 8 + j * endPointSz) := by
    intro j hj
    refine seen_of_landed hadj hcount (Nat.le_trans ?_ hlanded)
    exact Nat.mul_le_mul_right endPointSz (Nat.succ_le_succ hj)
  have htorn := (hread imageCapacity le_rfl).trans (refreshed_torn hadj 0 info _ hfirst)
  refine ⟨htorn ▸ hmem imageCapacity hlen, fun j e hj he heq => ?_⟩
  have hentry := (hread j hj.le).trans (refreshed_entry hadj 0 info _ hj he)
  have hsame : j = imageCapacity := hinj (by simpa using hj.trans hlen) (by simpa using hlen)
    (by simpa only [hentry, htorn, EndPoint.selfClone_gid] using heq)
  exact absurd hsame hj.ne

end Seen

/-- Adjacent regions, and registries in the given orders. -/
def adjacent (cfg : MetaConfig) (order : Nat → MetaInfo → List (Sigma fun _ : List Char => EndPoint))
    (horder : ∀ n info, (order n info).Perm info.entries) : MetaConfig :=
  { MetaConfig.sample with
    layout := cfg.layout, gidToStr := cfg.gidToStr, order, order_perm := horder }

/-- A registry may come in any order. -/
theorem exists_order {info : MetaInfo} {l : List (Sigma fun _ : List Char => EndPoint)}
    (hl : l.Perm info.entries) :
    ∃ order : Nat → MetaInfo → List (Sigma fun _ : List Char => EndPoint),
      (∀ n info, (order n info).Perm info.entries) ∧ ∀ n, order n info = l := by
  classical
  refine ⟨fun _ info' => if info' = info then l else info'.entries, fun n info' => ?_,
    fun n => if_pos rfl⟩
  by_cases heq : info' = info
  · subst heq
    exact (List.Perm.of_eq (if_pos rfl)).trans hl
  · exact .of_eq (if_neg heq)

/-- What is left of entry 73 only depends on the number of entries and the first one. -/
theorem torn_gid_of_order {cfg : MetaConfig} {strToGid : List Char → Option Gid} {info : MetaInfo}
    (h : ∀ cfg' : MetaConfig, cfg'.layout = cfg.layout → cfg'.gidToStr = cfg.gidToStr →
      RoundTrips cfg' strToGid info)
    (hparse : ∀ gid, strToGid (cfg.gidToStr gid) = some gid) (hkeyed : Keyed cfg info)
    (hlen : imageCapacity < info.entries.length) {x : Sigma fun _ : List Char => EndPoint}
    {l : List (Sigma fun _ : List Char => EndPoint)} (hl : (x :: l).Perm info.entries) :
    (torn cfg.layout info.entries.length x.2).gid ∈ gidSet info ∧
      ∀ j e, j < imageCapacity → (x :: l)[j]? = some e →
        e.2.gid ≠ (torn cfg.layout info.entries.length x.2).gid := by
  obtain ⟨order, horder, hinfo⟩ := exists_order hl
  have hlisted : listed (adjacent cfg order horder) 0 info = (x :: l).map Sigma.snd :=
    congrArg _ (hinfo 0)
  have hfirst : (listed (adjacent cfg order horder) 0 info)[0]? = some x.2 := by
    rw [hlisted]
    rfl
  obtain ⟨hmem, hne⟩ := (h (adjacent cfg order horder) rfl rfl).torn_gid (fun _ => rfl) hparse
    hkeyed hlen hfirst
  refine ⟨hmem, fun j e hj he => hne j e.2 hj ?_⟩
  rw [hlisted, List.getElem?_map, he]
  rfl

/-- For every registry whose endpoints carry the gids of their keys: wherever the regions lie
    and in whatever order the entries come, clients read back what is registered, if and
    only if there are at most 73 entries. -/
theorem meta_round_trip_iff (cfg : MetaConfig) (strToGid : List Char → Option Gid)
    (hparse : ∀ gid, strToGid (cfg.gidToStr gid) = some gid) (info : MetaInfo)
    (hkeyed : Keyed cfg info) :
    (∀ cfg' : MetaConfig, cfg'.layout = cfg.layout → cfg'.gidToStr = cfg.gidToStr →
        RoundTrips cfg' strToGid info) ↔
      info.entries.length ≤ imageCapacity := by
  constructor
  · intro h
    by_contra hnot
    have hlen := Nat.not_le.mp hnot
    obtain ⟨x, rest, hentries⟩ := List.exists_cons_of_length_pos (Nat.zero_lt_of_lt hlen)
    obtain ⟨hmem, hne⟩ := torn_gid_of_order h hparse hkeyed hlen (.of_eq hentries.symm)
    obtain ⟨key, y, hget, hgid⟩ := mem_gidSet.mp hmem
    have hy := MetaInfo.get_eq_some_iff.mp hget
    rw [hentries] at hy
    rcases List.mem_cons.mp hy with heq | hy
    · exact hne 0 ⟨key, y⟩ (by decide) (by rw [heq]; rfl) hgid
    · -- What is left of entry 73 is the same if the node that it names comes second.
      obtain ⟨pre, post, hsplit⟩ := List.append_of_mem hy
      have hperm : (x :: ⟨key, y⟩ :: (pre ++ post)).Perm info.entries := by
        rw [hentries, hsplit]
        exact .cons x List.perm_middle.symm
      obtain ⟨-, hne⟩ := torn_gid_of_order h hparse hkeyed hlen hperm
      exact hne 1 ⟨key, y⟩ (by decide) rfl hgid
  · intro hle cfg' hlayout hstr
    refine roundTrips_of_le ?_ ?_ hle
    · rwa [hstr]
    · rwa [Keyed, hstr]

/-- A text stands for its length. -/
def sampleStrToGid (text : List Char) : Option Gid := some (BitVec.ofNat 128 text.length)

theorem sampleStrToGid_gidToStr (gid : Gid) :
    sampleStrToGid (MetaConfig.sample.gidToStr gid) = some gid := by
  simp [sampleStrToGid, MetaConfig.sample]

/-- The endpoint of the node with gid `k`. -/
def node (k : Nat) : EndPoint := { (default : EndPoint) with gid := BitVec.ofNat 128 k }

theorem nodes_nodupKeys (n : Nat) :
    ((List.range n).map fun k => (⟨List.replicate k '0', node k⟩ :
      Sigma fun _ : List Char => EndPoint)).NodupKeys := by
  rw [List.NodupKeys, List.keys, List.map_map]
  refine List.Nodup.map (fun i j heq => ?_) List.nodup_range
  simpa using congrArg List.length heq

/-- The nodes with gids below `n`. -/
def nodes (n : Nat) : MetaInfo where
  entries := (List.range n).map fun k => ⟨List.replicate k '0', node k⟩
  nodupKeys := nodes_nodupKeys n

theorem keyed_nodes {n : Nat} (hn : n ≤ 2 ^ 128) : Keyed MetaConfig.sample (nodes n) := by
  intro key p hget
  have hmem := MetaInfo.get_eq_some_iff.mp hget
  obtain ⟨k, hk, heq⟩ := List.mem_map.mp hmem
  cases heq
  have hlt : k < 2 ^ 128 := Nat.lt_of_lt_of_le (List.mem_range.mp hk) hn
  simp only [MetaConfig.sample, node, BitVec.toNat_ofNat, Nat.mod_eq_of_lt hlt]

/-- The registry of 73 nodes is read back. -/
theorem nodes_read_back :
    Keyed MetaConfig.sample (nodes 73) ∧ RoundTrips MetaConfig.sample sampleStrToGid (nodes 73) :=
  ⟨keyed_nodes (by decide), (meta_round_trip_iff MetaConfig.sample sampleStrToGid
    sampleStrToGid_gidToStr (nodes 73) (keyed_nodes (by decide))).mpr
      (by simp [nodes, imageCapacity]) MetaConfig.sample rfl rfl⟩

/-- The metadata server after node 73 has registered as the 74th one. -/
def fullServer : MetaServer :=
  MetaServer.register MetaConfig.sample { info := nodes 73, mem := fun _ => 0, registrations := 0 }
    73 (node 73)

theorem listed_fullServer : listed MetaConfig.sample 0 fullServer.info =
    node 73 :: (List.range 73).map node := by
  decide +kernel

theorem fullServer_length : fullServer.info.entries.length = 74 := by
  rw [← listed_length MetaConfig.sample 0, listed_fullServer]
  simp

/-- Node 72 comes last, and its entry is the one that is torn. -/
theorem seen_fullServer {j : Nat} (hj : j < 74) :
    (seen MetaConfig.sample sampleStrToGid fullServer.info j).gid ≠ 72 := by
  have hadj : Adjacent MetaConfig.sample := fun _ => rfl
  have hothers : ∀ j < imageCapacity,
      (node 73 :: (List.range 73).map node)[j]?.map EndPoint.gid ≠ some 72 := by
    decide +kernel
  rw [seen_of_landed hadj (by rw [fullServer_length]; decide)
    (by rw [fullServer_length]; simp only [endPointSz]; omega)]
  rcases Nat.lt_or_eq_of_le (Nat.le_of_lt_succ hj) with hj | rfl
  · obtain ⟨e, he⟩ : ∃ e, (listed MetaConfig.sample 0 fullServer.info)[j]? = some e :=
      ⟨_, List.getElem?_eq_getElem (by rw [listed_length, fullServer_length]; omega)⟩
    have hne := hothers j hj
    rw [← listed_fullServer, he] at hne
    rw [refreshed_entry hadj 0 fullServer.info _ hj he]
    simpa using hne
  · have hfirst : (listed MetaConfig.sample 0 fullServer.info)[0]? = some (node 73) := by
      rw [listed_fullServer]
      rfl
    have htorn := refreshed_torn hadj 0 fullServer.info (fun _ => 0) hfirst
    rw [imageCapacity, fullServer_length] at htorn
    rw [htorn]
    decide

/-- Node 72 is registered, and a client of the first image does not find it. -/
theorem registered_node_not_found :
    fullServer.info.get (MetaConfig.sample.gidToStr 72) = some (node 72) ∧
      (firstQuery EndPointLayout.packed sampleStrToGid).queryDctMeta fullServer.mem (fun _ => 0)
        (MetaConfig.sample.gidToStr 72) .success .success = some none := by
  refine ⟨by decide +kernel, ?_⟩
  have hmem : fullServer.mem = refreshed MetaConfig.sample 0 fullServer.info fun _ => 0 := rfl
  have hcount : (firstQuery EndPointLayout.packed sampleStrToGid).imageCount
      (refreshed MetaConfig.sample 0 fullServer.info fun _ => 0) = 74 := by
    refine (@imageCount_first MetaConfig.sample _ _ fun _ => rfl).trans ?_
    rw [fullServer_length]
    decide
  rw [hmem, QueryCfg.queryDctMeta_eq (sampleStrToGid_gidToStr 72),
    QueryCfg.entriesNum_afterHead_success, hcount, if_pos (by decide), QueryCfg.scan_miss,
    if_pos (by decide)]
  intro j hj
  rw [Nat.zero_add]
  exact seen_fullServer hj

end MetaRoundTrip
