-- SUMMARY: The page list of a memory region: what ib_sg_to_pages makes of a scatter list, and what RMemVirt reaches with it.
import Mathlib.Data.Nat.Bitwise
import KRCore.Base.PageVector

/-!
# Memory regions made of pages

`RMemVirt` registers virtual memory: it takes the page of every 4096 bytes, maps them for
the device and has `ib_sg_to_pages` make a page list of the scatter list, together with the
first address and the length of the region. The device then finds the byte at an address by
its distance from the start of the first page.

`ib_sg_to_pages` takes the largest prefix of the scatter list that a page list can
describe: two entries go together if the second starts where the first ends, or if
both meet at page boundaries.
-/

namespace Driver

open PageVector (Covers lookup pagesTo run)

/-! ## Scatter lists and regions -/

/-- A `scatterlist` entry that has been mapped for the device. Its length is an `unsigned int`;
    an address and a page size of 32 bits can be added without overflow. -/
structure Sg where
  dmaAddress : Nat
  dmaLen : Nat
  nonempty : 0 < dmaLen
  len_lt : dmaLen < 4294967296
  below : dmaAddress + dmaLen < 9223372036854775808
deriving DecidableEq, Repr

/-- The address of byte `i` of a scatter list. -/
def byteAt : List Sg → Nat → Nat
  | [], _ => 0
  | sg :: sgs, i =>
    if i < sg.dmaLen then sg.dmaAddress + i else byteAt sgs (i - sg.dmaLen)

def sgBytes : List Sg → Nat
  | [] => 0
  | sg :: sgs => sg.dmaLen + sgBytes sgs

/-- An `ib_mr` of type `IB_MR_TYPE_MEM_REG`, with the page list of its `mlx5_ib_mr`. -/
structure PageMr where
  pageSize : Nat
  maxDescs : Nat
  iova : Nat
  length : Nat
  descs : List Nat

/-- `mlx5_ib_alloc_mr`: the number of pages is rounded up to a multiple of four. -/
def ibAllocMr (maxNumSg : Nat) : PageMr := ⟨0, (maxNumSg + 3) / 4 * 4, 0, 0, []⟩

/-- The device's view: the byte at address `addr` of the region. -/
def PageMr.translate (mr : PageMr) (addr : Nat) : Option Nat :=
  lookup mr.pageSize mr.descs (addr - (mr.iova - mr.iova % mr.pageSize))

/-! ## ib_sg_to_pages -/

/-- `mlx5_set_page`. -/
def PageMr.setPage (mr : PageMr) (addr : Nat) : Option PageMr :=
  if mr.descs.length = mr.maxDescs then none else some { mr with descs := mr.descs ++ [addr] }

/-- The loop over the pages of an entry. If there is no room for a page it ends with the
    address of the page before. -/
def PageMr.mapPages (endAddr : Nat) : Nat → PageMr → Nat → Nat → PageMr × Option Nat
  | 0, mr, _, _ => (mr, none)
  | fuel + 1, mr, pageAddr, prevAddr =>
    match mr.setPage pageAddr with
    | none => (mr, some prevAddr)
    | some mr' =>
      if pageAddr + mr.pageSize < endAddr then
        mapPages endAddr fuel mr' (pageAddr + mr.pageSize) pageAddr
      else (mr', none)

/-- The same loop as an entry enters it: at its head, or at `next_page` if the page that the entry
    starts in is in the list already. -/
def PageMr.mapEntry (mr : PageMr) (coalesce : Bool) (dmaAddr dmaLen pageAddr : Nat) :
    PageMr × Option Nat :=
  if coalesce then
    if pageAddr + mr.pageSize < dmaAddr + dmaLen then
      mr.mapPages (dmaAddr + dmaLen) (dmaLen + mr.pageSize) (pageAddr + mr.pageSize) dmaAddr
    else (mr, none)
  else mr.mapPages (dmaAddr + dmaLen) (dmaLen + mr.pageSize) pageAddr dmaAddr

inductive SgRet where
  | mapped (n : Nat)
  | enomem
  | einval
deriving DecidableEq, Repr

structure SgMapped where
  mr : PageMr
  sgOffset : Nat
  ret : SgRet

/-- There is no room for a page of entry `i`. The differences are unsigned. -/
def PageMr.noRoom (mr : PageMr) (i : Nat) (sg : Sg) (dmaAddr prevAddr : Nat) : SgMapped :=
  let sgOffset :=
    (prevAddr + (18446744073709551616 - sg.dmaAddress)) % 18446744073709551616 % 4294967296
  { mr := { mr with
      length := (mr.length + (prevAddr + (18446744073709551616 - dmaAddr))) % 18446744073709551616 }
    sgOffset
    ret := if i ≠ 0 ∨ sgOffset ≠ 0 then .mapped i else .enomem }

/-- The loop over the entries. -/
def sgLoop : List Sg → Nat → Nat → Nat → Nat → PageMr → SgMapped
  | [], i, _, _, _, mr => ⟨mr, 0, .mapped i⟩
  | sg :: sgs, i, lastEnd, lastPageOff, sgOffset, mr =>
    let dmaAddr := sg.dmaAddress + sgOffset
    let dmaLen := sg.dmaLen - sgOffset
    let pageAddr := dmaAddr - (dmaAddr &&& (mr.pageSize - 1))
    let coalesce := decide (i ≠ 0 ∧ (lastPageOff ≠ 0 ∨ pageAddr ≠ dmaAddr))
    if coalesce ∧ lastEnd ≠ dmaAddr then ⟨mr, 0, .mapped i⟩
    else
      match mr.mapEntry coalesce dmaAddr dmaLen pageAddr with
      | (mr', some prevAddr) => mr'.noRoom i sg dmaAddr prevAddr
      | (mr', none) =>
        sgLoop sgs (i + 1) (dmaAddr + dmaLen) ((dmaAddr + dmaLen) &&& (mr.pageSize - 1)) 0
          { mr' with length := mr'.length + dmaLen }

/-- `ib_map_mr_sg`, for a region of `mlx5_ib_alloc_mr`. -/
def PageMr.ibMapMrSg (mr : PageMr) (sgs : List Sg) (sgOffset pageSize : Nat) : SgMapped :=
  let mr := { mr with pageSize, descs := [] }
  match sgs with
  | [] => ⟨mr, sgOffset, .einval⟩
  | sg :: _ =>
    if sg.dmaLen < sgOffset then ⟨mr, sgOffset, .einval⟩
    else sgLoop sgs 0 0 0 sgOffset { mr with iova := sg.dmaAddress + sgOffset, length := 0 }

/-- How many entries can be added to a region that ends at `e`. -/
def mappable (ps : Nat) : Nat → List Sg → Nat
  | _, [] => 0
  | e, sg :: sgs =>
    if e = sg.dmaAddress ∨ (e % ps = 0 ∧ sg.dmaAddress % ps = 0) then
      mappable ps (sg.dmaAddress + sg.dmaLen) sgs + 1
    else 0

/-! ## Scatter lists -/

variable {sg : Sg} {done sgs all : List Sg}

@[simp] theorem sgBytes_append : sgBytes (done ++ sgs) = sgBytes done + sgBytes sgs := by
  induction done with
  | nil => simp [sgBytes]
  | cons sg done ih => simp [sgBytes, ih, Nat.add_assoc]

theorem sgBytes_lt (sgs : List Sg) : sgBytes sgs ≤ sgs.length * 4294967296 := by
  induction sgs with
  | nil => exact Nat.zero_le _
  | cons sg sgs ih =>
    have := sg.len_lt
    rw [sgBytes, List.length_cons, Nat.succ_mul]
    omega

theorem sgBytes_take_lt {m n : Nat} (hmn : m < n) (hm : sgs[m]? = some sg) :
    sgBytes (sgs.take m) + sg.dmaLen ≤ sgBytes (sgs.take n) := by
  obtain ⟨d, rfl⟩ := Nat.exists_eq_add_of_lt hmn
  rw [Nat.add_assoc, List.take_add, sgBytes_append]
  have hdrop : sgs.drop m = sg :: sgs.drop (m + 1) := by
    obtain ⟨hlt, rfl⟩ := List.getElem?_eq_some_iff.mp hm
    exact List.drop_eq_getElem_cons hlt
  rw [hdrop, List.take_succ_cons, sgBytes]
  omega

/-- The bytes of an entry behind others. -/
theorem byteAt_append {j : Nat} (hj : j < sg.dmaLen) :
    byteAt (done ++ sg :: sgs) (sgBytes done + j) = sg.dmaAddress + j := by
  induction done with
  | nil => simp [byteAt, sgBytes, hj]
  | cons d done ih =>
    rw [List.cons_append, byteAt, sgBytes, if_neg (by omega), Nat.add_assoc, Nat.add_sub_cancel_left,
      ih]

/-! ## Pages of one entry -/

variable {mr : PageMr} {endAddr pageAddr prevAddr fuel i off : Nat}

/-- The region with `c` more pages. -/
def PageMr.more (mr : PageMr) (b c : Nat) : PageMr :=
  { mr with descs := mr.descs ++ run mr.pageSize b c }

@[simp] theorem more_pageSize (mr : PageMr) (b c : Nat) : (mr.more b c).pageSize = mr.pageSize := rfl

@[simp] theorem more_maxDescs (mr : PageMr) (b c : Nat) : (mr.more b c).maxDescs = mr.maxDescs := rfl

@[simp] theorem more_descs_length (mr : PageMr) (b c : Nat) :
    (mr.more b c).descs.length = mr.descs.length + c := by
  simp [PageMr.more]

@[simp] theorem more_zero (mr : PageMr) (b : Nat) : mr.more b 0 = mr := by simp [PageMr.more]

theorem more_succ (mr : PageMr) (b c : Nat) :
    (mr.more b 1).more (b + mr.pageSize) c = mr.more b (c + 1) := by
  simp [PageMr.more, PageVector.run_succ]

theorem setPage_eq (mr : PageMr) (b : Nat) :
    mr.setPage b = if mr.descs.length = mr.maxDescs then none else some (mr.more b 1) := by
  simp [PageMr.setPage, PageMr.more, PageVector.run_succ]

/-- The last of `c` pages from `b` on, or `a` if there is none. -/
def prevPage (ps a b : Nat) : Nat → Nat
  | 0 => a
  | c + 1 => b + c * ps

theorem le_prevPage (ps c : Nat) {a b : Nat} (h : a ≤ b) : a ≤ prevPage ps a b c := by
  cases c with
  | zero => exact Nat.le_refl a
  | succ c => exact Nat.le_add_right_of_le h

theorem prevPage_lt {ps a b c e : Nat} (hae : a < e) (hc : c < pagesTo ps b e) :
    prevPage ps a b c < e := by
  cases c with
  | zero => exact hae
  | succ c => exact PageVector.lt_of_lt_pagesTo (Nat.lt_of_succ_lt hc)

theorem prevPage_le (ps c : Nat) {a b : Nat} (h : a ≤ b) : prevPage ps a b c ≤ b + c * ps := by
  cases c with
  | zero => exact Nat.le_add_right_of_le h
  | succ c =>
    rw [Nat.succ_mul]
    exact Nat.add_le_add_left (Nat.le_add_right _ _) b

/-- The pages of an entry are set, or as many of them as there is room for. -/
theorem mapPages_eq (hps : 0 < mr.pageSize) (hlt : pageAddr < endAddr)
    (hle : mr.descs.length ≤ mr.maxDescs)
    (hfuel : pagesTo mr.pageSize pageAddr endAddr ≤ fuel) :
    mr.mapPages endAddr fuel pageAddr prevAddr =
      if mr.descs.length + pagesTo mr.pageSize pageAddr endAddr ≤ mr.maxDescs then
        (mr.more pageAddr (pagesTo mr.pageSize pageAddr endAddr), none)
      else
        (mr.more pageAddr (mr.maxDescs - mr.descs.length),
          some (prevPage mr.pageSize prevAddr pageAddr (mr.maxDescs - mr.descs.length))) := by
  induction fuel generalizing mr pageAddr prevAddr with
  | zero =>
    rw [PageVector.pagesTo_of_lt hps hlt] at hfuel
    omega
  | succ fuel ih =>
    rw [PageVector.pagesTo_of_lt hps hlt] at hfuel ⊢
    rw [PageMr.mapPages, setPage_eq]
    by_cases hfull : mr.descs.length = mr.maxDescs
    · simp [hfull, prevPage]
    · obtain ⟨c, hc⟩ : ∃ c, mr.maxDescs = mr.descs.length + (c + 1) :=
        ⟨mr.maxDescs - mr.descs.length - 1, by omega⟩
      simp only [if_neg hfull]
      by_cases hnext : pageAddr + mr.pageSize < endAddr
      · rw [if_pos hnext, @ih (mr.more pageAddr 1) _ _ hps hnext (by simp; omega)
          (Nat.le_of_succ_le_succ hfuel)]
        simp only [more_pageSize, more_maxDescs, more_descs_length, more_succ, hc]
        rw [Nat.add_sub_cancel_left, show mr.descs.length + (c + 1) - (mr.descs.length + 1) = c by omega]
        congr 2
        · omega
        · cases c with
          | zero => simp [prevPage]
          | succ c =>
            simp only [prevPage, Nat.succ_mul]
            congr 1
            omega
      · have hone : pagesTo mr.pageSize (pageAddr + mr.pageSize) endAddr = 0 :=
          PageVector.pagesTo_of_le hps (by omega)
        rw [if_neg hnext, hone, if_pos (by omega)]

/-- The first page that an entry needs. -/
def entryStart (ps : Nat) (coalesce : Bool) (a : Nat) : Nat :=
  if coalesce then a - a % ps + ps else a - a % ps

theorem mapEntry_eq {coalesce : Bool} {a n : Nat} (hps : 0 < mr.pageSize) (hn : 0 < n)
    (hle : mr.descs.length ≤ mr.maxDescs) :
    let b := entryStart mr.pageSize coalesce a
    mr.mapEntry coalesce a n (a - a % mr.pageSize) =
      if mr.descs.length + pagesTo mr.pageSize b (a + n) ≤ mr.maxDescs then
        (mr.more b (pagesTo mr.pageSize b (a + n)), none)
      else
        (mr.more b (mr.maxDescs - mr.descs.length),
          some (prevPage mr.pageSize a b (mr.maxDescs - mr.descs.length))) := by
  have hmod := Nat.mod_lt a hps
  have hto := PageVector.pagesTo_le hps (entryStart mr.pageSize coalesce a) (a + n)
  cases coalesce with
  | false =>
    simp only [entryStart, Bool.false_eq_true, if_false] at hto
    exact mapPages_eq hps (by omega) hle (by omega)
  | true =>
    simp only [entryStart, if_true] at hto ⊢
    rw [PageMr.mapEntry, if_pos rfl]
    by_cases hnext : a - a % mr.pageSize + mr.pageSize < a + n
    · rw [if_pos hnext]
      exact mapPages_eq hps hnext hle (by omega)
    · rw [if_neg hnext, PageVector.pagesTo_of_le hps (by omega), if_pos (by omega), more_zero]

/-- Where the pages of an entry run out, the bytes before the last page are in the region. -/
theorem noRoom_eq (hoff : off ≤ sg.dmaLen) (hle : sg.dmaAddress + off ≤ prevAddr)
    (hlt : prevAddr < sg.dmaAddress + sg.dmaLen) (hlen : mr.length ≤ 9223372036854775808) :
    mr.noRoom i sg (sg.dmaAddress + off) prevAddr =
      ⟨{ mr with length := mr.length + (prevAddr - (sg.dmaAddress + off)) },
        prevAddr - sg.dmaAddress,
        if i ≠ 0 ∨ prevAddr - sg.dmaAddress ≠ 0 then .mapped i else .enomem⟩ := by
  have hsg := sg.len_lt
  have hbelow := sg.below
  have hoffset : (prevAddr + (18446744073709551616 - sg.dmaAddress)) % 18446744073709551616 %
      4294967296 = prevAddr - sg.dmaAddress := by omega
  have hlength : (mr.length + (prevAddr + (18446744073709551616 - (sg.dmaAddress + off)))) %
      18446744073709551616 = mr.length + (prevAddr - (sg.dmaAddress + off)) := by omega
  rw [PageMr.noRoom, hoffset, hlength]

/-! ## The loop over the entries -/

/-- How an entry at `a` goes on behind a region that ends at `e`: in the same page, or both meet at
    a page boundary. -/
def Joins (ps : Nat) : Bool → Nat → Nat → Prop
  | true, e, a => e = a ∧ e % ps ≠ 0
  | false, e, a => e % ps = 0 ∧ a % ps = 0

/-- Before an entry that is not the first: the region has the bytes of the entries that are done. -/
structure SgInv (all : List Sg) (off : Nat) (done rest : List Sg) (lastEnd : Nat) (mr : PageMr) :
    Prop where
  split : all = done ++ rest
  covers : Covers mr.pageSize mr.descs (mr.iova % mr.pageSize) mr.length
    (fun j => byteAt all (off + j)) lastEnd
  total : off + mr.length = sgBytes done
  room : mr.descs.length ≤ mr.maxDescs

/-- The bytes of the region are those of the scatter list, and the result names the first byte
    behind them. If there are enough pages then `n` entries are in the region. -/
structure SgMapped.Sound (r : SgMapped) (mr : PageMr) (off : Nat) (all : List Sg) (n : Nat) :
    Prop where
  frame : r.mr.pageSize = mr.pageSize ∧ r.mr.iova = mr.iova ∧ r.mr.maxDescs = mr.maxDescs
  room : r.mr.descs.length ≤ mr.maxDescs
  bytes : ∀ i < r.mr.length,
    lookup mr.pageSize r.mr.descs (mr.iova % mr.pageSize + i) = some (byteAt all (off + i))
  resume : ∃ m, off + r.mr.length = sgBytes (all.take m) + r.sgOffset ∧
    (∀ sg, all[m]? = some sg → r.sgOffset < sg.dmaLen) ∧
    (r.ret = .mapped m ∨ r.ret = .enomem ∧ r.mr.length = 0)
  whole : mr.iova % mr.pageSize + sgBytes (all.take n) ≤ mr.maxDescs * mr.pageSize + off →
    r.ret = .mapped n ∧ r.sgOffset = 0

variable {rest : List Sg} {lastEnd : Nat} {coalesce : Bool}

/-- The region ends with the entries that are done. -/
theorem SgInv.stop (h : SgInv all off done rest lastEnd mr) :
    SgMapped.Sound ⟨mr, 0, .mapped done.length⟩ mr off all done.length where
  frame := ⟨rfl, rfl, rfl⟩
  room := h.room
  bytes := h.covers.bytes
  resume := by
    refine ⟨done.length, ?_, fun sg _ => sg.nonempty, Or.inl rfl⟩
    rw [h.split, List.take_left, h.total, Nat.add_zero]
  whole _ := ⟨rfl, rfl⟩

theorem SgInv.byteAt_next (h : SgInv all off done (sg :: rest) lastEnd mr) :
    ∀ j < sg.dmaLen, byteAt all (off + (mr.length + j)) = sg.dmaAddress + j := by
  intro j hj
  rw [← Nat.add_assoc, h.total, h.split]
  exact byteAt_append hj

/-- The region with the pages of an entry, whether there is room for them or not. -/
theorem SgInv.covers_next (h : SgInv all off done (sg :: rest) lastEnd mr) (hps : 0 < mr.pageSize)
    (hjoin : Joins mr.pageSize coalesce lastEnd sg.dmaAddress) {b c : Nat}
    (hb : b = entryStart mr.pageSize coalesce sg.dmaAddress)
    (hc : c = pagesTo mr.pageSize b (sg.dmaAddress + sg.dmaLen)) :
    Covers mr.pageSize (mr.more b c).descs (mr.iova % mr.pageSize) (mr.length + sg.dmaLen)
      (fun j => byteAt all (off + j)) (sg.dmaAddress + sg.dmaLen) := by
  subst hc hb
  cases coalesce with
  | true =>
    obtain ⟨rfl, he⟩ := hjoin
    exact h.covers.contiguous hps he (fun _ _ => rfl) h.byteAt_next
  | false =>
    have hstart : entryStart mr.pageSize false sg.dmaAddress = sg.dmaAddress := by
      simp [entryStart, hjoin.2]
    rw [hstart]
    exact h.covers.aligned hps sg.nonempty hjoin.1 hjoin.2 (fun _ _ => rfl) h.byteAt_next

theorem SgInv.next (h : SgInv all off done (sg :: rest) lastEnd mr) (hps : 0 < mr.pageSize)
    (hjoin : Joins mr.pageSize coalesce lastEnd sg.dmaAddress) {b c : Nat}
    (hb : b = entryStart mr.pageSize coalesce sg.dmaAddress)
    (hc : c = pagesTo mr.pageSize b (sg.dmaAddress + sg.dmaLen))
    (hroom : mr.descs.length + c ≤ mr.maxDescs) :
    SgInv all off (done ++ [sg]) rest (sg.dmaAddress + sg.dmaLen)
      { mr.more b c with length := mr.length + sg.dmaLen } := by
  constructor
  case split => rw [h.split, List.append_assoc, List.singleton_append]
  case covers => exact h.covers_next hps hjoin hb hc
  case total =>
    have := h.total
    rw [sgBytes_append, ← this, sgBytes, sgBytes]
    exact (Nat.add_assoc _ _ _).symm
  case room =>
    change (mr.more b c).descs.length ≤ _
    rw [more_descs_length]
    exact hroom

/-- There are pages for a part of an entry only. -/
theorem SgInv.bytes_noRoom (h : SgInv all off done (sg :: rest) lastEnd mr)
    (hps : 0 < mr.pageSize) (hjoin : Joins mr.pageSize coalesce lastEnd sg.dmaAddress) {b c n : Nat}
    (hb : b = entryStart mr.pageSize coalesce sg.dmaAddress) (hn : n ≤ sg.dmaLen)
    (hc : sg.dmaAddress + n ≤ b + c * mr.pageSize) :
    ∀ i < mr.length + n, lookup mr.pageSize (mr.more b c).descs (mr.iova % mr.pageSize + i) =
      some (byteAt all (off + i)) := by
  have hnew : ∀ j < n, byteAt all (off + (mr.length + j)) = sg.dmaAddress + j :=
    fun j hj => h.byteAt_next j (Nat.lt_of_lt_of_le hj hn)
  subst hb
  cases coalesce with
  | true =>
    obtain ⟨rfl, he⟩ := hjoin
    exact h.covers.bytes_contiguous hps he (fun _ _ => rfl) hnew hc
  | false =>
    have hstart : entryStart mr.pageSize false sg.dmaAddress = sg.dmaAddress := by
      simp [entryStart, hjoin.2]
    rw [hstart] at hc ⊢
    exact h.covers.bytes_aligned hps hjoin.1 (fun _ _ => rfl) hnew (by omega)

theorem Joins.le_start {a : Nat} (hjoin : Joins mr.pageSize coalesce lastEnd a)
    (hps : 0 < mr.pageSize) : a ≤ entryStart mr.pageSize coalesce a := by
  have := Nat.mod_lt a hps
  cases coalesce with
  | true =>
    simp only [entryStart, if_true]
    omega
  | false => simp [entryStart, hjoin.2]

/-- The region ends within an entry. -/
theorem noRoom_sound (mr : PageMr) (skip : Nat) {n : Nat} (hi : all[i]? = some sg) (hskip : skip ≤ sg.dmaLen)
    (htotal : off + mr.length = sgBytes (all.take i) + skip)
    (hle : sg.dmaAddress + skip ≤ prevAddr) (hlt : prevAddr < sg.dmaAddress + sg.dmaLen)
    (hlen : mr.length ≤ 9223372036854775808) (hzero : i = 0 → mr.length = 0)
    (hroom : mr.descs.length ≤ mr.maxDescs)
    (hmore : mr.maxDescs * mr.pageSize + off < mr.iova % mr.pageSize + sgBytes (all.take n))
    (hbytes : ∀ j < mr.length + (prevAddr - (sg.dmaAddress + skip)),
      lookup mr.pageSize mr.descs (mr.iova % mr.pageSize + j) = some (byteAt all (off + j))) :
    (mr.noRoom i sg (sg.dmaAddress + skip) prevAddr).Sound mr off all n := by
  rw [noRoom_eq hskip hle hlt hlen]
  constructor
  case frame => exact ⟨rfl, rfl, rfl⟩
  case room => exact hroom
  case bytes => exact hbytes
  case resume =>
    refine ⟨i, ?_, ?_, ?_⟩
    · change off + (mr.length + (prevAddr - (sg.dmaAddress + skip))) = _ + (prevAddr - sg.dmaAddress)
      omega
    · intro sg' hsg'
      obtain rfl : sg = sg' := Option.some.inj (hi.symm.trans hsg')
      change prevAddr - sg.dmaAddress < sg.dmaLen
      omega
    · by_cases hsome : i ≠ 0 ∨ prevAddr - sg.dmaAddress ≠ 0
      · exact Or.inl (if_pos hsome)
      · refine Or.inr ⟨if_neg hsome, ?_⟩
        have := hzero (by omega)
        change mr.length + (prevAddr - (sg.dmaAddress + skip)) = 0
        omega
  case whole => exact fun hfits => absurd hfits (Nat.not_le_of_lt hmore)

theorem joins_of_mappable {ps e a : Nat} (h : e = a ∨ (e % ps = 0 ∧ a % ps = 0)) :
    ∃ coalesce, Joins ps coalesce e a := by
  by_cases hpage : e % ps = 0 ∧ a % ps = 0
  · exact ⟨false, hpage⟩
  · obtain rfl := h.resolve_right hpage
    exact ⟨true, rfl, fun he => hpage ⟨he, he⟩⟩

/-- What is done with the pages of an entry. -/
def sgNext (ps : Nat) (sgs : List Sg) (i : Nat) (sg : Sg) (skip : Nat) :
    PageMr × Option Nat → SgMapped
  | (mr, some prevAddr) => mr.noRoom i sg (sg.dmaAddress + skip) prevAddr
  | (mr, none) =>
    let e := sg.dmaAddress + skip + (sg.dmaLen - skip)
    sgLoop sgs (i + 1) e (e % ps) 0 { mr with length := mr.length + (sg.dmaLen - skip) }

theorem sgLoop_cons {k skip : Nat} (hk : mr.pageSize = 2 ^ k) (i lastPageOff : Nat) :
    sgLoop (sg :: sgs) i lastEnd lastPageOff skip mr =
      let a := sg.dmaAddress + skip
      let coalesce := decide (i ≠ 0 ∧ (lastPageOff ≠ 0 ∨ a % mr.pageSize ≠ 0))
      if coalesce ∧ lastEnd ≠ a then ⟨mr, 0, .mapped i⟩
      else sgNext mr.pageSize sgs i sg skip
        (mr.mapEntry coalesce a (sg.dmaLen - skip) (a - a % mr.pageSize)) := by
  have hmask : ∀ x, x &&& (mr.pageSize - 1) = x % mr.pageSize := fun x => by
    rw [hk, Nat.and_two_pow_sub_one_eq_mod]
  have hstart : ∀ x, (x - x % mr.pageSize ≠ x) = (x % mr.pageSize ≠ 0) := fun x => by
    have := Nat.mod_le x mr.pageSize
    rw [eq_iff_iff]
    omega
  rw [sgLoop]
  simp only [hmask, hstart]
  congr 1

theorem sgLoop_joined {k : Nat} (hk : mr.pageSize = 2 ^ k) (hi : i ≠ 0)
    (hjoin : Joins mr.pageSize coalesce lastEnd sg.dmaAddress) :
    sgLoop (sg :: sgs) i lastEnd (lastEnd % mr.pageSize) 0 mr =
      sgNext mr.pageSize sgs i sg 0 (mr.mapEntry coalesce sg.dmaAddress sg.dmaLen
        (sg.dmaAddress - sg.dmaAddress % mr.pageSize)) := by
  rw [sgLoop_cons hk]
  cases coalesce with
  | true =>
    obtain ⟨rfl, he⟩ := hjoin
    simp [hi, he]
  | false => simp [hjoin.1, hjoin.2]

theorem sgLoop_apart {k : Nat} (hk : mr.pageSize = 2 ^ k) (hi : i ≠ 0)
    (h : ¬(lastEnd = sg.dmaAddress ∨ (lastEnd % mr.pageSize = 0 ∧ sg.dmaAddress % mr.pageSize = 0))) :
    sgLoop (sg :: sgs) i lastEnd (lastEnd % mr.pageSize) 0 mr = ⟨mr, 0, .mapped i⟩ := by
  rw [not_or, Classical.not_and_iff_not_or_not] at h
  rw [sgLoop_cons hk]
  simp [hi, h]

theorem SgInv.noRoom_sound (h : SgInv all off done (sg :: rest) lastEnd mr) (hps : 0 < mr.pageSize)
    (hjoin : Joins mr.pageSize coalesce lastEnd sg.dmaAddress) (hdone : done.length ≠ 0)
    {b c n : Nat} (hb : b = entryStart mr.pageSize coalesce sg.dmaAddress)
    (hc : mr.descs.length + c = mr.maxDescs)
    (hroom : c < pagesTo mr.pageSize b (sg.dmaAddress + sg.dmaLen)) (hn : done.length < n)
    (hall : all.length < 2147483648) :
    ((mr.more b c).noRoom done.length sg sg.dmaAddress
      (prevPage mr.pageSize sg.dmaAddress b c)).Sound mr off all n := by
  have hstart : sg.dmaAddress ≤ b := hb ▸ hjoin.le_start hps
  have hle := le_prevPage mr.pageSize c hstart
  have hlt := prevPage_lt (Nat.lt_add_of_pos_right sg.nonempty) hroom
  have hfit := prevPage_le mr.pageSize c hstart
  have htake : all.take done.length = done := by rw [h.split, List.take_left]
  have htotal := h.total
  have hlen : mr.length ≤ 9223372036854775808 := by
    have hdone := sgBytes_lt done
    have hshort : done.length ≤ all.length := by simp [h.split]
    omega
  have hentry : all[done.length]? = some sg := by
    rw [h.split, List.getElem?_append_right (Nat.le_refl _), Nat.sub_self]
    rfl
  suffices h : ((mr.more b c).noRoom done.length sg sg.dmaAddress
      (prevPage mr.pageSize sg.dmaAddress b c)).Sound (mr.more b c) off all n from { h with }
  refine Driver.noRoom_sound (mr.more b c) 0 hentry (Nat.zero_le _) ?_ hle hlt hlen
    (fun hzero => absurd hzero hdone) ?_ ?_ ?_
  · rw [htake]
    exact htotal
  · rw [more_descs_length, hc, more_maxDescs]
  · have hused := (h.covers_next hps hjoin hb rfl).used
    have hsum := sgBytes_take_lt hn hentry
    have hpages := Nat.mul_le_mul_right mr.pageSize (Nat.succ_le_of_lt hroom)
    rw [htake] at hsum
    rw [more_descs_length, Nat.add_mul] at hused
    rw [Nat.succ_mul] at hpages
    change mr.maxDescs * mr.pageSize + off < mr.iova % mr.pageSize + _
    rw [← hc, Nat.add_mul]
    omega
  · exact h.bytes_noRoom hps hjoin hb (by omega) (by omega)

/-- Every entry that is added keeps the bytes of the region right. -/
theorem SgInv.loop_sound {k : Nat} (h : SgInv all off done rest lastEnd mr)
    (hk : mr.pageSize = 2 ^ k) (hdone : done ≠ []) (hall : all.length < 2147483648) :
    (sgLoop rest done.length lastEnd (lastEnd % mr.pageSize) 0 mr).Sound mr off all
      (done.length + mappable mr.pageSize lastEnd rest) := by
  induction rest generalizing done lastEnd mr with
  | nil => exact h.stop
  | cons sg rest ih =>
    have hps : 0 < mr.pageSize := hk ▸ Nat.two_pow_pos k
    have hlen : done.length ≠ 0 := by simpa using hdone
    rw [mappable]
    by_cases hmap : lastEnd = sg.dmaAddress ∨
        (lastEnd % mr.pageSize = 0 ∧ sg.dmaAddress % mr.pageSize = 0)
    · obtain ⟨coalesce, hjoin⟩ := joins_of_mappable hmap
      rw [if_pos hmap, sgLoop_joined hk hlen hjoin, mapEntry_eq hps sg.nonempty h.room]
      split
      case isTrue hroom =>
        have hnext := h.next hps hjoin rfl rfl hroom
        have hsound := ih hnext hk (by simp)
        rw [List.length_append, List.length_singleton] at hsound
        rw [Nat.add_comm _ 1, ← Nat.add_assoc]
        exact { hsound with }
      case isFalse hroom =>
        have hle := h.room
        exact h.noRoom_sound hps hjoin hlen rfl (Nat.add_sub_of_le hle) (by omega) (by omega) hall
    · rw [if_neg hmap, sgLoop_apart hk hlen hmap]
      exact h.stop

/-! ## The first entry -/

theorem byteAt_first {j : Nat} (hj : off + j < sg.dmaLen) :
    byteAt (sg :: sgs) (off + j) = sg.dmaAddress + off + j := by
  rw [byteAt, if_pos hj, Nat.add_assoc]

/-- Two pages are enough for the region to reach behind its first address. -/
theorem le_prevPage_first {ps a b c : Nat} (hps : 0 < ps) (hb : b = a - a % ps) (hc : c ≠ 1) :
    a ≤ prevPage ps a b c := by
  have hmod := Nat.mod_lt a hps
  match c, hc with
  | 0, _ => exact Nat.le_refl a
  | c + 2, _ =>
    rw [prevPage, Nat.succ_mul]
    omega

/-- The region before the first entry. -/
def PageMr.blank (ps maxDescs iova : Nat) : PageMr := ⟨ps, maxDescs, iova, 0, []⟩

theorem mapEntry_blank {ps maxDescs a n : Nat} (hps : 0 < ps) (hn : 0 < n) :
    (PageMr.blank ps maxDescs a).mapEntry false a n (a - a % ps) =
      if pagesTo ps (a - a % ps) (a + n) ≤ maxDescs then
        ((PageMr.blank ps maxDescs a).more (a - a % ps) (pagesTo ps (a - a % ps) (a + n)), none)
      else
        ((PageMr.blank ps maxDescs a).more (a - a % ps) maxDescs,
          some (prevPage ps a (a - a % ps) maxDescs)) := by
  have h := @mapEntry_eq (PageMr.blank ps maxDescs a) false a n hps hn (Nat.zero_le _)
  simpa [PageMr.blank, entryStart] using h

theorem SgInv.first (sgs : List Sg) {ps maxDescs a c : Nat} (hps : 0 < ps) (hoff : off < sg.dmaLen)
    (ha : a = sg.dmaAddress + off) (hc : c = pagesTo ps (a - a % ps) (a + (sg.dmaLen - off)))
    (hroom : c ≤ maxDescs) :
    SgInv (sg :: sgs) off [sg] sgs (a + (sg.dmaLen - off))
      { (PageMr.blank ps maxDescs a).more (a - a % ps) c with length := 0 + (sg.dmaLen - off) } := by
  subst ha
  constructor
  case split => rfl
  case covers =>
    subst hc
    rw [Nat.zero_add]
    exact Covers.first hps (by omega) fun j hj => byteAt_first (by omega)
  case total =>
    rw [sgBytes, sgBytes]
    change off + (0 + (sg.dmaLen - off)) = sg.dmaLen + 0
    omega
  case room =>
    change (PageMr.more _ _ c).descs.length ≤ _
    rw [more_descs_length]
    exact (Nat.zero_add c).symm ▸ hroom

theorem noRoom_first {ps a b c n : Nat} (hps : 0 < ps) (hoff : off < sg.dmaLen) (hc : c ≠ 1)
    (ha : a = sg.dmaAddress + off) (hb : b = a - a % ps)
    (hroom : c < pagesTo ps b (a + (sg.dmaLen - off))) (hn : 0 < n) :
    (((PageMr.blank ps c a).more b c).noRoom 0 sg a (prevPage ps a b c)).Sound
      (PageMr.blank ps c a) off (sg :: sgs) n := by
  have hle := le_prevPage_first hps hb hc
  have hlt := prevPage_lt (a := a) (by omega) hroom
  have hmod := Nat.mod_le a ps
  have hmore := PageVector.lt_of_lt_pagesTo hroom
  have hsum : sgBytes ((sg :: sgs).take 0) + sg.dmaLen ≤ sgBytes ((sg :: sgs).take n) :=
    sgBytes_take_lt hn rfl
  suffices h : (((PageMr.blank ps c a).more b c).noRoom 0 sg a (prevPage ps a b c)).Sound
      ((PageMr.blank ps c a).more b c) off (sg :: sgs) n from { h with }
  subst ha
  refine noRoom_sound _ off rfl (by omega) ?_ hle (by omega) (Nat.zero_le _) (fun _ => rfl) ?_ ?_ ?_
  · exact (Nat.add_zero off).trans (Nat.zero_add off).symm
  · rw [more_descs_length]
    exact Nat.le_of_eq (Nat.zero_add c)
  · change c * ps + off < (sg.dmaAddress + off) % ps + _
    omega
  · intro j hj
    rw [show (PageMr.more _ b c).length = 0 from rfl, Nat.zero_add] at hj
    rw [byteAt_first (by omega)]
    subst hb
    refine PageVector.bytes_first hps ?_ j hj
    cases c with
    | zero => exact absurd hj (by simp [prevPage])
    | succ c =>
      rw [prevPage] at hle ⊢
      rw [Nat.succ_mul]
      omega

theorem ibMapMrSg_sound {k : Nat} (hoff : off < sg.dmaLen) (hmax : mr.maxDescs ≠ 1)
    (hall : (sg :: sgs).length < 2147483648) :
    (mr.ibMapMrSg (sg :: sgs) off (2 ^ k)).Sound
      (PageMr.blank (2 ^ k) mr.maxDescs (sg.dmaAddress + off)) off (sg :: sgs)
      (1 + mappable (2 ^ k) (sg.dmaAddress + sg.dmaLen) sgs) := by
  have hps : 0 < 2 ^ k := Nat.two_pow_pos k
  have hfirst : mr.ibMapMrSg (sg :: sgs) off (2 ^ k) = sgNext (2 ^ k) sgs 0 sg off
      ((PageMr.blank (2 ^ k) mr.maxDescs (sg.dmaAddress + off)).mapEntry false
        (sg.dmaAddress + off) (sg.dmaLen - off)
        (sg.dmaAddress + off - (sg.dmaAddress + off) % 2 ^ k)) := by
    rw [PageMr.ibMapMrSg, if_neg (by omega), sgLoop_cons (k := k) rfl]
    simp [PageMr.blank]
  have hend : sg.dmaAddress + off + (sg.dmaLen - off) = sg.dmaAddress + sg.dmaLen := by omega
  rw [hfirst, ← hend, mapEntry_blank hps (by omega)]
  split
  case isTrue hroom =>
    have h := (SgInv.first sgs hps hoff rfl rfl hroom).loop_sound (k := k) rfl (by simp) hall
    exact { h with }
  case isFalse hroom => exact noRoom_first hps hoff hmax rfl rfl (by omega) (by omega)

theorem SgMapped.Sound.translate_eq {r : SgMapped} {n : Nat} (h : r.Sound mr off all n)
    (hi : i < r.mr.length) : r.mr.translate (mr.iova + i) = some (byteAt all (off + i)) := by
  obtain ⟨hsize, hiova, -⟩ := h.frame
  have hmod := Nat.mod_le mr.iova mr.pageSize
  rw [PageMr.translate, hsize, hiova, ← h.bytes i hi]
  congr 1
  omega

/-- A region that `mlx5_ib_alloc_mr` made finds every byte of its length where the scatter list has
    it. The count and the offset that are returned name the first byte behind the region. If
    the pages are enough for the longest region that the scatter list allows, then that is the
    region. -/
theorem map_mr_sg_sound (k maxNumSg off : Nat) (sg : Sg) (sgs : List Sg)
    (hlen : (sg :: sgs).length < 2147483648) (hoff : off < sg.dmaLen) :
    let r := (ibAllocMr maxNumSg).ibMapMrSg (sg :: sgs) off (2 ^ k)
    let longest := 1 + mappable (2 ^ k) (sg.dmaAddress + sg.dmaLen) sgs
    (∀ i < r.mr.length, r.mr.translate (r.mr.iova + i) = some (byteAt (sg :: sgs) (off + i))) ∧
    (∃ n, off + r.mr.length = sgBytes ((sg :: sgs).take n) + r.sgOffset ∧
      (∀ next, (sg :: sgs)[n]? = some next → r.sgOffset < next.dmaLen) ∧
      (r.ret = .mapped n ∨ r.ret = .enomem ∧ r.mr.length = 0)) ∧
    ((sg.dmaAddress + off) % 2 ^ k + sgBytes ((sg :: sgs).take longest) ≤
        (ibAllocMr maxNumSg).maxDescs * 2 ^ k + off →
      r.ret = .mapped longest ∧ r.sgOffset = 0) := by
  have hmax : (ibAllocMr maxNumSg).maxDescs ≠ 1 := by
    change (maxNumSg + 3) / 4 * 4 ≠ 1
    omega
  have h := ibMapMrSg_sound (k := k) hoff hmax hlen
  refine ⟨fun i hi => ?_, h.resume, h.whole⟩
  rw [h.frame.2.1]
  exact h.translate_eq hi

theorem small_len_lt (n : Fin 1024) : n.val + 1 < 4294967296 := by omega

theorem small_below (a n : Fin 1024) : a.val + (n.val + 1) < 9223372036854775808 := by omega

/-- An entry with `n + 1` bytes. -/
def Sg.small (a n : Fin 1024) : Sg :=
  ⟨a, n + 1, Nat.succ_pos n, small_len_lt n, small_below a n⟩

/-- With pages of four bytes: the second entry goes on where the first one ends, the third one is
    behind a gap. -/
theorem map_mr_sg_sound_gap :
    let r := (ibAllocMr 3).ibMapMrSg [Sg.small 9 4, Sg.small 14 3, Sg.small 32 3] 1 (2 ^ 2)
    r.ret = .mapped 2 ∧ r.mr.descs = [8, 12, 16] ∧ r.mr.iova = 10 ∧ r.mr.length = 8 ∧
    r.mr.translate (r.mr.iova + 7) = some 17 :=
  ⟨by decide, by decide, by decide, by decide,
    (map_mr_sg_sound 2 3 1 (Sg.small 9 4) [Sg.small 14 3, Sg.small 32 3] (by decide)
      (by decide)).1 7 (by decide)⟩

/-- The check of `sg_offset` lets the length of the first entry pass. Then a page is taken for no
    bytes at all, and the region starts there and not at the second entry. -/
theorem map_mr_sg_at_end :
    let sgs := [Sg.small 4 3, Sg.small 16 3]
    let r := (ibAllocMr 2).ibMapMrSg sgs 4 (2 ^ 2)
    r.ret = .mapped 2 ∧ 0 < r.mr.length ∧ r.mr.translate r.mr.iova = some 8 ∧ byteAt sgs 4 = 16 := by
  decide

/-! ## RMemVirt -/

/-- The page of every virtual page, in pages of 4096 bytes of the device's address space. -/
abbrev PageTable := Nat → Fin 2251799813685247

/-- The byte that a virtual address stands for. -/
def PageTable.phys (pt : PageTable) (addr : Nat) : Nat := pt (addr / 4096) * 4096 + addr % 4096

theorem page_len_lt : 4096 < 4294967296 := by decide

theorem page_below (f : Fin 2251799813685247) :
    f.val * 4096 + 4096 < 9223372036854775808 := by omega

/-- The entry of a scatter list for the page of `addr`: `vmalloc_to_page`, `bd_sg_set_page` with
    offset zero, and its mapping for the device. -/
def PageTable.vmallocToPage (pt : PageTable) (addr : Nat) : Sg :=
  ⟨pt (addr / 4096) * 4096, 4096, Nat.succ_pos 4095, page_len_lt, page_below _⟩

structure RMemVirt where
  buf : Nat
  dmaBuf : Nat
  mr : PageMr
  capacity : Nat

namespace RMemVirt

def entryLen (size : Nat) : Nat := if size % 4096 ≠ 0 then 1 + size / 4096 else size / 4096

def sgList (pt : PageTable) (baseAddr size : Nat) : List Sg :=
  (List.range (entryLen size)).map fun i => pt.vmallocToPage (baseAddr + i * 4096)

/-- `create_from_mr`. What `ib_map_mr_sg` returns is only looked at for a message. Without a page
    there is no first entry, and the access to it panics. -/
def createFromMr (pt : PageTable) (mr : PageMr) (baseAddr size : Nat) : Option RMemVirt :=
  (sgList pt baseAddr size).head?.map fun sg =>
    { buf := baseAddr
      dmaBuf := sg.dmaAddress
      mr := (mr.ibMapMrSg (sgList pt baseAddr size) 0 4096).mr
      capacity := 4096 * entryLen size }

def create (pt : PageTable) (baseAddr size : Nat) : Option RMemVirt :=
  createFromMr pt (ibAllocMr (entryLen size)) baseAddr size

def getPa (m : RMemVirt) (off : Nat) : Nat := m.dmaBuf + off

def getSz (m : RMemVirt) : Nat := m.capacity

variable {pt : PageTable} {baseAddr size : Nat} {m : RMemVirt}

@[simp] theorem sgList_length : (sgList pt baseAddr size).length = entryLen size := by simp [sgList]

theorem sgList_getElem? {i : Nat} (hi : i < entryLen size) :
    (sgList pt baseAddr size)[i]? = some (pt.vmallocToPage (baseAddr + i * 4096)) := by
  simp [sgList, List.getElem?_range hi]

theorem mem_sgList (h : sg ∈ sgList pt baseAddr size) :
    sg.dmaAddress % 4096 = 0 ∧ sg.dmaLen = 4096 := by
  obtain ⟨i, -, rfl⟩ := List.mem_map.mp h
  exact ⟨Nat.mul_mod_left _ _, rfl⟩

end RMemVirt

/-- Entries that are whole pages go together wherever they are. -/
theorem mappable_pages {ps e : Nat}
    (h : ∀ sg ∈ sgs, sg.dmaAddress % ps = 0 ∧ sg.dmaLen = ps) (he : e % ps = 0) :
    mappable ps e sgs = sgs.length := by
  induction sgs generalizing e with
  | nil => rfl
  | cons sg sgs ih =>
    obtain ⟨haddr, hlen⟩ := h sg List.mem_cons_self
    have hend : (sg.dmaAddress + sg.dmaLen) % ps = 0 := by rw [hlen, Nat.add_mod_right, haddr]
    rw [mappable, if_pos (Or.inr ⟨he, haddr⟩), List.length_cons,
      ih (fun sg' h' => h sg' (List.mem_cons_of_mem _ h')) hend]

theorem sgBytes_pages {ps : Nat} (h : ∀ sg ∈ sgs, sg.dmaLen = ps) :
    sgBytes sgs = ps * sgs.length := by
  induction sgs with
  | nil => rfl
  | cons sg sgs ih =>
    rw [sgBytes, h sg List.mem_cons_self, ih fun sg' h' => h sg' (List.mem_cons_of_mem _ h'),
      List.length_cons, Nat.mul_succ, Nat.add_comm]

theorem byteAt_pages {ps : Nat} (hps : 0 < ps) (h : ∀ sg ∈ sgs, sg.dmaLen = ps)
    (hi : sgs[i / ps]? = some sg) : byteAt sgs i = sg.dmaAddress + i % ps := by
  induction sgs generalizing i with
  | nil => simp at hi
  | cons first sgs ih =>
    rw [byteAt, h first List.mem_cons_self]
    rcases Nat.lt_or_ge i ps with hlt | hge
    · rw [Nat.div_eq_of_lt hlt] at hi
      obtain rfl := Option.some.inj hi
      rw [if_pos hlt, Nat.mod_eq_of_lt hlt]
    · obtain ⟨j, rfl⟩ := Nat.exists_eq_add_of_le hge
      rw [Nat.add_div_left _ hps, List.getElem?_cons_succ] at hi
      rw [if_neg (Nat.not_lt_of_le hge), Nat.add_sub_cancel_left, Nat.add_mod_left]
      exact ih (fun sg' h' => h sg' (List.mem_cons_of_mem _ h')) hi

/-- A scatter list of pages is mapped as a whole if there are as many pages in the region. -/
theorem ibMapMrSg_pages {r : SgMapped} (hr : r = mr.ibMapMrSg (sg :: sgs) 0 4096)
    (hpages : ∀ sg' ∈ sg :: sgs, sg'.dmaAddress % 4096 = 0 ∧ sg'.dmaLen = 4096)
    (hmax : mr.maxDescs ≠ 1) (hlen : (sg :: sgs).length < 2147483648) :
    r.mr.pageSize = 4096 ∧ r.mr.iova = sg.dmaAddress ∧ r.mr.descs.length ≤ mr.maxDescs ∧
    ((sg :: sgs).length ≤ mr.maxDescs → ∀ off < 4096 * (sg :: sgs).length,
      r.mr.translate (sg.dmaAddress + off) = some (byteAt (sg :: sgs) off)) := by
  obtain ⟨haddr, hsize⟩ := hpages sg List.mem_cons_self
  have hend : (sg.dmaAddress + sg.dmaLen) % 4096 = 0 := by omega
  have hall : 1 + mappable 4096 (sg.dmaAddress + sg.dmaLen) sgs = (sg :: sgs).length := by
    rw [mappable_pages (fun sg' h' => hpages sg' (List.mem_cons_of_mem _ h')) hend, List.length_cons,
      Nat.add_comm]
  have h : r.Sound (PageMr.blank 4096 mr.maxDescs sg.dmaAddress) 0 (sg :: sgs)
      (1 + mappable 4096 (sg.dmaAddress + sg.dmaLen) sgs) :=
    hr ▸ ibMapMrSg_sound (k := 12) (by omega) hmax hlen
  refine ⟨h.frame.1, h.frame.2.1, h.room, ?_⟩
  intro hroom off hoff
  have hbytes := sgBytes_pages (fun sg' h' => (hpages sg' h').2)
  obtain ⟨hret, hzero⟩ := h.whole (by
    rw [hall, List.take_length, hbytes]
    change sg.dmaAddress % 4096 + 4096 * (sg :: sgs).length ≤ mr.maxDescs * 4096 + 0
    omega)
  obtain ⟨n, htotal, -, hn⟩ := h.resume
  obtain rfl : (sg :: sgs).length = n := by
    rw [hret, hall] at hn
    simpa using hn
  rw [List.take_length, hbytes, hzero] at htotal
  exact h.translate_eq (by omega) |>.trans (by rw [Nat.zero_add])

namespace RMemVirt

theorem byteAt_sgList {off : Nat} (hoff : off < 4096 * entryLen size) :
    byteAt (sgList pt baseAddr size) off =
      pt ((baseAddr + off / 4096 * 4096) / 4096) * 4096 + off % 4096 :=
  byteAt_pages (show 0 < 4096 by decide) (fun _ h => (mem_sgList h).2) (sgList_getElem? (by omega))

theorem createFromMr_eq_some {mr : PageMr} (hm : createFromMr pt mr baseAddr size = some m)
    (hmax : mr.maxDescs ≠ 1) (hlen : entryLen size < 2147483648) :
    m.buf = baseAddr ∧ m.getSz = 4096 * entryLen size ∧ 0 < entryLen size ∧
    m.mr.pageSize = 4096 ∧ m.mr.iova = m.dmaBuf ∧ m.dmaBuf % 4096 = 0 ∧
    m.mr.descs.length ≤ mr.maxDescs ∧
    (entryLen size ≤ mr.maxDescs → ∀ off < m.getSz,
      m.mr.translate (m.getPa off) = some (byteAt (sgList pt baseAddr size) off)) := by
  obtain ⟨sg, hsg, rfl⟩ := Option.map_eq_some_iff.mp hm
  obtain ⟨sgs, hsgs⟩ := List.head?_eq_some_iff.mp hsg
  have hcount : (sg :: sgs).length = entryLen size := by rw [← hsgs, sgList_length]
  have hpages : ∀ sg' ∈ sg :: sgs, sg'.dmaAddress % 4096 = 0 ∧ sg'.dmaLen = 4096 :=
    fun sg' h' => mem_sgList (hsgs ▸ h')
  obtain ⟨hsize, hiova, hroom, hall⟩ :=
    ibMapMrSg_pages (congrArg (mr.ibMapMrSg · 0 4096) hsgs) hpages hmax (hcount ▸ hlen)
  rw [hcount] at hall
  refine ⟨rfl, rfl, by rw [← hcount]; exact Nat.succ_pos _, hsize, hiova,
    (hpages sg List.mem_cons_self).1, hroom, ?_⟩
  intro hle off hoff
  exact (hall hle off hoff).trans (by rw [hsgs])

/-- The address that `get_pa` gives for an offset reaches the byte at that offset of the buffer, for
    every offset below `get_sz`, exactly if the buffer starts at a page boundary and the region was
    allocated with enough pages for it. -/
theorem rmem_virt_exact (pt : PageTable) (baseAddr size maxNumSg : Nat) (m : RMemVirt)
    (hm : createFromMr pt (ibAllocMr maxNumSg) baseAddr size = some m)
    (hlen : entryLen size < 2147483648) :
    (∀ off < m.getSz, m.mr.translate (m.getPa off) = some (pt.phys (m.buf + off))) ↔
      baseAddr % 4096 = 0 ∧ entryLen size ≤ (ibAllocMr maxNumSg).maxDescs := by
  have hmax : (ibAllocMr maxNumSg).maxDescs ≠ 1 := by
    change (maxNumSg + 3) / 4 * 4 ≠ 1
    omega
  obtain ⟨hbuf, hsz, hpos, hsize, hiova, hdma, hroom, hall⟩ := createFromMr_eq_some hm hmax hlen
  rw [hbuf]
  constructor
  · intro h
    have hle : entryLen size ≤ (ibAllocMr maxNumSg).maxDescs := by
      have hlast := h (m.getSz - 1) (by omega)
      rw [PageMr.translate, hsize, hiova, lookup, Option.map_eq_some_iff] at hlast
      obtain ⟨page, hpage, -⟩ := hlast
      obtain ⟨hidx, -⟩ := List.getElem?_eq_some_iff.mp hpage
      rw [getPa, hdma] at hidx
      omega
    have hfirst := h 0 (by omega)
    rw [hall hle 0 (by omega), Option.some_inj, byteAt_sgList (by omega), PageTable.phys] at hfirst
    simp only [Nat.zero_div, Nat.zero_mul, Nat.add_zero, Nat.zero_mod] at hfirst
    exact ⟨by omega, hle⟩
  · rintro ⟨hbase, hle⟩ off hoff
    rw [hall hle off hoff, byteAt_sgList (by omega), PageTable.phys]
    have hpage : (baseAddr + off / 4096 * 4096) / 4096 = (baseAddr + off) / 4096 := by omega
    have hbyte : (baseAddr + off) % 4096 = off % 4096 := by omega
    rw [hpage, hbyte]

/-- Pages that are not next to each other. -/
def scattered : PageTable := fun page => Fin.ofNat 2251799813685247 (page * 5 + 1)

/-- Five pages at a page boundary; the same buffer eight bytes further on is not reached. -/
theorem rmem_virt_exact_scattered :
    (∃ m, createFromMr scattered (ibAllocMr 5) 8192 20000 = some m ∧
      ∀ off < m.getSz, m.mr.translate (m.getPa off) = some (scattered.phys (m.buf + off))) ∧
    ∃ m, createFromMr scattered (ibAllocMr 5) 8200 20000 = some m ∧
      ¬∀ off < m.getSz, m.mr.translate (m.getPa off) = some (scattered.phys (m.buf + off)) :=
  ⟨⟨_, rfl, (rmem_virt_exact _ 8192 20000 5 _ rfl (by decide)).mpr (by decide)⟩,
    ⟨_, rfl, (rmem_virt_exact _ 8200 20000 5 _ rfl (by decide)).not.mpr (by decide)⟩⟩

end RMemVirt

end Driver
