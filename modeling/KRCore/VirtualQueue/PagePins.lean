-- SUMMARY: What RegMRs pins, reads, releases and frees, and how far that is balanced.
import Mathlib.Data.List.Count
import Mathlib.Data.List.Perm.Basic

/-!
# The page pins of RegMRs

`bench_pin` allocates one page for a list of page pointers, lets `get_user_pages` fill
it, and releases the pages of the list. It does not look at what `get_user_pages`
returned and not at how many pointers fit into the page. At the end it does not free the
page of the list, but the first page in it, a second time and as two pages.
-/

namespace PagePins

/-- A `struct page *`. -/
abbrev Page := BitVec 64

def pageSz : Nat := 4096

/-- The size of a page pointer. -/
def slotSz : Nat := 8

/-- The page that `get_free_page` has returned for the list. -/
structure ListPage where
  addr : Nat
  page : Page

/-- What `get_user_pages` comes to: an error number, or at most as many pages as were asked
    for, each with a reference for the caller. -/
inductive UserPages (asked : Nat) where
  | error (errno : Int) (neg : errno < 0)
  | pinned (pages : List Page) (le : pages.length ≤ asked)

namespace UserPages

def pages {asked : Nat} : UserPages asked → List Page
  | error _ _ => []
  | pinned pages _ => pages

theorem pages_length_le {asked : Nat} (ans : UserPages asked) : ans.pages.length ≤ asked := by
  cases ans with
  | error errno neg => exact Nat.zero_le _
  | pinned pages le => exact le

end UserPages

/-- What happens to pages and to the list: a page gets a reference, a slot is written or
    read at its address, `put_page` and `__free_pages` give up a reference. -/
inductive PinOp where
  | pin (p : Page)
  | store (addr : Nat)
  | load (addr : Nat)
  | put (p : Page)
  | free (p : Page) (order : Nat)
deriving DecidableEq, Repr

def PinOp.pinned : PinOp → Option Page
  | .pin p => some p
  | _ => none

def PinOp.putPage : PinOp → Option Page
  | .put p => some p
  | _ => none

def PinOp.freed : PinOp → Option (Page × Nat)
  | .free p order => some (p, order)
  | _ => none

/-! ## The code -/

/-- The number of pages of `size` bytes. -/
def entryLen (size : Nat) : Nat :=
  if size % pageSz ≠ 0 then 1 + size / pageSz else size / pageSz

/-- `get_user_pages` with a list at `addr`. -/
def getUserPages (addr : Nat) (pages : List Page) : List PinOp :=
  pages.map .pin ++ (List.range pages.length).map fun i => .store (addr + i * slotSz)

/-- What stands in slot `i` of the list; `junk` stood there before. -/
def slot (pages : List Page) (junk : Nat → Page) (i : Nat) : Page := pages[i]?.getD (junk i)

/-- The loop of `bench_pin`. -/
def putPages (addr : Nat) (content : Nat → Page) (n : Nat) : List PinOp :=
  (List.range n).flatMap fun i => [.load (addr + i * slotSz), .put (content i)]

/-- `bench_pin`. Without a page for the list it ends with the first slot that it reads. -/
def benchPin (alloc : Option ListPage) (size : Nat) (ans : UserPages (entryLen size))
    (junk : Nat → Page) : List PinOp :=
  match alloc with
  | none => [.load 0]
  | some list =>
    let content := slot ans.pages junk
    getUserPages list.addr ans.pages ++ putPages list.addr content (entryLen size) ++
      [.load list.addr, .free (content 0) 1]

/-! ## What it should be -/

/-- The slots that are written and read lie in the page of the list. -/
def Inside (alloc : Option ListPage) (ops : List PinOp) : Prop :=
  ∀ a, .store a ∈ ops ∨ .load a ∈ ops →
    ∃ list, alloc = some list ∧ list.addr ≤ a ∧ a + slotSz ≤ list.addr + pageSz

/-- Only slots that have been filled are read. -/
def FilledOnly (ops : List PinOp) : Prop := ∀ a, .load a ∈ ops → .store a ∈ ops

/-- `put_page` gives up exactly the references that `get_user_pages` has taken. -/
def PutsMatch (ops : List PinOp) : Prop :=
  ∀ p, (ops.filterMap PinOp.putPage).count p = (ops.filterMap PinOp.pinned).count p

structure Balanced (alloc : Option ListPage) (ops : List PinOp) : Prop where
  inside : Inside alloc ops
  filled : FilledOnly ops
  /-- `__free_pages` too gives up a reference. -/
  released : ∀ p,
    (ops.filterMap PinOp.putPage ++ (ops.filterMap PinOp.freed).map Prod.fst).count p =
      (ops.filterMap PinOp.pinned).count p
  freed : ops.filterMap PinOp.freed = alloc.toList.map fun list => (list.page, 0)

/-! ## What it is -/

theorem filterMap_putPages {β : Type} (f : PinOp → Option β) (hload : ∀ a, f (.load a) = none)
    (addr : Nat) (content : Nat → Page) (n : Nat) :
    (putPages addr content n).filterMap f =
      (List.range n).filterMap fun i => f (.put (content i)) := by
  induction n with
  | zero => rfl
  | succ n ih =>
    have hsucc : putPages addr content (n + 1) =
        putPages addr content n ++ [.load (addr + n * slotSz), .put (content n)] := by
      simp [putPages, List.range_succ]
    rw [hsucc, List.filterMap_append, ih, List.range_succ, List.filterMap_append]
    simp [List.filterMap_cons, hload]

section Trace

variable {list : ListPage} {size : Nat} {ans : UserPages (entryLen size)} {junk : Nat → Page}

theorem benchPin_pinned :
    (benchPin (some list) size ans junk).filterMap PinOp.pinned = ans.pages := by
  simp only [benchPin, getUserPages, List.filterMap_append, List.filterMap_map,
    filterMap_putPages PinOp.pinned fun _ => rfl]
  simp [Function.comp_def, PinOp.pinned, List.filterMap_cons]

theorem benchPin_putPage :
    (benchPin (some list) size ans junk).filterMap PinOp.putPage =
      (List.range (entryLen size)).map (slot ans.pages junk) := by
  simp only [benchPin, getUserPages, List.filterMap_append, List.filterMap_map,
    filterMap_putPages PinOp.putPage fun _ => rfl]
  simp [Function.comp_def, PinOp.putPage, List.filterMap_cons]

theorem benchPin_freed :
    (benchPin (some list) size ans junk).filterMap PinOp.freed =
      [(slot ans.pages junk 0, 1)] := by
  simp only [benchPin, getUserPages, List.filterMap_append, List.filterMap_map,
    filterMap_putPages PinOp.freed fun _ => rfl]
  simp [Function.comp_def, PinOp.freed, List.filterMap_cons]

theorem store_mem_benchPin {a : Nat} :
    .store a ∈ benchPin (some list) size ans junk ↔
      ∃ i < ans.pages.length, a = list.addr + i * slotSz := by
  simp [benchPin, getUserPages, putPages, eq_comm]

theorem load_mem_benchPin {a : Nat} :
    .load a ∈ benchPin (some list) size ans junk ↔
      (∃ i < entryLen size, a = list.addr + i * slotSz) ∨ a = list.addr := by
  simp [benchPin, getUserPages, putPages]

/-! ## The clauses -/

/-- A page has room for 512 slots. -/
theorem inside_iff :
    Inside (some list) (benchPin (some list) size ans junk) ↔ entryLen size ≤ 512 := by
  have hle := ans.pages_length_le
  simp only [Inside, store_mem_benchPin, load_mem_benchPin, Option.some.injEq]
  constructor
  · intro h
    by_contra hlt
    obtain ⟨_, rfl, -, hlast⟩ := h (list.addr + 512 * slotSz) (.inr (.inl ⟨512, by omega, rfl⟩))
    simp only [slotSz, pageSz] at hlast
    omega
  · intro h a ha
    have hslot : ∃ i < 512, a = list.addr + i * slotSz := by
      rcases ha with ⟨i, hi, rfl⟩ | ⟨i, hi, rfl⟩ | rfl
      · exact ⟨i, by omega, rfl⟩
      · exact ⟨i, by omega, rfl⟩
      · exact ⟨0, by decide, by rw [Nat.zero_mul, Nat.add_zero]⟩
    obtain ⟨i, hi, rfl⟩ := hslot
    refine ⟨list, rfl, Nat.le_add_right _ _, ?_⟩
    simp only [slotSz, pageSz]
    omega

theorem filledOnly_iff :
    FilledOnly (benchPin (some list) size ans junk) ↔
      0 < entryLen size ∧ ans.pages.length = entryLen size := by
  have hle := ans.pages_length_le
  simp only [FilledOnly, store_mem_benchPin, load_mem_benchPin, slotSz]
  constructor
  · intro h
    obtain ⟨i, hi, -⟩ := h list.addr (.inr rfl)
    obtain ⟨j, hj, heq⟩ := h (list.addr + (entryLen size - 1) * 8)
      (.inl ⟨entryLen size - 1, by omega, rfl⟩)
    omega
  · rintro ⟨hpos, hlen⟩ a (⟨i, hi, rfl⟩ | rfl)
    · exact ⟨i, by omega, rfl⟩
    · exact ⟨0, by omega, by rw [Nat.zero_mul, Nat.add_zero]⟩

/-- With all pages there, the list holds exactly them. -/
theorem map_slot_eq (hlen : ans.pages.length = entryLen size) :
    (List.range (entryLen size)).map (slot ans.pages junk) = ans.pages := by
  refine List.ext_getElem (by simp [hlen]) fun i hi hi' => ?_
  simp [slot, hi']

theorem putsMatch_iff :
    PutsMatch (benchPin (some list) size ans junk) ↔ ans.pages.length = entryLen size := by
  simp only [PutsMatch, benchPin_putPage, benchPin_pinned]
  constructor
  · intro h
    have hperm := List.perm_iff_count.mpr h
    simpa using hperm.length_eq.symm
  · intro hlen p
    rw [map_slot_eq hlen]

end Trace

/-- The page of the list is never freed. -/
theorem not_balanced (alloc : Option ListPage) (size : Nat) (ans : UserPages (entryLen size))
    (junk : Nat → Page) : ¬ Balanced alloc (benchPin alloc size ans junk) := by
  intro h
  cases alloc with
  | none =>
    have hload : PinOp.store 0 ∈ [PinOp.load 0] := h.filled 0 (List.mem_singleton.mpr rfl)
    simp at hload
  | some list =>
    have hfree := h.freed
    rw [benchPin_freed] at hfree
    simp at hfree

/-- For every size and whatever `get_free_page` and `get_user_pages` answer, the pins of RegMRs
    are not balanced. What holds, with a page for the list, are its clauses: the slots lie in
    the page exactly if there are at most 512, only filled ones are read exactly if there are
    pages and all of them came, and `put_page` gives up what was pinned exactly if all came.
    But then `__free_pages` is called for two pages from the first page in the list on. -/
theorem reg_mrs_pins_iff (size : BitVec 32) (ans : UserPages (entryLen size.toNat))
    (junk : Nat → Page) :
    (∀ alloc, ¬ Balanced alloc (benchPin alloc size.toNat ans junk)) ∧
      ∀ list,
        (Inside (some list) (benchPin (some list) size.toNat ans junk) ↔
          entryLen size.toNat ≤ 512) ∧
        (FilledOnly (benchPin (some list) size.toNat ans junk) ↔
          0 < entryLen size.toNat ∧ ans.pages.length = entryLen size.toNat) ∧
        (PutsMatch (benchPin (some list) size.toNat ans junk) ↔
          ans.pages.length = entryLen size.toNat) ∧
        (benchPin (some list) size.toNat ans junk).filterMap PinOp.freed =
          [(slot ans.pages junk 0, 1)] :=
  ⟨fun alloc => not_balanced alloc size.toNat ans junk,
    fun _ => ⟨inside_iff, filledOnly_iff, putsMatch_iff, benchPin_freed⟩⟩

/-- `get_user_pages` returns `-EFAULT`. -/
def UserPages.fault {asked : Nat} : UserPages asked := .error (.negSucc 13) (Int.negSucc_lt_zero 13)

/-- One page that was pinned is released twice, and the page of the list is not freed. When
    `get_user_pages` fails, what stood in the list is released. -/
theorem reg_mrs_releases_twice :
    benchPin (some ⟨4096, 7⟩) 4096 (.pinned [9] (Nat.le_refl 1)) (fun _ => 0) =
        [.pin 9, .store 4096, .load 4096, .put 9, .load 4096, .free 9 1] ∧
      ¬ Balanced (some ⟨4096, 7⟩)
        (benchPin (some ⟨4096, 7⟩) 4096 (.pinned [9] (Nat.le_refl 1)) fun _ => 0) ∧
      benchPin (some ⟨4096, 7⟩) 4096 .fault (fun _ => 5) =
        [.load 4096, .put 5, .load 4096, .free 5 1] := by
  refine ⟨by decide, fun h => ?_, by decide⟩
  have hfree := h.freed
  revert hfree
  decide

end PagePins
