-- SUMMARY: Page vectors: bytes that are scattered over pages, looked up by their offset from the first page.
import Mathlib.Data.List.Basic
import Mathlib.Data.Nat.Basic

/-!
# Page vectors

A region of memory is given as a list of pages of `ps` bytes. It starts at an offset
in the first page and goes on from page to page, so that the byte with offset `x`
from the start of the first page lies in page `x / ps`. A run of bytes with
consecutive addresses can be added behind a region if it starts where the last page
is full, or goes on where the region ends.
-/

namespace PageVector

variable {ps a n o len e : Nat} {pages : List Nat} {p q : Nat → Nat}

/-- The address of a byte by its offset from the start of the first page. -/
def lookup (ps : Nat) (pages : List Nat) (x : Nat) : Option Nat := pages[x / ps]?.map (· + x % ps)

/-- `c` consecutive pages. -/
def run (ps b c : Nat) : List Nat := (List.range c).map fun k => b + k * ps

@[simp] theorem run_length (ps b c : Nat) : (run ps b c).length = c := by simp [run]

@[simp] theorem run_zero (ps b : Nat) : run ps b 0 = [] := rfl

theorem run_succ (ps b c : Nat) : run ps b (c + 1) = b :: run ps (b + ps) c := by
  simp only [run, List.range_succ_eq_map, List.map_cons, List.map_map, Nat.zero_mul, Nat.add_zero,
    List.cons.injEq, true_and]
  refine List.map_congr_left fun k _ => ?_
  simp only [Function.comp_apply, Nat.succ_eq_add_one, Nat.add_mul]
  omega

theorem run_getLast? (ps b c : Nat) : (run ps b (c + 1)).getLast? = some (b + c * ps) := by
  rw [run, List.range_succ, List.map_append]
  simp

theorem lookup_append_left {x : Nat} (more : List Nat) (hps : 0 < ps) (h : x < pages.length * ps) :
    lookup ps (pages ++ more) x = lookup ps pages x := by
  have hlt : x / ps < pages.length := (Nat.div_lt_iff_lt_mul hps).mpr h
  rw [lookup, lookup, List.getElem?_append_left hlt]

/-- A byte in pages that were added. -/
theorem lookup_append_run {x c : Nat} (b : Nat) (hps : 0 < ps) (hle : pages.length * ps ≤ x)
    (hlt : x < (pages.length + c) * ps) :
    lookup ps (pages ++ run ps b c) x = some (b + (x - pages.length * ps)) := by
  have hdiv : pages.length ≤ x / ps := (Nat.le_div_iff_mul_le hps).mpr hle
  have hidx : x / ps - pages.length < c := by
    have : x / ps < pages.length + c := (Nat.div_lt_iff_lt_mul hps).mpr hlt
    omega
  have hmod := Nat.div_add_mod x ps
  have hmul : (x / ps - pages.length) * ps + pages.length * ps = x / ps * ps := by
    rw [← Nat.add_mul, Nat.sub_add_cancel hdiv]
  rw [Nat.mul_comm] at hmod
  rw [lookup, List.getElem?_append_right hdiv, run, List.getElem?_map,
    List.getElem?_range hidx, Option.map_some, Option.map_some, Option.some_inj]
  omega

/-- A byte in the last page. -/
theorem lookup_last {x l : Nat} (hl : pages.getLast? = some l) (hle : pages.length * ps ≤ x + ps)
    (hlt : x < pages.length * ps) : lookup ps pages x = some (l + ps - (pages.length * ps - x)) := by
  have hps : 0 < ps := by
    rcases Nat.eq_zero_or_pos ps with rfl | hpos
    · omega
    · exact hpos
  have hlen : 0 < pages.length := by
    rcases Nat.eq_zero_or_pos pages.length with hzero | hpos
    · rw [hzero] at hlt
      omega
    · exact hpos
  have hsplit : (pages.length - 1) * ps + ps = pages.length * ps := by
    rw [← Nat.succ_mul, Nat.succ_eq_add_one, Nat.sub_add_cancel hlen]
  have hdiv : x / ps = pages.length - 1 := by
    refine Nat.div_eq_of_lt_le (by omega) ?_
    rw [Nat.succ_mul]
    omega
  have hmod := Nat.div_add_mod x ps
  rw [hdiv, Nat.mul_comm] at hmod
  rw [List.getLast?_eq_getElem?] at hl
  rw [lookup, hdiv, hl, Option.map_some, Option.some_inj]
  omega

/-! ## Regions -/

/-- How many pages from `b` on are needed up to the address `e`. -/
def pagesTo (ps b e : Nat) : Nat := (e - b + (ps - 1)) / ps

theorem le_pagesTo (hps : 0 < ps) (b e : Nat) : e ≤ b + pagesTo ps b e * ps := by
  have hmod := Nat.div_add_mod (e - b + (ps - 1)) ps
  have hlt := Nat.mod_lt (e - b + (ps - 1)) hps
  rw [Nat.mul_comm] at hmod
  unfold pagesTo
  omega

theorem pagesTo_lt (hps : 0 < ps) {b e : Nat} (hbe : b < e + ps) :
    b + pagesTo ps b e * ps < e + ps := by
  have hmod := Nat.div_add_mod (e - b + (ps - 1)) ps
  rw [Nat.mul_comm] at hmod
  rcases Nat.lt_or_ge b e with hlt | hge
  · unfold pagesTo
    omega
  · rw [show pagesTo ps b e = 0 from Nat.div_eq_of_lt (by omega)]
    omega

theorem pagesTo_of_le (hps : 0 < ps) {b e : Nat} (heb : e ≤ b) : pagesTo ps b e = 0 :=
  Nat.div_eq_of_lt (by omega)

theorem pagesTo_of_lt (hps : 0 < ps) {b e : Nat} (hbe : b < e) :
    pagesTo ps b e = pagesTo ps (b + ps) e + 1 := by
  rcases Nat.lt_or_ge (b + ps) e with hlt | hge
  · rw [pagesTo, pagesTo, ← Nat.add_div_right _ hps]
    congr 1
    omega
  · rw [pagesTo_of_le hps hge, pagesTo]
    exact Nat.div_eq_of_lt_le (by omega) (by omega)

theorem lt_of_lt_pagesTo {b e c : Nat} (h : c < pagesTo ps b e) : b + c * ps < e := by
  have hmul := Nat.mul_le_of_le_div _ _ _ h
  have hps : 0 < ps := by
    rcases Nat.eq_zero_or_pos ps with rfl | hpos
    · simp [pagesTo] at h
    · exact hpos
  rw [Nat.succ_mul] at hmul
  omega

theorem pagesTo_le (hps : 0 < ps) (b e : Nat) : pagesTo ps b e ≤ e - b := by
  refine Nat.le_of_lt_succ ((Nat.div_lt_iff_lt_mul hps).mpr ?_)
  rw [Nat.succ_mul]
  have := Nat.le_mul_of_pos_right (e - b) hps
  omega

/-- The pages hold the bytes `p 0, …, p (len - 1)` from offset `o` of the first page on, and no
    page more than that. `e` is the address behind the last byte. -/
structure Covers (ps : Nat) (pages : List Nat) (o len : Nat) (p : Nat → Nat) (e : Nat) : Prop where
  fits : o + len ≤ pages.length * ps
  used : pages.length * ps < o + len + ps
  bytes : ∀ i < len, lookup ps pages (o + i) = some (p i)
  last : ∃ l, pages.getLast? = some l ∧ l % ps = 0 ∧ l + ps + (o + len) = e + pages.length * ps

/-- Pages that are added behind others, where those have no bytes of the new run. -/
theorem lookup_run {b c x j : Nat} (hps : 0 < ps) (hb : b + x = a + pages.length * ps)
    (hx : pages.length * ps ≤ x + j) (hj : x + j < (pages.length + c) * ps) :
    lookup ps (pages ++ run ps b c) (x + j) = some (a + j) := by
  rw [lookup_append_run b hps hx hj, Option.some_inj]
  omega

/-- The last page once more pages were added. -/
theorem getLast?_append_run {b c l : Nat} (hl : pages.getLast? = some l) (hb : b = l + ps) :
    (pages ++ run ps b c).getLast? = some (l + c * ps) := by
  cases c with
  | zero => simpa using hl
  | succ c =>
    rw [List.getLast?_append, run_getLast?, Option.some_or, hb, Nat.succ_mul]
    congr 1
    omega

/-- The first bytes of a region. -/
theorem bytes_first (hps : 0 < ps) {c : Nat} (hc : a % ps + n ≤ c * ps) :
    ∀ i < n, lookup ps (run ps (a - a % ps) c) (a % ps + i) = some (a + i) := by
  have hle := Nat.mod_le a ps
  intro i hi
  rw [← List.nil_append (run ps (a - a % ps) c)]
  exact lookup_run hps (by simp; omega) (by simp) (by simp; omega)

theorem Covers.first (hps : 0 < ps) (hn : 0 < n) (hp : ∀ i < n, p i = a + i) :
    Covers ps (run ps (a - a % ps) (pagesTo ps (a - a % ps) (a + n))) (a % ps) n p (a + n) := by
  have hle := Nat.mod_le a ps
  have hdvd : (a - a % ps) % ps = 0 := Nat.sub_mod_eq_zero_of_mod_eq (Nat.mod_mod a ps).symm
  have hto := le_pagesTo hps (a - a % ps) (a + n)
  have hnear := pagesTo_lt hps (b := a - a % ps) (e := a + n) (by omega)
  generalize pagesTo ps (a - a % ps) (a + n) = c at *
  obtain ⟨c, rfl⟩ : ∃ c', c = c' + 1 := ⟨c - 1, by cases c <;> omega⟩
  constructor
  case fits =>
    rw [run_length]
    omega
  case used =>
    rw [run_length]
    omega
  case bytes =>
    intro i hi
    rw [hp i hi]
    exact bytes_first hps (by omega) i hi
  case last =>
    refine ⟨_, run_getLast? _ _ _, ?_, ?_⟩
    · rw [Nat.add_mul_mod_self_right, hdvd]
    · rw [run_length, Nat.add_mul]
      omega

/-- A region whose last byte is followed by a page ends where its last page ends. -/
theorem Covers.full (h : Covers ps pages o len p e) (he : e % ps = 0) :
    o + len = pages.length * ps := by
  obtain ⟨l, -, hldvd, hlast⟩ := h.last
  have hfits := h.fits
  have hused := h.used
  have hdvd : ps ∣ o + len := by
    have hl : ps ∣ l + ps := Nat.dvd_add (Nat.dvd_of_mod_eq_zero hldvd) (Nat.dvd_refl ps)
    refine (Nat.dvd_add_right hl).mp ?_
    rw [hlast]
    exact Nat.dvd_add (Nat.dvd_of_mod_eq_zero he) (Nat.dvd_mul_left _ _)
  have hgap : ps ∣ pages.length * ps - (o + len) := Nat.dvd_sub (Nat.dvd_mul_left _ _) hdvd
  have := Nat.eq_zero_of_dvd_of_lt hgap (by omega)
  omega

/-- Otherwise the address behind its last byte is in the last page. -/
theorem Covers.getLast?_eq (h : Covers ps pages o len p e) (he : e % ps ≠ 0) :
    pages.getLast? = some (e - e % ps) ∧
      e - e % ps + ps + (o + len) = e + pages.length * ps := by
  obtain ⟨l, hl, hldvd, hlast⟩ := h.last
  have hfits := h.fits
  have hused := h.used
  have hpage : e - e % ps = l := by
    obtain ⟨r, rfl⟩ : ∃ r, e = l + r := ⟨e - l, by omega⟩
    rw [Nat.add_mod, hldvd, Nat.zero_add, Nat.mod_mod] at he ⊢
    have hr : r < ps := by
      rcases Nat.lt_or_eq_of_le (show r ≤ ps by omega) with hlt | heq
      · exact hlt
      · rw [heq, Nat.mod_self] at he
        exact absurd rfl he
    rw [Nat.mod_eq_of_lt hr]
    omega
  rw [hpage]
  exact ⟨hl, hlast⟩

/-- A run of bytes that starts on a page, behind a region that ends with a page. -/
theorem Covers.bytes_aligned (h : Covers ps pages o len p e) (hps : 0 < ps) (he : e % ps = 0)
    (hold : ∀ i < len, q i = p i) (hnew : ∀ j < n, q (len + j) = a + j) {c : Nat}
    (hc : n ≤ c * ps) :
    ∀ i < len + n, lookup ps (pages ++ run ps a c) (o + i) = some (q i) := by
  have hfull := h.full he
  have hlen : (pages.length + c) * ps = pages.length * ps + c * ps := Nat.add_mul _ _ _
  intro i hi
  rcases Nat.lt_or_ge i len with hlt | hge
  · rw [lookup_append_left _ hps (by omega), h.bytes i hlt, hold i hlt]
  · obtain ⟨j, rfl⟩ := Nat.exists_eq_add_of_le hge
    rw [hnew j (by omega), ← Nat.add_assoc]
    exact lookup_run hps (by omega) (by omega) (by omega)

theorem Covers.aligned (h : Covers ps pages o len p e) (hps : 0 < ps) (hn : 0 < n)
    (he : e % ps = 0) (ha : a % ps = 0) (hold : ∀ i < len, q i = p i)
    (hnew : ∀ j < n, q (len + j) = a + j) :
    Covers ps (pages ++ run ps a (pagesTo ps a (a + n))) o (len + n) q (a + n) := by
  have hfull := h.full he
  have hto := le_pagesTo hps a (a + n)
  have hnear := pagesTo_lt hps (b := a) (e := a + n) (by omega)
  have hbytes := h.bytes_aligned hps he hold hnew (c := pagesTo ps a (a + n)) (by omega)
  generalize pagesTo ps a (a + n) = c at *
  obtain ⟨c, rfl⟩ : ∃ c', c = c' + 1 := ⟨c - 1, by cases c <;> omega⟩
  have hlen : (pages.length + (c + 1)) * ps = pages.length * ps + (c + 1) * ps := Nat.add_mul _ _ _
  constructor
  case fits =>
    rw [List.length_append, run_length, hlen]
    omega
  case used =>
    rw [List.length_append, run_length, hlen]
    omega
  case bytes => exact hbytes
  case last =>
    refine ⟨a + c * ps, ?_, ?_, ?_⟩
    · rw [List.getLast?_append, run_getLast?, Option.some_or]
    · rw [Nat.add_mul_mod_self_right, ha]
    · rw [List.length_append, run_length, hlen, Nat.add_mul]
      omega

/-- A run of bytes that goes on where the region ends. -/
theorem Covers.bytes_contiguous (h : Covers ps pages o len p e) (hps : 0 < ps) (he : e % ps ≠ 0)
    (hold : ∀ i < len, q i = p i) (hnew : ∀ j < n, q (len + j) = e + j) {c : Nat}
    (hc : e + n ≤ e - e % ps + ps + c * ps) :
    ∀ i < len + n, lookup ps (pages ++ run ps (e - e % ps + ps) c) (o + i) = some (q i) := by
  obtain ⟨hl, hlast⟩ := h.getLast?_eq he
  have hfits := h.fits
  have hused := h.used
  have hlen : (pages.length + c) * ps = pages.length * ps + c * ps := Nat.add_mul _ _ _
  intro i hi
  rcases Nat.lt_or_ge i len with hlt | hge
  · rw [lookup_append_left _ hps (by omega), h.bytes i hlt, hold i hlt]
  · obtain ⟨j, rfl⟩ := Nat.exists_eq_add_of_le hge
    rw [hnew j (by omega), ← Nat.add_assoc]
    rcases Nat.lt_or_ge (o + len + j) (pages.length * ps) with hin | hout
    · rw [lookup_append_left _ hps hin, lookup_last hl (by omega) hin, Option.some_inj]
      omega
    · exact lookup_run hps (by omega) hout (by omega)

theorem Covers.contiguous (h : Covers ps pages o len p e) (hps : 0 < ps) (he : e % ps ≠ 0)
    (hold : ∀ i < len, q i = p i) (hnew : ∀ j < n, q (len + j) = e + j) :
    Covers ps (pages ++ run ps (e - e % ps + ps) (pagesTo ps (e - e % ps + ps) (e + n))) o (len + n)
      q (e + n) := by
  obtain ⟨hl, hlast⟩ := h.getLast?_eq he
  have hfits := h.fits
  have hused := h.used
  have hle := Nat.mod_le e ps
  have hto := le_pagesTo hps (e - e % ps + ps) (e + n)
  have hnear := pagesTo_lt hps (b := e - e % ps + ps) (e := e + n) (by omega)
  have hbytes := h.bytes_contiguous hps he hold hnew hto
  generalize pagesTo ps (e - e % ps + ps) (e + n) = c at *
  have hlen : (pages.length + c) * ps = pages.length * ps + c * ps := Nat.add_mul _ _ _
  constructor
  case fits =>
    rw [List.length_append, run_length, hlen]
    omega
  case used =>
    rw [List.length_append, run_length, hlen]
    omega
  case bytes => exact hbytes
  case last =>
    refine ⟨e - e % ps + c * ps, getLast?_append_run hl rfl, ?_, ?_⟩
    · rw [Nat.add_mul_mod_self_right]
      exact Nat.sub_mod_eq_zero_of_mod_eq (Nat.mod_mod e ps).symm
    · rw [List.length_append, run_length, hlen]
      omega

end PageVector
