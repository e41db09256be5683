-- SUMMARY: The path cache of a virtual queue as a memoisation of path resolution, and the calls it answers as a fresh resolution would.
import KRCore.Base.Memo
import KRCore.VirtualQueue.Connect

/-!
# The path cache

`explore_path` resolves a path on the controller that the port selects, and the record it
gets carries the source gid of that controller and the port as service id. The cache of
the queue is keyed by the address alone. Sequences of calls are runs of the memoisation
library, with the address as key.
-/

/-- What `explore_path` is asked for. -/
structure PathQuery where
  port : Nat
  addr : Address
deriving DecidableEq

/-- A call of `explore_path`. The fault is the error of `ib_sa_path_rec_get`, or the timeout. -/
abbrev PathCall := Memo.Call PathQuery Int

/-- The path records of the fabric: the lid by which a controller reaches a gid under a
    service id. Without a record the completion handler panics. -/
abbrev Fabric := Nat → Nat → Gid → Option (BitVec 16)

namespace IBExplorer

/-- The answer to the query of `resolve`. `none` is a panic: of `str_to_gid`, or of the
    completion handler. -/
def resolve (m : Machine) (fabric : Fabric) (c : PathCall) :
    Option (Gid × Except Int (BitVec 16)) := do
  let dgid ← m.parseGid c.query.addr.text
  match c.fault with
  | some errno => some (dgid, .error errno)
  | none =>
    let dlid ← fabric (m.getGlobalRctrl c.query.port) c.query.port dgid
    some (dgid, .ok dlid)

/-- The record that a fresh `IBExplorer` gets on the controller that the port selects. -/
def freshPath (m : Machine) (fabric : Fabric) (q : PathQuery) : Option SaPathRec := do
  let dgid ← m.parseGid q.addr.text
  let dlid ← fabric (m.getGlobalRctrl q.port) q.port dgid
  some { dgid, sgid := m.gid (m.getGlobalRctrl q.port), serviceId := q.port, dlid }

theorem freshPath_eq_some {m : Machine} {fabric : Fabric} {q : PathQuery} {path : SaPathRec} :
    freshPath m fabric q = some path ↔
      ∃ dgid dlid, m.parseGid q.addr.text = some dgid ∧
        fabric (m.getGlobalRctrl q.port) q.port dgid = some dlid ∧
        path = { dgid, sgid := m.gid (m.getGlobalRctrl q.port), serviceId := q.port, dlid } := by
  simp only [freshPath, Option.bind_eq_bind, Option.bind_eq_some_iff, Option.some.injEq]
  constructor
  · rintro ⟨dgid, hgid, dlid, hdlid, rfl⟩
    exact ⟨dgid, dlid, hgid, hdlid, rfl⟩
  · rintro ⟨dgid, dlid, hgid, hdlid, rfl⟩
    exact ⟨dgid, hgid, dlid, hdlid, rfl⟩

theorem serviceId_of_freshPath {m : Machine} {fabric : Fabric} {q : PathQuery} {path : SaPathRec}
    (h : freshPath m fabric q = some path) : path.serviceId = q.port := by
  obtain ⟨dgid, dlid, -, -, rfl⟩ := freshPath_eq_some.mp h
  rfl

/-- `resolve` and the record that `explore_path` makes of its answer are a computation of
    `freshPath`. -/
theorem compute_of_resolve {m : Machine} {fabric : Fabric} {c : PathCall} {dgid : Gid}
    {answer : Except Int (BitVec 16)} (h : resolve m fabric c = some (dgid, answer)) :
    Memo.compute (freshPath m fabric) c = some (answer.map fun dlid =>
      { dgid, sgid := m.gid (m.getGlobalRctrl c.query.port), serviceId := c.query.port, dlid }) := by
  obtain ⟨dgid', hgid, h⟩ := Option.bind_eq_some_iff.mp h
  unfold Memo.compute
  split at h
  · rename_i errno hfault
    cases h
    rw [hfault]
    rfl
  · rename_i hfault
    obtain ⟨dlid, hdlid, h⟩ := Option.bind_eq_some_iff.mp h
    cases h
    rw [hfault, freshPath_eq_some.mpr ⟨dgid, dlid, hgid, hdlid, rfl⟩]
    rfl

end IBExplorer

open IBExplorer

/-- A queue, and the calls of `explore_path` on it with their results. -/
structure PathRun where
  vq : VQ
  log : List (PathCall × Except Int SaPathRec)

namespace PathRun

def opened (localMr : TempMR) : PathRun := { vq := VQ.opened localMr, log := [] }

def answered (c : PathCall) (log : List (PathCall × Except Int SaPathRec))
    (out : Except Int SaPathRec × VQ) : PathRun :=
  { vq := out.2, log := log ++ [(c, out.1)] }

/-- One call of `explore_path`. -/
def step (m : Machine) (fabric : Fabric) (s : PathRun) (c : PathCall) : Option PathRun := do
  let explore := VQ.explorePath m s.vq c.query.port c.query.addr
  match s.vq.localCache.pathRecCache c.query.addr.text with
  -- nothing is resolved on a hit, whatever the answer would be
  | some _ => some (answered c s.log (explore 0 (.error 0)))
  | none =>
    let (dgid, answer) ← resolve m fabric c
    some (answered c s.log (explore dgid answer))

/-- The cache as a table of results. -/
def memo (s : PathRun) : Memo.State PathQuery SaPathRec Int (List Char) where
  table := s.vq.localCache.pathRecCache
  log := s.log

/-- A call of `explore_path` is a call through the table, under the text of the address. -/
theorem step_memo {m : Machine} {fabric : Fabric} {s s' : PathRun} {c : PathCall}
    (h : step m fabric s c = some s') :
    Memo.step (fun q => q.addr.text) (freshPath m fabric) s.memo c = some s'.memo := by
  unfold step at h
  unfold Memo.step
  split at h
  · rename_i path hhit
    cases h
    simp only [memo, hhit, answered, VQ.explorePath]
  · rename_i hmiss
    obtain ⟨⟨dgid, answer⟩, hanswer, h⟩ := Option.bind_eq_some_iff.mp h
    cases h
    simp only [memo, hmiss, compute_of_resolve hanswer, Option.map_some, answered, VQ.explorePath]
    cases answer with
    | error errno => rfl
    | ok dlid => rfl

/-- For every sequence of calls on a new queue that all return: every path that is handed out
    is the one that a fresh resolution for the same port and address gives, if and only if
    the calls of one address that follow a resolution of it have its port. -/
theorem path_cache_transparent_iff {m : Machine} {fabric : Fabric} {localMr : TempMR}
    {calls : List PathCall} {t : PathRun}
    (hrun : Run.exec (step m fabric) (opened localMr) calls = some t) :
    (∀ c path, (c, .ok path) ∈ t.log → freshPath m fabric c.query = some path) ↔
      calls.Pairwise fun c c' =>
        c.query.addr = c'.query.addr → c.fault = none → c.query.port = c'.query.port := by
  have hmemo := Run.exec_simulation (f := memo) (fun _ _ _ => step_memo) hrun
  obtain ⟨hinv, hlog⟩ := Memo.exec_inv hmemo
  have htrans := Memo.transparent_iff hmemo
  constructor
  · intro hfresh
    refine (htrans.mp hfresh).imp_of_mem fun {c c'} hmem _ hagree haddr hfault => ?_
    -- the service id of the record that `c` has resolved is the port of both
    rw [← hlog] at hmem
    obtain ⟨⟨c, r⟩, hlogged, rfl⟩ := List.mem_map.mp hmem
    obtain ⟨path, rfl⟩ := hinv.result c r hlogged hfault
    have hpath := hfresh c path hlogged
    have hpath' := (hagree (congrArg Address.text haddr) hfault).symm.trans hpath
    rw [← serviceId_of_freshPath hpath, serviceId_of_freshPath hpath']
  · intro hports
    refine htrans.mpr (hports.imp fun {c c'} hport htext hfault => ?_)
    obtain ⟨⟨port, ⟨text, size⟩⟩, fault⟩ := c
    obtain ⟨⟨port', ⟨text', size'⟩⟩, fault'⟩ := c'
    obtain rfl : text = text' := htext
    obtain rfl : port = port' := hport rfl hfault
    rfl

/-! ## Two controllers -/

/-- A machine with two controllers of different gids. -/
def twoNics : Machine := { Machine.sample with gid := fun ctrl => BitVec.ofNat 128 ctrl }

/-- Every gid is reached by its last sixteen bits. -/
def flatFabric : Fabric := fun _ _ dgid => some (dgid.truncate 16)

def exploreCall (port : Nat) (c : Char) : PathCall :=
  { query := { port, addr := Address.sample c }, fault := none }

/-- The second call for a target gets the record of the first, and so would a fresh one. -/
theorem same_port_transparent :
    ∃ t, Run.exec (step twoNics flatFabric) (opened default)
        [exploreCall 1 'a', exploreCall 0 'b', exploreCall 1 'a'] = some t ∧
      ∀ c path, (c, .ok path) ∈ t.log → freshPath twoNics flatFabric c.query = some path := by
  have hruns : ∃ t, Run.exec (step twoNics flatFabric) (opened default)
      [exploreCall 1 'a', exploreCall 0 'b', exploreCall 1 'a'] = some t := ⟨_, rfl⟩
  obtain ⟨t, hrun⟩ := hruns
  exact ⟨t, hrun, (path_cache_transparent_iff hrun).mpr (by decide)⟩

/-- The port of the second call selects another controller. The record it gets has the
    source gid and the service id of the first. -/
theorem second_port_gets_first_path :
    ∃ t path path', Run.exec (step twoNics flatFabric) (opened default)
        [exploreCall 0 'a', exploreCall 1 'a'] = some t ∧
      (exploreCall 1 'a', .ok path) ∈ t.log ∧
      freshPath twoNics flatFabric (exploreCall 1 'a').query = some path' ∧
      path.sgid = 0 ∧ path.serviceId = 0 ∧ path'.sgid = 1 ∧ path'.serviceId = 1 :=
  ⟨_, _, _, rfl, List.mem_cons_of_mem _ List.mem_cons_self, rfl, rfl, rfl, rfl, rfl⟩

end PathRun
