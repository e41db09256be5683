-- SUMMARY: When the RC that a migration thread installs leads to the target of the last successful Connect.
import KRCore.Base.Run
import KRCore.VirtualQueue.Connect

/-!
# The target of a migrated queue

Connect requests on one virtual queue interleaved with the migration threads
they start, with `dct_qp`, `migrate_qp` and `virtual_queue`. All threads of a
queue share one parameter block, `rc_connect_param`. A Connect has three parts
(the check at its beginning, the cache lookup with the start of the thread, and
the fetch of the endpoint), a thread has four (it reads the block, checks
`virtual_queue`, runs `qp_connect`, and stores the RC).
-/

namespace MigrationTarget

open VQ

/-- What a Connect names. -/
abbrev Target := Address × Nat

/-- The build with migration. -/
def migrating : Features where
  virtualQueue := true
  dctQp := true
  migrateQp := true
  metaKv := false
  metaCache := true
  dct_meta_cache _ := rfl

/-- A Connect that has not replied yet. -/
inductive Running where
  | checked (req : ConnectReq) (dgid : Gid)
  | fetching (req : ConnectReq)

/-- Where a migration thread stands. -/
inductive Thread where
  | started
  | read (param : RCConnectParam)
  | checked (param : RCConnectParam)
  | connected (param : RCConnectParam) (qp : Option RC)
deriving DecidableEq

/-- A queue, the Connect and the threads that are running, the reply of the last
    Connect, the target of the last one that replied ok, and the target that
    `remote_endpoint` was fetched for. -/
structure State where
  vq : VQ
  running : Option Running
  threads : List Thread
  lastReply : Option ReplyStatus
  lastOk : Option Target
  fetchedFor : Option Target

inductive Event where
  | connect (req : ConnectReq)
  | route
  /-- The metadata server or SIDR answers. -/
  | finish (res : Except Int EndPoint)
  | read (i : Nat)
  | check (i : Nat)
  | qpConnect (i : Nat) (ans : RcAnswer)
  | write (i : Nat)

namespace State

def init (localMr : TempMR) : State where
  vq := VQ.opened localMr
  running := none
  threads := []
  lastReply := none
  lastOk := none
  fetchedFor := none

/-- The Connect for `target` replies. -/
def reply (s : State) (target : Target) (vq : VQ) (status : ReplyStatus) : State :=
  { s with
    vq
    running := none
    lastReply := some status
    lastOk := if status = .ok then some target else s.lastOk }

/-- The beginning of `connect_impl`. -/
def connect (m : Machine) (s : State) (req : ConnectReq) : Option State :=
  match s.running with
  | some _ => none
  | none =>
    if s.vq.isRcConnected then some (s.reply (req.addr, req.port) s.vq .alreadyConnected)
    else
      match m.parseGid req.addr.text with
      | none => some (s.reply (req.addr, req.port) s.vq .addrError)
      | some dgid =>
        some { s with vq := selectCtrl m s.vq req.port, running := some (.checked req dgid) }

/-- The cache lookup; on a miss the parameter block is written and the thread is
    started. -/
def route (m : Machine) (s : State) : Option State :=
  match s.running with
  | some (.checked req dgid) =>
    match connectDctStart migrating m s.vq req.addr req.port req.vid dgid req.ans with
    | .replied vq status => some (s.reply (req.addr, req.port) vq status)
    | .fetching vq =>
      some { s with vq, running := some (.fetching req), threads := s.threads ++ [.started] }
  | _ => none

/-- The rest of `connect_impl`, with the outcome of `fetchEndpoint`. The path is
    in the cache already. -/
def finish (s : State) (res : Except Int EndPoint) : Option State :=
  match s.running with
  | some (.fetching req) =>
    match res with
    | .error _ => some (s.reply (req.addr, req.port) s.vq .err)
    | .ok point =>
      let vq := storeEndpoint migrating s.vq req.addr req.port point req.ans.ah
      some { s.reply (req.addr, req.port) vq .ok with fetchedFor := some (req.addr, req.port) }
  | _ => none

/-- The steps of `bg_rc_migrate_thread`. A thread that has ended is gone. -/
def thread (m : Machine) (s : State) (i : Nat) : Thread → RcAnswer → Option State
  | .started, _ =>
    s.vq.rcConnectParam.map fun param => { s with threads := s.threads.set i (.read param) }
  | .read param, _ =>
    if s.vq.virtualQueue.isNone then some { s with threads := s.threads.set i (.checked param) }
    else some { s with threads := s.threads.eraseIdx i }
  | .checked param, ans =>
    match VQ.qpConnect m param.port param.path ans with
    | .ok qp => some { s with threads := s.threads.set i (.connected param qp) }
    | .error _ => some { s with threads := s.threads.eraseIdx i }
  | .connected _ qp, _ =>
    some { s with vq := { s.vq with virtualQueue := qp }, threads := s.threads.eraseIdx i }

def step (m : Machine) (s : State) : Event → Option State
  | .connect req => s.connect m req
  | .route => s.route m
  | .finish res => s.finish res
  | .read i =>
    match s.threads[i]? with
    | some .started => s.thread m i .started .notCreated
    | _ => none
  | .check i =>
    match s.threads[i]? with
    | some (.read param) => s.thread m i (.read param) .notCreated
    | _ => none
  | .qpConnect i ans =>
    match s.threads[i]? with
    | some (.checked param) => s.thread m i (.checked param) ans
    | _ => none
  | .write i =>
    match s.threads[i]? with
    | some (.connected param qp) => s.thread m i (.connected param qp) .notCreated
    | _ => none

/-- Everything a step can do. -/
inductive Stepped (m : Machine) (s : State) : Event → State → Prop
  | refused {req : ConnectReq} {status : ReplyStatus} (hidle : s.running = none)
      (hstatus : status ≠ .ok) :
      Stepped m s (.connect req) (s.reply (req.addr, req.port) s.vq status)
  | begun {req : ConnectReq} {dgid : Gid} (hidle : s.running = none)
      (hfree : s.vq.virtualQueue = none) (hgid : m.parseGid req.addr.text = some dgid) :
      Stepped m s (.connect req)
        { s with vq := selectCtrl m s.vq req.port, running := some (.checked req dgid) }
  | hit {req : ConnectReq} {dgid : Gid} (hrun : s.running = some (.checked req dgid))
      (hhit : (s.vq.localCache.dctMetaCache (dctMetaCacheKey req.addr req.port)).isSome = true) :
      Stepped m s .route (s.reply (req.addr, req.port) s.vq .ok)
  | unreachable {req : ConnectReq} {dgid : Gid} {vq' : VQ}
      (hrun : s.running = some (.checked req dgid))
      (hmiss : s.vq.localCache.dctMetaCache (dctMetaCacheKey req.addr req.port) = none)
      (hexp : Explored req.addr dgid s.vq vq') :
      Stepped m s .route (s.reply (req.addr, req.port) vq' .err)
  | spawned {req : ConnectReq} {dgid : Gid} {vq' : VQ} {path : SaPathRec}
      (hrun : s.running = some (.checked req dgid))
      (hmiss : s.vq.localCache.dctMetaCache (dctMetaCacheKey req.addr req.port) = none)
      (hexp : Explored req.addr dgid s.vq vq')
      (hpath : vq'.localCache.pathRecCache req.addr.text = some path) :
      Stepped m s .route
        { s with
          vq := { vq' with rcConnectParam := some { vid := req.vid, port := req.port, path } }
          running := some (.fetching req)
          threads := s.threads ++ [.started] }
  | unfetched {req : ConnectReq} {errno : Int} (hrun : s.running = some (.fetching req)) :
      Stepped m s (.finish (.error errno)) (s.reply (req.addr, req.port) s.vq .err)
  | fetched {req : ConnectReq} {point : EndPoint} (hrun : s.running = some (.fetching req)) :
      Stepped m s (.finish (.ok point))
        { s.reply (req.addr, req.port)
            (storeEndpoint migrating s.vq req.addr req.port point req.ans.ah) .ok with
          fetchedFor := some (req.addr, req.port) }
  | read {i : Nat} {param : RCConnectParam} (hthread : s.threads[i]? = some .started)
      (hparam : s.vq.rcConnectParam = some param) :
      Stepped m s (.read i) { s with threads := s.threads.set i (.read param) }
  | checked {i : Nat} {param : RCConnectParam} (hthread : s.threads[i]? = some (.read param)) :
      Stepped m s (.check i) { s with threads := s.threads.set i (.checked param) }
  | needless {i : Nat} {param : RCConnectParam} (hthread : s.threads[i]? = some (.read param)) :
      Stepped m s (.check i) { s with threads := s.threads.eraseIdx i }
  | connected {i : Nat} {param : RCConnectParam} {ans : RcAnswer} {qp : Option RC}
      (hthread : s.threads[i]? = some (.checked param))
      (hqp : VQ.qpConnect m param.port param.path ans = .ok qp) :
      Stepped m s (.qpConnect i ans) { s with threads := s.threads.set i (.connected param qp) }
  | rejected {i : Nat} {param : RCConnectParam} {ans : RcAnswer}
      (hthread : s.threads[i]? = some (.checked param)) :
      Stepped m s (.qpConnect i ans) { s with threads := s.threads.eraseIdx i }
  | wrote {i : Nat} {param : RCConnectParam} {qp : Option RC}
      (hthread : s.threads[i]? = some (.connected param qp)) :
      Stepped m s (.write i)
        { s with vq := { s.vq with virtualQueue := qp }, threads := s.threads.eraseIdx i }

private theorem stepped_connect {m : Machine} {s s' : State} {req : ConnectReq}
    (h : s.connect m req = some s') : Stepped m s (.connect req) s' := by
  unfold connect at h
  split at h
  · cases h
  · rename_i hidle
    split at h
    · cases h
      exact .refused hidle (by decide)
    · rename_i hconn
      have hfree : s.vq.virtualQueue = none := by simpa [isRcConnected] using hconn
      split at h
      · cases h
        exact .refused hidle (by decide)
      · rename_i dgid hgid
        cases h
        exact .begun hidle hfree hgid

private theorem stepped_route {m : Machine} {s s' : State} (h : s.route m = some s') :
    Stepped m s .route s' := by
  unfold route at h
  split at h
  · rename_i req dgid hrun
    cases hkey : s.vq.localCache.dctMetaCache (dctMetaCacheKey req.addr req.port) with
    | some metaInfo =>
      simp only [connectDctStart, hkey, Option.some.injEq] at h
      subst h
      exact .hit hrun (by rw [hkey]; rfl)
    | none =>
      have hexp := explorePath_explored m s.vq req.port req.addr dgid req.ans.resolve
      simp only [connectDctStart, hkey, migrating, if_true] at h
      cases hpath : explorePath m s.vq req.port req.addr dgid req.ans.resolve with
      | mk res vq' =>
        rw [hpath] at h hexp
        cases res with
        | error errno =>
          simp only [Option.some.injEq] at h
          subst h
          exact .unreachable hrun hkey hexp
        | ok path =>
          simp only [Option.some.injEq] at h
          subst h
          exact .spawned hrun hkey hexp (explorePath_cached hpath)
  · cases h

private theorem stepped_finish {m : Machine} {s s' : State} {res : Except Int EndPoint}
    (h : s.finish res = some s') : Stepped m s (.finish res) s' := by
  unfold finish at h
  split at h
  · rename_i req hrun
    cases res with
    | error errno =>
      cases h
      exact .unfetched hrun
    | ok point =>
      cases h
      exact .fetched hrun
  · cases h

theorem step_stepped {m : Machine} {s s' : State} {e : Event} (h : s.step m e = some s') :
    Stepped m s e s' := by
  cases e with
  | connect req => exact stepped_connect h
  | route => exact stepped_route h
  | finish res => exact stepped_finish h
  | read i =>
    simp only [step] at h
    split at h
    · rename_i hthread
      simp only [thread, Option.map_eq_some_iff] at h
      obtain ⟨param, hparam, rfl⟩ := h
      exact .read hthread hparam
    · cases h
  | check i =>
    simp only [step] at h
    split at h
    · rename_i param hthread
      simp only [thread] at h
      split at h
      · cases h
        exact .checked hthread
      · cases h
        exact .needless hthread
    · cases h
  | qpConnect i ans =>
    simp only [step] at h
    split at h
    · rename_i param hthread
      simp only [thread] at h
      split at h
      · rename_i qp hqp
        cases h
        exact .connected hthread hqp
      · cases h
        exact .rejected hthread
    · cases h
  | write i =>
    simp only [step] at h
    split at h
    · rename_i param qp hthread
      cases h
      exact .wrote hthread
    · cases h

/-! ## The peer of the installed RC -/

end State

/-- The RC is connected to the target. -/
def ConnectsTo (m : Machine) (rc : RC) (target : Target) : Prop :=
  m.parseGid target.1.text = some rc.path.dgid ∧ rc.serviceId = target.2

/-- The parameter block names the target. -/
def Names (m : Machine) (param : RCConnectParam) (target : Target) : Prop :=
  m.parseGid target.1.text = some param.path.dgid ∧ param.port = target.2

/-- An RC that `qp_connect` made from a block leads where the block says. -/
def Thread.Built (m : Machine) : Thread → Prop
  | .connected param (some rc) => ∀ target, ConnectsTo m rc target ↔ Names m param target
  | _ => True

theorem Thread.built_connected {m : Machine} {param : RCConnectParam} {ans : RcAnswer}
    {qp : Option RC} (hqp : VQ.qpConnect m param.port param.path ans = .ok qp) :
    (Thread.connected param qp).Built m := by
  cases ans with
  | notCreated => cases hqp; trivial
  | failed errno => cases hqp
  | connected id =>
    cases hqp
    exact fun target => Iff.rfl

namespace State

/-- An installed RC is connected to the target of the last Connect that replied
    ok, which is the one `remote_endpoint` was fetched for. -/
def SamePeer (m : Machine) (s : State) : Prop :=
  ∀ rc, s.vq.virtualQueue = some rc →
    ∃ target, s.lastOk = some target ∧ s.fetchedFor = some target ∧ ConnectsTo m rc target

/-- A thread stores an RC only if the block it read names the target of the last
    Connect that replied ok and of `remote_endpoint`; and a Connect that replies
    ok after an RC has been installed names the target of that RC, and on a cache
    hit that of `remote_endpoint`. -/
def Aligned (m : Machine) (s : State) : Event → Prop
  | .write i => ∀ param rc, s.threads[i]? = some (.connected param (some rc)) →
      ∃ target, s.lastOk = some target ∧ s.fetchedFor = some target ∧ Names m param target
  | .route => ∀ req dgid, s.running = some (.checked req dgid) →
      (s.vq.localCache.dctMetaCache (dctMetaCacheKey req.addr req.port)).isSome = true →
      s.vq.virtualQueue.isSome = true → s.fetchedFor = some (req.addr, req.port)
  | .finish (.ok _) => ∀ req rc, s.running = some (.fetching req) →
      s.vq.virtualQueue = some rc → ConnectsTo m rc (req.addr, req.port)
  | _ => True

/-- `SamePeer` reads the RC and the two targets only. -/
theorem SamePeer.congr {m : Machine} {s s' : State} (h : s.SamePeer m)
    (hrc : s'.vq.virtualQueue = s.vq.virtualQueue) (hok : s'.lastOk = s.lastOk)
    (hfetched : s'.fetchedFor = s.fetchedFor) : s'.SamePeer m := by
  simpa only [SamePeer, hrc, hok, hfetched] using h

theorem samePeer_of_none {m : Machine} {s : State} (h : s.vq.virtualQueue = none) :
    s.SamePeer m := by
  intro rc hrc
  rw [h] at hrc
  cases hrc

theorem reply_lastOk {s : State} {target : Target} {vq : VQ} {status : ReplyStatus}
    (h : status ≠ .ok) : (s.reply target vq status).lastOk = s.lastOk := if_neg h

/-- Every thread past `qp_connect` holds an RC made from its block. -/
def ThreadsBuilt (m : Machine) (s : State) : Prop := ∀ th ∈ s.threads, th.Built m

theorem ThreadsBuilt.set {m : Machine} {s : State} (h : s.ThreadsBuilt m) (i : Nat) {th : Thread}
    (hth : th.Built m) : ThreadsBuilt m { s with threads := s.threads.set i th } := by
  intro th' hmem
  rcases List.mem_or_eq_of_mem_set hmem with hold | rfl
  · exact h th' hold
  · exact hth

theorem ThreadsBuilt.step {m : Machine} {s s' : State} {e : Event} (hinv : s.ThreadsBuilt m)
    (h : s.step m e = some s') : s'.ThreadsBuilt m := by
  have herase : ∀ i vq, ThreadsBuilt m { s with vq, threads := s.threads.eraseIdx i } :=
    fun i _ th hth => hinv th (List.mem_of_mem_eraseIdx hth)
  cases step_stepped h with
  | refused hidle hstatus => exact hinv
  | begun hidle hfree hgid => exact hinv
  | hit hrun hhit => exact hinv
  | unreachable hrun hmiss hexp => exact hinv
  | spawned hrun hmiss hexp hpath =>
    intro th hth
    rcases List.mem_append.mp hth with hold | hnew
    · exact hinv th hold
    · rw [List.mem_singleton.mp hnew]
      trivial
  | unfetched hrun => exact hinv
  | fetched hrun => exact hinv
  | read hthread hparam => exact hinv.set _ trivial
  | checked hthread => exact hinv.set _ trivial
  | needless hthread => exact herase _ s.vq
  | connected hthread hqp => exact hinv.set _ (Thread.built_connected hqp)
  | rejected hthread => exact herase _ s.vq
  | wrote hthread => exact herase _ _

/-- Without a hit in the metadata cache nothing is asked of the route. -/
theorem aligned_route_of_miss {m : Machine} {s : State} {req : ConnectReq} {dgid : Gid}
    (hrun : s.running = some (.checked req dgid))
    (hmiss : s.vq.localCache.dctMetaCache (dctMetaCacheKey req.addr req.port) = none) :
    s.Aligned m .route := by
  intro req' dgid' hreq hhit
  rw [hrun] at hreq
  cases hreq
  rw [hmiss] at hhit
  cases hhit

theorem samePeer_hit_iff {m : Machine} {s : State} {req : ConnectReq} {dgid : Gid}
    (hsame : s.SamePeer m) (hrun : s.running = some (.checked req dgid))
    (hhit : (s.vq.localCache.dctMetaCache (dctMetaCacheKey req.addr req.port)).isSome = true) :
    (s.reply (req.addr, req.port) s.vq .ok).SamePeer m ↔ s.Aligned m .route := by
  cases hrc : s.vq.virtualQueue with
  | none => exact iff_of_true (samePeer_of_none hrc) (by simp [Aligned, hrc])
  | some rc =>
    obtain ⟨target, hok, hfetched, hto⟩ := hsame rc hrc
    simp only [SamePeer, Aligned, reply, hrc, hrun, hfetched]
    constructor
    · intro hnew req' dgid' hreq _ _
      cases hreq
      obtain ⟨target', hok', hfetched', -⟩ := hnew rc rfl
      rw [hfetched', ← hok']
      rfl
    · rintro haligned rc' hrc'
      cases hrc'
      exact ⟨target, haligned req dgid rfl hhit rfl ▸ rfl, rfl, hto⟩

theorem samePeer_fetched_iff {m : Machine} {s : State} {req : ConnectReq} {point : EndPoint}
    (hrun : s.running = some (.fetching req)) :
    SamePeer m
        { s.reply (req.addr, req.port)
            (storeEndpoint migrating s.vq req.addr req.port point req.ans.ah) .ok with
          fetchedFor := some (req.addr, req.port) } ↔
      s.Aligned m (.finish (.ok point)) := by
  simp only [SamePeer, Aligned, hrun]
  constructor
  · intro hnew req' rc hreq hrc
    cases hreq
    obtain ⟨target, -, hfetched, hto⟩ := hnew rc hrc
    cases hfetched
    exact hto
  · intro haligned rc hrc
    exact ⟨(req.addr, req.port), rfl, rfl, haligned req rc rfl hrc⟩

theorem samePeer_wrote_iff {m : Machine} {s : State} {i : Nat} {param : RCConnectParam}
    {qp : Option RC} (hinv : s.ThreadsBuilt m)
    (hthread : s.threads[i]? = some (.connected param qp)) :
    SamePeer m
        { s with vq := { s.vq with virtualQueue := qp }, threads := s.threads.eraseIdx i } ↔
      s.Aligned m (.write i) := by
  have hbuilt := hinv _ (List.mem_of_getElem? hthread)
  simp only [SamePeer, Aligned, hthread]
  constructor
  · intro hnew param' rc hqp
    cases hqp
    obtain ⟨target, hok, hfetched, hto⟩ := hnew rc rfl
    exact ⟨target, hok, hfetched, (hbuilt target).mp hto⟩
  · intro haligned rc hqp
    subst hqp
    obtain ⟨target, hok, hfetched, hnames⟩ := haligned param rc rfl
    exact ⟨target, hok, hfetched, (hbuilt target).mpr hnames⟩

/-- One step keeps the peer exactly if it is aligned. -/
theorem samePeer_step {m : Machine} {s s' : State} {e : Event} (hinv : s.ThreadsBuilt m)
    (hsame : s.SamePeer m) (h : s.step m e = some s') : s'.SamePeer m ↔ s.Aligned m e := by
  cases step_stepped h with
  | refused hidle hstatus =>
    exact iff_of_true (hsame.congr rfl (reply_lastOk hstatus) rfl) trivial
  | begun hidle hfree hgid => exact iff_of_true (samePeer_of_none hfree) trivial
  | hit hrun hhit => exact samePeer_hit_iff hsame hrun hhit
  | unreachable hrun hmiss hexp =>
    exact iff_of_true (hsame.congr hexp.virtualQueue (reply_lastOk (by decide)) rfl)
      (aligned_route_of_miss hrun hmiss)
  | spawned hrun hmiss hexp hpath =>
    exact iff_of_true (hsame.congr hexp.virtualQueue rfl rfl) (aligned_route_of_miss hrun hmiss)
  | unfetched hrun =>
    exact iff_of_true (hsame.congr rfl (reply_lastOk (by decide)) rfl) trivial
  | fetched hrun => exact samePeer_fetched_iff hrun
  | read hthread hparam => exact iff_of_true hsame trivial
  | checked hthread => exact iff_of_true hsame trivial
  | needless hthread => exact iff_of_true hsame trivial
  | connected hthread hqp => exact iff_of_true hsame trivial
  | rejected hthread => exact iff_of_true hsame trivial
  | wrote hthread => exact samePeer_wrote_iff hinv hthread

/-! ## One migration at a time -/

/-- A Connect is issued only when no thread is left, and a thread stores its RC
    only after its own Connect has replied ok. -/
def OneAtATime (s : State) : Event → Prop
  | .connect _ => s.threads = []
  | .write _ => s.running = none ∧ s.lastReply = some .ok
  | _ => True

end State

/-- The thread works, or is going to work, for the target. -/
def Thread.WorksFor (m : Machine) (vq : VQ) (target : Target) : Thread → Prop
  | .started => ∃ param, vq.rcConnectParam = some param ∧ Names m param target
  | .read param => Names m param target
  | .checked param => Names m param target
  | .connected param _ => Names m param target

namespace State

/-- The target that a thread of the state may work for. -/
def Serves (s : State) (target : Target) : Prop :=
  match s.running with
  | none => s.lastReply = some .ok → s.lastOk = some target ∧ s.fetchedFor = some target
  | some (.checked _ _) => False
  | some (.fetching req) => target = (req.addr, req.port)

/-- There is at most one thread, it works for the Connect that is running or was
    the last one, and a running Connect finds no RC. -/
structure Serial (m : Machine) (s : State) : Prop where
  lone : s.threads = [] ∨
    ∃ th target, s.threads = [th] ∧ th.WorksFor m s.vq target ∧ s.Serves target
  free : s.running ≠ none → s.vq.virtualQueue = none
  parsed : ∀ req dgid, s.running = some (.checked req dgid) →
    m.parseGid req.addr.text = some dgid
  paths : ∀ text path, s.vq.localCache.pathRecCache text = some path →
    m.parseGid text = some path.dgid

/-- Without a running Connect only the thread and the path cache matter. -/
theorem Serial.of_idle {m : Machine} {s : State} (hidle : s.running = none)
    (hlone : s.threads = [] ∨
      ∃ th target, s.threads = [th] ∧ th.WorksFor m s.vq target ∧ s.Serves target)
    (hpaths : ∀ text path, s.vq.localCache.pathRecCache text = some path →
      m.parseGid text = some path.dgid) : s.Serial m where
  lone := hlone
  free h := absurd hidle h
  parsed req dgid h := by rw [hidle] at h; cases h
  paths := hpaths

/-- The only thread is the one at position 0. -/
theorem Serial.at_index {m : Machine} {s : State} {i : Nat} {th : Thread} (h : s.Serial m)
    (hthread : s.threads[i]? = some th) :
    i = 0 ∧ s.threads = [th] ∧ ∃ target, th.WorksFor m s.vq target ∧ s.Serves target := by
  rcases h.lone with hnil | ⟨th', target, hone, hworks, hserves⟩
  · simp [hnil] at hthread
  · rw [hone, List.getElem?_singleton] at hthread
    split at hthread
    · rename_i hi
      cases hthread
      exact ⟨hi, hone, target, hworks, hserves⟩
    · cases hthread

/-- The thread moves on. -/
theorem Serial.set {m : Machine} {s : State} {i : Nat} {th th' : Thread} (h : s.Serial m)
    (hthread : s.threads[i]? = some th)
    (hworks : ∀ target, th.WorksFor m s.vq target → th'.WorksFor m s.vq target) :
    Serial m { s with threads := s.threads.set i th' } := by
  obtain ⟨rfl, hone, target, hth, hserves⟩ := h.at_index hthread
  exact { h with lone := .inr ⟨th', target, by simp [hone], hworks target hth, hserves⟩ }

theorem Serial.erase_threads {m : Machine} {s : State} {i : Nat} {th : Thread} (h : s.Serial m)
    (hthread : s.threads[i]? = some th) : s.threads.eraseIdx i = [] := by
  obtain ⟨rfl, hone, -⟩ := h.at_index hthread
  simp [hone]

theorem Serial.erase {m : Machine} {s : State} {i : Nat} {th : Thread} (h : s.Serial m)
    (hthread : s.threads[i]? = some th) :
    Serial m { s with threads := s.threads.eraseIdx i } :=
  { h with lone := .inl (h.erase_threads hthread) }

/-- With a checked Connect there is no thread. -/
theorem Serial.no_thread {m : Machine} {s : State} {req : ConnectReq} {dgid : Gid} (h : s.Serial m)
    (hrun : s.running = some (.checked req dgid)) : s.threads = [] := by
  rcases h.lone with hnil | ⟨th, target, -, -, hserves⟩
  · exact hnil
  · simp [Serves, hrun] at hserves

theorem Serial.explored_paths {m : Machine} {s : State} {req : ConnectReq} {dgid : Gid} {vq' : VQ}
    (h : s.Serial m) (hrun : s.running = some (.checked req dgid))
    (hexp : Explored req.addr dgid s.vq vq') :
    ∀ text path, vq'.localCache.pathRecCache text = some path →
      m.parseGid text = some path.dgid := by
  intro text path hpath
  rcases hexp.paths text path hpath with hold | ⟨rfl, hnew⟩
  · exact h.paths text path hold
  · rw [h.parsed req dgid hrun, hnew]

/-- A thread that was started keeps its parameter block when the endpoint is
    stored. -/
theorem worksFor_stored {m : Machine} {vq : VQ} {target : Target} {th : Thread}
    (h : th.WorksFor m vq target) (addr : Address) (port : Nat) (point : EndPoint)
    (ah : BitVec 64) : th.WorksFor m (storeEndpoint migrating vq addr port point ah) target := by
  cases th with
  | started => exact h
  | read param => exact h
  | checked param => exact h
  | connected param qp => exact h

/-- A running Connect finds no RC, so what it does is aligned. -/
theorem Serial.aligned_of_running {m : Machine} {s : State} (h : s.Serial m)
    (hrun : s.running ≠ none) (res : Except Int EndPoint) :
    s.Aligned m .route ∧ s.Aligned m (.finish res) := by
  have hfree := h.free hrun
  refine ⟨fun _ _ _ _ hsome => ?_, ?_⟩
  · rw [hfree] at hsome
    cases hsome
  · cases res with
    | error errno => trivial
    | ok point =>
      intro _ _ _ hsome
      rw [hfree] at hsome
      cases hsome

/-- One step of a serial state is aligned. -/
theorem Serial.aligned {m : Machine} {s s' : State} {e : Event} (hserial : s.Serial m)
    (hone : s.OneAtATime e) (h : s.step m e = some s') : s.Aligned m e := by
  cases e with
  | connect req => trivial
  | route =>
    refine (hserial.aligned_of_running (fun hidle => ?_) (.error 0)).1
    simp [State.step, route, hidle] at h
  | finish res =>
    refine (hserial.aligned_of_running (fun hidle => ?_) res).2
    simp [State.step, finish, hidle] at h
  | read i => trivial
  | check i => trivial
  | qpConnect i ans => trivial
  | write i =>
    intro param rc hthread
    obtain ⟨hidle, hreply⟩ := hone
    obtain ⟨-, -, target, hworks, hserves⟩ := hserial.at_index hthread
    simp only [Serves, hidle] at hserves
    obtain ⟨hok, hfetched⟩ := hserves hreply
    exact ⟨target, hok, hfetched, hworks⟩

/-- One step of a serial state keeps it serial. -/
theorem Serial.step {m : Machine} {s s' : State} {e : Event} (hserial : s.Serial m)
    (hone : s.OneAtATime e) (h : s.step m e = some s') : s'.Serial m := by
  cases step_stepped h with
  | refused hidle hstatus => exact .of_idle rfl (.inl hone) hserial.paths
  | begun hidle hfree hgid =>
    exact
      { lone := .inl hone
        free := fun _ => hfree
        parsed := fun req' dgid' hrun => by cases hrun; exact hgid
        paths := hserial.paths }
  | hit hrun hhit => exact .of_idle rfl (.inl (hserial.no_thread hrun)) hserial.paths
  | unreachable hrun hmiss hexp =>
    exact .of_idle rfl (.inl (hserial.no_thread hrun)) (hserial.explored_paths hrun hexp)
  | @spawned req dgid vq' path hrun hmiss hexp hpath =>
    have hpaths := hserial.explored_paths hrun hexp
    have hstarted : Thread.started.WorksFor m
        { vq' with rcConnectParam := some { vid := req.vid, port := req.port, path } }
        (req.addr, req.port) := ⟨_, rfl, hpaths _ _ hpath, rfl⟩
    exact
      { lone := .inr ⟨_, _, by simp [hserial.no_thread hrun], hstarted, rfl⟩
        free := fun _ => hexp.virtualQueue.trans (hserial.free (by simp [hrun]))
        parsed := fun req' dgid' hrun' => by cases hrun'
        paths := hpaths }
  | unfetched hrun =>
    refine .of_idle rfl ?_ hserial.paths
    rcases hserial.lone with hnil | ⟨th, target, hth, hworks, -⟩
    · exact .inl hnil
    · exact .inr ⟨th, target, hth, hworks, fun hok => by cases hok⟩
  | fetched hrun =>
    refine .of_idle rfl ?_ hserial.paths
    rcases hserial.lone with hnil | ⟨th, target, hth, hworks, hserves⟩
    · exact .inl hnil
    · simp only [Serves, hrun] at hserves
      subst hserves
      exact .inr ⟨th, _, hth, worksFor_stored hworks _ _ _ _, fun _ => ⟨rfl, rfl⟩⟩
  | read hthread hparam =>
    refine hserial.set hthread fun target hworks => ?_
    obtain ⟨param', hparam', hnames⟩ := hworks
    rw [hparam] at hparam'
    cases hparam'
    exact hnames
  | checked hthread => exact hserial.set hthread fun _ hworks => hworks
  | needless hthread => exact hserial.erase hthread
  | connected hthread hqp => exact hserial.set hthread fun _ hworks => hworks
  | rejected hthread => exact hserial.erase hthread
  | wrote hthread => exact .of_idle hone.1 (.inl (hserial.erase_threads hthread)) hserial.paths

/-- In every interleaving of Connects and migration threads: the installed RC
    always is the one for the target of the last successful Connect and of
    `remote_endpoint`, exactly if every step is aligned. It is if there is one
    migration at a time. -/
theorem samePeer_iff (m : Machine) (localMr : TempMR) (es : List Event) :
    (Run.Always (step m) (SamePeer m) (init localMr) es ↔
      Run.Guarded (step m) (Aligned m) (init localMr) es) ∧
    (Run.Guarded (step m) OneAtATime (init localMr) es →
      Run.Always (step m) (SamePeer m) (init localMr) es) := by
  have hiff : Run.Always (step m) (SamePeer m) (init localMr) es ↔
      Run.Guarded (step m) (Aligned m) (init localMr) es :=
    Run.always_iff_guarded (I := ThreadsBuilt m)
      (fun _ _ _ hinv h _ => hinv.step h) (fun _ _ _ hinv hsame h => samePeer_step hinv hsame h)
      (fun _ hth => by cases hth) (samePeer_of_none rfl) es
  refine ⟨hiff, fun hone => hiff.mpr ?_⟩
  exact Run.guarded_of_guarded (I := Serial m)
    (fun _ _ _ hserial hc h => ⟨hserial.step hc h, hserial.aligned hc h⟩)
    (.of_idle rfl (.inl rfl) fun _ _ h => by cases h) hone

/-- A Connect to `a` whose thread is slow, then one to `b`; the thread of the
    first has read its block before the second wrote it. -/
def staleThread : List Event :=
  [.connect (ConnectReq.sample 'a' 1 .notCreated), .route, .finish (.ok default), .read 0, .check 0,
    .connect (ConnectReq.sample 'b' 2 .notCreated), .route, .finish (.ok default),
    .qpConnect 0 (.connected 7), .write 0]

/-- The first thread installs an RC to `a` although the last Connect, which
    replied ok, was to `b`. -/
theorem stale_thread_installs_other_peer :
    ∃ s rc, Run.exec (step Machine.sample) (init default) staleThread = some s ∧
      s.vq.virtualQueue = some rc ∧ s.lastOk = some (Address.sample 'b', 0) ∧
      s.fetchedFor = some (Address.sample 'b', 0) ∧
      ConnectsTo Machine.sample rc (Address.sample 'a', 0) ∧
      ¬ ConnectsTo Machine.sample rc (Address.sample 'b', 0) := by
  refine ⟨_, _, rfl, rfl, rfl, rfl, ⟨rfl, rfl⟩, ?_⟩
  rintro ⟨hgid, -⟩
  exact absurd hgid (by decide)

end State
end MigrationTarget
