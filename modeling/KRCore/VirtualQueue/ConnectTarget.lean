-- SUMMARY: After which Connect requests that replied ok the queue leads to the target asked for.
import Mathlib.Data.List.Basic
import KRCore.Base.Run
import KRCore.VirtualQueue.Connect

/-!
# The target of a connected queue

A session is a virtual queue together with the endpoints its Connect requests
have fetched. The queue leads to a target if its data path does: its RC without
`dct_qp`, its remote endpoint with `dct_qp`. `connect_ok_leadsTo_iff` says for
every session when a Connect that replied ok has that effect.
-/

open VQ

/-- A queue and the endpoints its Connects have fetched, the latest first. -/
structure Session where
  vq : VQ
  obtained : List ((Address × Nat) × EndPoint)

namespace Session

inductive Event where
  | connect (req : ConnectReq)
  /-- A migration thread stores what its `qp_connect` returned. -/
  | migrated (rc : Option RC)

def opened (localMr : TempMR) : Session where
  vq := VQ.opened localMr
  obtained := []

/-- The endpoint that has been obtained for a target. -/
def obtainedFor (s : Session) (addr : Address) (port : Nat) : Option EndPoint :=
  s.obtained.lookup (addr, port)

def connect (feat : Features) (m : Machine) (s : Session) (req : ConnectReq) :
    Option (Session × ReplyStatus) := do
  let (vq, status, point) ← connectImpl feat m s.vq req.addr req.port req.vid req.ans
  match point with
  | none => some ({ s with vq }, status)
  | some point => some ({ vq, obtained := ((req.addr, req.port), point) :: s.obtained }, status)

def step (feat : Features) (m : Machine) (s : Session) : Event → Option Session
  | .connect req => (s.connect feat m req).map Prod.fst
  | .migrated rc =>
    if feat.migrateQp && feat.virtualQueue && s.vq.rcConnectParam.isSome then
      some { s with vq := { s.vq with virtualQueue := rc } }
    else none

/-! ## The data path -/

/-- The data path of the queue leads to `(addr, port)`: its RC is connected to
    it, or its remote endpoint is the one obtained for it. -/
def LeadsTo (feat : Features) (m : Machine) (s : Session) (addr : Address) (port : Nat) : Prop :=
  if feat.dctQp then
    ∃ point, s.obtainedFor addr port = some point ∧
      s.vq.localCache.remoteEndpoint.map EndPoint.selfClone = some point.selfClone
  else
    ∃ rc, s.vq.virtualQueue = some rc ∧ m.parseGid addr.text = some rc.path.dgid ∧
      rc.serviceId = port

/-- When a Connect that replies ok makes the queue lead to its target: with
    `dct_qp` the target is not in the metadata cache, or the endpoint fetched
    last is the one obtained for it; without `dct_qp` the queue keeps its RC and
    an RC can be created. -/
def Aimed (feat : Features) (s : Session) (req : ConnectReq) : Prop :=
  if feat.dctQp then
    s.vq.localCache.dctMetaCache (dctMetaCacheKey req.addr req.port) = none ∨
      ∃ last point, s.obtained.head? = some last ∧
        s.obtainedFor req.addr req.port = some point ∧ last.2.selfClone = point.selfClone
  else feat.virtualQueue = true ∧ req.ans.rc ≠ .notCreated

/-! ## The caches and what has been fetched -/

/-- Addresses have one length, so the key determines the target. -/
theorem dctMetaCacheKey_inj {addr addr' : Address} {port port' : Nat} :
    dctMetaCacheKey addr port = dctMetaCacheKey addr' port' ↔ addr = addr' ∧ port = port' := by
  constructor
  · intro h
    have hlen : addr.text.length = addr'.text.length := by rw [addr.size, addr'.size]
    obtain ⟨htext, hport⟩ := List.append_inj h hlen
    refine ⟨?_, ?_⟩
    · cases addr
      cases addr'
      simpa using htext
    · rw [← Nat.ofDigitChars_ten_toDigits (n := port), hport, Nat.ofDigitChars_ten_toDigits]
  · rintro ⟨rfl, rfl⟩
    rfl

/-- The metadata cache knows exactly the targets that endpoints have been
    fetched for, the remote endpoint is the last one fetched, and cached paths
    lead to the gid of their address. -/
structure Inv (feat : Features) (m : Machine) (s : Session) : Prop where
  cached : feat.dctQp = true → ∀ addr port,
    (s.vq.localCache.dctMetaCache (dctMetaCacheKey addr port)).isSome =
      (s.obtainedFor addr port).isSome
  remote : s.vq.localCache.remoteEndpoint.map EndPoint.selfClone =
    s.obtained.head?.map fun last => last.2.selfClone
  paths : ∀ text path, s.vq.localCache.pathRecCache text = some path →
    m.parseGid text = some path.dgid

theorem inv_opened (feat : Features) (m : Machine) (localMr : TempMR) :
    (opened localMr).Inv feat m where
  cached _ _ _ := rfl
  remote := rfl
  paths _ _ h := by cases h

/-- The invariant only reads the three caches of the queue. -/
theorem Inv.congr {feat : Features} {m : Machine} {s : Session} {vq : VQ} (h : s.Inv feat m)
    (hmeta : vq.localCache.dctMetaCache = s.vq.localCache.dctMetaCache)
    (hremote : vq.localCache.remoteEndpoint = s.vq.localCache.remoteEndpoint)
    (hpaths : ∀ text path, vq.localCache.pathRecCache text = some path →
      m.parseGid text = some path.dgid) :
    Inv feat m { s with vq } where
  cached hdct addr port := by rw [hmeta]; exact h.cached hdct addr port
  remote := by rw [hremote]; exact h.remote
  paths := hpaths

/-- Exploring a path keeps the invariant. -/
theorem Inv.explored {feat : Features} {m : Machine} {s : Session} {addr : Address} {port : Nat}
    {dgid : Gid} {vq : VQ} (h : s.Inv feat m) (hgid : m.parseGid addr.text = some dgid)
    (hexp : Explored addr dgid (selectCtrl m s.vq port) vq) : Inv feat m { s with vq } := by
  refine h.congr hexp.dctMetaCache hexp.remoteEndpoint fun text path hpath => ?_
  rcases hexp.paths text path hpath with hold | ⟨rfl, hnew⟩
  · exact h.paths text path hold
  · rw [hgid, hnew]

/-- Storing a fetched endpoint keeps the invariant. -/
theorem Inv.stored {feat : Features} {m : Machine} {s : Session} (h : s.Inv feat m)
    (addr : Address) (port : Nat) (point : EndPoint) (ah : BitVec 64) :
    Inv feat m { vq := storeEndpoint feat s.vq addr port point ah,
                 obtained := ((addr, port), point) :: s.obtained } where
  cached hdct addr' port' := by
    have hcache := feat.dct_meta_cache hdct
    by_cases hsame : addr' = addr ∧ port' = port
    · obtain ⟨rfl, rfl⟩ := hsame
      simp [storeEndpoint, hcache, obtainedFor]
    · have hkey : dctMetaCacheKey addr' port' ≠ dctMetaCacheKey addr port :=
        fun hk => hsame (dctMetaCacheKey_inj.mp hk)
      have htarget : ((addr', port') == (addr, port)) = false := by
        simpa using fun ha hp => hsame ⟨ha, hp⟩
      have := h.cached hdct addr' port'
      simpa [storeEndpoint, hcache, hkey, obtainedFor, List.lookup_cons, htarget] using this
  remote := by simp [storeEndpoint]
  paths := h.paths

theorem connect_eq_some {feat : Features} {m : Machine} {s s' : Session} {req : ConnectReq}
    {status : ReplyStatus} (h : s.connect feat m req = some (s', status)) :
    ∃ vq point, ConnectOutcome feat m s.vq req.addr req.port req.ans vq status point ∧
      s' = { vq, obtained := (point.map ((req.addr, req.port), ·)).toList ++ s.obtained } := by
  simp only [connect, Option.bind_eq_bind, Option.bind_eq_some_iff, Prod.exists] at h
  obtain ⟨vq, status', point, himpl, hres⟩ := h
  cases point with
  | none =>
    simp only [Option.some.injEq, Prod.mk.injEq] at hres
    obtain ⟨rfl, rfl⟩ := hres
    exact ⟨vq, none, connectImpl_outcome himpl, rfl⟩
  | some point =>
    simp only [Option.some.injEq, Prod.mk.injEq] at hres
    obtain ⟨rfl, rfl⟩ := hres
    exact ⟨vq, some point, connectImpl_outcome himpl, rfl⟩

theorem Inv.connect {feat : Features} {m : Machine} {s s' : Session} {req : ConnectReq}
    {status : ReplyStatus} (hinv : s.Inv feat m)
    (h : s.connect feat m req = some (s', status)) : s'.Inv feat m := by
  obtain ⟨vq, point, hout, rfl⟩ := connect_eq_some h
  cases hout with
  | connected h => exact hinv
  | unparsable h => exact hinv
  | failed hfree hgid hexp => exact hinv.explored hgid hexp
  | rc hdct hfree hgid hexp hpath hqp =>
    have hexplored := hinv.explored hgid hexp
    split
    · exact hexplored.congr rfl rfl hexplored.paths
    · exact hexplored
  | hit hdct hfree hgid hhit => exact hinv.congr rfl rfl hinv.paths
  | fetched hdct hfree hgid hmiss hexp =>
    exact (hinv.explored hgid hexp).stored req.addr req.port _ req.ans.ah

theorem Inv.step {feat : Features} {m : Machine} {s s' : Session} {e : Event}
    (hinv : s.Inv feat m) (h : s.step feat m e = some s') : s'.Inv feat m := by
  cases e with
  | connect req =>
    simp only [Session.step, Option.map_eq_some_iff, Prod.exists] at h
    obtain ⟨s'', status, hconn, rfl⟩ := h
    exact hinv.connect hconn
  | migrated rc =>
    simp only [Session.step] at h
    split at h
    · simp only [Option.some.injEq] at h
      subst h
      exact hinv.congr rfl rfl hinv.paths
    · cases h

/-! ## The target of a Connect that replied ok -/

/-- Without `dct_qp`: the RC leads to the target exactly if the queue keeps it
    and it could be created. -/
private theorem leadsTo_rc {feat : Features} {m : Machine} {s : Session} {req : ConnectReq}
    {dgid : Gid} {path : SaPathRec} {qp : Option RC} (hdct : feat.dctQp = false)
    (hinv : s.Inv feat m) (hfree : s.vq.virtualQueue = none)
    (hgid : m.parseGid req.addr.text = some dgid)
    (hpath : s.vq.localCache.pathRecCache req.addr.text = some path)
    (hqp : qpConnect m req.port path req.ans.rc = .ok qp) :
    LeadsTo feat m
        { s with vq := if feat.virtualQueue then { s.vq with virtualQueue := qp } else s.vq }
        req.addr req.port ↔
      feat.virtualQueue = true ∧ req.ans.rc ≠ .notCreated := by
  have hdgid : path.dgid = dgid := by
    have := hinv.paths _ _ hpath
    rw [hgid] at this
    exact (Option.some.inj this).symm
  cases hfeat : feat.virtualQueue with
  | false => simp [LeadsTo, hdct, hfree]
  | true =>
    cases hrc : req.ans.rc with
    | notCreated =>
      simp only [hrc, qpConnect, Except.ok.injEq] at hqp
      simp [LeadsTo, hdct, ← hqp]
    | failed errno => simp [hrc, qpConnect] at hqp
    | connected id =>
      simp only [hrc, qpConnect, Except.ok.injEq] at hqp
      simp [LeadsTo, hdct, ← hqp, hgid, hdgid]

/-- In every session reached by Connects (and migrations), a Connect that
    replies ok makes the queue lead to the target it names exactly if it is
    aimed. -/
theorem connect_ok_leadsTo_iff (feat : Features) (m : Machine) (localMr : TempMR)
    (es : List Event) (s s' : Session) (req : ConnectReq)
    (hrun : Run.exec (step feat m) (opened localMr) es = some s)
    (hconn : s.connect feat m req = some (s', .ok)) :
    LeadsTo feat m s' req.addr req.port ↔ Aimed feat s req := by
  have hinv : s.Inv feat m :=
    Run.exec_invariant (fun _ _ _ hi hs => Inv.step hi hs) (inv_opened feat m localMr) hrun
  obtain ⟨vq, point, hout, rfl⟩ := connect_eq_some hconn
  generalize hstatus : ReplyStatus.ok = status at hout
  cases hout with
  | connected h => cases hstatus
  | unparsable h => cases hstatus
  | failed hfree hgid hexp => cases hstatus
  | @rc dgid vq' path qp hdct hfree hgid hexp hpath hqp =>
    have hfree' : vq'.virtualQueue = none := hexp.virtualQueue.trans hfree
    simpa [Aimed, hdct] using leadsTo_rc hdct (hinv.explored hgid hexp) hfree' hgid hpath hqp
  | hit hdct hfree hgid hhit =>
    -- Nothing has changed: the remote endpoint still is the last one fetched.
    have hnone : s.vq.localCache.dctMetaCache (dctMetaCacheKey req.addr req.port) ≠ none := by
      rw [← Option.isSome_iff_ne_none]
      exact hhit
    have hremote : (selectCtrl m s.vq req.port).localCache.remoteEndpoint.map EndPoint.selfClone =
        s.obtained.head?.map fun last => last.2.selfClone := hinv.remote
    simp only [LeadsTo, Aimed, hdct, if_true, hnone, false_or, hremote, Option.map_none,
      Option.toList_none, List.nil_append, Option.map_eq_some_iff, obtainedFor]
    constructor
    · rintro ⟨point, hpoint, last, hlast, heq⟩
      exact ⟨last, point, hlast, hpoint, heq⟩
    · rintro ⟨last, point, hlast, hpoint, heq⟩
      exact ⟨point, hpoint, last, hlast, heq⟩
  | @fetched dgid vq' point hdct hfree hgid hmiss hexp =>
    have haimed : Aimed feat s req := by simp [Aimed, hdct, hmiss]
    refine iff_of_true ?_ haimed
    simp [LeadsTo, hdct, obtainedFor, storeEndpoint]

/-- The session after Connects to `a` and then to `b`, over DC. -/
def sessionAB : List Event :=
  [.connect (ConnectReq.sample 'a' 1 .notCreated), .connect (ConnectReq.sample 'b' 2 .notCreated)]

/-- A second Connect to `a` is a cache hit and leaves the endpoint of `b`; and
    when no RC can be created, Connect replies ok without any RC. -/
theorem connect_ok_elsewhere :
    (∃ s s', Run.exec (step Features.dct Machine.sample) (opened default) sessionAB = some s ∧
      s.connect Features.dct Machine.sample (ConnectReq.sample 'a' 1 .notCreated) = some (s', .ok) ∧
      ¬ LeadsTo Features.dct Machine.sample s' (Address.sample 'a') 0) ∧
    ∃ s', (opened default).connect Features.plain Machine.sample
        (ConnectReq.sample 'a' 1 .notCreated) = some (s', .ok) ∧
      ¬ LeadsTo Features.plain Machine.sample s' (Address.sample 'a') 0 := by
  refine ⟨⟨_, _, rfl, rfl, ?_⟩, ⟨_, rfl, ?_⟩⟩
  · rintro ⟨point, hpoint, hremote⟩
    have hqpn : point.qpn = 1 := by
      rw [← Option.some.inj (hpoint : some { (default : EndPoint) with qpn := 1 } = some point)]
    have hlast : (2 : BitVec 32) = point.qpn :=
      congrArg EndPoint.qpn (Option.some.inj hremote)
    rw [hqpn] at hlast
    exact absurd hlast (by decide)
  · rintro ⟨rc, hrc, -⟩
    cases hrc

theorem connect_ok_leadsTo_iff_ab :
    ∃ s s', Run.exec (step Features.dct Machine.sample) (opened default) sessionAB = some s ∧
      s.connect Features.dct Machine.sample (ConnectReq.sample 'b' 2 .notCreated) = some (s', .ok) ∧
      (LeadsTo Features.dct Machine.sample s' (Address.sample 'b') 0 ↔
        Aimed Features.dct s (ConnectReq.sample 'b' 2 .notCreated)) :=
  ⟨_, _, rfl, rfl,
    connect_ok_leadsTo_iff _ _ default sessionAB _ _ (ConnectReq.sample 'b' 2 .notCreated) rfl rfl⟩

end Session
