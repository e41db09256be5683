-- SUMMARY: One path resolution with its callback: when resolve returns ok, and when the callback neither panics nor touches an explorer that is gone.
import KRCore.Base.Run
import KRCore.VirtualQueue.Connect

/-!
# Path resolution

`resolve` hands the subnet administrator a callback with a pointer to the explorer, which
lives on the stack of `explore_path`, and waits for it. When the wait ends without the
callback, nobody cancels the query, and the callback comes later or not at all. A callback
with an error status panics.
-/

namespace PathResolve

/-! ## The explorer -/

/-- Where the thread is that calls `resolve`. -/
inductive Phase where
  | start
  | waiting
  | ok
  | err (errno : Int)
deriving DecidableEq, Repr

/-- The result is there. -/
def Phase.returned : Phase → Bool
  | .start => false
  | .waiting => false
  | .ok => true
  | .err _ => true

/-- The query, and how far its callback has come. -/
inductive Query where
  | idle
  | pending
  | stored
  | finished
  | failed
deriving DecidableEq, Repr

/-- An `IBExplorer` with the call of `resolve` and the callback. `done` is the counter of the
    completion. `answered` is the record of a success callback that signalled the completion
    before the wait ended, `late` says that a callback has used the explorer of a `resolve`
    that has returned. -/
structure State where
  phase : Phase
  query : Query
  pathResult : Option SaPathRec
  done : Nat
  answered : Option SaPathRec
  panicked : Bool
  late : Bool

/-- `IBExplorer::new`, and `done.init()`. -/
def State.new : State where
  phase := .start
  query := .idle
  pathResult := none
  done := 0
  answered := none
  panicked := false
  late := false

/-- How `wait_for_completion_interruptible_timeout` ends. -/
inductive WaitEnd where
  | completed
  | timeout
  | interrupted (errno : Int)

inductive Event where
  /-- `ib_sa_path_rec_get` returns; a query that was refused has no callback. -/
  | query (ret : Int)
  /-- `path_rec_completion` looks at its status, and stores the record. -/
  | callback (status : Int) (resp : SaPathRec)
  /-- `path_rec_completion` signals the completion. -/
  | complete
  | wake (e : WaitEnd)

/-- One step of the thread or of the callback. The wait ends without the completion only if
    the completion has not been signalled. -/
def step (s : State) : Event → Option State
  | .query ret =>
    if s.phase = .start then
      if ret < 0 then some { s with phase := .err ret }
      else some { s with phase := .waiting, query := .pending }
    else none
  | .callback status resp =>
    if s.query = .pending then
      if status ≠ 0 then some { s with query := .failed, panicked := true }
      else
        some
          { s with
            query := .stored, pathResult := some resp
            late := s.late || s.phase.returned }
    else none
  | .complete =>
    if s.query = .stored then
      some
        { s with
          query := .finished, done := s.done + 1
          answered := if s.phase.returned then s.answered else s.pathResult
          late := s.late || s.phase.returned }
    else none
  | .wake .completed =>
    if s.phase = .waiting ∧ 0 < s.done then some { s with phase := .ok, done := s.done - 1 }
    else none
  | .wake .timeout =>
    if s.phase = .waiting ∧ s.done = 0 then some { s with phase := .err 0 } else none
  | .wake (.interrupted errno) =>
    if s.phase = .waiting ∧ s.done = 0 ∧ errno < 0 then some { s with phase := .err errno }
    else none

/-- What `explore_path` does with the result of `resolve`; `none` before it is there, and where
    the `unwrap` of `get_path_result` panics. -/
def State.explorePath (s : State) : Option (Except Int SaPathRec) :=
  match s.phase with
  | .ok => s.pathResult.map .ok
  | .err errno => some (.error errno)
  | _ => none

/-! ## What should hold -/

/-- `resolve` returns ok exactly if a success callback came in time, and then with its record. -/
structure Answers (s : State) : Prop where
  ok : s.phase = .ok ↔ s.phase.returned = true ∧ s.answered ≠ none
  result : s.phase = .ok → s.pathResult = s.answered

structure Handled (s : State) : Prop extends Answers s where
  /-- Without such a callback `explore_path` returns an error. -/
  explored : s.phase.returned = true →
    ∃ out, s.explorePath = some out ∧ ((∃ errno, out = .error errno) ↔ s.answered = none)
  quiet : s.panicked = false
  alive : s.late = false

/-- The callback has status 0, and all its steps come before the wait ends. -/
def InTime (s : State) : Event → Prop
  | .callback status _ => status = 0 ∧ s.phase = .waiting
  | .complete => s.phase = .waiting
  | _ => True

/-! ## The answers -/

/-- What holds in every state, whatever the callback has done. -/
structure Sound (s : State) : Prop where
  start : s.phase = .start → s.query = .idle ∧ s.done = 0 ∧ s.answered = none
  waiting : s.phase = .waiting →
    (s.query ≠ .finished ∧ s.done = 0 ∧ s.answered = none) ∨
      (s.query = .finished ∧ s.done = 1 ∧ s.answered = s.pathResult)
  ok : s.phase = .ok → s.query = .finished ∧ s.answered = s.pathResult
  err : ∀ errno, s.phase = .err errno → s.answered = none
  stored : s.query = .stored ∨ s.query = .finished → s.pathResult ≠ none

theorem sound_new : Sound .new where
  start _ := ⟨rfl, rfl, rfl⟩
  waiting h := by cases h
  ok h := by cases h
  err _ h := by cases h
  stored h := by rcases h with h | h <;> cases h

/-- The wait ends with an error, or the query is refused. -/
theorem Sound.returnErr {s : State} (h : Sound s) (hans : s.answered = none) (errno : Int) :
    Sound { s with phase := .err errno } where
  start hs := Phase.noConfusion hs
  waiting hs := Phase.noConfusion hs
  ok hs := Phase.noConfusion hs
  err _ _ := hans
  stored := h.stored

theorem Sound.callback {s s' : State} {status : Int} {resp : SaPathRec} (h : Sound s)
    (hstep : step s (.callback status resp) = some s') : Sound s' := by
  simp only [step, Option.ite_none_right_eq_some] at hstep
  obtain ⟨hquery, hstep⟩ := hstep
  have hphase : s.phase ≠ .start := fun hs => by simp [(h.start hs).1] at hquery
  have hok : s.phase ≠ .ok := fun hs => by simp [(h.ok hs).1] at hquery
  have hwait : s.phase = .waiting → s.done = 0 ∧ s.answered = none := by
    intro hs
    rcases h.waiting hs with ⟨-, hdone⟩ | ⟨hq, -⟩
    · exact hdone
    · simp [hq] at hquery
  split at hstep
  · cases hstep
    exact ⟨fun hs => absurd hs hphase, fun hs => .inl ⟨by simp, hwait hs⟩,
      fun hs => absurd hs hok, h.err, by simp⟩
  · cases hstep
    exact ⟨fun hs => absurd hs hphase, fun hs => .inl ⟨by simp, hwait hs⟩,
      fun hs => absurd hs hok, h.err, fun _ => Option.some_ne_none resp⟩

theorem Sound.complete {s s' : State} (h : Sound s) (hstep : step s .complete = some s') :
    Sound s' := by
  simp only [step, Option.ite_none_right_eq_some, Option.some.injEq] at hstep
  obtain ⟨hquery, rfl⟩ := hstep
  have hphase : s.phase ≠ .start := fun hs => by simp [(h.start hs).1] at hquery
  have hok : s.phase ≠ .ok := fun hs => by simp [(h.ok hs).1] at hquery
  refine ⟨fun hs => absurd hs hphase, fun hs => .inr ?_, fun hs => absurd hs hok,
    fun errno hs => ?_, fun _ => h.stored (.inl hquery)⟩
  · rcases h.waiting hs with ⟨-, hdone, -⟩ | ⟨hq, -⟩
    · have hs' : s.phase = .waiting := hs
      simp [hdone, hs', Phase.returned]
    · simp [hq] at hquery
  · have hs' : s.phase = .err errno := hs
    simp [hs', Phase.returned, h.err errno hs']

theorem Sound.wake {s s' : State} {e : WaitEnd} (h : Sound s)
    (hstep : step s (.wake e) = some s') : Sound s' := by
  cases e with
  | completed =>
    simp only [step, Option.ite_none_right_eq_some, Option.some.injEq] at hstep
    obtain ⟨⟨hphase, hdone⟩, rfl⟩ := hstep
    rcases h.waiting hphase with ⟨-, hzero, -⟩ | ⟨hq, -, hans⟩
    · omega
    · exact ⟨Phase.noConfusion, Phase.noConfusion, fun _ => ⟨hq, hans⟩,
        fun _ hs => Phase.noConfusion hs, h.stored⟩
  | timeout =>
    simp only [step, Option.ite_none_right_eq_some, Option.some.injEq] at hstep
    obtain ⟨⟨hphase, hdone⟩, rfl⟩ := hstep
    rcases h.waiting hphase with ⟨-, -, hans⟩ | ⟨-, hone, -⟩
    · exact h.returnErr hans 0
    · omega
  | interrupted errno =>
    simp only [step, Option.ite_none_right_eq_some, Option.some.injEq] at hstep
    obtain ⟨⟨hphase, hdone, -⟩, rfl⟩ := hstep
    rcases h.waiting hphase with ⟨-, -, hans⟩ | ⟨-, hone, -⟩
    · exact h.returnErr hans errno
    · omega

theorem Sound.step {s s' : State} {ev : Event} (h : Sound s) (hstep : step s ev = some s') :
    Sound s' := by
  cases ev with
  | query ret =>
    simp only [PathResolve.step, Option.ite_none_right_eq_some] at hstep
    obtain ⟨hphase, hstep⟩ := hstep
    obtain ⟨hq, hdone, hans⟩ := h.start hphase
    split at hstep
    · cases hstep
      exact h.returnErr hans ret
    · cases hstep
      exact ⟨Phase.noConfusion, fun _ => .inl ⟨by simp, hdone, hans⟩, Phase.noConfusion,
        fun _ hs => Phase.noConfusion hs, by simp⟩
  | callback status resp => exact h.callback hstep
  | complete => exact h.complete hstep
  | wake e => exact h.wake hstep

theorem Sound.answers {s : State} (h : Sound s) : Answers s := by
  refine ⟨⟨fun hok => ?_, fun ⟨hret, hans⟩ => ?_⟩, fun hok => (h.ok hok).2.symm⟩
  · obtain ⟨hq, hans⟩ := h.ok hok
    rw [hans]
    exact ⟨by simp [hok, Phase.returned], h.stored (.inr hq)⟩
  · cases hphase : s.phase with
    | start => simp [hphase, Phase.returned] at hret
    | waiting => simp [hphase, Phase.returned] at hret
    | ok => rfl
    | err errno => exact absurd (h.err errno hphase) hans

/-- `explore_path` never runs into its `unwrap`. -/
theorem Sound.explored {s : State} (h : Sound s) (hret : s.phase.returned = true) :
    ∃ out, s.explorePath = some out ∧ ((∃ errno, out = .error errno) ↔ s.answered = none) := by
  unfold State.explorePath
  cases hphase : s.phase with
  | start => simp [hphase, Phase.returned] at hret
  | waiting => simp [hphase, Phase.returned] at hret
  | ok =>
    obtain ⟨hq, hans⟩ := h.ok hphase
    obtain ⟨resp, hresp⟩ := Option.ne_none_iff_exists'.mp (h.stored (.inr hq))
    refine ⟨.ok resp, by simp [hresp], ?_⟩
    rw [hans, hresp]
    simp
  | err errno => exact ⟨.error errno, rfl, iff_of_true ⟨errno, rfl⟩ (h.err errno hphase)⟩

/-! ## The callback -/

theorem Sound.handled_iff {s : State} (h : Sound s) :
    Handled s ↔ s.panicked = false ∧ s.late = false :=
  ⟨fun hh => ⟨hh.quiet, hh.alive⟩, fun ⟨hquiet, halive⟩ =>
    ⟨h.answers, h.explored, hquiet, halive⟩⟩

/-- The end of the wait adds neither a panic nor a late access. -/
theorem wake_flags {s s' : State} {e : WaitEnd} (hstep : step s (.wake e) = some s') :
    s'.panicked = s.panicked ∧ s'.late = s.late := by
  cases e with
  | completed =>
    simp only [step, Option.ite_none_right_eq_some, Option.some.injEq] at hstep
    obtain ⟨-, rfl⟩ := hstep
    exact ⟨rfl, rfl⟩
  | timeout =>
    simp only [step, Option.ite_none_right_eq_some, Option.some.injEq] at hstep
    obtain ⟨-, rfl⟩ := hstep
    exact ⟨rfl, rfl⟩
  | interrupted errno =>
    simp only [step, Option.ite_none_right_eq_some, Option.some.injEq] at hstep
    obtain ⟨-, rfl⟩ := hstep
    exact ⟨rfl, rfl⟩

/-- A callback that is on its way finds `resolve` waiting or returned. -/
theorem Sound.waiting_iff {s : State} (h : Sound s) (hq : s.query = .pending ∨ s.query = .stored) :
    s.phase = .waiting ↔ s.phase.returned = false := by
  cases hp : s.phase with
  | start => simp [(h.start hp).1] at hq
  | waiting => simp [Phase.returned]
  | ok => simp [Phase.returned]
  | err errno => simp [Phase.returned]

/-- A step adds a panic or a late access exactly if it is a step of a callback that is not in
    time. -/
theorem step_handled_iff {s s' : State} {ev : Event} (h : Sound s) (hs : Handled s)
    (hstep : step s ev = some s') : Handled s' ↔ InTime s ev := by
  rw [(h.step hstep).handled_iff]
  obtain ⟨hquiet, halive⟩ := h.handled_iff.mp hs
  cases ev with
  | query ret =>
    simp only [step, Option.ite_none_right_eq_some] at hstep
    obtain ⟨-, hstep⟩ := hstep
    split at hstep
    all_goals
      cases hstep
      exact iff_of_true ⟨hquiet, halive⟩ trivial
  | callback status resp =>
    simp only [step, Option.ite_none_right_eq_some] at hstep
    obtain ⟨hq, hstep⟩ := hstep
    split at hstep
    · rename_i hstatus
      cases hstep
      exact iff_of_false (fun hh => Bool.false_ne_true hh.1.symm) fun hin => hstatus hin.1
    · rename_i hstatus
      cases hstep
      simp only [InTime, hquiet, halive, Bool.false_or, true_and, h.waiting_iff (.inl hq),
        not_not.mp hstatus]
  | complete =>
    simp only [step, Option.ite_none_right_eq_some, Option.some.injEq] at hstep
    obtain ⟨hq, rfl⟩ := hstep
    simp only [InTime, hquiet, halive, Bool.false_or, true_and, h.waiting_iff (.inr hq)]
  | wake e =>
    obtain ⟨hpanicked, hlate⟩ := wake_flags hstep
    exact iff_of_true ⟨hpanicked.trans hquiet, hlate.trans halive⟩ trivial

theorem handled_new : Handled .new :=
  sound_new.handled_iff.mpr ⟨rfl, rfl⟩

/-- For every order of the events of a resolve: it returns ok exactly if a success callback came
    before the wait ended, and then with the record of this callback. Every outcome is
    handled, without a panic and without an access to an explorer whose resolve has returned,
    if and only if the callback, should it come, carries status 0 and is done before the
    wait ends. -/
theorem resolve_handled_iff (evs : List Event) :
    Run.Always step Answers .new evs ∧
      (Run.Always step Handled .new evs ↔ Run.Guarded step InTime .new evs) := by
  refine ⟨fun pre s hpre hrun => ?_, ?_⟩
  · exact (Run.exec_invariant (fun _ _ _ hs hstep => Sound.step hs hstep) sound_new hrun).answers
  · exact Run.always_iff_guarded (I := Sound) (fun s ev s' h hstep _ => h.step hstep)
      (fun s ev s' h hs hstep => step_handled_iff h hs hstep) sound_new handled_new evs

/-- The query fails with `-ETIMEDOUT`, and its callback panics. Or the wait times out, and the
    callback then writes into an explorer that is gone. -/
theorem resolve_callback_fails :
    (∃ s, Run.exec step .new [.query 0, .callback (-110) default] = some s ∧
      s.panicked = true) ∧
      ∃ s, Run.exec step .new [.query 0, .wake .timeout, .callback 0 default, .complete] = some s ∧
        s.phase = .err 0 ∧ s.late = true :=
  ⟨⟨_, rfl, rfl⟩, ⟨_, rfl, rfl, rfl⟩⟩

/-! ## Connect -/

/-- The outcome of such a run is what a Connect takes as the answer to its query, if the record
    is for what was asked. -/
theorem explorePath_of_run {s : State} {out : Except Int SaPathRec} (h : s.explorePath = some out)
    (m : Machine) {vq : VQ} (port : Nat) {addr : Address} (dgid : Gid)
    (hmiss : vq.localCache.pathRecCache addr.text = none)
    (hrec : ∀ r, s.pathResult = some r → r =
      { dgid, sgid := m.gid (m.getGlobalRctrl port), serviceId := port, dlid := r.dlid }) :
    (VQ.explorePath m vq port addr dgid (out.map SaPathRec.dlid)).1 = out := by
  unfold State.explorePath at h
  cases hphase : s.phase with
  | start => simp [hphase] at h
  | waiting => simp [hphase] at h
  | ok =>
    simp only [hphase, Option.map_eq_some_iff] at h
    obtain ⟨r, hr, rfl⟩ := h
    simp only [VQ.explorePath, hmiss, Except.map]
    rw [← hrec r hr]
  | err errno =>
    simp only [hphase, Option.some.injEq] at h
    subst h
    simp only [VQ.explorePath, hmiss, Except.map]

end PathResolve
