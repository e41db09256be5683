-- SUMMARY: The registry of accepted RCs of one controller, and when it holds exactly the live connections.
import Mathlib.Data.List.Nodup
import Mathlib.Logic.Function.Basic
import KRCore.Base.Run
import KRCore.Qp.Handshake

/-!
# The registry of accepted connections

A controller keeps the RCs it has accepted in `registered_rcs`. A request names
its key itself (`qd`, the `vid` of the client) or lets the controller count one
(`qd = 0`), and both kinds of keys go into the same map. The key of a connection
is stored in the context of its `cm_id`, where a disconnect request finds it.

A connection is accepted once its RC is in RTR; whether the reply can be sent
makes no difference to the registry. `live`, `unnamed` and `clashes` are history.
-/

/-- An accepted connection: the number of its RC and `cm_id`, the `qd` of its
    request, how many requests with `qd = 0` had come before, and its key. -/
structure Conn where
  rc : Nat
  qd : Nat
  turn : Nat
  key : Nat
deriving DecidableEq

/-- The registry of a controller with the queue pairs and `cm_id`s of the RCs it
    has made. `context` is the `InQPContext` of a `cm_id`. `live` are the
    connections accepted and not yet disconnected, `unnamed` counts the requests
    with `qd = 0`, and `clashes` are the keys counted out for them while in use. -/
structure Registry where
  registeredRcs : Nat → Option Nat
  freeInQpKey : Nat
  nextRc : Nat
  qps : Nat → Bool
  cms : Nat → Bool
  context : Nat → Option Nat
  live : List Conn
  unnamed : Nat
  clashes : List Nat

namespace Registry

inductive Event where
  /-- `IB_CM_REQ_RECEIVED`; how the calls go that bring the new RC up. -/
  | req (qd : Nat) (ans : BringAnswers)
  /-- `IB_CM_DREQ_RECEIVED` on the `cm_id` of an RC. -/
  | dreq (rc : Nat)

/-- The registry of a new controller. -/
def create : Registry where
  registeredRcs _ := none
  freeInQpKey := 0
  nextRc := 0
  qps _ := false
  cms _ := false
  context _ := none
  live := []
  unnamed := 0
  clashes := []

/-- The objects that are left when an RC is dropped. -/
def without (objs : Nat → Bool) (rc : Option Nat) : Nat → Bool := fun i => objs i && rc != some i

/-- `registered_rcs.insert`. The RC it replaces is dropped, which destroys its queue
    pair and its `cm_id`. -/
def insert (s : Registry) (key rc : Nat) : Registry :=
  { s with
    registeredRcs := Function.update s.registeredRcs key (some rc)
    qps := without s.qps (s.registeredRcs key)
    cms := without s.cms (s.registeredRcs key) }

/-- A new RC in RTR is set up and registered under `key`. -/
def accept (s : Registry) (conn : Conn) : Registry :=
  { s with
    qps := Function.update s.qps conn.rc true
    cms := Function.update s.cms conn.rc true
    context := Function.update s.context conn.rc (some conn.key)
    live := s.live ++ [conn] }.insert conn.key conn.rc

/-- `rc_conn_callback`. An RC that cannot be brought to RTR is dropped again. -/
def rcConnCallback (s : Registry) (qd : Nat) (ans : BringAnswers) : Option Registry :=
  (getNextInQpKey s.freeInQpKey qd).map fun (key, free) =>
    let conn : Conn := { rc := s.nextRc, qd, turn := s.unnamed, key }
    let s' :=
      { s with
        freeInQpKey := free
        nextRc := s.nextRc + 1
        unnamed := if qd = 0 then s.unnamed + 1 else s.unnamed
        clashes := if qd = 0 ∧ (s.registeredRcs key).isSome then s.clashes ++ [key] else s.clashes }
    if (QpState.reset.bringUp ans).1 then s'.accept conn else s'

/-- `dereg_rc`: the RC under the key, if there is one, is dropped, but its `cm_id` is
    kept. -/
def deregRc (s : Registry) (key : Nat) : Registry :=
  { s with
    registeredRcs := Function.update s.registeredRcs key none
    qps := without s.qps (s.registeredRcs key) }

/-- A disconnect request. It only comes to a `cm_id` that exists, and its context is
    freed. -/
def dreq (s : Registry) (rc : Nat) : Option Registry :=
  if s.cms rc then
    (s.context rc).map fun key =>
      { s with
        context := Function.update s.context rc none
        live := s.live.filter fun c => c.rc ≠ rc }.deregRc key
  else none

/-- `cm_handler`. -/
def step (s : Registry) : Event → Option Registry
  | .req qd ans => s.rcConnCallback qd ans
  | .dreq rc => s.dreq rc

/-! ## Faithfulness -/

/-- The map holds exactly the live connections, each under its own key, their
    queue pairs and `cm_id`s exist, and no key was in use when it was counted out. -/
structure Faithful (s : Registry) : Prop where
  registered : ∀ key rc, s.registeredRcs key = some rc ↔ ∃ c ∈ s.live, c.key = key ∧ c.rc = rc
  existing : ∀ c ∈ s.live, s.qps c.rc = true ∧ s.cms c.rc = true
  unused : s.clashes = []

/-- The request does not meet a live connection. The `n`-th request with
    `qd = 0`, counted from zero, must not find a live connection that asked for
    `n`. A request with another `qd` that gets its RC to RTR must not find one that
    asked for the same `qd`, or one with `qd = 0` whose turn was `qd`. -/
def Apart (s : Registry) : Event → Prop
  | .req qd ans =>
    if qd = 0 then ∀ c ∈ s.live, c.qd = 0 ∨ c.qd ≠ s.unnamed
    else (QpState.reset.bringUp ans).1 = true →
      ∀ c ∈ s.live, c.qd ≠ qd ∧ (c.qd = 0 → c.turn ≠ qd)
  | .dreq _ => True

/-! ## What a connection's key is -/

/-- How keys, numbers and contexts of the live connections come about. -/
structure Inv (s : Registry) : Prop where
  counted : s.freeInQpKey = s.unnamed
  key : ∀ c ∈ s.live, c.key = if c.qd = 0 then c.turn else c.qd
  turn : ∀ c ∈ s.live, c.qd = 0 → c.turn < s.unnamed
  number : ∀ c ∈ s.live, c.rc < s.nextRc
  numbers : (s.live.map Conn.rc).Nodup
  context : ∀ rc key, s.context rc = some key → ∃ c ∈ s.live, c.rc = rc ∧ c.key = key

theorem inv_create : create.Inv where
  counted := rfl
  key _ h := by cases h
  turn _ h := by cases h
  number _ h := by cases h
  numbers := List.nodup_nil
  context _ _ h := by cases h

theorem faithful_create : create.Faithful where
  registered _ _ := by simp [create]
  existing _ h := by cases h
  unused := rfl

/-- Live connections with one number are the same. -/
theorem Inv.eq_of_rc {s : Registry} (hI : s.Inv) {c c' : Conn} (hc : c ∈ s.live)
    (hc' : c' ∈ s.live) (h : c.rc = c'.rc) : c = c' :=
  List.inj_on_of_nodup_map hI.numbers hc hc' h

/-- The key counted next belongs to a live connection exactly if one asked for it. -/
theorem Inv.counted_apart_iff {s : Registry} (hI : s.Inv) :
    (∀ c ∈ s.live, c.key ≠ s.unnamed) ↔ ∀ c ∈ s.live, c.qd = 0 ∨ c.qd ≠ s.unnamed := by
  refine forall₂_congr fun c hc => ?_
  rw [hI.key c hc]
  by_cases hqd : c.qd = 0
  · have := hI.turn c hc hqd
    simp only [hqd, if_true, true_or, iff_true]
    omega
  · simp [hqd]

theorem Inv.asked_apart_iff {s : Registry} (hI : s.Inv) {qd : Nat} (hqd : qd ≠ 0) :
    (∀ c ∈ s.live, c.key ≠ qd) ↔ ∀ c ∈ s.live, c.qd ≠ qd ∧ (c.qd = 0 → c.turn ≠ qd) := by
  refine forall₂_congr fun c hc => ?_
  rw [hI.key c hc]
  by_cases hc0 : c.qd = 0
  · simp [hc0, hqd.symm]
  · simp [hc0]

theorem Faithful.free_iff {s : Registry} (hP : s.Faithful) (key : Nat) :
    s.registeredRcs key = none ↔ ∀ c ∈ s.live, c.key ≠ key := by
  constructor
  · intro hnone c hc hkey
    have := (hP.registered key c.rc).mpr ⟨c, hc, hkey, rfl⟩
    rw [hnone] at this
    cases this
  · intro hfree
    cases hreg : s.registeredRcs key with
    | none => rfl
    | some rc =>
      obtain ⟨c, hc, hkey, -⟩ := (hP.registered key rc).mp hreg
      exact absurd hkey (hfree c hc)

/-! ## The steps -/

/-- Everything a step can do. -/
inductive Stepped (s : Registry) : Event → Registry → Prop
  | accepted {qd key free : Nat} {ans : BringAnswers}
      (hkey : getNextInQpKey s.freeInQpKey qd = some (key, free))
      (hrtr : (QpState.reset.bringUp ans).1 = true) :
      Stepped s (.req qd ans)
        ({ s with
          freeInQpKey := free
          nextRc := s.nextRc + 1
          unnamed := if qd = 0 then s.unnamed + 1 else s.unnamed
          clashes :=
            if qd = 0 ∧ (s.registeredRcs key).isSome then s.clashes ++ [key]
            else s.clashes }.accept { rc := s.nextRc, qd, turn := s.unnamed, key })
  | dropped {qd key free : Nat} {ans : BringAnswers}
      (hkey : getNextInQpKey s.freeInQpKey qd = some (key, free))
      (hrtr : (QpState.reset.bringUp ans).1 = false) :
      Stepped s (.req qd ans)
        { s with
          freeInQpKey := free
          nextRc := s.nextRc + 1
          unnamed := if qd = 0 then s.unnamed + 1 else s.unnamed
          clashes :=
            if qd = 0 ∧ (s.registeredRcs key).isSome then s.clashes ++ [key] else s.clashes }
  | disconnected {rc key : Nat} (hcm : s.cms rc = true) (hctx : s.context rc = some key) :
      Stepped s (.dreq rc)
        ({ s with
          context := Function.update s.context rc none
          live := s.live.filter fun c => c.rc ≠ rc }.deregRc key)

theorem step_stepped {s s' : Registry} {e : Event} (h : s.step e = some s') : Stepped s e s' := by
  cases e with
  | req qd ans =>
    simp only [step, rcConnCallback, Option.map_eq_some_iff, Prod.exists] at h
    obtain ⟨key, free, hkey, rfl⟩ := h
    split
    · rename_i hrtr
      exact .accepted hkey hrtr
    · rename_i hrtr
      exact .dropped hkey (Bool.eq_false_iff.mpr hrtr)
  | dreq rc =>
    simp only [step, dreq] at h
    split at h
    · rename_i hcm
      simp only [Option.map_eq_some_iff] at h
      obtain ⟨key, hctx, rfl⟩ := h
      exact .disconnected hcm hctx
    · cases h

@[simp] theorem without_none (objs : Nat → Bool) : without objs none = objs := by
  funext i
  simp [without]

theorem without_of_ne {objs : Nat → Bool} {rc i : Nat} (h : i ≠ rc) :
    without objs (some rc) i = objs i := by
  simp [without, h.symm]

theorem Inv.step {s s' : Registry} {e : Event} (hI : s.Inv) (h : Stepped s e s') : s'.Inv := by
  cases h with
  | @accepted qd key free ans hkey hrtr =>
    have hfst := getNextInQpKey_fst hkey
    have hsnd := getNextInQpKey_snd hkey
    rw [hI.counted] at hfst hsnd
    have hmem : ∀ c, c ∈ s.live ++ [{ rc := s.nextRc, qd, turn := s.unnamed, key }] →
        c ∈ s.live ∨ c = { rc := s.nextRc, qd, turn := s.unnamed, key } := by simp
    constructor
    case counted => exact hsnd
    case key =>
      intro c hc
      rcases hmem c hc with hc | rfl
      · exact hI.key c hc
      · exact hfst
    case turn =>
      intro c hc hqd
      change c.turn < if qd = 0 then s.unnamed + 1 else s.unnamed
      rcases hmem c hc with hc | rfl
      · have := hI.turn c hc hqd
        split <;> omega
      · rw [if_pos hqd]
        exact Nat.lt_succ_self _
    case number =>
      intro c hc
      rcases hmem c hc with hc | rfl
      · exact Nat.lt_succ_of_lt (hI.number c hc)
      · exact Nat.lt_succ_self _
    case numbers =>
      change ((s.live ++ [_]).map Conn.rc).Nodup
      rw [List.map_append, List.map_singleton]
      refine List.Nodup.append hI.numbers (List.nodup_singleton _) ?_
      rw [List.disjoint_singleton]
      intro hnum
      obtain ⟨c, hc, hrc⟩ := List.mem_map.mp hnum
      exact absurd hrc (hI.number c hc).ne
    case context =>
      intro rc key' hctx
      change Function.update s.context s.nextRc (some key) rc = some key' at hctx
      by_cases hrc : rc = s.nextRc
      · subst hrc
        rw [Function.update_self, Option.some.injEq] at hctx
        exact ⟨_, List.mem_append_right _ (List.mem_singleton.mpr rfl), rfl, hctx⟩
      · rw [Function.update_of_ne hrc] at hctx
        obtain ⟨c, hc, hcrc⟩ := hI.context rc key' hctx
        exact ⟨c, List.mem_append_left _ hc, hcrc⟩
  | @dropped qd key free ans hkey hrtr =>
    have hsnd := getNextInQpKey_snd hkey
    rw [hI.counted] at hsnd
    refine { hI with counted := hsnd, turn := ?_, number := ?_ }
    · intro c hc hqd
      have := hI.turn c hc hqd
      dsimp only
      split <;> omega
    · exact fun c hc => Nat.lt_succ_of_lt (hI.number c hc)
  | @disconnected rc key hcm hctx =>
    have hmem : ∀ c, c ∈ s.live.filter (fun c => c.rc ≠ rc) → c ∈ s.live :=
      fun c hc => (List.mem_filter.mp hc).1
    refine ⟨hI.counted, fun c hc => hI.key c (hmem c hc), fun c hc => hI.turn c (hmem c hc),
      fun c hc => hI.number c (hmem c hc), ?_, fun rc' key' hctx' => ?_⟩
    · exact hI.numbers.sublist (List.filter_sublist.map Conn.rc)
    · change Function.update s.context rc none rc' = some key' at hctx'
      by_cases hrc : rc' = rc
      · subst hrc
        rw [Function.update_self] at hctx'
        cases hctx'
      · rw [Function.update_of_ne hrc] at hctx'
        obtain ⟨c, hc, hcrc, hckey⟩ := hI.context rc' key' hctx'
        refine ⟨c, List.mem_filter.mpr ⟨hc, ?_⟩, hcrc, hckey⟩
        simpa [hcrc] using hrc

/-- A request that gets a key in use for `qd = 0` leaves a clash behind. -/
theorem clashes_eq_nil_iff {s : Registry} {qd key : Nat} (h : s.clashes = []) :
    (if qd = 0 ∧ (s.registeredRcs key).isSome then s.clashes ++ [key] else s.clashes) = [] ↔
      (qd = 0 → s.registeredRcs key = none) := by
  rw [h]
  cases s.registeredRcs key with
  | none => simp
  | some rc => simp

/-- Accepting a connection keeps the registry faithful exactly if its key is free. -/
theorem Faithful.accept_iff {s : Registry} (hI : s.Inv) (hP : s.Faithful) {conn : Conn}
    (hrc : conn.rc = s.nextRc) (free next unnamed : Nat) (clashes : List Nat) :
    ({ s with freeInQpKey := free, nextRc := next, unnamed, clashes }.accept conn).Faithful ↔
      s.registeredRcs conn.key = none ∧ clashes = [] := by
  have hother : ∀ c ∈ s.live, c.rc ≠ conn.rc := fun c hc => hrc ▸ (hI.number c hc).ne
  constructor
  · intro h
    refine ⟨?_, h.unused⟩
    rw [hP.free_iff]
    intro c hc hkey
    -- The connection that was there is still live, but the map has the new RC.
    have hreg := (h.registered conn.key c.rc).mpr ⟨c, List.mem_append_left _ hc, hkey, rfl⟩
    change Function.update s.registeredRcs conn.key (some conn.rc) conn.key = some c.rc at hreg
    rw [Function.update_self, Option.some.injEq] at hreg
    exact hother c hc hreg.symm
  · rintro ⟨hfree, hclash⟩
    have hapart := (hP.free_iff conn.key).mp hfree
    refine ⟨fun key rc => ?_, fun c hc => ?_, hclash⟩
    · change Function.update s.registeredRcs conn.key (some conn.rc) key = some rc ↔
        ∃ c ∈ s.live ++ [conn], c.key = key ∧ c.rc = rc
      simp only [List.mem_append, List.mem_singleton, or_and_right, exists_or, exists_eq_left]
      by_cases hkey : key = conn.key
      · subst hkey
        rw [Function.update_self, Option.some.injEq]
        constructor
        · exact fun h => .inr ⟨rfl, h⟩
        · rintro (⟨c, hc, hckey, -⟩ | ⟨-, h⟩)
          · exact absurd hckey (hapart c hc)
          · exact h
      · rw [Function.update_of_ne hkey, hP.registered]
        exact ⟨.inl, fun h => h.resolve_right fun h => hkey h.1.symm⟩
    · change without (Function.update s.qps conn.rc true) (s.registeredRcs conn.key) c.rc = true ∧
        without (Function.update s.cms conn.rc true) (s.registeredRcs conn.key) c.rc = true
      rw [hfree, without_none, without_none]
      rcases List.mem_append.mp hc with hc | hc
      · rw [Function.update_of_ne (hother c hc), Function.update_of_ne (hother c hc)]
        exact hP.existing c hc
      · rw [List.mem_singleton.mp hc, Function.update_self, Function.update_self]
        exact ⟨rfl, rfl⟩

/-- A disconnect request takes its own connection out and no other. -/
theorem Faithful.disconnect {s : Registry} (hI : s.Inv) (hP : s.Faithful) {rc key : Nat}
    (hctx : s.context rc = some key) :
    ({ s with
      context := Function.update s.context rc none
      live := s.live.filter fun c => c.rc ≠ rc }.deregRc key).Faithful := by
  obtain ⟨c₀, hc₀, rfl, rfl⟩ := hI.context rc key hctx
  have hreg : s.registeredRcs c₀.key = some c₀.rc := (hP.registered _ _).mpr ⟨c₀, hc₀, rfl, rfl⟩
  have hmem : ∀ c, c ∈ s.live.filter (fun c => c.rc ≠ c₀.rc) ↔ c ∈ s.live ∧ c.rc ≠ c₀.rc := by
    simp
  refine ⟨fun key rc => ?_, fun c hc => ?_, hP.unused⟩
  · change Function.update s.registeredRcs c₀.key none key = some rc ↔
      ∃ c ∈ s.live.filter (fun c => c.rc ≠ c₀.rc), c.key = key ∧ c.rc = rc
    simp only [hmem]
    by_cases hkey : key = c₀.key
    · subst hkey
      rw [Function.update_self]
      refine ⟨fun h => (by cases h), ?_⟩
      rintro ⟨c, ⟨hc, hne⟩, hckey, -⟩
      have := (hP.registered c₀.key c.rc).mpr ⟨c, hc, hckey, rfl⟩
      rw [hreg, Option.some.injEq] at this
      exact absurd this.symm hne
    · rw [Function.update_of_ne hkey, hP.registered]
      constructor
      · rintro ⟨c, hc, hckey, hcrc⟩
        refine ⟨c, ⟨hc, fun hrc => hkey ?_⟩, hckey, hcrc⟩
        rw [← hckey, hI.eq_of_rc hc hc₀ hrc]
      · rintro ⟨c, ⟨hc, -⟩, h⟩
        exact ⟨c, hc, h⟩
  · obtain ⟨hc, hne⟩ := (hmem c).mp hc
    change without s.qps (s.registeredRcs c₀.key) c.rc = true ∧ s.cms c.rc = true
    rw [hreg, without_of_ne hne]
    exact hP.existing c hc

/-- One step from a faithful registry leads to a faithful one exactly if the
    request is apart from the live connections. -/
theorem Faithful.step_iff {s s' : Registry} {e : Event} (hI : s.Inv) (hP : s.Faithful)
    (h : Stepped s e s') : s'.Faithful ↔ s.Apart e := by
  cases h with
  | @accepted qd key free ans hkey hrtr =>
    have hfst := getNextInQpKey_fst hkey
    rw [hI.counted] at hfst
    rw [Faithful.accept_iff hI hP rfl, clashes_eq_nil_iff hP.unused]
    by_cases hqd : qd = 0
    · simp only [hqd, if_true] at hfst
      subst hfst
      simp only [Apart, hqd, if_true, forall_const, and_self]
      rw [hP.free_iff, hI.counted_apart_iff]
    · simp only [hqd, if_false] at hfst
      subst hfst
      simp only [Apart, hqd, if_false, hrtr, false_imp_iff, and_true, forall_const]
      rw [hP.free_iff, hI.asked_apart_iff hqd]
  | @dropped qd key free ans hkey hrtr =>
    have hfst := getNextInQpKey_fst hkey
    rw [hI.counted] at hfst
    have hsame : ∀ clashes, Faithful
        { s with
          freeInQpKey := free
          nextRc := s.nextRc + 1
          unnamed := if qd = 0 then s.unnamed + 1 else s.unnamed
          clashes } ↔ clashes = [] :=
      fun clashes => ⟨fun h => h.unused, fun h => ⟨hP.registered, hP.existing, h⟩⟩
    rw [hsame, clashes_eq_nil_iff hP.unused]
    by_cases hqd : qd = 0
    · simp only [hqd, if_true] at hfst
      subst hfst
      simp only [Apart, hqd, if_true, forall_const]
      rw [hP.free_iff, hI.counted_apart_iff]
    · simp [Apart, hqd, hrtr]
  | disconnected hcm hctx =>
    simp only [Apart, iff_true]
    exact Faithful.disconnect hI hP hctx

/-- For every sequence of connection and disconnect requests: the registry holds
    exactly the live connections in every state reached, and no counted key is in
    use, exactly if every request is apart from the connections live at that time. -/
theorem faithful_iff (es : List Event) :
    Run.Always step Faithful create es ↔ Run.Guarded step Apart create es :=
  Run.always_iff_guarded (I := Inv) (fun _ _ _ hI h _ => hI.step (step_stepped h))
    (fun _ _ _ hI hP h => hP.step_iff hI (step_stepped h)) inv_create faithful_create es

/-- All calls succeed. -/
def allOk : BringAnswers := ⟨true, true, true, true, true, true⟩

/-- Two clients that use the `vid` 1 one after the other: the first connection is
    live, but its queue pair and its `cm_id` are gone. -/
theorem second_vid_destroys_live :
    ∃ s, Run.exec step create [.req 1 allOk, .req 1 allOk] = some s ∧
      (∃ c ∈ s.live, c.rc = 0 ∧ s.qps c.rc = false ∧ s.cms c.rc = false) ∧
      s.registeredRcs 1 = some 1 ∧ ¬ s.Faithful := by
  refine ⟨_, rfl, ⟨⟨0, 1, 0, 1⟩, ?_, rfl, ?_, ?_⟩, ?_, fun h => ?_⟩
  · exact List.mem_append_left _ (List.mem_singleton.mpr rfl)
  · rfl
  · rfl
  · rfl
  · have := (h.existing ⟨0, 1, 0, 1⟩ (List.mem_append_left _ (List.mem_singleton.mpr rfl))).1
    exact absurd this (by decide)

/-- A counted key meets a `vid` as well: the second request without one is given the
    key of the client that asked for 1. -/
example : ∃ s, Run.exec step create [.req 1 allOk, .req 0 allOk, .req 0 allOk] = some s ∧
    s.clashes = [1] :=
  ⟨_, rfl, rfl⟩

end Registry
