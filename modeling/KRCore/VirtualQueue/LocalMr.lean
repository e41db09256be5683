-- SUMMARY: The memory behind the local MR descriptor of a queue, over every sequence of calls.
import KRCore.Rpc.Protocol
import KRCore.VirtualQueue.FailedConnect
import KRCore.VirtualQueue.UserBounds

/-!
# The memory behind the local descriptor

A queue is opened with a descriptor of 4 MiB at the address of the first region of
`GLOBAL_MEM`, which has 4096 bytes and holds a metadata image. Every Connect that
gets past the parsing of its address replaces it by one for the buffer of the
controller, which has 4 MiB. `local_mr_backed_iff` says for every sequence of calls
when the descriptor names memory of such a buffer only.
-/

namespace Ioctl

/-! ## The memory of the module -/

/-- The buffer `registered_test_mr` of controller `c`. -/
def Config.dataBuffer (cfg : Config) (c : Nat) : MemRange :=
  RecvUser.rctrl.buffer (cfg.machine.testMr c).addr.toNat

/-- The regions of `GLOBAL_MEM`, and the key of the first context. They have been allocated
    beside the buffers of the controllers. -/
structure MemoryMap (cfg : Config) where
  globalMem : Fin 12 → BitVec 64
  lkey : BitVec 32
  data_image_apart : ∀ c i, c < cfg.machine.rctrlLen →
    (cfg.dataBuffer c).Apart ⟨(globalMem i).toNat, globalMemSz⟩

namespace MemoryMap

variable {cfg : Config} (map : MemoryMap cfg)

/-- The region with metadata image `i`. -/
def image (i : Fin 12) : MemRange := ⟨(map.globalMem i).toNat, globalMemSz⟩

/-- The descriptor of `LocalCache::default`. -/
def defaultMr : TempMR where
  addr := map.globalMem ⟨0, Nat.zero_lt_succ 11⟩
  capacity := BitVec.ofNat 32 maxKmallocSz
  rkey := map.lkey

/-- The descriptor names memory of one data buffer, and none that holds an image. -/
structure Backed (mr : TempMR) : Prop where
  inside : ∃ c < cfg.machine.rctrlLen, mr.range.Inside (cfg.dataBuffer c)
  apart : ∀ i, mr.range.Apart (map.image i)

/-- The descriptor of a Connect is backed. -/
theorem backed_localMr {c : Nat} (hc : c < cfg.machine.rctrlLen) :
    map.Backed (cfg.machine.localMr c) := by
  have hinside : (cfg.machine.localMr c).range.Inside (cfg.dataBuffer c) :=
    MemRange.inside_iff.mpr (.inr ⟨Nat.le_refl _, Nat.le_refl _⟩)
  exact ⟨⟨c, hc, hinside⟩, fun i => hinside.apart (map.data_image_apart c i hc)⟩

/-- The descriptor of a new queue begins with the first image. -/
theorem not_backed_defaultMr : ¬ map.Backed map.defaultMr := by
  intro h
  have happart := MemRange.apart_iff.mp (h.apart ⟨0, Nat.zero_lt_succ 11⟩)
  simp only [image, defaultMr, TempMR.range, globalMemSz] at happart
  have hcap : (BitVec.ofNat 32 maxKmallocSz).toNat = 4194304 := by decide
  omega

end MemoryMap

/-! ## Runs -/

/-- A Connect whose address is parsed. -/
def Event.connects (cfg : Config) : Event → Bool
  | .ioctl _ _ (.connect addr _ _ _ _) =>
    addr.text.any fun text => text.length = 39 && (cfg.machine.parseGid text).isSome
  | _ => false

/-- The queue before and after the first Connect that gets so far. Before it there is
    no RC and no migration thread. -/
def Phase (cfg : Config) (mr : TempMR) (s : State) : Bool → Prop
  | false => s.vq.localCache.localMr = mr ∧ s.vq.virtualQueue = none ∧ s.threads = []
  | true => ∃ c < cfg.machine.rctrlLen, s.vq.localCache.localMr = cfg.machine.localMr c

theorem Phase.congr {cfg : Config} {mr : TempMR} {s s' : State} {b : Bool} (h : Phase cfg mr s b)
    (hmr : s'.vq.localCache.localMr = s.vq.localCache.localMr)
    (hrc : s'.vq.virtualQueue = s.vq.virtualQueue) (hthreads : s'.threads = s.threads) :
    Phase cfg mr s' b := by
  cases b with
  | false => exact ⟨hmr.trans h.1, hrc.trans h.2.1, hthreads.trans h.2.2⟩
  | true =>
    obtain ⟨c, hc, heq⟩ := h
    exact ⟨c, hc, hmr.trans heq⟩

/-- An RC comes from a Connect or its migration thread. -/
theorem Phase.of_rc {cfg : Config} {mr : TempMR} {s : State} {b : Bool} (h : Phase cfg mr s b)
    (hrc : s.vq.virtualQueue.isSome = true) : b = true := by
  cases b with
  | false =>
    rw [h.2.1] at hrc
    cases hrc
  | true => rfl

/-- Other events leave the phase as it is. -/
theorem Phase.keep {cfg : Config} {mr : TempMR} {s : State} {e : Event} {b : Bool}
    (h : Phase cfg mr s b) (hnot : e.connects cfg = false) :
    Phase cfg mr s (b || e.connects cfg) := by
  rwa [hnot, Bool.or_false]

theorem connects_of_text {cfg : Config} {arg replyBuf : BitVec 64} {addr : UserAddr}
    {port vid : BitVec 32} {scan : MetaScan} {ans : ConnectAnswers} {a : Address}
    (htext : addr.text = some a.text) :
    Event.connects cfg (.ioctl arg replyBuf (.connect addr port vid scan ans)) =
      (cfg.machine.parseGid a.text).isSome := by
  simp [Event.connects, htext, a.size]

/-- A text that is no address does not count. -/
theorem not_connects_of_text {cfg : Config} {arg replyBuf : BitVec 64} {addr : UserAddr}
    {port vid : BitVec 32} {scan : MetaScan} {ans : ConnectAnswers}
    (h : ∀ a : Address, addr.text ≠ some a.text) :
    Event.connects cfg (.ioctl arg replyBuf (.connect addr port vid scan ans)) = false := by
  cases htext : addr.text with
  | none => simp [Event.connects, htext]
  | some text =>
    have hlen : text.length ≠ 39 := fun hlen => h ⟨text, hlen⟩ htext
    simp [Event.connects, htext, hlen]

/-- Without a thread, none takes a step. -/
theorem Phase.thread {cfg : Config} {mr : TempMR} {s s' : State} {i : Nat} {rc : RcAnswer}
    {b : Bool} (h : Phase cfg mr s b) (hstep : step cfg s (.thread i rc) = some s')
    (hmr : s'.vq.localCache.localMr = s.vq.localCache.localMr) : Phase cfg mr s' b := by
  cases b with
  | false => simp [step, State.thread, h.2.2] at hstep
  | true =>
    obtain ⟨c, hc, heq⟩ := h
    exact ⟨c, hc, hmr.trans heq⟩

theorem Phase.connect {cfg : Config} {mr : TempMR} {s : State} {b : Bool} {a : Address}
    {port vid : Nat} {ans : ConnectAnswers} {vq' : VQ} {status : ReplyStatus}
    {pt : Option EndPoint} (h : Phase cfg mr s b)
    (himpl : VQ.connectImpl cfg.feat cfg.machine s.vq a port vid ans = some (vq', status, pt)) :
    Phase cfg mr
      { s with
        vq := vq'
        threads := s.threads ++
          startThread cfg (VQ.connectStart cfg.feat cfg.machine s.vq a port vid ans) }
      (b || (cfg.machine.parseGid a.text).isSome) := by
  cases connectImpl_selected himpl with
  | refused hrefused =>
    obtain ⟨-, hnone⟩ := connectImpl_refused hrefused himpl
    rcases hrefused with hrc | hgid
    · obtain rfl := h.of_rc hrc
      exact h.congr rfl rfl (by rw [hnone, List.append_nil])
    · rw [hgid, Option.isSome_none, Bool.or_false]
      exact h.congr rfl rfl (by rw [hnone, List.append_nil])
  | selected _ hgid _ _ hmr _ _ _ =>
    rw [hgid, Bool.or_true]
    exact ⟨_, Nat.mod_lt _ cfg.machine.rctrl_pos, hmr⟩

theorem Phase.step {cfg : Config} {mr : TempMR} {s s' : State} {e : Event} {b : Bool}
    (h : Phase cfg mr s b) (hstep : step cfg s e = some s') :
    Phase cfg mr s' (b || e.connects cfg) := by
  cases step_stepped hstep with
  | @kept arg replyBuf call _ hcall hframe =>
    have hnot : Event.connects cfg (.ioctl arg replyBuf call) = false := by
      cases call <;> first | rfl | cases hcall
    exact (h.congr (by rw [hframe.vq]) (by rw [hframe.vq]) hframe.threads).keep hnot
  | refused hrefused =>
    rcases hrefused with hrc | htext
    · obtain rfl := h.of_rc hrc
      exact h
    · exact h.keep (not_connects_of_text htext)
  | connect htext himpl =>
    rw [connects_of_text htext]
    exact h.connect himpl
  | binds _ =>
    exact (h.congr rfl rfl rfl).keep rfl
  | notBound _ =>
    exact h.keep rfl
  | unBinds _ =>
    exact (h.congr rfl rfl rfl).keep rfl
  | thread _ =>
    exact (h.thread hstep rfl).keep rfl
  | stored _ _ =>
    exact (h.thread hstep rfl).keep rfl
  | others =>
    exact (h.congr rfl rfl rfl).keep rfl

/-- Along a run the phase says whether there has been such a Connect. -/
theorem Phase.exec {cfg : Config} {mr : TempMR} {s t : State} {es : List Event} {b : Bool}
    (h : Phase cfg mr s b) (hrun : Run.exec (Ioctl.step cfg) s es = some t) :
    Phase cfg mr t (b || es.any (Event.connects cfg)) := by
  induction es generalizing s b with
  | nil =>
    cases hrun
    rwa [List.any_nil, Bool.or_false]
  | cons e es ih =>
    obtain ⟨s', hstep, hrest⟩ := Run.exec_cons_eq_some.mp hrun
    have hphase := ih (h.step hstep) hrest
    rwa [Bool.or_assoc, ← List.any_cons] at hphase

/-- For every sequence of calls since the queue was opened: the local descriptor names memory
    of one data buffer and none of the metadata images if and only if there has been a
    Connect whose address was parsed. -/
theorem local_mr_backed_iff (cfg : Config) (map : MemoryMap cfg) (ctrls : Nat → Ctrl)
    (rpc : RpcRing) (es : List Event) (s : State)
    (hrun : Run.exec (step cfg) (State.opened map.defaultMr ctrls rpc) es = some s) :
    map.Backed s.vq.localCache.localMr ↔ ∃ e ∈ es, e.connects cfg = true := by
  have hopened : Phase cfg map.defaultMr (State.opened map.defaultMr ctrls rpc) false :=
    ⟨rfl, rfl, rfl⟩
  have hphase := hopened.exec hrun
  rw [Bool.false_or] at hphase
  rw [← List.any_eq_true]
  cases hany : es.any (Event.connects cfg) with
  | false =>
    rw [hany] at hphase
    rw [hphase.1]
    exact iff_of_false map.not_backed_defaultMr Bool.false_ne_true
  | true =>
    rw [hany] at hphase
    obtain ⟨c, hc, heq⟩ := hphase
    rw [heq]
    exact iff_of_true (map.backed_localMr hc) rfl

theorem sample_data_image_apart (i : Fin 12) :
    MemRange.Apart ⟨0, 4 * 1024 * 1024⟩
      ⟨(BitVec.ofNat 64 (0x400000 + i.val * globalMemSz)).toNat, globalMemSz⟩ := by
  revert i
  decide

/-- The regions lie behind the buffer of the controllers. -/
def MemoryMap.sample : MemoryMap (.sample .dct) where
  globalMem i := BitVec.ofNat 64 (0x400000 + i.val * globalMemSz)
  lkey := 0
  data_image_apart _ i _ := sample_data_image_apart i

/-- After a Connect the descriptor is backed. -/
theorem connected_queue_backed :
    ∃ s, Run.exec (step (.sample .dct))
        (State.opened MemoryMap.sample.defaultMr (fun _ => Ctrl.sample) RpcRing.sample)
        [.ioctl 0 0 (.sampleConnect 0 (.ok default))] = some s ∧
      MemoryMap.sample.Backed s.vq.localCache.localMr :=
  ⟨_, rfl, (local_mr_backed_iff (.sample .dct) MemoryMap.sample (fun _ => Ctrl.sample) RpcRing.sample
    _ _ rfl).mpr ⟨.ioctl 0 0 (.sampleConnect 0 (.ok default)), List.mem_singleton_self _, rfl⟩⟩

/-- A queue that has only been opened names the memory of the first metadata image. -/
theorem new_queue_names_image :
    ∃ s, Run.exec (step (.sample .dct))
        (State.opened MemoryMap.sample.defaultMr (fun _ => Ctrl.sample) RpcRing.sample) [] = some s ∧
      (MemoryMap.sample.image 0).Inside s.vq.localCache.localMr.range ∧
      ¬ MemoryMap.sample.Backed s.vq.localCache.localMr :=
  ⟨_, rfl, by decide, MemoryMap.sample.not_backed_defaultMr⟩

end Ioctl
