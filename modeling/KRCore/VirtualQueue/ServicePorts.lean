-- SUMMARY: Which controllers bound ports and connecting ports select, and when these are the ones that listen on the port.
import KRCore.VirtualQueue.Ioctl

/-!
# Ports and controllers

`Client::create` makes one controller for each service and NIC, service by service, so
that controller `c` of a node with `n` NICs listens on service `c / n`. `get_bind_ctrl`
takes controller `2 * port`, which is right for two NICs. Connect takes controller
`port`, which is right for one.
-/

namespace Ioctl

/-- The service that a controller listens on, and its NIC. -/
structure RCtrlId where
  id : Nat
  nic : Nat
deriving DecidableEq, Repr

/-- `RCTRL` after `Client::create`. -/
def rctrls (nics : Nat) : List RCtrlId :=
  (List.range Node.maxServiceNum).flatMap fun i => (List.range nics).map fun j => ⟨i, j⟩

/-- The service that controller number `c` listens on. -/
def listensOn (nics c : Nat) : Option Nat := (rctrls nics)[c]?.map RCtrlId.id

/-- `Binds` accepts the port: on a queue that is not bound it replies ok. -/
def BindsOk (port : BitVec 32) : Prop :=
  ∃ s arg r, binds s arg port = some r ∧ r.status = .ok ∧
    r.state.vq.bindPort = some (toUsize port)

/-- Bound ports and a connecting port meet. `sid` is the service that the Connect is sent to. -/
structure PortsMeet (cfg : Config) (nics port port' sid : Nat) : Prop where
  listens : listensOn nics (cfg.bindCtrl port) = some port
  apart : port ≠ port' → cfg.bindCtrl port ≠ cfg.bindCtrl port'
  connects : listensOn nics (cfg.machine.getGlobalRctrl sid) = some sid

/-! ## The table of the controllers -/

/-- The nested loop of `Client::create`, for any number of services. -/
theorem flatMap_range_eq (services : Nat) {nics : Nat} (hnics : 0 < nics) :
    ((List.range services).flatMap fun i => (List.range nics).map fun j => (⟨i, j⟩ : RCtrlId)) =
      (List.range (services * nics)).map fun c => ⟨c / nics, c % nics⟩ := by
  induction services with
  | zero => simp
  | succ services ih =>
    have hrow : ∀ j ∈ List.range nics, (⟨services, j⟩ : RCtrlId) =
        ⟨(services * nics + j) / nics, (services * nics + j) % nics⟩ := by
      intro j hj
      have hlt := List.mem_range.mp hj
      rw [Nat.mul_comm services, Nat.mul_add_div hnics, Nat.div_eq_of_lt hlt, Nat.add_zero,
        Nat.mul_add_mod, Nat.mod_eq_of_lt hlt]
    rw [List.range_succ, List.flatMap_append, ih, Nat.succ_mul, List.range_add, List.map_append,
      List.map_map, List.flatMap_singleton]
    exact congrArg _ (List.map_congr_left hrow)

theorem rctrls_eq {nics : Nat} (hnics : 0 < nics) :
    rctrls nics = (List.range (Node.maxServiceNum * nics)).map fun c => ⟨c / nics, c % nics⟩ :=
  flatMap_range_eq Node.maxServiceNum hnics

theorem rctrls_length {nics : Nat} (hnics : 0 < nics) :
    (rctrls nics).length = Node.maxServiceNum * nics := by
  rw [rctrls_eq hnics, List.length_map, List.length_range]

theorem listensOn_eq {nics : Nat} (hnics : 0 < nics) {c : Nat}
    (hc : c < Node.maxServiceNum * nics) : listensOn nics c = some (c / nics) := by
  rw [listensOn, rctrls_eq hnics, List.getElem?_map, List.getElem?_range hc]
  rfl

/-! ## The ports that are accepted -/

theorem bindsOk_iff {port : BitVec 32} : BindsOk port ↔ toUsize port ≤ Node.maxServiceNum := by
  constructor
  · rintro ⟨s, arg, r, hr, hok, -⟩
    simp only [binds, Option.bind_eq_bind, Option.bind_eq_some_iff] at hr
    obtain ⟨_, -, hr⟩ := hr
    split at hr
    · cases hr
      cases hok
    · split at hr
      · cases hr
        cases hok
      · rename_i hle
        exact Nat.le_of_not_lt hle
  · intro hle
    refine ⟨State.sample, 0, State.reply { State.sample with
      vq := { State.sample.vq with bindPort := some (toUsize port) } } .ok, ?_, rfl, rfl⟩
    have hadd : Word.checkedAdd 64 0 reqSz = some (0 + reqSz) :=
      Word.checkedAdd_eq_some.mpr ⟨by decide, rfl⟩
    have hfree : State.sample.vq.bindPort = none := rfl
    simp only [binds, hadd, hfree, Option.bind_eq_bind, Option.bind_some, Option.isSome_none,
      Bool.false_eq_true, if_false, if_neg (Nat.not_lt.mpr hle)]

/-- A negative port that is no multiple of 25 leads to a service that nobody has. -/
theorem servicePort_lt_iff {port : BitVec 32} :
    servicePort port < Node.maxServiceNum ↔ servicePort port = 0 ∨ 0 ≤ port.toInt := by
  unfold servicePort Node.maxServiceNum
  rcases Int.le_total 0 port.toInt with hpos | hneg
  · rw [Int.tmod_eq_emod_of_nonneg hpos]
    omega
  · obtain ⟨n, hn⟩ := Int.eq_ofNat_of_zero_le (Int.neg_nonneg.mpr hneg)
    have hport : port.toInt = -(n : Int) := by omega
    rw [hport, Int.neg_tmod, Int.tmod_eq_emod_of_nonneg (Int.natCast_nonneg n)]
    omega

/-! ## The controllers that are selected -/

section Select

variable {cfg : Config} {nics : Nat}

/-- `get_bind_ctrl` finds the controller that listens on the port with two NICs, as long as
    there is such a controller, and otherwise only for port 0. -/
theorem bind_listens_iff (hnics : 0 < nics)
    (hlen : cfg.machine.rctrlLen = Node.maxServiceNum * nics) {port : Nat}
    (hport : port ≤ Node.maxServiceNum) :
    listensOn nics (cfg.bindCtrl port) = some port ↔
      port = 0 ∨ (nics = 2 ∧ port < Node.maxServiceNum) := by
  have hpos : 0 < Node.maxServiceNum * nics := Nat.mul_pos (by decide) hnics
  rw [Config.bindCtrl, Machine.getGlobalRctrl, hlen, listensOn_eq hnics (Nat.mod_lt _ hpos),
    Option.some.injEq]
  simp only [Node.maxServiceNum] at hport ⊢
  by_cases hone : nics = 1
  · subst hone
    omega
  by_cases htwo : nics = 2
  · subst htwo
    omega
  · -- With three NICs or more there is no wrap, and the quotient stays below the port.
    have hsmall : port * 2 < 25 * nics := by omega
    have hle : port * 2 / nics ≤ port * 2 / 3 := Nat.div_le_div_left (by omega) (by decide)
    rw [Nat.mod_eq_of_lt hsmall]
    refine ⟨fun h => by omega, ?_⟩
    rintro (rfl | ⟨h, -⟩)
    · rw [Nat.zero_mul, Nat.zero_div]
    · exact absurd h htwo

/-- With one or two NICs the ports 0 and 25 share a controller. -/
theorem bind_apart_iff (hnics : 0 < nics)
    (hlen : cfg.machine.rctrlLen = Node.maxServiceNum * nics) {port port' : Nat}
    (hport : port ≤ Node.maxServiceNum) (hport' : port' ≤ Node.maxServiceNum)
    (hne : port ≠ port') :
    cfg.bindCtrl port ≠ cfg.bindCtrl port' ↔ ¬ (nics ≤ 2 ∧ min port port' = 0 ∧
      max port port' = Node.maxServiceNum) := by
  simp only [Config.bindCtrl, Machine.getGlobalRctrl, hlen, Node.maxServiceNum] at *
  by_cases hone : nics = 1
  · subst hone
    omega
  by_cases htwo : nics = 2
  · subst htwo
    omega
  · rw [Nat.mod_eq_of_lt (by omega), Nat.mod_eq_of_lt (by omega)]
    omega

/-- The controller of a Connect listens on the service that the Connect is sent to with one
    NIC, as long as there is such a controller, and otherwise only for service 0. -/
theorem connect_listens_iff (hnics : 0 < nics)
    (hlen : cfg.machine.rctrlLen = Node.maxServiceNum * nics) {sid : Nat} :
    listensOn nics (cfg.machine.getGlobalRctrl sid) = some sid ↔
      sid = 0 ∨ (nics = 1 ∧ sid < Node.maxServiceNum) := by
  have hpos : 0 < Node.maxServiceNum * nics := Nat.mul_pos (by decide) hnics
  rw [Machine.getGlobalRctrl, hlen, listensOn_eq hnics (Nat.mod_lt _ hpos), Option.some.injEq]
  constructor
  · intro h
    -- Neither the modulus nor the quotient may change the number.
    have hmod : sid % (Node.maxServiceNum * nics) = sid := by
      have := Nat.mod_le sid (Node.maxServiceNum * nics)
      have := Nat.div_le_self (sid % (Node.maxServiceNum * nics)) nics
      omega
    have hlt := Nat.mod_lt sid hpos
    rw [hmod] at h hlt
    rcases Nat.eq_zero_or_pos sid with hzero | hsid
    · exact .inl hzero
    · by_cases hone : nics = 1
      · subst hone
        exact .inr ⟨rfl, by rwa [Nat.mul_one] at hlt⟩
      · have := Nat.div_lt_self hsid (show 1 < nics by omega)
        omega
  · rintro (rfl | ⟨rfl, hlt⟩)
    · rw [Nat.zero_mod, Nat.zero_div]
    · rw [Nat.mul_one, Nat.mod_eq_of_lt hlt, Nat.div_one]

end Select

/-- For every number of NICs, any two ports that Binds accepts and every port that is passed to
    Connect: they meet if and only if the bound port is 0 or there are two NICs and it is below
    25, the two ports are not 0 and 25 on a node with at most two NICs, and the Connect goes to
    service 0 or there is one NIC and its port is not negative. -/
theorem ports_meet_iff (cfg : Config) (nics : Nat) (hnics : 0 < nics)
    (hlen : cfg.machine.rctrlLen = (rctrls nics).length) (p p' q : BitVec 32) (hp : BindsOk p)
    (hp' : BindsOk p') :
    PortsMeet cfg nics (toUsize p) (toUsize p') (servicePort q) ↔
      (toUsize p = 0 ∨ (nics = 2 ∧ toUsize p < Node.maxServiceNum)) ∧
        ¬ (nics ≤ 2 ∧ min (toUsize p) (toUsize p') = 0 ∧
          max (toUsize p) (toUsize p') = Node.maxServiceNum) ∧
        (servicePort q = 0 ∨ (nics = 1 ∧ 0 ≤ q.toInt)) := by
  rw [rctrls_length hnics] at hlen
  rw [bindsOk_iff] at hp hp'
  have hconn : servicePort q = 0 ∨ (nics = 1 ∧ 0 ≤ q.toInt) ↔
      servicePort q = 0 ∨ (nics = 1 ∧ servicePort q < Node.maxServiceNum) := by
    rw [servicePort_lt_iff]
    tauto
  rw [hconn, ← bind_listens_iff hnics hlen hp, ← connect_listens_iff hnics hlen]
  have hapart : (toUsize p ≠ toUsize p' → cfg.bindCtrl (toUsize p) ≠ cfg.bindCtrl (toUsize p')) ↔
      ¬ (nics ≤ 2 ∧ min (toUsize p) (toUsize p') = 0 ∧
        max (toUsize p) (toUsize p') = Node.maxServiceNum) := by
    by_cases heq : toUsize p = toUsize p'
    · rw [heq]
      simp only [ne_eq, not_true_eq_false, false_implies, Nat.min_self, Nat.max_self, true_iff]
      rintro ⟨-, hzero, hmax⟩
      rw [hzero] at hmax
      cases hmax
    · rw [← bind_apart_iff hnics hlen hp hp' heq]
      exact ⟨fun h => h heq, fun h _ => h⟩
  rw [← hapart]
  exact ⟨fun h => ⟨h.listens, h.apart, h.connects⟩, fun ⟨hl, ha, hc⟩ => ⟨hl, ha, hc⟩⟩

/-- A node with `nics + 1` NICs. -/
def Config.withNics (nics : Nat) : Config :=
  { Config.sample .plain with
    machine :=
      { Machine.sample with
        rctrlLen := (rctrls (nics + 1)).length
        rctrl_pos := Nat.lt_of_lt_of_eq (Nat.mul_pos (Nat.succ_pos 24) (Nat.succ_pos nics))
          (rctrls_length (Nat.succ_pos nics)).symm } }

/-- On a node with two NICs the bound ports 3 and 4 meet a Connect to port 50. -/
theorem ports_meet_two_nics :
    BindsOk 3 ∧ BindsOk 4 ∧ PortsMeet (.withNics 1) 2 (toUsize 3) (toUsize 4) (servicePort 50) := by
  have h3 : BindsOk 3 := bindsOk_iff.mpr (by decide)
  have h4 : BindsOk 4 := bindsOk_iff.mpr (by decide)
  exact ⟨h3, h4, (ports_meet_iff (.withNics 1) 2 (by decide) rfl 3 4 50 h3 h4).mpr (by decide)⟩

/-- With one NIC the bound port 1 gets the controller that listens on service 2. With two NICs
    the bound ports 0 and 25 share a controller, and a Connect to port 1 uses a controller
    of service 0. -/
theorem ports_do_not_meet :
    BindsOk 1 ∧ listensOn 1 (Config.bindCtrl (.withNics 0) 1) = some 2 ∧
      BindsOk 0 ∧ BindsOk 25 ∧
      Config.bindCtrl (.withNics 1) 0 = Config.bindCtrl (.withNics 1) 25 ∧
      listensOn 2 ((Config.withNics 1).machine.getGlobalRctrl (servicePort 1)) = some 0 :=
  ⟨bindsOk_iff.mpr (by decide), by decide, bindsOk_iff.mpr (by decide),
    bindsOk_iff.mpr (by decide), by decide, by decide⟩

end Ioctl
