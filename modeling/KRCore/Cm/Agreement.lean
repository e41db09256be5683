-- SUMMARY: Connection managers refine the rendezvous of two ends, so connected identifiers agree about their connection in every run.
import KRCore.Base.Rendezvous
import KRCore.Cm.Fabric

/-!
# Agreement

A connection manager finds an identifier by the two numbers in a message and does not look at the
sender. Both identifiers of a connection still agree about it, because the managers are an
instance of `Rendezvous`: a REQ asks, a REP answers, and an RTU or a DREQ confirms.
-/

namespace IbCm

open Rendezvous (End Move Reachable)

/-- What a side says about itself in its REQ or REP. -/
structure Said where
  qpn : Nat
  psn : Nat
  data : List UInt8
deriving DecidableEq

/-- The states of an identifier that knows its peer, apart from `repRcvd`. -/
def State.linked : State → Bool
  | .established | .dreqSent | .dreqRcvd => true
  | _ => false

def ReqMsg.said (m : ReqMsg) : Said := ⟨m.localQpn, m.startingPsn, m.privateData⟩

def RepMsg.said (m : RepMsg) : Said := ⟨m.localQpn, m.startingPsn, m.privateData⟩

def CmId.Says (c : CmId) (mine : Said) : Prop := c.localQpn = mine.qpn ∧ c.rqPsn = mine.psn

def CmId.Hears (c : CmId) (theirs : Said) : Prop := c.remoteQpn = theirs.qpn ∧ c.sqPsn = theirs.psn

/-- What an identifier is for the rendezvous. One that was used for a connection shows it. -/
def CmId.IsEnd (asked : Prop) (c : CmId) : End Guid CommId Said → Prop
  | .unused => c.state.conn = false
  | .asked dst mine => c.state = .reqSent ∧ c.peer = dst ∧ c.Says mine
  | .offered src peer theirs =>
    c.state = .reqRcvd ∧ c.peer = src ∧ c.remoteId = peer ∧ c.Hears theirs
  | .answered src peer mine theirs =>
    c.state = .repSent ∧ c.peer = src ∧ c.remoteId = peer ∧ c.Says mine ∧ c.Hears theirs
  | .joined active other peer mine theirs =>
    (c.state.linked ∨ active = true ∧ c.state = .repRcvd) ∧
      c.peer = other ∧ c.remoteId = peer ∧ c.Says mine ∧ c.Hears theirs
  | .gone => c.state.conn = false ∧ (c.remoteId ≠ 0 ∨ asked)

def IsEnd (asked given : Prop) : Option CmId → End Guid CommId Said → Prop
  | some c, e => c.IsEnd asked e
  | none, e => e = .unused ∨ e = .gone ∧ given

/-- What a message is for the rendezvous. -/
def Msg.IsSent (sent : Set (Rendezvous.Msg Guid CommId Said)) (src dst : Guid) : Msg → Prop
  | .req m => m.localCaGuid = src ∧ m.localCommId ≠ 0 ∧ .ask src dst m.localCommId m.said ∈ sent
  | .rep m => m.localCaGuid = src ∧ .answer src dst m.localCommId m.remoteCommId m.said ∈ sent
  | .rtu l r _ => .confirm src dst l r ∈ sent
  | .dreq l r _ _ => .confirm src dst l r ∈ sent
  | _ => True

/-- The request or reply that a message of the rendezvous stands for. -/
def IsPacket (sent : List Packet) : Rendezvous.Msg Guid CommId Said → Prop
  | .ask src dst i p => i ≠ 0 ∧ ∃ m, ⟨src, dst, .req m⟩ ∈ sent ∧ m.localCommId = i ∧ m.said = p
  | .answer src dst i j p =>
    ∃ m, ⟨src, dst, .rep m⟩ ∈ sent ∧ m.localCommId = i ∧ m.remoteCommId = j ∧ m.said = p
  | .confirm .. => True

/-- What a handler is told about the other side is what its end has heard. -/
def Event.IsTold (abs : Rendezvous.Net Guid CommId Said) (n : Guid) (i : CommId) : Event → Prop
  | .reqReceived guid qpn psn data =>
    ∃ j, (abs.ends n i).Heard guid j ⟨qpn, psn, data⟩ ∧ .ask guid n j ⟨qpn, psn, data⟩ ∈ abs.sent
  | .repReceived guid qpn psn data =>
    ∃ j, (abs.ends n i).Heard guid j ⟨qpn, psn, data⟩ ∧ .answer guid n j i ⟨qpn, psn, data⟩ ∈ abs.sent
  | _ => True

/-- The managers as ends of a rendezvous. -/
structure Refines (net : Net) (abs : Rendezvous.Net Guid CommId Said) : Prop where
  given : net.GivenOk
  ends : ∀ n i, IsEnd (net.Asked n i) ((n, i) ∈ net.given) (net.ids n i) (abs.ends n i)
  sent : ∀ p ∈ net.sent, p.msg.IsSent abs.sent p.src p.dst
  packets : ∀ m ∈ abs.sent, IsPacket net.sent m
  told : ∀ x ∈ net.events, x.2.2.IsTold abs x.1 x.2.1

theorem refines_init : Refines .init .init where
  given _ _ h := absurd rfl h
  ends _ _ := .inl rfl
  sent _ h := nomatch h
  packets _ h := h.elim
  told _ h := nomatch h

/-! ## Ends -/

section Ends

variable {asked asked' given given' : Prop} {c c' : CmId} {o o' : Option CmId}
  {e : End Guid CommId Said}

theorem CmId.IsEnd.mono (h : c.IsEnd asked e) (hasked : asked → asked') : c.IsEnd asked' e := by
  cases e with
  | gone => exact ⟨h.1, h.2.imp_right hasked⟩
  | _ => exact h

theorem CmId.isEnd_core : c.core.IsEnd asked e ↔ c.IsEnd asked e := by
  cases e <;> exact Iff.rfl

/-- Timewait infos do not matter. -/
theorem IsEnd.congr (h : IsEnd asked given o e) (hcore : o'.map CmId.core = o.map CmId.core)
    (hasked : asked → asked') (hgiven : given → given') : IsEnd asked' given' o' e := by
  match o, o', hcore with
  | none, none, _ => exact h.imp_right (.imp_right hgiven)
  | some c, some c', hcore =>
    have hc : c.core.IsEnd asked e := CmId.isEnd_core.mpr h
    rw [← Option.some.inj hcore] at hc
    exact (CmId.isEnd_core.mp hc).mono hasked

/-! The end of an identifier, by its state. -/

theorem CmId.IsEnd.of_not_conn (h : c.IsEnd asked e) (hstate : c.state.conn = false) :
    e = .unused ∨ e = .gone ∧ (c.remoteId ≠ 0 ∨ asked) := by
  cases e with
  | unused => exact .inl rfl
  | gone => exact .inr ⟨rfl, h.2⟩
  | joined =>
    obtain ⟨hlinked | ⟨-, hrep⟩, -⟩ := h
    · generalize c.state = state at hstate hlinked
      cases state <;> cases hstate <;> cases hlinked
    · rw [hrep] at hstate
      cases hstate
  | _ =>
    rw [h.1] at hstate
    cases hstate

theorem CmId.IsEnd.of_reqSent (h : c.IsEnd asked e) (hstate : c.state = .reqSent) :
    ∃ mine, e = .asked c.peer mine ∧ c.Says mine := by
  cases e <;> simp_all [IsEnd, State.conn, State.linked]

theorem CmId.IsEnd.of_reqRcvd (h : c.IsEnd asked e) (hstate : c.state = .reqRcvd) :
    ∃ theirs, e = .offered c.peer c.remoteId theirs ∧ c.Hears theirs := by
  cases e <;> simp_all [IsEnd, State.conn, State.linked]

theorem CmId.IsEnd.of_repSent (h : c.IsEnd asked e) (hstate : c.state = .repSent) :
    ∃ mine theirs, e = .answered c.peer c.remoteId mine theirs ∧ c.Says mine ∧ c.Hears theirs := by
  cases e <;> simp_all [IsEnd, State.conn, State.linked]

theorem CmId.IsEnd.of_repRcvd (h : c.IsEnd asked e) (hstate : c.state = .repRcvd) :
    ∃ mine theirs, e = .joined true c.peer c.remoteId mine theirs ∧ c.Says mine ∧ c.Hears theirs := by
  cases e <;> simp_all [IsEnd, State.conn, State.linked]

theorem CmId.IsEnd.of_linked (h : c.IsEnd asked e) (hstate : c.state.linked) :
    ∃ active mine theirs, e = .joined active c.peer c.remoteId mine theirs ∧ c.Says mine ∧
      c.Hears theirs := by
  cases e with
  | joined active other peer mine theirs =>
    obtain ⟨-, rfl, rfl, hsays, hhears⟩ := h
    exact ⟨active, mine, theirs, rfl, hsays, hhears⟩
  | unused | gone =>
    have hconn : c.state.conn = false := by first | exact h | exact h.1
    generalize c.state = state at hstate hconn
    cases state <;> cases hstate <;> cases hconn
  | _ =>
    rw [h.1] at hstate
    cases hstate

end Ends

/-! ## Steps -/

theorem Msg.IsSent.mono {sent sent' : Set (Rendezvous.Msg Guid CommId Said)} {src dst : Guid} {m : Msg}
    (h : m.IsSent sent src dst) (hsub : sent ⊆ sent') : m.IsSent sent' src dst := by
  cases m with
  | req m => exact ⟨h.1, h.2.1, hsub h.2.2⟩
  | rep m => exact ⟨h.1, hsub h.2⟩
  | rtu | dreq => exact hsub h
  | _ => trivial

theorem Msg.isSent_of_not_conn {sent : Set (Rendezvous.Msg Guid CommId Said)} {src dst : Guid} {m : Msg}
    (h : m.conn = false) : m.IsSent sent src dst := by
  cases m with
  | req | rep | rtu | dreq => cases h
  | _ => trivial

section Steps

variable {net net' : Net} {abs abs' : Rendezvous.Net Guid CommId Said} {me : Guid}
  {new : Option CommId} {id : CommId} {out : List (Guid × Msg)} {told : List Event}

theorem Net.Stepped.asked (hs : net.Stepped net' me new id out told) {n : Guid} {i : CommId}
    (h : net.Asked n i) : net'.Asked n i := by
  obtain ⟨p, hmem, hp⟩ := h
  exact ⟨p, hs.sent ▸ List.mem_append_left _ hmem, hp⟩

theorem Net.Stepped.mem_given (hs : net.Stepped net' me new id out told) {x : Guid × CommId}
    (h : x ∈ net.given) : x ∈ net'.given := hs.given ▸ List.mem_append_left _ h

theorem Net.Stepped.isPacket (hs : net.Stepped net' me new id out told)
    {m : Rendezvous.Msg Guid CommId Said} (h : IsPacket net.sent m) : IsPacket net'.sent m := by
  have hmem : ∀ {p}, p ∈ net.sent → p ∈ net'.sent := fun hp => hs.sent ▸ List.mem_append_left _ hp
  cases m with
  | ask => exact ⟨h.1, h.2.imp fun _ => .imp_left hmem⟩
  | answer => exact h.imp fun _ => .imp_left hmem
  | confirm => trivial

theorem Event.IsTold.mono {n : Guid} {i : CommId} {ev : Event} (h : ev.IsTold abs n i)
    (hheard : ∀ {other peer theirs}, (abs.ends n i).Heard other peer theirs →
      (abs'.ends n i).Heard other peer theirs) (hsub : abs.sent ⊆ abs'.sent) : ev.IsTold abs' n i := by
  cases ev with
  | reqReceived | repReceived => exact h.imp fun _ => .imp hheard fun hm => hsub hm
  | _ => trivial

theorem Event.isTold_of_closing {ev : Event} (h : ev.closing) : ev.IsTold abs me id := by
  cases ev <;> trivial

theorem Event.isTold_of_sidr {ev : Event} (h : ev.sidr) : ev.IsTold abs me id := by
  cases ev <;> trivial

theorem Refines.isEnd (h : Refines net abs) {n : Guid} {i : CommId} {c : CmId}
    (hc : net.ids n i = some c) : c.IsEnd (net.Asked n i) (abs.ends n i) := by
  have hend := h.ends n i
  rw [hc] at hend
  exact hend

/-- A step that the ends follow. -/
theorem Refines.step (h : Refines net abs) (hs : net.Stepped net' me new id out told)
    (hends : ∀ n i, (n, i) ≠ (me, id) → abs'.ends n i = abs.ends n i)
    (hheard : ∀ {other peer theirs}, (abs.ends me id).Heard other peer theirs →
      (abs'.ends me id).Heard other peer theirs) (hsub : abs.sent ⊆ abs'.sent)
    (hend : IsEnd (net'.Asked me id) ((me, id) ∈ net'.given) (net'.ids me id) (abs'.ends me id))
    (hout : ∀ x ∈ out, x.2.IsSent abs'.sent me x.1)
    (hpackets : ∀ m ∈ abs'.sent, m ∈ abs.sent ∨ IsPacket net'.sent m)
    (htold : ∀ ev ∈ told, ev.IsTold abs' me id) : Refines net' abs' where
  given := hs.givenOk h.given
  ends n i := by
    by_cases heq : (n, i) = (me, id)
    · cases heq
      exact hend
    · rw [hends n i heq]
      exact (h.ends n i).congr (hs.ids n i heq) hs.asked hs.mem_given
  sent p hp := by
    rw [hs.sent, List.mem_append] at hp
    rcases hp with hp | hp
    · exact (h.sent p hp).mono hsub
    · obtain ⟨x, hx, rfl⟩ := List.mem_map.mp hp
      exact hout x hx
  packets m hm := (hpackets m hm).elim (fun hm => hs.isPacket (h.packets m hm)) fun hm => hm
  told x hx := by
    rw [hs.events, List.mem_append] at hx
    rcases hx with hx | hx
    · obtain ⟨n, i, e⟩ := x
      by_cases heq : (n, i) = (me, id)
      · cases heq
        exact Event.IsTold.mono (h.told _ hx) hheard hsub
      · refine Event.IsTold.mono (h.told _ hx) (fun hold => ?_) hsub
        rw [hends n i heq]
        exact hold
    · obtain ⟨e, he, rfl⟩ := List.mem_map.mp hx
      exact htold e he

/-- A step that the ends do not see. -/
theorem Refines.skip (h : Refines net abs) (hs : net.Stepped net' me new id out told)
    (hend : IsEnd (net'.Asked me id) ((me, id) ∈ net'.given) (net'.ids me id) (abs.ends me id))
    (hout : ∀ x ∈ out, x.2.conn = false) (htold : ∀ ev ∈ told, ev.IsTold abs me id) :
    Refines net' abs :=
  h.step hs (fun _ _ _ => rfl) (fun h => h) subset_rfl hend (fun x hx => Msg.isSent_of_not_conn (hout x hx))
    (fun _ => .inl) htold

/-- An end changes and says nothing. -/
theorem Refines.set {e : End Guid CommId Said} (h : Refines net abs) (hm : Move abs (abs.set me id e))
    (hs : net.Stepped net' me new id out told)
    (hend : IsEnd (net'.Asked me id) ((me, id) ∈ net'.given) (net'.ids me id) e)
    (hout : ∀ x ∈ out, x.2.conn = false) (htold : ∀ ev ∈ told, ev.IsTold (abs.set me id e) me id) : Refines net' (abs.set me id e) := by
  rw [← abs.set_ends_self me id e] at hend
  exact h.step hs (fun _ _ => abs.set_ends_of_ne e) hm.heard subset_rfl hend
    (fun x hx => Msg.isSent_of_not_conn (hout x hx)) (fun _ => .inl) htold

/-- An end changes and speaks. -/
theorem Refines.setSend {e : End Guid CommId Said} {m : Rendezvous.Msg Guid CommId Said}
    (h : Refines net abs) (hm : Move abs ((abs.set me id e).send m))
    (hs : net.Stepped net' me new id out [])
    (hend : IsEnd (net'.Asked me id) ((me, id) ∈ net'.given) (net'.ids me id) e)
    (hout : ∀ x ∈ out, x.2.IsSent (insert m abs.sent) me x.1) (hpacket : IsPacket net'.sent m) :
    Refines net' ((abs.set me id e).send m) := by
  rw [← abs.set_ends_self me id e] at hend
  refine h.step hs (fun _ _ => abs.set_ends_of_ne e) hm.heard (Set.subset_insert ..) hend hout ?_ nofun
  rintro m' (rfl | hmem)
  · exact .inr hpacket
  · exact .inl hmem

/-- An end confirms. -/
theorem Refines.confirm (h : Refines net abs) (hs : net.Stepped net' me new id out []) {peer : Guid}
    {r : CommId}
    (hend : IsEnd (net'.Asked me id) ((me, id) ∈ net'.given) (net'.ids me id) (abs.ends me id))
    (hout : ∀ x ∈ out, x.2.IsSent (insert (.confirm me peer id r) abs.sent) me x.1) :
    Refines net' (abs.send (.confirm me peer id r)) := by
  refine h.step hs (fun _ _ _ => rfl) (fun h => h) (Set.subset_insert ..) hend hout ?_ nofun
  rintro m' (rfl | hmem)
  · exact .inr trivial
  · exact .inl hmem

/-- A new identifier was not used. -/
theorem Refines.fresh (h : Refines net abs) (hs : net.Stepped net' me new id out told) (hnew : id ∈ new) :
    abs.ends me id = .unused := by
  have hgiven := (hs.fresh id hnew).2
  have hnone : net.ids me id = none := not_not.mp fun hne => hgiven (h.given me id hne).2
  have hend := h.ends me id
  rw [hnone] at hend
  exact hend.resolve_right fun hgone => hgiven hgone.2

theorem Refines.asked (h : Refines net abs) {src dst : Guid} {i : CommId} {p : Said}
    (hm : .ask src dst i p ∈ abs.sent) : net.Asked src i := by
  obtain ⟨-, m, hmem, hid, -⟩ := h.packets _ hm
  exact ⟨_, hmem, rfl, decide_eq_true hid⟩

/-- A connection that ends leaves its traces. -/
theorem Refines.used (h : Refines net abs) (hreach : Reachable abs) {c : CmId}
    (hc : net.ids me id = some c) (hstate : c.state.conn) : c.remoteId ≠ 0 ∨ net.Asked me id := by
  have hend := h.isEnd hc
  have hinv := hreach.inv.ends me id
  generalize abs.ends me id = e at hend hinv
  match e, hend, hinv with
  | .unused, hend, _ => exact absurd (hend.symm.trans hstate) Bool.noConfusion
  | .asked .., _, hinv => exact .inr (h.asked hinv.1)
  | .offered .., hend, hinv => exact .inl (hend.2.2.1 ▸ (h.packets _ hinv.1).1)
  | .answered .., hend, hinv => exact .inl (hend.2.2.1 ▸ (h.packets _ hinv.1).1)
  | .joined true .., _, hinv => exact .inr (h.asked hinv.1)
  | .joined false .., hend, hinv => exact .inl (hend.2.2.1 ▸ (h.packets _ hinv.1).1)
  | .gone, hend, _ => exact hend.2

/-- An identifier that keeps what it knows stays joined. -/
theorem Refines.staysJoined (h : Refines net abs) {c c' : CmId} {active : Bool} {other : Guid}
    {peer : CommId} {mine theirs : Said} (hc : net.ids me id = some c)
    (he : abs.ends me id = .joined active other peer mine theirs) (hkeeps : c.Keeps c')
    (hstate' : c'.state.linked) : c'.IsEnd (net'.Asked me id) (abs.ends me id) := by
  have hold := h.isEnd hc
  rw [he] at hold ⊢
  obtain ⟨-, hpeer, hremote, hsays, hhears⟩ := hold
  refine ⟨.inl hstate', hkeeps.peer.trans hpeer, hkeeps.remoteId.trans hremote, ?_, ?_⟩
  · exact ⟨hkeeps.localQpn.trans hsays.1, hkeeps.rqPsn.trans hsays.2⟩
  · exact ⟨hkeeps.remoteQpn.trans hhears.1, hkeeps.sqPsn.trans hhears.2⟩

/-- The RTU or the DREQ of the other side arrives. -/
theorem Refines.isConfirmed (h : Refines net abs) (hreach : Reachable abs)
    (hs : net.Stepped net' me new id [] told) {c c' : CmId} {src : Guid} (hc : net.ids me id = some c)
    (hm : .confirm src me c.remoteId id ∈ abs.sent) (hstate : c.state = .repSent)
    (hc' : net'.ids me id = some c') (hstate' : c'.state.linked) (hkeeps : c.Keeps c')
    (htold : ∀ ev ∈ told, ∀ abs, ev.IsTold abs me id) : ∃ abs', Reachable abs' ∧ Refines net' abs' := by
  obtain ⟨mine, theirs, he, hsays, hhears⟩ := (h.isEnd hc).of_repSent hstate
  have hmove := Move.confirmed hm he
  refine ⟨_, .move hreach hmove, h.set hmove hs ?_ nofun fun ev hev => htold ev hev _⟩
  rw [hc']
  refine ⟨.inl hstate', hkeeps.peer, hkeeps.remoteId, ?_, ?_⟩
  · exact ⟨hkeeps.localQpn.trans hsays.1, hkeeps.rqPsn.trans hsays.2⟩
  · exact ⟨hkeeps.remoteQpn.trans hhears.1, hkeeps.sqPsn.trans hhears.2⟩

theorem State.conn_of_aside {st : State} (h : st.aside) : st.conn = false := by
  cases st <;> first | rfl | cases h

/-- An identifier that is not connected stays what it is. -/
theorem Refines.stays (h : Refines net abs) (hs : net.Stepped net' me new id out told) {c c' : CmId}
    (hc : net.ids me id = some c) (hstate : c.state.conn = false) (hstate' : c'.state.conn = false)
    (hremote : c'.remoteId = c.remoteId) : c'.IsEnd (net'.Asked me id) (abs.ends me id) := by
  rcases (h.isEnd hc).of_not_conn hstate with he | ⟨he, hused⟩
  · rw [he]
    exact hstate'
  · rw [he]
    exact ⟨hstate', hremote ▸ hused.imp_right hs.asked⟩

/-- What happens to an identifier happens to its end. -/
theorem Refines.moved (h : Refines net abs) (hreach : Reachable abs)
    (hs : net.Stepped net' me new id out told) : ∃ abs', Reachable abs' ∧ Refines net' abs' := by
  have hmoved := hs.moved
  generalize ho : net.ids me id = o, ho' : net'.ids me id = o' at hmoved
  have hend' : ∀ {e}, IsEnd (net'.Asked me id) ((me, id) ∈ net'.given) o' e →
      IsEnd (net'.Asked me id) ((me, id) ∈ net'.given) (net'.ids me id) e := fun h => ho'.symm ▸ h
  cases hmoved with
  | quiet hcore hout =>
    refine ⟨abs, hreach, h.skip hs ?_ hout nofun⟩
    exact (h.ends me id).congr (by rw [ho, ho', hcore]) hs.asked hs.mem_given
  | @ask c c' m hfirst hremote hstate hstate' hqpn hpsn hid hguid =>
    have hnot := (h.isEnd ho).of_not_conn (by rw [hstate]; rfl)
    have hunused : abs.ends me id = .unused :=
      hnot.resolve_right fun hgone => hgone.2.elim (absurd hremote) hfirst
    have hsent : ⟨me, c'.peer, .req m⟩ ∈ net'.sent := hs.sent ▸ List.mem_append_right _ (.head _)
    have hzero : id ≠ 0 := (h.given me id (by rw [ho]; nofun)).1
    have hmove := Move.ask c'.peer m.said hunused
    refine ⟨_, .move hreach hmove, h.setSend hmove hs (hend' ⟨hstate', rfl, hqpn, hpsn⟩) ?_ ?_⟩
    · exact List.forall_mem_singleton.mpr ⟨hguid, hid ▸ hzero, hid ▸ .inl rfl⟩
    · exact ⟨hzero, m, hsent, hid, rfl⟩
  | @offer _ c' src m hnew hm hstate' hremote hpeer hqpn hpsn =>
    obtain ⟨hguid, -, hask⟩ := h.sent _ hm
    have hmove := Move.offer hask (h.fresh hs hnew)
    refine ⟨_, .move hreach hmove, h.set hmove hs (hend' ?_) nofun ?_⟩
    · exact ⟨hstate', hpeer, hremote, hqpn, hpsn⟩
    · refine List.forall_mem_singleton.mpr ⟨m.localCommId, ?_, hguid ▸ hask⟩
      rw [abs.set_ends_self, hguid]
      exact ⟨rfl, rfl, rfl⟩
  | @answer c c' m hstate hstate' hremote hpeer hremoteQpn hsq hqpn hpsn hid hid' hguid =>
    obtain ⟨theirs, he, hhears⟩ := (h.isEnd ho).of_reqRcvd hstate
    have hsent : ⟨me, c.peer, .rep m⟩ ∈ net'.sent := hs.sent ▸ List.mem_append_right _ (.head _)
    have hmove := Move.answer m.said he
    refine ⟨_, .move hreach hmove, h.setSend hmove hs (hend' ?_) ?_ ⟨m, hsent, hid, hid', rfl⟩⟩
    · exact ⟨hstate', hpeer, hremote, ⟨hqpn, hpsn⟩, hremoteQpn.trans hhears.1, hsq.trans hhears.2⟩
    · exact List.forall_mem_singleton.mpr ⟨hguid, hid ▸ hid' ▸ .inl rfl⟩
  | @join c c' src m hm hid hstate hstate' hremote hpeer hlocal hrq hqpn hpsn =>
    obtain ⟨mine, he, hsays⟩ := (h.isEnd ho).of_reqSent hstate
    obtain ⟨hguid, hanswer⟩ := h.sent _ hm
    rw [hid] at hanswer
    have hmove := Move.join hanswer he
    refine ⟨_, .move hreach hmove, h.set hmove hs (hend' ?_) nofun ?_⟩
    · exact ⟨.inr ⟨rfl, hstate'⟩, hpeer, hremote, ⟨hlocal.trans hsays.1, hrq.trans hsays.2⟩, hqpn, hpsn⟩
    · refine List.forall_mem_singleton.mpr ⟨m.localCommId, ?_, hguid ▸ hanswer⟩
      rw [abs.set_ends_self, hguid, hreach.inv.asked_src he hanswer]
      exact ⟨rfl, rfl, rfl⟩
  | @confirm c c' data hstate hstate' hkeeps =>
    obtain ⟨mine, theirs, he, -⟩ := (h.isEnd ho).of_repRcvd hstate
    refine ⟨_, .move hreach (.confirm he), h.confirm hs (hend' ?_) ?_⟩
    · exact h.staysJoined ho he hkeeps (by rw [hstate']; rfl)
    · exact List.forall_mem_singleton.mpr (.inl rfl)
  | @resend c src m hm hid hid' hstate data =>
    obtain ⟨active, mine, theirs, he, -⟩ := (h.isEnd ho).of_linked (by rw [hstate]; rfl)
    have hanswer := (h.sent _ hm).2
    rw [hid, hid'] at hanswer
    obtain rfl := hreach.inv.answer_src he hanswer
    refine ⟨_, .move hreach (.confirm he), h.confirm hs (hend' ?_) ?_⟩
    · exact (h.isEnd ho).mono hs.asked
    · exact List.forall_mem_singleton.mpr (.inl rfl)
  | @confirmed c c' src data hm hstate hstate' hkeeps =>
    refine h.isConfirmed hreach hs ho (h.sent _ hm) hstate ho' ?_ hkeeps ?_
    · rw [hstate']
      rfl
    · exact List.forall_mem_singleton.mpr fun _ => trivial
  | @disconnect c c' out data hout hstate hstate' hkeeps =>
    obtain ⟨active, mine, theirs, he, -⟩ := (h.isEnd ho).of_linked (by rw [hstate]; rfl)
    refine ⟨_, .move hreach (.confirm he), h.confirm hs (hend' ?_) ?_⟩
    · exact h.staysJoined ho he hkeeps (by rw [hstate']; rfl)
    · refine List.forall_mem_append.mpr ⟨fun x hx => Msg.isSent_of_not_conn (hout x hx), ?_⟩
      exact List.forall_mem_singleton.mpr (.inl rfl)
  | @disconnected c c' src data hm hstate hstate' hkeeps =>
    have hlinked' : c'.state.linked := by rw [hstate']; rfl
    have htold : ∀ ev ∈ [Event.dreqReceived data], ∀ abs, ev.IsTold abs me id :=
      List.forall_mem_singleton.mpr fun _ => trivial
    by_cases hrep : c.state = .repSent
    · exact h.isConfirmed hreach hs ho (h.sent _ hm) hrep ho' hlinked' hkeeps htold
    · have hlinked : c.state.linked := by rcases hstate.resolve_left hrep with hst | hst <;> rw [hst] <;> rfl
      obtain ⟨active, mine, theirs, he, -⟩ := (h.isEnd ho).of_linked hlinked
      refine ⟨abs, hreach, h.skip hs (hend' ?_) nofun fun ev hev => htold ev hev _⟩
      exact h.staysJoined ho he hkeeps hlinked'
  | @close c c' out told hstate hstate' hkeeps hout htold =>
    refine ⟨_, .move hreach (.close me id), h.set (.close me id) hs (hend' ⟨?_, ?_⟩) hout ?_⟩
    · rcases hstate' with hst | hst <;> rw [hst] <;> rfl
    · rw [hkeeps.remoteId]
      exact (h.used hreach ho hstate).imp_right hs.asked
    · rcases htold with rfl | ⟨ev, rfl, hev⟩
      · nofun
      · exact List.forall_mem_singleton.mpr (Event.isTold_of_closing hev)
  | @exit c c' hstate hstate' hkeeps =>
    refine ⟨abs, hreach, h.skip hs (hend' ?_) nofun (List.forall_mem_singleton.mpr trivial)⟩
    exact h.stays hs ho (by rw [hstate]; rfl) (by rw [hstate']; rfl) hkeeps.remoteId
  | @create _ c' told hnew hstate' htold =>
    refine ⟨abs, hreach, h.skip hs (hend' ?_) nofun fun ev hev => Event.isTold_of_sidr (htold ev hev)⟩
    rw [h.fresh hs hnew]
    exact State.conn_of_aside hstate'
  | @aside c c' out told hstate hstate' hremote hout htold =>
    refine ⟨abs, hreach, h.skip hs (hend' ?_) hout fun ev hev => Event.isTold_of_sidr (htold ev hev)⟩
    exact h.stays hs ho (State.conn_of_aside hstate) (State.conn_of_aside hstate') hremote
  | @free c =>
    have hgiven : (me, id) ∈ net.given := (h.given me id (by rw [ho]; nofun)).2
    refine ⟨_, .move hreach (.close me id), h.set (.close me id) hs (hend' ?_) nofun nofun⟩
    exact .inr ⟨rfl, hs.mem_given hgiven⟩

theorem Refines.run {steps : List Step} (hguard : Run.Guarded Net.step Net.Allowed .init steps)
    (hrun : Run.exec Net.step .init steps = some net) : ∃ abs, Reachable abs ∧ Refines net abs := by
  refine Run.always_of_guarded (I := fun net => ∃ abs, Reachable abs ∧ Refines net abs) ?_
    ⟨.init, .init, refines_init⟩ hguard steps net List.prefix_rfl hrun
  rintro net s net' ⟨abs, hreach, h⟩ hallowed hstep
  obtain ⟨me, new, id, out, told, hs⟩ := Net.step_stepped h.given hallowed hstep
  exact h.moved hreach hs

end Steps

/-! ## What connected identifiers know -/

section Results

variable {net : Net} {abs : Rendezvous.Net Guid CommId Said} {n : Guid} {i : CommId} {c : CmId}

/-- An end that is not unused belongs to an identifier that was given out. -/
theorem Refines.mem_given (h : Refines net abs) (hused : abs.ends n i ≠ .unused) : (n, i) ∈ net.given := by
  cases hids : net.ids n i with
  | none =>
    have hend := h.ends n i
    rw [hids] at hend
    exact (hend.resolve_left hused).2
  | some c => exact (h.given n i (by rw [hids]; nofun)).2

/-- The other side of a connected identifier has answered it, has joined it, or is gone. -/
theorem Refines.peer (h : Refines net abs) (hreach : Reachable abs) {active : Bool} {d : Guid}
    {j : CommId} {mine theirs : Said} (he : abs.ends n i = .joined active d j mine theirs) :
    abs.ends d j = .answered n i theirs mine ∧ net.Asked n i ∨
      (∃ active, abs.ends d j = .joined active n i theirs mine) ∨ abs.ends d j = .gone := by
  cases active with
  | true =>
    have hjoined := hreach.inv.ends n i
    rw [he] at hjoined
    exact (hreach.inv.active_peer he).imp (⟨·, h.asked hjoined.1⟩) (.imp_left (⟨false, ·⟩))
  | false => exact .inr ((hreach.inv.passive_peer he).imp_left (⟨true, ·⟩))

/-- A run in which the request and the reply arrive twice. -/
def sampleReq : ReqMsg := ⟨20, 7, 2, 5, 5, [1]⟩

def sampleRep : RepMsg := ⟨11, 20, 1, 6, 6, [2]⟩

def sampleConnect : List Step :=
  [.create 1 10, .call 1 10 (.listen 7) true, .create 2 20, .call 2 20 (.req 1 ⟨7, 5, 5, [1]⟩) true,
    .deliver ⟨2, 1, .req sampleReq⟩ 11 true, .deliver ⟨2, 1, .req sampleReq⟩ 12 true,
    .call 1 11 (.rep ⟨6, 6, [2]⟩) true, .deliver ⟨1, 2, .rep sampleRep⟩ 0 true,
    .call 2 20 (.rtu []) true, .deliver ⟨1, 2, .rep sampleRep⟩ 0 true,
    .deliver ⟨2, 1, .rtu 20 11 []⟩ 0 true]

end Results

end IbCm
