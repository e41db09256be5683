-- SUMMARY: Connection managers that talk over a network that loses, repeats and reorders messages, and what one step can do to one identifier.
import KRCore.Base.Run
import KRCore.Cm.Machine

/-!
# Connection managers on a network

Any number of devices, with users that make any call at any time. A message that was sent can be
delivered any number of times, at any time, or never: the retransmissions of the MAD layer are
deliveries too. `Moved` lists what a step can do: it changes one identifier at most.
-/

namespace IbCm

structure Packet where
  src : Guid
  dst : Guid
  msg : Msg
deriving DecidableEq

structure Net where
  cms : Guid → Cm
  /-- All that was ever sent. -/
  sent : List Packet
  /-- What the handlers were told, in order. -/
  events : List (Guid × CommId × Event)
  /-- The identifiers that were ever given out. -/
  given : List (Guid × CommId)

inductive Call where
  | req (dst : Guid) (param : Cm.ReqParam)
  | rep (param : Cm.RepParam)
  | rtu (privateData : List UInt8)
  | dreq (privateData : List UInt8)
  | drep (privateData : List UInt8)
  | rej (reason : RejReason) (ari : Guid)
  | listen (serviceId : Nat)
  | sidrReq (dst : Guid) (serviceId : Nat) (privateData : List UInt8)
  | sidrRep (param : Cm.SidrRepParam)
  | destroy
deriving DecidableEq

inductive Step where
  | create (me : Guid) (id : CommId)
  | call (me : Guid) (id : CommId) (call : Call) (ok : Bool)
  /-- A thread goes on in `cm_destroy_id`. -/
  | destroy (me : Guid) (id : CommId) (ok : Bool)
  /-- A message arrives; a request takes the identifier `newId`. -/
  | deliver (p : Packet) (newId : CommId) (ok : Bool)
  | sendError (me : Guid) (id : CommId)
  | timewait (me : Guid) (info : TimewaitInfo)
deriving DecidableEq

def Cm.call (cm : Cm) (me : Guid) (id : CommId) (c : CmId) (ok : Bool) : Call → Effect
  | .req dst param => cm.sendReq me id c dst param ok
  | .rep param => cm.sendRep me id c param ok
  | .rtu data => cm.sendRtu id c data ok
  | .dreq data => cm.sendDreq id c data ok
  | .drep data => cm.sendDrep id c data ok
  | .rej reason ari => cm.sendRej id c reason ari ok
  | .listen serviceId => cm.listen id c serviceId
  | .sidrReq dst serviceId data => cm.sendSidrReq id c dst serviceId data ok
  | .sidrRep param => cm.sendSidrRep id c param ok
  | .destroy => .none { cm with destroying := Function.update cm.destroying id (some .retest) }

/-- A request takes an identifier. -/
def Msg.takes (newId : CommId) : Msg → Option CommId
  | .req _ | .sidrReq .. => some newId
  | _ => none

/-- The request of an identifier. -/
def Msg.asks (id : CommId) : Msg → Bool
  | .req m => m.localCommId = id
  | _ => false

namespace Net

def init : Net := ⟨fun _ => .new, [], [], []⟩

def ids (net : Net) (me : Guid) (id : CommId) : Option CmId := (net.cms me).ids id

def apply (net : Net) (me : Guid) (e : Effect) : Net :=
  { net with
    cms := Function.update net.cms me e.cm
    sent := net.sent ++ e.out.map fun (dst, msg) => ⟨me, dst, msg⟩
    events := net.events ++ e.events.map fun (id, event) => (me, id, event) }

def give (net : Net) (me : Guid) (new : Option CommId) : Net :=
  { net with given := net.given ++ new.toList.map (me, ·) }

def step (net : Net) : Step → Option Net
  | .create me id => some ((net.give me (some id)).apply me (.none ((net.cms me).setId id .new)))
  | .call me id call ok =>
    (net.ids me id).map fun c => net.apply me ((net.cms me).call me id c ok call)
  | .destroy me id ok =>
    match net.ids me id, (net.cms me).destroying id with
    | some c, some pc => some (net.apply me ((net.cms me).destroyStep me id c pc ok))
    | _, _ => none
  | .deliver p newId ok =>
    if p ∈ net.sent then
      some ((net.give p.dst (p.msg.takes newId)).apply p.dst
        ((net.cms p.dst).recv newId p.src ok p.msg))
    else none
  | .sendError me id => (net.ids me id).map fun c => net.apply me ((net.cms me).sendError id c)
  | .timewait me info =>
    if info ∈ (net.cms me).timewaitList then
      some (net.apply me ((net.cms me).timewaitHandler info))
    else none

/-- The identifier has asked for a connection. -/
def Asked (net : Net) (me : Guid) (id : CommId) : Prop :=
  ∃ p ∈ net.sent, p.src = me ∧ p.msg.asks id

/-- Identifiers are not 0 and are not given out twice: `local_id_next` goes through all 32 bits. An
    identifier is used for one connection: it asks for one if it has not done so before and is not
    itself made for a request. -/
def Allowed (net : Net) : Step → Prop
  | .create me id => id ≠ 0 ∧ (me, id) ∉ net.given
  | .call me id (.req _ _) _ => ¬net.Asked me id ∧ ∀ c ∈ net.ids me id, c.remoteId = 0
  | .deliver p newId _ => ∀ id ∈ p.msg.takes newId, id ≠ 0 ∧ (p.dst, id) ∉ net.given
  | _ => True

instance (net : Net) (me : Guid) (id : CommId) : Decidable (net.Asked me id) :=
  inferInstanceAs (Decidable (∃ p ∈ net.sent, _))

instance (net : Net) (s : Step) : Decidable (net.Allowed s) := by
  cases s with
  | call me id call ok => cases call <;> dsimp only [Allowed] <;> infer_instance
  | _ => dsimp only [Allowed]; infer_instance

end Net

/-! ## What a step can do -/

/-- The states of a connection, from the request until it is closed. -/
def State.conn : State → Bool
  | .reqSent | .reqRcvd | .repSent | .repRcvd | .established | .dreqSent | .dreqRcvd => true
  | _ => false

/-- The states that have nothing to do with a connection. -/
def State.aside : State → Bool
  | .idle | .listen | .sidrReqSent | .sidrReqRcvd => true
  | _ => false

/-- The messages with which a connection is made and ended by its two sides. -/
def Msg.conn : Msg → Bool
  | .req _ | .rep _ | .rtu .. | .dreq .. => true
  | _ => false

/-- What a handler is told when its connection is closed. -/
def Event.closing : Event → Bool
  | .rejReceived _ | .drepReceived _ | .reqError | .repError | .dreqError => true
  | _ => false

def Event.sidr : Event → Bool
  | .sidrReqReceived .. | .sidrRepReceived .. | .sidrReqError => true
  | _ => false

/-- What an identifier knows of its connection stays. -/
structure CmId.Keeps (c c' : CmId) : Prop where
  remoteId : c'.remoteId = c.remoteId
  peer : c'.peer = c.peer
  localQpn : c'.localQpn = c.localQpn
  remoteQpn : c'.remoteQpn = c.remoteQpn
  sqPsn : c'.sqPsn = c.sqPsn
  rqPsn : c'.rqPsn = c.rqPsn

/-- An identifier without its timewait info. -/
def CmId.core (c : CmId) : CmId := { c with timewaitInfo := none }

/-- What happens to an identifier, with what is sent and what its handler is told. The identifier
    `new` has just been given out. -/
inductive Moved (net : Net) (me : Guid) (new : Option CommId) (id : CommId) :
    Option CmId → Option CmId → List (Guid × Msg) → List Event → Prop
  | quiet {o o' : Option CmId} {out : List (Guid × Msg)} (hcore : o'.map CmId.core = o.map CmId.core)
      (hout : ∀ x ∈ out, x.2.conn = false) : Moved net me new id o o' out []
  | ask {c c' : CmId} {m : ReqMsg} (hfirst : ¬net.Asked me id) (hremote : c.remoteId = 0)
      (hstate : c.state = .idle) (hstate' : c'.state = .reqSent) (hqpn : c'.localQpn = m.localQpn)
      (hpsn : c'.rqPsn = m.startingPsn) (hid : m.localCommId = id) (hguid : m.localCaGuid = me) :
      Moved net me new id (some c) (some c') [(c'.peer, .req m)] []
  | offer {o : Option CmId} {c' : CmId} {src : Guid} {m : ReqMsg} (hnew : id ∈ new)
      (hm : ⟨src, me, .req m⟩ ∈ net.sent) (hstate' : c'.state = .reqRcvd)
      (hremote : c'.remoteId = m.localCommId) (hpeer : c'.peer = src) (hqpn : c'.remoteQpn = m.localQpn)
      (hpsn : c'.sqPsn = m.startingPsn) :
      Moved net me new id o (some c') []
        [.reqReceived m.localCaGuid m.localQpn m.startingPsn m.privateData]
  | answer {c c' : CmId} {m : RepMsg} (hstate : c.state = .reqRcvd) (hstate' : c'.state = .repSent)
      (hremote : c'.remoteId = c.remoteId) (hpeer : c'.peer = c.peer)
      (hremoteQpn : c'.remoteQpn = c.remoteQpn) (hsq : c'.sqPsn = c.sqPsn)
      (hqpn : c'.localQpn = m.localQpn) (hpsn : c'.rqPsn = m.startingPsn) (hid : m.localCommId = id)
      (hid' : m.remoteCommId = c.remoteId) (hguid : m.localCaGuid = me) :
      Moved net me new id (some c) (some c') [(c.peer, .rep m)] []
  | join {c c' : CmId} {src : Guid} {m : RepMsg} (hm : ⟨src, me, .rep m⟩ ∈ net.sent)
      (hid : m.remoteCommId = id) (hstate : c.state = .reqSent) (hstate' : c'.state = .repRcvd)
      (hremote : c'.remoteId = m.localCommId) (hpeer : c'.peer = c.peer)
      (hlocal : c'.localQpn = c.localQpn) (hrq : c'.rqPsn = c.rqPsn) (hqpn : c'.remoteQpn = m.localQpn)
      (hpsn : c'.sqPsn = m.startingPsn) :
      Moved net me new id (some c) (some c') []
        [.repReceived m.localCaGuid m.localQpn m.startingPsn m.privateData]
  | confirm {c c' : CmId} {data : List UInt8} (hstate : c.state = .repRcvd)
      (hstate' : c'.state = .established) (hkeeps : c.Keeps c') :
      Moved net me new id (some c) (some c') [(c.peer, .rtu id c.remoteId data)] []
  | resend {c : CmId} {src : Guid} {m : RepMsg} (hm : ⟨src, me, .rep m⟩ ∈ net.sent)
      (hid : m.remoteCommId = id) (hid' : m.localCommId = c.remoteId) (hstate : c.state = .established)
      {data : List UInt8} : Moved net me new id (some c) (some c) [(src, .rtu id c.remoteId data)] []
  | confirmed {c c' : CmId} {src : Guid} {data : List UInt8}
      (hm : ⟨src, me, .rtu c.remoteId id data⟩ ∈ net.sent) (hstate : c.state = .repSent)
      (hstate' : c'.state = .established) (hkeeps : c.Keeps c') :
      Moved net me new id (some c) (some c') [] [.rtuReceived data]
  | disconnect {c c' : CmId} {out : List (Guid × Msg)} {data : List UInt8}
      (hout : ∀ x ∈ out, x.2.conn = false) (hstate : c.state = .established)
      (hstate' : c'.state = .dreqSent) (hkeeps : c.Keeps c') :
      Moved net me new id (some c) (some c')
        (out ++ [(c.peer, .dreq id c.remoteId c.remoteQpn data)]) []
  | disconnected {c c' : CmId} {src : Guid} {data : List UInt8}
      (hm : ⟨src, me, .dreq c.remoteId id c.localQpn data⟩ ∈ net.sent)
      (hstate : c.state = .repSent ∨ c.state = .dreqSent ∨ c.state = .established)
      (hstate' : c'.state = .dreqRcvd) (hkeeps : c.Keeps c') :
      Moved net me new id (some c) (some c') [] [.dreqReceived data]
  | close {c c' : CmId} {out : List (Guid × Msg)} {told : List Event} (hstate : c.state.conn)
      (hstate' : c'.state = .idle ∨ c'.state = .timewait) (hkeeps : c.Keeps c')
      (hout : ∀ x ∈ out, x.2.conn = false) (htold : told = [] ∨ ∃ e, told = [e] ∧ e.closing) :
      Moved net me new id (some c) (some c') out told
  | exit {c c' : CmId} (hstate : c.state = .timewait) (hstate' : c'.state = .idle) (hkeeps : c.Keeps c') :
      Moved net me new id (some c) (some c') [] [.timewaitExit]
  | create {o : Option CmId} {c' : CmId} {told : List Event} (hnew : id ∈ new)
      (hstate' : c'.state.aside) (htold : ∀ e ∈ told, e.sidr) : Moved net me new id o (some c') [] told
  | aside {c c' : CmId} {out : List (Guid × Msg)} {told : List Event} (hstate : c.state.aside)
      (hstate' : c'.state.aside) (hremote : c'.remoteId = c.remoteId)
      (hout : ∀ x ∈ out, x.2.conn = false) (htold : ∀ e ∈ told, e.sidr) :
      Moved net me new id (some c) (some c') out told
  | free {c : CmId} : Moved net me new id (some c) none [] []

/-- An effect changes one identifier, up to timewait infos. -/
structure Effect.Moves (net : Net) (me : Guid) (new : Option CommId) (cm : Cm) (id : CommId) (e : Effect) : Prop where
  ids : ∀ b ≠ id, (e.cm.ids b).map CmId.core = (cm.ids b).map CmId.core
  moved : ∃ told, e.events = told.map (id, ·) ∧
    Moved net me new id (cm.ids id) (e.cm.ids id) e.out told

namespace Cm

variable {net : Net} {me src : Guid} {new : Option CommId} {cm cm' : Cm} {id b : CommId} {c c' : CmId} {ok : Bool}
  {out : List (Guid × Msg)} {told : List Event}

@[simp] theorem setId_ids (cm : Cm) (id b : CommId) (c : CmId) :
    (cm.setId id c).ids b = if b = id then some c else cm.ids b := by
  simp [setId, Function.update_apply]

@[simp] theorem enterTimewait_ids (cm : Cm) (id b : CommId) (c : CmId) :
    (cm.enterTimewait id c).ids b =
      if b = id then some { c with state := .timewait, timewaitInfo := none } else cm.ids b := by
  rw [enterTimewait]
  cases c.timewaitInfo <;> simp [setId, cleanupTimewait, Function.update_apply]

@[simp] theorem resetToIdle_ids (cm : Cm) (id b : CommId) (c : CmId) :
    (cm.resetToIdle id c).ids b =
      if b = id then some { c with state := .idle, timewaitInfo := none } else cm.ids b := by
  rw [resetToIdle]
  cases c.timewaitInfo <;> simp [setId, cleanupTimewait, Function.update_apply]

@[simp] theorem freeId_ids (cm : Cm) (id b : CommId) :
    (cm.freeId id).ids b = if b = id then none else cm.ids b := by
  simp [freeId, Function.update_apply]

/-- An effect on one identifier. -/
theorem moves_of_set (told : List Event) (hids : ∀ b, cm'.ids b = if b = id then some c' else cm.ids b)
    (hm : Moved net me new id (cm.ids id) (some c') out told) :
    Effect.Moves net me new cm id ⟨cm', out, told.map (id, ·)⟩ where
  ids b hb := by rw [hids, if_neg hb]
  moved := ⟨told, rfl, by rw [hids, if_pos rfl]; exact hm⟩

theorem moves_core (id : CommId) (hids : ∀ b, (cm'.ids b).map CmId.core = (cm.ids b).map CmId.core)
    (hout : ∀ x ∈ out, x.2.conn = false) : Effect.Moves net me new cm id ⟨cm', out, []⟩ where
  ids b _ := hids b
  moved := ⟨[], rfl, .quiet (hids id) hout⟩

theorem moves_quiet (id : CommId) (hids : cm'.ids = cm.ids) (hout : ∀ x ∈ out, x.2.conn = false) :
    Effect.Moves net me new cm id ⟨cm', out, []⟩ :=
  moves_core id (fun b => by rw [hids]) hout

theorem moves_none (net : Net) (me : Guid) (new : Option CommId) (cm : Cm) (id : CommId) :
    (Effect.none cm).Moves net me new cm id :=
  moves_quiet id rfl fun _ h => nomatch h

theorem neutral_nil : ∀ x ∈ ([] : List (Guid × Msg)), x.2.conn = false := fun _ h => nomatch h

theorem neutral_singleton {dst : Guid} {m : Msg} (h : m.conn = false) :
    ∀ x ∈ [(dst, m)], x.2.conn = false := by
  intro x hx
  obtain rfl := List.mem_singleton.mp hx
  exact h

theorem neutral_ite {dst : Guid} {m : Msg} (ok : Bool) (h : m.conn = false) :
    ∀ x ∈ (if ok then [(dst, m)] else []), x.2.conn = false := by
  cases ok
  · exact neutral_nil
  · exact neutral_singleton h

theorem enterTimewait_moves (hc : cm.ids id = some c) (data : List UInt8) (hstate : c.state.conn)
    (hout : ∀ x ∈ out, x.2.conn = false) (told : List Event)
    (htold : told = [] ∨ ∃ e, told = [e] ∧ e.closing) :
    Effect.Moves net me new cm id
      ⟨cm.enterTimewait id { c with privateData := data }, out, told.map (id, ·)⟩ := by
  refine moves_of_set told (fun b => enterTimewait_ids ..) (hc ▸ ?_)
  exact .close hstate (.inr rfl) ⟨rfl, rfl, rfl, rfl, rfl, rfl⟩ hout htold

theorem resetToIdle_moves (hc : cm.ids id = some c) (hstate : c.state.conn)
    (hout : ∀ x ∈ out, x.2.conn = false) (told : List Event)
    (htold : told = [] ∨ ∃ e, told = [e] ∧ e.closing) :
    Effect.Moves net me new cm id ⟨cm.resetToIdle id c, out, told.map (id, ·)⟩ := by
  refine moves_of_set told (fun b => resetToIdle_ids ..) (hc ▸ ?_)
  exact .close hstate (.inl rfl) ⟨rfl, rfl, rfl, rfl, rfl, rfl⟩ hout htold

/-! Calls. -/

theorem sendReq_moves (hfirst : ¬net.Asked me id) (hc : cm.ids id = some c) (hremote : c.remoteId = 0)
    (dst : Guid) (param : ReqParam) :
    (cm.sendReq me id c dst param ok).Moves net me new cm id := by
  rw [sendReq]
  split
  case isTrue => exact moves_none ..
  case isFalse h =>
    refine moves_of_set [] (fun b => setId_ids ..) (hc ▸ ?_)
    exact .ask hfirst hremote (not_not.mp fun hstate => h (.inl hstate)) rfl rfl rfl rfl rfl

theorem sendRep_moves (hc : cm.ids id = some c) (param : RepParam) :
    (cm.sendRep me id c param ok).Moves net me new cm id := by
  rw [sendRep]
  split
  case isTrue => exact moves_none ..
  case isFalse h =>
    refine moves_of_set [] (fun b => setId_ids ..) (hc ▸ ?_)
    exact .answer (not_not.mp fun hstate => h (.inr (.inl hstate))) rfl rfl rfl rfl rfl rfl rfl rfl rfl rfl

theorem sendRtu_moves (hc : cm.ids id = some c) (data : List UInt8) :
    (cm.sendRtu id c data ok).Moves net me new cm id := by
  rw [sendRtu]
  split
  case isTrue => exact moves_none ..
  case isFalse h =>
    refine moves_of_set [] (fun b => setId_ids ..) (hc ▸ ?_)
    exact .confirm (not_not.mp fun hstate => h (.inr (.inl hstate))) rfl
      ⟨rfl, rfl, rfl, rfl, rfl, rfl⟩

/-- With other messages in front. -/
theorem sendDreq_moves (hc : cm.ids id = some c) (data : List UInt8)
    (hout : ∀ x ∈ out, x.2.conn = false) :
    Effect.Moves net me new cm id
      { cm.sendDreq id c data ok with out := out ++ (cm.sendDreq id c data ok).out } := by
  rw [sendDreq]
  split
  case isTrue => exact moves_quiet id rfl (by simpa [Effect.none] using hout)
  case isFalse h =>
    have hstate : c.state = .established := not_not.mp fun hstate => h (.inr hstate)
    split
    case isTrue =>
      refine enterTimewait_moves hc c.privateData (by rw [hstate]; rfl) ?_ [] (.inl rfl)
      simpa [Effect.none] using hout
    case isFalse =>
      refine moves_of_set [] (fun b => setId_ids ..) (hc ▸ ?_)
      exact .disconnect hout hstate rfl ⟨rfl, rfl, rfl, rfl, rfl, rfl⟩

theorem sendDrep_moves (hc : cm.ids id = some c) (data : List UInt8) :
    (cm.sendDrep id c data ok).Moves net me new cm id := by
  rw [sendDrep]
  split
  case isTrue => exact moves_none ..
  case isFalse h =>
    have hstate : c.state = .dreqRcvd := not_not.mp fun hstate => h (.inr hstate)
    exact enterTimewait_moves hc data (by rw [hstate]; rfl) (neutral_ite ok rfl) [] (.inl rfl)

theorem sendRej_moves (hc : cm.ids id = some c) (reason : RejReason) (ari : Guid) :
    (cm.sendRej id c reason ari ok).Moves net me new cm id := by
  have hout : ∀ x ∈ (if ok then [(c.peer, formatRej id c reason ari)] else []), x.2.conn = false :=
    neutral_ite ok rfl
  rw [sendRej]
  split <;> rename_i hstate
  case h_4 => exact enterTimewait_moves hc c.privateData (by rw [hstate]; rfl) hout [] (.inl rfl)
  case h_5 => exact moves_none ..
  all_goals exact resetToIdle_moves hc (by rw [hstate]; rfl) hout [] (.inl rfl)

theorem listen_moves (hc : cm.ids id = some c) (serviceId : Nat) :
    (cm.listen id c serviceId).Moves net me new cm id := by
  rw [listen]
  split
  case isTrue => exact moves_none ..
  case isFalse h =>
    have hstate : c.state.aside := by rw [not_not.mp h]; rfl
    split
    case isTrue =>
      refine moves_of_set [] (fun b => setId_ids ..) (hc ▸ ?_)
      exact .aside hstate hstate rfl neutral_nil nofun
    case isFalse =>
      refine moves_of_set [] (fun b => setId_ids ..) (hc ▸ ?_)
      exact .aside hstate rfl rfl neutral_nil nofun

theorem sendSidrReq_moves (hc : cm.ids id = some c) (dst : Guid) (serviceId : Nat) (data : List UInt8) :
    (cm.sendSidrReq id c dst serviceId data ok).Moves net me new cm id := by
  rw [sendSidrReq]
  split
  case isTrue => exact moves_none ..
  case isFalse h =>
    have hstate : c.state = .idle := not_not.mp fun hstate => h (.inr (.inl hstate))
    refine moves_of_set [] (fun b => setId_ids ..) (hc ▸ ?_)
    exact .aside (by rw [hstate]; rfl) rfl rfl (neutral_singleton rfl) nofun

theorem sendSidrRep_moves (hc : cm.ids id = some c) (param : SidrRepParam) :
    (cm.sendSidrRep id c param ok).Moves net me new cm id := by
  rw [sendSidrRep]
  split
  case isTrue => exact moves_none ..
  case isFalse h =>
    have hstate : c.state = .sidrReqRcvd := not_not.mp fun hstate => h (.inr (.inl hstate))
    refine moves_of_set [] (fun b => setId_ids ..) (hc ▸ ?_)
    exact .aside (by rw [hstate]; rfl) rfl rfl (neutral_singleton rfl) nofun

theorem call_moves {call : Call} (hallowed : net.Allowed (.call me id call ok))
    (hc : net.ids me id = some c) :
    ((net.cms me).call me id c ok call).Moves net me new (net.cms me) id := by
  cases call with
  | req dst param => exact sendReq_moves hallowed.1 hc (hallowed.2 c hc) dst param
  | rep param => exact sendRep_moves hc param
  | rtu data => exact sendRtu_moves hc data
  | dreq data => exact sendDreq_moves hc data neutral_nil
  | drep data => exact sendDrep_moves hc data
  | rej reason ari => exact sendRej_moves hc reason ari
  | listen serviceId => exact listen_moves hc serviceId
  | sidrReq dst serviceId data => exact sendSidrReq_moves hc dst serviceId data
  | sidrRep param => exact sendSidrRep_moves hc param
  | destroy => exact moves_quiet id rfl neutral_nil

/-- The program counter of a destroying thread does not matter. -/
theorem moves_goto {e : Effect} (h : e.Moves net me new cm id) (hids : cm'.ids = e.cm.ids) :
    Effect.Moves net me new cm id { e with cm := cm' } where
  ids b hb := by
    dsimp only
    rw [hids]
    exact h.ids b hb
  moved := by
    dsimp only
    rw [hids]
    exact h.moved

theorem destroyStep_moves (hc : cm.ids id = some c) (pc : Destroy) :
    (cm.destroyStep me id c pc ok).Moves net me new cm id := by
  cases pc with
  | retest =>
    dsimp only [destroyStep]
    split <;> rename_i hstate
    case h_2 =>
      refine moves_of_set [] (fun b => setId_ids ..) (hc ▸ ?_)
      exact .aside (by rw [hstate]; rfl) rfl rfl neutral_nil nofun
    case h_9 =>
      refine moves_goto (enterTimewait_moves hc c.privateData ?_ neutral_nil [] (.inl rfl)) rfl
      rw [hstate]
      rfl
    all_goals exact moves_quiet id rfl neutral_nil
  | sendRej reason => exact moves_goto (sendRej_moves hc ..) rfl
  | sendDreq => exact moves_goto (sendDreq_moves hc [] neutral_nil) rfl
  | sendDrep => exact moves_goto (sendDrep_moves hc []) rfl
  | rejectSidr => exact moves_goto (moves_goto (sendSidrRep_moves hc ..) rfl) rfl
  | free =>
    refine ⟨fun b hb => ?_, [], rfl, ?_⟩
    · change ((cm.freeId id).ids b).map CmId.core = _
      rw [freeId_ids, if_neg hb]
    · change Moved net me new id (cm.ids id) ((cm.freeId id).ids id) [] []
      rw [hc, freeId_ids, if_pos rfl]
      exact .free

/-! Messages. -/

theorem getId_eq_some {remoteId : CommId} (h : cm.getId id remoteId = some c) :
    cm.ids id = some c ∧ c.remoteId = remoteId := by
  simpa [getId, Option.filter_eq_some_iff] using h

theorem rtuHandler_moves {l r : CommId} {data : List UInt8} (hm : ⟨src, me, .rtu l r data⟩ ∈ net.sent) :
    ∃ id, (cm.rtuHandler l r data).Moves net me new cm id := by
  refine ⟨r, ?_⟩
  rw [rtuHandler]
  split
  case h_1 c hget =>
    obtain ⟨hc, rfl⟩ := getId_eq_some hget
    split
    case isTrue => exact moves_none ..
    case isFalse h =>
      refine moves_of_set [.rtuReceived data] (fun b => setId_ids ..) (hc ▸ ?_)
      exact .confirmed hm (not_not.mp h) rfl ⟨rfl, rfl, rfl, rfl, rfl, rfl⟩
  case h_2 => exact moves_none ..

theorem dreqHandler_moves {l r : CommId} {qpn : Nat} {data : List UInt8}
    (hm : ⟨src, me, .dreq l r qpn data⟩ ∈ net.sent) :
    ∃ id, (cm.dreqHandler src l r qpn data).Moves net me new cm id := by
  refine ⟨r, ?_⟩
  rw [dreqHandler]
  split
  case h_1 => exact moves_quiet r rfl (neutral_singleton rfl)
  case h_2 c hget =>
    obtain ⟨hc, rfl⟩ := getId_eq_some hget
    split
    case isTrue => exact moves_none ..
    case isFalse h =>
      obtain rfl := not_not.mp h
      split <;> rename_i hstate
      case h_4 => exact moves_quiet r rfl (neutral_singleton rfl)
      case h_5 => exact moves_none ..
      all_goals
        refine moves_of_set [.dreqReceived data] (fun b => setId_ids ..) (hc ▸ ?_)
        exact .disconnected hm (by simp [hstate]) rfl ⟨rfl, rfl, rfl, rfl, rfl, rfl⟩

theorem drepHandler_moves (l r : CommId) (data : List UInt8) :
    ∃ id, (cm.drepHandler l r data).Moves net me new cm id := by
  refine ⟨r, ?_⟩
  rw [drepHandler]
  split
  case h_1 c hget =>
    obtain ⟨hc, -⟩ := getId_eq_some hget
    split
    case isTrue h =>
      refine enterTimewait_moves hc c.privateData ?_ neutral_nil [.drepReceived data]
        (.inr ⟨_, rfl, rfl⟩)
      rcases h with h | h <;> rw [h] <;> rfl
    case isFalse => exact moves_none ..
  case h_2 => exact moves_none ..

theorem acquireRejectedId_eq_some {m : RejMsg} (h : cm.acquireRejectedId m = some (id, c)) :
    cm.ids id = some c := by
  rw [acquireRejectedId] at h
  split at h
  · obtain ⟨id', -, hmap⟩ := Option.bind_eq_some_iff.mp h
    obtain ⟨c', hget, heq⟩ := Option.map_eq_some_iff.mp hmap
    cases heq
    exact (getId_eq_some hget).1
  all_goals
    split at h <;>
    · obtain ⟨c', hget, heq⟩ := Option.map_eq_some_iff.mp h
      cases heq
      exact (getId_eq_some hget).1

theorem rejHandler_moves (m : RejMsg) : ∃ id, (cm.rejHandler m).Moves net me new cm id := by
  rw [rejHandler]
  split
  case h_1 => exact ⟨0, moves_none ..⟩
  case h_2 id c hget =>
    refine ⟨id, ?_⟩
    have hc := acquireRejectedId_eq_some hget
    have htold : [Event.rejReceived m.reason] = [] ∨
        ∃ e, [Event.rejReceived m.reason] = [e] ∧ e.closing := .inr ⟨_, rfl, rfl⟩
    have hwait : c.state.conn → Effect.Moves net me new cm id
        ⟨cm.enterTimewait id c, [], [(id, .rejReceived m.reason)]⟩ := fun hconn =>
      enterTimewait_moves hc c.privateData hconn neutral_nil [.rejReceived m.reason] htold
    have hreset : c.state.conn → Effect.Moves net me new cm id
        ⟨cm.resetToIdle id c, [], [(id, .rejReceived m.reason)]⟩ := fun hconn =>
      resetToIdle_moves hc hconn neutral_nil [.rejReceived m.reason] htold
    dsimp only
    split <;> rename_i hstate
    case h_7 => exact moves_none ..
    all_goals
      have hconn : c.state.conn := by rw [hstate]; rfl
      first
      | exact hwait hconn
      | split
        · exact hwait hconn
        · exact hreset hconn

theorem dupReqHandler_neutral (cm : Cm) (l r : CommId) (src : Guid) :
    ∀ x ∈ cm.dupReqHandler l r src, x.2.conn = false := by
  rw [dupReqHandler]
  split
  · split
    · exact neutral_singleton rfl
    · exact neutral_nil
  · exact neutral_nil

theorem dreqStale_moves (l r : CommId) (hout : ∀ x ∈ out, x.2.conn = false) :
    Effect.Moves net me new cm l
      { cm.dreqStale l r ok with out := out ++ (cm.dreqStale l r ok).out } := by
  rw [dreqStale]
  split
  case h_1 c hget => exact sendDreq_moves (getId_eq_some hget).1 [] hout
  case h_2 => exact moves_quiet l rfl (by simpa [Effect.none] using hout)

theorem reqHandler_moves {m : ReqMsg} {newId : CommId} (hm : ⟨src, me, .req m⟩ ∈ net.sent)
    (hnone : cm.ids newId = none) :
    ∃ id, (cm.reqHandler newId src m ok).Moves net me (some newId) cm id := by
  rw [reqHandler]
  split
  case h_1 => exact ⟨0, moves_quiet 0 rfl (dupReqHandler_neutral _ _ _ _)⟩
  case h_2 =>
    split
    case h_1 l r _ => exact ⟨l, dreqStale_moves l r (neutral_singleton rfl)⟩
    case h_2 =>
      split
      case h_1 => exact ⟨0, moves_quiet 0 rfl (neutral_singleton rfl)⟩
      case h_2 =>
        refine ⟨newId, ?_⟩
        split
        case isTrue =>
          refine moves_of_set [_] (fun b => setId_ids ..) ?_
          exact .offer rfl hm rfl rfl rfl rfl rfl
        case isFalse =>
          -- the identifier is given back
          refine moves_quiet newId (funext fun b => ?_) (neutral_singleton rfl)
          simp only [sendRej, freeId_ids, resetToIdle_ids, setId_ids]
          split
          case isTrue heq => rw [heq, hnone]
          case isFalse => rfl

theorem setId_core (hc : cm.ids id = some c) (hcore : c'.core = c.core) (b : CommId) :
    ((cm.setId id c').ids b).map CmId.core = (cm.ids b).map CmId.core := by
  rw [setId_ids]
  split
  case isTrue heq => rw [heq, hc, Option.map_some, Option.map_some, hcore]
  case isFalse => rfl

theorem moves_congr {e : Effect} (h : e.Moves net me new cm' id) (hid : cm'.ids id = cm.ids id)
    (hcore : ∀ b, (cm'.ids b).map CmId.core = (cm.ids b).map CmId.core) : e.Moves net me new cm id where
  ids b hb := (h.ids b hb).trans (hcore b)
  moved := hid ▸ h.moved

/-- A connection that is not established is not asked to disconnect. -/
theorem dreqStale_eq_none (hc : cm.ids id = some c) (hstate : c.state ≠ .established) (r : CommId) :
    cm.dreqStale id r ok = .none cm := by
  rw [dreqStale]
  split
  case h_1 c' hget =>
    rw [(getId_eq_some hget).1] at hc
    cases hc
    exact if_pos (.inr hstate)
  case h_2 => rfl

theorem repHandler_moves {m : RepMsg} (hm : ⟨src, me, .rep m⟩ ∈ net.sent) :
    ∃ id, (cm.repHandler src m ok).Moves net me new cm id := by
  rw [repHandler]
  dsimp only
  split
  case h_1 =>
    refine ⟨m.remoteCommId, ?_⟩
    rw [dupRepHandler]
    split
    case h_1 c hget =>
      obtain ⟨hc, hremote⟩ := getId_eq_some hget
      split
      case isTrue hstate =>
        refine ⟨fun b _ => rfl, [], rfl, ?_⟩
        rw [hc]
        exact .resend hm rfl hremote.symm hstate
      case isFalse => exact moves_none ..
    case h_2 => exact moves_none ..
  case h_2 c hget =>
    obtain ⟨hc, -⟩ := getId_eq_some hget
    split
    case isTrue => exact ⟨m.remoteCommId, moves_none ..⟩
    case isFalse hstate =>
      have hcore : ∀ info b, ((cm.setId m.remoteCommId { c with timewaitInfo := some info }).ids b).map
          CmId.core = (cm.ids b).map CmId.core := fun info => setId_core hc rfl
      split
      case h_1 => exact ⟨m.remoteCommId, moves_core _ (hcore _) neutral_nil⟩
      case h_2 =>
        split
        case h_1 l r _ =>
          refine ⟨l, ?_⟩
          by_cases hl : l = m.remoteCommId
          · subst hl
            rw [dreqStale_eq_none (setId_ids .. |>.trans (if_pos rfl)) (by simp [not_not.mp hstate])]
            exact moves_core _ (hcore _) (neutral_singleton rfl)
          · exact moves_congr (dreqStale_moves l r (neutral_singleton rfl))
              (setId_ids .. |>.trans (if_neg hl)) (hcore _)
        case h_2 =>
          refine ⟨m.remoteCommId, moves_of_set [_] (fun b => setId_ids ..) (hc ▸ ?_)⟩
          exact .join hm rfl (not_not.mp hstate) rfl rfl rfl rfl rfl rfl rfl

theorem sidrReqHandler_moves {newId : CommId} (hnone : cm.ids newId = none) (r : CommId) (serviceId : Nat) (data : List UInt8) :
    (cm.sidrReqHandler newId src r serviceId data ok).Moves net me (some newId) cm newId := by
  rw [sidrReqHandler]
  split
  case h_1 => exact moves_none ..
  case h_2 =>
    dsimp only
    split
    case h_1 =>
      -- the identifier is given back
      cases ok
      all_goals
        refine moves_quiet newId (funext fun b => ?_) (neutral_singleton rfl)
        simp only [rejectSidrReq, sendSidrRep, freeId_ids]
        split
        case isTrue hb => rw [hb, hnone]
        case isFalse hb => simp [hb]
    case h_2 =>
      refine moves_of_set [_] (fun b => setId_ids ..) ?_
      exact .create rfl rfl fun e he => by rw [List.mem_singleton.mp he]; rfl

theorem sidrRepHandler_moves (m : SidrRepMsg) : ∃ id, (cm.sidrRepHandler m).Moves net me new cm id := by
  refine ⟨m.requestId, ?_⟩
  rw [sidrRepHandler]
  split
  case h_1 c hget =>
    obtain ⟨hc, -⟩ := getId_eq_some hget
    split
    case isTrue => exact moves_none ..
    case isFalse hstate =>
      refine moves_of_set [_] (fun b => setId_ids ..) (hc ▸ ?_)
      refine .aside (by rw [not_not.mp hstate]; rfl) rfl rfl neutral_nil ?_
      exact fun e he => by rw [List.mem_singleton.mp he]; rfl
  case h_2 => exact moves_none ..

theorem recv_moves {m : Msg} {newId : CommId} (ok : Bool) (hm : ⟨src, me, m⟩ ∈ net.sent)
    (hnone : ∀ id ∈ m.takes newId, cm.ids id = none) :
    ∃ id, (cm.recv newId src ok m).Moves net me (m.takes newId) cm id := by
  cases m with
  | req m => exact reqHandler_moves hm (hnone newId rfl)
  | rep m => exact repHandler_moves hm
  | rtu l r data => exact rtuHandler_moves hm
  | rej m => exact rejHandler_moves m
  | dreq l r qpn data => exact dreqHandler_moves hm
  | drep l r data => exact drepHandler_moves l r data
  | sidrReq r serviceId data => exact ⟨newId, sidrReqHandler_moves (hnone newId rfl) ..⟩
  | sidrRep m => exact sidrRepHandler_moves m

/-! Timeouts. -/

theorem sendError_moves (hc : cm.ids id = some c) : (cm.sendError id c).Moves net me new cm id := by
  rw [sendError]
  split <;> rename_i hstate
  case h_3 =>
    exact enterTimewait_moves hc c.privateData (by rw [hstate]; rfl) neutral_nil [.dreqError]
      (.inr ⟨_, rfl, rfl⟩)
  case h_4 =>
    refine moves_of_set [_] (fun b => setId_ids ..) (hc ▸ ?_)
    refine .aside (by rw [hstate]; rfl) rfl rfl neutral_nil ?_
    exact fun e he => by rw [List.mem_singleton.mp he]; rfl
  case h_5 => exact moves_none ..
  all_goals
    exact resetToIdle_moves hc (by rw [hstate]; rfl) neutral_nil [_] (.inr ⟨_, rfl, rfl⟩)

theorem timewaitHandler_moves (info : TimewaitInfo) :
    (cm.timewaitHandler info).Moves net me new cm info.localId := by
  rw [timewaitHandler]
  split
  case h_1 c hget =>
    obtain ⟨hc, -⟩ := getId_eq_some hget
    split
    case isTrue => exact moves_quiet _ rfl neutral_nil
    case isFalse h =>
      refine moves_of_set [_] (fun b => setId_ids ..) (show Moved _ _ _ _ (cm.ids _) _ _ _ from ?_)
      change cm.ids info.localId = some c at hc
      rw [hc]
      exact .exit (not_not.mp fun hstate => h (.inl hstate)) rfl ⟨rfl, rfl, rfl, rfl, rfl, rfl⟩
  case h_2 => exact moves_quiet _ rfl neutral_nil

end Cm

/-- A step of the network: one identifier changes, up to timewait infos. -/
structure Net.Stepped (net net' : Net) (me : Guid) (new : Option CommId) (id : CommId)
    (out : List (Guid × Msg)) (told : List Event) : Prop where
  ids : ∀ n b, (n, b) ≠ (me, id) → (net'.ids n b).map CmId.core = (net.ids n b).map CmId.core
  moved : Moved net me new id (net.ids me id) (net'.ids me id) out told
  sent : net'.sent = net.sent ++ out.map fun (dst, msg) => ⟨me, dst, msg⟩
  events : net'.events = net.events ++ told.map fun e => (me, id, e)
  given : net'.given = net.given ++ new.toList.map (me, ·)
  fresh : ∀ i ∈ new, i ≠ 0 ∧ (me, i) ∉ net.given

namespace Net

variable {net net' : Net} {me : Guid} {id : CommId}

theorem apply_ids (net : Net) (me n : Guid) (e : Effect) (b : CommId) :
    (net.apply me e).ids n b = if n = me then e.cm.ids b else net.ids n b := by
  simp only [ids, apply, Function.update_apply]
  split <;> rfl

/-- What an effect is to the network. -/
theorem apply_stepped {e : Effect} {new : Option CommId} (hfresh : ∀ i ∈ new, i ≠ 0 ∧ (me, i) ∉ net.given)
    (h : e.Moves net me new (net.cms me) id) :
    ∃ told, Stepped net ((net.give me new).apply me e) me new id e.out told := by
  obtain ⟨hids, told, htold, hmoved⟩ := h
  refine ⟨told, ?_, ?_, rfl, ?_, rfl, hfresh⟩
  · intro n b hne
    rw [apply_ids]
    split
    case isTrue heq =>
      subst heq
      exact hids b fun hb => hne (by rw [hb])
    case isFalse => rfl
  · rw [apply_ids, if_pos rfl]
    exact hmoved
  · change net.events ++ _ = _
    rw [htold, List.map_map]
    rfl

/-- Every identifier was given out. -/
def GivenOk (net : Net) : Prop := ∀ n b, net.ids n b ≠ none → b ≠ 0 ∧ (n, b) ∈ net.given

theorem step_stepped {s : Step} (hgiven : net.GivenOk) (hallowed : net.Allowed s)
    (hstep : net.step s = some net') :
    ∃ me new id out told, Stepped net net' me new id out told := by
  have hnone : ∀ {n b}, (n, b) ∉ net.given → net.ids n b = none := fun hnew =>
    not_not.mp fun hne => hnew (hgiven _ _ hne).2
  -- what takes no identifier
  have hquiet : ∀ {me id} {e : Effect}, e.Moves net me none (net.cms me) id →
      ∃ me' new id out told, Stepped net (net.apply me e) me' new id out told := by
    intro me id e h
    obtain ⟨told, h⟩ := apply_stepped (fun _ hi => by cases hi) h
    have hgive : net.give me none = net := congrArg (Net.mk _ _ _) (List.append_nil _)
    rw [hgive] at h
    exact ⟨_, _, _, _, _, h⟩
  cases s with
  | create me id =>
    cases hstep
    refine ⟨me, some id, id, _, apply_stepped ?_ ?_⟩
    · rintro _ ⟨⟩
      exact hallowed
    · exact Cm.moves_of_set [] (fun b => Cm.setId_ids ..) (.create rfl rfl nofun)
  | call me id call ok =>
    obtain ⟨c, hc, rfl⟩ := Option.map_eq_some_iff.mp hstep
    exact hquiet (Cm.call_moves hallowed hc)
  | destroy me id ok =>
    rw [step] at hstep
    split at hstep
    case h_1 c pc hc _ =>
      cases hstep
      exact hquiet (Cm.destroyStep_moves hc pc)
    case h_2 => cases hstep
  | deliver p newId ok =>
    rw [step] at hstep
    split at hstep
    case isTrue hp =>
      obtain ⟨id, hmoves⟩ := Cm.recv_moves ok hp fun i hi => hnone (hallowed i hi).2
      cases hstep
      exact ⟨p.dst, _, id, _, apply_stepped hallowed hmoves⟩
    case isFalse => cases hstep
  | sendError me id =>
    obtain ⟨c, hc, rfl⟩ := Option.map_eq_some_iff.mp hstep
    exact hquiet (Cm.sendError_moves hc)
  | timewait me info =>
    rw [step] at hstep
    split at hstep
    case isTrue =>
      cases hstep
      exact hquiet (Cm.timewaitHandler_moves info)
    case isFalse => cases hstep

theorem Stepped.givenOk {new : Option CommId} {out : List (Guid × Msg)} {told : List Event}
    (hgiven : net.GivenOk) (h : Stepped net net' me new id out told) : net'.GivenOk := by
  intro n b hne
  have hold : net.ids n b ≠ none → b ≠ 0 ∧ (n, b) ∈ net'.given := fun h' =>
    (hgiven n b h').imp_right fun hmem => h.given ▸ List.mem_append_left _ hmem
  have hnew : b ∈ new → n = me → b ≠ 0 ∧ (n, b) ∈ net'.given := by
    rintro hb rfl
    refine ⟨(h.fresh b hb).1, h.given ▸ List.mem_append_right _ ?_⟩
    exact List.mem_map_of_mem (Option.mem_toList.mpr hb)
  by_cases heq : (n, b) = (me, id)
  · cases heq
    have hmoved := h.moved
    generalize net.ids me id = o, net'.ids me id = o' at hmoved hne hold
    cases hmoved with
    | quiet hcore => exact hold fun ho => hne (by simpa [ho] using hcore)
    | offer hmem => exact hnew hmem rfl
    | create hmem => exact hnew hmem rfl
    | free => exact absurd rfl hne
    | _ => exact hold nofun
  · refine hold fun ho => hne ?_
    simpa [ho] using h.ids n b heq

end Net

end IbCm
