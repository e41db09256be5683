-- SUMMARY: Which replies of the metadata server depend on nothing but the registry and the request.
import KRCore.Rpc.Protocol

/-!
# Replies and history

All handlers write into the one send buffer and the server sends at least 64
bytes of it, so a reply may contain what earlier requests left there.
`replies_history_free_iff` says for which requests two histories that lead to
the same registry always give the same reply.
-/

/-- The size of the reply type that a caller uses for a request. The types
    without a handler have no caller; what can be read is the whole datagram. -/
def MetaReq.replyLen : MetaReq → Nat
  | .dummy => 8
  | .register _ _ _ => 8
  | .deregister _ => 8
  | .query _ => endPointSz
  | .unknown => RpcServer.minReply

/-- The handler writes a reply for the request. -/
def MetaReq.Determined (cfg : MetaConfig) (info : MetaInfo) : MetaReq → Prop
  | .query gid => (info.get (cfg.gidToStr gid)).isSome = true
  | .unknown => False
  | _ => True

namespace RpcServer

/-- The bytes that the caller of a request gets as its reply: the beginning of
    the datagram that the server sends. -/
def replyBytes (cfg : MetaConfig) (s : RpcServer MetaServer) (slot : Mem) : List UInt8 :=
  let out := handleOne cfg.layout (metaHandlers cfg) slot s
  (out.1.sendBuf.read 0 out.2.1).take (MetaReq.decode cfg.layout slot).replyLen

/-- Two servers have the same contents of `META_INFO`. The address handles of
    its endpoints do not count: they are never set. -/
def SameInfo (s s' : RpcServer MetaServer) : Prop :=
  ∀ key, (s.app.info.get key).map EndPoint.selfClone = (s'.app.info.get key).map EndPoint.selfClone

theorem SameInfo.refl (s : RpcServer MetaServer) : SameInfo s s := fun _ => rfl

theorem replyLen_le (r : MetaReq) : r.replyLen ≤ minReply := by
  cases r <;> simp [MetaReq.replyLen, minReply, endPointSz]

/-- The reply is read from the send buffer after the handler has written to it. -/
theorem replyBytes_eq (cfg : MetaConfig) (s : RpcServer MetaServer) (slot : Mem) :
    replyBytes cfg s slot =
      (s.sendBuf.write 0 ((MetaReq.decode cfg.layout slot).written cfg s.app.info)).read 0
        (MetaReq.decode cfg.layout slot).replyLen := by
  have hlen := (replyLen_le (MetaReq.decode cfg.layout slot)).trans
    (minReply_le_handleOne cfg.layout (metaHandlers cfg) slot s)
  rw [replyBytes, Mem.read_take hlen, handleOne_meta]

theorem written_congr {cfg : MetaConfig} {s s' : RpcServer MetaServer} (h : SameInfo s s')
    (r : MetaReq) : r.written cfg s.app.info = r.written cfg s'.app.info := by
  cases r with
  | query gid =>
    have hkey := congrArg (Option.map cfg.layout.enc) (h (cfg.gidToStr gid))
    simp only [Option.map_map, Function.comp_def] at hkey
    rw [MetaReq.written, MetaReq.written, hkey]
  | _ => rfl

theorem Determined.congr {cfg : MetaConfig} {s s' : RpcServer MetaServer} (h : SameInfo s s')
    {r : MetaReq} (hr : r.Determined cfg s'.app.info) : r.Determined cfg s.app.info := by
  cases r with
  | query gid =>
    have hkey := congrArg Option.isSome (h (cfg.gidToStr gid))
    rw [Option.isSome_map, Option.isSome_map] at hkey
    rwa [MetaReq.Determined, hkey]
  | _ => exact hr

/-- Where the handler writes a reply, it writes all of it. -/
theorem Determined.replyLen_le_written {cfg : MetaConfig} {info : MetaInfo} {r : MetaReq}
    (h : r.Determined cfg info) : r.replyLen ≤ (r.written cfg info).length := by
  cases r with
  | dummy => simp [MetaReq.replyLen, MetaReq.written]
  | register gid port point => simp [MetaReq.replyLen, MetaReq.written]
  | deregister gid => simp [MetaReq.replyLen, MetaReq.written]
  | query gid =>
    obtain ⟨point, hpoint⟩ := Option.isSome_iff_exists.mp h
    simp [MetaReq.replyLen, MetaReq.written, hpoint, cfg.layout.enc_length]
  | unknown => cases h

/-- Otherwise it writes nothing, and a word at least is read. -/
theorem written_of_not_determined {cfg : MetaConfig} {info : MetaInfo} {r : MetaReq}
    (h : ¬ r.Determined cfg info) : r.written cfg info = [] ∧ 8 ≤ r.replyLen := by
  cases r with
  | dummy => exact absurd trivial h
  | register gid port point => exact absurd trivial h
  | deregister gid => exact absurd trivial h
  | query gid =>
    have hnone : info.get (cfg.gidToStr gid) = none := by simpa [MetaReq.Determined] using h
    exact ⟨by simp [MetaReq.written, hnone], by simp [MetaReq.replyLen, endPointSz]⟩
  | unknown => exact ⟨rfl, by simp [MetaReq.replyLen, minReply]⟩

/-- A reply that the handler writes does not depend on the send buffer. -/
theorem replyBytes_of_determined {cfg : MetaConfig} {s : RpcServer MetaServer} {slot : Mem}
    (h : (MetaReq.decode cfg.layout slot).Determined cfg s.app.info) :
    replyBytes cfg s slot =
      ((MetaReq.decode cfg.layout slot).written cfg s.app.info).take
        (MetaReq.decode cfg.layout slot).replyLen := by
  rw [replyBytes_eq, Mem.read_write_take (Determined.replyLen_le_written h)]

/-! ## Two histories -/

variable {cfg : MetaConfig} {s : RpcServer MetaServer} {slots : List Mem}

/-- A request that is not answered gives away the word an earlier request left. -/
theorem word_of_replyBytes {slot slot' : Mem} {x : Nat}
    (hnot : ¬ (MetaReq.decode cfg.layout slot).Determined cfg
      (s.serveAll cfg (slots ++ [slot'])).app.info)
    (hx : (MetaReq.decode cfg.layout slot').written cfg (s.serveAll cfg slots).app.info =
      Word.toBytes 8 x) :
    (replyBytes cfg (s.serveAll cfg (slots ++ [slot'])) slot).take 8 = Word.toBytes 8 x := by
  obtain ⟨hwritten, hlen⟩ := written_of_not_determined hnot
  rw [replyBytes_eq, hwritten, Mem.write_nil, Mem.read_take hlen, serveAll_concat, handleOne_meta]
  dsimp only
  rw [hx, Mem.read_write_take (by simp), List.take_of_length_le (by simp)]

/-- A dummy request leaves the registry as it is. -/
theorem sameInfo_dummy :
    SameInfo (s.serveAll cfg (slots ++ [requestSlot RPCReqType.dummy.value []]))
      (s.serveAll cfg slots) := by
  rw [serveAll_concat, handleOne_meta, decode_dummy]
  exact SameInfo.refl (s.serveAll cfg slots)

/-- So does deregistering a gid that is not registered. -/
theorem sameInfo_deregister {gid : Gid}
    (hfree : (s.serveAll cfg slots).app.info.get (cfg.gidToStr gid) = none) :
    SameInfo (s.serveAll cfg (slots ++ [deregisterSlot gid])) (s.serveAll cfg slots) := by
  intro key
  rw [serveAll_concat, handleOne_meta, decode_deregister]
  by_cases hkey : key = cfg.gidToStr gid
  · subst hkey
    rw [MetaServer.apply, MetaServer.deregister, MetaInfo.get_erase_self, hfree]
  · rw [MetaServer.apply, MetaServer.deregister, MetaInfo.get_erase_of_ne hkey]

/-- So does registering an endpoint again. -/
theorem sameInfo_register {gid : Gid} {port : Nat} {point : EndPoint} (hport : port < 256 ^ 8)
    (hpoint : (s.serveAll cfg slots).app.info.get (cfg.gidToStr gid) = some point) :
    SameInfo (s.serveAll cfg (slots ++ [registerSlot cfg.layout gid port point]))
      (s.serveAll cfg slots) := by
  intro key
  rw [serveAll_concat, handleOne_meta, decode_register cfg.layout gid hport]
  by_cases hkey : key = cfg.gidToStr gid
  · subst hkey
    rw [MetaServer.apply, MetaServer.register, MetaInfo.get_insert_self, hpoint]
    rfl
  · rw [MetaServer.apply, MetaServer.register, MetaInfo.get_insert_of_ne _ hkey]

/-- The registry can be kept while different words are left in the send buffer. -/
theorem exists_words (cfg : MetaConfig) (s : RpcServer MetaServer) (slots : List Mem) :
    ∃ slot₁ slot₂ x y, Word.toBytes 8 x ≠ Word.toBytes 8 y ∧
      SameInfo (s.serveAll cfg (slots ++ [slot₁])) (s.serveAll cfg slots) ∧
      SameInfo (s.serveAll cfg (slots ++ [slot₂])) (s.serveAll cfg slots) ∧
      (MetaReq.decode cfg.layout slot₁).written cfg (s.serveAll cfg slots).app.info =
        Word.toBytes 8 x ∧
      (MetaReq.decode cfg.layout slot₂).written cfg (s.serveAll cfg slots).app.info =
        Word.toBytes 8 y := by
  cases hgid : (s.serveAll cfg slots).app.info.get (cfg.gidToStr 0) with
  | none =>
    refine ⟨requestSlot RPCReqType.dummy.value [], deregisterSlot 0, 1024, 0, by decide,
      sameInfo_dummy, sameInfo_deregister hgid, ?_, ?_⟩
    · rw [decode_dummy, MetaReq.written]
    · rw [decode_deregister, MetaReq.written]
  | some point =>
    -- The replies to a registration are the addresses of the regions.
    refine ⟨registerSlot cfg.layout 0 0 point, registerSlot cfg.layout 0 1 point, cfg.memPa 0,
      cfg.memPa 1, fun heq => ?_, sameInfo_register (by decide) hgid,
      sameInfo_register (by decide) hgid, ?_, ?_⟩
    · have hword := congrArg Word.ofBytes heq
      rw [Word.ofBytes_toBytes_of_lt (cfg.memPa_lt 0),
        Word.ofBytes_toBytes_of_lt (cfg.memPa_lt 1)] at hword
      have hapart := cfg.apart 0 1 (by decide)
      simp only [globalMemSz] at hapart
      omega
    · rw [decode_register cfg.layout 0 (by decide), MetaReq.written]
      rfl
    · rw [decode_register cfg.layout 0 (by decide), MetaReq.written]
      rfl

end RpcServer

open RpcServer in
/-- The reply to a request is the same after all histories that lead to the same
    `META_INFO` exactly if the request has a handler and, if it is a query, its
    gid is registered. -/
theorem replies_history_free_iff (cfg : MetaConfig) (s : RpcServer MetaServer) (slots : List Mem)
    (slot : Mem) :
    (∀ slots₁ slots₂, SameInfo (s.serveAll cfg slots₁) (s.serveAll cfg slots) →
        SameInfo (s.serveAll cfg slots₂) (s.serveAll cfg slots) →
        replyBytes cfg (s.serveAll cfg slots₁) slot =
          replyBytes cfg (s.serveAll cfg slots₂) slot) ↔
      (MetaReq.decode cfg.layout slot).Determined cfg (s.serveAll cfg slots).app.info := by
  constructor
  · intro hall
    by_contra hnot
    obtain ⟨slot₁, slot₂, x, y, hne, hsame₁, hsame₂, hx, hy⟩ := exists_words cfg s slots
    have hnot' : ∀ slot', SameInfo (s.serveAll cfg (slots ++ [slot'])) (s.serveAll cfg slots) →
        ¬ (MetaReq.decode cfg.layout slot).Determined cfg
          (s.serveAll cfg (slots ++ [slot'])).app.info :=
      fun slot' hsame hdet => hnot (Determined.congr (fun key => (hsame key).symm) hdet)
    refine hne ?_
    rw [← word_of_replyBytes (hnot' slot₁ hsame₁) hx, ← word_of_replyBytes (hnot' slot₂ hsame₂) hy,
      hall _ _ hsame₁ hsame₂]
  · intro h slots₁ slots₂ hsame₁ hsame₂
    rw [replyBytes_of_determined (Determined.congr hsame₁ h),
      replyBytes_of_determined (Determined.congr hsame₂ h), written_congr hsame₁,
      written_congr hsame₂]

/-! ## A reply with another node's endpoint -/

/-- A server that node 1 has registered with, and that may have answered a query
    for it. -/
def served (queried : Bool) : RpcServer MetaServer :=
  RpcServer.serveAll MetaConfig.sample MetaServer.boot
    (registerSlot EndPointLayout.packed 1 0 nodeOne :: if queried then [querySlot 1] else [])

/-- After a query for node 1, a query for the unregistered node 2 and a request
    of the unknown type 9 get the endpoint of node 1, which they do not without
    it. The registry is the same. -/
theorem query_yields_other_endpoint :
    (served true).SameInfo (served false) ∧
    (served true).app.info.get (MetaConfig.sample.gidToStr 2) = none ∧
    RpcServer.replyBytes MetaConfig.sample (served true) (querySlot 2) =
      EndPointLayout.packed.enc nodeOne ∧
    RpcServer.replyBytes MetaConfig.sample (served true) (requestSlot 9 []) =
      EndPointLayout.packed.enc nodeOne ++ List.replicate 8 0 ∧
    RpcServer.replyBytes MetaConfig.sample (served false) (querySlot 2) =
      List.replicate 56 0 := by
  refine ⟨fun _ => rfl, rfl, ?_, ?_, ?_⟩
  · decide +kernel
  · decide +kernel
  · decide +kernel
