-- SUMMARY: Two ends that find each other with three messages over a network that loses, repeats and reorders: what one end believes about the other.
import Mathlib.Data.Set.Insert

/-!
# Rendezvous

An end at a place asks another place for a connection. There a new end takes the offer and
answers it, the first end joins, and confirms. An end is known by its place and an identifier,
and it is used for one connection. Whatever was sent can arrive at its destination any number
of times, at any time, or never, and an end can close at any time.

An end looks at the identifiers in a message and not at the place it comes from. `Inv` is
what makes this enough: an end that has joined is joined with the one end that its messages
came from, and both know what the other one has said.
-/

namespace Rendezvous

/-- What an end at a place in `N` with an identifier in `I` has said and heard in `P`. -/
inductive End (N I P : Type*) where
  | unused
  | asked (dst : N) (mine : P)
  | offered (src : N) (peer : I) (theirs : P)
  | answered (src : N) (peer : I) (mine theirs : P)
  | joined (active : Bool) (other : N) (peer : I) (mine theirs : P)
  | gone

inductive Msg (N I P : Type*) where
  | ask (src dst : N) (id : I) (mine : P)
  | answer (src dst : N) (id peer : I) (mine : P)
  /-- Sent only by an end that has joined. -/
  | confirm (src dst : N) (id peer : I)

/-- What the end has heard from the other one, for as long as it is not gone. -/
def End.Heard {N I P : Type*} (other : N) (peer : I) (theirs : P) : End N I P → Prop
  | .offered n i p => n = other ∧ i = peer ∧ p = theirs
  | .answered n i _ p => n = other ∧ i = peer ∧ p = theirs
  | .joined _ n i _ p => n = other ∧ i = peer ∧ p = theirs
  | .gone => True
  | _ => False

structure Net (N I P : Type*) where
  ends : N → I → End N I P
  /-- All messages that were ever sent. -/
  sent : Set (Msg N I P)

namespace Msg

variable {N I P : Type*}

def sender : Msg N I P → N × I
  | .ask src _ id _ => (src, id)
  | .answer src _ id _ _ => (src, id)
  | .confirm src _ id _ => (src, id)

end Msg

namespace Net

variable {N I P : Type*}

def init : Net N I P := ⟨fun _ _ => .unused, ∅⟩

def send (s : Net N I P) (m : Msg N I P) : Net N I P := { s with sent := insert m s.sent }

def set [DecidableEq N] [DecidableEq I] (s : Net N I P) (n : N) (i : I) (e : End N I P) : Net N I P :=
  { s with ends := fun n' i' => if (n', i') = (n, i) then e else s.ends n' i' }

theorem set_ends_self [DecidableEq N] [DecidableEq I] (s : Net N I P) (n : N) (i : I) (e : End N I P) :
    (s.set n i e).ends n i = e := if_pos rfl

theorem set_ends_of_ne [DecidableEq N] [DecidableEq I] (s : Net N I P) {n n' : N} {i i' : I}
    (e : End N I P) (h : (n', i') ≠ (n, i)) : (s.set n i e).ends n' i' = s.ends n' i' := if_neg h

end Net

section Moves

variable {N I P : Type*} [DecidableEq N] [DecidableEq I]

/-- One step of an end. A message finds its end by the identifiers alone. -/
inductive Move (s : Net N I P) : Net N I P → Prop
  | ask {n : N} {i : I} (dst : N) (mine : P) (h : s.ends n i = .unused) :
      Move s ((s.set n i (.asked dst mine)).send (.ask n dst i mine))
  | offer {n src : N} {i peer : I} {theirs : P} (hm : .ask src n peer theirs ∈ s.sent)
      (h : s.ends n i = .unused) : Move s (s.set n i (.offered src peer theirs))
  | answer {n src : N} {i peer : I} {theirs : P} (mine : P)
      (h : s.ends n i = .offered src peer theirs) :
      Move s ((s.set n i (.answered src peer mine theirs)).send (.answer n src i peer mine))
  | join {n src dst : N} {i peer : I} {mine theirs : P} (hm : .answer src n peer i theirs ∈ s.sent)
      (h : s.ends n i = .asked dst mine) : Move s (s.set n i (.joined true dst peer mine theirs))
  | confirm {n other : N} {i peer : I} {active : Bool} {mine theirs : P}
      (h : s.ends n i = .joined active other peer mine theirs) :
      Move s (s.send (.confirm n other i peer))
  | confirmed {n src src' : N} {i peer : I} {mine theirs : P} (hm : .confirm src' n peer i ∈ s.sent)
      (h : s.ends n i = .answered src peer mine theirs) :
      Move s (s.set n i (.joined false src peer mine theirs))
  | close (n : N) (i : I) : Move s (s.set n i .gone)

/-- What was heard stays. -/
theorem Move.heard {s t : Net N I P} (hm : Move s t) {n other : N} {i peer : I} {theirs : P}
    (h : (s.ends n i).Heard other peer theirs) : (t.ends n i).Heard other peer theirs := by
  have hset : ∀ {n' i' e}, (s.ends n' i' = s.ends n i → (s.ends n i).Heard other peer theirs →
      e.Heard other peer theirs) → ((s.set n' i' e).ends n i).Heard other peer theirs := by
    intro n' i' e he
    by_cases heq : (n, i) = (n', i')
    · cases heq
      rw [s.set_ends_self]
      exact he rfl h
    · rw [s.set_ends_of_ne e heq]
      exact h
  cases hm with
  | ask _ _ hend | offer _ hend | join _ hend =>
    refine hset fun heq h => ?_
    rw [← heq, hend] at h
    exact h.elim
  | answer _ hend | confirmed _ hend =>
    refine hset fun heq h => ?_
    rw [← heq, hend] at h
    exact h
  | confirm => exact h
  | close => exact hset fun _ _ => trivial

/-- The states that ends can reach. -/
inductive Reachable : Net N I P → Prop
  | init : Reachable .init
  | move {s t : Net N I P} (hs : Reachable s) (hm : Move s t) : Reachable t

end Moves

/-! ## What was sent -/

section Inv

variable {N I P : Type*} {sent : Set (Msg N I P)} {m : Msg N I P} {n d : N} {i j : I} {p q : P}

/-- All that an end has sent is in `ms`. -/
def Says (sent : Set (Msg N I P)) (n : N) (i : I) (ms : Set (Msg N I P)) : Prop :=
  ∀ m ∈ sent, m.sender = (n, i) → m ∈ ms

theorem Says.insert {ms : Set (Msg N I P)} (h : Says sent n i ms)
    (hm : m.sender = (n, i) → m ∈ ms) : Says (insert m sent) n i ms := by
  rintro m' (rfl | hmem) hsender
  · exact hm hsender
  · exact h m' hmem hsender

theorem Says.mono {ms ms' : Set (Msg N I P)} (h : Says sent n i ms) (hsub : ms ⊆ ms') :
    Says sent n i ms' := fun m hm hsender => hsub (h m hm hsender)

/-- What the messages say about each other. -/
structure SentOk (sent : Set (Msg N I P)) : Prop where
  ask_unique : ∀ {n d d' i p p'}, .ask n d i p ∈ sent → .ask n d' i p' ∈ sent → d = d' ∧ p = p'
  answer_unique : ∀ {n d d' i j j' p p'}, .answer n d i j p ∈ sent → .answer n d' i j' p' ∈ sent →
    d = d' ∧ j = j' ∧ p = p'
  answer_asked : ∀ {n d i j p}, .answer n d i j p ∈ sent → ∃ q, .ask d n j q ∈ sent
  confirm_peer : ∀ {n d i j}, .confirm n d i j ∈ sent →
    (∃ q, .answer d n j i q ∈ sent) ∨ ∃ q, .ask d n j q ∈ sent

/-- What an end has sent, and what it has received. -/
def EndOk (sent : Set (Msg N I P)) (n : N) (i : I) : End N I P → Prop
  | .unused => Says sent n i ∅
  | .asked d p => .ask n d i p ∈ sent ∧ Says sent n i {.ask n d i p}
  | .offered d j q => .ask d n j q ∈ sent ∧ Says sent n i ∅
  | .answered d j p q =>
    .ask d n j q ∈ sent ∧ .answer n d i j p ∈ sent ∧ Says sent n i {.answer n d i j p}
  | .joined true d j p q =>
    .ask n d i p ∈ sent ∧ .answer d n j i q ∈ sent ∧
      Says sent n i {.ask n d i p, .confirm n d i j}
  | .joined false d j p q =>
    .ask d n j q ∈ sent ∧ .answer n d i j p ∈ sent ∧ .confirm d n j i ∈ sent ∧
      Says sent n i {.answer n d i j p, .confirm n d i j}
  | .gone => True

/-- Messages of other ends do not matter. -/
theorem EndOk.insert {e : End N I P} (h : EndOk sent n i e) (hm : m.sender ≠ (n, i)) :
    EndOk (insert m sent) n i e := by
  have hmem : ∀ {m'}, m' ∈ sent → m' ∈ Insert.insert m sent := Set.mem_insert_of_mem m
  have hsays : ∀ {ms}, Says sent n i ms → Says (Insert.insert m sent) n i ms :=
    fun hs => hs.insert fun hsender => absurd hsender hm
  match e, h with
  | .unused, h => exact hsays h
  | .asked .., ⟨hask, hs⟩ => exact ⟨hmem hask, hsays hs⟩
  | .offered .., ⟨hask, hs⟩ => exact ⟨hmem hask, hsays hs⟩
  | .answered .., ⟨hask, hanswer, hs⟩ => exact ⟨hmem hask, hmem hanswer, hsays hs⟩
  | .joined true .., ⟨hask, hanswer, hs⟩ => exact ⟨hmem hask, hmem hanswer, hsays hs⟩
  | .joined false .., ⟨hask, hanswer, hconfirm, hs⟩ =>
    exact ⟨hmem hask, hmem hanswer, hmem hconfirm, hsays hs⟩
  | .gone, _ => exact trivial

structure Inv (s : Net N I P) : Prop where
  sent : SentOk s.sent
  ends : ∀ n i, EndOk s.sent n i (s.ends n i)

theorem Inv.init : Inv (Net.init : Net N I P) where
  sent := ⟨fun h => h.elim, fun h => h.elim, fun h => h.elim, fun h => h.elim⟩
  ends _ _ := fun _ hm => hm.elim

theorem SentOk.ask (h : SentOk sent) (hnone : Says sent n i ∅) (d : N) (p : P) :
    SentOk (insert (.ask n d i p) sent) where
  ask_unique := by
    rintro n₁ d₁ d₂ i₁ p₁ p₂ (h₁ | h₁) (h₂ | h₂)
    · cases h₁
      cases h₂
      exact ⟨rfl, rfl⟩
    · cases h₁
      exact (hnone _ h₂ rfl).elim
    · cases h₂
      exact (hnone _ h₁ rfl).elim
    · exact h.ask_unique h₁ h₂
  answer_unique h₁ h₂ := h.answer_unique (h₁.resolve_left nofun) (h₂.resolve_left nofun)
  answer_asked h₁ := (h.answer_asked (h₁.resolve_left nofun)).imp fun _ => .inr
  confirm_peer h₁ := (h.confirm_peer (h₁.resolve_left nofun)).imp (.imp fun _ => .inr)
    (.imp fun _ => .inr)

theorem SentOk.answer (h : SentOk sent) (hnone : Says sent n i ∅) (hask : .ask d n j q ∈ sent) (p : P) :
    SentOk (insert (.answer n d i j p) sent) where
  ask_unique h₁ h₂ := h.ask_unique (h₁.resolve_left nofun) (h₂.resolve_left nofun)
  answer_unique := by
    rintro n₁ d₁ d₂ i₁ j₁ j₂ p₁ p₂ (h₁ | h₁) (h₂ | h₂)
    · cases h₁
      cases h₂
      exact ⟨rfl, rfl, rfl⟩
    · cases h₁
      exact (hnone _ h₂ rfl).elim
    · cases h₂
      exact (hnone _ h₁ rfl).elim
    · exact h.answer_unique h₁ h₂
  answer_asked := by
    rintro n₁ d₁ i₁ j₁ p₁ (h₁ | h₁)
    · cases h₁
      exact ⟨q, .inr hask⟩
    · exact (h.answer_asked h₁).imp fun _ => .inr
  confirm_peer h₁ := (h.confirm_peer (h₁.resolve_left nofun)).imp (.imp fun _ => .inr)
    (.imp fun _ => .inr)

theorem SentOk.confirm (h : SentOk sent)
    (hpeer : (∃ q, .answer d n j i q ∈ sent) ∨ ∃ q, .ask d n j q ∈ sent) :
    SentOk (insert (.confirm n d i j) sent) where
  ask_unique h₁ h₂ := h.ask_unique (h₁.resolve_left nofun) (h₂.resolve_left nofun)
  answer_unique h₁ h₂ := h.answer_unique (h₁.resolve_left nofun) (h₂.resolve_left nofun)
  answer_asked h₁ := (h.answer_asked (h₁.resolve_left nofun)).imp fun _ => .inr
  confirm_peer := by
    rintro n₁ d₁ i₁ j₁ (h₁ | h₁)
    · cases h₁
      exact hpeer.imp (.imp fun _ => .inr) (.imp fun _ => .inr)
    · exact (h.confirm_peer h₁).imp (.imp fun _ => .inr) (.imp fun _ => .inr)

end Inv

section Steps

variable {N I P : Type*} [DecidableEq N] [DecidableEq I] {s t : Net N I P} {n d : N} {i j : I} {p q : P}

/-- An end changes, and may send a message. -/
theorem Inv.set {e : End N I P} (h : Inv s) (he : EndOk s.sent n i e) : Inv (s.set n i e) where
  sent := h.sent
  ends n' i' := by
    change EndOk s.sent n' i' (if (n', i') = (n, i) then e else s.ends n' i')
    split
    case isTrue heq =>
      cases heq
      exact he
    case isFalse => exact h.ends n' i'

theorem Inv.send {m : Msg N I P} (h : Inv s) (hsent : SentOk (insert m s.sent))
    (he : EndOk (insert m s.sent) m.sender.1 m.sender.2 (s.ends m.sender.1 m.sender.2)) :
    Inv (s.send m) where
  sent := hsent
  ends n' i' := by
    change EndOk (insert m s.sent) n' i' (s.ends n' i')
    by_cases heq : m.sender = (n', i')
    · rw [heq] at he
      exact he
    · exact (h.ends n' i').insert heq

/-- What an end says when it starts to speak. -/
theorem Inv.setSend {e : End N I P} {m : Msg N I P} (h : Inv s) (hm : m.sender = (n, i))
    (hsent : SentOk (insert m s.sent)) (he : EndOk (insert m s.sent) n i e) :
    Inv ((s.set n i e).send m) where
  sent := hsent
  ends n' i' := by
    change EndOk (insert m s.sent) n' i' (if (n', i') = (n, i) then e else s.ends n' i')
    split
    case isTrue heq =>
      cases heq
      exact he
    case isFalse hne => exact (h.ends n' i').insert fun heq => hne (heq.symm.trans hm)

omit [DecidableEq N] [DecidableEq I] in
/-- An answer comes from where the request went to. -/
theorem Inv.asked_src {src : N} (h : Inv s) (hend : s.ends n i = .asked d p)
    (hm : .answer src n j i q ∈ s.sent) : src = d := by
  obtain ⟨hask, -⟩ : EndOk s.sent n i (.asked d p) := hend ▸ h.ends n i
  obtain ⟨q', hask'⟩ := h.sent.answer_asked hm
  exact (h.sent.ask_unique hask' hask).1

theorem Inv.step (h : Inv s) (hm : Move s t) : Inv t := by
  cases hm with
  | @ask n i d p hend =>
    have hnone := h.ends n i
    rw [hend] at hnone
    refine h.setSend rfl (h.sent.ask hnone d p) ⟨.inl rfl, ?_⟩
    exact (hnone.mono (Set.empty_subset _)).insert fun _ => rfl
  | @offer n src i j q hm hend =>
    have hnone := h.ends n i
    rw [hend] at hnone
    exact h.set ⟨hm, hnone⟩
  | @answer n d i j q p hend =>
    obtain ⟨hask, hnone⟩ : EndOk s.sent n i (.offered d j q) := hend ▸ h.ends n i
    refine h.setSend rfl (h.sent.answer hnone hask p) ⟨.inr hask, .inl rfl, ?_⟩
    exact (hnone.mono (Set.empty_subset _)).insert fun _ => rfl
  | @join n src d i j p q hm hend =>
    obtain rfl := h.asked_src hend hm
    obtain ⟨hask, hsays⟩ : EndOk s.sent n i (.asked src p) := hend ▸ h.ends n i
    exact h.set ⟨hask, hm, hsays.mono (Set.singleton_subset_iff.mpr (.inl rfl))⟩
  | @confirm n d i j active p q hend =>
    have hjoined := h.ends n i
    rw [hend] at hjoined
    cases active with
    | true =>
      obtain ⟨hask, hanswer, hsays⟩ := hjoined
      refine h.send (h.sent.confirm (.inl ⟨q, hanswer⟩)) ?_
      change EndOk _ n i (s.ends n i)
      rw [hend]
      exact ⟨.inr hask, .inr hanswer, hsays.insert fun _ => .inr rfl⟩
    | false =>
      obtain ⟨hask, hanswer, hconfirm, hsays⟩ := hjoined
      refine h.send (h.sent.confirm (.inr ⟨q, hask⟩)) ?_
      change EndOk _ n i (s.ends n i)
      rw [hend]
      exact ⟨.inr hask, .inr hanswer, .inr hconfirm, hsays.insert fun _ => .inr rfl⟩
  | @confirmed n d src i j p q hm hend =>
    obtain ⟨hask, hanswer, hsays⟩ : EndOk s.sent n i (.answered d j p q) := hend ▸ h.ends n i
    -- the sender of the confirmation has this end's answer, or was asked by this end
    rcases h.sent.confirm_peer hm with ⟨q', hanswer'⟩ | ⟨q', hask'⟩
    · obtain ⟨rfl, -⟩ := h.sent.answer_unique hanswer hanswer'
      exact h.set ⟨hask, hanswer, hm, hsays.mono (Set.singleton_subset_iff.mpr (.inl rfl))⟩
    · exact nomatch hsays _ hask' rfl
  | close n i => exact h.set trivial

theorem Reachable.inv (h : Reachable s) : Inv s := by
  induction h with
  | init => exact .init
  | move _ hm ih => exact ih.step hm

end Steps

/-! ## What an end knows -/

section Peers

variable {N I P : Type*} {s : Net N I P} {n d src : N} {i j j' : I} {p q q' : P} {active : Bool}

/-- Every answer to an end that has joined comes from its peer's place. -/
theorem Inv.answer_src (h : Inv s) (hend : s.ends n i = .joined active d j p q)
    (hm : .answer src n j' i q' ∈ s.sent) : src = d := by
  obtain ⟨p', hask⟩ := h.sent.answer_asked hm
  have hjoined := h.ends n i
  rw [hend] at hjoined
  cases active with
  | true => exact (h.sent.ask_unique hask hjoined.1).1
  | false =>
    -- an end that has answered has not asked
    rcases hjoined.2.2.2 _ hask rfl with heq | heq <;> cases heq

/-- An end that has joined on an answer: the one that answered knows it. -/
theorem Inv.active_peer (h : Inv s) (hend : s.ends n i = .joined true d j p q) :
    s.ends d j = .answered n i q p ∨ s.ends d j = .joined false n i q p ∨ s.ends d j = .gone := by
  obtain ⟨hask, hanswer, -⟩ : EndOk s.sent n i (.joined true d j p q) := hend ▸ h.ends n i
  have hpeer := h.ends d j
  match hd : s.ends d j with
  | .unused =>
    rw [hd] at hpeer
    exact (hpeer _ hanswer rfl).elim
  | .asked .. =>
    rw [hd] at hpeer
    exact nomatch hpeer.2 _ hanswer rfl
  | .offered .. =>
    rw [hd] at hpeer
    exact (hpeer.2 _ hanswer rfl).elim
  | .answered .. =>
    rw [hd] at hpeer
    obtain ⟨rfl, rfl, rfl⟩ := h.sent.answer_unique hpeer.2.1 hanswer
    obtain ⟨-, rfl⟩ := h.sent.ask_unique hpeer.1 hask
    exact .inl rfl
  | .joined true .. =>
    rw [hd] at hpeer
    rcases hpeer.2.2 _ hanswer rfl with heq | heq <;> cases heq
  | .joined false .. =>
    rw [hd] at hpeer
    obtain ⟨rfl, rfl, rfl⟩ := h.sent.answer_unique hpeer.2.1 hanswer
    obtain ⟨-, rfl⟩ := h.sent.ask_unique hpeer.1 hask
    exact .inr (.inl rfl)
  | .gone => exact .inr (.inr rfl)

/-- An end that was confirmed: the one that confirmed had joined with it. -/
theorem Inv.passive_peer (h : Inv s) (hend : s.ends n i = .joined false d j p q) :
    s.ends d j = .joined true n i q p ∨ s.ends d j = .gone := by
  obtain ⟨hask, hanswer, hconfirm, -⟩ : EndOk s.sent n i (.joined false d j p q) := hend ▸ h.ends n i
  have hpeer := h.ends d j
  match hd : s.ends d j with
  | .unused =>
    rw [hd] at hpeer
    exact (hpeer _ hask rfl).elim
  | .asked .. =>
    rw [hd] at hpeer
    exact nomatch hpeer.2 _ hconfirm rfl
  | .offered .. =>
    rw [hd] at hpeer
    exact (hpeer.2 _ hask rfl).elim
  | .answered .. =>
    rw [hd] at hpeer
    exact nomatch hpeer.2.2 _ hask rfl
  | .joined true .. =>
    rw [hd] at hpeer
    obtain ⟨rfl, rfl⟩ := h.sent.ask_unique hpeer.1 hask
    rcases hpeer.2.2 _ hconfirm rfl with heq | heq
    · cases heq
    · cases heq
      obtain ⟨-, -, rfl⟩ := h.sent.answer_unique hpeer.2.1 hanswer
      exact .inl rfl
  | .joined false .. =>
    rw [hd] at hpeer
    rcases hpeer.2.2.2 _ hask rfl with heq | heq <;> cases heq
  | .gone => exact .inr rfl

end Peers

end Rendezvous
