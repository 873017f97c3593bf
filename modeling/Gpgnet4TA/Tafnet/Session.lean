import Gpgnet4TA.Tafnet.Refinement

/-!
# Sessions of two nodes

Every event of the link is, at the node where it happens, one of the cases of
`Did`; `connectToPeer` is a reset followed by the greeting. For one direction the
link is in step with a reachable channel (`Agrees`) as long as a side does not mix
reliable data of two sessions of its peer and acknowledgements are read in the
sessions for which they were written.
-/

namespace Gpgnet4TA.Tafnet
open Gpgnet4TA.Lib Gpgnet4TA.Lib.Arq

def Effect.readsData (x : Effect) : Bool :=
  match x.read with
  | some (.reliable _ _ _) => true
  | _ => false

theorem Effect.readsData_iff (x : Effect) :
    x.readsData = true ↔ ∃ seq action data, x.read = some (.reliable seq action data) := by
  unfold readsData
  constructor
  · intro h
    split at h
    · rename_i seq action data hr
      exact ⟨seq, action, data, hr⟩
    · cases h
  · intro hx
    obtain ⟨seq, action, data, hr⟩ := hx
    rw [hr]

namespace Link

variable {e : Ends} {l l' : Link}

def endpoint (e : Ends) (l : Link) (s : Side) : Endpoint := (l.node s).endpoint (e.id s.other)

/-- The link after an event at `s` with effect `x`. -/
def after (l : Link) (s : Side) (n : Node) (reply : ℕ) (x : Effect) : Link :=
  { l.update s n reply x.out with
    given := Function.update l.given s (l.given s ++ x.given)
    pushed := Function.update l.pushed s (l.pushed s ++ x.pushed)
    handled := Function.update l.handled s (l.handled s ++ handledIn x.out)
    popped := Function.update l.popped s (l.popped s ++ x.popped)
    heard := Function.update l.heard s (if x.readsData then some reply else l.heard s) }

/-- The first half of `connectToPeer`: a new session without the greeting. -/
def reset (e : Ends) (l : Link) (s : Side) : Link :=
  { l with
    node := Function.update l.node s ((l.node s).resetPeer (e.addr s.other) (e.id s.other))
    session := Function.update l.session s (l.session s + 1)
    given := Function.update l.given s []
    pushed := Function.update l.pushed s []
    handled := Function.update l.handled s []
    popped := Function.update l.popped s []
    heard := Function.update l.heard s none }

/-- What is known of an event at `s` other than the reset. -/
structure Acts (e : Ends) (l : Link) (s : Side) (n : Node) (reply : ℕ) (x : Effect) : Prop where
  did : Did (l.node s) n (e.id s.other) x
  routes : n.routes = (l.node s).routes
  connected : ∀ dest buf, .writeDatagram dest buf ∈ x.out → 0 < l.session s
  read : ∀ m, x.read = some m → 0 < l.session s ∧
    ∃ d ∈ l.wire, d.src = s.other ∧ reply = d.session ∧ Message.decode d.buf = some m

/-- Facts that need no assumption on sessions. -/
structure Base (e : Ends) (l : Link) : Prop where
  address : ∀ (s : Side) (q : ℕ) (a : HostAndPort),
    (l.node s).routes.1[q]? = some a → 0 < l.session s ∧ q = e.id s.other
  playerId : ∀ (s : Side) (a : HostAndPort) (q : ℕ),
    (l.node s).routes.2[a]? = some q → 0 < l.session s ∧ q = e.id s.other
  known : ∀ s, 0 < l.session s → (l.node s).routes.1[e.id s.other]? = some (e.addr s.other) ∧
    (l.node s).routes.2[e.addr s.other]? = some (e.id s.other)
  sends : ∀ s, (l.node s).SendsReliable (e.id s.other)
  tagged : ∀ d ∈ l.wire, 1 ≤ d.session ∧ d.session ≤ l.session d.src
  acks : ∀ d ∈ l.wire, ∀ seq, Message.decode d.buf = some (.tcpAck seq) →
    1 ≤ d.reply ∧ d.reply ≤ l.session d.src.other
  heard : ∀ s i, l.heard s = some i → 0 < l.session s ∧ 1 ≤ i ∧ i ≤ l.session s.other
  fresh : ∀ s, l.heard s = none → (l.endpoint e s).receive = .new ∧ l.popped s = []

theorem base_init (e : Ends) : Base e (init e) where
  address := by intro s q a h; simp [init, Node.new, Node.routes] at h
  playerId := by intro s q a h; simp [init, Node.new, Node.routes] at h
  known := by intro s h; simp [init] at h
  sends := by
    intro s seq p h
    simp [init, Node.new, Node.endpoint, Node.sendBufferOf, DataBuffer.new, DataBuffer.get] at h
  tagged := by intro d h; simp [init] at h
  acks := by intro d h; simp [init] at h
  heard := by intro s i h; simp [init] at h
  fresh := by
    intro s _
    simp [init, endpoint, Node.new, Node.endpoint, Node.receiveBufferOf]

theorem mem_written {s : Side} {session reply : ℕ} {out : List Output} {d : Datagram}
    (h : d ∈ written s session reply out) :
    d.src = s ∧ d.session = session ∧ d.reply = reply ∧ .writeDatagram d.dest d.buf ∈ out := by
  obtain ⟨o, ho, he⟩ := List.mem_filterMap.mp h
  cases o with
  | writeDatagram dest buf =>
    cases he
    exact ⟨rfl, rfl, rfl, ho⟩
  | handleMessage action peer data => cases he

section fields

variable (l : Link) (s : Side) (n : Node) (reply : ℕ) (x : Effect)

@[simp] theorem after_session : (l.after s n reply x).session = l.session := rfl
@[simp] theorem after_node : (l.after s n reply x).node = Function.update l.node s n := rfl
@[simp] theorem after_wire :
    (l.after s n reply x).wire = l.wire ++ written s (l.session s) reply x.out := rfl

@[simp] theorem endpoint_after_self :
    (l.after s n reply x).endpoint e s = n.endpoint (e.id s.other) := by
  simp [endpoint]

@[simp] theorem endpoint_after_other :
    (l.after s n reply x).endpoint e s.other = l.endpoint e s.other := by
  simp [endpoint, Function.update_of_ne s.other_ne]

@[simp] theorem endpoint_reset_self : (l.reset e s).endpoint e s = .new := by
  simp [endpoint, reset, Node.endpoint_resetPeer]

@[simp] theorem endpoint_reset_other :
    (l.reset e s).endpoint e s.other = l.endpoint e s.other := by
  simp [endpoint, reset, Function.update_of_ne s.other_ne]

end fields

theorem side_cases {P : Side → Prop} (s : Side) (h1 : P s) (h2 : P s.other) : ∀ t, P t := by
  intro t
  cases s <;> cases t <;> assumption

theorem Base.reset (hb : Base e l) (s : Side) : Base e (l.reset e s) := by
  have hsess : ∀ t, l.session t ≤ (l.reset e s).session t := by
    refine side_cases s ?_ ?_
    · simp [Link.reset]
    · simp [Link.reset, Function.update_of_ne s.other_ne]
  have hroutes : ((l.reset e s).node s).routes =
      ((l.node s).routes.1.insert (e.id s.other) (e.addr s.other),
        (l.node s).routes.2.insert (e.addr s.other) (e.id s.other)) := by
    simp [Link.reset, Node.routes_resetPeer]
  have hother : (l.reset e s).node s.other = l.node s.other := by
    simp [Link.reset, Function.update_of_ne s.other_ne]
  have hpos : 0 < (l.reset e s).session s := by simp [Link.reset]
  constructor
  case address =>
    refine side_cases s ?_ ?_
    · intro q a h
      rw [hroutes] at h
      refine ⟨hpos, ?_⟩
      simp only [Std.ExtTreeMap.getElem?_insert] at h
      split at h
      · rename_i hq
        exact (Nat.compare_eq_eq.mp hq).symm
      · exact (hb.address s q a h).2
    · intro q a h
      rw [hother] at h
      have := hb.address s.other q a h
      exact ⟨lt_of_lt_of_le this.1 (hsess _), this.2⟩
  case playerId =>
    refine side_cases s ?_ ?_
    · intro a q h
      rw [hroutes] at h
      refine ⟨hpos, ?_⟩
      simp only [Std.ExtTreeMap.getElem?_insert] at h
      split at h
      · exact (Option.some.inj h).symm
      · exact (hb.playerId s a q h).2
    · intro a q h
      rw [hother] at h
      have := hb.playerId s.other a q h
      exact ⟨lt_of_lt_of_le this.1 (hsess _), this.2⟩
  case known =>
    refine side_cases s ?_ ?_
    · intro _
      rw [hroutes]
      simp
    · intro h
      rw [hother]
      refine hb.known s.other ?_
      simpa [Link.reset, Function.update_of_ne s.other_ne] using h
  case sends =>
    refine side_cases s ?_ ?_
    · intro seq p h
      have hnew : ((l.reset e s).node s).endpoint (e.id s.other) = .new := endpoint_reset_self l s
      rw [hnew] at h
      simp [Endpoint.new, DataBuffer.new, DataBuffer.get] at h
    · rw [hother]
      exact hb.sends s.other
  case tagged =>
    intro d hd
    have := hb.tagged d hd
    exact ⟨this.1, this.2.trans (hsess _)⟩
  case acks =>
    intro d hd seq hdec
    have := hb.acks d hd seq hdec
    exact ⟨this.1, this.2.trans (hsess _)⟩
  case heard =>
    refine side_cases s ?_ ?_
    · intro i h
      simp [Link.reset] at h
    · intro i h
      have h' : l.heard s.other = some i := by
        simpa [Link.reset, Function.update_of_ne s.other_ne] using h
      have := hb.heard s.other i h'
      exact ⟨lt_of_lt_of_le this.1 (hsess _), this.2.1, this.2.2.trans (hsess _)⟩
  case fresh =>
    refine side_cases s ?_ ?_
    · intro _
      rw [endpoint_reset_self]
      exact ⟨rfl, by simp [Link.reset]⟩
    · intro h
      rw [endpoint_reset_other]
      have h' : l.heard s.other = none := by
        simpa [Link.reset, Function.update_of_ne s.other_ne] using h
      have := hb.fresh s.other h'
      exact ⟨this.1, by simpa [Link.reset, Function.update_of_ne s.other_ne] using this.2⟩

theorem Base.after (hb : Base e l) {s : Side} {n : Node} {reply : ℕ} {x : Effect}
    (ha : Acts e l s n reply x) : Base e (l.after s n reply x) := by
  have hreply : x.readsData = true → 0 < l.session s ∧ 1 ≤ reply ∧ reply ≤ l.session s.other := by
    intro hx
    obtain ⟨seq, action, data, hr⟩ := x.readsData_iff.mp hx
    obtain ⟨hpos, d, hd, hsrc, rfl, -⟩ := ha.read _ hr
    have ht := hb.tagged d hd
    rw [hsrc] at ht
    exact ⟨hpos, ht⟩
  constructor
  case address =>
    refine side_cases s ?_ ?_
    · intro q a h
      refine hb.address s q a ?_
      simpa [ha.routes] using h
    · intro q a h
      refine hb.address s.other q a ?_
      simpa [Function.update_of_ne s.other_ne] using h
  case playerId =>
    refine side_cases s ?_ ?_
    · intro a q h
      refine hb.playerId s a q ?_
      simpa [ha.routes] using h
    · intro a q h
      refine hb.playerId s.other a q ?_
      simpa [Function.update_of_ne s.other_ne] using h
  case known =>
    refine side_cases s ?_ ?_
    · intro h
      have := hb.known s h
      simpa [ha.routes] using this
    · intro h
      have := hb.known s.other h
      simpa [Function.update_of_ne s.other_ne] using this
  case sends =>
    refine side_cases s ?_ ?_
    · simpa using ha.did.sendsReliable (hb.sends s)
    · simpa [Function.update_of_ne s.other_ne] using hb.sends s.other
  case tagged =>
    intro d hd
    rcases List.mem_append.mp hd with hd | hd
    · exact hb.tagged d hd
    · obtain ⟨hsrc, hsess, -, hw⟩ := mem_written hd
      rw [hsess, hsrc]
      exact ⟨ha.connected _ _ hw, le_rfl⟩
  case acks =>
    intro d hd seq hdec
    rcases List.mem_append.mp hd with hd | hd
    · exact hb.acks d hd seq hdec
    · obtain ⟨hsrc, -, hrep, hw⟩ := mem_written hd
      obtain ⟨action, data, hr⟩ := ha.did.ack_written (hb.sends s) _ _ hw seq hdec
      rw [hrep, hsrc]
      exact (hreply (x.readsData_iff.mpr ⟨seq, action, data, hr⟩)).2
  case heard =>
    refine side_cases s ?_ ?_
    · intro i h
      by_cases hx : x.readsData = true
      · have hi : reply = i := by simpa [Link.after, hx] using h
        rw [← hi]
        exact hreply hx
      · exact hb.heard s i (by simpa [Link.after, hx] using h)
    · intro i h
      exact hb.heard s.other i (by simpa [Link.after, Function.update_of_ne s.other_ne] using h)
  case fresh =>
    refine side_cases s ?_ ?_
    · intro h
      by_cases hx : x.readsData = true
      · simp [Link.after, hx] at h
      · have hf := hb.fresh s (by simpa [Link.after, hx] using h)
        have hno : ∀ seq action data, x.read ≠ some (.reliable seq action data) := by
          intro seq action data hr
          exact hx (x.readsData_iff.mpr ⟨seq, action, data, hr⟩)
        obtain ⟨h1, -, h3, -⟩ := ha.did.receive_frame hno
        rw [endpoint_after_self, h1]
        exact ⟨hf.1, by simp [Link.after, h3, hf.2]⟩
    · intro h
      rw [endpoint_after_other]
      have hf := hb.fresh s.other
        (by simpa [Link.after, Function.update_of_ne s.other_ne] using h)
      exact ⟨hf.1, by simpa [Link.after, Function.update_of_ne s.other_ne] using hf.2⟩

/-! ### Every event is a reset or an effect -/

theorem update_append_nil {α : Type} (f : Side → List α) (s : Side) :
    Function.update f s (f s ++ []) = f := by
  rw [List.append_nil, Function.update_eq_self]

theorem after_quiet (l : Link) (s : Side) (n : Node) (reply : ℕ) (m : Option Message)
    (out : List Output) (hm : Idle m) (hh : handledIn out = []) :
    l.after s n reply ⟨m, out, [], [], []⟩ = l.update s n reply out := by
  have hx : (Effect.mk m out [] [] []).readsData = false := by
    rw [Bool.eq_false_iff]
    intro hr
    obtain ⟨seq, action, data, he⟩ := (Effect.readsData_iff _).mp hr
    exact hm.1 seq action data he
  simp [after, hx, hh, update]

theorem idle_none : Idle none := ⟨by simp, by simp⟩

theorem handledIn_eq_nil {out : List Output}
    (h : ∀ action peer data, .handleMessage action peer data ∈ out → action < ACTION_TCP_DATA) :
    handledIn out = [] := by
  rw [handledIn, List.filterMap_eq_nil_iff]
  intro o ho
  cases o with
  | writeDatagram dest buf => rfl
  | handleMessage action peer data => simp [Nat.not_le.mpr (h action peer data ho)]

section events

variable (hb : Base e l)
include hb

theorem forward_acts {s : Side} (now : ℤ) {action : ℕ} {data : Bytes} (hs : 0 < l.session s)
    (hact : action < ACTION_TCP_DATA ∨ action ∈ messageActions ∧ 0 < data.length) :
    ∃ n x, l.forward e s now action data = l.after s n 0 x ∧ Acts e l s n 0 x ∧ x.read = none := by
  have hknown : (l.node s).peerAddresses[e.id s.other]? = some (e.addr s.other) :=
    (hb.known s hs).1
  have hc : (l.node s).peerAddresses.contains (e.id s.other) = true := by
    rw [Std.ExtTreeMap.contains_eq_isSome_getElem?, hknown]
    rfl
  rcases hact with hlt | ⟨hmem, hlen⟩
  · have hge : ¬ ACTION_TCP_DATA ≤ action := Nat.not_le.mpr hlt
    refine ⟨((l.node s).forwardGameData now (e.id s.other) action data).1,
      ⟨none, ((l.node s).forwardGameData now (e.id s.other) action data).2, [], [], []⟩, ?_, ?_, rfl⟩
    · rw [after_quiet _ _ _ _ _ _ idle_none]
      · simp [forward, hge]
      · simp only [Node.forwardGameData, hc, if_true, if_neg hge]
        exact handledIn_sendMessage _ _ _ _ _ _
    · refine ⟨.quiet none _ idle_none ?_ ?_ ?_, ?_, fun _ _ _ => hs, by simp⟩
      · simp only [Node.forwardGameData, hc, if_true, if_neg hge, Node.endpoint_setResendRate]
      · intro dest buf hw
        simp only [Node.forwardGameData, hc, if_true, if_neg hge] at hw
        obtain ⟨addr, -, he⟩ := Node.mem_sendMessage hw
        cases he
        rw [decode_encodeMessage_other hlt]
        exact Or.inl ⟨by simp, by simp⟩
      · simp only [Node.forwardGameData, hc, if_true, if_neg hge]
        exact handledIn_sendMessage _ _ _ _ _ _
      · simp only [Node.forwardGameData, hc, if_true, if_neg hge, Node.routes_setResendRate]
  · have hge : ACTION_TCP_DATA ≤ action := by fin_cases hmem <;> decide
    have hrel : action ∈ reliableActions := by fin_cases hmem <;> decide
    have hmore : action ≠ ACTION_MORE := by fin_cases hmem <;> decide
    have hp : Reassembly.Pieces ACTION_MORE action data
        ((l.node s).fragmentsFor (e.id s.other) action data) :=
      fragments_pieces action (fragmentSize_pos _ _ _) hlen
    let n0 := ((l.node s).setSendBuffer (e.id s.other)
      ((l.node s).sendBufferOf (e.id s.other))).setResendRate (e.id s.other)
      ((l.node s).resendRateOf (e.id s.other))
    have hn0 : n0.endpoint (e.id s.other) = (l.node s).endpoint (e.id s.other) := by
      simp only [n0, Node.endpoint_setResendRate, Node.endpoint_setSendBuffer]
      rfl
    have hfwd : (l.node s).forwardGameData now (e.id s.other) action data =
        Node.sendFragments now (e.id s.other) n0
          ((l.node s).fragmentsFor (e.id s.other) action data) := by
      simp only [Node.forwardGameData, hc, if_true, if_pos hge, n0]
    have hdid := Did.push (n := l.node s) now n0 action data _ hrel hmore hp hn0 rfl
    refine ⟨_, _, ?_, ⟨hdid, ?_, fun _ _ _ => hs, by simp⟩, rfl⟩
    · have hh := (hdid.receive_frame (by simp)).2.2.2
      simp only [forward, if_pos hge, hfwd]
      simp only [after, hh, update_append_nil]
      simp [Effect.readsData, update]
    · rw [Node.routes_sendFragments]
      rfl

theorem onResendTimer_acts (s : Side) (now : ℤ) :
    ∃ n x, l.update s ((l.node s).onResendTimer now).1 0 ((l.node s).onResendTimer now).2 =
      l.after s n 0 x ∧ Acts e l s n 0 x ∧ x.read = none := by
  have hf := Node.onResendTimer_frame (l.node s) now (e.id s.other)
  have hmem : ∀ o ∈ ((l.node s).onResendTimer now).2, 0 < l.session s ∧
      ∃ addr seq p, ((l.node s).endpoint (e.id s.other)).send.get seq = some p ∧
        o = .writeDatagram addr (encodeMessage p.action seq p.buf) := by
    intro o ho
    obtain ⟨addr, peer, seq, p, hp, ha, hw⟩ := Node.mem_onResendTimer ho
    obtain ⟨hpos, rfl⟩ := hb.address s peer addr ha
    exact ⟨hpos, addr, seq, p, hp, hw⟩
  have hh : handledIn ((l.node s).onResendTimer now).2 = [] := by
    refine handledIn_eq_nil ?_
    intro action peer data ho
    obtain ⟨-, addr, seq, p, -, he⟩ := hmem _ ho
    cases he
  refine ⟨_, ⟨none, ((l.node s).onResendTimer now).2, [], [], []⟩,
    (after_quiet l s _ 0 none _ idle_none hh).symm,
    ⟨.quiet none _ idle_none hf.1 ?_ hh, hf.2, ?_, by simp⟩, rfl⟩
  · intro dest buf hw
    obtain ⟨-, addr, seq, p, hp, he⟩ := hmem _ hw
    cases he
    exact Or.inr ⟨seq, p, hp, rfl⟩
  · intro dest buf hw
    exact (hmem _ hw).1

theorem sendPacksizeTests_acts (s : Side) (now : ℤ) :
    ∃ n x, l.update s ((l.node s).sendPacksizeTests now (e.id s.other)).1 0
        ((l.node s).sendPacksizeTests now (e.id s.other)).2 = l.after s n 0 x ∧
      Acts e l s n 0 x ∧ x.read = none := by
  have hmem : ∀ o ∈ ((l.node s).sendPacksizeTests now (e.id s.other)).2, 0 < l.session s ∧
      ∃ addr size data, o = .writeDatagram addr (encodeMessage ACTION_PACKSIZE_TEST size data) := by
    intro o ho
    obtain ⟨sz, -, hsz⟩ := List.mem_flatMap.mp ho
    obtain ⟨addr, ha, he⟩ := Node.mem_sendMessage hsz
    exact ⟨(hb.address s _ addr ha).1, addr, sz, _, he⟩
  have hh : handledIn ((l.node s).sendPacksizeTests now (e.id s.other)).2 = [] := by
    refine handledIn_eq_nil ?_
    intro action peer data ho
    obtain ⟨-, addr, size, d, he⟩ := hmem _ ho
    cases he
  refine ⟨_, ⟨none, ((l.node s).sendPacksizeTests now (e.id s.other)).2, [], [], []⟩,
    (after_quiet l s _ 0 none _ idle_none hh).symm,
    ⟨.quiet none _ idle_none rfl ?_ hh, rfl, ?_, by simp⟩, rfl⟩
  · intro dest buf hw
    obtain ⟨-, addr, size, d, he⟩ := hmem _ hw
    cases he
    rw [decode_encodeMessage (by decide) (by decide)]
    exact Or.inl ⟨by simp [Message.ofAction, ACTION_PACKSIZE_TEST, ACTION_TCP_ACK, ACTION_TCP_RESEND],
      by simp [Message.ofAction, ACTION_PACKSIZE_TEST, ACTION_TCP_ACK, ACTION_TCP_RESEND]⟩
  · intro dest buf hw
    exact (hmem _ hw).1

omit hb in
theorem silent_acts (s : Side) (n : Node)
    (he : n.endpoint (e.id s.other) = (l.node s).endpoint (e.id s.other))
    (hr : n.routes = (l.node s).routes) :
    ∃ n' x, l.update s n 0 [] = l.after s n' 0 x ∧ Acts e l s n' 0 x ∧ x.read = none :=
  ⟨n, ⟨none, [], [], [], []⟩, (after_quiet l s n 0 none [] idle_none rfl).symm,
    ⟨.quiet none [] idle_none he (by simp) rfl, hr, by simp, by simp⟩, rfl⟩

theorem receive_acts {s : Side} {d : Datagram} {now : ℤ} (hd : d ∈ l.wire) (hsrc : d.src = s.other)
    (h : l.receive e s d now = some l') :
    ∃ n x, l' = l.after s n d.session x ∧ Acts e l s n d.session x ∧
      ∀ m, x.read = some m → Message.decode d.buf = some m := by
  obtain ⟨⟨n, out⟩, hr, rfl⟩ := Option.map_eq_some_iff.mp h
  cases hroute : (l.node s).routes.2[e.addr d.src]? with
  | none =>
    -- a datagram from an unknown sender is dropped
    have hroute' : (l.node s).peerPlayerIds[e.addr d.src]? = none := hroute
    obtain ⟨rfl, rfl⟩ := Node.onDatagram_unknown hroute' hr
    refine ⟨l.node s, ⟨none, [], [], [], []⟩, ?_,
      ⟨.quiet none [] idle_none rfl (by simp) rfl, rfl, by simp, by simp⟩, by simp⟩
    simp [after, Node.poppedBy, Node.reads, hroute', Effect.readsData, update]
  | some peer =>
    have hroute' : (l.node s).peerPlayerIds[e.addr d.src]? = some peer := hroute
    obtain ⟨hpos, rfl⟩ := hb.playerId s _ _ hroute
    obtain ⟨hroutes, hcases⟩ := Node.onDatagram_cases hroute hr
    have hread : ∀ m, Message.decode d.buf = some m → 0 < l.session s ∧
        ∃ d' ∈ l.wire, d'.src = s.other ∧ d.session = d'.session ∧ Message.decode d'.buf = some m :=
      fun m hm => ⟨hpos, d, hd, hsrc, rfl, hm⟩
    rcases hcases with ⟨seq, hm, rfl, he⟩ | ⟨seq, action, data, hm, he, hout⟩ | ⟨hna, hnr, he, hout⟩
    · refine ⟨n, ⟨some (.tcpAck seq), [], [], [], []⟩, ?_,
        ⟨.ack seq he, hroutes, by simp, fun m hx => hread m (hm.trans hx)⟩, fun m hx => hm.trans hx⟩
      simp [after, Node.poppedBy, Node.reads, hroute', hm, Effect.readsData, update]
    · have hh : handledIn out = ((l.node s).drainAfter now (fun _ => false) (e.id s.other) seq action
          data).handled.filter fun m => ACTION_TCP_DATA ≤ m.1 := by
        rw [hout]
        exact handledIn_onReliable _ _ _ _ _ _ _
      refine ⟨n, ⟨some (.reliable seq action data), out, [], [], _⟩, ?_,
        ⟨.receive now seq action data out (decode_reliable_action hm) (decode_reliable_lt hm) he ?_ hh,
          hroutes, fun _ _ _ => hpos, fun m hx => hread m (hm.trans hx)⟩, fun m hx => hm.trans hx⟩
      · simp [after, Node.poppedBy, Node.reads, hroute', hm, Effect.readsData, update]
      · intro dest buf hw
        rw [hout] at hw
        exact Node.writes_onReliable hw
    · have hidle : Idle (Message.decode d.buf) := ⟨fun seq action data => hnr seq action data, hna⟩
      have hh : handledIn out = [] := by
        refine handledIn_eq_nil ?_
        intro action peer data ho
        rcases hout _ ho with ⟨_, _, _, _, h1, _⟩ | ⟨_, _, h1, _⟩ | ⟨a, dd, hlt, h1⟩
        · cases h1
        · cases h1
        · cases h1
          exact hlt
      refine ⟨n, ⟨Message.decode d.buf, out, [], [], []⟩, ?_,
        ⟨.quiet _ out hidle he ?_ hh, hroutes, fun _ _ _ => hpos, hread⟩, fun m hx => hx⟩
      · rw [after_quiet _ _ _ _ _ _ hidle hh]
        have hno : (l.node s).reads (e.addr d.src) d.buf = false := by
          unfold Node.reads
          rw [hroute']
          split
          · rename_i h1 h2
            exact absurd h2 (hnr _ _ _)
          · rfl
        have hpop : (l.node s).poppedBy now (e.addr d.src) d.buf = [] := by
          unfold Node.poppedBy
          rw [hroute']
          split
          · rename_i h1 h2
            exact absurd h2 (hnr _ _ _)
          · rfl
        simp [hno, hpop, hh, update]
      · intro dest buf hw
        rcases hout _ hw with ⟨_, seq, p, hp, h1, _⟩ | ⟨_, size, h1, _⟩ | ⟨_, _, _, h1⟩
        · cases h1
          exact Or.inr ⟨seq, p, hp, rfl⟩
        · cases h1
          rw [decode_encodeMessage (by decide) (by decide)]
          exact Or.inl ⟨by simp [Message.ofAction, ACTION_PACKSIZE_ACK, ACTION_TCP_ACK, ACTION_TCP_RESEND,
            ACTION_PACKSIZE_TEST], by simp [Message.ofAction, ACTION_PACKSIZE_ACK, ACTION_TCP_ACK,
            ACTION_TCP_RESEND, ACTION_PACKSIZE_TEST]⟩
        · cases h1

end events

theorem connect_acts (hb : Base e l) (s : Side) (now : ℤ) :
    ∃ n x, l.connect e s now = (l.reset e s).after s n 0 x ∧ Acts e (l.reset e s) s n 0 x ∧
      x.read = none := by
  have hpos : 0 < (l.reset e s).session s := by simp [reset]
  obtain ⟨n, x, hl, ha, hx⟩ := forward_acts (hb.reset s) now hpos
    (Or.inr ⟨by decide, by decide⟩ : ACTION_HELLO < ACTION_TCP_DATA ∨ ACTION_HELLO ∈ messageActions ∧
      0 < Node.helloData.length)
  refine ⟨n, x, ?_, ha, hx⟩
  rw [← hl]
  have hge : ACTION_TCP_DATA ≤ ACTION_HELLO := by decide
  simp [connect, forward, hge, update, reset, Node.connectToPeer]

theorem step_cases {ev : Event} (hb : Base e l) (h : l.step e ev = some l') :
    ∃ l0 s n reply x, l' = l0.after s n reply x ∧ Base e l0 ∧ Acts e l0 s n reply x ∧
      ((l0 = l.reset e s ∧ x.read = none) ∨
        (l0 = l ∧ ∀ m, x.read = some m → ∃ i now d, ev = .deliver s i now ∧ l.wire[i]? = some d ∧
          d.src = s.other ∧ reply = d.session ∧ Message.decode d.buf = some m)) := by
  have local_step : ∀ {s n x}, l' = l.after s n 0 x → Acts e l s n 0 x → x.read = none →
      ∃ l0 s n reply x, l' = l0.after s n reply x ∧ Base e l0 ∧ Acts e l0 s n reply x ∧
        ((l0 = l.reset e s ∧ x.read = none) ∨
          (l0 = l ∧ ∀ m, x.read = some m → ∃ i now d, ev = .deliver s i now ∧ l.wire[i]? = some d ∧
            d.src = s.other ∧ reply = d.session ∧ Message.decode d.buf = some m)) := by
    intro s n x hl ha hx
    exact ⟨l, s, n, 0, x, hl, hb, ha, Or.inr ⟨rfl, by simp [hx]⟩⟩
  cases ev with
  | connectToPeer s now =>
    cases h
    obtain ⟨n, x, hl, ha, hx⟩ := connect_acts hb s now
    exact ⟨l.reset e s, s, n, 0, x, hl, hb.reset s, ha, Or.inl ⟨rfl, hx⟩⟩
  | forwardGameData s now action data =>
    simp only [step] at h
    split at h
    · rename_i hc
      cases h
      obtain ⟨n, x, hl, ha, hx⟩ := forward_acts hb now hc.1 hc.2
      exact local_step hl ha hx
    · cases h
  | onResendTimer s now =>
    cases h
    obtain ⟨n, x, hl, ha, hx⟩ := onResendTimer_acts hb s now
    exact local_step hl ha hx
  | onResendReqReenableTimer s =>
    cases h
    obtain ⟨n, x, hl, ha, hx⟩ :=
      silent_acts (e := e) s (l.node s).onResendReqReenableTimer rfl rfl
    exact local_step hl ha hx
  | sendPacksizeTests s now =>
    cases h
    obtain ⟨n, x, hl, ha, hx⟩ := sendPacksizeTests_acts hb s now
    exact local_step hl ha hx
  | setMaxPacketSize s size =>
    simp only [step] at h
    split at h
    · cases h
      obtain ⟨n, x, hl, ha, hx⟩ := silent_acts (e := e) (l := l) s
        ((l.node s).setResendRate (e.id s.other)
          { (l.node s).resendRateOf (e.id s.other) with maxPacketSize := size }) rfl rfl
      exact local_step hl ha hx
    · cases h
  | deliver s i now =>
    simp only [step] at h
    cases hd : l.wire[i]? with
    | none => simp [hd] at h
    | some d =>
      rw [hd] at h
      simp only [] at h
      split at h
      · rename_i hc
        obtain ⟨n, x, hl, ha, hm⟩ := receive_acts hb (List.mem_of_getElem? hd) hc.1 h
        exact ⟨l, s, n, d.session, x, hl, hb, ha,
          Or.inr ⟨rfl, fun m hx => ⟨i, now, d, rfl, hd, hc.1, rfl, hm m hx⟩⟩⟩
      · cases h

theorem Base.step {ev : Event} (hb : Base e l) (h : l.step e ev = some l') : Base e l' := by
  obtain ⟨l0, s, n, reply, x, rfl, hb0, ha, -⟩ := step_cases hb h
  exact hb0.after ha

end Link

end Gpgnet4TA.Tafnet
