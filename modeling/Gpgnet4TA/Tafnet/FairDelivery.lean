import Gpgnet4TA.Lib.Execution
import Gpgnet4TA.Tafnet.ReliableChannel

/-!
# Delivery over a fair network

A fragment is resent until it is acknowledged. On a network that may lose, repeat and
reorder datagrams, but lets something through of what is written again and again, every
message given to one side is handled by the other.
-/

namespace Gpgnet4TA.Tafnet
open Filter Gpgnet4TA.Lib Gpgnet4TA.Lib.Arq

/-! ### What a node writes -/

theorem ResendRate.one_le_getResendRate {r : ResendRate} (h : r.sendCount < 2 ^ 31) (inc : Bool) :
    1 ≤ (r.getResendRate inc).1 := by
  have hint : ∀ k : ℕ, 0 < k → k < 2 ^ 31 → 1 ≤ int32 k := by
    intro k h0 hk
    have he : int32 k = k := Int.bmod_eq_of_le (by omega) (by omega)
    omega
  have key : ∀ q : ResendRate, q.sendCount < 2 ^ 31 → (1 : ℤ) ≤
      (if q.sendCount ≤ q.ackCount then 1
      else if q.ackCount = 0 then int32 q.sendCount
      else int32 (q.sendCount / q.ackCount : ℕ)) := by
    intro q hq
    split
    · exact le_rfl
    · rename_i hlt
      split
      · exact hint _ (by omega) hq
      · rename_i h0
        have hdiv : q.sendCount / q.ackCount ≤ q.sendCount := Nat.div_le_self _ _
        have hpos : 0 < q.sendCount / q.ackCount := Nat.div_pos (by omega) (by omega)
        exact hint _ hpos (by omega)
  have hhalf : r.sendCount / 2 < 2 ^ 31 := by omega
  unfold getResendRate
  by_cases hack : 32 < r.ackCount
  · have h1 := key { r with sendCount := r.sendCount / 2, ackCount := r.ackCount / 2 } hhalf
    simp only [if_pos hack]
    exact le_min h1 (by norm_num)
  · have h1 := key r h
    simp only [if_neg hack]
    exact le_min h1 (by norm_num)

namespace Node

/-- The node repeats a datagram to `peer` at least once: without proactive resending it
always does; with it, the send counter must be positive as an `int`. -/
def Repeats (n : Node) (peer : ℕ) : Prop :=
  n.proactiveResendEnabled = true → (n.resendRateOf peer).sendCount < 2 ^ 31

theorem sendMessage_mem {n : Node} {peer action seq : ℕ} {data : Bytes} {k : ℤ} {addr : HostAndPort}
    (ha : n.routes.1[peer]? = some addr) (hk : n.proactiveResendEnabled = true → 1 ≤ k) :
    .writeDatagram addr (encodeMessage action seq data) ∈ n.sendMessage peer action seq data k := by
  have ha' : n.peerAddresses[peer]? = some addr := ha
  simp only [sendMessage, ha']
  refine List.mem_replicate.mpr ⟨?_, rfl⟩
  split
  · rename_i hp
    have := hk hp
    omega
  · decide

/-- The resend loop begins with the first payload, once that has timed out. -/
theorem resendLoop_first {n : Node} {peer : ℕ} {tNow timeout : ℤ} {seq : ℕ} {p : Payload}
    {rest : List (ℕ × Payload)} {stats : ResendRate} {addr : HostAndPort} (k : ℕ)
    (ha : n.routes.1[peer]? = some addr) (hlate : p.timestamp + timeout ≤ tNow)
    (hrate : n.proactiveResendEnabled = true → stats.sendCount < 2 ^ 31) :
    .writeDatagram addr (encodeMessage p.action seq p.buf) ∈
      (n.resendLoop peer tNow timeout (k + 1) ((seq, p) :: rest) stats).2 := by
  simp only [resendLoop, if_neg (not_lt.mpr hlate)]
  refine List.mem_append_left _ (sendMessage_mem ha ?_)
  intro hp
  exact ResendRate.one_le_getResendRate (hrate hp) true

theorem resendPeers_first {tNow : ℤ} {peer seq : ℕ} {b : DataBuffer} {p : Payload} {addr : HostAndPort}
    {bs : List (ℕ × DataBuffer)} {n : Node} (hb : (peer, b) ∈ bs)
    (hd : bs.Pairwise fun x y => ¬ compare x.1 y.1 = .eq) (hbegin : b.begin? = some (seq, p))
    (ha : n.routes.1[peer]? = some addr) (hlate : p.timestamp + MAX_RESEND_TIMEOUT ≤ tNow)
    (hrate : n.Repeats peer) :
    .writeDatagram addr (encodeMessage p.action seq p.buf) ∈ (resendPeers tNow n bs).2 := by
  induction bs generalizing n with
  | nil => cases hb
  | cons x rest ih =>
    obtain ⟨q, b'⟩ := x
    simp only [resendPeers]
    obtain ⟨hhead, htail⟩ := List.pairwise_cons.mp hd
    rcases List.mem_cons.mp hb with he | hmem
    · cases he
      obtain ⟨kp, hkp⟩ : ∃ ps, b.data.toList = (seq, p) :: ps := by
        unfold DataBuffer.begin? at hbegin
        cases hl : b.data.toList with
        | nil => simp [hl] at hbegin
        | cons y ys =>
          rw [hl] at hbegin
          exact ⟨ys, by rw [Option.some.inj hbegin]⟩
      rw [hkp]
      have htimeout : (n.resendRateOf peer).resendTimeout ≤ MAX_RESEND_TIMEOUT := min_le_left _ _
      exact List.mem_append_left _ (resendLoop_first 4 ha (by omega) hrate)
    · have hne : q ≠ peer := by
        intro he
        exact hhead _ hmem (Nat.compare_eq_eq.mpr he)
      refine List.mem_append_right _ (ih hmem htail ha ?_)
      intro hp
      have hsame := hrate hp
      simpa [setResendRate, resendRateOf, Std.ExtTreeMap.getD_insert, hne] using hsame

/-- Once the first payload that is not acknowledged has timed out, the timer sends it again. -/
theorem onResendTimer_first {n : Node} {tNow : ℤ} {peer seq : ℕ} {p : Payload} {addr : HostAndPort}
    (hbegin : (n.endpoint peer).send.begin? = some (seq, p)) (ha : n.routes.1[peer]? = some addr)
    (hlate : p.timestamp + MAX_RESEND_TIMEOUT ≤ tNow) (hrate : n.Repeats peer) :
    .writeDatagram addr (encodeMessage p.action seq p.buf) ∈ (n.onResendTimer tNow).2 := by
  have hb : n.sendBuffer[peer]? = some (n.sendBufferOf peer) := by
    cases h : n.sendBuffer[peer]? with
    | some b => simp [sendBufferOf, Std.ExtTreeMap.getD_eq_getD_getElem?, h]
    | none =>
      have hnew : (n.endpoint peer).send = .new := by
        simp [endpoint, sendBufferOf, Std.ExtTreeMap.getD_eq_getD_getElem?, h]
      rw [hnew] at hbegin
      cases hbegin
  exact resendPeers_first (Std.ExtTreeMap.mem_toList_iff_getElem?_eq_some.mpr hb)
    Std.ExtTreeMap.distinct_keys_toList hbegin ha hlate hrate

/-- A reliable datagram is acknowledged, whatever else it leads to. -/
theorem onReliable_acks {n : Node} {now : ℤ} {throws : ℕ → Bool} {peer seq action : ℕ} {data : Bytes}
    {addr : HostAndPort} (ha : n.routes.1[peer]? = some addr) (hrate : n.Repeats peer) :
    .writeDatagram addr (encodeMessage ACTION_TCP_ACK seq []) ∈
      (n.onReliable now throws peer seq action data).2 := by
  have hack : ∀ m : Node, m.routes = n.routes → m.proactiveResendEnabled = n.proactiveResendEnabled →
      .writeDatagram addr (encodeMessage ACTION_TCP_ACK seq []) ∈
        m.sendMessage peer ACTION_TCP_ACK seq [] ((n.resendRateOf peer).getResendRate false).1 := by
    intro m hr hp
    refine sendMessage_mem (by rw [hr]; exact ha) ?_
    intro hm
    exact ResendRate.one_le_getResendRate (hrate (hp.symm.trans hm)) false
  simp only [onReliable]
  split
  · exact List.mem_append_left _ (hack _ rfl rfl)
  · split
    · exact List.mem_append_left _ (List.mem_append_left _ (hack _ rfl rfl))
    · exact List.mem_append_left _ (hack _ rfl rfl)

/-- Pushing fragments leaves what stands under the earlier numbers. -/
theorem get_sendFragments {now : ℤ} {peer : ℕ} (fs : List Fragment) {n : Node} {k : ℕ}
    (hroom : (n.endpoint peer).send.nextPushSeq + fs.length < 2 ^ 32)
    (hk : k < (n.endpoint peer).send.nextPushSeq) :
    ((sendFragments now peer n fs).1.endpoint peer).send.get k = (n.endpoint peer).send.get k := by
  induction fs generalizing n with
  | nil => rfl
  | cons f fs ih =>
    simp only [List.length_cons] at hroom
    have he := endpoint_sendFragment n now peer f
    have hnext : ((n.sendFragment now peer f).1.endpoint peer).send.nextPushSeq =
        (n.endpoint peer).send.nextPushSeq + 1 := by
      rw [he]
      exact Nat.mod_eq_of_lt (by omega)
    have hget : ((n.sendFragment now peer f).1.endpoint peer).send.get k =
        (n.endpoint peer).send.get k := by
      rw [he]
      show ((n.endpoint peer).send.pushBack now f.1 f.2).2.get k = _
      rw [DataBuffer.get_pushBack, if_neg (by omega)]
    have hrest := ih (n := (n.sendFragment now peer f).1) (by rw [hnext]; omega) (by rw [hnext]; omega)
    exact hrest.trans hget

theorem proactive_resendPeers (now : ℤ) (bs : List (ℕ × DataBuffer)) (n : Node) :
    (resendPeers now n bs).1.proactiveResendEnabled = n.proactiveResendEnabled := by
  induction bs generalizing n with
  | nil => rfl
  | cons b bs ih => exact ih _

end Node

namespace Link

variable {e : Ends} {l l' : Link} {s : Side}

/-! ### One round of resending -/

/-- The datagrams that the step from `l` to `l'` writes. -/
def fresh (l l' : Link) : List Datagram := l'.wire.drop l.wire.length

/-- The event reads a copy of `d`. -/
def Delivers (l : Link) (ev : Event) (d : Datagram) : Prop :=
  ∃ dst i now, ev = .deliver dst i now ∧ l.wire[i]? = some d

theorem mem_fresh {l l' : Link} {t : Side} {session reply : ℕ} {out : List Output} {dest : HostAndPort}
    {buf : Bytes} (hw : l'.wire = l.wire ++ written t session reply out)
    (h : .writeDatagram dest buf ∈ out) : ⟨t, session, reply, dest, buf⟩ ∈ fresh l l' := by
  rw [fresh, hw, List.drop_left]
  exact List.mem_filterMap.mpr ⟨_, h, rfl⟩

/-- The copy of a stored payload that the resend timer of `s` writes. -/
def resent (e : Ends) (l : Link) (s : Side) (seq : ℕ) (p : Payload) : Datagram :=
  ⟨s, l.session s, 0, e.addr s.other, encodeMessage p.action seq p.buf⟩

/-- The answer of the other side. -/
def answer (e : Ends) (l : Link) (s : Side) (seq : ℕ) : Datagram :=
  ⟨s.other, l.session s.other, l.session s, e.addr s, encodeMessage ACTION_TCP_ACK seq []⟩

theorem resends_first (hb : Base e l) (hs : 0 < l.session s) {now : ℤ} {seq : ℕ} {p : Payload}
    (hbegin : (l.endpoint e s).send.begin? = some (seq, p))
    (hlate : p.timestamp + MAX_RESEND_TIMEOUT ≤ now) (hrate : (l.node s).Repeats (e.id s.other))
    (h : l.step e (.onResendTimer s now) = some l') : l.resent e s seq p ∈ fresh l l' := by
  cases h
  exact mem_fresh rfl (Node.onResendTimer_first hbegin (hb.known s hs).1 hlate hrate)

/-- What a delivery that takes place is made of. -/
theorem deliver_cases {dst : Side} {i : ℕ} {now : ℤ} {d : Datagram} (hd : l.wire[i]? = some d)
    (h : l.step e (.deliver dst i now) = some l') :
    d.src = dst.other ∧ ∃ n out, (l.node dst).onDatagram now (fun _ => false) (e.addr d.src) d.buf =
      some (n, out) ∧ l'.node dst = n ∧ l'.wire = l.wire ++ written dst (l.session dst) d.session out := by
  simp only [step, hd] at h
  split at h
  · rename_i hc
    obtain ⟨⟨n, out⟩, hr, rfl⟩ := Option.map_eq_some_iff.mp h
    exact ⟨hc.1, n, out, hr, by simp [update], rfl⟩
  · cases h

theorem answers_resent (hb : Base e l) (hs : ∀ t, 0 < l.session t) {ev : Event} {seq : ℕ} {p : Payload}
    (hseq : seq < 2 ^ 32) (hp : p.action ∈ reliableActions)
    (hrate : (l.node s.other).Repeats (e.id s)) (hd : Delivers l ev (l.resent e s seq p))
    (h : l.step e ev = some l') : l.answer e s seq ∈ fresh l l' := by
  obtain ⟨dst, i, now, rfl, hi⟩ := hd
  obtain ⟨hsrc, n, out, hr, -, hw⟩ := deliver_cases hi h
  obtain rfl : dst = s.other := by
    have hx : s = dst.other := hsrc
    rw [hx, Side.other_other]
  obtain ⟨haddr, hroute⟩ := hb.known s.other (hs _)
  rw [Side.other_other] at haddr hroute
  have hdec : Message.decode (l.resent e s seq p).buf = some (.reliable seq p.action p.buf) :=
    decode_reliable hp hseq p.buf
  obtain ⟨-, hcases⟩ := Node.onDatagram_cases hroute hr
  rcases hcases with ⟨k, hk, -⟩ | ⟨k, action, data, hk, -, hout⟩ | ⟨-, hk, -⟩
  · rw [hdec] at hk
    cases hk
  · rw [hdec] at hk
    cases hk
    have hack : .writeDatagram _ (encodeMessage ACTION_TCP_ACK seq []) ∈
        (((l.node s.other).touch (e.id s)).onReliable now (fun _ => false) (e.id s) seq p.action p.buf).2 :=
      Node.onReliable_acks haddr hrate
    rw [← hout] at hack
    exact mem_fresh hw hack
  · exact absurd hdec (hk _ _ _)

theorem answered (hb : Base e l) (hs : ∀ t, 0 < l.session t) {ev : Event} {seq : ℕ} (hseq : seq < 2 ^ 32)
    (hd : Delivers l ev (l.answer e s seq)) (h : l.step e ev = some l') :
    (l'.endpoint e s).send.get seq = none := by
  obtain ⟨dst, i, now, rfl, hi⟩ := hd
  obtain ⟨hsrc, n, out, hr, hn, -⟩ := deliver_cases hi h
  obtain rfl : s = dst := by
    have hx : s.other = dst.other := hsrc
    rw [← Side.other_other s, hx, Side.other_other]
  have hroute := (hb.known s (hs _)).2
  have hdec : Message.decode (l.answer e s seq).buf = some (.tcpAck seq) := decode_ack hseq
  obtain ⟨-, hcases⟩ := Node.onDatagram_cases hroute hr
  rcases hcases with ⟨k, hk, -, he⟩ | ⟨k, action, data, hk, -⟩ | ⟨hk, -⟩
  · rw [hdec] at hk
    cases hk
    rw [endpoint, hn, he]
    simp [DataBuffer.ackData, DataBuffer.get]
  · rw [hdec] at hk
    cases hk
  · exact absurd hdec (hk _)

/-! ### What a step leaves -/

/-- While `s` stays in its session, a number that has been used keeps its payload or loses it. -/
theorem get_step (hb : Base e l) {ev : Event} (h : l.step e ev = some l')
    (hsess : l'.session s = l.session s) (hnext : (l.endpoint e s).send.nextPushSeq = (l.pushed s).length + 1)
    (hroom : (l'.pushed s).length < 2 ^ 32 - 1) {k : ℕ} (hk : k ≤ (l.pushed s).length) :
    (l'.endpoint e s).send.get k = (l.endpoint e s).send.get k ∨ (l'.endpoint e s).send.get k = none := by
  obtain ⟨l0, t, n, reply, x, rfl, hb0, hx, hcase⟩ := step_cases hb h
  by_cases ht : t = s
  · subst ht
    rcases hcase with ⟨rfl, -⟩ | ⟨rfl, -⟩
    · simp [reset] at hsess
    · have hpush : ((l0.after t n reply x).pushed t).length = (l0.pushed t).length + x.pushed.length := by
        simp [after]
      have hdid := hx.did
      rw [endpoint_after_self]
      cases hdid with
      | quiet m out hm he hw hh => exact Or.inl (by rw [he]; rfl)
      | push now n0 action data fs ha hne hp he0 he =>
        refine Or.inl ?_
        have hnext0 : (n0.endpoint (e.id t.other)).send.nextPushSeq = (l0.pushed t).length + 1 := by
          rw [he0]
          exact hnext
        have hroom0 : (l0.pushed t).length + fs.length < 2 ^ 32 - 1 := by
          rw [hpush] at hroom
          exact hroom
        rw [he, Node.get_sendFragments fs (by rw [hnext0]; omega) (by rw [hnext0]; omega), he0]
        rfl
      | ack seq he =>
        rw [he]
        simp only [DataBuffer.get, DataBuffer.ackData, Std.ExtTreeMap.getElem?_erase]
        split
        · exact Or.inr rfl
        · exact Or.inl rfl
      | receive now seq action data out hact hseq he hw hh => exact Or.inl (by rw [he]; rfl)
  · obtain rfl : t = s.other := by cases t <;> cases s <;> first | rfl | exact absurd rfl ht
    have hend : (l0.after s.other n reply x).endpoint e s = l0.endpoint e s := by
      have := endpoint_after_other (e := e) l0 s.other n reply x
      rwa [Side.other_other] at this
    have hreset : (l.reset e s.other).endpoint e s = l.endpoint e s := by
      have := endpoint_reset_other (e := e) l s.other
      rwa [Side.other_other] at this
    refine Or.inl ?_
    rcases hcase with ⟨rfl, -⟩ | ⟨rfl, -⟩
    · rw [hend, hreset]
    · rw [hend]

/-- While `s` stays in its session, it only pushes more. -/
theorem pushed_step (hb : Base e l) {ev : Event} (h : l.step e ev = some l')
    (hsess : l'.session s = l.session s) : l.pushed s <+: l'.pushed s := by
  obtain ⟨l0, t, n, reply, x, rfl, -, -, hcase⟩ := step_cases hb h
  by_cases ht : s = t
  · subst ht
    rcases hcase with ⟨rfl, -⟩ | ⟨rfl, -⟩
    · simp [reset] at hsess
    · simp [after]
  · rcases hcase with ⟨rfl, -⟩ | ⟨rfl, -⟩
    · simp [after, reset, Function.update_of_ne ht]
    · simp [after, Function.update_of_ne ht]

/-- Nothing that can be handed over is left in a receive buffer. -/
theorem drained_run {ok : Link → Event → Prop} (h : Runs (step e) ok (init e) l) (s : Side) :
    (l.endpoint e s).receive.readyRead = false := by
  have hnew : (DataBuffer.new).readyRead = false := rfl
  have key : Base e l ∧ ∀ t, (l.endpoint e t).receive.readyRead = false := by
    refine h.invariant (P := fun l => Base e l ∧ ∀ t, (l.endpoint e t).receive.readyRead = false)
      ⟨base_init e, fun t => by rw [((base_init e).fresh t rfl).1]; exact hnew⟩ ?_
    intro l ev l' hx _ hstep
    obtain ⟨hb, hdr⟩ := hx
    refine ⟨hb.step hstep, ?_⟩
    obtain ⟨l0, t, n, reply, x, rfl, -, hact, hcase⟩ := step_cases hb hstep
    have hdr0 : ∀ u, (l0.endpoint e u).receive.readyRead = false := by
      rcases hcase with ⟨rfl, -⟩ | ⟨rfl, -⟩
      · refine side_cases t ?_ ?_
        · rw [endpoint_reset_self]
          exact hnew
        · rw [endpoint_reset_other]
          exact hdr _
      · exact hdr
    refine side_cases t ?_ ?_
    · rw [endpoint_after_self]
      have hdid := hact.did
      cases hdid with
      | quiet m out hm he hw hh => rw [he]; exact hdr0 t
      | push now n0 action data fs ha hne hp he0 he =>
        rw [he, (Node.receive_sendFragments now _ n0 fs).1, he0]
        exact hdr0 t
      | ack seq he => rw [he]; exact hdr0 t
      | receive now seq action data out hact hseq he hw hh =>
        rw [he]
        exact (Node.drainAfter_spec (l0.node t) now _ seq action data).2.2
    · rw [endpoint_after_other]
      exact hdr0 _
  exact key.2 s

/-- What `s` does not keep any more has been handed over by the other side. -/
theorem popped_of_acked (h : Runs (step e) (fun _ _ => True) (init e) l) (h1 : ∀ t, l.session t ≤ 1)
    (hlen : (l.pushed s).length < 2 ^ 32 - 1) {k : ℕ} (hk : k ≤ (l.pushed s).length)
    (hnone : ∀ seq, seq ≤ k → (l.endpoint e s).send.get seq = none) :
    k ≤ (l.popped s.other).length ∧ l.popped s.other <+: l.pushed s := by
  obtain ⟨hb, -⟩ := base_reads_run h
  obtain ⟨c, hc⟩ := agrees_run_one h h1 hlen
  have hin : l.InStep s := by
    intro i hi
    have hi' := (hb.heard s.other i hi).2
    rw [Side.other_other] at hi'
    have := h1 s
    omega
  obtain ⟨hrel, hpop⟩ := hc.receiver hin
  rw [hpop, hc.pushed] at *
  refine ⟨(hc.kept (h1 s.other)).popped_of_acked ?_ hk ?_, hc.reach.inv.popped_prefix⟩
  · -- otherwise the receive buffer would be ready
    by_contra hheld
    obtain ⟨f, hf⟩ := Option.ne_none_iff_exists'.mp hheld
    rw [← hrel.held, ← hrel.next] at hf
    obtain ⟨p, hp, -⟩ := Option.map_eq_some_iff.mp hf
    have hready : (l.endpoint e s.other).receive.readyRead = true := by
      refine DataBuffer.readyRead_of_get hp ?_
      intro j q hq
      have hheldj : c.held j = some q.fragment := by
        rw [← hrel.held]
        simp [DataBuffer.fragmentAt, hq]
      have := (hc.reach.inv.held_pushed j _ hheldj).1
      rw [hrel.next]
      omega
    rw [drained_run h] at hready
    cases hready
  · intro seq hseq
    rw [← hc.sender.unacked, DataBuffer.fragmentAt, hnone seq hseq]
    rfl

/-- Where `s` does not keep any of its fragments any more, the other side has handled
everything that was given to `s`. -/
theorem handled_of_acked (h : Runs (step e) (fun _ _ => True) (init e) l) (h1 : ∀ t, l.session t ≤ 1)
    (hlen : (l.pushed s).length < 2 ^ 32 - 1) {ps : List Fragment} {given : List (ℕ × Bytes)}
    (hread : Reassembly.read ACTION_MORE ps = ([], given)) (hgiven : ∀ m ∈ given, ACTION_TCP_DATA ≤ m.1)
    (hps : ps <+: l.pushed s) (hnone : ∀ seq, seq ≤ ps.length → (l.endpoint e s).send.get seq = none) :
    given <+: l.handled s.other := by
  obtain ⟨hle, hpre⟩ := popped_of_acked h h1 hlen hps.length_le hnone
  have hpop : ps <+: l.popped s.other := List.prefix_of_prefix_length_le hps hpre hle
  have hmsg := Reassembly.read_prefix ACTION_MORE hpop
  rw [hread] at hmsg
  have hall : given.filter (fun m => ACTION_TCP_DATA ≤ m.1) = given := by
    rw [List.filter_eq_self]
    intro m hm
    simpa using hgiven m hm
  rw [((base_reads_run h).2 s.other).handled, ← hall]
  exact hmsg.filter _

/-! ### Fair executions -/

/-- An execution of one session in which the resend timer of `s` goes on, and the network
lets something through of every datagram that is written again and again. -/
structure Fair (e : Ends) (s : Side) (x : ℕ → Link) (ev : ℕ → Event) : Prop where
  start : Runs (step e) (fun _ _ => True) (init e) (x 0)
  goes : Execution (step e) x ev
  session : ∀ n t, (x n).session t = 1
  room : ∀ n, ((x n).pushed s).length < 2 ^ 32 - 1
  repeats : ∀ n t, ((x n).node t).Repeats (e.id t.other)
  timer : ∀ t, ∃ᶠ n in atTop, ∃ now, t ≤ now ∧ ev n = .onResendTimer s now
  network : ∀ d, (∃ᶠ n in atTop, d ∈ fresh (x n) (x (n + 1))) → ∃ᶠ n in atTop, Delivers (x n) (ev n) d

section fair

variable {x : ℕ → Link} {ev : ℕ → Event} (hf : Fair e s x ev)
include hf

theorem Fair.runs (n : ℕ) : Runs (step e) (fun _ _ => True) (init e) (x n) :=
  hf.start.trans (hf.goes.runs n)

theorem Fair.pushed_le {n m : ℕ} (h : n ≤ m) : (x n).pushed s <+: (x m).pushed s := by
  refine stays (P := fun m => (x n).pushed s <+: (x m).pushed s) (k := n) ?_ le_rfl h (List.prefix_refl _)
  intro m _ hm
  have hsess : (x (m + 1)).session s = (x m).session s := by rw [hf.session, hf.session]
  exact hm.trans (pushed_step (base_reads_run (hf.runs m)).1 (hf.goes m) hsess)

theorem Fair.get_next {k n : ℕ} (hk : k ≤ ((x n).pushed s).length) :
    ((x (n + 1)).endpoint e s).send.get k = ((x n).endpoint e s).send.get k ∨
      ((x (n + 1)).endpoint e s).send.get k = none := by
  obtain ⟨c, hc⟩ := agrees_run_one (hf.runs n) (fun t => (hf.session n t).le) (hf.room n)
  refine get_step (base_reads_run (hf.runs n)).1 (hf.goes n) ?_ ?_ (hf.room _) hk
  · rw [hf.session, hf.session]
  · rw [hc.pushed]
    exact hc.sender.next

/-- The payload that `s` keeps under its least number is not kept for ever. -/
theorem Fair.first_answered {n0 k : ℕ} {p : Payload} (hk : k ≤ ((x n0).pushed s).length)
    (hkept : ∀ n, n0 ≤ n → ((x n).endpoint e s).send.get k = some p)
    (hleast : ∀ᶠ n in atTop, ∀ j < k, ((x n).endpoint e s).send.get j = none) :
    ∃ᶠ n in atTop, ((x n).endpoint e s).send.get k = none := by
  have hbase : ∀ n, Base e (x n) := fun n => (base_reads_run (hf.runs n)).1
  have hpos : ∀ n t, 0 < (x n).session t := fun n t => by rw [hf.session]; exact Nat.one_pos
  have hseq : k < 2 ^ 32 := by
    have := hf.room n0
    omega
  have haction : p.action ∈ reliableActions := (hbase n0).sends s k p (hkept n0 le_rfl)
  -- the tags of the datagrams do not change within the session
  have hd : ∀ n, (x n).resent e s k p = (x 0).resent e s k p := by
    intro n
    simp only [resent, hf.session]
  have ha : ∀ n, (x n).answer e s k = (x 0).answer e s k := by
    intro n
    simp only [answer, hf.session]
  have hwritten : ∃ᶠ n in atTop, (x 0).resent e s k p ∈ fresh (x n) (x (n + 1)) := by
    have hfirst := hleast.and (eventually_ge_atTop n0)
    refine ((hf.timer (p.timestamp + MAX_RESEND_TIMEOUT)).and_eventually hfirst).mono ?_
    intro n hn
    obtain ⟨⟨now, hlate, hev⟩, hnone, hn0⟩ := hn
    have hstep := hf.goes n
    rw [hev] at hstep
    rw [← hd n]
    exact resends_first (hbase n) (hpos n s) (DataBuffer.begin?_of_least (hkept n hn0) hnone) hlate
      (hf.repeats n s) hstep
  have hanswer : ∃ᶠ n in atTop, (x 0).answer e s k ∈ fresh (x n) (x (n + 1)) := by
    refine (hf.network _ hwritten).mono ?_
    intro n hn
    rw [← hd n] at hn
    rw [← ha n]
    have hrate := hf.repeats n s.other
    rw [Side.other_other] at hrate
    exact answers_resent (hbase n) (hpos n) hseq haction hrate hn (hf.goes n)
  refine frequently_succ (hf.network _ hanswer) ?_
  intro n hn
  rw [← ha n] at hn
  exact answered (hbase n) (hpos n) hseq hn (hf.goes n)

/-- By induction on the number: what stands before it goes first, then its turn comes. -/
theorem Fair.eventually_acked (k n0 : ℕ) (hk : k ≤ ((x n0).pushed s).length) :
    ∀ᶠ n in atTop, ((x n).endpoint e s).send.get k = none := by
  induction k using Nat.strong_induction_on with
  | _ k ih =>
    have hlen : ∀ n, n0 ≤ n → k ≤ ((x n).pushed s).length :=
      fun n hn => hk.trans (hf.pushed_le hn).length_le
    have hleast : ∀ᶠ n in atTop, ∀ j < k, ((x n).endpoint e s).send.get j = none := by
      have hall := (Finset.range k).eventually_all.mpr fun j hj =>
        ih j (Finset.mem_range.mp hj) (by have := Finset.mem_range.mp hj; omega)
      exact hall.mono fun n hn j hj => hn j (Finset.mem_range.mpr hj)
    have hmain := eventually_not (P := fun n => ((x n).endpoint e s).send.get k ≠ none) (k := n0) ?_ ?_
    · exact hmain.mono fun n hn => not_not.mp hn
    · intro n hn hnone
      rw [not_not] at hnone ⊢
      rcases hf.get_next (hlen n hn) with h | h
      · rw [h]
        exact hnone
      · exact h
    · intro hkept
      obtain ⟨p, hp⟩ := Option.ne_none_iff_exists'.mp (hkept n0 le_rfl)
      have hsame : ∀ n, n0 ≤ n → ((x n).endpoint e s).send.get k = some p := by
        intro n hn
        refine stays (P := fun n => ((x n).endpoint e s).send.get k = some p) (k := n0) ?_ le_rfl hn hp
        intro m hm hget
        rcases hf.get_next (hlen m hm) with h | h
        · rw [h]
          exact hget
        · exact absurd h (hkept (m + 1) (by omega))
      exact (hf.first_answered hk hsame hleast).mono fun n hn => not_not.mpr hn

/-- In a fair execution, all that is given to `s` is handled by the other side from some
moment on, in the order in which it was given. -/
theorem handled_eventually (n : ℕ) : ∀ᶠ m in atTop, (x n).given s <+: (x m).handled s.other := by
  obtain ⟨-, hr⟩ := base_reads_run (hf.runs n)
  have hall : ∀ᶠ m in atTop, ∀ k ∈ Finset.range (((x n).pushed s).length + 1),
      ((x m).endpoint e s).send.get k = none := by
    refine (Finset.eventually_all _).mpr ?_
    intro k hk
    exact hf.eventually_acked k n (by have := Finset.mem_range.mp hk; omega)
  refine (hall.and (eventually_ge_atTop n)).mono ?_
  intro m hm
  obtain ⟨hnone, hnm⟩ := hm
  refine handled_of_acked (hf.runs m) (fun t => (hf.session m t).le) (hf.room m) (hr s).given (hr s).actions
    (hf.pushed_le hnm) ?_
  intro k hk
  exact hnone k (Finset.mem_range.mpr (by omega))

end fair

/-- Side `s` keeps nothing, and the nodes write each datagram once. -/
structure Resting (s : Side) (l0 l : Link) : Prop where
  session : ∀ t, l.session t = 1
  pushed : l.pushed = l0.pushed
  nothing : ∀ peer seq, ((l.node s).endpoint peer).send.get seq = none
  once : ∀ t, (l.node t).proactiveResendEnabled = false

theorem Resting.timer {l0 : Link} (h : Resting s l0 l) (now : ℤ) :
    ∃ l', l.step e (.onResendTimer s now) = some l' ∧ fresh l l' = [] ∧ Resting s l0 l' := by
  have hquiet : ((l.node s).onResendTimer now).2 = [] := by
    refine List.eq_nil_iff_forall_not_mem.mpr fun o ho => ?_
    obtain ⟨-, peer, seq, p, hp, -⟩ := Node.mem_onResendTimer ho
    rw [h.nothing] at hp
    cases hp
  refine ⟨_, rfl, by simp [fresh, update, hquiet, written], h.session, h.pushed, ?_, side_cases s ?_ ?_⟩
  · intro peer seq
    have hframe := (Node.onResendTimer_frame (l.node s) now peer).1
    simp only [update, Function.update_self, hframe]
    exact h.nothing peer seq
  · have hpro := Node.proactive_resendPeers now (l.node s).sendBuffer.toList (l.node s)
    simp only [update, Function.update_self]
    exact hpro.trans (h.once s)
  · simp only [update, Function.update_of_ne s.other_ne]
    exact h.once s.other

/-- A link that rests can go on fairly: its timer fires for ever and writes nothing. -/
theorem Resting.exists_fair (h : Resting s l l) (hl : Runs (step e) (fun _ _ => True) (init e) l)
    (hroom : (l.pushed s).length < 2 ^ 32 - 1) : ∃ x ev, x 0 = l ∧ Fair e s x ev := by
  have hnext : ∀ (n : ℕ) (k : Link), Resting s l k → step e k (.onResendTimer s n) =
      some ((k.step e (.onResendTimer s n)).getD k) ∧ Resting s l ((k.step e (.onResendTimer s n)).getD k) := by
    intro n k hk
    obtain ⟨k', hk', -, hrest⟩ := hk.timer (e := e) n
    have hstep : step e k (.onResendTimer s n) = some k' := hk'
    rw [hstep, Option.getD_some]
    exact ⟨rfl, hrest⟩
  obtain ⟨x, ev, hx0, hx, hrest, hev⟩ := Execution.of_next (I := Resting s l)
    (fun n k => (Event.onResendTimer s n, (k.step e (.onResendTimer s n)).getD k)) l h hnext
  refine ⟨x, ev, hx0, by rw [hx0]; exact hl, hx, fun n => (hrest n).session, ?_, ?_, ?_, ?_⟩
  · intro n
    rw [(hrest n).pushed]
    exact hroom
  · intro n t hp
    rw [(hrest n).once t] at hp
    cases hp
  · intro t
    refine frequently_atTop.mpr fun a => ⟨max a t.toNat, le_max_left _ _, (max a t.toNat : ℕ), ?_, hev _⟩
    have := le_max_right a t.toNat
    omega
  · intro d hd
    obtain ⟨n, -, hn⟩ := frequently_atTop.mp hd 0
    obtain ⟨k', hk', hfresh, -⟩ := (hrest n).timer (e := e) n
    have hsame : x (n + 1) = k' := by
      have hn' := hx n
      rw [hev] at hn'
      exact Option.some.inj (hn'.symm.trans hk')
    rw [hsame, hfresh] at hn
    cases hn

/-- Both sides are in their first session and repeat their datagrams. -/
def Steady (e : Ends) (l : Link) : Prop := ∀ t, l.session t = 1 ∧ (l.node t).Repeats (e.id t.other)

instance (n : Node) (peer : ℕ) : Decidable (n.Repeats peer) := inferInstanceAs (Decidable (_ → _))

instance (e : Ends) : DecidablePred (Steady e) := fun l =>
  decidable_of_iff ((l.session .A = 1 ∧ (l.node .A).Repeats (e.id .B)) ∧
      (l.session .B = 1 ∧ (l.node .B).Repeats (e.id .A)))
    ⟨fun h => side_cases .A h.1 h.2, fun h => ⟨h .A, h .B⟩⟩

/-- A fair execution may begin with a step more. -/
theorem Fair.prepend {x : ℕ → Link} {ev : ℕ → Event} (hf : Fair e s x ev) {v : Event}
    (hl : Runs (step e) (fun _ _ => True) (init e) l) (hsteady : Steady e l)
    (hstep : l.step e v = some (x 0)) : Fair e s (prepend l x) (prepend v ev) where
  start := hl
  goes := hf.goes.prepend hstep
  session
    | 0 => fun t => (hsteady t).1
    | n + 1 => hf.session n
  room
    | 0 => by
      have hsess : (x 0).session s = l.session s := by rw [hf.session, (hsteady s).1]
      exact (pushed_step (base_reads_run hl).1 hstep hsess).length_le.trans_lt (hf.room 0)
    | n + 1 => hf.room n
  repeats
    | 0 => fun t => (hsteady t).2
    | n + 1 => hf.repeats n
  timer t := frequently_succ (hf.timer t) fun _ h => h
  network d hd := frequently_succ (hf.network d (frequently_of_succ hd fun _ h => h)) fun _ h => h

theorem Fair.of_run {x : ℕ → Link} {ev : ℕ → Event} (hf : Fair e s x ev) (es : List Event)
    (hl : Runs (step e) (fun _ _ => True) (init e) l)
    (hrun : run (guarded (step e) fun l _ => Steady e l) l es = some (x 0)) :
    ∃ x' ev', x' 0 = l ∧ (List.range es.length).map ev' = es ∧ Fair e s x' ev' := by
  induction es generalizing l with
  | nil => exact ⟨x, ev, (Option.some.inj hrun).symm, rfl, hf⟩
  | cons v es ih =>
    obtain ⟨l', hstep, hrest⟩ := Option.bind_eq_some_iff.mp hrun
    unfold guarded at hstep
    split at hstep
    · rename_i hsteady
      obtain ⟨x', ev', hx', hev', hf'⟩ := ih (hl.tail ⟨v, trivial, hstep⟩) hrest
      refine ⟨Lib.prepend l x', Lib.prepend v ev', rfl, ?_, hf'.prepend hl hsteady (by rw [hstep, hx'])⟩
      rw [List.length_cons, map_range_prepend, hev']
    · cases hstep

/-- Three datagrams are under way, the greetings and a message of `A`. -/
def unheard : List Event :=
  [.connectToPeer .A 0, .connectToPeer .B 0, .forwardGameData .A 1 ACTION_TCP_DATA [7]]

/-- The first copies get lost; those that the resend timer writes are delivered and acknowledged. -/
def heardLater : List Event :=
  [.onResendTimer .A 3000, .deliver .B 3 3001, .deliver .B 4 3001, .deliver .A 5 3002, .deliver .A 6 3002]

theorem handled_eventually_resent : ∃ l x ev, run (step twoPlayers) (init twoPlayers) unheard = some l ∧
    l.handled .B = [] ∧ l.given .A = [(ACTION_HELLO, Node.helloData), (ACTION_TCP_DATA, [7])] ∧
    x 0 = l ∧ (List.range 5).map ev = heardLater ∧ Fair twoPlayers .A x ev ∧
    ∀ᶠ m in atTop, (x 0).given .A <+: (x m).handled .B := by
  have hrun : (run (step twoPlayers) (init twoPlayers) unheard).any (fun l =>
      l.handled .B = [] ∧ l.given .A = [(ACTION_HELLO, Node.helloData), (ACTION_TCP_DATA, [7])] ∧
      (run (guarded (step twoPlayers) fun l _ => Steady twoPlayers l) l heardLater).any (fun l' =>
        l'.session .A = 1 ∧ l'.session .B = 1 ∧ (l'.pushed .A).length = 2 ∧
          (l'.node .A).proactiveResendEnabled = false ∧ (l'.node .B).proactiveResendEnabled = false ∧
          (l'.node .A).sendBuffer.toList.all (fun b => b.2.data.isEmpty))) = true := by
    decide +kernel
  obtain ⟨l, hl, hp⟩ := Option.any_eq_true _ _ |>.mp hrun
  simp only [decide_eq_true_eq] at hp
  obtain ⟨hnothing, hgiven, hlater⟩ := hp
  obtain ⟨l', hl', hp'⟩ := Option.any_eq_true _ _ |>.mp hlater
  simp only [decide_eq_true_eq] at hp'
  obtain ⟨hA, hB, hlen, hpA, hpB, hempty⟩ := hp'
  have hnone : ∀ peer seq, ((l'.node .A).endpoint peer).send.get seq = none := by
    intro peer seq
    cases hb : (l'.node .A).sendBuffer[peer]? with
    | none => simp [Node.endpoint, Node.sendBufferOf, Std.ExtTreeMap.getD_eq_getD_getElem?, hb,
        DataBuffer.new, DataBuffer.get]
    | some b =>
      have hmem := Std.ExtTreeMap.mem_toList_iff_getElem?_eq_some.mpr hb
      have hb0 : b.data = ∅ := Std.ExtTreeMap.isEmpty_iff.mp (List.all_eq_true.mp hempty _ hmem)
      simp [Node.endpoint, Node.sendBufferOf, Std.ExtTreeMap.getD_eq_getD_getElem?, hb,
        DataBuffer.get, hb0]
  have hruns : Runs (step twoPlayers) (fun _ _ => True) (init twoPlayers) l :=
    .of_run unheard hl fun _ _ _ => trivial
  have hruns' : Runs (step twoPlayers) (fun _ _ => True) (init twoPlayers) l' :=
    hruns.trans ((Runs.of_run_guarded heardLater hl').mono fun _ _ _ => trivial)
  have hrest : Resting .A l' l' := ⟨side_cases .A hA hB, rfl, hnone, side_cases .A hpA hpB⟩
  obtain ⟨x, ev, hx0, hfair⟩ := hrest.exists_fair hruns' (by omega)
  obtain ⟨x', ev', hx0', hev', hfair'⟩ := hfair.of_run heardLater hruns (by rw [hl', hx0])
  exact ⟨l, x', ev', hl, hnothing, hgiven, hx0', hev', hfair', handled_eventually hfair' 0⟩

/-- A message and its greeting are delivered and acknowledged. -/
def exchange : List Event :=
  [.connectToPeer .A 0, .connectToPeer .B 0, .forwardGameData .A 1 ACTION_TCP_DATA [7],
    .deliver .B 0 2, .deliver .B 2 3, .deliver .A 3 4, .deliver .A 4 5]

/-- When `s` keeps nothing any more, the two ends agree: all that was given is handled. -/
theorem handled_eq_given (h : Runs (step e) (fun _ _ => True) (init e) l) (h1 : ∀ t, l.session t ≤ 1)
    (hlen : (l.pushed s).length < 2 ^ 32 - 1) (hempty : (l.endpoint e s).send.empty = true) :
    l.handled s.other = l.given s := by
  obtain ⟨-, hr⟩ := base_reads_run h
  have hnone : ∀ k, (l.endpoint e s).send.get k = none := by
    intro k
    have he : (l.endpoint e s).send.data = ∅ := Std.ExtTreeMap.isEmpty_iff.mp hempty
    simp [DataBuffer.get, he]
  have hle := handled_of_acked h h1 hlen (hr s).given (hr s).actions (List.prefix_refl _) fun k _ => hnone k
  obtain ⟨hpop, hpre⟩ := popped_of_acked h h1 hlen le_rfl fun k _ => hnone k
  have heq : l.popped s.other = l.pushed s := hpre.eq_of_length (le_antisymm hpre.length_le hpop)
  have hhan := (hr s.other).handled
  rw [heq, (hr s).given] at hhan
  refine (hle.eq_of_length (le_antisymm hle.length_le ?_)).symm
  rw [hhan]
  exact List.length_filter_le _ _

theorem handled_eq_given_exchange : ∃ l, run (step twoPlayers) (init twoPlayers) exchange = some l ∧
    l.handled .B = l.given .A ∧ l.given .A = [(ACTION_HELLO, Node.helloData), (ACTION_TCP_DATA, [7])] := by
  have hrun : (run (step twoPlayers) (init twoPlayers) exchange).any (fun l =>
      l.session .A = 1 ∧ l.session .B = 1 ∧ (l.pushed .A).length = 2 ∧
        (l.endpoint twoPlayers .A).send.empty = true ∧
        l.given .A = [(ACTION_HELLO, Node.helloData), (ACTION_TCP_DATA, [7])]) = true := by
    decide +kernel
  obtain ⟨l, hl, hp⟩ := Option.any_eq_true _ _ |>.mp hrun
  simp only [decide_eq_true_eq] at hp
  obtain ⟨hA, hB, hlen, hempty, hgiven⟩ := hp
  have hle : ∀ t, l.session t ≤ 1 := side_cases .A hA.le hB.le
  exact ⟨l, hl, handled_eq_given (s := .A) (.of_run exchange hl fun _ _ _ => trivial) hle (by omega) hempty,
    hgiven⟩

end Link

end Gpgnet4TA.Tafnet
