import Gpgnet4TA.Tafnet.Delivery

/-!
# The reliable channel

Results about whole runs of the link: order and completeness of what is handled,
conservation of fragments inside a session, and the meaning of an acknowledgement
when the sides reconnect.
-/

namespace Gpgnet4TA.Tafnet
open Gpgnet4TA.Lib Gpgnet4TA.Lib.Arq

namespace Link

variable {e : Ends} {l l' : Link} {s : Side}

/-! ### Messages and fragments -/

/-- The logs of messages are what the logs of fragments read as. -/
structure Reads (e : Ends) (l : Link) (s : Side) : Prop where
  given : Reassembly.read ACTION_MORE (l.pushed s) = ([], l.given s)
  actions : ∀ m ∈ l.given s, ACTION_TCP_DATA ≤ m.1
  handled : l.handled s =
    (Reassembly.read ACTION_MORE (l.popped s)).2.filter fun m => ACTION_TCP_DATA ≤ m.1
  rest : (Reassembly.read ACTION_MORE (l.popped s)).1 = (l.endpoint e s).reassembly

theorem reads_init (e : Ends) (s : Side) : Reads e (init e) s := by
  refine ⟨rfl, by simp [init], rfl, ?_⟩
  simp [init, endpoint, Node.endpoint, Node.new, Node.reassemblyBufferOf, Reassembly.read]

theorem Reads.reset (h : ∀ t, Reads e l t) (s : Side) : ∀ t, Reads e (l.reset e s) t := by
  refine side_cases s ?_ ?_
  · refine ⟨by simp [Link.reset, Reassembly.read], by simp [Link.reset],
      by simp [Link.reset, Reassembly.read], ?_⟩
    rw [endpoint_reset_self]
    simp [Link.reset, Reassembly.read, Endpoint.new]
  · obtain ⟨h1, h2, h3, h4⟩ := h s.other
    have hne := s.other_ne
    refine ⟨?_, ?_, ?_, ?_⟩
    · simpa [Link.reset, Function.update_of_ne hne] using h1
    · simpa [Link.reset, Function.update_of_ne hne] using h2
    · simpa [Link.reset, Function.update_of_ne hne] using h3
    · rw [endpoint_reset_other]
      simpa [Link.reset, Function.update_of_ne hne] using h4

theorem Reads.after_self (h : Reads e l s) {n : Node} {reply : ℕ} {x : Effect}
    (hx : Did (l.node s) n (e.id s.other) x) : Reads e (l.after s n reply x) s := by
  have hgiven : Reassembly.read ACTION_MORE (l.pushed s ++ x.pushed) = ([], l.given s ++ x.given) ∧
      ∀ m ∈ x.given, ACTION_TCP_DATA ≤ m.1 := by
    cases hx with
    | push now n0 action data fs ha hne hp he0 he =>
      refine ⟨Reassembly.read_append_pieces ACTION_MORE hne h.given hp, ?_⟩
      intro m hm
      rw [List.mem_singleton.mp hm]
      exact (ofAction_reliable ha 0 []).1
    | quiet => exact ⟨by simpa using h.given, by simp⟩
    | ack => exact ⟨by simpa using h.given, by simp⟩
    | receive => exact ⟨by simpa using h.given, by simp⟩
  have hpopped : l.handled s ++ handledIn x.out = ((Reassembly.read ACTION_MORE
        (l.popped s ++ x.popped)).2.filter fun m => ACTION_TCP_DATA ≤ m.1) ∧
      (Reassembly.read ACTION_MORE (l.popped s ++ x.popped)).1 =
        (n.endpoint (e.id s.other)).reassembly := by
    by_cases hno : ∀ seq action data, x.read ≠ some (.reliable seq action data)
    · obtain ⟨-, hre, hpop, hh⟩ := hx.receive_frame hno
      rw [hpop, hh, hre, List.append_nil, List.append_nil]
      exact ⟨h.handled, h.rest⟩
    · cases hx with
      | receive now seq action data out hact hseq he hw hh =>
        obtain ⟨-, hread, -⟩ := Node.drainAfter_spec (l.node s) now (e.id s.other) seq action data
        generalize (l.node s).drainAfter now (fun _ => false) (e.id s.other) seq action data = d
          at hread hh he ⊢
        obtain ⟨out', hout⟩ : ∃ out', Reassembly.read ACTION_MORE (l.popped s) =
            ((l.endpoint e s).reassembly, out') := ⟨_, Prod.ext h.rest rfl⟩
        have hfold : Reassembly.read ACTION_MORE (l.popped s ++ d.popped) =
            (d.reassembly, out' ++ d.handled) := by
          rw [Reassembly.read, List.foldl_append]
          show d.popped.foldl _ (Reassembly.read ACTION_MORE (l.popped s)) = _
          rw [hout, Reassembly.foldl_step_out]
          exact congrArg (fun r => (r.1, out' ++ r.2)) hread.symm
        rw [h.handled, hh, he, hfold, hout, List.filter_append]
        exact ⟨rfl, rfl⟩
      | quiet m out hm he hw hh => exact absurd hm.1 hno
      | push => exact absurd (by simp) hno
      | ack => exact absurd (by simp) hno
  refine ⟨?_, ?_, ?_, ?_⟩
  · simpa [Link.after] using hgiven.1
  · intro m hm
    have hm' : m ∈ l.given s ++ x.given := by simpa [Link.after] using hm
    rcases List.mem_append.mp hm' with hm' | hm'
    · exact h.actions m hm'
    · exact hgiven.2 m hm'
  · simpa [Link.after] using hpopped.1
  · rw [endpoint_after_self]
    simpa [Link.after] using hpopped.2

theorem Reads.after (h : ∀ t, Reads e l t) {n : Node} {reply : ℕ} {x : Effect}
    (hx : Did (l.node s) n (e.id s.other) x) : ∀ t, Reads e (l.after s n reply x) t := by
  refine side_cases s ((h s).after_self hx) ?_
  obtain ⟨h1, h2, h3, h4⟩ := h s.other
  have hne := s.other_ne
  refine ⟨?_, ?_, ?_, ?_⟩
  · simpa [Link.after, Function.update_of_ne hne] using h1
  · simpa [Link.after, Function.update_of_ne hne] using h2
  · simpa [Link.after, Function.update_of_ne hne] using h3
  · rw [endpoint_after_other]
    simpa [Link.after, Function.update_of_ne hne] using h4

/-! ### Invariants of runs -/

theorem base_reads_run {ok : Link → Event → Prop} (h : Runs (step e) ok (init e) l) :
    Base e l ∧ ∀ t, Reads e l t := by
  refine h.invariant (P := fun l => Base e l ∧ ∀ t, Reads e l t)
    ⟨base_init e, reads_init e⟩ ?_
  intro l ev l' hx _ hstep
  obtain ⟨hb, hr⟩ := hx
  obtain ⟨l0, s, n, reply, x, rfl, hb0, ha, hcase⟩ := step_cases hb hstep
  refine ⟨hb0.after ha, Reads.after ?_ ha.did⟩
  rcases hcase with ⟨rfl, -⟩ | ⟨rfl, -⟩
  · exact Reads.reset hr s
  · exact hr

theorem session_mono {ev : Event} (hb : Base e l) (h : l.step e ev = some l') (t : Side) :
    l.session t ≤ l'.session t := by
  obtain ⟨l0, s, n, reply, x, rfl, -, -, hcase⟩ := step_cases hb h
  rcases hcase with ⟨rfl, -⟩ | ⟨rfl, -⟩
  · by_cases ht : t = s
    · subst ht
      simp [reset]
    · simp [reset, Function.update_of_ne ht]
  · exact le_rfl

/-- While no side connects twice, everything on the network is of the one session. -/
theorem readInSession_of_le_one {ev : Event} (hb : Base e l) (h : l.step e ev = some l')
    (h1 : ∀ t, l.session t ≤ 1) (s : Side) : readInSession s l ev = true := by
  cases ev with
  | deliver dst i now =>
    simp only [readInSession]
    split
    · rfl
    · rename_i d hd
      have hmem := List.mem_of_getElem? hd
      have hsrc : d.src = dst.other := by
        simp only [step, hd] at h
        split at h
        · rename_i hc
          exact hc.1
        · cases h
      have htag := hb.tagged d hmem
      have hone : d.session = 1 := by
        have := h1 d.src
        omega
      split
      · -- reliable data
        rw [decide_eq_true_eq]
        intro _
        cases hh : l.heard dst with
        | none => exact Or.inl rfl
        | some i =>
          have hi := hb.heard dst i hh
          have := h1 dst.other
          refine Or.inr ?_
          rw [hone]
          exact congrArg some (by omega)
      · -- an acknowledgement
        rename_i seq hdec
        rw [decide_eq_true_eq]
        intro heq
        obtain rfl := heq
        have hack := hb.acks d hmem seq hdec
        rw [hsrc, Side.other_other] at hack
        rw [hsrc] at htag
        have := h1 dst
        have := h1 dst.other
        exact ⟨by omega, by omega⟩
      · rfl
  | _ => rfl

theorem agrees_run_one (h : Runs (step e) (fun _ _ => True) (init e) l)
    (h1 : ∀ t, l.session t ≤ 1) (hlen : (l.pushed s).length < 2 ^ 32 - 1) :
    ∃ c, Agrees e l s c := by
  have key : Base e l ∧ ((∀ t, l.session t ≤ 1) → (l.pushed s).length < 2 ^ 32 - 1 →
      ∃ c, Agrees e l s c) := by
    refine h.invariant (P := fun l => Base e l ∧ ((∀ t, l.session t ≤ 1) →
      (l.pushed s).length < 2 ^ 32 - 1 → ∃ c, Agrees e l s c))
      ⟨base_init e, fun _ _ => ⟨_, agrees_init e s⟩⟩ ?_
    intro l ev l' hx _ hstep
    obtain ⟨hb, ih⟩ := hx
    refine ⟨hb.step hstep, ?_⟩
    intro h1 hlen
    have h0 : ∀ t, l.session t ≤ 1 := fun t => (session_mono hb hstep t).trans (h1 t)
    exact agrees_step hb hstep (readInSession_of_le_one hb hstep h0 s) hlen (ih h0)
  exact key.2 h1 hlen

/-- Side `s` may only be read in session, and pushes fewer fragments in each session
than there are sequence numbers. -/
def InSession (s : Side) (l : Link) (ev : Event) : Prop :=
  readInSession s l ev = true ∧ (l.pushed s).length < 2 ^ 32 - 1

instance (s : Side) (l : Link) (ev : Event) : Decidable (InSession s l ev) :=
  inferInstanceAs (Decidable (_ ∧ _))

theorem agrees_run (h : Runs (step e) (InSession s) (init e) l)
    (hlen : (l.pushed s).length < 2 ^ 32 - 1) : ∃ c, Agrees e l s c := by
  have key : Base e l ∧ ((l.pushed s).length < 2 ^ 32 - 1 → ∃ c, Agrees e l s c) := by
    refine h.invariant (P := fun l => Base e l ∧ ((l.pushed s).length < 2 ^ 32 - 1 →
      ∃ c, Agrees e l s c)) ⟨base_init e, fun _ => ⟨_, agrees_init e s⟩⟩ ?_
    intro l ev l' hx hok hstep
    obtain ⟨hb, ih⟩ := hx
    exact ⟨hb.step hstep, fun hlen => agrees_step hb hstep hok.1 hlen ih⟩
  exact key.2 hlen

/-! ### One session -/

/-- In one session the messages handled by a side are at every moment a prefix of
the messages given to the other. -/
theorem handled_prefix_given (h : Runs (step e) (fun _ _ => True) (init e) l)
    (h1 : ∀ t, l.session t ≤ 1) (hlen : (l.pushed s).length < 2 ^ 32 - 1) :
    l.handled s.other <+: l.given s := by
  obtain ⟨hb, hr⟩ := base_reads_run h
  obtain ⟨c, hc⟩ := agrees_run_one h h1 hlen
  have hpre : l.popped s.other <+: l.pushed s := by
    by_cases hin : l.InStep s
    · rw [(hc.receiver hin).2, hc.pushed]
      exact hc.reach.inv.popped_prefix
    · -- the other side can only have read data of the one session
      exfalso
      refine hin fun i hi => ?_
      have hi' := (hb.heard s.other i hi).2
      rw [Side.other_other] at hi'
      have := h1 s
      omega
  have hmsg := Reassembly.read_prefix ACTION_MORE hpre
  rw [(hr s).given] at hmsg
  have hall : (l.given s).filter (fun m => ACTION_TCP_DATA ≤ m.1) = l.given s := by
    rw [List.filter_eq_self]
    intro m hm
    simpa using (hr s).actions m hm
  rw [(hr s.other).handled, ← hall]
  exact hmsg.filter _

/-! ### A run to evaluate -/

def twoPlayers : Ends where
  id := fun
    | .A => 1
    | .B => 2
  addr := fun
    | .A => ⟨1, 6112⟩
    | .B => ⟨2, 6112⟩
  isHost s := s = .A
  proactiveResend _ := false
  maxPacketSize _ := 1000

/-- Both sides connect; the message of `A` overtakes its greeting. -/
def overtaking : List Event :=
  [.connectToPeer .A 0, .connectToPeer .B 0, .forwardGameData .A 1 ACTION_TCP_DATA [7],
    .deliver .B 2 2, .deliver .B 0 3]

theorem handled_prefix_given_overtaking : ∃ l, run (step twoPlayers) (init twoPlayers) overtaking =
    some l ∧ l.handled .B = [(ACTION_HELLO, Node.helloData), (ACTION_TCP_DATA, [7])] ∧
      l.handled .B <+: l.given .A := by
  have hrun : (run (step twoPlayers) (init twoPlayers) overtaking).any (fun l =>
      l.session .A = 1 ∧ l.session .B = 1 ∧ (l.pushed .A).length = 2 ∧
        l.handled .B = [(ACTION_HELLO, Node.helloData), (ACTION_TCP_DATA, [7])]) = true := by
    decide +kernel
  obtain ⟨l, hl, hp⟩ := Option.any_eq_true _ _ |>.mp hrun
  simp only [decide_eq_true_eq] at hp
  obtain ⟨hA, hB, hlen, hhan⟩ := hp
  have hle : ∀ t, l.session t ≤ 1 := side_cases .A hA.le hB.le
  exact ⟨l, hl, hhan, handled_prefix_given (s := .A) (.of_run overtaking hl fun _ _ _ => trivial) hle
    (by omega)⟩

/-! ### Conservation of fragments in one session -/

/-- Every fragment that `s` has pushed is kept by one of the sides until it is
handed over, and the other side holds nothing else. -/
theorem fragments_conserved (h : Runs (step e) (fun _ _ => True) (init e) l)
    (h1 : ∀ t, l.session t ≤ 1) (hlen : (l.pushed s).length < 2 ^ 32 - 1) :
    (∀ seq, 1 ≤ seq → seq < (l.endpoint e s).send.nextPushSeq → ∃ f, (l.pushed s)[seq - 1]? = some f ∧
      ((l.endpoint e s).send.fragmentAt seq = some f ∨
        (l.endpoint e s.other).receive.fragmentAt seq = some f ∨
        seq < (l.endpoint e s.other).receive.nextPopSeq)) ∧
    ∀ seq f, (l.endpoint e s.other).receive.fragmentAt seq = some f →
      1 ≤ seq ∧ seq < (l.endpoint e s).send.nextPushSeq ∧ (l.pushed s)[seq - 1]? = some f := by
  obtain ⟨hb, -⟩ := base_reads_run h
  obtain ⟨c, hc⟩ := agrees_run_one h h1 hlen
  have hin : l.InStep s := by
    intro i hi
    have hi' := (hb.heard s.other i hi).2
    rw [Side.other_other] at hi'
    have := h1 s
    omega
  obtain ⟨hrel, -⟩ := hc.receiver hin
  have hinv := hc.reach.inv
  constructor
  · intro seq hs1 hs2
    rw [hc.sender.next] at hs2
    have hlt : seq - 1 < c.pushed.length := by omega
    have hsome : c.pushed[seq - 1]? = some c.pushed[seq - 1] := List.getElem?_eq_getElem hlt
    refine ⟨c.pushed[seq - 1], by rw [hc.pushed]; exact hsome, ?_⟩
    rcases hc.kept (h1 s.other) seq hs1 (by omega) with hk | hk | hk
    · exact Or.inl ((hc.sender.unacked seq).trans (hk.trans hsome))
    · exact Or.inr (Or.inl ((hrel.held seq).trans (hk.trans hsome)))
    · rw [hrel.next]
      exact Or.inr (Or.inr (by omega))
  · intro seq f hf
    rw [hrel.held] at hf
    obtain ⟨hpos, hget⟩ := hinv.held_pushed seq f hf
    obtain ⟨hlt, -⟩ := List.getElem?_eq_some_iff.mp hget
    rw [hc.sender.next, hc.pushed]
    exact ⟨by omega, by omega, hget⟩

theorem fragments_conserved_overtaking : ∃ l, run (step twoPlayers) (init twoPlayers) overtaking =
    some l ∧ ∀ seq, 1 ≤ seq → seq < (l.endpoint twoPlayers .A).send.nextPushSeq →
      ∃ f, (l.pushed .A)[seq - 1]? = some f ∧
        ((l.endpoint twoPlayers .A).send.fragmentAt seq = some f ∨
          (l.endpoint twoPlayers .B).receive.fragmentAt seq = some f ∨
          seq < (l.endpoint twoPlayers .B).receive.nextPopSeq) := by
  have hrun : (run (step twoPlayers) (init twoPlayers) overtaking).any (fun l =>
      l.session .A = 1 ∧ l.session .B = 1 ∧ (l.pushed .A).length = 2) = true := by
    decide +kernel
  obtain ⟨l, hl, hp⟩ := Option.any_eq_true _ _ |>.mp hrun
  simp only [decide_eq_true_eq] at hp
  obtain ⟨hA, hB, hlen⟩ := hp
  have hle : ∀ t, l.session t ≤ 1 := side_cases .A hA.le hB.le
  have hruns : Runs (step twoPlayers) (fun _ _ => True) (init twoPlayers) l :=
    .of_run overtaking hl fun _ _ _ => trivial
  exact ⟨l, hl, (fragments_conserved (s := .A) hruns hle (by omega)).1⟩

/-! ### Acknowledgements across reconnections -/

/-- In a run in which everything is read in session, an acknowledgement that erases
a fragment says that the other side has handed over that fragment or holds it. -/
theorem acked_fragment_arrived (h : Runs (step e) (InSession s) (init e) l) {i : ℕ} {now : ℤ}
    {d : Datagram} {seq : ℕ} {f : Fragment} (hok : InSession s l (.deliver s i now))
    (hstep : l.step e (.deliver s i now) = some l') (hd : l.wire[i]? = some d)
    (hdec : Message.decode d.buf = some (.tcpAck seq))
    (hf : (l.endpoint e s).send.fragmentAt seq = some f) :
    (l.popped s.other)[seq - 1]? = some f ∨
      (l.endpoint e s.other).receive.fragmentAt seq = some f := by
  obtain ⟨c, hc⟩ := agrees_run h hok.2
  have hinv := hc.reach.inv
  have hsrc : d.src = s.other := by
    simp only [step, hd] at hstep
    split at hstep
    · rename_i hcond
      exact hcond.1
    · cases hstep
  have hread := hok.1
  simp only [readInSession, hd, hdec, decide_eq_true_eq] at hread
  obtain ⟨hrep, hsess⟩ := hread trivial
  have hacked := hc.acks d (List.mem_of_getElem? hd) hsrc hsess hrep seq hdec
  rw [hc.sender.unacked] at hf
  obtain ⟨hpos, hget⟩ := hinv.unacked_pushed seq f hf
  by_cases hin : l.InStep s
  · obtain ⟨hrel, hpop⟩ := hc.receiver hin
    rcases hinv.acked_arrived seq hacked with hle | ⟨g, hg⟩
    · refine Or.inl ?_
      obtain ⟨rest, hrest⟩ := hinv.popped_prefix
      rw [hpop, ← hget, ← hrest, List.getElem?_append_left (by omega)]
    · refine Or.inr ?_
      rw [hrel.held, hg, ← hget]
      exact (hinv.held_pushed seq g hg).2.symm
  · -- nothing of this session has arrived, so nothing of it can be acknowledged
    obtain ⟨hnil, hnone⟩ := hc.behind hin
    rcases hinv.acked_arrived seq hacked with hle | ⟨g, hg⟩
    · rw [hnil, List.length_nil] at hle
      omega
    · rw [hnone] at hg
      cases hg

/-- Both sides connect twice, and each side reads the greeting of the other's new session. -/
def reconnecting : List Event :=
  [.connectToPeer .A 0, .connectToPeer .B 0, .deliver .B 0 1, .connectToPeer .A 2,
    .connectToPeer .B 2, .deliver .B 3 3]

theorem acked_fragment_arrived_reconnecting : ∃ l l',
    run (guarded (step twoPlayers) (InSession .A)) (init twoPlayers) reconnecting = some l ∧
      l.session .A = 2 ∧ l.step twoPlayers (.deliver .A 5 4) = some l' ∧
      ((l.popped .B)[0]? = some (ACTION_HELLO, Node.helloData) ∨
        (l.endpoint twoPlayers .B).receive.fragmentAt 1 = some (ACTION_HELLO, Node.helloData)) := by
  have hrun : (run (guarded (step twoPlayers) (InSession .A)) (init twoPlayers) reconnecting).any
      (fun l => l.session .A = 2 ∧ InSession .A l (.deliver .A 5 4) ∧
        (l.step twoPlayers (.deliver .A 5 4)).isSome ∧
        l.wire[5]? = some ⟨.B, 2, 2, ⟨1, 6112⟩, encodeMessage ACTION_TCP_ACK 1 []⟩ ∧
        (l.endpoint twoPlayers .A).send.fragmentAt 1 = some (ACTION_HELLO, Node.helloData)) = true := by
    decide +kernel
  obtain ⟨l, hl, hp⟩ := Option.any_eq_true _ _ |>.mp hrun
  simp only [decide_eq_true_eq] at hp
  obtain ⟨hA, hok, hstep, hd, hf⟩ := hp
  obtain ⟨l', hl'⟩ := Option.isSome_iff_exists.mp hstep
  exact ⟨l, l', hl, hA, hl', acked_fragment_arrived (.of_run_guarded reconnecting hl) hok hl' hd
    (decode_ack (by decide)) hf⟩

/-- `A` reconnects and sends again while the acknowledgements of its first session
are still on their way. -/
def reconnectingAlone : List Event :=
  [.connectToPeer .A 0, .connectToPeer .B 0, .forwardGameData .A 1 ACTION_TCP_DATA [7],
    .deliver .B 0 2, .deliver .B 2 3, .connectToPeer .A 4, .forwardGameData .A 5 ACTION_TCP_DATA [8]]

/-- The acknowledgement of the old second fragment erases the new one, which the
other side has neither handed over nor holds. -/
theorem acked_fragment_lost : ∃ l l' d, run (step twoPlayers) (init twoPlayers) reconnectingAlone = some l ∧
    l.wire[4]? = some d ∧ Message.decode d.buf = some (.tcpAck 2) ∧
    l.step twoPlayers (.deliver .A 4 6) = some l' ∧
    (l.endpoint twoPlayers .A).send.fragmentAt 2 = some (ACTION_TCP_DATA, [8]) ∧
    (l'.endpoint twoPlayers .A).send.fragmentAt 2 = none ∧
    (ACTION_TCP_DATA, [8]) ∉ l.popped .B ∧ (l.endpoint twoPlayers .B).receive.empty = true := by
  have hrun : (run (step twoPlayers) (init twoPlayers) reconnectingAlone).any (fun l =>
      l.wire[4]? = some ⟨.B, 1, 1, ⟨1, 6112⟩, encodeMessage ACTION_TCP_ACK 2 []⟩ ∧
      (l.step twoPlayers (.deliver .A 4 6)).any (fun l' =>
        (l'.endpoint twoPlayers .A).send.fragmentAt 2 = none) ∧
      (l.endpoint twoPlayers .A).send.fragmentAt 2 = some (ACTION_TCP_DATA, [8]) ∧
      (ACTION_TCP_DATA, [8]) ∉ l.popped .B ∧
      (l.endpoint twoPlayers .B).receive.empty = true) = true := by
    decide +kernel
  obtain ⟨l, hl, hp⟩ := Option.any_eq_true _ _ |>.mp hrun
  simp only [decide_eq_true_eq] at hp
  obtain ⟨hd, hstep, hf, hpop, hempty⟩ := hp
  obtain ⟨l', hl', hnone⟩ := Option.any_eq_true _ _ |>.mp hstep
  exact ⟨l, l', _, hl, hd, decode_ack (by decide), hl', hf, of_decide_eq_true hnone, hpop, hempty⟩

end Link

end Gpgnet4TA.Tafnet
