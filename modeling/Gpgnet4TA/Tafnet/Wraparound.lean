import Gpgnet4TA.Tafnet.ReliableChannel

/-!
# Sequence numbers wrap around

Sequence numbers have 32 bits and nothing on the network tells one cycle of them
from the next. After a full cycle an acknowledgement of the first cycle erases a
fragment of the second.
-/

namespace Gpgnet4TA.Tafnet
open Gpgnet4TA.Lib

theorem encodeMessage_ne_nil (action seq : ℕ) (data : Bytes) : encodeMessage action seq data ≠ [] := by
  unfold encodeMessage
  split <;> simp

/-! ### Nodes that do not repeat datagrams -/

namespace Node

variable {n n' : Node} {peer : ℕ} {addr : HostAndPort}

theorem sendMessage_once (hp : n.proactiveResendEnabled = false)
    (ha : n.routes.1[peer]? = some addr) (action seq : ℕ) (data : Bytes) (k : ℤ) :
    n.sendMessage peer action seq data k = [.writeDatagram addr (encodeMessage action seq data)] := by
  have ha' : n.peerAddresses[peer]? = some addr := ha
  simp [sendMessage, ha', hp]

theorem proactive_onTcpAck (n : Node) (peer seq : ℕ) :
    (n.onTcpAck peer seq).proactiveResendEnabled = n.proactiveResendEnabled := by
  simp only [onTcpAck]
  split <;> rfl

theorem proactive_onReliable (n : Node) (now : ℤ) (throws : ℕ → Bool) (peer seq action : ℕ)
    (data : Bytes) : (n.onReliable now throws peer seq action data).1.proactiveResendEnabled =
      n.proactiveResendEnabled := by
  simp only [onReliable]
  split
  · rfl
  · split <;> rfl

theorem ack_mem_onReliable (hp : n.proactiveResendEnabled = false)
    (ha : n.routes.1[peer]? = some addr) (now : ℤ) (throws : ℕ → Bool) (seq action : ℕ)
    (data : Bytes) : .writeDatagram addr (encodeMessage ACTION_TCP_ACK seq []) ∈
      (n.onReliable now throws peer seq action data).2 := by
  have hack : ∀ (b : DataBuffer) (r : Bytes) (q : ResendRate) (k : ℤ),
      (((n.setReceiveBuffer peer b).setReassemblyBuffer peer r).setResendRate peer q).sendMessage peer
        ACTION_TCP_ACK seq [] k = [.writeDatagram addr (encodeMessage ACTION_TCP_ACK seq [])] :=
    fun b r q k => sendMessage_once hp ha _ _ _ _
  simp only [onReliable, hack]
  split
  · simp
  · split <;> simp

end Node

namespace Link

/-! ### One round -/

/-- `A` and `B` are connected once and have no fragment in a buffer; the next
fragment has number `q`. -/
structure Settled (l : Link) (q : ℕ) : Prop where
  runs : Runs (step twoPlayers) (fun _ _ => True) (init twoPlayers) l
  session : ∀ s, l.session s = 1
  once : ∀ s, (l.node s).proactiveResendEnabled = false
  send : (l.endpoint twoPlayers .A).send.data = ∅
  push : (l.endpoint twoPlayers .A).send.nextPushSeq = q
  receive : (l.endpoint twoPlayers .B).receive.data = ∅
  pop : (l.endpoint twoPlayers .B).receive.nextPopSeq = q

theorem fragmentsFor_singleton (n : Node) (peer action : ℕ) (b : Byte) :
    n.fragmentsFor peer action [b] = [(action, [b])] := by
  have h : 0 < fragmentSize n.maxPacketSize (n.resendRateOf peer).maxPacketSize 1 :=
    fragmentSize_pos _ _ _
  simp only [Node.fragmentsFor, fragments, List.length_singleton, fragmentLoop]
  rw [if_pos (by omega), if_pos (by omega), Nat.min_eq_right (by omega)]
  rfl

/-- `A` sends a message of one byte. -/
theorem forward_once {l : Link} {q : ℕ}
    (hr : Runs (step twoPlayers) (fun _ _ => True) (init twoPlayers) l)
    (h1 : ∀ s, l.session s = 1) (ho : ∀ s, (l.node s).proactiveResendEnabled = false)
    (hq : (l.endpoint twoPlayers .A).send.nextPushSeq = q) :
    ∃ l', Runs (step twoPlayers) (fun _ _ => True) (init twoPlayers) l' ∧
      (∀ s, l'.session s = 1) ∧ (∀ s, (l'.node s).proactiveResendEnabled = false) ∧
      (l'.endpoint twoPlayers .A).send =
        ((l.endpoint twoPlayers .A).send.pushBack 0 ACTION_TCP_DATA [7]).2 ∧
      l'.endpoint twoPlayers .B = l.endpoint twoPlayers .B ∧ l.wire ⊆ l'.wire ∧
      (⟨.A, 1, 0, ⟨2, 6112⟩, encodeMessage ACTION_TCP_DATA q [7]⟩ : Datagram) ∈ l'.wire := by
  obtain ⟨hb, -⟩ := base_reads_run hr
  have hpos : 0 < l.session .A := by rw [h1]; omega
  have hknown := (hb.known .A hpos).1
  have hstep : l.step twoPlayers (.forwardGameData .A 0 ACTION_TCP_DATA [7]) =
      some (l.forward twoPlayers .A 0 ACTION_TCP_DATA [7]) := by
    have hmem : ACTION_TCP_DATA ∈ messageActions := by decide
    simp [step, hpos, hmem]
  have hc : (l.node .A).peerAddresses.contains 2 = true := by
    rw [Std.ExtTreeMap.contains_eq_isSome_getElem?]
    exact Option.isSome_of_eq_some hknown
  obtain ⟨n0, hn0, hro, hpr, hfwd⟩ : ∃ n0 : Node, n0.endpoint 2 = (l.node .A).endpoint 2 ∧
      n0.routes = (l.node .A).routes ∧ n0.proactiveResendEnabled = false ∧
      (l.node .A).forwardGameData 0 2 ACTION_TCP_DATA [7] =
        ((n0.sendFragment 0 2 (ACTION_TCP_DATA, [7])).1,
          (n0.sendFragment 0 2 (ACTION_TCP_DATA, [7])).2 ++ []) := by
    refine ⟨((l.node .A).setSendBuffer 2 ((l.node .A).sendBufferOf 2)).setResendRate 2
      ((l.node .A).resendRateOf 2), ?_, rfl, ho .A, ?_⟩
    · rw [Node.endpoint_setResendRate, Node.endpoint_setSendBuffer]
      rfl
    · simp only [Node.forwardGameData, hc, if_true, le_refl, fragmentsFor_singleton]
      rfl
  have hnode : (l.forward twoPlayers .A 0 ACTION_TCP_DATA [7]).node =
      Function.update l.node .A (n0.sendFragment 0 2 (ACTION_TCP_DATA, [7])).1 := by
    show Function.update l.node .A ((l.node .A).forwardGameData 0 2 ACTION_TCP_DATA [7]).1 = _
    rw [hfwd]
  have hwire : (l.forward twoPlayers .A 0 ACTION_TCP_DATA [7]).wire = l.wire ++ written .A
      (l.session .A) 0 ((n0.sendFragment 0 2 (ACTION_TCP_DATA, [7])).2 ++ []) := by
    show l.wire ++ written .A (l.session .A) 0
      ((l.node .A).forwardGameData 0 2 ACTION_TCP_DATA [7]).2 = _
    rw [hfwd]
  refine ⟨_, hr.tail ⟨_, trivial, hstep⟩, h1, side_cases .A ?_ ?_, ?_, ?_, ?_, ?_⟩
  · rw [hnode, Function.update_self]
    exact hpr
  · rw [hnode]
    exact ho .B
  · show (Node.endpoint (Link.node _ .A) 2).send = _
    rw [hnode, Function.update_self, Node.endpoint_sendFragment, hn0]
    rfl
  · show Node.endpoint (Link.node _ .B) 1 = _
    rw [hnode]
    rfl
  · rw [hwire]
    exact List.subset_append_left _ _
  · have hout : (n0.sendFragment 0 2 (ACTION_TCP_DATA, [7])).2 =
        [.writeDatagram ⟨2, 6112⟩ (encodeMessage ACTION_TCP_DATA q [7])] := by
      have hseq : (n0.endpoint 2).send.nextPushSeq = q := by
        rw [hn0]
        exact hq
      rw [← hseq]
      refine Node.sendMessage_once hpr ?_ _ _ _ _
      rw [← hro] at hknown
      exact hknown
    rw [hwire, hout, h1]
    exact List.mem_append_right _ (List.mem_singleton.mpr rfl)

theorem drainAfter_next {n : Node} {peer q : ℕ} (hd : (n.endpoint peer).receive.data = ∅)
    (hq : (n.endpoint peer).receive.nextPopSeq = q) (now : ℤ) (data : Bytes) :
    (n.drainAfter now (fun _ => false) peer q ACTION_TCP_DATA data).buffer.data = ∅ ∧
      (n.drainAfter now (fun _ => false) peer q ACTION_TCP_DATA data).buffer.nextPopSeq =
        DataBuffer.succSeq q := by
  obtain ⟨b, hb⟩ : ∃ b, (n.endpoint peer).receive.insert now q ACTION_TCP_DATA data = b := ⟨_, rfl⟩
  have hdata : b.data = (∅ : Std.ExtTreeMap ℕ Payload).insert q (.set now ACTION_TCP_DATA data) := by
    rw [← hb, DataBuffer.insert, hq, if_pos le_rfl, hd]
  have hnext : b.nextPopSeq = q := by
    rw [← hb, DataBuffer.nextPopSeq_insert, hq]
  have hready : b.readyRead = true := by
    refine DataBuffer.readyRead_of_get (p := .set now ACTION_TCP_DATA data) ?_ ?_
    · simp [DataBuffer.get, hdata, hnext]
    · intro k p hk
      simp only [DataBuffer.get, hdata, Std.ExtTreeMap.getElem?_insert] at hk
      split at hk
      · rename_i he
        rw [hnext, Nat.compare_eq_eq.mp he]
      · simp at hk
  obtain ⟨p, hget, hpop⟩ := DataBuffer.pop_of_readyRead hready
  have hp : p.action = ACTION_TCP_DATA := by
    simp only [DataBuffer.get, hdata, hnext, Std.ExtTreeMap.getElem?_insert_self] at hget
    cases hget
    rfl
  have hsize : b.data.size = 1 := by
    rw [hdata]
    simp [Std.ExtTreeMap.size_insert]
  have hdrain : (n.drainAfter now (fun _ => false) peer q ACTION_TCP_DATA data).buffer =
      { b with data := b.data.erase b.nextPopSeq, nextPopSeq := DataBuffer.succSeq b.nextPopSeq } := by
    have hb' : (n.receiveBufferOf peer).insert now q ACTION_TCP_DATA data = b := hb
    have hm : ¬ p.action = ACTION_MORE := by
      rw [hp]
      decide
    simp only [Node.drainAfter, hb', hsize, Node.drain, hpop, if_neg hm, Bool.false_eq_true, if_false]
  rw [hdrain]
  refine ⟨?_, by rw [hnext]⟩
  rw [hdata, hnext]
  refine Std.ExtTreeMap.ext_getElem? fun k => ?_
  by_cases hk : q = k
  · simp [hk]
  · simp [hk]

theorem receive_of_onDatagram {e : Ends} {l : Link} {dst : Side} {d : Datagram} {now : ℤ}
    {r : Node × List Output}
    (h : (l.node dst).onDatagram now (fun _ => false) (e.addr d.src) d.buf = some r) :
    ∃ l', l.receive e dst d now = some l' ∧ l'.node = Function.update l.node dst r.1 ∧
      l'.wire = l.wire ++ written dst (l.session dst) d.session r.2 ∧ l'.session = l.session :=
  ⟨_, congrArg (Option.map _) h, rfl, rfl, rfl⟩

/-- `B` reads the next fragment and acknowledges it. -/
theorem receive_once {l : Link} {q : ℕ} (hq32 : q < 2 ^ 32)
    (hr : Runs (step twoPlayers) (fun _ _ => True) (init twoPlayers) l)
    (h1 : ∀ s, l.session s = 1) (ho : ∀ s, (l.node s).proactiveResendEnabled = false)
    (hd : (l.endpoint twoPlayers .B).receive.data = ∅)
    (hq : (l.endpoint twoPlayers .B).receive.nextPopSeq = q)
    (hw : (⟨.A, 1, 0, ⟨2, 6112⟩, encodeMessage ACTION_TCP_DATA q [7]⟩ : Datagram) ∈ l.wire) :
    ∃ l', Runs (step twoPlayers) (fun _ _ => True) (init twoPlayers) l' ∧
      (∀ s, l'.session s = 1) ∧ (∀ s, (l'.node s).proactiveResendEnabled = false) ∧
      (l'.endpoint twoPlayers .B).receive.data = ∅ ∧
      (l'.endpoint twoPlayers .B).receive.nextPopSeq = DataBuffer.succSeq q ∧
      l'.endpoint twoPlayers .A = l.endpoint twoPlayers .A ∧ l.wire ⊆ l'.wire ∧
      (⟨.B, 1, 1, ⟨1, 6112⟩, encodeMessage ACTION_TCP_ACK q []⟩ : Datagram) ∈ l'.wire := by
  obtain ⟨hb, -⟩ := base_reads_run hr
  obtain ⟨hk1, hk2⟩ := hb.known .B (by rw [h1]; omega)
  obtain ⟨i, hi⟩ := List.getElem?_of_mem hw
  have hdec := decode_reliable (by decide : ACTION_TCP_DATA ∈ reliableActions) hq32 [7]
  have hne := encodeMessage_ne_nil ACTION_TCP_DATA q [7]
  have hon : (l.node .B).onDatagram 0 (fun _ => false) ⟨1, 6112⟩ (encodeMessage ACTION_TCP_DATA q [7]) =
      some (((l.node .B).touch 1).onReliable 0 (fun _ => false) 1 q ACTION_TCP_DATA [7]) := by
    have hk2' : (l.node .B).peerPlayerIds[(⟨1, 6112⟩ : HostAndPort)]? = some 1 := hk2
    simp only [Node.onDatagram, if_neg hne, hk2', hdec]
  have hstep : l.step twoPlayers (.deliver .B i 0) = l.receive twoPlayers .B
      ⟨.A, 1, 0, ⟨2, 6112⟩, encodeMessage ACTION_TCP_DATA q [7]⟩ 0 := by
    simp only [step, hi]
    rfl
  obtain ⟨l', hrec, hnode, hwire, hsess⟩ := receive_of_onDatagram
    (e := twoPlayers) (d := ⟨.A, 1, 0, ⟨2, 6112⟩, encodeMessage ACTION_TCP_DATA q [7]⟩) hon
  obtain ⟨hbuf, hpop⟩ := drainAfter_next hd hq 0 [7]
  have hend : (l'.endpoint twoPlayers .B).receive =
      ((l.node .B).drainAfter 0 (fun _ => false) 1 q ACTION_TCP_DATA [7]).buffer := by
    show (Node.endpoint (l'.node .B) 1).receive = _
    rw [hnode, Function.update_self, Node.endpoint_onReliable, Node.drainAfter_touch]
  refine ⟨l', hr.tail ⟨_, trivial, hstep.trans hrec⟩, by rw [hsess]; exact h1,
    side_cases .B ?_ ?_, ?_, ?_, ?_, ?_, ?_⟩
  · rw [hnode, Function.update_self, Node.proactive_onReliable]
    exact ho .B
  · rw [hnode]
    exact ho .A
  · rw [hend]
    exact hbuf
  · rw [hend]
    exact hpop
  · show Node.endpoint (l'.node .A) 2 = _
    rw [hnode]
    rfl
  · rw [hwire]
    exact List.subset_append_left _ _
  · rw [hwire]
    refine List.mem_append_right _ (List.mem_filterMap.mpr
      ⟨.writeDatagram ⟨1, 6112⟩ (encodeMessage ACTION_TCP_ACK q []), ?_, by simp [h1]⟩)
    have hp : ((l.node .B).touch 1).proactiveResendEnabled = false := ho .B
    have ha : ((l.node .B).touch 1).routes.1[1]? = some (⟨1, 6112⟩ : HostAndPort) := hk1
    exact Node.ack_mem_onReliable hp ha 0 (fun _ => false) q ACTION_TCP_DATA [7]

/-- `A` reads an acknowledgement. -/
theorem ack_once {l : Link} {q : ℕ} (hq32 : q < 2 ^ 32)
    (hr : Runs (step twoPlayers) (fun _ _ => True) (init twoPlayers) l)
    (h1 : ∀ s, l.session s = 1) (ho : ∀ s, (l.node s).proactiveResendEnabled = false)
    (hw : (⟨.B, 1, 1, ⟨1, 6112⟩, encodeMessage ACTION_TCP_ACK q []⟩ : Datagram) ∈ l.wire) :
    ∃ l', Runs (step twoPlayers) (fun _ _ => True) (init twoPlayers) l' ∧
      (∀ s, l'.session s = 1) ∧ (∀ s, (l'.node s).proactiveResendEnabled = false) ∧
      (l'.endpoint twoPlayers .A).send = ((l.endpoint twoPlayers .A).send.ackData q).2 ∧
      l'.endpoint twoPlayers .B = l.endpoint twoPlayers .B ∧ l.wire ⊆ l'.wire := by
  obtain ⟨hb, -⟩ := base_reads_run hr
  obtain ⟨-, hk2⟩ := hb.known .A (by rw [h1]; omega)
  obtain ⟨i, hi⟩ := List.getElem?_of_mem hw
  have hne := encodeMessage_ne_nil ACTION_TCP_ACK q []
  have hon : (l.node .A).onDatagram 0 (fun _ => false) ⟨2, 6112⟩ (encodeMessage ACTION_TCP_ACK q []) =
      some (((l.node .A).touch 2).onTcpAck 2 q, []) := by
    have hk2' : (l.node .A).peerPlayerIds[(⟨2, 6112⟩ : HostAndPort)]? = some 2 := hk2
    simp only [Node.onDatagram, if_neg hne, hk2', decode_ack hq32]
  have hstep : l.step twoPlayers (.deliver .A i 0) = l.receive twoPlayers .A
      ⟨.B, 1, 1, ⟨1, 6112⟩, encodeMessage ACTION_TCP_ACK q []⟩ 0 := by
    simp only [step, hi]
    rfl
  obtain ⟨l', hrec, hnode, hwire, hsess⟩ := receive_of_onDatagram
    (e := twoPlayers) (d := ⟨.B, 1, 1, ⟨1, 6112⟩, encodeMessage ACTION_TCP_ACK q []⟩) hon
  refine ⟨l', hr.tail ⟨_, trivial, hstep.trans hrec⟩, by rw [hsess]; exact h1,
    side_cases .A ?_ ?_, ?_, ?_, ?_⟩
  · rw [hnode, Function.update_self, Node.proactive_onTcpAck]
    exact ho .A
  · rw [hnode]
    exact ho .B
  · show (Node.endpoint (l'.node .A) 2).send = _
    rw [hnode, Function.update_self, Node.endpoint_onTcpAck, Node.endpoint_touch]
    rfl
  · show Node.endpoint (l'.node .B) 1 = _
    rw [hnode]
    rfl
  · rw [hwire]
    exact List.subset_append_left _ _

theorem Settled.round {l : Link} {q : ℕ} (h : Settled l q) (hq32 : q < 2 ^ 32) :
    ∃ l', Settled l' (DataBuffer.succSeq q) ∧ l.wire ⊆ l'.wire ∧
      (⟨.B, 1, 1, ⟨1, 6112⟩, encodeMessage ACTION_TCP_ACK q []⟩ : Datagram) ∈ l'.wire := by
  obtain ⟨l1, hr1, hs1, ho1, hsend, hB1, hw1, hmem1⟩ := forward_once h.runs h.session h.once h.push
  have hd1 : (l1.endpoint twoPlayers .B).receive.data = ∅ := by rw [hB1]; exact h.receive
  have hq1 : (l1.endpoint twoPlayers .B).receive.nextPopSeq = q := by rw [hB1]; exact h.pop
  obtain ⟨l2, hr2, hs2, ho2, hd2, hp2, hA2, hw2, hmem2⟩ :=
    receive_once hq32 hr1 hs1 ho1 hd1 hq1 hmem1
  obtain ⟨l3, hr3, hs3, ho3, hsend3, hB3, hw3⟩ := ack_once hq32 hr2 hs2 ho2 hmem2
  have hpush : (l3.endpoint twoPlayers .A).send =
      (((l.endpoint twoPlayers .A).send.pushBack 0 ACTION_TCP_DATA [7]).2.ackData q).2 := by
    rw [hsend3, hA2, hsend]
  refine ⟨l3, ⟨hr3, hs3, ho3, ?_, ?_, ?_, ?_⟩, fun _ hx => hw3 (hw2 (hw1 hx)), hw3 hmem2⟩
  · rw [hpush]
    show (((l.endpoint twoPlayers .A).send.data.insert _ _).erase q) = ∅
    rw [h.send, h.push]
    refine Std.ExtTreeMap.ext_getElem? fun k => ?_
    by_cases hk : q = k
    · simp [hk]
    · simp [hk]
  · rw [hpush]
    show DataBuffer.succSeq _ = _
    rw [h.push]
  · rw [hB3]
    exact hd2
  · rw [hB3]
    exact hp2

/-! ### A whole cycle -/

def greeting : List Event :=
  [.connectToPeer .A 0, .connectToPeer .B 0, .deliver .B 0 0, .deliver .A 2 0]

theorem settled_greeting : ∃ l, Settled l 2 := by
  have hrun : (run (step twoPlayers) (init twoPlayers) greeting).any (fun l =>
      (l.session .A = 1 ∧ l.session .B = 1) ∧ ((l.node .A).proactiveResendEnabled = false ∧
      (l.node .B).proactiveResendEnabled = false) ∧
      (l.endpoint twoPlayers .A).send.data.isEmpty ∧ (l.endpoint twoPlayers .A).send.nextPushSeq = 2 ∧
      (l.endpoint twoPlayers .B).receive.data.isEmpty ∧
      (l.endpoint twoPlayers .B).receive.nextPopSeq = 2) = true := by
    decide +kernel
  obtain ⟨l, hl, hp⟩ := Option.any_eq_true _ _ |>.mp hrun
  simp only [decide_eq_true_eq] at hp
  obtain ⟨⟨hA, hB⟩, ⟨hoA, hoB⟩, hsend, hpush, hrec, hpop⟩ := hp
  exact ⟨l, .of_run greeting hl fun _ _ _ => trivial, side_cases .A hA hB, side_cases .A hoA hoB,
    Std.ExtTreeMap.isEmpty_iff.mp hsend, hpush, Std.ExtTreeMap.isEmpty_iff.mp hrec, hpop⟩

theorem settled_rounds (k : ℕ) : ∃ l, Settled l ((k + 3) % 2 ^ 32) ∧
    (⟨.B, 1, 1, ⟨1, 6112⟩, encodeMessage ACTION_TCP_ACK 2 []⟩ : Datagram) ∈ l.wire := by
  induction k with
  | zero =>
    obtain ⟨l, hl⟩ := settled_greeting
    obtain ⟨l', hl', -, hmem⟩ := hl.round (by omega)
    exact ⟨l', hl', hmem⟩
  | succ k ih =>
    obtain ⟨l, hl, hmem⟩ := ih
    obtain ⟨l', hl', hsub, -⟩ := hl.round (Nat.mod_lt _ (by omega))
    refine ⟨l', ?_, hsub hmem⟩
    have hmod : DataBuffer.succSeq ((k + 3) % 2 ^ 32) = (k + 1 + 3) % 2 ^ 32 := by
      simp only [DataBuffer.succSeq]
      omega
    rw [← hmod]
    exact hl'

/-- After a cycle of sequence numbers a fragment with number 2 is with neither side
and has not been handed over. -/
theorem fragment_lost_after_wraparound : ∃ l,
    Runs (step twoPlayers) (fun _ _ => True) (init twoPlayers) l ∧ (∀ s, l.session s = 1) ∧
    2 < (l.endpoint twoPlayers .A).send.nextPushSeq ∧
    (l.endpoint twoPlayers .A).send.fragmentAt 2 = none ∧
    (l.endpoint twoPlayers .B).receive.fragmentAt 2 = none ∧
    ¬ 2 < (l.endpoint twoPlayers .B).receive.nextPopSeq := by
  obtain ⟨l, hl, hmem⟩ := settled_rounds (2 ^ 32 - 2)
  have hone : (2 ^ 32 - 2 + 3) % 2 ^ 32 = 1 := by norm_num
  rw [hone] at hl
  obtain ⟨l1, hr1, hs1, ho1, hA1, hB1, hw1, -⟩ := forward_once hl.runs hl.session hl.once hl.push
  have hnext1 : (l1.endpoint twoPlayers .A).send.nextPushSeq = 2 := by
    rw [hA1]
    show DataBuffer.succSeq _ = 2
    rw [hl.push]
    rfl
  obtain ⟨l2, hr2, hs2, ho2, hA2, hB2, hw2, -⟩ := forward_once hr1 hs1 ho1 hnext1
  have hnext2 : (l2.endpoint twoPlayers .A).send.nextPushSeq = 3 := by
    rw [hA2]
    show DataBuffer.succSeq _ = 3
    rw [hnext1]
    rfl
  obtain ⟨l3, hr3, hs3, -, hA3, hB3, -⟩ := ack_once (by omega) hr2 hs2 ho2 (hw2 (hw1 hmem))
  have hB : l3.endpoint twoPlayers .B = l.endpoint twoPlayers .B := hB3.trans (hB2.trans hB1)
  refine ⟨l3, hr3, hs3, ?_, ?_, ?_, ?_⟩
  · rw [hA3]
    show 2 < (l2.endpoint twoPlayers .A).send.nextPushSeq
    omega
  · rw [hA3, DataBuffer.fragmentAt_ackData, if_pos rfl]
  · rw [hB]
    simp [DataBuffer.fragmentAt, DataBuffer.get, hl.receive]
  · rw [hB, hl.pop]
    omega

end Link

end Gpgnet4TA.Tafnet
