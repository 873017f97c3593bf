import Gpgnet4TA.Tafnet.Link

/-!
# What a node does to a channel

The send buffer of one node and the receive buffer of the other are the two ends
of an `Arq.Channel`. `Did` lists what an event can do to one connection of a node;
for each of its cases the sending end and the receiving end follow moves of the
channel.
-/

namespace Gpgnet4TA.Tafnet
open Gpgnet4TA.Lib Gpgnet4TA.Lib.Arq

abbrev FragChannel := Channel Fragment

/-! ### One end at a time -/

structure SenderRel (b : DataBuffer) (c : FragChannel) : Prop where
  unacked : ∀ seq, b.fragmentAt seq = c.unacked seq
  next : b.nextPushSeq = c.pushed.length + 1

structure ReceiverRel (b : DataBuffer) (c : FragChannel) : Prop where
  held : ∀ seq, b.fragmentAt seq = c.held seq
  next : b.nextPopSeq = c.popped.length + 1

theorem senderRel_new {c : FragChannel} (hp : c.pushed = []) (hu : ∀ seq, c.unacked seq = none) :
    SenderRel .new c := ⟨by simp [hu], by simp [DataBuffer.new, hp]⟩

theorem receiverRel_new {c : FragChannel} (hp : c.popped = []) (hh : ∀ seq, c.held seq = none) :
    ReceiverRel .new c := ⟨by simp [hh], by simp [DataBuffer.new, hp]⟩

/-- `c'` arises from `c` by moves of the sender that push `fs`. -/
structure Pushes (c c' : FragChannel) (fs : List Fragment) : Prop where
  steps : Relation.ReflTransGen Channel.Step c c'
  pushed : c'.pushed = c.pushed ++ fs
  held : c'.held = c.held
  popped : c'.popped = c.popped
  acked : c'.acked = c.acked
  sent : c.sent ⊆ c'.sent

theorem Pushes.refl (c : FragChannel) : Pushes c c [] :=
  ⟨.refl, by simp, rfl, rfl, rfl, subset_rfl⟩

theorem Pushes.trans {c c' c'' : FragChannel} {fs gs : List Fragment} (h : Pushes c c' fs)
    (h' : Pushes c' c'' gs) : Pushes c c'' (fs ++ gs) where
  steps := h.steps.trans h'.steps
  pushed := by rw [h'.pushed, h.pushed, List.append_assoc]
  held := h'.held.trans h.held
  popped := h'.popped.trans h.popped
  acked := h'.acked.trans h.acked
  sent := h.sent.trans h'.sent

/-- The reliable datagrams among some outputs are on the channel. -/
def Shown (out : List Output) (c : FragChannel) : Prop :=
  ∀ dest buf, .writeDatagram dest buf ∈ out → ∀ seq action data,
    Message.decode buf = some (.reliable seq action data) → (seq, (action, data)) ∈ c.sent

theorem sendFragment_sim (now : ℤ) {n : Node} {peer : ℕ} {f : Fragment} {c : FragChannel}
    (h : SenderRel (n.endpoint peer).send c) (hf : f.1 ∈ reliableActions)
    (hlen : c.pushed.length + 1 < 2 ^ 32 - 1) :
    ∃ c', Pushes c c' [f] ∧ SenderRel ((n.sendFragment now peer f).1.endpoint peer).send c' ∧
      Shown (n.sendFragment now peer f).2 c' := by
  obtain ⟨hge, hlt, -⟩ := ofAction_reliable hf 0 []
  have hsend : (c.push f).unacked (c.pushed.length + 1) = some f := by simp [Channel.push]
  refine ⟨(c.push f).send (c.pushed.length + 1) f, ?_, ?_, ?_⟩
  · refine ⟨.tail (.tail .refl (.push c f)) (.send _ _ _ hsend), rfl, rfl, rfl, rfl, ?_⟩
    exact Set.subset_insert _ _
  · rw [Node.endpoint_sendFragment]
    constructor
    · intro seq
      show DataBuffer.fragmentAt _ seq = Function.update c.unacked (c.pushed.length + 1) (some f) seq
      rw [DataBuffer.fragmentAt_pushBack, h.next]
      by_cases hs : seq = c.pushed.length + 1
      · subst hs
        simp [Nat.mod_eq_of_lt hlt]
      · rw [if_neg (Ne.symm hs), Function.update_of_ne hs]
        exact h.unacked seq
    · have hmod : (c.pushed.length + 1 + 1) % 2 ^ 32 = c.pushed.length + 1 + 1 :=
        Nat.mod_eq_of_lt (by omega)
      simp only [DataBuffer.pushBack, DataBuffer.succSeq, h.next, hmod, Channel.send, Channel.push,
        List.length_append, List.length_singleton]
  · intro dest buf hw seq action data hdec
    obtain ⟨addr, -, he⟩ := Node.mem_sendFragment hw
    cases he
    rw [h.next, decode_reliable hf (by omega)] at hdec
    cases hdec
    exact Set.mem_insert _ _

theorem sendFragments_sim {now : ℤ} {peer : ℕ} (fs : List Fragment) {n : Node} {c : FragChannel}
    (h : SenderRel (n.endpoint peer).send c) (hfs : ∀ f ∈ fs, f.1 ∈ reliableActions)
    (hlen : c.pushed.length + fs.length < 2 ^ 32 - 1) :
    ∃ c', Pushes c c' fs ∧ SenderRel ((Node.sendFragments now peer n fs).1.endpoint peer).send c' ∧
      Shown (Node.sendFragments now peer n fs).2 c' := by
  induction fs generalizing n c with
  | nil => exact ⟨c, .refl c, h, by intro dest buf hw; simp [Node.sendFragments] at hw⟩
  | cons f fs ih =>
    simp only [List.length_cons] at hlen
    obtain ⟨c1, hp1, hs1, hw1⟩ := sendFragment_sim now h (hfs f (List.mem_cons_self ..))
      (by omega)
    have hlen1 : c1.pushed.length + fs.length < 2 ^ 32 - 1 := by
      rw [hp1.pushed]
      simp only [List.length_append, List.length_singleton]
      omega
    obtain ⟨c2, hp2, hs2, hw2⟩ := ih hs1 (fun g hg => hfs g (List.mem_cons_of_mem _ hg)) hlen1
    refine ⟨c2, hp1.trans hp2, hs2, ?_⟩
    intro dest buf hw seq action data hdec
    rcases List.mem_append.mp hw with hw | hw
    · exact hp2.sent (hw1 dest buf hw seq action data hdec)
    · exact hw2 dest buf hw seq action data hdec

theorem sendAll (c : FragChannel) : ∀ k, ∃ c', Pushes c c' [] ∧ c'.unacked = c.unacked ∧
    ∀ seq f, seq ≤ k → c.unacked seq = some f → (seq, f) ∈ c'.sent
  | 0 => by
    cases h : c.unacked 0 with
    | none =>
      refine ⟨c, .refl c, rfl, ?_⟩
      intro seq f hs hf
      rw [Nat.le_zero.mp hs, h] at hf
      cases hf
    | some g =>
      refine ⟨c.send 0 g, ⟨.tail .refl (.send c 0 g h), by simp [Channel.send], rfl, rfl, rfl,
        Set.subset_insert _ _⟩, rfl, ?_⟩
      intro seq f hs hf
      rw [Nat.le_zero.mp hs, h] at hf
      cases hf
      rw [Nat.le_zero.mp hs]
      exact Set.mem_insert _ _
  | k + 1 => by
    obtain ⟨c1, hp, hu, hall⟩ := sendAll c k
    cases h : c.unacked (k + 1) with
    | none =>
      refine ⟨c1, hp, hu, ?_⟩
      intro seq f hs hf
      by_cases he : seq = k + 1
      · rw [he, h] at hf
        cases hf
      · exact hall seq f (by omega) hf
    | some g =>
      have hg : c1.unacked (k + 1) = some g := by rw [hu]; exact h
      have hp2 : Pushes c1 (c1.send (k + 1) g) [] :=
        ⟨.tail .refl (.send c1 (k + 1) g hg), by simp [Channel.send], rfl, rfl, rfl,
          Set.subset_insert _ _⟩
      refine ⟨c1.send (k + 1) g, hp.trans hp2, hu, ?_⟩
      intro seq f hs hf
      by_cases he : seq = k + 1
      · rw [he, h] at hf
        cases hf
        rw [he]
        exact Set.mem_insert _ _
      · exact Set.mem_insert_of_mem _ (hall seq f (by omega) hf)

/-! ### The receiving end -/

/-- `c'` arises from `c` by moves of the receiver that pop `fs`. -/
structure Receives (c c' : FragChannel) (fs : List Fragment) : Prop where
  steps : Relation.ReflTransGen Channel.Step c c'
  popped : c'.popped = c.popped ++ fs
  pushed : c'.pushed = c.pushed
  unacked : c'.unacked = c.unacked
  sent : c'.sent = c.sent
  acked : c.acked ⊆ c'.acked

theorem Receives.refl (c : FragChannel) : Receives c c [] :=
  ⟨.refl, by simp, rfl, rfl, rfl, subset_rfl⟩

theorem Receives.trans {c c' c'' : FragChannel} {fs gs : List Fragment} (h : Receives c c' fs)
    (h' : Receives c' c'' gs) : Receives c c'' (fs ++ gs) where
  steps := h.steps.trans h'.steps
  popped := by rw [h'.popped, h.popped, List.append_assoc]
  pushed := h'.pushed.trans h.pushed
  unacked := h'.unacked.trans h.unacked
  sent := h'.sent.trans h.sent
  acked := h.acked.trans h'.acked

theorem pop_sim {b : DataBuffer} {p : Payload} {c : FragChannel} (hinv : c.Inv)
    (hlen : c.pushed.length < 2 ^ 32 - 1) (h : ReceiverRel b c) (hget : b.get b.nextPopSeq = some p) :
    Receives c (c.pop p.fragment) [p.fragment] ∧ ReceiverRel { b with
      data := b.data.erase b.nextPopSeq, nextPopSeq := DataBuffer.succSeq b.nextPopSeq }
      (c.pop p.fragment) := by
  have hheld : c.held (c.popped.length + 1) = some p.fragment := by
    rw [← h.held, ← h.next]
    simp [DataBuffer.fragmentAt, hget]
  refine ⟨⟨.single (.pop c p.fragment hheld), rfl, rfl, rfl, rfl, subset_rfl⟩, ?_, ?_⟩
  · intro seq
    have he := DataBuffer.fragmentAt_ackData b b.nextPopSeq seq
    show (b.ackData b.nextPopSeq).2.fragmentAt seq =
      Function.update c.held (c.popped.length + 1) none seq
    rw [he, h.next]
    by_cases hs : seq = c.popped.length + 1
    · subst hs
      simp
    · rw [if_neg (Ne.symm hs), Function.update_of_ne hs]
      exact h.held seq
  · have hbound : c.popped.length + 1 ≤ c.pushed.length := by
      have hsome := (hinv.held_pushed _ _ hheld).2
      obtain ⟨hlt, -⟩ := List.getElem?_eq_some_iff.mp hsome
      omega
    have hmod : (c.popped.length + 1 + 1) % 2 ^ 32 = c.popped.length + 1 + 1 :=
      Nat.mod_eq_of_lt (by omega)
    simp only [DataBuffer.succSeq, h.next, hmod, Channel.pop, List.length_append,
      List.length_singleton]

theorem pops_sim {b b' : DataBuffer} {fs : List Fragment} (hp : Node.Pops b fs b') :
    ∀ {c : FragChannel}, c.Reachable → c.pushed.length < 2 ^ 32 - 1 → ReceiverRel b c →
      ∃ c', Receives c c' fs ∧ ReceiverRel b' c' := by
  induction hp with
  | nil b => exact fun {c} _ _ h => ⟨c, .refl c, h⟩
  | @cons b b1 p fs b2 hpop _ ih =>
    intro c hreach hlen h
    have hready : b.readyRead = true := by
      by_contra hn
      rw [DataBuffer.pop_of_not_readyRead (by simpa using hn)] at hpop
      cases hpop
    obtain ⟨q, hget, hpop'⟩ := DataBuffer.pop_of_readyRead hready
    rw [hpop'] at hpop
    cases hpop
    obtain ⟨hr, hrel⟩ := pop_sim hreach.inv hlen h hget
    obtain ⟨c', hr', hrel'⟩ := ih (hreach.steps hr.steps) hlen hrel
    exact ⟨c', hr.trans hr', hrel'⟩

theorem insert_sim {b : DataBuffer} {c : FragChannel} {seq action : ℕ} {data : Bytes} (now : ℤ)
    (h : ReceiverRel b c) (hs : (seq, (action, data)) ∈ c.sent) (hact : action < 256) :
    Receives c (c.receive seq (action, data)) [] ∧
      ReceiverRel (b.insert now seq action data) (c.receive seq (action, data)) ∧
      seq ∈ (c.receive seq (action, data)).acked := by
  refine ⟨⟨.single (.receive c seq _ hs), by simp [Channel.receive], rfl, rfl, rfl,
    Set.subset_insert _ _⟩, ⟨?_, ?_⟩, Set.mem_insert _ _⟩
  · intro k
    show _ = (if c.popped.length < seq then Function.update c.held seq (some (action, data))
      else c.held) k
    rw [DataBuffer.fragmentAt_insert, h.next, Nat.mod_eq_of_lt hact]
    by_cases hlt : c.popped.length < seq
    · rw [if_pos hlt]
      by_cases hk : seq = k
      · subst hk
        rw [if_pos ⟨by omega, rfl⟩, Function.update_self]
      · rw [if_neg (by omega), Function.update_of_ne (Ne.symm hk)]
        exact h.held k
    · rw [if_neg (by omega), if_neg hlt]
      exact h.held k
  · rw [DataBuffer.nextPopSeq_insert]
    exact h.next

/-! ### What an event does to one connection -/

/-- A record of one event at a node, as far as one peer is concerned. -/
structure Effect where
  read : Option Message  -- the message of the peer that was read
  out : List Output
  given : List (ℕ × Bytes)
  pushed : List Fragment
  popped : List Fragment

/-- Neither reliable data nor an acknowledgement. -/
def Idle (m : Option Message) : Prop :=
  (∀ seq action data, m ≠ some (.reliable seq action data)) ∧ ∀ seq, m ≠ some (.tcpAck seq)

inductive Did (n n' : Node) (peer : ℕ) : Effect → Prop
  | quiet (m : Option Message) (out : List Output) (hm : Idle m)
      (he : n'.endpoint peer = n.endpoint peer)
      (hw : ∀ dest buf, .writeDatagram dest buf ∈ out → Idle (Message.decode buf) ∨
        ∃ seq p, (n.endpoint peer).send.get seq = some p ∧ buf = encodeMessage p.action seq p.buf)
      (hh : handledIn out = []) : Did n n' peer ⟨m, out, [], [], []⟩
  | push (now : ℤ) (n0 : Node) (action : ℕ) (data : Bytes) (fs : List Fragment)
      (ha : action ∈ reliableActions) (hne : action ≠ ACTION_MORE)
      (hp : Reassembly.Pieces ACTION_MORE action data fs)
      (he0 : n0.endpoint peer = n.endpoint peer)
      (he : n'.endpoint peer = (Node.sendFragments now peer n0 fs).1.endpoint peer) :
      Did n n' peer ⟨none, (Node.sendFragments now peer n0 fs).2, [(action, data)], fs, []⟩
  | ack (seq : ℕ) (he : n'.endpoint peer = { n.endpoint peer with
        send := ((n.endpoint peer).send.ackData seq).2 }) :
      Did n n' peer ⟨some (.tcpAck seq), [], [], [], []⟩
  | receive (now : ℤ) (seq action : ℕ) (data : Bytes) (out : List Output) (hact : action < 256)
      (hseq : seq < 2 ^ 32)
      (he : n'.endpoint peer = { n.endpoint peer with
        receive := (n.drainAfter now (fun _ => false) peer seq action data).buffer
        reassembly := (n.drainAfter now (fun _ => false) peer seq action data).reassembly })
      (hw : ∀ dest buf, .writeDatagram dest buf ∈ out → buf = encodeMessage ACTION_TCP_ACK seq [] ∨
        ∃ s, buf = encodeMessage ACTION_TCP_RESEND s [])
      (hh : handledIn out = (n.drainAfter now (fun _ => false) peer seq action data).handled.filter
        fun m => ACTION_TCP_DATA ≤ m.1) :
      Did n n' peer ⟨some (.reliable seq action data), out, [], [],
        (n.drainAfter now (fun _ => false) peer seq action data).popped⟩

def Node.SendsReliable (n : Node) (peer : ℕ) : Prop :=
  ∀ seq p, (n.endpoint peer).send.get seq = some p → p.action ∈ reliableActions

theorem Did.pushed_reliable {n n' : Node} {peer : ℕ} {x : Effect} (h : Did n n' peer x) :
    ∀ f ∈ x.pushed, f.1 ∈ reliableActions := by
  cases h with
  | push now n0 action data fs ha hne hp he0 he =>
    intro f hf
    rcases hp.kind_eq ACTION_MORE f hf with hk | hk
    · rw [hk]
      exact ha
    · rw [hk]
      decide
  | quiet => simp
  | ack => simp
  | receive => simp

theorem DataBuffer.fragmentAt_of_get {b : DataBuffer} {seq : ℕ} {p : Payload}
    (h : b.get seq = some p) : b.fragmentAt seq = some (p.action, p.buf) := by
  simp [fragmentAt, h, Payload.fragment]

theorem quiet_sim {n : Node} {peer : ℕ} {out : List Output} {c : FragChannel}
    (hn : n.SendsReliable peer) (hreach : c.Reachable) (hlen : c.pushed.length < 2 ^ 32 - 1)
    (hrel : SenderRel (n.endpoint peer).send c)
    (hw : ∀ dest buf, .writeDatagram dest buf ∈ out → Idle (Message.decode buf) ∨
      ∃ seq p, (n.endpoint peer).send.get seq = some p ∧ buf = encodeMessage p.action seq p.buf) :
    ∃ c', Pushes c c' [] ∧ SenderRel (n.endpoint peer).send c' ∧ Shown out c' := by
  obtain ⟨c', hp, hu, hall⟩ := sendAll c c.pushed.length
  refine ⟨c', hp, ⟨?_, ?_⟩, ?_⟩
  · intro seq
    rw [hu]
    exact hrel.unacked seq
  · rw [hp.pushed, List.append_nil]
    exact hrel.next
  · intro dest buf hb seq action data hdec
    rcases hw dest buf hb with hi | ⟨k, p, hk, rfl⟩
    · exact absurd hdec (hi.1 seq action data)
    · have hun : c.unacked k = some (p.action, p.buf) := by
        rw [← hrel.unacked]
        exact DataBuffer.fragmentAt_of_get hk
      obtain ⟨h1, hsome⟩ := hreach.inv.unacked_pushed k _ hun
      obtain ⟨hlt, -⟩ := List.getElem?_eq_some_iff.mp hsome
      rw [decode_reliable (hn k p hk) (by omega)] at hdec
      cases hdec
      exact hall seq _ (by omega) hun

/-- The sending end follows the channel, provided an acknowledgement that is read
was given. -/
theorem Did.send_sim {n n' : Node} {peer : ℕ} {x : Effect} {c : FragChannel} (h : Did n n' peer x)
    (hn : n.SendsReliable peer) (hreach : c.Reachable)
    (hlen : c.pushed.length + x.pushed.length < 2 ^ 32 - 1)
    (hack : ∀ seq, x.read = some (.tcpAck seq) → seq ∈ c.acked)
    (hrel : SenderRel (n.endpoint peer).send c) :
    ∃ c', Pushes c c' x.pushed ∧ SenderRel (n'.endpoint peer).send c' ∧ Shown x.out c' := by
  have hfs := h.pushed_reliable
  cases h with
  | quiet m out hm he hw hh =>
    rw [he]
    exact quiet_sim hn hreach hlen hrel hw
  | push now n0 action data fs ha hne hp he0 he =>
    rw [he]
    rw [← he0] at hrel
    exact sendFragments_sim fs hrel hfs hlen
  | ack seq he =>
    rw [he]
    refine ⟨c.ack seq, ⟨.single (.ack c seq (hack seq rfl)), by simp [Channel.ack], rfl, rfl, rfl,
      subset_rfl⟩, ⟨?_, hrel.next⟩, by intro dest buf hb; simp at hb⟩
    intro k
    show _ = Function.update c.unacked seq none k
    rw [DataBuffer.fragmentAt_ackData]
    by_cases hk : seq = k
    · subst hk
      simp
    · rw [if_neg hk, Function.update_of_ne (Ne.symm hk)]
      exact hrel.unacked k
  | receive now seq action data out hact hseq he hw hh =>
    rw [he]
    refine ⟨c, .refl c, hrel, ?_⟩
    intro dest buf hb s a d hdec
    rcases hw dest buf hb with rfl | ⟨k, rfl⟩
    · rw [decode_ack hseq] at hdec
      cases hdec
    · rw [decode_resend] at hdec
      cases hdec

/-- The acknowledgements among some outputs were given by the channel. -/
def AcksShown (out : List Output) (c : FragChannel) : Prop :=
  ∀ dest buf, .writeDatagram dest buf ∈ out → ∀ seq, Message.decode buf = some (.tcpAck seq) →
    seq ∈ c.acked

theorem Did.ack_written {n n' : Node} {peer : ℕ} {x : Effect} (h : Did n n' peer x)
    (hn : n.SendsReliable peer) (dest : HostAndPort) (buf : Bytes)
    (hb : .writeDatagram dest buf ∈ x.out) (seq : ℕ) (hdec : Message.decode buf = some (.tcpAck seq)) :
    ∃ action data, x.read = some (.reliable seq action data) := by
  have hfs := h.pushed_reliable
  cases h with
  | quiet m out hm he hw hh =>
    rcases hw dest buf hb with hi | ⟨k, p, hk, rfl⟩
    · exact absurd hdec (hi.2 seq)
    · exact absurd hdec (decode_not_ack_of_reliable (hn k p hk) p.buf)
  | push now n0 action data fs ha hne hp he0 he =>
    obtain ⟨addr, s, f, hf, -, ho⟩ := Node.mem_sendFragments fs n0 hb
    cases ho
    exact absurd hdec (decode_not_ack_of_reliable (hfs f hf) f.2)
  | ack seq he => simp at hb
  | receive now s action data out hact hseq he hw hh =>
    rcases hw dest buf hb with rfl | ⟨k, rfl⟩
    · rw [decode_ack hseq] at hdec
      cases hdec
      exact ⟨action, data, rfl⟩
    · rw [decode_resend] at hdec
      cases hdec

/-- The receiving end follows the channel, provided the reliable data that is read
was sent. -/
theorem Did.receive_sim {n n' : Node} {peer : ℕ} {x : Effect} {c : FragChannel}
    (h : Did n n' peer x) (hn : n.SendsReliable peer) (hreach : c.Reachable)
    (hlen : c.pushed.length < 2 ^ 32 - 1)
    (hdata : ∀ seq action data, x.read = some (.reliable seq action data) →
      (seq, (action, data)) ∈ c.sent)
    (hrel : ReceiverRel (n.endpoint peer).receive c) :
    ∃ c', Receives c c' x.popped ∧ ReceiverRel (n'.endpoint peer).receive c' ∧ AcksShown x.out c' := by
  have hno : (∀ seq action data, x.read ≠ some (.reliable seq action data)) → AcksShown x.out c := by
    intro hx dest buf hb seq hdec
    obtain ⟨action, data, hr⟩ := h.ack_written hn dest buf hb seq hdec
    exact absurd hr (hx seq action data)
  have hall := h.ack_written hn
  cases h with
  | quiet m out hm he hw hh =>
    rw [he]
    exact ⟨c, .refl c, hrel, hno hm.1⟩
  | push now n0 action data fs ha hne hp he0 he =>
    rw [he, (Node.receive_sendFragments now peer n0 fs).1, he0]
    exact ⟨c, .refl c, hrel, hno (by simp)⟩
  | ack seq he =>
    rw [he]
    exact ⟨c, .refl c, hrel, hno (by simp)⟩
  | receive now seq action data out hact hseq he hw hh =>
    obtain ⟨hr1, hrel1, hmem⟩ := insert_sim now hrel (hdata seq action data rfl) hact
    obtain ⟨hpops, -, -⟩ := Node.drainAfter_spec n now peer seq action data
    obtain ⟨c', hr2, hrel2⟩ := pops_sim hpops (hreach.steps hr1.steps) hlen hrel1
    rw [he]
    refine ⟨c', hr1.trans hr2, hrel2, ?_⟩
    intro dest buf hb s hdec
    obtain ⟨a, d, hread⟩ := hall dest buf hb s hdec
    cases hread
    exact hr2.acked hmem

/-! ### Frames -/

theorem handledIn_append (xs ys : List Output) :
    handledIn (xs ++ ys) = handledIn xs ++ handledIn ys := by
  simp [handledIn]

theorem handledIn_writes {out : List Output}
    (h : ∀ o ∈ out, ∃ dest buf, o = .writeDatagram dest buf) : handledIn out = [] := by
  rw [handledIn, List.filterMap_eq_nil_iff]
  intro o ho
  obtain ⟨dest, buf, rfl⟩ := h o ho
  rfl

theorem handledIn_sendMessage (n : Node) (peer action seq : ℕ) (data : Bytes) (k : ℤ) :
    handledIn (n.sendMessage peer action seq data k) = [] := by
  refine handledIn_writes ?_
  intro o ho
  obtain ⟨addr, -, he⟩ := Node.mem_sendMessage ho
  exact ⟨addr, _, he⟩

theorem handledIn_map (peer : ℕ) (ms : List (ℕ × Bytes)) :
    handledIn (ms.map fun m => Output.handleMessage m.1 peer m.2) =
      ms.filter fun m => ACTION_TCP_DATA ≤ m.1 := by
  induction ms with
  | nil => rfl
  | cons m ms ih =>
    rw [List.map_cons, ← List.singleton_append, handledIn_append, ih]
    by_cases hm : ACTION_TCP_DATA ≤ m.1
    · simp [handledIn, hm]
    · simp [handledIn, hm]

theorem handledIn_onReliable (n : Node) (now : ℤ) (throws : ℕ → Bool) (peer seq action : ℕ)
    (data : Bytes) : handledIn ((n.touch peer).onReliable now throws peer seq action data).2 =
      (n.drainAfter now throws peer seq action data).handled.filter fun m => ACTION_TCP_DATA ≤ m.1 := by
  have hreq : ∀ (m : Node) (k : ℤ) (ss : List ℕ),
      handledIn (ss.flatMap fun s => m.sendMessage peer ACTION_TCP_RESEND s [] k) = [] := by
    intro m k ss
    refine handledIn_writes ?_
    intro o ho
    obtain ⟨s, -, hs⟩ := List.mem_flatMap.mp ho
    obtain ⟨addr, -, he⟩ := Node.mem_sendMessage hs
    exact ⟨addr, _, he⟩
  rw [← Node.drainAfter_touch]
  simp only [Node.onReliable]
  split
  · rw [handledIn_append, handledIn_sendMessage, handledIn_map, List.nil_append]
  · split
    · rw [handledIn_append, handledIn_append, handledIn_sendMessage, handledIn_map, hreq,
        List.nil_append, List.append_nil]
    · rw [handledIn_append, handledIn_sendMessage, handledIn_map, List.nil_append]

theorem Did.receive_frame {n n' : Node} {peer : ℕ} {x : Effect} (h : Did n n' peer x)
    (hx : ∀ seq action data, x.read ≠ some (.reliable seq action data)) :
    (n'.endpoint peer).receive = (n.endpoint peer).receive ∧
      (n'.endpoint peer).reassembly = (n.endpoint peer).reassembly ∧ x.popped = [] ∧
      handledIn x.out = [] := by
  cases h with
  | quiet m out hm he hw hh => exact ⟨by rw [he], by rw [he], rfl, hh⟩
  | push now n0 action data fs ha hne hp he0 he =>
    have hr := Node.receive_sendFragments now peer n0 fs
    rw [he0, ← he] at hr
    refine ⟨hr.1, hr.2, rfl, handledIn_writes ?_⟩
    intro o ho
    obtain ⟨addr, seq, f, -, -, rfl⟩ := Node.mem_sendFragments fs n0 ho
    exact ⟨addr, _, rfl⟩
  | ack seq he => exact ⟨by rw [he], by rw [he], rfl, rfl⟩
  | receive now seq action data out hact hseq he hw hh => exact absurd rfl (hx seq action data)

theorem DataBuffer.get_pushBack (b : DataBuffer) (now : ℤ) (action : ℕ) (data : Bytes) (k : ℕ) :
    (b.pushBack now action data).2.get k =
      if b.nextPushSeq = k then some (Payload.set now action data) else b.get k := by
  by_cases hk : b.nextPushSeq = k
  · simp [pushBack, get, hk]
  · simp [pushBack, get, hk, Std.ExtTreeMap.getElem?_insert]

theorem sendsReliable_sendFragments {now : ℤ} {peer : ℕ} (fs : List Fragment) {n : Node}
    (hfs : ∀ f ∈ fs, f.1 ∈ reliableActions) (hn : n.SendsReliable peer) :
    (Node.sendFragments now peer n fs).1.SendsReliable peer := by
  induction fs generalizing n with
  | nil => exact hn
  | cons f fs ih =>
    have h1 : (n.sendFragment now peer f).1.SendsReliable peer := by
      intro seq p hp
      rw [Node.endpoint_sendFragment] at hp
      replace hp : ((n.endpoint peer).send.pushBack now f.1 f.2).2.get seq = some p := hp
      rw [DataBuffer.get_pushBack] at hp
      split at hp
      · cases hp
        have hf := hfs f (List.mem_cons_self ..)
        have hlt := (ofAction_reliable hf 0 []).2.1
        show f.1 % 256 ∈ reliableActions
        rw [Nat.mod_eq_of_lt hlt]
        exact hf
      · exact hn seq p hp
    exact ih (fun g hg => hfs g (List.mem_cons_of_mem _ hg)) h1

theorem Did.sendsReliable {n n' : Node} {peer : ℕ} {x : Effect} (h : Did n n' peer x)
    (hn : n.SendsReliable peer) : n'.SendsReliable peer := by
  have hfs := h.pushed_reliable
  cases h with
  | quiet m out hm he hw hh =>
    intro seq p hp
    rw [he] at hp
    exact hn seq p hp
  | push now n0 action data fs ha hne hp he0 he =>
    have hn0 : n0.SendsReliable peer := by
      intro seq p hp
      rw [he0] at hp
      exact hn seq p hp
    intro seq p hp
    rw [he] at hp
    exact sendsReliable_sendFragments fs hfs hn0 seq p hp
  | ack k he =>
    intro seq p hp
    rw [he] at hp
    have hget : (n.endpoint peer).send.get seq = some p := by
      simp only [DataBuffer.get, DataBuffer.ackData, Std.ExtTreeMap.getElem?_erase] at hp ⊢
      split at hp
      · cases hp
      · exact hp
    exact hn seq p hget
  | receive now k action data out hact hseq he hw hh =>
    intro seq p hp
    rw [he] at hp
    exact hn seq p hp

end Gpgnet4TA.Tafnet
