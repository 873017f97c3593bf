import Gpgnet4TA.Tafnet.Session

/-!
# Delivery between two nodes

The invariant of one direction, from side `s` to the other side, is that the link
agrees with a reachable channel. From it follow that what is handled is a prefix of
what was given, that nothing is lost inside a session, and what an acknowledgement
that is read says about the other side.
-/

namespace Gpgnet4TA.Tafnet
open Gpgnet4TA.Lib Gpgnet4TA.Lib.Arq

namespace Link

variable {e : Ends} {l l' : Link} {s : Side}

/-- The other side has read reliable data of no session of `s` but the current one
since it last connected. -/
def InStep (l : Link) (s : Side) : Prop := ∀ i, l.heard s.other = some i → i = l.session s

structure Agrees (e : Ends) (l : Link) (s : Side) (c : FragChannel) : Prop where
  reach : c.Reachable
  sender : SenderRel (l.endpoint e s).send c
  pushed : l.pushed s = c.pushed
  receiver : l.InStep s →
    ReceiverRel (l.endpoint e s.other).receive c ∧ l.popped s.other = c.popped
  behind : ¬ l.InStep s → c.popped = [] ∧ ∀ seq, c.held seq = none
  data : ∀ d ∈ l.wire, d.src = s → d.session = l.session s → ∀ seq action data,
    Message.decode d.buf = some (.reliable seq action data) → (seq, (action, data)) ∈ c.sent
  acks : ∀ d ∈ l.wire, d.src = s.other → d.session = l.session s.other → d.reply = l.session s →
    ∀ seq, Message.decode d.buf = some (.tcpAck seq) → seq ∈ c.acked
  kept : l.session s.other ≤ 1 → c.Kept

theorem Agrees.empty {c : FragChannel} (ha : Agrees e l s c) (hb : Base e l)
    (h : l.heard s.other = none) : c.popped = [] ∧ ∀ seq, c.held seq = none := by
  have hin : l.InStep s := by
    intro i hi
    rw [h] at hi
    cases hi
  obtain ⟨hrel, hpop⟩ := ha.receiver hin
  obtain ⟨hnew, hnil⟩ := hb.fresh s.other h
  rw [hnew] at hrel
  refine ⟨hpop.symm.trans hnil, ?_⟩
  intro seq
  rw [← hrel.held]
  exact DataBuffer.fragmentAt_new seq

theorem agrees_init (e : Ends) (s : Side) : Agrees e (init e) s Channel.init where
  reach := .init
  sender := by
    have hnew : ((init e).endpoint e s).send = .new := by
      simp [init, endpoint, Node.endpoint, Node.new, Node.sendBufferOf]
    rw [hnew]
    exact senderRel_new rfl fun _ => rfl
  pushed := rfl
  receiver := by
    intro _
    rw [((base_init e).fresh s.other rfl).1]
    exact ⟨receiverRel_new rfl fun _ => rfl, rfl⟩
  behind := fun _ => ⟨rfl, fun _ => rfl⟩
  data := by intro d h; simp [init] at h
  acks := by intro d h; simp [init] at h
  kept := fun _ => Channel.kept_init

/-! ### Resets -/

theorem agrees_reset_sender (hb : Base e l) (s : Side) :
    Agrees e (l.reset e s) s Channel.init where
  reach := .init
  sender := by
    rw [endpoint_reset_self]
    exact senderRel_new rfl fun _ => rfl
  pushed := by simp [reset, Channel.init]
  receiver := by
    intro hin
    have hheard : l.heard s.other = none := by
      cases h : l.heard s.other with
      | none => rfl
      | some i =>
        have h1 : i = l.session s + 1 := by
          have := hin i (by simpa [reset, Function.update_of_ne s.other_ne] using h)
          simpa [reset] using this
        have h2 := (hb.heard s.other i h).2.2
        rw [Side.other_other] at h2
        omega
    rw [endpoint_reset_other, (hb.fresh s.other hheard).1]
    refine ⟨receiverRel_new rfl fun _ => rfl, ?_⟩
    simpa [reset, Channel.init, Function.update_of_ne s.other_ne] using (hb.fresh s.other hheard).2
  behind := fun _ => ⟨rfl, fun _ => rfl⟩
  data := by
    intro d hd hsrc hsess
    have h1 := (hb.tagged d hd).2
    rw [hsrc] at h1
    simp only [reset, Function.update_self] at hsess
    omega
  acks := by
    intro d hd hsrc _ hrep seq hdec
    have h1 := (hb.acks d hd seq hdec).2
    rw [hsrc, Side.other_other] at h1
    simp only [reset, Function.update_self] at hrep
    omega
  kept := fun _ => Channel.kept_init

theorem Agrees.reset_receiver {c : FragChannel} (ha : Agrees e l s c) (hb : Base e l) :
    Agrees e (l.reset e s.other) s c.restart := by
  have hsess : (l.reset e s.other).session s = l.session s := by
    simp [reset, Function.update_of_ne s.other_ne.symm]
  have hend : (l.reset e s.other).endpoint e s = l.endpoint e s := by
    have := endpoint_reset_other (e := e) l s.other
    rwa [Side.other_other] at this
  refine ⟨ha.reach.restart, ?_, ?_, ?_, fun _ => ⟨rfl, fun _ => rfl⟩, ?_, ?_, ?_⟩
  · rw [hend]
    exact ⟨ha.sender.unacked, ha.sender.next⟩
  · have : (l.reset e s.other).pushed s = l.pushed s := by
      simp [reset, Function.update_of_ne s.other_ne.symm]
    exact this.trans ha.pushed
  · intro _
    rw [endpoint_reset_self]
    exact ⟨receiverRel_new rfl fun _ => rfl, by simp [reset, Channel.restart]⟩
  · intro d hd hsrc hds
    rw [hsess] at hds
    exact ha.data d hd hsrc hds
  · intro d hd hsrc hds
    have h1 := (hb.tagged d hd).2
    rw [hsrc] at h1
    simp only [reset, Function.update_self] at hds
    omega
  · intro hle
    have hzero : l.session s.other = 0 := by
      simp only [reset, Function.update_self] at hle
      omega
    have hheard : l.heard s.other = none := by
      cases h : l.heard s.other with
      | none => rfl
      | some i =>
        have := (hb.heard s.other i h).1
        omega
    obtain ⟨hp, hh⟩ := ha.empty hb hheard
    exact (ha.kept (by omega)).restart hp hh

/-! ### Effects at either end -/

theorem Agrees.after_sender {c : FragChannel} {n : Node} {reply : ℕ} {x : Effect}
    (ha : Agrees e l s c) (hb : Base e l) (hx : Acts e l s n reply x)
    (hlen : ((l.after s n reply x).pushed s).length < 2 ^ 32 - 1)
    (hack : ∀ seq, x.read = some (.tcpAck seq) → seq ∈ c.acked) :
    ∃ c', Agrees e (l.after s n reply x) s c' := by
  have hpush : (l.after s n reply x).pushed s = c.pushed ++ x.pushed := by
    simp [after, ha.pushed]
  have hin : (l.after s n reply x).InStep s ↔ l.InStep s := by
    simp [InStep, after, update, Function.update_of_ne s.other_ne]
  rw [hpush, List.length_append] at hlen
  obtain ⟨c', hp, hs, hw⟩ := hx.did.send_sim (hb.sends s) ha.reach hlen hack ha.sender
  refine ⟨c', ha.reach.steps hp.steps, ?_, hpush.trans hp.pushed.symm, ?_, ?_, ?_, ?_, ?_⟩
  · rw [endpoint_after_self]
    exact hs
  · intro h
    obtain ⟨hr, hpop⟩ := ha.receiver (hin.mp h)
    rw [endpoint_after_other]
    refine ⟨⟨?_, ?_⟩, ?_⟩
    · rw [hp.held]
      exact hr.held
    · rw [hp.popped]
      exact hr.next
    · rw [hp.popped]
      simpa [after, Function.update_of_ne s.other_ne] using hpop
  · intro h
    rw [hp.popped, hp.held]
    exact ha.behind fun h' => h (hin.mpr h')
  · intro d hd hsrc hsess seq action data hdec
    rcases List.mem_append.mp hd with hd | hd
    · exact hp.sent (ha.data d hd hsrc hsess seq action data hdec)
    · exact hw _ _ (mem_written hd).2.2.2 seq action data hdec
  · intro d hd hsrc hsess hrep seq hdec
    rw [hp.acked]
    rcases List.mem_append.mp hd with hd | hd
    · exact ha.acks d hd hsrc hsess hrep seq hdec
    · exact absurd ((mem_written hd).1.symm.trans hsrc) s.other_ne.symm
  · intro hle
    exact ((ha.kept hle).steps ha.reach.inv hp.steps).1

theorem Agrees.after_receiver_idle {c : FragChannel} {n : Node} {reply : ℕ} {x : Effect}
    (ha : Agrees e l s c) (hb : Base e l) (hx : Acts e l s.other n reply x)
    (hno : ∀ seq action data, x.read ≠ some (.reliable seq action data)) :
    Agrees e (l.after s.other n reply x) s c := by
  have hreads : x.readsData = false := by
    rw [Bool.eq_false_iff]
    intro h
    obtain ⟨seq, action, data, hr⟩ := x.readsData_iff.mp h
    exact hno seq action data hr
  obtain ⟨hrec, -, hpop, -⟩ := hx.did.receive_frame hno
  have hin : (l.after s.other n reply x).InStep s ↔ l.InStep s := by
    simp [InStep, after, update, hreads]
  have hend : (l.after s.other n reply x).endpoint e s = l.endpoint e s := by
    have := endpoint_after_other (e := e) l s.other n reply x
    rwa [Side.other_other] at this
  refine ⟨ha.reach, ?_, ?_, ?_, fun h => ha.behind fun h' => h (hin.mpr h'), ?_, ?_, ha.kept⟩
  · rw [hend]
    exact ha.sender
  · simpa [after, Function.update_of_ne s.other_ne.symm] using ha.pushed
  · intro h
    obtain ⟨hr, hp⟩ := ha.receiver (hin.mp h)
    rw [endpoint_after_self, hrec]
    exact ⟨hr, by simpa [after, hpop] using hp⟩
  · intro d hd hsrc hsess
    rcases List.mem_append.mp hd with hd | hd
    · exact ha.data d hd hsrc hsess
    · exact absurd ((mem_written hd).1.symm.trans hsrc) s.other_ne
  · intro d hd hsrc hsess hrep seq hdec
    rcases List.mem_append.mp hd with hd | hd
    · exact ha.acks d hd hsrc hsess hrep seq hdec
    · obtain ⟨action, data, hr⟩ :=
        hx.did.ack_written (hb.sends s.other) _ _ (mem_written hd).2.2.2 seq hdec
      exact absurd hr (hno seq action data)

/-- The receiving side reads data of an earlier session of `s`: the channel of the
current session does not move. -/
theorem Agrees.after_receiver_old {c : FragChannel} {n : Node} {reply : ℕ} {x : Effect}
    (ha : Agrees e l s c) (hb : Base e l) (hx : x.readsData = true)
    (hheard : l.heard s.other = none ∨ l.heard s.other = some reply) (hold : reply ≠ l.session s) :
    Agrees e (l.after s.other n reply x) s c := by
  have hempty : c.popped = [] ∧ ∀ seq, c.held seq = none := by
    rcases hheard with h | h
    · exact ha.empty hb h
    · exact ha.behind fun hin => hold (hin reply h)
  have hout : ¬ (l.after s.other n reply x).InStep s := by
    intro h
    exact hold (h reply (by simp [after, hx]))
  have hend : (l.after s.other n reply x).endpoint e s = l.endpoint e s := by
    have := endpoint_after_other (e := e) l s.other n reply x
    rwa [Side.other_other] at this
  refine ⟨ha.reach, ?_, ?_, fun h => absurd h hout, fun _ => hempty, ?_, ?_, ha.kept⟩
  · rw [hend]
    exact ha.sender
  · simpa [after, Function.update_of_ne s.other_ne.symm] using ha.pushed
  · intro d hd hsrc hsess
    rcases List.mem_append.mp hd with hd | hd
    · exact ha.data d hd hsrc hsess
    · exact absurd ((mem_written hd).1.symm.trans hsrc) s.other_ne
  · intro d hd hsrc hsess hrep
    rcases List.mem_append.mp hd with hd | hd
    · exact ha.acks d hd hsrc hsess hrep
    · exact absurd ((mem_written hd).2.2.1.symm.trans hrep) hold

/-- The receiving side reads data of the current session of `s`. -/
theorem Agrees.after_receiver {c : FragChannel} {n : Node} {reply : ℕ} {x : Effect}
    (ha : Agrees e l s c) (hb : Base e l) (hx : Acts e l s.other n reply x)
    (hlen : (l.pushed s).length < 2 ^ 32 - 1) (hreads : x.readsData = true)
    (hin : l.InStep s) (hcur : reply = l.session s) :
    ∃ c', Agrees e (l.after s.other n reply x) s c' := by
  have hdata : ∀ seq action data, x.read = some (.reliable seq action data) →
      (seq, (action, data)) ∈ c.sent := by
    intro seq action data hr
    obtain ⟨-, d, hd, hsrc, hrep, hdec⟩ := hx.read _ hr
    rw [Side.other_other] at hsrc
    exact ha.data d hd hsrc (hrep.symm.trans hcur) seq action data hdec
  obtain ⟨hrel, hpop⟩ := ha.receiver hin
  rw [ha.pushed] at hlen
  obtain ⟨c', hr, hrel', hacks⟩ := hx.did.receive_sim (hb.sends s.other) ha.reach hlen hdata hrel
  have hend : (l.after s.other n reply x).endpoint e s = l.endpoint e s := by
    have := endpoint_after_other (e := e) l s.other n reply x
    rwa [Side.other_other] at this
  have hin' : (l.after s.other n reply x).InStep s := by
    intro i hi
    have : reply = i := by simpa [after, hreads] using hi
    rw [← this]
    exact hcur
  refine ⟨c', ha.reach.steps hr.steps, ?_, ?_, ?_, fun h => absurd hin' h, ?_, ?_, ?_⟩
  · rw [hend]
    exact ⟨by rw [hr.unacked]; exact ha.sender.unacked, by rw [hr.pushed]; exact ha.sender.next⟩
  · rw [hr.pushed]
    simpa [after, Function.update_of_ne s.other_ne.symm] using ha.pushed
  · intro _
    rw [endpoint_after_self]
    exact ⟨hrel', by rw [hr.popped, ← hpop]; simp [after]⟩
  · intro d hd hsrc hsess seq action data hdec
    rw [hr.sent]
    rcases List.mem_append.mp hd with hd | hd
    · exact ha.data d hd hsrc hsess seq action data hdec
    · exact absurd ((mem_written hd).1.symm.trans hsrc) s.other_ne
  · intro d hd hsrc hsess hrep seq hdec
    rcases List.mem_append.mp hd with hd | hd
    · exact hr.acked (ha.acks d hd hsrc hsess hrep seq hdec)
    · exact hacks _ _ (mem_written hd).2.2.2 seq hdec
  · intro hle
    exact ((ha.kept hle).steps ha.reach.inv hr.steps).1

/-! ### Every event -/

/-- The condition under which a delivery keeps the direction from `s` in step: the
other side does not mix data of two sessions of `s`, and `s` reads an
acknowledgement while both sides are in the sessions of its exchange. -/
def readInSession (s : Side) (l : Link) : Event → Bool
  | .deliver dst i _ =>
    match l.wire[i]? with
    | none => true
    | some d =>
      match Message.decode d.buf with
      | some (.reliable _ _ _) =>
        decide (dst = s.other → l.heard dst = none ∨ l.heard dst = some d.session)
      | some (.tcpAck _) =>
        decide (dst = s → d.reply = l.session s ∧ d.session = l.session s.other)
      | _ => true
  | _ => true

theorem agrees_step {ev : Event} (hb : Base e l) (h : l.step e ev = some l')
    (hm : readInSession s l ev = true) (hlen : (l'.pushed s).length < 2 ^ 32 - 1)
    (ih : (l.pushed s).length < 2 ^ 32 - 1 → ∃ c, Agrees e l s c) : ∃ c, Agrees e l' s c := by
  obtain ⟨l0, t, n, reply, x, rfl, hb0, hx, hcase⟩ := step_cases hb h
  have hlen0 : (l0.pushed s).length < 2 ^ 32 - 1 := by
    refine lt_of_le_of_lt ?_ hlen
    by_cases ht : s = t
    · subst ht
      simp [after]
    · simp [after, Function.update_of_ne ht]
  rcases hcase with ⟨rfl, hnone⟩ | ⟨rfl, hread⟩
  · -- a reset and the greeting
    by_cases ht : t = s
    · subst ht
      exact (agrees_reset_sender hb t).after_sender hb0 hx hlen (by simp [hnone])
    · obtain rfl : t = s.other := by cases t <;> cases s <;> first | rfl | exact absurd rfl ht
      have hsame : (l.reset e s.other).pushed s = l.pushed s := by
        simp [reset, Function.update_of_ne s.other_ne.symm]
      obtain ⟨c, hc⟩ := ih (by rw [← hsame]; exact hlen0)
      exact ⟨_, (hc.reset_receiver hb).after_receiver_idle hb0 hx (by simp [hnone])⟩
  · obtain ⟨c, hc⟩ := ih hlen0
    by_cases ht : t = s
    · subst ht
      refine hc.after_sender hb0 hx hlen ?_
      intro seq hr
      obtain ⟨i, now, d, rfl, hd, hsrc, -, hdec⟩ := hread _ hr
      simp only [readInSession, hd, hdec, decide_eq_true_eq] at hm
      obtain ⟨h1, h2⟩ := hm trivial
      exact hc.acks d (List.mem_of_getElem? hd) hsrc h2 h1 seq hdec
    · obtain rfl : t = s.other := by cases t <;> cases s <;> first | rfl | exact absurd rfl ht
      by_cases hreads : x.readsData = true
      · obtain ⟨seq, action, data, hr⟩ := x.readsData_iff.mp hreads
        obtain ⟨i, now, d, rfl, hd, -, rfl, hdec⟩ := hread _ hr
        simp only [readInSession, hd, hdec, decide_eq_true_eq] at hm
        have hheard := hm trivial
        by_cases hcur : d.session = l0.session s
        · refine hc.after_receiver hb0 hx hlen0 hreads ?_ hcur
          intro i hi
          rcases hheard with hh | hh
          · rw [hh] at hi
            cases hi
          · rw [hh] at hi
            cases hi
            exact hcur
        · exact ⟨c, hc.after_receiver_old hb0 hreads hheard hcur⟩
      · refine ⟨c, hc.after_receiver_idle hb0 hx ?_⟩
        intro seq action data hr
        exact hreads (x.readsData_iff.mpr ⟨seq, action, data, hr⟩)

end Link

end Gpgnet4TA.Tafnet
