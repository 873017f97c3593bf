import Gpgnet4TA.Lib.FaultyReader
import Gpgnet4TA.Tafnet.Fragmentation
import Gpgnet4TA.Tafnet.Link
import Gpgnet4TA.Tafnet.PacketSize

/-!
# Handlers that throw (`TafnetNode.cpp:461-524`)

An exception of the message handler leaves `onReadyRead` before the reassembly buffer is
cleared. The fragments behind it are popped when the next reliable datagram comes, and the next
message is delivered behind the bytes of the one that was not handled.
-/

namespace Gpgnet4TA.Tafnet
open Gpgnet4TA.Lib Gpgnet4TA.Lib.Reassembly

namespace Node

/-! ### The delivery loop -/

/-- The handler's calls for one datagram, and which of them throw. -/
def outcomes (throws : ℕ → Bool) (handled : List Fragment) : List (Fragment × Bool) :=
  handled.mapIdx fun i m => (m, throws i)

theorem outcomes_concat (throws : ℕ → Bool) (handled : List Fragment) (m : Fragment) :
    outcomes throws (handled ++ [m]) = outcomes throws handled ++ [(m, throws handled.length)] := by
  simp [outcomes]

theorem drain_faulty (throws : ℕ → Bool) (fuel : ℕ) (d : Drain) :
    ∃ ps : List (Fragment × Bool), (drain throws fuel d).popped = d.popped ++ ps.map Prod.fst ∧
      ps.foldl (faultyStep ACTION_MORE) (d.reassembly, outcomes throws d.handled) =
        ((drain throws fuel d).reassembly, outcomes throws (drain throws fuel d).handled) := by
  induction fuel generalizing d with
  | zero => exact ⟨[], by simp [drain], rfl⟩
  | succ fuel ih =>
    by_cases hd : d.thrown = true
    · exact ⟨[], by simp [drain, hd], by simp [drain, hd]⟩
    rcases hp : d.buffer.pop with ⟨data?, buffer⟩
    cases data? with
    | none => exact ⟨[], by simp [drain, hd, hp], by simp [drain, hd, hp]⟩
    | some data =>
      by_cases hm : data.action = ACTION_MORE
      · have hdrain : drain throws (fuel + 1) d = drain throws fuel
            ⟨buffer, d.reassembly ++ data.buf, d.handled, d.popped ++ [data.fragment], false⟩ := by
          simp [drain, hd, hp, hm]
        obtain ⟨ps, hpopped, hfold⟩ := ih
          ⟨buffer, d.reassembly ++ data.buf, d.handled, d.popped ++ [data.fragment], false⟩
        refine ⟨(data.fragment, false) :: ps, by simp [hdrain, hpopped], ?_⟩
        rw [List.foldl_cons, hdrain, ← hfold, faultyStep_more _ hm]
        rfl
      · by_cases ht : throws d.handled.length = true
        · have hdrain : drain throws (fuel + 1) d = ⟨buffer, d.reassembly ++ data.buf,
              d.handled ++ [(data.action, d.reassembly ++ data.buf)], d.popped ++ [data.fragment], true⟩ := by
            simp [drain, hd, hp, hm, ht]
          refine ⟨[(data.fragment, true)], by simp [hdrain], ?_⟩
          rw [hdrain, List.foldl_cons, List.foldl_nil, faultyStep_deliver _ hm, outcomes_concat, ht]
          rfl
        · have hdrain : drain throws (fuel + 1) d = drain throws fuel ⟨buffer, [],
              d.handled ++ [(data.action, d.reassembly ++ data.buf)], d.popped ++ [data.fragment], false⟩ := by
            simp [drain, hd, hp, hm, ht]
          obtain ⟨ps, hpopped, hfold⟩ := ih ⟨buffer, [],
            d.handled ++ [(data.action, d.reassembly ++ data.buf)], d.popped ++ [data.fragment], false⟩
          refine ⟨(data.fragment, false) :: ps, by simp [hdrain, hpopped], ?_⟩
          rw [List.foldl_cons, hdrain, ← hfold, faultyStep_deliver _ hm, outcomes_concat, Bool.eq_false_iff.mpr ht]
          rfl

/-- The reader that goes on from `calls`. -/
theorem drainAfter_faulty (n : Node) (now : ℤ) (throws : ℕ → Bool) (peer seq action : ℕ) (data : Bytes)
    (calls : List (Fragment × Bool)) : ∃ ps : List (Fragment × Bool),
      (n.drainAfter now throws peer seq action data).popped = ps.map Prod.fst ∧
      ps.foldl (faultyStep ACTION_MORE) (n.reassemblyBufferOf peer, calls) =
        ((n.drainAfter now throws peer seq action data).reassembly,
          calls ++ outcomes throws (n.drainAfter now throws peer seq action data).handled) := by
  obtain ⟨ps, hpopped, hfold⟩ := drain_faulty throws _
    ⟨(n.receiveBufferOf peer).insert now seq action data, n.reassemblyBufferOf peer, [], [], false⟩
  refine ⟨ps, hpopped, ?_⟩
  rw [foldl_faultyStep_out]
  exact congrArg (fun s => (s.1, calls ++ s.2)) hfold

/-! ### The reassembly buffers -/

section reassembly

variable {n n' : Node}

theorem reassembly_sendFragments (now : ℤ) (peer : ℕ) (fs : List Fragment) (n : Node) :
    (sendFragments now peer n fs).1.reassemblyBuffer = n.reassemblyBuffer := by
  induction fs generalizing n with
  | nil => rfl
  | cons f fs ih => exact ih _

theorem reassembly_forwardGameData (n : Node) (now : ℤ) (peer action : ℕ) (data : Bytes) :
    (n.forwardGameData now peer action data).1.reassemblyBuffer = n.reassemblyBuffer := by
  rw [forwardGameData]
  split
  · split
    · exact reassembly_sendFragments now peer _ _
    · rfl
  · rfl

theorem reassembly_resendPeers (tNow : ℤ) (bs : List (ℕ × DataBuffer)) (n : Node) :
    (resendPeers tNow n bs).1.reassemblyBuffer = n.reassemblyBuffer := by
  induction bs generalizing n with
  | nil => rfl
  | cons x rest ih => exact ih _

theorem reassembly_pingLoop (peers : List (ℕ × ℤ)) (n : Node) :
    (pingLoop n peers).1.reassemblyBuffer = n.reassemblyBuffer := by
  induction peers generalizing n with
  | nil => rfl
  | cons peer peers ih =>
    rw [pingLoop]
    dsimp only
    split
    · exact ih _
    · exact ih _

/-- A peer's reassembly buffer is dropped or is what it was. -/
def KeptOrDropped (n n' : Node) (peer : ℕ) : Prop :=
  n'.reassemblyBuffer[peer]? = none ∨ n'.reassemblyBuffer[peer]? = n.reassemblyBuffer[peer]?

theorem KeptOrDropped.of_eq (h : n'.reassemblyBuffer = n.reassemblyBuffer) (peer : ℕ) :
    KeptOrDropped n n' peer := Or.inr (by rw [h])

theorem KeptOrDropped.of_erase {q : ℕ} (h : n'.reassemblyBuffer = n.reassemblyBuffer.erase q) (peer : ℕ) :
    KeptOrDropped n n' peer := by
  rw [KeptOrDropped, h, Table.getElem?_erase]
  by_cases hq : peer = q
  · exact Or.inl (if_pos hq)
  · exact Or.inr (if_neg hq)

theorem KeptOrDropped.disconnect (lost : List ℕ) (peer : ℕ) (n : Node) :
    KeptOrDropped n (lost.foldl disconnectFromPeer n) peer := by
  induction lost generalizing n with
  | nil => exact .of_eq rfl peer
  | cons q lost ih =>
    rcases ih (n.disconnectFromPeer q) with h | h
    · exact Or.inl h
    · have hfirst : KeptOrDropped n (n.disconnectFromPeer q) peer := .of_erase rfl peer
      rw [List.foldl_cons, KeptOrDropped, h]
      exact hfirst

end reassembly

/-! ### Sessions -/

/-- What an event makes of the reliable data of a peer: the fragments that are popped and the
calls of the handler. -/
def readsOf (n : Node) (peer : ℕ) : NodeEvent → List Fragment × List (Fragment × Bool)
  | .datagram now throws sender datas =>
    match n.playerAt sender, Message.decode datas with
    | some p, some (.reliable seq action data) =>
      if p = peer then
        let d := n.drainAfter now throws peer seq action data
        (d.popped, outcomes throws d.handled)
      else ([], [])
    | _, _ => ([], [])
  | _ => ([], [])

theorem reassembly_onDatagram {n n' : Node} {now : ℤ} {throws : ℕ → Bool} {sender : HostAndPort} {datas : Bytes}
    {out : List Output} (h : n.onDatagram now throws sender datas = some (n', out)) (peer : ℕ) :
    (KeptOrDropped n n' peer ∧ n.readsOf peer (.datagram now throws sender datas) = ([], [])) ∨
      ∃ seq action data, n'.reassemblyBuffer[peer]? =
          some (n.drainAfter now throws peer seq action data).reassembly ∧
        n.readsOf peer (.datagram now throws sender datas) =
          ((n.drainAfter now throws peer seq action data).popped,
            outcomes throws (n.drainAfter now throws peer seq action data).handled) := by
  rw [readsOf, playerAt]
  obtain ⟨rfl, -, hquiet⟩ | ⟨p, m, -, hp, hm, h⟩ := onDatagram_read h
  · left
    refine ⟨.of_eq rfl peer, ?_⟩
    obtain rfl | hnone := hquiet
    · cases n'.peerPlayerIds[sender]? <;> rfl
    · rw [hnone]
  rw [hp, hm]
  cases m with
  | tcpAck seq =>
    cases h
    left
    refine ⟨.of_eq ?_ peer, rfl⟩
    unfold onTcpAck
    dsimp only
    split <;> rfl
  | tcpResend seq =>
    left
    refine ⟨.of_eq ?_ peer, rfl⟩
    have hsame : ((n.touch p).onTcpResend p seq).1.reassemblyBuffer = n.reassemblyBuffer := by
      unfold onTcpResend
      cases ((n.touch p).sendBufferOf p).get seq <;> rfl
    rw [Option.some.inj h] at hsame
    exact hsame
  | packsizeTest seq =>
    obtain ⟨out', -, he⟩ := Option.map_eq_some_iff.mp h
    cases he
    exact Or.inl ⟨.of_eq rfl peer, rfl⟩
  | packsizeAck seq =>
    cases h
    exact Or.inl ⟨.of_eq rfl peer, rfl⟩
  | other action data =>
    cases h
    exact Or.inl ⟨.of_eq rfl peer, rfl⟩
  | reliable seq action data =>
    have hbuffer : ((n.touch p).onReliable now throws p seq action data).1.reassemblyBuffer =
        n.reassemblyBuffer.insert p (n.drainAfter now throws p seq action data).reassembly := by
      rw [← drainAfter_touch]
      simp only [onReliable]
      split
      · rfl
      · split <;> rfl
    rw [Option.some.inj h] at hbuffer
    by_cases hpeer : p = peer
    · subst hpeer
      right
      refine ⟨seq, action, data, ?_, if_pos rfl⟩
      rw [hbuffer, Table.getElem?_insert, if_pos rfl]
    · left
      refine ⟨Or.inr ?_, if_neg hpeer⟩
      rw [hbuffer, Table.getElem?_insert, if_neg (Ne.symm hpeer)]

theorem reassembly_step {n n' : Node} {e : NodeEvent} (h : n.nodeStep e = some n') (peer : ℕ) :
    (KeptOrDropped n n' peer ∧ n.readsOf peer e = ([], [])) ∨
      ∃ now throws seq action data, n'.reassemblyBuffer[peer]? =
          some (n.drainAfter now throws peer seq action data).reassembly ∧
        n.readsOf peer e = ((n.drainAfter now throws peer seq action data).popped,
          outcomes throws (n.drainAfter now throws peer seq action data).handled) := by
  cases e with
  | connectToPeer now address q =>
    cases h
    left
    exact ⟨.of_erase (reassembly_forwardGameData (n.resetPeer address q) now q _ _) peer, rfl⟩
  | joinGame now address q =>
    cases h
    left
    exact ⟨.of_erase (reassembly_forwardGameData (n.resetPeer address q) now q _ _) peer, rfl⟩
  | disconnectFromPeer q =>
    cases h
    exact Or.inl ⟨.of_erase rfl peer, rfl⟩
  | forwardGameData now dest action data =>
    rw [nodeStep] at h
    split at h
    · cases h
    · cases h
      exact Or.inl ⟨.of_eq (reassembly_forwardGameData n now dest action data) peer, rfl⟩
  | onResendTimer tNow =>
    cases h
    exact Or.inl ⟨.of_eq (reassembly_resendPeers tNow _ n) peer, rfl⟩
  | onResendReqReenableTimer =>
    cases h
    exact Or.inl ⟨.of_eq rfl peer, rfl⟩
  | sendPacksizeTests now q =>
    cases h
    exact Or.inl ⟨.of_eq rfl peer, rfl⟩
  | resetTcpBuffers =>
    cases h
    exact Or.inl ⟨.of_eq rfl peer, rfl⟩
  | sendPingToPeers clock =>
    cases h
    left
    refine ⟨?_, rfl⟩
    have hping := reassembly_pingLoop
      ((n.peerPlayerIds.toList.map (·.2)).zipIdx.map fun peer => (peer.1, clock peer.2)) n
    rcases KeptOrDropped.disconnect (Std.ExtTreeSet.ofList (pingLoop n
      ((n.peerPlayerIds.toList.map (·.2)).zipIdx.map fun peer => (peer.1, clock peer.2))).2.1).toList peer
      (pingLoop n ((n.peerPlayerIds.toList.map (·.2)).zipIdx.map fun peer => (peer.1, clock peer.2))).1 with hd | hd
    · exact Or.inl hd
    · exact Or.inr (hd.trans (by rw [hping]))
  | datagram now throws sender datas =>
    obtain ⟨⟨m, out⟩, hm, rfl⟩ := Option.map_eq_some_iff.mp h
    rcases reassembly_onDatagram hm peer with hkept | ⟨seq, action, data, hread⟩
    · exact Or.inl hkept
    · exact Or.inr ⟨now, throws, seq, action, data, hread⟩

/-- A node and what it has read from one peer since it last dropped that peer's data. -/
structure PeerLog where
  node : Node
  popped : List Fragment
  calls : List (Fragment × Bool)

def PeerLog.new (n : Node) : PeerLog := ⟨n, [], []⟩

def logStep (peer : ℕ) (l : PeerLog) (e : NodeEvent) : Option PeerLog :=
  (l.node.nodeStep e).map fun n =>
    if n.reassemblyBuffer.contains peer then
      ⟨n, l.popped ++ (l.node.readsOf peer e).1, l.calls ++ (l.node.readsOf peer e).2⟩
    else ⟨n, [], []⟩

/-- The log is that of the faulty reader. -/
def ReadsFaulty (peer : ℕ) (l : PeerLog) : Prop :=
  ∃ ps : List (Fragment × Bool), ps.map Prod.fst = l.popped ∧
    faultyRead ACTION_MORE ps = (l.node.reassemblyBufferOf peer, l.calls)

theorem readsFaulty_dropped {peer : ℕ} {n : Node} (h : n.reassemblyBuffer[peer]? = none) :
    ReadsFaulty peer (.new n) := by
  refine ⟨[], rfl, ?_⟩
  rw [PeerLog.new, reassemblyBufferOf, Std.ExtTreeMap.getD_eq_getD_getElem?, h]
  rfl

theorem readsFaulty_step {peer : ℕ} {l l' : PeerLog} {e : NodeEvent} (hl : ReadsFaulty peer l)
    (h : logStep peer l e = some l') : ReadsFaulty peer l' := by
  obtain ⟨n, hn, rfl⟩ := Option.map_eq_some_iff.mp h
  by_cases hc : n.reassemblyBuffer.contains peer = true
  · obtain ⟨ps, hpopped, hread⟩ := hl
    rw [if_pos hc]
    rcases reassembly_step hn peer with ⟨hkept, hreads⟩ | ⟨now, throws, seq, action, data, hbuffer, hreads⟩
    · rcases hkept with hnone | hsame
      · rw [Table.contains_eq_false.mpr hnone] at hc
        cases hc
      · rw [hreads, List.append_nil, List.append_nil]
        refine ⟨ps, hpopped, ?_⟩
        rw [hread, reassemblyBufferOf, reassemblyBufferOf, Std.ExtTreeMap.getD_eq_getD_getElem?,
          Std.ExtTreeMap.getD_eq_getD_getElem?, hsame]
    · obtain ⟨qs, hqs, hfold⟩ := drainAfter_faulty l.node now throws peer seq action data l.calls
      rw [hreads]
      refine ⟨ps ++ qs, by rw [List.map_append, hpopped, hqs], ?_⟩
      have hbufferOf : n.reassemblyBufferOf peer = (l.node.drainAfter now throws peer seq action data).reassembly := by
        rw [reassemblyBufferOf, Std.ExtTreeMap.getD_eq_getD_getElem?, hbuffer]
        rfl
      rw [faultyRead, List.foldl_append]
      rw [faultyRead] at hread
      rw [hread, hfold, hbufferOf]
  · rw [if_neg hc]
    exact readsFaulty_dropped (Table.contains_eq_false.mp (Bool.eq_false_iff.mpr hc))

/-! ### Messages -/

/-- The fragments that calls of `forwardGameData` push for some messages, at whatever packet
sizes. -/
inductive Stream : List Fragment → List Fragment → Prop
  | nil : Stream [] []
  | cons {action : ℕ} {data : Bytes} (limit peerSize : ℕ) {ms fs : List Fragment}
      (haction : action ∈ messageActions) (hdata : 0 < data.length) (h : Stream ms fs) :
      Stream ((action, data) :: ms) (fragments action (fragmentSize limit peerSize data.length) data ++ fs)

theorem Stream.foldl {ms fs : List Fragment} (h : Stream ms fs) (out : List Fragment) :
    fs.foldl (step ACTION_MORE) ([], out) = ([], out ++ ms) := by
  induction h generalizing out with
  | nil => simp
  | @cons action data limit peerSize ms fs haction hdata h ih =>
    have hmore : action ≠ ACTION_MORE := by
      intro heq
      obtain rfl := heq
      revert haction
      decide
    have hpieces := fragments_pieces action (fragmentSize_pos limit peerSize data.length) hdata
    rw [List.foldl_append, hpieces.foldl _ hmore, ih, List.append_assoc]
    rfl

theorem Stream.ne_nil {ms fs : List Fragment} (h : Stream ms fs) : ∀ f ∈ fs, f.2 ≠ [] := by
  induction h with
  | nil => simp
  | cons limit peerSize haction hdata h ih =>
    intro f hf
    rcases List.mem_append.mp hf with hf | hf
    · exact (length_fragmentLoop (fragmentSize_pos _ _ _) _ _ f hf).1
    · exact ih f hf

/-- The handler gets the peer's messages one after the other, exactly when it throws on none but
the last of those that it gets. -/
theorem calls_exact_iff {playerId : ℕ} {isHost proactiveResend : Bool} {maxPacketSize peer : ℕ} {l : PeerLog}
    (h : Runs (logStep peer) (fun _ _ => True) (.new (.new playerId isHost proactiveResend maxPacketSize)) l)
    {ms fs : List Fragment} (hstream : Stream ms fs) (hpopped : l.popped <+: fs) :
    (l.calls.map Prod.fst <+: ms ↔ OnlyLastFails l.calls) ∧
      (OnlyLastFails l.calls → ∀ c ∈ l.calls, c.1 ∈ ms) := by
  have hreads : ReadsFaulty peer l := by
    apply Runs.invariant h
    · exact readsFaulty_dropped (by simp [Node.new])
    · exact fun t e t' ht _ hstep => readsFaulty_step ht hstep
  obtain ⟨ps, hps, hread⟩ := hreads
  have hne : ∀ p ∈ ps, p.1.2 ≠ [] := by
    intro p hp
    exact hstream.ne_nil p.1 (hpopped.subset (hps ▸ List.mem_map_of_mem hp))
  have hcalls : (faultyRead ACTION_MORE ps).2 = l.calls := congrArg Prod.snd hread
  have hexact := faultyRead_eq_read_iff ACTION_MORE hne
  have hlen := length_faultyRead ACTION_MORE ps
  have hprefix : (Reassembly.read ACTION_MORE (ps.map Prod.fst)).2 <+: ms := by
    have hall : (Reassembly.read ACTION_MORE fs).2 = ms := by
      rw [Reassembly.read, hstream.foldl]
      rfl
    rw [hps, ← hall]
    exact read_prefix _ hpopped
  rw [hcalls] at hexact hlen
  have hiff : l.calls.map Prod.fst <+: ms ↔ OnlyLastFails l.calls := by
    rw [← hexact]
    constructor
    · intro hp
      exact (List.prefix_of_prefix_length_le hp hprefix (by simp [hlen])).eq_of_length (by simp [hlen])
    · intro he
      rw [he]
      exact hprefix
  refine ⟨hiff, fun hlast c hc => ?_⟩
  exact (hiff.mpr hlast).subset (List.mem_map_of_mem hc)

/-- Two messages of one byte. -/
def twoMessages : List Fragment := [(ACTION_TCP_DATA, [1]), (ACTION_TCP_DATA, [2])]

theorem stream_twoMessages : Stream twoMessages twoMessages :=
  .cons 1500 250 (by decide) (by decide) (.cons 1500 250 (by decide) (by decide) .nil)

/-- The peer's two messages arrive; the handler throws on the first or on the second. -/
def twoDatagrams (first second : Bool) : List NodeEvent :=
  [.connectToPeer 0 ⟨1, 6112⟩ 2,
    .datagram 1 (fun _ => first) ⟨1, 6112⟩ (encodeMessage ACTION_TCP_DATA 1 [1]),
    .datagram 2 (fun _ => second) ⟨1, 6112⟩ (encodeMessage ACTION_TCP_DATA 2 [2])]

theorem calls_exact_lastThrows : ∃ l, Runs (logStep 2) (fun _ _ => True) (.new (.new 1 false false 1500)) l ∧
    l.calls.map Prod.snd = [false, true] ∧ ∀ c ∈ l.calls, c.1 ∈ twoMessages := by
  have hrun : (run (logStep 2) (.new (.new 1 false false 1500)) (twoDatagrams false true)).map
      (fun l => (l.popped, l.calls)) =
      some (twoMessages, [((ACTION_TCP_DATA, [1]), false), ((ACTION_TCP_DATA, [2]), true)]) := by
    decide +kernel
  obtain ⟨l, hl, hlog⟩ := Option.map_eq_some_iff.mp hrun
  obtain ⟨hpopped, hcalls⟩ := Prod.mk.inj hlog
  have hruns : Runs (logStep 2) (fun _ _ => True) (.new (.new 1 false false 1500)) l :=
    .of_run _ hl fun _ _ _ => trivial
  have hexact := calls_exact_iff hruns stream_twoMessages (hpopped ▸ List.prefix_refl _)
  refine ⟨l, hruns, by rw [hcalls]; rfl, hexact.2 ?_⟩
  rw [hcalls, OnlyLastFails]
  decide

/-- The second message is handled behind the bytes of the first, which was not handled. -/
theorem calls_corrupted : ∃ l, Runs (logStep 2) (fun _ _ => True) (.new (.new 1 false false 1500)) l ∧
    Stream twoMessages l.popped ∧
    l.calls = [((ACTION_TCP_DATA, [1]), true), ((ACTION_TCP_DATA, [1, 2]), false)] ∧
    ¬ ∀ c ∈ l.calls, c.1 ∈ twoMessages := by
  have hrun : (run (logStep 2) (.new (.new 1 false false 1500)) (twoDatagrams true false)).map
      (fun l => (l.popped, l.calls)) =
      some (twoMessages, [((ACTION_TCP_DATA, [1]), true), ((ACTION_TCP_DATA, [1, 2]), false)]) := by
    decide +kernel
  obtain ⟨l, hl, hlog⟩ := Option.map_eq_some_iff.mp hrun
  obtain ⟨hpopped, hcalls⟩ := Prod.mk.inj hlog
  refine ⟨l, .of_run _ hl fun _ _ _ => trivial, hpopped ▸ stream_twoMessages, hcalls, ?_⟩
  rw [hcalls]
  decide

end Node

end Gpgnet4TA.Tafnet
