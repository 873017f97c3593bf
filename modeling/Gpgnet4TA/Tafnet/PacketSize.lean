import Gpgnet4TA.Tafnet.Fragmentation
import Gpgnet4TA.Tafnet.Peers

/-!
# The packet size found for a peer (`TafnetNode.cpp:448-459`, `650-713`)

`m_maxPacketSize` is meant as the upper limit of the sizes found for the peers. A peer's size
starts at the lower limit and is raised by the acknowledgements of size tests, which may name
any 32-bit number; everything else that a node does leaves it alone or starts it again.
-/

namespace Gpgnet4TA.Tafnet
open Gpgnet4TA.Lib

namespace Node

def resetTcpBuffers (n : Node) : Node :=
  { n with
    receiveBuffer := n.receiveBuffer.map fun _ _ => .new
    sendBuffer := n.sendBuffer.map fun _ _ => .new }

/-- `maxPacketSize + 1`, by which `forwardGameData` divides, is a 32-bit number. -/
def fragmentDivisor (n : Node) (destPlayerId : ℕ) : ℕ :=
  (n.maxPacketSizeForPlayerId destPlayerId + 1) % 2 ^ 32

/-! ### Everything that a node does -/

inductive NodeEvent where
  | connectToPeer (now : ℤ) (peer : HostAndPort) (peerPlayerId : ℕ)
  | joinGame (now : ℤ) (peer : HostAndPort) (peerPlayerId : ℕ)
  | disconnectFromPeer (peerPlayerId : ℕ)
  | forwardGameData (now : ℤ) (destPlayerId action : ℕ) (data : Bytes)
  | onResendTimer (tNow : ℤ)
  | onResendReqReenableTimer
  | sendPacksizeTests (now : ℤ) (peerPlayerId : ℕ)
  | resetTcpBuffers
  | sendPingToPeers (clock : ℕ → ℤ)
  | datagram (now : ℤ) (throws : ℕ → Bool) (sender : HostAndPort) (datas : Bytes)

/-- A division by zero has no result. -/
def nodeStep (n : Node) : NodeEvent → Option Node
  | .connectToPeer now peer peerPlayerId => some (n.connectToPeer now peer peerPlayerId).1
  | .joinGame now peer peerPlayerId => some (n.joinGame now peer peerPlayerId).1
  | .disconnectFromPeer peerPlayerId => some (n.disconnectFromPeer peerPlayerId)
  | .forwardGameData now destPlayerId action data =>
    if n.peerAddresses.contains destPlayerId ∧ ACTION_TCP_DATA ≤ action ∧ n.fragmentDivisor destPlayerId = 0
    then none
    else some (n.forwardGameData now destPlayerId action data).1
  | .onResendTimer tNow => some (n.onResendTimer tNow).1
  | .onResendReqReenableTimer => some n.onResendReqReenableTimer
  | .sendPacksizeTests now peerPlayerId => some (n.sendPacksizeTests now peerPlayerId).1
  | .resetTcpBuffers => some n.resetTcpBuffers
  | .sendPingToPeers clock => some (n.sendPingToPeers clock).1
  | .datagram now throws sender datas => (n.onDatagram now throws sender datas).map (·.1)

/-! ### The sizes -/

/-- The node's limit and the sizes found for the peers. -/
def sizes (n : Node) : ℕ × (ℕ → ℕ) := (n.maxPacketSize, n.maxPacketSizeForPlayerId)

variable {n n' : Node}

theorem maxPacketSizeForPlayerId_eq (n : Node) (peer : ℕ) :
    n.maxPacketSizeForPlayerId peer = (n.resendRateOf peer).maxPacketSize := by
  rw [maxPacketSizeForPlayerId, resendRateOf, Std.ExtTreeMap.getD_eq_getD_getElem?]
  cases n.resendRates[peer]? with
  | none => rfl
  | some r => rfl

theorem maxPacketSize_getResendRate (r : ResendRate) (incSendCount : Bool) :
    (r.getResendRate incSendCount).2.maxPacketSize = r.maxPacketSize := by
  simp only [ResendRate.getResendRate]
  split_ifs <;> rfl

theorem maxPacketSize_registerAck (r : ResendRate) (now : ℤ) :
    (r.registerAck now).maxPacketSize = r.maxPacketSize := by
  simp only [ResendRate.registerAck]
  split <;> rfl

theorem sizes_setResendRate (n : Node) (peer : ℕ) (r : ResendRate) :
    (n.setResendRate peer r).sizes =
      (n.maxPacketSize, Function.update n.maxPacketSizeForPlayerId peer r.maxPacketSize) := by
  have hsize : (n.setResendRate peer r).maxPacketSizeForPlayerId =
      Function.update n.maxPacketSizeForPlayerId peer r.maxPacketSize := by
    funext p
    rw [maxPacketSizeForPlayerId, setResendRate, Function.update_apply, Table.getElem?_insert]
    by_cases hp : p = peer
    · rw [if_pos hp, if_pos hp]
    · rw [if_neg hp, if_neg hp]
      rfl
  rw [sizes, hsize]
  rfl

/-- New statistics with the size that was there. -/
theorem sizes_setResendRate_of_eq {peer : ℕ} {r : ResendRate}
    (h : r.maxPacketSize = (n.resendRateOf peer).maxPacketSize) : (n.setResendRate peer r).sizes = n.sizes := by
  rw [sizes_setResendRate, h, ← maxPacketSizeForPlayerId_eq, Function.update_eq_self]
  rfl

theorem sizes_erase {peer : ℕ} (hlimit : n'.maxPacketSize = n.maxPacketSize)
    (hrates : n'.resendRates = n.resendRates.erase peer) :
    n'.sizes = (n.maxPacketSize, Function.update n.maxPacketSizeForPlayerId peer MAX_PACKET_SIZE_LOWER_LIMIT) := by
  have hsize : n'.maxPacketSizeForPlayerId =
      Function.update n.maxPacketSizeForPlayerId peer MAX_PACKET_SIZE_LOWER_LIMIT := by
    funext p
    rw [maxPacketSizeForPlayerId, hrates, Function.update_apply, Table.getElem?_erase]
    by_cases hp : p = peer
    · rw [if_pos hp, if_pos hp]
    · rw [if_neg hp, if_neg hp]
      rfl
  rw [sizes, hlimit, hsize]

theorem sizes_sendFragment (n : Node) (now : ℤ) (peer : ℕ) (f : Fragment) :
    (n.sendFragment now peer f).1.sizes = n.sizes := by
  have hrate := maxPacketSize_getResendRate (n.resendRateOf peer) true
  rw [sendFragment]
  exact sizes_setResendRate_of_eq hrate

theorem sizes_sendFragments (now : ℤ) (peer : ℕ) (fs : List Fragment) (n : Node) :
    (sendFragments now peer n fs).1.sizes = n.sizes := by
  induction fs generalizing n with
  | nil => rfl
  | cons f fs ih => exact (ih _).trans (sizes_sendFragment n now peer f)

theorem sizes_forwardGameData (n : Node) (now : ℤ) (peer action : ℕ) (data : Bytes) :
    (n.forwardGameData now peer action data).1.sizes = n.sizes := by
  rw [forwardGameData]
  split
  · split
    · exact (sizes_sendFragments now peer _ _).trans (sizes_setResendRate_of_eq rfl)
    · exact sizes_setResendRate_of_eq (maxPacketSize_getResendRate _ _)
  · rfl

theorem sizes_connectToPeer (n : Node) (now : ℤ) (address : HostAndPort) (peer : ℕ) :
    (n.connectToPeer now address peer).1.sizes =
      (n.maxPacketSize, Function.update n.maxPacketSizeForPlayerId peer MAX_PACKET_SIZE_LOWER_LIMIT) :=
  (sizes_forwardGameData _ now peer _ _).trans (sizes_erase rfl rfl)

theorem sizes_disconnectFromPeer (n : Node) (peer : ℕ) : (n.disconnectFromPeer peer).sizes =
    (n.maxPacketSize, Function.update n.maxPacketSizeForPlayerId peer MAX_PACKET_SIZE_LOWER_LIMIT) :=
  sizes_erase rfl rfl

theorem maxPacketSize_resendLoop {peer : ℕ} {tNow timeout : ℤ} (k : ℕ) (ps : List (ℕ × Payload))
    (stats : ResendRate) : (n.resendLoop peer tNow timeout k ps stats).1.maxPacketSize = stats.maxPacketSize := by
  induction k generalizing ps stats with
  | zero => rfl
  | succ k ih =>
    cases ps with
    | nil => rfl
    | cons x rest =>
      obtain ⟨seq, p⟩ := x
      simp only [resendLoop]
      split
      · rfl
      · rw [ih]
        split <;> exact maxPacketSize_getResendRate _ _

theorem sizes_resendPeers (tNow : ℤ) (bs : List (ℕ × DataBuffer)) (n : Node) :
    (resendPeers tNow n bs).1.sizes = n.sizes := by
  induction bs generalizing n with
  | nil => rfl
  | cons x rest ih => exact (ih _).trans (sizes_setResendRate_of_eq (maxPacketSize_resendLoop _ _ _))

theorem sizes_pingLoop (peers : List (ℕ × ℤ)) (n : Node) : (pingLoop n peers).1.sizes = n.sizes := by
  induction peers generalizing n with
  | nil => rfl
  | cons peer peers ih =>
    rw [pingLoop]
    dsimp only
    split
    · exact (ih _).trans (sizes_setResendRate_of_eq rfl)
    · apply (ih _).trans
      have hfirst : (n.setResendRate peer.1 (n.resendRateOf peer.1)).sizes = n.sizes :=
        sizes_setResendRate_of_eq rfl
      have hsame := congrFun (congrArg Prod.snd hfirst) peer.1
      refine (sizes_setResendRate_of_eq ?_).trans hfirst
      exact ((maxPacketSizeForPlayerId_eq n peer.1).symm.trans hsame.symm).trans (maxPacketSizeForPlayerId_eq _ _)

theorem sizes_sendPacksizeTests (n : Node) (now : ℤ) (peer : ℕ) : (n.sendPacksizeTests now peer).1.sizes =
    (n.maxPacketSize, Function.update n.maxPacketSizeForPlayerId peer MAX_PACKET_SIZE_LOWER_LIMIT) :=
  sizes_setResendRate n peer _

/-! ### Datagrams -/

theorem sizes_onTcpAck (n : Node) (peer seq : ℕ) : (n.onTcpAck peer seq).sizes = n.sizes := by
  rw [onTcpAck]
  dsimp only
  split
  · exact sizes_setResendRate_of_eq rfl
  · rfl

theorem sizes_onTcpResend (n : Node) (peer seq : ℕ) : (n.onTcpResend peer seq).1.sizes = n.sizes := by
  rw [onTcpResend]
  cases (n.sendBufferOf peer).get seq with
  | none => rfl
  | some data =>
    dsimp only
    apply sizes_setResendRate_of_eq
    split <;> exact maxPacketSize_getResendRate _ _

theorem sizes_onReliable (n : Node) (now : ℤ) (throws : ℕ → Bool) (peer seq action : ℕ) (data : Bytes) :
    (n.onReliable now throws peer seq action data).1.sizes = n.sizes := by
  have hrate := maxPacketSize_getResendRate (n.resendRateOf peer) false
  simp only [onReliable]
  split
  · exact sizes_setResendRate_of_eq hrate
  · split <;> exact sizes_setResendRate_of_eq hrate

theorem sizes_onPacksizeAck (n : Node) (now : ℤ) (peer size : ℕ) : (n.onPacksizeAck now peer size).sizes =
    (n.maxPacketSize, Function.update n.maxPacketSizeForPlayerId peer (max (n.maxPacketSizeForPlayerId peer) size)) := by
  rw [onPacksizeAck, sizes_setResendRate, maxPacketSizeForPlayerId_eq, ← maxPacketSize_registerAck (n.resendRateOf peer) now]
  split
  · rename_i hlt
    rw [max_eq_right hlt.le]
  · rename_i hge
    rw [max_eq_left (not_lt.mp hge)]

/-- The size that an event acknowledges for a peer. -/
def ackedSize (n : Node) : NodeEvent → Option (ℕ × ℕ)
  | .datagram _ _ sender datas =>
    match n.playerAt sender, Message.decode datas with
    | some peer, some (.packsizeAck size) => some (peer, size)
    | _, _ => none
  | _ => none

theorem sizes_onDatagram {now : ℤ} {throws : ℕ → Bool} {sender : HostAndPort} {datas : Bytes} {out : List Output}
    (h : n.onDatagram now throws sender datas = some (n', out)) :
    n'.sizes = match n.ackedSize (.datagram now throws sender datas) with
      | some (peer, size) =>
        (n.maxPacketSize, Function.update n.maxPacketSizeForPlayerId peer (max (n.maxPacketSizeForPlayerId peer) size))
      | none => n.sizes := by
  rw [ackedSize, playerAt]
  obtain ⟨rfl, -, hquiet⟩ | ⟨peer, m, -, hpeer, hm, h⟩ := onDatagram_read h
  · obtain rfl | hnone := hquiet
    · cases n'.peerPlayerIds[sender]? <;> rfl
    · rw [hnone]
  rw [hpeer, hm]
  cases m with
  | tcpAck seq =>
    cases h
    exact sizes_onTcpAck (n.touch peer) peer seq
  | tcpResend seq =>
    have hsizes := sizes_onTcpResend (n.touch peer) peer seq
    rw [Option.some.inj h] at hsizes
    exact hsizes
  | packsizeTest seq =>
    obtain ⟨out', -, he⟩ := Option.map_eq_some_iff.mp h
    cases he
    rfl
  | packsizeAck size =>
    cases h
    exact sizes_onPacksizeAck (n.touch peer) now peer size
  | reliable seq action data =>
    have hsizes := sizes_onReliable (n.touch peer) now throws peer seq action data
    rw [Option.some.inj h] at hsizes
    exact hsizes
  | other action data =>
    cases h
    rfl

/-! ### Steps -/

/-- Every peer's size is what it was or starts again. -/
def SizesKept (n n' : Node) : Prop :=
  n'.maxPacketSize = n.maxPacketSize ∧ ∀ peer, n'.maxPacketSizeForPlayerId peer = n.maxPacketSizeForPlayerId peer ∨
    n'.maxPacketSizeForPlayerId peer = MAX_PACKET_SIZE_LOWER_LIMIT

theorem SizesKept.of_eq (h : n'.sizes = n.sizes) : SizesKept n n' :=
  ⟨congrArg Prod.fst h, fun peer => Or.inl (congrFun (congrArg Prod.snd h) peer)⟩

theorem SizesKept.of_reset {q : ℕ} (h : n'.sizes =
    (n.maxPacketSize, Function.update n.maxPacketSizeForPlayerId q MAX_PACKET_SIZE_LOWER_LIMIT)) :
    SizesKept n n' := by
  refine ⟨congrArg Prod.fst h, fun peer => ?_⟩
  have hsize : n'.maxPacketSizeForPlayerId peer =
      Function.update n.maxPacketSizeForPlayerId q MAX_PACKET_SIZE_LOWER_LIMIT peer :=
    congrFun (congrArg Prod.snd h) peer
  rw [hsize, Function.update_apply]
  by_cases hq : peer = q
  · exact Or.inr (if_pos hq)
  · exact Or.inl (if_neg hq)

theorem SizesKept.trans {n'' : Node} (h : SizesKept n n') (h' : SizesKept n' n'') : SizesKept n n'' := by
  refine ⟨h'.1.trans h.1, fun peer => ?_⟩
  rcases h'.2 peer with he | he
  · rw [he]
    exact h.2 peer
  · exact Or.inr he

theorem sizesKept_disconnect (lost : List ℕ) (n : Node) : SizesKept n (lost.foldl disconnectFromPeer n) := by
  induction lost generalizing n with
  | nil => exact .of_eq rfl
  | cons peer lost ih => exact (SizesKept.of_reset (sizes_disconnectFromPeer n peer)).trans (ih _)

theorem sizesKept_step {e : NodeEvent} (h : n.nodeStep e = some n') (hack : n.ackedSize e = none) :
    SizesKept n n' := by
  cases e with
  | connectToPeer now address peer =>
    cases h
    exact .of_reset (sizes_connectToPeer n now address peer)
  | joinGame now address peer =>
    cases h
    exact .of_reset (sizes_connectToPeer n now address peer)
  | disconnectFromPeer peer =>
    cases h
    exact .of_reset (sizes_disconnectFromPeer n peer)
  | forwardGameData now dest action data =>
    rw [nodeStep] at h
    split at h
    · cases h
    · cases h
      exact .of_eq (sizes_forwardGameData n now dest action data)
  | onResendTimer tNow =>
    cases h
    exact .of_eq (sizes_resendPeers tNow _ n)
  | onResendReqReenableTimer =>
    cases h
    exact .of_eq rfl
  | sendPacksizeTests now peer =>
    cases h
    exact .of_reset (sizes_sendPacksizeTests n now peer)
  | resetTcpBuffers =>
    cases h
    exact .of_eq rfl
  | sendPingToPeers clock =>
    cases h
    exact (SizesKept.of_eq (sizes_pingLoop _ n)).trans (sizesKept_disconnect _ _)
  | datagram now throws sender datas =>
    obtain ⟨⟨m, out⟩, hm, rfl⟩ := Option.map_eq_some_iff.mp h
    have hsizes := sizes_onDatagram hm
    rw [hack] at hsizes
    exact .of_eq hsizes

theorem sizes_step_of_acked {e : NodeEvent} {peer size : ℕ} (h : n.nodeStep e = some n')
    (hack : n.ackedSize e = some (peer, size)) : n'.sizes =
      (n.maxPacketSize, Function.update n.maxPacketSizeForPlayerId peer (max (n.maxPacketSizeForPlayerId peer) size)) := by
  cases e with
  | datagram now throws sender datas =>
    obtain ⟨⟨m, out⟩, hm, rfl⟩ := Option.map_eq_some_iff.mp h
    have hsizes := sizes_onDatagram hm
    rw [hack] at hsizes
    exact hsizes
  | _ => cases hack

/-! ### Fragments -/

theorem fragmentSize_le {limit : ℕ} (hlimit : MAX_PACKET_SIZE_LOWER_LIMIT ≤ limit) (peerSize len : ℕ) :
    fragmentSize limit peerSize len ≤ limit :=
  max_le (min_le_right _ _) hlimit

/-! ### Runs -/

/-- Every peer's size lies between the two limits, the fragment loop's division is defined and
no fragment exceeds the node's limit. -/
structure SaneSizes (n : Node) : Prop where
  bounds : ∀ peer, MAX_PACKET_SIZE_LOWER_LIMIT ≤ n.maxPacketSizeForPlayerId peer ∧
    n.maxPacketSizeForPlayerId peer ≤ n.maxPacketSize
  divisor : ∀ peer, n.fragmentDivisor peer ≠ 0
  fragments : ∀ peer action data, ∀ f ∈ n.fragmentsFor peer action data, f.2.length ≤ n.maxPacketSize

/-- An acknowledged size is one that the node could have tested. -/
def AckWithin (n : Node) (e : NodeEvent) : Prop :=
  ∀ a ∈ n.ackedSize e, a.2 ≤ n.maxPacketSize ∧ a.2 + 1 < 2 ^ 32

instance (n : Node) (e : NodeEvent) : Decidable (n.AckWithin e) :=
  inferInstanceAs (Decidable (∀ a ∈ n.ackedSize e, _))

theorem saneSizes_iff (hlimit : MAX_PACKET_SIZE_LOWER_LIMIT ≤ n.maxPacketSize)
    (h32 : ∀ peer, n.maxPacketSizeForPlayerId peer < 2 ^ 32) :
    n.SaneSizes ↔ ∀ peer, MAX_PACKET_SIZE_LOWER_LIMIT ≤ n.maxPacketSizeForPlayerId peer ∧
      n.maxPacketSizeForPlayerId peer ≤ n.maxPacketSize ∧ n.maxPacketSizeForPlayerId peer + 1 < 2 ^ 32 := by
  constructor
  · intro h peer
    refine ⟨(h.bounds peer).1, (h.bounds peer).2, ?_⟩
    have hdiv := h.divisor peer
    have hlt := h32 peer
    rw [fragmentDivisor] at hdiv
    by_contra hge
    have heq : n.maxPacketSizeForPlayerId peer + 1 = 2 ^ 32 := by omega
    exact hdiv (by rw [heq, Nat.mod_self])
  · intro h
    refine ⟨fun peer => ⟨(h peer).1, (h peer).2.1⟩, fun peer => ?_, fun peer action data f hf => ?_⟩
    · rw [fragmentDivisor, Nat.mod_eq_of_lt (h peer).2.2]
      exact Nat.succ_ne_zero _
    · exact (length_fragmentLoop (fragmentSize_pos _ _ _) _ _ f hf).2.trans (fragmentSize_le hlimit _ _)

/-- What is known of every node, whatever was acknowledged. -/
structure SizesKnown (n : Node) : Prop where
  limit : MAX_PACKET_SIZE_LOWER_LIMIT ≤ n.maxPacketSize
  range : ∀ peer, n.maxPacketSizeForPlayerId peer < 2 ^ 32

theorem acked_lt {e : NodeEvent} {peer size : ℕ} (h : n.ackedSize e = some (peer, size)) : size < 2 ^ 32 := by
  cases e with
  | datagram now throws sender datas =>
    rw [ackedSize] at h
    split at h
    · rename_i hm
      cases h
      exact decode_packsizeAck_lt hm
    · cases h
  | _ => cases h

theorem sizesKnown_step {e : NodeEvent} (hn : n.SizesKnown) (h : n.nodeStep e = some n') : n'.SizesKnown := by
  cases hack : n.ackedSize e with
  | none =>
    obtain ⟨hlimit, hsizes⟩ := sizesKept_step h hack
    refine ⟨hlimit ▸ hn.limit, fun peer => ?_⟩
    rcases hsizes peer with he | he
    · rw [he]
      exact hn.range peer
    · rw [he]
      decide
  | some a =>
    obtain ⟨peer, size⟩ := a
    have hsizes := sizes_step_of_acked h hack
    have hlimit : n'.maxPacketSize = n.maxPacketSize := congrArg Prod.fst hsizes
    refine ⟨hlimit ▸ hn.limit, fun p => ?_⟩
    have hp : n'.maxPacketSizeForPlayerId p = Function.update n.maxPacketSizeForPlayerId peer
        (max (n.maxPacketSizeForPlayerId peer) size) p := congrFun (congrArg Prod.snd hsizes) p
    rw [hp, Function.update_apply]
    split
    · exact max_lt (hn.range peer) (acked_lt hack)
    · exact hn.range p

theorem saneSizes_step {e : NodeEvent} (hn : n.SizesKnown) (hs : n.SaneSizes) (h : n.nodeStep e = some n') :
    n'.SaneSizes ↔ n.AckWithin e := by
  have hn' := sizesKnown_step hn h
  rw [saneSizes_iff hn'.limit hn'.range]
  rw [saneSizes_iff hn.limit hn.range] at hs
  cases hack : n.ackedSize e with
  | none =>
    obtain ⟨hlimit, hsizes⟩ := sizesKept_step h hack
    have hwithin : n.AckWithin e := by
      intro a ha
      rw [hack] at ha
      cases ha
    refine iff_of_true (fun peer => ?_) hwithin
    rw [hlimit]
    rcases hsizes peer with he | he
    · rw [he]
      exact hs peer
    · rw [he]
      exact ⟨le_rfl, hn.limit, by decide⟩
  | some a =>
    obtain ⟨peer, size⟩ := a
    have hsizes := sizes_step_of_acked h hack
    have hlimit : n'.maxPacketSize = n.maxPacketSize := congrArg Prod.fst hsizes
    have hp : n'.maxPacketSizeForPlayerId = Function.update n.maxPacketSizeForPlayerId peer
        (max (n.maxPacketSizeForPlayerId peer) size) := congrArg Prod.snd hsizes
    have hwithin : n.AckWithin e ↔ size ≤ n.maxPacketSize ∧ size + 1 < 2 ^ 32 := by
      rw [AckWithin, hack]
      simp
    rw [hwithin, hlimit, hp]
    constructor
    · intro hall
      have hpeer := hall peer
      rw [Function.update_self] at hpeer
      exact ⟨(le_max_right _ _).trans hpeer.2.1, lt_of_le_of_lt (Nat.succ_le_succ (le_max_right _ _)) hpeer.2.2⟩
    · intro hx p
      obtain ⟨hle, hlt⟩ := hx
      rw [Function.update_apply]
      split
      · obtain ⟨h1, h2, h3⟩ := hs peer
        exact ⟨h1.trans (le_max_left _ _), max_le h2 hle, by omega⟩
      · exact hs p

theorem sizesKnown_new (playerId : ℕ) (isHost proactiveResend : Bool) {maxPacketSize : ℕ}
    (hlimit : MAX_PACKET_SIZE_LOWER_LIMIT ≤ maxPacketSize) :
    (Node.new playerId isHost proactiveResend maxPacketSize).SizesKnown ∧
      (Node.new playerId isHost proactiveResend maxPacketSize).SaneSizes := by
  have hsize : ∀ peer, (Node.new playerId isHost proactiveResend maxPacketSize).maxPacketSizeForPlayerId peer =
      MAX_PACKET_SIZE_LOWER_LIMIT := by
    intro peer
    simp [maxPacketSizeForPlayerId, Node.new]
  have hknown : (Node.new playerId isHost proactiveResend maxPacketSize).SizesKnown :=
    ⟨hlimit, fun peer => by rw [hsize]; decide⟩
  refine ⟨hknown, (saneSizes_iff hknown.limit hknown.range).mpr fun peer => ?_⟩
  rw [hsize]
  exact ⟨le_rfl, hlimit, by decide⟩

/-- Over every list of events the sizes stay sane exactly as long as no peer acknowledges a size
that the node could not have tested. -/
theorem sizes_sane_iff (playerId : ℕ) (isHost proactiveResend : Bool) {maxPacketSize : ℕ}
    (hlimit : MAX_PACKET_SIZE_LOWER_LIMIT ≤ maxPacketSize) (es : List NodeEvent) :
    Always nodeStep SaneSizes (.new playerId isHost proactiveResend maxPacketSize) es ↔
      Along nodeStep AckWithin (.new playerId isHost proactiveResend maxPacketSize) es := by
  obtain ⟨hknown, hsane⟩ := sizesKnown_new playerId isHost proactiveResend hlimit
  have hany : Along nodeStep (fun _ _ => True) (.new playerId isHost proactiveResend maxPacketSize) es :=
    .of_forall (fun _ _ => trivial) _ es
  refine always_iff_along ?_ es hknown hsane hany
  intro n e n' hn hs _ h
  exact ⟨saneSizes_step hn hs h, fun _ => sizesKnown_step hn h⟩

/-- A size test that the peer answers. -/
def answeredTest : List NodeEvent :=
  [.connectToPeer 0 ⟨1, 6112⟩ 2, .sendPacksizeTests 0 2,
    .datagram 5 (fun _ => false) ⟨1, 6112⟩ (encodeMessage ACTION_PACKSIZE_ACK 353 [])]

theorem sizes_sane_answeredTest : Always nodeStep SaneSizes (.new 1 false false 1500) answeredTest :=
  (sizes_sane_iff 1 false false (by decide) answeredTest).mpr (by decide +kernel)

/-- An acknowledgement of five bytes that names the largest number. -/
def forgedAck : List NodeEvent :=
  [.connectToPeer 0 ⟨1, 6112⟩ 2, .datagram 5 (fun _ => false) ⟨1, 6112⟩ [12, 255, 255, 255, 255]]

theorem forgedAck_divisor : (∃ n, run nodeStep (.new 1 false false 1500) forgedAck = some n ∧
    n.maxPacketSizeForPlayerId 2 = 2 ^ 32 - 1 ∧ n.maxPacketSize = 1500 ∧ n.fragmentDivisor 2 = 0) ∧
    ¬ Always nodeStep SaneSizes (.new 1 false false 1500) forgedAck := by
  have hrun : (run nodeStep (.new 1 false false 1500) forgedAck).map (fun n =>
      (n.maxPacketSizeForPlayerId 2, n.maxPacketSize, n.fragmentDivisor 2)) = some (2 ^ 32 - 1, 1500, 0) := by
    decide +kernel
  obtain ⟨n, hn, hview⟩ := Option.map_eq_some_iff.mp hrun
  obtain ⟨hsize, hrest⟩ := Prod.mk.inj hview
  obtain ⟨hlimit, hdiv⟩ := Prod.mk.inj hrest
  exact ⟨⟨n, hn, hsize, hlimit, hdiv⟩, fun h => (h.of_run hn).divisor 2 hdiv⟩

end Node

end Gpgnet4TA.Tafnet
