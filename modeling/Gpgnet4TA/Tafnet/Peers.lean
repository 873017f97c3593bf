import Gpgnet4TA.Lib.Inverse
import Gpgnet4TA.Lib.Run
import Gpgnet4TA.Lib.Table
import Gpgnet4TA.Tafnet.NodeSpec

/-!
# The peers of a node (`TafnetNode.cpp:559-598`, `727-769`)

A node finds a peer's address by its id and the sender of a datagram by its address. The
two tables are inverse to each other as long as no connection is made for a player that is
known at another address, or at an address that is another player's.
-/

namespace Gpgnet4TA.Tafnet
open Gpgnet4TA.Lib

def PING_PACKET_SIZE : ℕ := 16
def DEAD_PEER_TIMEOUT : ℤ := 180000

namespace Node

def joinGame (n : Node) (now : ℤ) (peer : HostAndPort) (peerPlayerId : ℕ) : Node × List Output :=
  let (n, out) := n.connectToPeer now peer peerPlayerId
  ({ n with hostPlayerId := peerPlayerId }, out)

def disconnectFromPeer (n : Node) (peerPlayerId : ℕ) : Node :=
  { n with
    peerPlayerIds := match n.peerAddresses[peerPlayerId]? with
      | some address => n.peerPlayerIds.erase address
      | none => n.peerPlayerIds
    peerAddresses := n.peerAddresses.erase peerPlayerId
    receiveBuffer := n.receiveBuffer.erase peerPlayerId
    sendBuffer := n.sendBuffer.erase peerPlayerId
    reassemblyBuffer := n.reassemblyBuffer.erase peerPlayerId
    resendRates := n.resendRates.erase peerPlayerId
    resendRequestEnabled := n.resendRequestEnabled.erase peerPlayerId }

/-- The peer has stopped responding, or never did. -/
def isLost (stats : ResendRate) (tNow : ℤ) : Bool :=
  (0 < stats.timestampLastPingAck ∧ DEAD_PEER_TIMEOUT < tNow - stats.timestampLastPingAck) ∨
    (stats.timestampLastPingAck = 0 ∧ 0 < stats.timestampFirstPing ∧
      DEAD_PEER_TIMEOUT < tNow - stats.timestampFirstPing)

/-- The loop over the peers: the node, the peers that are lost, and what is sent. The clock
is read in every round. -/
def pingLoop : Node → List (ℕ × ℤ) → Node × List ℕ × List Output
  | n, [] => (n, [], [])
  | n, (peerId, tNow) :: rest =>
    let stats := n.resendRateOf peerId
    let n := n.setResendRate peerId stats
    if isLost stats tNow then
      let (n, lost, out) := pingLoop n rest
      (n, peerId :: lost, out)
    else
      let stats := { stats with
        timestampFirstPing := if stats.timestampFirstPing = 0 then tNow else stats.timestampFirstPing
        timestampLastPing := tNow }
      let n := n.setResendRate peerId stats
      let ping := n.sendMessage peerId ACTION_PACKSIZE_TEST PING_PACKET_SIZE (packsizeTestData PING_PACKET_SIZE) 1
      let (n, lost, out) := pingLoop n rest
      (n, lost, ping ++ out)

def sendPingToPeers (n : Node) (clock : ℕ → ℤ) : Node × List Output :=
  let peers := n.peerPlayerIds.toList.map (·.2)
  let (n, lost, out) := pingLoop n (peers.zipIdx.map fun peer => (peer.1, clock peer.2))
  ((Std.ExtTreeSet.ofList lost).toList.foldl disconnectFromPeer n, out)

/-! ### What the operations do to the tables -/

/-- The current address of a player, and the player that an address stands for. -/
def addressOf (n : Node) (peer : ℕ) : Option HostAndPort := n.peerAddresses[peer]?
def playerAt (n : Node) (address : HostAndPort) : Option ℕ := n.peerPlayerIds[address]?

/-- The two tables are inverse to each other. -/
def PeersAgree (n : Node) : Prop := Inverse n.addressOf n.playerAt

variable {n : Node}

theorem peersAgree_of_routes {n' : Node} (hroutes : n'.routes = n.routes) : n'.PeersAgree ↔ n.PeersAgree := by
  have haddresses : n'.peerAddresses = n.peerAddresses := congrArg Prod.fst hroutes
  have hids : n'.peerPlayerIds = n.peerPlayerIds := congrArg Prod.snd hroutes
  have haddressOf : n'.addressOf = n.addressOf := by
    funext peer
    rw [addressOf, addressOf, haddresses]
  have hplayerAt : n'.playerAt = n.playerAt := by
    funext address
    rw [playerAt, playerAt, hids]
  rw [PeersAgree, PeersAgree, haddressOf, hplayerAt]

theorem routes_forwardGameData (now : ℤ) (peer action : ℕ) (data : Bytes) :
    (n.forwardGameData now peer action data).1.routes = n.routes := by
  rw [forwardGameData]
  split
  · split
    · exact routes_sendFragments now peer _ _
    · rfl
  · rfl

/-- Neither the player nor the address has another partner. -/
def Fresh (n : Node) (address : HostAndPort) (peer : ℕ) : Prop :=
  (∀ a, n.addressOf peer = some a → a = address) ∧ ∀ p, n.playerAt address = some p → p = peer

instance (n : Node) (address : HostAndPort) (peer : ℕ) : Decidable (n.Fresh address peer) :=
  inferInstanceAs (Decidable ((∀ a ∈ n.addressOf peer, a = address) ∧ ∀ p ∈ n.playerAt address, p = peer))

theorem addresses_resetPeer (address : HostAndPort) (peer : ℕ) :
    (n.resetPeer address peer).addressOf = Function.update n.addressOf peer (some address) := by
  funext p
  rw [Function.update_apply]
  by_cases hp : p = peer
  · simp [addressOf, resetPeer, hp]
  · simp [addressOf, resetPeer, Std.ExtTreeMap.getElem?_insert, hp, Ne.symm hp]

theorem ids_resetPeer (address : HostAndPort) (peer : ℕ) :
    (n.resetPeer address peer).playerAt = Function.update n.playerAt address (some peer) := by
  funext a
  rw [Function.update_apply]
  by_cases ha : a = address
  · simp [playerAt, resetPeer, ha]
  · simp [playerAt, resetPeer, Std.ExtTreeMap.getElem?_insert, ha, Ne.symm ha]

theorem peersAgree_connectToPeer (h : n.PeersAgree) (now : ℤ) (address : HostAndPort) (peer : ℕ) :
    (n.connectToPeer now address peer).1.PeersAgree ↔ n.Fresh address peer := by
  have hroutes : (n.connectToPeer now address peer).1.routes = (n.resetPeer address peer).routes :=
    routes_forwardGameData now peer _ _
  rw [peersAgree_of_routes hroutes, PeersAgree, addresses_resetPeer, ids_resetPeer]
  exact h.insert_iff peer address

theorem peersAgree_disconnectFromPeer (h : n.PeersAgree) (peer : ℕ) : (n.disconnectFromPeer peer).PeersAgree := by
  cases haddress : n.peerAddresses[peer]? with
  | none =>
    have hsame : (n.disconnectFromPeer peer).routes = n.routes := by
      have hids : (n.disconnectFromPeer peer).peerPlayerIds = n.peerPlayerIds := by
        rw [disconnectFromPeer, haddress]
      have haddresses : (n.disconnectFromPeer peer).peerAddresses = n.peerAddresses := by
        apply Std.ExtTreeMap.ext_getElem?
        intro p
        show (n.peerAddresses.erase peer)[p]? = _
        by_cases hp : p = peer
        · rw [hp, haddress]
          simp
        · simp [Std.ExtTreeMap.getElem?_erase, Ne.symm hp]
      exact Prod.ext haddresses hids
    exact (peersAgree_of_routes hsame).mpr h
  | some address =>
    have haddresses : (n.disconnectFromPeer peer).addressOf = Function.update n.addressOf peer none := by
      funext p
      show (n.peerAddresses.erase peer)[p]? = _
      rw [Function.update_apply]
      by_cases hp : p = peer
      · simp [hp]
      · simp [addressOf, Std.ExtTreeMap.getElem?_erase, hp, Ne.symm hp]
    have hids : (n.disconnectFromPeer peer).playerAt = Function.update n.playerAt address none := by
      funext a
      rw [disconnectFromPeer, haddress]
      show (n.peerPlayerIds.erase address)[a]? = _
      rw [Function.update_apply]
      by_cases ha : a = address
      · simp [ha]
      · simp [playerAt, Std.ExtTreeMap.getElem?_erase, ha, Ne.symm ha]
    rw [PeersAgree, haddresses, hids]
    exact Inverse.erase h haddress

theorem routes_pingLoop (peers : List (ℕ × ℤ)) : (pingLoop n peers).1.routes = n.routes := by
  induction peers generalizing n with
  | nil => rfl
  | cons peer peers ih =>
    rw [pingLoop]
    dsimp only
    split
    · exact ih
    · exact ih

theorem peersAgree_sendPingToPeers (h : n.PeersAgree) (clock : ℕ → ℤ) : (n.sendPingToPeers clock).1.PeersAgree := by
  have hfold : ∀ (lost : List ℕ) (n : Node), n.PeersAgree → (lost.foldl disconnectFromPeer n).PeersAgree := by
    intro lost
    induction lost with
    | nil => exact fun n h => h
    | cons peer lost ih => exact fun n h => ih _ (peersAgree_disconnectFromPeer h peer)
  exact hfold _ _ ((peersAgree_of_routes (routes_pingLoop _)).mpr h)

/-! ### Runs -/

inductive PeerEvent where
  | connectToPeer (now : ℤ) (peer : HostAndPort) (peerPlayerId : ℕ)
  | joinGame (now : ℤ) (peer : HostAndPort) (peerPlayerId : ℕ)
  | disconnectFromPeer (peerPlayerId : ℕ)
  | sendPingToPeers (clock : ℕ → ℤ)
  | datagram (now : ℤ) (throws : ℕ → Bool) (sender : HostAndPort) (datas : Bytes)

def peerStep (n : Node) : PeerEvent → Option Node
  | .connectToPeer now peer peerPlayerId => some (n.connectToPeer now peer peerPlayerId).1
  | .joinGame now peer peerPlayerId => some (n.joinGame now peer peerPlayerId).1
  | .disconnectFromPeer peerPlayerId => some (n.disconnectFromPeer peerPlayerId)
  | .sendPingToPeers clock => some (n.sendPingToPeers clock).1
  | .datagram now throws sender datas => (n.onDatagram now throws sender datas).map (·.1)

/-- A connection is for a player and at an address that have no other partner. -/
def FreshPeers (n : Node) : PeerEvent → Prop
  | .connectToPeer _ peer peerPlayerId => n.Fresh peer peerPlayerId
  | .joinGame _ peer peerPlayerId => n.Fresh peer peerPlayerId
  | _ => True

instance (n : Node) (e : PeerEvent) : Decidable (n.FreshPeers e) := by
  cases e <;> unfold FreshPeers <;> infer_instance

theorem routes_onDatagram {n' : Node} {out : List Output} {now : ℤ} {throws : ℕ → Bool} {sender : HostAndPort}
    {datas : Bytes} (h : n.onDatagram now throws sender datas = some (n', out)) : n'.routes = n.routes := by
  cases hpeer : n.peerPlayerIds[sender]? with
  | none => rw [(onDatagram_unknown hpeer h).1]
  | some peer => exact (onDatagram_cases hpeer h).1

theorem peersAgree_step {n' : Node} {e : PeerEvent} (h : n.PeersAgree) (he : n.FreshPeers e)
    (hstep : n.peerStep e = some n') : n'.PeersAgree := by
  cases e with
  | connectToPeer now peer peerPlayerId =>
    cases hstep
    exact (peersAgree_connectToPeer h now peer peerPlayerId).mpr he
  | joinGame now peer peerPlayerId =>
    cases hstep
    exact (peersAgree_of_routes rfl).mpr ((peersAgree_connectToPeer h now peer peerPlayerId).mpr he)
  | disconnectFromPeer peerPlayerId =>
    cases hstep
    exact peersAgree_disconnectFromPeer h peerPlayerId
  | sendPingToPeers clock =>
    cases hstep
    exact peersAgree_sendPingToPeers h clock
  | datagram now throws sender datas =>
    obtain ⟨⟨n', out⟩, hn', rfl⟩ := Option.map_eq_some_iff.mp hstep
    exact (peersAgree_of_routes (routes_onDatagram hn')).mpr h

/-- A datagram is taken for a player's only when it comes from the player's current address,
and for no player without one. -/
theorem peers_agree {playerId : ℕ} {isHost proactiveResend : Bool} {maxPacketSize : ℕ}
    (h : Runs peerStep FreshPeers (.new playerId isHost proactiveResend maxPacketSize) n) :
    (∀ address peer, n.playerAt address = some peer ↔ n.addressOf peer = some address) ∧
      ∀ now throws sender datas n' out, n.onDatagram now throws sender datas = some (n', out) →
        n' = n ∧ out = [] ∨ ∃ peer, n.playerAt sender = some peer ∧ n.addressOf peer = some sender := by
  have hnew : (Node.new playerId isHost proactiveResend maxPacketSize).PeersAgree := by
    intro peer address
    simp [addressOf, playerAt, Node.new]
  have hagree : n.PeersAgree := by
    apply Runs.invariant h hnew
    exact fun t e t' ht he hstep => peersAgree_step ht he hstep
  refine ⟨fun address peer => (hagree peer address).symm, ?_⟩
  intro now throws sender datas n' out hdatagram
  cases hpeer : n.playerAt sender with
  | none => exact Or.inl (onDatagram_unknown hpeer hdatagram)
  | some peer => exact Or.inr ⟨peer, rfl, (hagree peer sender).mpr hpeer⟩

/-- A player that comes back at another address after it was disconnected. -/
def comesBack : List PeerEvent :=
  [.connectToPeer 0 ⟨1, 6112⟩ 2, .disconnectFromPeer 2, .joinGame 0 ⟨3, 6112⟩ 2]

theorem peers_agree_comesBack : ∃ n, Runs peerStep FreshPeers (.new 1 false false 1500) n ∧
    n.addressOf 2 = some ⟨3, 6112⟩ ∧ n.playerAt ⟨3, 6112⟩ = some 2 := by
  have hrun : (run (guarded peerStep FreshPeers) (.new 1 false false 1500) comesBack).map (·.addressOf 2) =
      some (some ⟨3, 6112⟩) := by
    decide +kernel
  obtain ⟨n, hn, haddress⟩ := Option.map_eq_some_iff.mp hrun
  have hruns := Runs.of_run_guarded comesBack hn
  exact ⟨n, hruns, haddress, ((peers_agree hruns).1 _ _).mpr haddress⟩

/-- A known player that connects from another address, and is then disconnected. -/
def moves : List PeerEvent :=
  [.connectToPeer 0 ⟨1, 6112⟩ 2, .connectToPeer 0 ⟨3, 6112⟩ 2, .disconnectFromPeer 2]

/-- Its first address still stands for it. -/
theorem stale_address_accepted : ∃ n, Runs peerStep (fun _ _ => True) (.new 1 false false 1500) n ∧
    n.playerAt ⟨1, 6112⟩ = some 2 ∧ n.addressOf 2 = none := by
  have hrun : (run peerStep (.new 1 false false 1500) moves).map
      (fun n => (n.playerAt ⟨1, 6112⟩, n.addressOf 2)) = some (some 2, none) := by
    decide +kernel
  obtain ⟨n, hn, hview⟩ := Option.map_eq_some_iff.mp hrun
  obtain ⟨hplayer, haddress⟩ := Prod.mk.inj hview
  exact ⟨n, Runs.of_run moves hn fun _ _ _ => trivial, hplayer, haddress⟩

end Node

end Gpgnet4TA.Tafnet
