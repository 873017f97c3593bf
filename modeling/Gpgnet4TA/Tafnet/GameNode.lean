import Gpgnet4TA.Lib.Run
import Gpgnet4TA.Lib.Table
import Gpgnet4TA.Tafnet.GameAddressTranslater
import Gpgnet4TA.Tafnet.Node
import Gpgnet4TA.Tapacket.TAPacketParser

/-!
# The game's side of a tafnet node (`TafnetGameNode.cpp`, `GameReceiver.cpp`)

For each remote player the node has a sender, which plays that player to the local game, and a
receiver, whose ports the game believes to be that player's. What the operating system decides
is an argument: the ports of a new receiver, whether the enumeration port could be bound, and
the ports that a probe finds occupied. What is passed on is recorded. `none` says that the
translation or the parsing of a message has no result.
-/

namespace Gpgnet4TA.Tafnet
open Gpgnet4TA.Lib Gpgnet4TA.Tapacket SubPacketCode

def GAME_TCP_PORT_BEGIN : ℕ := 2300
def GAME_TCP_PORT_VALID_END : ℕ := 2400
def GAME_UDP_PORT_BEGIN : ℕ := 2350
def GAME_UDP_PORT_VALID_END : ℕ := 2400
def TICKS_TO_PROTECT_UDP : ℕ := 300

/-- The channel of a `GameReceiver` on which data came in. -/
inductive Channel where
  | CHANNEL_ENUM
  | CHANNEL_TCP
  | CHANNEL_UDP
  deriving DecidableEq

structure GameSender where
  tcpPort : ℕ
  udpPort : ℕ
  deriving DecidableEq

/-- `enumPort` is 0 while no enumeration port is bound. -/
structure GameReceiver where
  bindAddress : ℕ
  enumPort : ℕ
  tcpPort : ℕ
  udpPort : ℕ
  deriving DecidableEq

/-- What the operating system gives to a new receiver. -/
structure Listening where
  bindAddress : ℕ
  tcpPort : ℕ
  udpPort : ℕ

def GameReceiver.new (os : Listening) : GameReceiver := ⟨os.bindAddress, 0, os.tcpPort, os.udpPort⟩

/-- A server that listens already keeps its port. -/
def GameReceiver.bindEnumerationPort (r : GameReceiver) (port : ℕ) (listens : Bool) : GameReceiver :=
  if 0 < port then
    { r with enumPort := if r.enumPort ≠ 0 then r.enumPort else if listens then port else 0 }
  else { r with enumPort := 0 }

/-- What the node does besides changing. -/
inductive GameOutput where
  | forwardGameData (destNodeId action : ℕ) (data : Bytes)
  | sendPacksizeTests (peerPlayerId : ℕ)
  | openTcpSocket (peerPlayerId : ℕ)
  | sendTcpData (peerPlayerId : ℕ) (data : Bytes)
  | sendUdpData (peerPlayerId : ℕ) (data : Bytes)
  deriving DecidableEq

/-- `m_gameAddress` is always the local host. -/
structure TafnetGameNode where
  packetParser : Option TAPacketParser
  gameSenders : Table GameSender
  gameReceivers : Table GameReceiver
  remotePlayerIds : Table ℕ
  pendingEnumRequests : Table Bytes
  playerInviteOrder : List ℕ
  gameTcpPort : ℕ
  gameUdpPort : ℕ
  initialOccupiedTcpPorts : List ℕ

namespace TafnetGameNode

def new (packetParser : Option TAPacketParser) (initialOccupiedTcpPorts : List ℕ) : TafnetGameNode :=
  ⟨packetParser, ∅, ∅, ∅, ∅, [], 0, 0, initialOccupiedTcpPorts⟩

/-! ### Senders and receivers (`TafnetGameNode.cpp:30-75`) -/

def getGameSender (g : TafnetGameNode) (remoteTafnetId : ℕ) : TafnetGameNode :=
  if g.gameSenders.contains remoteTafnetId then g
  else { g with gameSenders := g.gameSenders.insert remoteTafnetId ⟨g.gameTcpPort, g.gameUdpPort⟩ }

/-- A port that is taken stays with its player. -/
def claimPort (ids : Table ℕ) (port id : ℕ) : Table ℕ :=
  if ids.contains port then ids else ids.insert port id

def getGameReceiver (g : TafnetGameNode) (remoteTafnetId : ℕ) (os : Listening) :
    GameReceiver × TafnetGameNode :=
  match g.gameReceivers[remoteTafnetId]? with
  | some r => (r, g)
  | none =>
    let r := GameReceiver.new os
    (r, { g with
      gameReceivers := g.gameReceivers.insert remoteTafnetId r
      remotePlayerIds :=
        claimPort (claimPort g.remotePlayerIds r.tcpPort remoteTafnetId) r.udpPort remoteTafnetId })

def killGameReceiver (g : TafnetGameNode) (remoteTafnetId : ℕ) : TafnetGameNode :=
  match g.gameReceivers[remoteTafnetId]? with
  | none => g
  | some r =>
    let ids := (g.remotePlayerIds.erase r.tcpPort).erase r.udpPort
    -- the last receiver takes the enumeration port along
    let ids := if g.gameReceivers.size = 1 then ids.erase r.enumPort else ids
    { g with gameReceivers := g.gameReceivers.erase remoteTafnetId, remotePlayerIds := ids }

def registerRemotePlayer (g : TafnetGameNode) (remotePlayerId isHostEnumPort : ℕ) (os : Listening)
    (listens : Bool) : TafnetGameNode :=
  let (r, g) := (g.getGameSender remotePlayerId).getGameReceiver remotePlayerId os
  if 0 < isHostEnumPort then
    let r := r.bindEnumerationPort isHostEnumPort listens
    { g with
      gameReceivers := g.gameReceivers.insert remotePlayerId r
      remotePlayerIds := g.remotePlayerIds.insert r.enumPort remotePlayerId }
  else g

def unregisterRemotePlayer (g : TafnetGameNode) (remotePlayerId : ℕ) : TafnetGameNode :=
  { g with
    pendingEnumRequests := g.pendingEnumRequests.erase remotePlayerId
    playerInviteOrder := g.playerInviteOrder.filter (· ≠ remotePlayerId)
    gameSenders := g.gameSenders.erase remotePlayerId }.killGameReceiver remotePlayerId

/-! ### The game's own ports (`TafnetGameNode.cpp:398-470`) -/

def validTcpPort (port : ℕ) : Bool := GAME_TCP_PORT_BEGIN ≤ port ∧ port < GAME_TCP_PORT_VALID_END

/-- The port of the header, or one that has become occupied, or the first one. -/
def guessTcpPort (initialOccupied occupied : List ℕ) (port : ℕ) : ℕ :=
  let port := if validTcpPort port then port
    else occupied.foldl (fun port p => if p ∈ initialOccupied then port else p) port
  if validTcpPort port then port else GAME_TCP_PORT_BEGIN

def updateGameSenderPortsFromDplayHeader (g : TafnetGameNode) (data : Bytes) (occupiedTcpPorts : List ℕ) :
    Option TafnetGameNode := do
  let header := data ++ [0]
  if ← DPHeader.looksOk header then
    let address ← readAddress header 4
    let gameTcpPort := guessTcpPort g.initialOccupiedTcpPorts occupiedTcpPorts address.port
    return { g with
      gameTcpPort
      gameSenders := g.gameSenders.map fun _ _ => ⟨gameTcpPort, g.gameUdpPort⟩ }
  else return g

def updateTcpPort (g : TafnetGameNode) (tcp : ℕ) : TafnetGameNode :=
  if validTcpPort tcp ∧ g.gameTcpPort = 0 then
    { g with gameTcpPort := tcp, gameSenders := g.gameSenders.map fun _ s => { s with tcpPort := tcp } }
  else g

def updateUdpPort (g : TafnetGameNode) (udp : ℕ) : TafnetGameNode :=
  if (GAME_UDP_PORT_BEGIN ≤ udp ∧ udp < GAME_UDP_PORT_VALID_END) ∧ g.gameUdpPort = 0 then
    { g with gameUdpPort := udp, gameSenders := g.gameSenders.map fun _ s => { s with udpPort := udp } }
  else g

def updateGameSenderPortsFromSpaPacket (g : TafnetGameNode) (tcp udp : ℕ) : TafnetGameNode :=
  (g.updateTcpPort tcp).updateUdpPort udp

/-! ### Translation (`TafnetGameNode.cpp:77-103`, `202-221`) -/

/-- The address becomes the id of the player that has the port; the port stays. -/
def localTranslater (g : TafnetGameNode) (playerId replyAddress : ℕ) (replyPorts : ℕ × ℕ) :
    GameAddressTranslater :=
  ⟨replyAddress, replyPorts, fun address _ =>
    some { address with address := (g.remotePlayerIds[address.port]?).getD playerId }⟩

/-- What is learned from an address that is no remote player's. -/
def visit (g : TafnetGameNode) (v : DPAddress × ℕ) : TafnetGameNode :=
  if g.remotePlayerIds.contains v.1.port then g
  else g.updateGameSenderPortsFromSpaPacket (if v.2 = 0 then v.1.port else 0)
    (if v.2 = 1 then v.1.port else 0)

def translateMessageFromLocalGame (g : TafnetGameNode) (playerId : ℕ) (data : Bytes) (replyAddress : ℕ)
    (replyPorts : ℕ × ℕ) : Option (TafnetGameNode × Bytes) := do
  let (data, visits) ← (g.localTranslater playerId replyAddress replyPorts).translate data
  return (visits.foldl visit g, data)

/-- The address is the id of a player; it becomes the address and port of that player's receiver. -/
def remoteTranslater (g : TafnetGameNode) (replyAddress : ℕ) (replyPorts : ℕ × ℕ) : GameAddressTranslater :=
  ⟨replyAddress, replyPorts, fun address index =>
    match g.gameReceivers[address.address]? with
    | some r => some ⟨r.bindAddress, if index = 0 then r.tcpPort else r.udpPort⟩
    | none => some ⟨replyAddress, if 0 < index then replyPorts.2 else replyPorts.1⟩⟩

def translateMessageFromRemoteGame (g : TafnetGameNode) (data : Bytes) (replyAddress : ℕ)
    (replyPorts : ℕ × ℕ) : Option Bytes :=
  ((g.remoteTranslater replyAddress replyPorts).translate data).map (·.1)

/-! ### Data from the game (`TafnetGameNode.cpp:105-200`) -/

def protectedSubpaks : List Byte :=
  [CHAT_05, LOADING_STARTED_08, GIVE_UNIT_14, HOST_MIGRATION_18, REJECT_1B, SPEED_19, ALLY_23, TEAM_24]

/-- The node's parser, if it has one, parses the data. -/
def parse (g : TafnetGameNode) (isLocalSource : Bool) (data : Bytes) : Option TafnetGameNode :=
  match g.packetParser with
  | none => some g
  | some p => (p.parseGameData isLocalSource data).map fun p => { g with packetParser := some p }

def handleUdp (g : TafnetGameNode) (tafnetNode : Node) (destNodeId : ℕ) (data : Bytes) :
    Option (TafnetGameNode × List GameOutput) :=
  let large := decide (tafnetNode.maxPacketSizeForPlayerId destNodeId < data.length)
  match g.packetParser with
  | none =>
    some (g, [.forwardGameData destNodeId (if large then ACTION_UDP_PROTECTED else ACTION_UDP_DATA) data])
  | some p => do
    let early := decide (p.progressTicks < TICKS_TO_PROTECT_UDP)
    let p ← p.parseGameData true data
    let parsedProtectedSubpaks := p.parsedSubPacketCodes.filter (· ∈ protectedSubpaks)
    let protect := large || early || decide (parsedProtectedSubpaks ≠ [])
    return ({ g with packetParser := some p },
      [.forwardGameData destNodeId (if protect then ACTION_UDP_PROTECTED else ACTION_UDP_DATA) data])

def handleTcp (g : TafnetGameNode) (tafnetNode : Node) (destNodeId : ℕ) (data : Bytes) :
    Option (TafnetGameNode × List GameOutput) := do
  -- the ports in the reply address mean nothing to the peer
  let (g, data) ← g.translateMessageFromLocalGame tafnetNode.playerId data 0 (0xdead, 0xbeef)
  let g ← g.parse true data
  return (g, [.forwardGameData destNodeId ACTION_TCP_DATA data])

/-- Data that a receiver's socket with the given port has received. -/
def handleGameData (g : TafnetGameNode) (tafnetNode : Node) (localPort : ℕ) (channelCode : Channel)
    (data : Bytes) (occupiedTcpPorts : List ℕ) : Option (TafnetGameNode × List GameOutput) :=
  match g.remotePlayerIds[localPort]? with
  | none => some (g, [])
  | some destNodeId =>
    if destNodeId = 0 ∨ data = [] then some (g, [])
    else do
      let g ← if g.gameTcpPort = 0 then g.updateGameSenderPortsFromDplayHeader data occupiedTcpPorts
        else some g
      match channelCode with
      | .CHANNEL_UDP => g.handleUdp tafnetNode destNodeId data
      | .CHANNEL_TCP => g.handleTcp tafnetNode destNodeId data
      | .CHANNEL_ENUM => some (g, [.forwardGameData destNodeId ACTION_ENUM data])

/-! ### Data from the peers (`TafnetGameNode.cpp:223-274`) -/

/-- No function for players' addresses: they become the reply address. -/
def enumTranslater (r : GameReceiver) : GameAddressTranslater :=
  ⟨r.bindAddress, (r.tcpPort, r.udpPort), fun _ _ => none⟩

def handleTafnetMessage (g : TafnetGameNode) (action peerPlayerId : ℕ) (data : Bytes) (os : Listening) :
    Option (TafnetGameNode × List GameOutput) :=
  let (r, g) := (g.getGameSender peerPlayerId).getGameReceiver peerPlayerId os
  if action = ACTION_HELLO then some (g, [.sendPacksizeTests peerPlayerId])
  else if action = ACTION_ENUM then do
    let (data, _) ← (enumTranslater r).translate data
    return ({ g with pendingEnumRequests := g.pendingEnumRequests.insert peerPlayerId data }, [])
  else if action = ACTION_TCP_OPEN then some (g, [.openTcpSocket peerPlayerId])
  else if action = ACTION_TCP_DATA then do
    let data ← g.translateMessageFromRemoteGame data r.bindAddress (r.tcpPort, r.udpPort)
    let g ← g.parse false data
    return (g, [.sendTcpData peerPlayerId data])
  else if action = ACTION_UDP_PROTECTED ∨ action = ACTION_UDP_DATA then do
    let g ← g.parse false data
    return (g, [.sendUdpData peerPlayerId data])
  else some (g, [])

end TafnetGameNode

end Gpgnet4TA.Tafnet
