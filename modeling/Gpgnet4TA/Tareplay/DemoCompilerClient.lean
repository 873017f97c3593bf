import Gpgnet4TA.Gpgnet.Framing
import Gpgnet4TA.Lib.Run
import Gpgnet4TA.Tapacket.SmartPaker
import Gpgnet4TA.Tapacket.SubPacketClasses
import Gpgnet4TA.Tapacket.TAPacketParser
import Gpgnet4TA.Tareplay.DemoCompiler

/-!
# The recorder's client (`TaDemoCompilerClient.cpp`)

It hears of the players and packets of the game and tells the server about them. A `QString` is
its UTF-8 encoding. An event gives the client afterwards, the bytes that are sent, and the exception
if there is one; `none` says that a packet makes it read where there is nothing.
-/

namespace Gpgnet4TA.Tareplay
open Gpgnet4TA.Lib Gpgnet4TA.Gpgnet Gpgnet4TA.Tapacket SubPacketCode

/-- What Qt decides: how bytes that may not be UTF-8 become text, in which order a set comes, and
what is in memory that is not initialised. -/
structure Platform where
  fromUtf8 : Bytes → Bytes
  order : Std.ExtTreeSet ℕ → List ℕ
  order_perm : ∀ s, (order s).Perm s.toList
  uninitialised : Byte

structure TaDemoCompilerClient where
  tafGameId : ℕ
  localPlayerName : Bytes
  hostPlayerName : Bytes
  localPlayerDplayId : ℕ
  hostDplayId : ℕ
  ticks : ℤ
  dpConnectedPlayers : Std.ExtTreeSet ℕ

/-- What an event does. -/
structure Handled where
  client : TaDemoCompilerClient
  sent : Bytes
  exception : Option String

namespace TaDemoCompilerClient

def new (tafGameId : ℕ) : TaDemoCompilerClient := ⟨tafGameId, [], [], 0, 0, -1, ∅⟩

def setHostPlayerName (c : TaDemoCompilerClient) (name : Bytes) : TaDemoCompilerClient :=
  { c with hostPlayerName := name }

def setLocalPlayerName (c : TaDemoCompilerClient) (name : Bytes) : TaDemoCompilerClient :=
  { c with localPlayerName := name }

/-! ### Messages (`TaDemoCompilerClient.cpp:113-187`) -/

def sendHello (gameId dplayPlayerId : ℕ) (playerName : Bytes) : Bytes :=
  sendCommand (asciiBytes "Hello") 3 ++ sendArgument (.int gameId) ++ sendArgument (.int dplayPlayerId) ++
    sendArgument (.byteArray playerName)

def sendGameInfo (maxUnits : ℕ) (mapName : Bytes) : Bytes :=
  sendCommand (asciiBytes "GameInfo") 2 ++ sendArgument (.int maxUnits) ++ sendArgument (.byteArray mapName)

/-- A `qint8` is sent with its sign. -/
def sendGamePlayer (side : Byte) (name statusMessage : Bytes) : Bytes :=
  sendCommand (asciiBytes "GamePlayer") 3 ++
    sendArgument (.int (if side < 128 then side.toNat else 2 ^ 32 - 256 + side.toNat)) ++
    sendArgument (.byteArray name) ++ sendArgument (.byteArray statusMessage)

def GamePlayerLoading.ID : Bytes := asciiBytes "GamePlayerLoading"

def sendGamePlayerLoading (q : Platform) (c : TaDemoCompilerClient) (lockedInPlayers : Std.ExtTreeSet ℕ) : Bytes :=
  sendCommand GamePlayerLoading.ID lockedInPlayers.size ++ sendArgument (.int c.hostDplayId) ++
    ((q.order lockedInPlayers).filter (· ≠ c.hostDplayId)).flatMap fun dpid => sendArgument (.int dpid)

def sendUnitData (unitData : Bytes) : Bytes :=
  sendCommand (asciiBytes "UnitData") 1 ++ sendArgument (.byteArray unitData)

def sendMoves (moves : Bytes) : Bytes := sendCommand (asciiBytes "Move") 1 ++ sendArgument (.byteArray moves)

/-! ### Players (`TaDemoCompilerClient.cpp:189-260`) -/

/-- A player who says its id and name. Both handlers do the same. -/
def onDplayPlayer (q : Platform) (c : TaDemoCompilerClient) (dplayId : ℕ) (name : Bytes) : Handled :=
  if 0 < dplayId ∧ name ≠ [] then
    let c := { c with dpConnectedPlayers := c.dpConnectedPlayers.insert dplayId }
    if c.hostPlayerName = [] then
      ⟨c, [], some "you need to determine and setHostPlayerName() before GameMonitor receives any packets!"⟩
    else
      let c := if q.fromUtf8 (cString name) = c.hostPlayerName then { c with hostDplayId := dplayId } else c
      if c.localPlayerName = [] then
        ⟨c, [], some "you need to determine and setLocalPlayerName() before GameMonitor receives any packets!"⟩
      else if q.fromUtf8 (cString name) = c.localPlayerName ∧ dplayId ≠ c.localPlayerDplayId then
        ⟨{ c with localPlayerDplayId := dplayId }, sendHello c.tafGameId dplayId c.localPlayerName, none⟩
      else ⟨c, [], none⟩
  else ⟨c, [], none⟩

def onDplaySuperEnumPlayerReply (q : Platform) (c : TaDemoCompilerClient) (dplayId : ℕ) (name : Bytes) : Handled :=
  onDplayPlayer q c dplayId name

def onDplayCreateOrForwardPlayer (q : Platform) (c : TaDemoCompilerClient) (_command dplayId : ℕ) (name : Bytes) :
    Handled :=
  onDplayPlayer q c dplayId name

def onDplayDeletePlayer (c : TaDemoCompilerClient) (dplayId : ℕ) : Handled :=
  ⟨{ c with
      dpConnectedPlayers := c.dpConnectedPlayers.erase dplayId
      localPlayerDplayId := if dplayId = c.localPlayerDplayId then 0 else c.localPlayerDplayId }, [], none⟩

/-! ### Packets (`TaDemoCompilerClient.cpp:262-342`) -/

/-- The name of the map ends within the field; otherwise the source reads on behind it. -/
def getMapName (x : TPlayerInfo) : Option Bytes := if 0 ∈ x.fill1 then some (cString x.fill1) else none

def playerInfoMessages (q : Platform) (c : TaDemoCompilerClient) (sourceDplayId : ℕ) (s : Bytes) : Option Bytes := do
  let playerInfo ← TPlayerInfo.ofSubPacket s q.uninitialised
  if byteAt playerInfo.data2 2 < 10 then
    let side := if playerInfo.isWatcher then 2 else byteAt playerInfo.data2 1
    let player := sendGamePlayer side c.localPlayerName s
    if sourceDplayId = c.hostDplayId then
      let mapName ← getMapName playerInfo
      return sendGameInfo playerInfo.maxUnits (q.fromUtf8 mapName) ++ player
    else return player
  else return []

def unitDataMessage (s : Bytes) : Option Bytes := do
  let ud ← TUnitData.ofSubPacket s
  return if ud.sub = 2 ∨ ud.sub = 3 then sendUnitData s else []

/-- One subpacket: the messages, and the tick afterwards. -/
def onSubpak (q : Platform) (c : TaDemoCompilerClient) (sourceDplayId : ℕ) (s : Bytes) : Option (ℤ × Bytes) :=
  let code := byteAt s 0
  if code = PLAYER_INFO_20 then (playerInfoMessages q c sourceDplayId s).map fun sent => (c.ticks, sent)
  else if code = UNIT_DATA_1A then (unitDataMessage s).map fun sent => (c.ticks, sent)
  else if code = LOADING_STARTED_08 then some (c.ticks, sendGamePlayerLoading q c c.dpConnectedPlayers)
  else if code = LOADING_PROGRESS_2A then
    ((s ++ [0])[1]?).map fun percent => (if percent = 100 then 0 else c.ticks, [])
  else if code = UNIT_STAT_AND_MOVE_2C then (u32At (s ++ [0]) 3).map fun ticks => ((ticks : ℤ), [])
  else some (c.ticks, [])

/-- What the subpacket adds to the moves. -/
def filteredMove (smartPaker : SmartPaker) (s : Bytes) : Bytes × SmartPaker :=
  if byteAt s 0 = UNIT_STAT_AND_MOVE_2C then smartPaker.apply s else (s, smartPaker)

/-- The subpackets one after the other: the client, the moves, and what is sent. -/
def onSubpaks (q : Platform) (sourceDplayId : ℕ) :
    TaDemoCompilerClient → SmartPaker → List Bytes → Option (TaDemoCompilerClient × Bytes × Bytes)
  | c, _, [] => some (c, [], [])
  | c, smartPaker, s :: subpaks => do
    let (ticks, sent) ← onSubpak q c sourceDplayId s
    let (move, smartPaker) := filteredMove smartPaker s
    let (c, moves, more) ← onSubpaks q sourceDplayId { c with ticks } smartPaker subpaks
    return (c, move ++ moves, sent ++ more)

def onTaPacket (q : Platform) (c : TaDemoCompilerClient) (sourceDplayId : ℕ) (isLocalSource : Bool)
    (subpaks : List Bytes) : Option Handled :=
  if isLocalSource then do
    let (c, moves, sent) ← onSubpaks q sourceDplayId c .new subpaks
    return ⟨c, if 0 ≤ c.ticks then sent ++ sendMoves (0x03 :: moves) else sent, none⟩
  else some ⟨c, [], none⟩

/-! ### Events -/

def handle (q : Platform) (c : TaDemoCompilerClient) : HandlerCall → Option Handled
  | .onDplaySuperEnumPlayerReply dplayId playerName => some (onDplaySuperEnumPlayerReply q c dplayId playerName)
  | .onDplayCreateOrForwardPlayer command dplayId name =>
    some (onDplayCreateOrForwardPlayer q c command dplayId name)
  | .onDplayDeletePlayer dplayId => some (onDplayDeletePlayer c dplayId)
  | .onTaPacket sourceDplayId _ isLocalSource _ subpaks => onTaPacket q c sourceDplayId isLocalSource subpaks

def step (q : Platform) (c : TaDemoCompilerClient) (call : HandlerCall) : Option TaDemoCompilerClient :=
  (handle q c call).map (·.client)

end TaDemoCompilerClient

end Gpgnet4TA.Tareplay
