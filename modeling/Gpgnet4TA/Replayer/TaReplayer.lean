import Gpgnet4TA.Lib.Machine
import Gpgnet4TA.Replayer.ChatWindow
import Gpgnet4TA.Replayer.SyncWatcher
import Gpgnet4TA.Tapacket.DemoParser
import Gpgnet4TA.Tapacket.TAPacketParser

/-!
# The replayer (`TaReplayer.cpp`)

The replayer reads a demo while it is still being written. It waits for the players of the demo, then
for those who watch, and feeds them the packets of the demo as fast as its clock allows. `none` says
that a read leaves its buffer, that an `int` overflows or that the demo cannot be read.
-/

namespace Gpgnet4TA.Replayer
open Gpgnet4TA.Lib Gpgnet4TA.Tapacket SubPacketCode

inductive ReplayState where
  | LOADING_DEMO_PLAYERS
  | LOBBY
  | LAUNCH
  | LOAD
  | PLAY
  | DONE
  deriving DecidableEq

/-- The members of a `DemoPlayer` that only the lobby needs. -/
structure LobbyEntry where
  ordinalId : ℕ
  statusPacket : Bytes

/-- A message from `dpReceive`. -/
structure Datagram where
  fromId : ℕ
  toId : ℕ
  payload : Bytes

/-- What a tick of the timer finds: the messages for each round of the receive loop, what the `double`s
add to `m_targetTicks`, and a byte of a `TPlayerInfo` that is not initialised. -/
structure Tick where
  received : List (List Datagram)
  advance : ℕ
  uninitialised : Byte

/-- What is played, what is sent besides, and calls of DirectPlay. The texts of the two answers are made
of `double`s and the value of a ping is drawn. -/
inductive Output where
  | play (output : PlayOutput)
  | send (fromId toId : ℕ) (subpak : Bytes)
  | sync (sent : Sent)
  | ping (fromId toId : ℕ) (ping : TPing)
  | sayTotal (fromId : ℕ) (name : Bytes)
  | sayPosition (fromId : ℕ)
  | setPlayerName (dpId : ℕ) (name : Bytes)
  | destroyPlayer (dpId : ℕ)
  | setSession
  | readyToJoin

/-- `m_demoPlayers` is in `playback`, but for the `entries`. -/
structure TaReplayer where
  follower : Follower
  state : ReplayState
  playback : Playback
  entries : List LobbyEntry
  dpIdsPrealloc : List ℕ
  dpPlayers : Table DpPlayer
  demoUnitInfo : Table UnitInfo
  maxUnits : ℕ
  pendingGamePackets : List Playback.GamePacket
  wallClockTicks : ℕ
  targetTicks : ℕ
  isPaused : Bool
  launch : Bool

namespace TaReplayer

def SY_UNIT_ID : ℕ := 0x92549357
def NUM_PAKS_TO_PRELOAD : ℕ := 100
def DPID_SYSMSG : ℕ := 0
def DPSYS_CREATEPLAYERORGROUP : ℕ := 0x0003
def DPSYS_DESTROYPLAYERORGROUP : ℕ := 0x0005

def new (numTimesNewDataReceived : ℤ) (nochat : Bool) (dpIdsPrealloc : List ℕ) : TaReplayer where
  follower := .new numTimesNewDataReceived
  state := .LOADING_DEMO_PLAYERS
  playback := ⟨nochat, [], 0, [], ∅⟩
  entries := []
  dpIdsPrealloc := dpIdsPrealloc
  dpPlayers := ∅
  demoUnitInfo := ∅
  maxUnits := 0
  pendingGamePackets := []
  wallClockTicks := 0
  targetTicks := 0
  isPaused := false
  launch := true

def isDemoPlayer (r : TaReplayer) (dpid : ℕ) : Bool := r.playback.demoPlayers.any (·.dpId = dpid)

/-! ### The demo -/

def processUnitData (units : Table UnitInfo) (x : TUnitData) : Table UnitInfo :=
  let unitInfo := (units[x.id]?).getD ⟨0, 0, 0, false⟩
  if x.pktid = GIVE_UNIT_14 ∨ x.pktid = TEAM_24 then units
  else match x.u with
    | .statusAndLimit status limit =>
      units.insert x.id { unitInfo with id := x.id, limit := limit, inUse := status = 0x0101 }
    | .crc crc => if x.sub = 0x02 then units.insert x.id { unitInfo with id := x.id, crc := crc } else units

/-- Every subpacket is taken to be as long as the first one. -/
def unitDataLoop (subpakLen : ℕ) : ℕ → Bytes → Table UnitInfo → Option (Table UnitInfo)
  | 0, _, units => some units
  | fuel + 1, ptr, units =>
    if ptr ≠ [] ∧ 0 < subpakLen then do
      let bs ← sliceAt (ptr ++ [0]) 0 subpakLen
      let unitData ← TUnitData.ofSubPacket (bs ++ [0])
      unitDataLoop subpakLen fuel (ptr.drop subpakLen) (processUnitData units unitData)
    else some units

def onUnitData (r : TaReplayer) (unitData : Bytes) : Option TaReplayer := do
  let subpakLen ← getExpectedSubPacketSizeN (unitData ++ [0]) (unsigned unitData.length)
  let units ← unitDataLoop subpakLen unitData.length unitData r.demoUnitInfo
  return { r with demoUnitInfo := (units.filter fun _ unit => unit.inUse).insert SY_UNIT_ID ⟨SY_UNIT_ID, 0, 100, true⟩ }

/-- The overloads of `handle`. -/
def handle (r : TaReplayer) : Callback → Option TaReplayer
  | .header header => some { r with maxUnits := header.maxUnits }
  | .extraSector _ _ _ => some r
  | .player player _ _ =>
    some { r with
      playback := { r.playback with
        demoPlayers := r.playback.demoPlayers ++ [⟨player.number, player.name, 0, 0, 0⟩] }
      entries := r.entries ++ [⟨0, []⟩] }
  | .playerStatusMessage msg dplayid n _ =>
    if n < r.entries.length then
      some { r with
        playback := { r.playback with
          demoPlayers := r.playback.demoPlayers.modify n fun p => { p with originalDpId := dplayid } }
        entries := r.entries.set n ⟨n, msg.statusMessage⟩ }
    else none
  | .unitData unitData => r.onUnitData unitData.unitData
  | .packet packet unpaked _ =>
    some { r with pendingGamePackets := r.pendingGamePackets ++ [⟨packet.sender, unpaked⟩] }

def parse (r : TaReplayer) : Option TaReplayer :=
  match r.follower.parse NUM_PAKS_TO_PRELOAD with
  | .ok (_, follower) =>
    (follower.parser.handled.drop r.follower.parser.handled.length).foldlM handle { r with follower }
  | .error _ => none

/-- Both are sorted, and the n-th player gets the n-th id. `std::sort` does not say in which order
it leaves players with the same id. -/
def assignDpIds (players : List (DemoPlayer × LobbyEntry)) (dpIdsPrealloc : List ℕ) : List (DemoPlayer × LobbyEntry) :=
  let sorted := players.insertionSort fun a b => a.1.originalDpId ≤ b.1.originalDpId
  let named := (sorted.zip dpIdsPrealloc).map fun x => ({ x.1.1 with dpId := x.2 }, x.1.2)
  named.insertionSort fun a b => a.2.ordinalId ≤ b.2.ordinalId

def onCompletedLoadingDemoPlayers (r : TaReplayer) : Option (TaReplayer × List Output) :=
  let dpIds := r.dpIdsPrealloc.insertionSort (· ≤ ·)
  let numPlayers := r.playback.demoPlayers.length
  if dpIds.length < numPlayers then none
  else
    let players := assignDpIds (r.playback.demoPlayers.zip r.entries) dpIds
    let byOriginalId := players.insertionSort fun a b => a.1.originalDpId ≤ b.1.originalDpId
    some ({ r with
        playback := { r.playback with demoPlayers := players.map (·.1) }
        entries := players.map (·.2)
        dpIdsPrealloc := dpIds.take numPlayers },
      byOriginalId.map (fun p => .setPlayerName p.1.dpId p.1.name) ++
        ((dpIds.drop numPlayers).reverse.map .destroyPlayer))

/-! ### Messages -/

/-- What is done with each subpacket that has the length it should have. -/
def onSubpaks (f : TaReplayer → Bytes → Option (TaReplayer × List Output)) (r : TaReplayer) (payload : Bytes) :
    Option (TaReplayer × List Output) := do
  match ← TAPacketParser.decodeTaPacket payload with
  | none => return (r, [])
  | some subpaks =>
    exec (fun r s => do
      let expectedSize ← getExpectedSubPacketSize s
      if expectedSize = 0 ∨ s.length ≠ expectedSize then return (r, []) else f r s) r subpaks

def setDpPlayer (r : TaReplayer) (p : DpPlayer) : TaReplayer := { r with dpPlayers := r.dpPlayers.insert p.dpid p }

end TaReplayer

def DpPlayer.new (dpid : ℕ) : DpPlayer := ⟨0, dpid, 0, [], .START_SYNC, 0, 0, 0, 0, 0, false, .INITIAL⟩

namespace TaReplayer

/-! ### Lobby -/

def onLobbySystemMessage (r : TaReplayer) (payload : Bytes) : Option TaReplayer := do
  let dwType ← u32At payload 0
  if dwType = DPSYS_CREATEPLAYERORGROUP then
    let dpId ← u32At payload 8
    return if r.isDemoPlayer dpId then r else r.setDpPlayer (.new dpId)
  else if dwType = DPSYS_DESTROYPLAYERORGROUP then
    let dpId ← u32At payload 8
    return if r.isDemoPlayer dpId then r else { r with dpPlayers := r.dpPlayers.erase dpId }
  else return r

/-- The low half of `u.crc` is `u.statusAndLimit[0]`. -/
def lobbyUnitData (r : TaReplayer) (watcher : DpPlayer) (x : TUnitData) : Option TaReplayer :=
  match x.u with
  | .statusAndLimit _ _ => some r
  | .crc crc =>
    if x.sub = 0x02 then
      match r.demoUnitInfo[x.id]? with
      | none => some r
      | some unitInfo =>
        if unitInfo.crc ≠ crc ∧ x.id ≠ SY_UNIT_ID then
          (increment watcher.unitSyncErrorCount).map fun n => r.setDpPlayer { watcher with unitSyncErrorCount := n }
        else (increment watcher.unitSyncAckCount).map fun n => r.setDpPlayer { watcher with unitSyncAckCount := n }
    else if x.sub = 0x04 then
      some (r.setDpPlayer { watcher with unitSyncReceiveCount := (crc % 2 ^ 16 : ℕ) })
    else some r

def lobbySubpak (sourceDplayId otherDplayId : ℕ) (r : TaReplayer) (s : Bytes) : Option (TaReplayer × List Output) :=
  let code := byteAt s 0
  if code = PING_02 then do
    let ping ← TPing.ofSubPacket s
    return (r, [.ping otherDplayId sourceDplayId ping])
  else if code = UNIT_DATA_1A then
    match r.dpPlayers[sourceDplayId]? with
    | none => some (r, [])
    | some watcher => do
      let unitData ← TUnitData.ofSubPacket s
      let r ← r.lobbyUnitData watcher unitData
      return (r, [])
  else if code = PLAYER_INFO_20 then
    match r.dpPlayers[sourceDplayId]? with
    | none => some (r, [])
    | some watcher =>
      if r.isDemoPlayer sourceDplayId then some (r, [])
      else some (r.setDpPlayer { watcher with statusPacket := s }, [])
  else some (r, [])

def onLobbyTaMessage (r : TaReplayer) (m : Datagram) : Option (TaReplayer × List Output) :=
  onSubpaks (lobbySubpak m.fromId m.toId) r m.payload

/-- The loop of `doLobby`, and whether it returned: what comes behind a system message stays with
DirectPlay. -/
def lobbyLoop (host : ℕ) : TaReplayer → List Datagram → Option (Bool × TaReplayer × List Output)
  | r, [] => some (false, r, [])
  | r, m :: ms =>
    if m.fromId = DPID_SYSMSG ∧ m.toId = host then (r.onLobbySystemMessage m.payload).map (true, ·, [])
    else do
      let (r, outputs) ← r.onLobbyTaMessage m
      let (returned, r, more) ← lobbyLoop host r ms
      return (returned, r, outputs ++ more)

def sendIdent3 (host dpid : ℕ) (ordinalId : ℤ) : Output :=
  .send host 0 (TIdent3.asSubPacket ⟨dpid, UInt8.ofNat (ordinalId % 256).toNat⟩)

/-- Those who watch have the numbers behind the players of the demo. -/
def numbered (r : TaReplayer) : List (ℕ × DpPlayer) :=
  r.dpPlayers.toList.zipIdx.map fun x => (x.1.1, { x.1.2 with ordinalId := r.playback.demoPlayers.length + x.2 })

def playerInfo (uninitialised : Byte) (player : DemoPlayer) (entry : LobbyEntry) : Option TPlayerInfo :=
  (TPlayerInfo.ofSubPacket entry.statusPacket uninitialised).map (·.setDpId player.dpId)

def sendPlayerInfos (r : TaReplayer) (uninitialised : Byte) : Option (TaReplayer × List Output) := do
  let host ← r.playback.demoPlayers.head?
  let dpids := r.playback.demoPlayers.map (·.dpId)
  let infos ← (r.playback.demoPlayers.zip r.entries).mapM fun p => (playerInfo uninitialised p.1 p.2).map fun info =>
    Output.send host.dpId 0 (((info.setInternalVersion 0).setAllowWatch true).setCheat true).asSubPacket
  return ({ r with
      entries := r.entries.zipIdx.map fun x => { x.1 with ordinalId := x.2 }
      dpPlayers := .ofList r.numbered },
    [.send host.dpId 0 (TIdent2.asSubPacket ⟨dpids ++ List.replicate (10 - dpids.length) 0⟩)] ++
      dpids.zipIdx.map (fun x => sendIdent3 host.dpId x.1 x.2) ++
      r.numbered.map (fun x => sendIdent3 host.dpId x.1 x.2.ordinalId) ++ infos)

/-- The sum of what `doSyncWatcher` returns, the players afterwards, and what is sent. -/
def syncWatchers (demo : Demo) : List (ℕ × DpPlayer) → Option (ℕ × List (ℕ × DpPlayer) × List Sent)
  | [] => some (0, [], [])
  | (dpid, p) :: players => do
    let (go, p, sent) ← demo.doSyncWatcher p
    let (goCount, players, more) ← syncWatchers demo players
    return (go + goCount, (dpid, p) :: players, sent ++ more)

/-- The part of `doLobby` that is done on every tenth tick. -/
def callWatchers (r : TaReplayer) (host : ℕ) (uninitialised : Byte) : Option (ℕ × TaReplayer × List Output) :=
  if r.wallClockTicks % 10 = 0 then do
    let (r, outputs) ← r.sendPlayerInfos uninitialised
    let (goCount, players, sent) ← syncWatchers ⟨host, r.demoUnitInfo⟩ r.dpPlayers.toList
    return (goCount, { r with dpPlayers := .ofList players }, outputs ++ sent.map .sync)
  else some (0, r, [])

def doLobby (r : TaReplayer) (t : Tick) : Option (Bool × TaReplayer × List Output) := do
  let host ← r.playback.demoPlayers.head?
  let (returned, r, heard) ← lobbyLoop host.dpId r (t.received.headD [])
  if returned then return (false, r, heard)
  let (goCount, r, called) ← r.callWatchers host.dpId t.uninitialised
  if r.dpPlayers.size ≠ 0 ∧ goCount = r.dpPlayers.size then
    let statuses ← (r.playback.demoPlayers.zip r.entries).mapM fun p =>
      (playerInfo t.uninitialised p.1 p.2).map fun info =>
        Output.send p.1.dpId 0 (((info.setAllowWatch true).setPermLos true).setCheat true).asSubPacket
    return (true, r, heard ++ called ++ statuses)
  else return (false, r, heard ++ called)

/-! ### Launch and load -/

def doLaunch (r : TaReplayer) : Option (TaReplayer × List Output) := do
  let host ← r.playback.demoPlayers.head?
  return ({ r with dpPlayers := r.dpPlayers.map fun _ p => { p with state := .LOADING } },
    (r.playback.demoPlayers.zip r.entries).map (fun p => sendIdent3 host.dpId p.1.dpId p.2.ordinalId) ++
      r.dpPlayers.toList.map (fun x => sendIdent3 host.dpId x.1 x.2.ordinalId) ++
      [.setSession, .send host.dpId 0 [REPLAYER_SERVER_FA, 0x06], .send host.dpId 0 [LOADING_STARTED_08, 0x06]])

def loadingSubpak (sourceDplayId : ℕ) (r : TaReplayer) (s : Bytes) : Option (TaReplayer × List Output) :=
  if byteAt s 0 = UNIT_STAT_AND_MOVE_2C ∨ byteAt s 0 = START_15 then
    match r.dpPlayers[sourceDplayId]? with
    | some watcher => some (r.setDpPlayer { watcher with state := .PLAYING }, [])
    | none => some (r, [])
  else some (r, [])

def onLoadingTaMessage (r : TaReplayer) (m : Datagram) : Option (TaReplayer × List Output) :=
  if r.isDemoPlayer m.fromId then some (r, []) else onSubpaks (loadingSubpak m.fromId) r m.payload

def doLoad (r : TaReplayer) (t : Tick) : Option (Bool × TaReplayer × List Output) := do
  let (r, _) ← exec onLoadingTaMessage r (t.received.headD [])
  let host ← r.playback.demoPlayers.head?
  let percent := if 20 < r.wallClockTicks then 100 else r.wallClockTicks * 5
  let progress : List Output := if r.wallClockTicks % 10 = 0 then
      r.playback.demoPlayers.map fun p => .send p.dpId 0 (TProgress.asSubPacket ⟨UInt8.ofNat percent, 0x06⟩)
    else []
  let start : List Output := if r.wallClockTicks % 10 = 0 ∧ 20 ≤ r.wallClockTicks then
      r.playback.demoPlayers.map (fun p => .send p.dpId 0 [START_15]) ++ r.dpPlayers.toList.map fun x =>
        .send host.dpId x.1 [START_1E, UInt8.ofNat ((1 + x.2.ordinalId) % 256).toNat]
    else []
  return (20 ≤ r.wallClockTicks && r.dpPlayers.toList.all fun x => x.2.state = .PLAYING, r, progress ++ start)

/-! ### Play -/

/-- The demo player with the least id, as the first entry of a map. -/
def benefactor (r : TaReplayer) : Option DemoPlayer := r.playback.demoPlayers.argmin (·.dpId)

def createSonar (r : TaReplayer) (receivingDpId : ℕ) (number : ℤ) : Option (List Output) := do
  let benefactor ← r.benefactor
  let unitNumber := leBytes 2 ((r.maxUnits + (2 ^ 16 - 1)) % 2 ^ 16)
  let start := [0x09] ++ leBytes 2 r.demoUnitInfo.size ++ unitNumber ++ [0x00, 0x00] ++
    leBytes 2 ((number * 0xa0 + 0x50) % 2 ^ 16).toNat ++
    [0x00, 0x02, 0x00, 0x00, 0x00, 0x90, 0x00, 0x00, 0x00, 0xe9, 0x74, 0x00, 0x00]
  let finish := [0x11] ++ unitNumber ++ [0x01]
  let give := [0x14] ++ unitNumber ++ leBytes 4 receivingDpId ++
    [0x00, 0x00, 0x00, 0x00, 0x46, 0x01, 0x00, 0x00, 0x00, 0x00, 0x64, 0x7e, 0x00, 0x00, 0x00, 0x00, 0x00]
  return [.send benefactor.dpId 0 start, .send benefactor.dpId 0 finish, .send benefactor.dpId 0 give]

/-- Who watches gets one when the game is under way. -/
def sonarAt (r : TaReplayer) (sourceDplayId : ℕ) (watcher : DpPlayer) (ticks : ℕ) : Option (List Output) :=
  if 100 ≤ ticks ∧ watcher.ticks < 100 then
    r.createSonar sourceDplayId (watcher.ordinalId - r.playback.demoPlayers.length)
  else some []

/-- `s.find(text, 1)` -/
def finds (s : Bytes) (text : String) : Bool := (s.drop 1).tails.any fun t => (Playback.textBytes text).isPrefixOf t

def playingSubpak (sourceDplayId otherDplayId : ℕ) (r : TaReplayer) (s : Bytes) : Option (TaReplayer × List Output) :=
  let code := byteAt s 0
  if code = CHAT_05 then
    if finds s "> .total" then some (r, r.playback.demoPlayers.map fun p => .sayTotal p.dpId p.name)
    else if finds s "> .pos" then some (r, [.sayPosition otherDplayId])
    else some (r, [])
  else if code = SPEED_19 then
    -- other values are the speed
    if byteAt s 1 = 0 then some ({ r with isPaused := byteAt s 2 = 1 }, []) else some (r, [])
  else if code = UNIT_STAT_AND_MOVE_2C then do
    let ticks ← u32At (s ++ [0]) 3
    match r.dpPlayers[sourceDplayId]? with
    | none => return (r, [])
    | some watcher =>
      let sonar ← r.sonarAt sourceDplayId watcher ticks
      return (r.setDpPlayer { watcher with ticks }, sonar)
  else some (r, [])

/-- Only messages to the host from those who watch. -/
def onPlayingTaMessage (r : TaReplayer) (m : Datagram) : Option (TaReplayer × List Output) := do
  let host ← r.playback.demoPlayers.head?
  if m.toId = host.dpId ∧ !r.isDemoPlayer m.fromId then onSubpaks (playingSubpak m.fromId m.toId) r m.payload
  else return (r, [])

/-- `std::int32_t(m_targetTicks - m_demoTicks) <= 0` -/
def reached (r : TaReplayer) : Bool := int32 ((r.targetTicks : ℤ) - r.playback.demoTicks) ≤ 0

def setTarget (r : TaReplayer) (advance : ℕ) : TaReplayer :=
  if !r.isPaused ∧ (r.pendingGamePackets ≠ [] ∨ r.reached) then
    if r.wallClockTicks < 100 then
      let dpTicks := r.dpPlayers.toList.foldl (fun ticks x => max ticks x.2.ticks) 0
      { r with targetTicks := unsigned (dpTicks + 1) }
    else { r with targetTicks := unsigned (r.targetTicks + advance) }
  else r

def preload (r : TaReplayer) : Option TaReplayer :=
  if r.pendingGamePackets.length < NUM_PAKS_TO_PRELOAD then r.parse else some r

/-- The loop over the pending packets; each round takes one of them. -/
def playLoop : ℕ → List (List Datagram) → TaReplayer → Option (TaReplayer × List Output)
  | 0, _, _ => none
  | fuel + 1, received, r => do
    let (r, heard) ← exec onPlayingTaMessage r (received.headD [])
    let r ← r.preload
    if r.isPaused ∨ r.reached then return (r, heard)
    else match r.pendingGamePackets with
      | [] => return (r, heard)
      | packet :: packets =>
        let (playback, _, outputs) ← r.playback.playPacket packet
        let (r, more) ← playLoop fuel received.tail { r with playback, pendingGamePackets := packets }
        return (r, heard ++ outputs.map .play ++ more)

/-- There are no more rounds than packets, and every packet takes bytes of the demo. -/
def doPlay (r : TaReplayer) (t : Tick) : Option (TaReplayer × List Output) := do
  let r ← r.preload
  let r := r.setTarget t.advance
  playLoop (r.pendingGamePackets.length + r.follower.unread.length + 1) t.received r

/-! ### The timer -/

def doLoadTick (r : TaReplayer) (t : Tick) : Option (TaReplayer × List Output) := do
  let (loaded, r, outputs) ← r.doLoad t
  return (if loaded then { r with state := .PLAY, wallClockTicks := 0 } else r, outputs)

/-- The lines before the `switch` of `timerEvent`. -/
def beginTick (r : TaReplayer) : Option TaReplayer :=
  let r := { r with wallClockTicks := unsigned (r.wallClockTicks + 1) }
  if r.state ≠ .PLAY ∧ r.state ≠ .DONE ∧ r.pendingGamePackets.length < 1 then r.parse else some r

def loadingTick (r : TaReplayer) : Option (TaReplayer × List Output) :=
  if 0 < r.pendingGamePackets.length ∧ r.playback.demoPlayers.getLast?.any (·.originalDpId ≠ 0) then do
    let (r, outputs) ← r.onCompletedLoadingDemoPlayers
    return ({ r with state := .LOBBY, wallClockTicks := 0 }, outputs)
  else some (r, [])

def lobbyTick (r : TaReplayer) (t : Tick) : Option (TaReplayer × List Output) := do
  let ready : List Output := if r.launch then [.readyToJoin] else []
  let (launched, r, outputs) ← { r with launch := false }.doLobby t
  return (if launched then { r with state := .LAUNCH } else r, ready ++ outputs)

def launchTick (r : TaReplayer) (t : Tick) : Option (TaReplayer × List Output) := do
  let (r, launched) ← r.doLaunch
  let (r, loaded) ← { r with state := .LOAD, wallClockTicks := 0 }.doLoadTick t
  return (r, launched ++ loaded)

/-- `doPlay` never says that it is done. -/
def doState (r : TaReplayer) (t : Tick) : Option (TaReplayer × List Output) :=
  match r.state with
  | .LOADING_DEMO_PLAYERS => r.loadingTick
  | .LOBBY => r.lobbyTick t
  | .LAUNCH => r.launchTick t
  | .LOAD => r.doLoadTick t
  | .PLAY => r.doPlay t
  | .DONE => some (r, [])

def timerEvent (r : TaReplayer) (t : Tick) : Option (TaReplayer × List Output) := r.beginTick.bind (·.doState t)

inductive Event where
  /-- The demo grows. -/
  | grow (bytes : Bytes)
  | timerEvent (t : Tick)

def step (r : TaReplayer) : Event → Option (TaReplayer × List Output)
  | .grow bytes => some ({ r with follower := { r.follower with unread := r.follower.unread ++ bytes } }, [])
  | .timerEvent t => r.timerEvent t

end TaReplayer

end Gpgnet4TA.Replayer
