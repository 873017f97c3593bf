import Gpgnet4TA.Lib.Bytes
import Gpgnet4TA.Lib.Run

/-!
# The game monitor (`GameMonitor2.cpp`)

The monitor follows the players of one game through the packets they exchange, numbers
their armies and teams, keeps a copy of the players at the start of the game, and decides
how the game ended. Handlers are functions on the whole object; `Failure` says where the
source throws or crashes. Calls of the event handler are recorded.
-/

namespace Gpgnet4TA.App
open Gpgnet4TA.Lib

abbrev Text := List Char

/-- `outOfRange` is thrown by `std::map::at`. -/
inductive Failure where
  | outOfRange
  | runtimeError (what : String)
  | nullHandler
  | divisionByZero
  deriving DecidableEq

structure PlayerData where
  name : Text
  side : ℤ
  allies : Std.ExtTreeSet ℕ
  battleroomTeamSelection : ℤ
  isWatcher : Bool
  isAI : Bool
  slotNumber : ℤ
  isDead : Bool
  tick : ℕ
  dplayid : ℕ
  armyNumber : ℕ
  teamNumber : ℕ

def PlayerData.new : PlayerData := ⟨[], -1, ∅, 5, false, false, -1, false, 0, 0, 0, 0⟩

/-- Neither dead nor a watcher. -/
def PlayerData.isActive (p : PlayerData) : Bool := !p.isDead && !p.isWatcher

abbrev Players := Std.ExtTreeMap ℕ PlayerData

def Players.at (m : Players) (id : ℕ) : Except Failure PlayerData :=
  match m[id]? with
  | some p => .ok p
  | none => .error .outOfRange

inductive Status where
  | NOT_READY
  | VOID_RESULT
  | READY_RESULT
  deriving DecidableEq

structure ArmyResult where
  army : ℕ
  slot : ℤ
  playerAlias : Text
  realName : Text
  team : ℕ
  score : ℤ
  deriving DecidableEq

structure GameResult where
  status : Status
  results : List ArmyResult
  endGameTick : ℕ
  deriving DecidableEq

def GameResult.new : GameResult := ⟨.NOT_READY, [], 0⟩

/-- Calls of `GameEventHandler`. -/
inductive Call where
  | onGameSettings (mapName : Text) (maxUnits : ℕ) (hostName localName : Text)
  | onPlayerStatus (player : PlayerData) (mutualAllies : List Text)
  | onClearSlot (player : PlayerData)
  | onGameStarted (tick : ℕ) (teamsFrozen : Bool)
  | onGameEnded (result : GameResult)
  | onChat (msg : Text) (isLocalPlayerSource : Bool)

/-- `hasHandler` tells whether `m_gameEventHandler` is not null. -/
structure GameMonitor2 where
  hostPlayerName : Text
  localPlayerName : Text
  gameStartsAfterTickCount : ℕ
  drawGameTicks : ℕ
  hostDplayId : ℕ
  localDplayId : ℕ
  gameLaunched : Bool
  gameStarted : Bool
  mapName : Text
  maxUnits : ℕ
  players : Players
  frozenPlayers : Players
  playerRealNames : Text → Text
  gameResult : GameResult
  hasHandler : Bool
  calls : List Call

/-- What is given to the constructor and to the setters before the first packet;
`uninitialised` is what `m_maxUnits` happens to hold. -/
structure Setup where
  hostPlayerName : Text
  localPlayerName : Text
  gameStartsAfterTickCount : ℕ
  drawGameTicks : ℕ
  uninitialised : ℕ
  playerRealNames : Text → Text
  hasHandler : Bool

def GameMonitor2.new (c : Setup) : GameMonitor2 where
  hostPlayerName := c.hostPlayerName
  localPlayerName := c.localPlayerName
  gameStartsAfterTickCount := c.gameStartsAfterTickCount
  drawGameTicks := c.drawGameTicks
  hostDplayId := 0
  localDplayId := 0
  gameLaunched := false
  gameStarted := false
  mapName := []
  maxUnits := c.uninitialised
  players := ∅
  frozenPlayers := ∅
  playerRealNames := c.playerRealNames
  gameResult := .new
  hasHandler := c.hasHandler
  calls := []

/-! ### Queries (`GameMonitor2.cpp:627-716`) -/

def getPlayerDpidByName (players : Players) (name : Text) : ℕ :=
  match players.toList.find? fun kp => kp.2.name = name with
  | some kp => kp.2.dplayid
  | none => 0

def getActivePlayers (players : Players) : Std.ExtTreeSet ℕ :=
  .ofList ((players.toList.filter fun kp => kp.2.isActive).map fun kp => kp.2.dplayid)

def getMostRecentGameTick (players : Players) : ℕ :=
  players.toList.foldl (fun tick kp => if kp.2.tick > tick then kp.2.tick else tick) 0

def getMutualAllies (playerId : ℕ) (playerData : Players) : Except Failure (Std.ExtTreeSet ℕ) := do
  let player ← playerData.at playerId
  player.allies.toList.foldlM (fun mutualAllies otherId => do
    let other ← playerData.at otherId
    return if player.dplayid ∈ other.allies then mutualAllies.insert other.dplayid else mutualAllies) ∅

/-- The names are those of `players`, as a set. -/
def getMutualAllyNames (players : Players) (playerId : ℕ) (playerData : Players) :
    Except Failure (List Text) := do
  let mutualAllies ← getMutualAllies playerId playerData
  mutualAllies.toList.foldlM (fun names id => do
    let player ← players.at id
    return names.insert player.name) []

/-! ### Army and team numbers (`GameMonitor2.cpp:767-807`) -/

def resetNumbers (players : Players) : Players :=
  players.map fun _ p => { p with armyNumber := 0, teamNumber := 0 }

/-- The entries in the order of `dplayid`. -/
def sortedPlayers (players : Players) : List ℕ :=
  (players.toList.insertionSort fun p q => p.2.dplayid ≤ q.2.dplayid).map (·.1)

structure Numbering where
  players : Players
  teamCount : ℕ
  armyCount : ℕ

def setTeam (team : ℕ) (players : Players) (allynumber : ℕ) : Except Failure Players := do
  let ally ← players.at allynumber
  if ally.teamNumber = 0 ∧ ally.isWatcher = false ∧ ally.isDead = false then
    return players.insert allynumber { ally with teamNumber := team }
  else return players

def numberTeam (s : Numbering) (dplayid : ℕ) : Except Failure Numbering := do
  let mutualAllies ← getMutualAllies dplayid s.players
  let players ← (mutualAllies.insert dplayid).toList.foldlM (setTeam (s.teamCount + 1)) s.players
  return { s with players, teamCount := s.teamCount + 1 }

def numberPlayer (s : Numbering) (key : ℕ) : Except Failure Numbering := do
  let player ← s.players.at key
  if player.isWatcher || player.isDead then return s
  else
    let armyCount := s.armyCount + 1
    let players := s.players.insert key { player with armyNumber := armyCount }
    if player.teamNumber = 0 then numberTeam { s with players, armyCount } player.dplayid
    else return { s with players, armyCount }

def updatePlayerArmies (players : Players) : Except Failure Players := do
  let players := resetNumbers players
  let s ← (sortedPlayers players).foldlM numberPlayer ⟨players, 1, 0⟩
  return s.players

/-! ### The end of the game (`GameMonitor2.cpp:842-965`) -/

def isPlayersAllAllied (playerIds : List ℕ) (playerData : Players) : Except Failure (Option ℕ) :=
  match playerIds with
  | [] => .error .outOfRange
  | first :: _ => do
    let player ← playerData.at first
    let rec loop : List ℕ → Except Failure (Option ℕ)
      | [] => return some player.teamNumber
      | id :: ids => do
        let other ← playerData.at id
        if other.teamNumber ≠ player.teamNumber then return none else loop ids
    loop playerIds

namespace GameMonitor2

/-- The winning team, 0 for a forced and -1 for a mutual draw; `none` while the game goes on. -/
def checkEndGameCondition (s : GameMonitor2) : Except Failure (Option ℤ) :=
  if s.gameStarted = false then return none
  else
    let activePlayers := (getActivePlayers s.players).toList
    if activePlayers = [] then return some 0
    else do
      match ← isPlayersAllAllied activePlayers s.frozenPlayers with
      | some lastTeamStanding => return some lastTeamStanding
      | none =>
        match ← isPlayersAllAllied activePlayers s.players with
        | some _ => return some (-1)
        | none => return none

def call (s : GameMonitor2) (c : Call) : GameMonitor2 :=
  if s.hasHandler then { s with calls := s.calls ++ [c] } else s

def latchEndGameTick (s : GameMonitor2) (endGameTick : ℕ) : GameMonitor2 :=
  if s.gameResult.endGameTick = 0 then
    { s with gameResult :=
        { s.gameResult with endGameTick := if endGameTick = 0 then 1 else endGameTick } }
  else s

def score (winningTeamNumber : ℤ) (team : ℕ) : ℤ :=
  if winningTeamNumber > 0 then (if (team : ℤ) = winningTeamNumber then 1 else -1) else 0

def armyResult (s : GameMonitor2) (winningTeamNumber : ℤ) (p : PlayerData) : ArmyResult :=
  ⟨p.armyNumber, p.slotNumber, p.name, s.playerRealNames p.name, p.teamNumber,
    score winningTeamNumber p.teamNumber⟩

def armyResults (s : GameMonitor2) (winningTeamNumber : ℤ) : List ArmyResult :=
  (s.frozenPlayers.toList.filter fun kp =>
    !(kp.2.armyNumber == 0 || kp.2.teamNumber == 0 || kp.2.isWatcher)).map fun kp =>
      s.armyResult winningTeamNumber kp.2

def latchEndGameResult (s : GameMonitor2) (winningTeamNumber : ℤ) : GameMonitor2 :=
  if s.gameResult.status ≠ .NOT_READY then s
  else
    let endGameTick := getMostRecentGameTick s.players
    if winningTeamNumber < 0 then { s with gameResult := ⟨.VOID_RESULT, [], endGameTick⟩ }
    else
      let results := s.armyResults winningTeamNumber
      let status := if results = [] then .VOID_RESULT else .READY_RESULT
      let s := { s with gameResult := ⟨status, results, endGameTick⟩ }
      s.call (.onGameEnded s.gameResult)

/-! ### Notifications (`GameMonitor2.cpp:809-840`) -/

def isSlotUsed (players : Players) (n : ℕ) : Bool :=
  players.toList.any fun kp => kp.2.side ≥ 0 ∧ kp.2.slotNumber = n

def notifyPlayerStatuses (s : GameMonitor2) : Except Failure GameMonitor2 :=
  if s.hasHandler = false then return s
  else do
    let s ← s.players.toList.foldlM (fun (t : GameMonitor2) kp => do
      if kp.2.side ≥ 0 then
        let names ← getMutualAllyNames s.players kp.1 s.players
        return t.call (.onPlayerStatus kp.2 names)
      else return t) s
    return (List.range 10).foldl (fun t n => if isSlotUsed s.players n then t
      else t.call (.onClearSlot { PlayerData.new with slotNumber := n })) s

/-! ### Players come and go (`GameMonitor2.cpp:160-254`) -/

def noteHost (s : GameMonitor2) (setter : String) (dplayId : ℕ) (name : Text) :
    Except Failure GameMonitor2 :=
  if s.hostPlayerName = [] then
    .error (.runtimeError ("you need to determine and " ++ setter ++
      "() before GameMonitor receives any packets!"))
  else .ok (if name = s.hostPlayerName then { s with hostDplayId := dplayId } else s)

def noteLocal (s : GameMonitor2) (dplayId : ℕ) (name : Text) : Except Failure GameMonitor2 :=
  if s.localPlayerName = [] then
    .error (.runtimeError
      "you need to determine and setLocalPlayerName() before GameMonitor receives any packets!")
  else .ok (if name = s.localPlayerName then { s with localDplayId := dplayId } else s)

def addedTo (players : Players) (dplayId : ℕ) (name : Text) : Players :=
  players.insert dplayId { (players[dplayId]?).getD .new with name, dplayid := dplayId }

/-- The common part of the two handlers below; they name different setters in their messages. -/
def addPlayer (s : GameMonitor2) (setter : String) (dplayId : ℕ) (name : Text) :
    Except Failure GameMonitor2 := do
  let s ← { s with players := addedTo s.players dplayId name }.noteHost setter dplayId name
  let s ← s.noteLocal dplayId name
  let players ← updatePlayerArmies s.players
  return { s with players }

def onDplaySuperEnumPlayerReply (s : GameMonitor2) (dplayId : ℕ) (name : Text) :
    Except Failure GameMonitor2 :=
  if s.gameStarted = false ∧ name ≠ [] ∧ dplayId > 0 then s.addPlayer "setHostPlayerName" dplayId name
  else return s

def onDplayCreateOrForwardPlayer (s : GameMonitor2) (command dplayId : ℕ) (name : Text) :
    Except Failure GameMonitor2 :=
  if command = 0x0008 ∧ s.gameStarted = false ∧ name ≠ [] ∧ dplayId > 0 then
    s.addPlayer "setHostName" dplayId name
  else return s

def removeAlly (dplayId : ℕ) (players : Players) : Players :=
  players.map fun _ p => { p with allies := p.allies.erase dplayId }

/-- A player leaves before the game has started. -/
def removePlayer (s : GameMonitor2) (dplayId : ℕ) : Except Failure GameMonitor2 := do
  let player ← s.players.at dplayId
  if s.hasHandler = false then .error .nullHandler
  else do
    let players ← updatePlayerArmies (removeAlly dplayId (s.players.erase dplayId))
    notifyPlayerStatuses { s.call (.onClearSlot player) with players }

/-- Latch whatever end of the game there is. -/
def latchIfEnded (s : GameMonitor2) : Except Failure GameMonitor2 := do
  match ← s.checkEndGameCondition with
  | some winningTeamNumber => return s.latchEndGameResult winningTeamNumber
  | none => return s

def onDplayDeletePlayer (s : GameMonitor2) (dplayId : ℕ) : Except Failure GameMonitor2 :=
  if dplayId = 0 ∨ s.players.contains dplayId = false then return s
  else if s.gameStarted = false then s.removePlayer dplayId
  else s.latchIfEnded

/-! ### Status and alliances (`GameMonitor2.cpp:324-488`, `719-765`) -/

/-- Before the start the numbers are made anew and announced. -/
def renumber (s : GameMonitor2) : Except Failure GameMonitor2 := do
  let players ← updatePlayerArmies s.players
  let s := { s with players }
  if s.gameStarted = false then s.notifyPlayerStatuses else return s

/-- A mutual draw is latched straight away. -/
def latchMutualDraw (s : GameMonitor2) : Except Failure GameMonitor2 := do
  match ← s.checkEndGameCondition with
  | some winningTeamNumber =>
    return if winningTeamNumber < 0 then s.latchEndGameResult winningTeamNumber else s
  | none => return s

/-- What follows a change of alliances. -/
def onAlliancesChanged (s : GameMonitor2) : Except Failure GameMonitor2 := do
  let s ← s.renumber
  s.latchMutualDraw

/-- The host's status tells the map. -/
def onHostStatus (s : GameMonitor2) (sourceDplayId : ℕ) (mapName : Text) (maxUnits : ℕ) : GameMonitor2 :=
  if sourceDplayId = s.hostDplayId ∧ mapName ≠ [] ∧ maxUnits > 0 ∧ s.mapName ≠ mapName then
    { s with mapName, maxUnits }.call
      (.onGameSettings mapName maxUnits s.hostPlayerName s.localPlayerName)
  else s

def onStatus (s : GameMonitor2) (sourceDplayId : ℕ) (mapName : Text) (maxUnits playerSlotNumber : ℕ)
    (playerSide : ℤ) (isWatcher isAI : Bool) : Except Failure GameMonitor2 :=
  match s.players[sourceDplayId]? with
  | none => return s
  | some player =>
    if s.gameStarted then return s
    else do
      let player : PlayerData := { player with isAI, slotNumber := int32 playerSlotNumber }
      if player.side < 0 ∨ player.isWatcher ≠ isWatcher ∨ player.side ≠ playerSide then
        let players := s.players.insert sourceDplayId { player with side := playerSide, isWatcher }
        let s ← { s with players }.renumber
        return s.onHostStatus sourceDplayId mapName maxUnits
      else
        let s := { s with players := s.players.insert sourceDplayId player }
        return s.onHostStatus sourceDplayId mapName maxUnits

def modifyAllies (players : Players) (id : ℕ) (f : Std.ExtTreeSet ℕ → Std.ExtTreeSet ℕ) : Players :=
  match players[id]? with
  | some p => players.insert id { p with allies := f p.allies }
  | none => players

/-- The sender's name from a chat line `<name> …`. -/
def chatSender (players : Players) (chat : Text) : ℕ :=
  match chat with
  | '<' :: rest =>
    let senderName := rest.takeWhile (· ≠ '>')
    if senderName.length < rest.length ∧ senderName ≠ [] then getPlayerDpidByName players senderName
    else 0
  | _ => 0

/-- The word behind the last blank; `none` if there is no blank or nothing behind it. -/
def lastWord (chat : Text) : Option Text :=
  let word := (chat.reverse.takeWhile (· ≠ ' ')).reverse
  if ' ' ∈ chat ∧ word ≠ [] then some word else none

def makeAlliancePrototype (name lastWord : Text) : Text :=
  "<".toList ++ name ++ ">  allied with ".toList ++ lastWord

def breakAlliancePrototype (name lastWord : Text) : Text :=
  "<".toList ++ name ++ ">  broke alliance with ".toList ++ lastWord

/-- The players with the alliances that a chat line makes or breaks; `none` if it does neither. -/
def updateAlliances (players : Players) (sender : ℕ) (chat : Text) : Option Players :=
  let sender := if sender = 0 then chatSender players chat else sender
  if sender = 0 then none
  else match lastWord chat with
    | none => none
    | some lastWord =>
      let playernumber2 := getPlayerDpidByName players lastWord
      if playernumber2 = 0 ∨ playernumber2 = sender then none
      else
        let name := ((players[sender]?).getD .new).name
        if chat = makeAlliancePrototype name lastWord then
          some (modifyAllies players sender (·.insert playernumber2))
        else if chat = breakAlliancePrototype name lastWord then
          some (modifyAllies players sender (·.erase playernumber2))
        else none

def onChat (s : GameMonitor2) (sourceDplayId : ℕ) (chat : Text) : Except Failure GameMonitor2 :=
  if s.players.contains sourceDplayId = false then return s
  else
    let s := s.call (.onChat chat (sourceDplayId = s.localDplayId))
    match updateAlliances s.players sourceDplayId chat with
    | none => return s
    | some players => { s with players }.onAlliancesChanged

def onAlliance (s : GameMonitor2) (subjectDpid objectDpid : ℕ) (isAllied : Bool) :
    Except Failure GameMonitor2 :=
  match s.players[subjectDpid]?, s.players[objectDpid]? with
  | some subject, some _ =>
    let wasAllied := subject.allies.contains objectDpid
    let players := s.players.insert subjectDpid { subject with
      allies := if isAllied then subject.allies.insert objectDpid else subject.allies.erase objectDpid }
    if wasAllied ≠ isAllied then { s with players }.onAlliancesChanged
    else return { s with players }
  | _, _ => return s

/-- One round of the loop over the other players in `onTeamSelection`. -/
def selectTeam (fromDplayId : ℕ) (teamNumber : ℤ) (s : Players × Bool) (key : ℕ) : Players × Bool :=
  match s.1[fromDplayId]?, s.1[key]? with
  | some subject, some object =>
    if object.dplayid = fromDplayId then s
    else
      let wasAlliedAB := subject.allies.contains object.dplayid
      let wasAlliedBA := object.allies.contains subject.dplayid
      if teamNumber < 5 ∧ teamNumber = object.battleroomTeamSelection then
        (modifyAllies (modifyAllies s.1 fromDplayId (·.insert object.dplayid)) key
          (·.insert subject.dplayid), s.2 || !wasAlliedAB || !wasAlliedBA)
      else
        (modifyAllies (modifyAllies s.1 fromDplayId (·.erase object.dplayid)) key
          (·.erase subject.dplayid), s.2 || wasAlliedAB || wasAlliedBA)
  | _, _ => s

def onTeamSelection (s : GameMonitor2) (fromDplayId : ℕ) (teamNumber : ℤ) : Except Failure GameMonitor2 :=
  match s.players[fromDplayId]? with
  | none => return s
  | some subject =>
    let players := s.players.insert fromDplayId { subject with battleroomTeamSelection := teamNumber }
    let selected := players.keys.foldl (selectTeam fromDplayId teamNumber) (players, false)
    let s := { s with players := selected.1 }
    if selected.2 then s.onAlliancesChanged else return s

/-! ### The course of the game (`GameMonitor2.cpp:490-625`) -/

def kill (s : GameMonitor2) (dplayId : ℕ) : GameMonitor2 :=
  match s.players[dplayId]? with
  | some p => { s with players := s.players.insert dplayId { p with isDead := true } }
  | none => s

def onUnitDied (s : GameMonitor2) (sourceDplayId unitId : ℕ) : Except Failure GameMonitor2 :=
  if s.players.contains sourceDplayId = false then return s
  else if s.maxUnits = 0 then throw .divisionByZero
  else if unitId % s.maxUnits = 1 then do
    let s := s.kill sourceDplayId
    match ← s.checkEndGameCondition with
    | some winningTeamNumber =>
      -- a draw is still possible for a while after a team has won
      if winningTeamNumber > 0 then
        return s.latchEndGameTick ((getMostRecentGameTick s.players + s.drawGameTicks) % 2 ^ 32)
      else return s.latchEndGameResult winningTeamNumber
    | none => return s
  else return s

def onRejectOther (s : GameMonitor2) (sourceDplayId rejectedDplayId : ℕ) : Except Failure GameMonitor2 :=
  if s.players.contains sourceDplayId = false ∨ s.players.contains rejectedDplayId = false then return s
  else if s.gameStarted = false then s.removePlayer rejectedDplayId
  else (s.kill rejectedDplayId).latchIfEnded

def launchGame (s : GameMonitor2) (tick : ℕ) : GameMonitor2 :=
  if s.gameLaunched then s else { s with gameLaunched := true }.call (.onGameStarted tick false)

def startGame (s : GameMonitor2) (tick : ℕ) : Except Failure GameMonitor2 := do
  let s := { s with frozenPlayers := s.players, gameStarted := true }
  let s ← s.notifyPlayerStatuses
  let s := s.call (.onGameStarted tick true)
  match ← s.checkEndGameCondition with
  | some _ => return s.latchEndGameResult (-1)
  | none => return s

def advanceTick (s : GameMonitor2) (sourceDplayId tick : ℕ) : GameMonitor2 :=
  match s.players[sourceDplayId]? with
  | some p =>
    if int32 ((tick : ℤ) - p.tick) > 0 then
      { s with players := s.players.insert sourceDplayId { p with tick } }
    else s
  | none => s

/-- The deferred end of the game. -/
def latchIfDue (s : GameMonitor2) : Except Failure GameMonitor2 :=
  if s.gameResult.endGameTick > 0 ∧
      int32 ((getMostRecentGameTick s.players : ℤ) - s.gameResult.endGameTick) ≥ 0 then s.latchIfEnded
  else return s

def onGameTick (s : GameMonitor2) (sourceDplayId tick : ℕ) : Except Failure GameMonitor2 :=
  if s.players.contains sourceDplayId = false then return s
  else do
    let s := s.launchGame tick
    let s ← (if s.gameStarted = false ∧ tick > s.gameStartsAfterTickCount then s.startGame tick
      else pure s)
    (s.advanceTick sourceDplayId tick).latchIfDue

def reset (s : GameMonitor2) : GameMonitor2 :=
  { s with gameStarted := false, mapName := [], players := ∅, gameResult := .new }

end GameMonitor2

/-! ### Events -/

inductive Event where
  | superEnumPlayerReply (dplayId : ℕ) (name : Text)
  | createOrForwardPlayer (command dplayId : ℕ) (name : Text)
  | deletePlayer (dplayId : ℕ)
  | status (sourceDplayId : ℕ) (mapName : Text) (maxUnits playerSlotNumber : ℕ) (playerSide : ℤ)
      (isWatcher isAI : Bool)
  | chat (sourceDplayId : ℕ) (chat : Text)
  | alliance (subjectDpid objectDpid : ℕ) (isAllied : Bool)
  | teamSelection (fromDplayId : ℕ) (teamNumber : ℤ)
  | unitDied (sourceDplayId unitId : ℕ)
  | rejectOther (sourceDplayId rejectedDplayId : ℕ)
  | gameTick (sourceDplayId tick : ℕ)
  | reset

def GameMonitor2.handle (s : GameMonitor2) : Event → Except Failure GameMonitor2
  | .superEnumPlayerReply dplayId name => s.onDplaySuperEnumPlayerReply dplayId name
  | .createOrForwardPlayer command dplayId name => s.onDplayCreateOrForwardPlayer command dplayId name
  | .deletePlayer dplayId => s.onDplayDeletePlayer dplayId
  | .status sourceDplayId mapName maxUnits slot side isWatcher isAI =>
    s.onStatus sourceDplayId mapName maxUnits slot side isWatcher isAI
  | .chat sourceDplayId chat => s.onChat sourceDplayId chat
  | .alliance subjectDpid objectDpid isAllied => s.onAlliance subjectDpid objectDpid isAllied
  | .teamSelection fromDplayId teamNumber => s.onTeamSelection fromDplayId teamNumber
  | .unitDied sourceDplayId unitId => s.onUnitDied sourceDplayId unitId
  | .rejectOther sourceDplayId rejectedDplayId => s.onRejectOther sourceDplayId rejectedDplayId
  | .gameTick sourceDplayId tick => s.onGameTick sourceDplayId tick
  | .reset => .ok s.reset

/-- A handler that fails ends the run. -/
def GameMonitor2.step (s : GameMonitor2) (e : Event) : Option GameMonitor2 := (s.handle e).toOption

end Gpgnet4TA.App
