import Gpgnet4TA.Lib.Run
import Gpgnet4TA.Lib.Table
import Gpgnet4TA.Tapacket.DemoWriter
import Gpgnet4TA.Tareplay.ReplayServer

/-!
# The demo compiler (`TaDemoCompiler.cpp`, `TaDemoCompilerMessages.cpp`, `UnitDataRepo.cpp`)

Every player of a game sends its own moves over a connection of its own, and the compiler
writes them into one demo file per game. What it knows of a player is a `UserContext` that
is made with the connection and shared with the games that list it, so it lives on when the
connection is gone. `contexts` holds all of them, each under the number of its connection;
a shared pointer is such a number. An exception leaves what was changed before it.
-/

namespace Gpgnet4TA.Tareplay
open Gpgnet4TA.Lib Gpgnet4TA.Tapacket

namespace TaDemoCompiler

/-! ### Messages -/

structure GameInfoMessage where
  maxUnits : UInt16 := 1500
  mapName : Bytes := asciiBytes "SHERWOOD"

structure GamePlayerMessage where
  side : Int8 := 1
  name : Bytes := asciiBytes "BILLY_IDOL"
  statusMessage : Bytes := []

inductive Message where
  | hello (gameId playerDpId : ℕ) (playerName : Bytes)
  | reconnect (gameId playerDpId : ℕ)
  | move (moves : Bytes)
  | gameInfo (msg : GameInfoMessage)
  | gamePlayer (msg : GamePlayerMessage)
  | unitData (unitData : Bytes)
  | gamePlayerLoading (lockedInPlayers : List ℕ)

/-! ### Unit data -/

/-- Keyed by `sub` and `id`, in the order of the pairs. -/
abbrev UnitDataRepo := Table Bytes

def subAndId (sub id : ℕ) : ℕ := sub * 2 ^ 32 + id

/-- `TUnitData`: the fields `sub`, `id` and `statusAndLimit[0]`. -/
def unitSub (pd : Bytes) : ℕ := (byteAt pd 1).toNat
def unitId (pd : Bytes) : ℕ := leVal ((pd.drop 6).take 4)
def unitStatus (pd : Bytes) : ℕ := leVal ((pd.drop 10).take 2)

namespace UnitDataRepo

def addUnit (repo : UnitDataRepo) (pd : Bytes) : UnitDataRepo :=
  let key := subAndId (unitSub pd) (unitId pd)
  if unitSub pd = 2 ∨ unitSub pd = 3 ∨ unitSub pd = 9 then
    match repo[key]? with
    | some old =>
      -- a unit once enabled stays so
      if unitSub pd = 3 ∧ unitStatus old = 0x0101 then repo else repo.insert key pd
    | none => repo.insert key pd
  else if unitSub pd = 0 then ∅
  else repo

def add (repo : UnitDataRepo) (packetData : Bytes) : UnitDataRepo :=
  if packetData.head? ≠ some SubPacketCode.UNIT_DATA_1A then repo
  else if getExpectedSubPacketSize packetData ≠ some packetData.length then repo
  else repo.addUnit packetData

/-- All of it, one subpacket after the other. -/
def concat (repo : UnitDataRepo) : Bytes := repo.toList.flatMap (·.2)

end UnitDataRepo

/-! ### Players and games -/

/-- `QHostAddress::toString`. -/
structure PeerAddress where
  text : Bytes
  short : text.length ≤ 64

/-- `ipAddr` is the address that `userDataStream->device()` tells. It is kept when the socket has been
deleted, where the source goes through a dangling device. -/
structure UserContext where
  gameId : ℕ
  playerDpId : ℕ
  playerName : Bytes
  gamePlayerInfo : GamePlayerMessage
  gamePlayerNumber : ℕ
  ipAddr : PeerAddress

def UserContext.new (ipAddr : PeerAddress) : UserContext := ⟨0, 0, [], {}, 0, ipAddr⟩

def UserContext.setNumber (user : UserContext) (gamePlayerNumber : ℕ) : UserContext :=
  { user with gamePlayerNumber }

def GAME_EXPIRY_TICKS : ℤ := 3600

/-- `players` maps a Dplay id to a connection; `demoCompilation` is what was written to
the stream. -/
structure GameContext where
  gameId : ℕ := 0
  header : GameInfoMessage := {}
  players : Table ℕ := ∅
  playersLockedIn : List ℕ := []
  unitData : UnitDataRepo := ∅
  demoCompilation : Option Bytes := none
  tempFileName : String := ""
  finalFileName : String := ""
  expiryCountdown : ℤ := GAME_EXPIRY_TICKS

/-- What stands before and after the place of the number. -/
structure PathTemplate where
  before : String
  after : String

def PathTemplate.arg (t : PathTemplate) (n : ℕ) : String := t.before ++ toString n ++ t.after

inductive FileOp where
  | create (name : String)
  | rename (oldName newName : String)
  | remove (name : String)
  deriving DecidableEq

/-- What the clock says: the time since the last move, and the date. -/
structure Clock where
  elapsed : ℕ
  date : Vector Byte 10
  deriving DecidableEq

end TaDemoCompiler

/-- `connected` are the keys of `m_players`; `connections` counts the connections so far. -/
structure TaDemoCompiler where
  demoPathTemplate : TaDemoCompiler.PathTemplate
  minDemoSize : ℕ
  connected : Finset ℕ
  connections : ℕ
  contexts : ℕ → TaDemoCompiler.UserContext
  games : Table TaDemoCompiler.GameContext
  fileOps : List TaDemoCompiler.FileOp

namespace TaDemoCompiler

def VERSION : Bytes := asciiBytes "taf-2024.3.17"

def new (demoPathTemplate : PathTemplate) (minDemoSize : ℕ) : TaDemoCompiler where
  demoPathTemplate := demoPathTemplate
  minDemoSize := minDemoSize
  connected := ∅
  connections := 0
  contexts := fun _ => .new ⟨[], by decide⟩
  games := ∅
  fileOps := []

/-- `m_games[gameId]` makes an entry where there is none. -/
def gameAt (games : Table GameContext) (gameId : ℕ) : GameContext := games[gameId]?.getD {}

/-! ### Connections (`TaDemoCompiler.cpp:103-145`) -/

def onNewConnection (s : TaDemoCompiler) (addr : PeerAddress) : TaDemoCompiler :=
  { s with
    connected := insert s.connections s.connected
    connections := s.connections + 1
    contexts := Function.update s.contexts s.connections (.new addr) }

def onDisconnected (s : TaDemoCompiler) (socket : ℕ) : TaDemoCompiler :=
  { s with connected := s.connected.erase socket }

/-! ### The headers of a demo (`TaDemoCompiler.cpp:366-526`) -/

/-- A context that is listed twice keeps its last number. -/
def assignNumbers (players : Table ℕ) : ℕ → List ℕ → (ℕ → UserContext) → ℕ → UserContext
  | _, [], contexts => contexts
  | numPlayer, dpid :: rest, contexts =>
    match players[dpid]? with
    | some socket =>
      let user := (contexts socket).setNumber (numPlayer + 1)
      assignNumbers players (numPlayer + 1) rest (Function.update contexts socket user)
    | none => assignNumbers players (numPlayer + 1) rest contexts

def demoHeader (game : GameContext) (numPlayers : ℕ) : Header :=
  ⟨tadMagic, 5, numPlayers % 256, game.header.maxUnits.toNat, game.header.mapName⟩

def versionSector : ExtraSector := ⟨3, VERSION⟩

def dateSector (date : Vector Byte 10) : ExtraSector := ⟨4, date.toList⟩

def addressSector (user : UserContext) : ExtraSector :=
  ⟨6, List.replicate 0x50 0 ++ (user.ipAddr.text ++ [0]).map (· ^^^ 42)⟩

def demoPlayer (user : UserContext) : Player :=
  let number := UInt8.ofNat user.gamePlayerNumber
  ⟨number, user.gamePlayerInfo.side.toInt, number, user.gamePlayerInfo.name⟩

/-- `compress` returns on every message that is short enough for a `QByteArray`. -/
def demoStatus (user : UserContext) : PlayerStatusMessage :=
  let packed := trivialSmartpak user.gamePlayerInfo.statusMessage 0xffffffff
  ⟨UInt8.ofNat user.gamePlayerNumber, encrypt ((compress packed).getD [])⟩

def headerRecords (game : GameContext) (users : List UserContext) (date : Vector Byte 10) : List Bytes :=
  let header := demoHeader game users.length
  let extraHeader : ExtraHeader := ⟨2 + header.numPlayers⟩
  [header.serialise, extraHeader.serialise, versionSector.serialise, (dateSector date).serialise] ++
    users.map (addressSector · |>.serialise) ++ users.map (demoPlayer · |>.serialise) ++
    users.map (demoStatus · |>.serialise) ++ [UnitData.serialise ⟨game.unitData.concat⟩]

def knownLockedInPlayers (game : GameContext) : List ℕ :=
  game.playersLockedIn.filter fun dpid => game.players.contains dpid

def usersOf (game : GameContext) (contexts : ℕ → UserContext) (dpids : List ℕ) : List UserContext :=
  dpids.filterMap fun dpid => game.players[dpid]?.map contexts

/-- The contexts afterwards and the stream. -/
def commitHeaders (game : GameContext) (contexts : ℕ → UserContext) (date : Vector Byte 10) :
    (ℕ → UserContext) × Except Failure (Option Bytes) :=
  let known := knownLockedInPlayers game
  if known.length ≠ game.playersLockedIn.length then (contexts, .ok none)
  else
    let contexts := assignNumbers game.players 0 known contexts
    let records := headerRecords game (usersOf game contexts known) date
    (contexts, (TADemoWriter.writeRecords [] records).map some)

/-! ### Moves (`TaDemoCompiler.cpp:528-548`) -/

def movePacket (playerNumber : ℕ) (moves : Bytes) (clock : Clock) : Packet :=
  ⟨clock.elapsed % 2 ^ 16, UInt8.ofNat playerNumber, moves⟩

def commitMove (output : Bytes) (playerNumber : ℕ) (moves : Bytes) (clock : Clock) :
    Except Failure Bytes :=
  TADemoWriter.writeRecord output (movePacket playerNumber moves clock).serialise

/-! ### Messages of a connection (`TaDemoCompiler.cpp:147-364`) -/

def setUser (s : TaDemoCompiler) (socket : ℕ) (user : UserContext) : TaDemoCompiler :=
  { s with contexts := Function.update s.contexts socket user }

def setGame (s : TaDemoCompiler) (gameId : ℕ) (game : GameContext) : TaDemoCompiler :=
  { s with games := s.games.insert gameId game }

/-- `m_games[gameId].players[playerDpId] = m_players[sender]`. -/
def register (s : TaDemoCompiler) (socket gameId playerDpId : ℕ) : TaDemoCompiler :=
  let game := gameAt s.games gameId
  s.setGame gameId { game with players := game.players.insert playerDpId socket }

def onHello (s : TaDemoCompiler) (socket gameId playerDpId : ℕ) (playerName : Bytes) : TaDemoCompiler :=
  (s.setUser socket { s.contexts socket with gameId, playerDpId, playerName }).register socket gameId playerDpId

def onReconnect (s : TaDemoCompiler) (socket gameId playerDpId : ℕ) : TaDemoCompiler :=
  let user := s.contexts socket
  let user := match (s.games[gameId]?).bind fun game => game.players[playerDpId]? with
    | some old =>
      let oldContext := s.contexts old
      { user with
        gameId, playerDpId
        playerName := oldContext.playerName
        gamePlayerInfo := oldContext.gamePlayerInfo
        gamePlayerNumber := oldContext.gamePlayerNumber }
    -- the number stays what it was
    | none => { user with gameId, playerDpId, playerName := user.ipAddr.text }
  (s.setUser socket user).register socket gameId playerDpId

def onMove (s : TaDemoCompiler) (user : UserContext) (moves : Bytes) (clock : Clock) : TaDemoCompiler :=
  match s.games[user.gameId]? with
  | none => s
  | some game =>
    if game.players.contains user.playerDpId then
      let game := { game with expiryCountdown := GAME_EXPIRY_TICKS }
      match game.demoCompilation with
      | none => s.setGame user.gameId game
      | some output =>
        match commitMove output user.gamePlayerNumber moves clock with
        | .ok output => s.setGame user.gameId { game with demoCompilation := some output }
        | .error _ => s.setGame user.gameId game
    else s

def onGameInfo (s : TaDemoCompiler) (user : UserContext) (msg : GameInfoMessage) : TaDemoCompiler :=
  s.setGame user.gameId { gameAt s.games user.gameId with
    gameId := user.gameId, expiryCountdown := GAME_EXPIRY_TICKS, header := msg }

def onGamePlayer (s : TaDemoCompiler) (user : UserContext) (msg : GamePlayerMessage) : TaDemoCompiler :=
  match s.games[user.gameId]? with
  | none => s
  | some game =>
    match game.players[user.playerDpId]? with
    | none => s
    | some socket =>
      (s.setGame user.gameId { game with expiryCountdown := GAME_EXPIRY_TICKS }).setUser socket
        { s.contexts socket with gamePlayerInfo := msg }

def onUnitData (s : TaDemoCompiler) (user : UserContext) (unitData : Bytes) : TaDemoCompiler :=
  match s.games[user.gameId]? with
  | none => s
  | some game =>
    s.setGame user.gameId { game with
      unitData := game.unitData.add unitData, expiryCountdown := GAME_EXPIRY_TICKS }

/-- The list and the names that a commit is tried with. -/
def lockIn (s : TaDemoCompiler) (game : GameContext) (lockedInPlayers : List ℕ) : GameContext :=
  let finalFileName := s.demoPathTemplate.arg game.gameId
  { game with playersLockedIn := lockedInPlayers, finalFileName, tempFileName := finalFileName ++ ".part" }

def onGamePlayerLoading (s : TaDemoCompiler) (user : UserContext) (lockedInPlayers : List ℕ)
    (clock : Clock) : TaDemoCompiler :=
  match s.games[user.gameId]? with
  | none => s
  | some game =>
    if game.demoCompilation.isSome then s
    else
      let game := s.lockIn game lockedInPlayers
      match commitHeaders game s.contexts clock.date with
      | (contexts, .ok none) => { s.setGame user.gameId game with contexts }
      | (contexts, .ok (some output)) =>
        { s.setGame user.gameId { game with demoCompilation := some output } with
          contexts, fileOps := s.fileOps ++ [.create game.tempFileName] }
      | (contexts, .error _) =>
        { s.setGame user.gameId game with
          contexts, fileOps := s.fileOps ++ [.create game.tempFileName] }

/-- Messages that need a player's identity. -/
def onGameMessage (s : TaDemoCompiler) (user : UserContext) (clock : Clock) : Message → TaDemoCompiler
  | .move moves => s.onMove user moves clock
  | .gameInfo msg => s.onGameInfo user msg
  | .gamePlayer msg => s.onGamePlayer user msg
  | .unitData unitData => s.onUnitData user unitData
  | .gamePlayerLoading lockedInPlayers => s.onGamePlayerLoading user lockedInPlayers clock
  | .hello .. | .reconnect .. => s

def onMessage (s : TaDemoCompiler) (socket : ℕ) (clock : Clock) (msg : Message) : TaDemoCompiler :=
  match msg with
  | .hello gameId playerDpId playerName => s.onHello socket gameId playerDpId playerName
  | .reconnect gameId playerDpId => s.onReconnect socket gameId playerDpId
  | msg =>
    let user := s.contexts socket
    if user.gameId = 0 ∨ user.playerDpId = 0 then s else s.onGameMessage user clock msg

def onReadyRead (s : TaDemoCompiler) (socket : ℕ) (clock : Clock) (msg : Message) : TaDemoCompiler :=
  if socket ∈ s.connected then s.onMessage socket clock msg else s

/-! ### The timer (`TaDemoCompiler.cpp:550-601`) -/

def fileOpOf (minDemoSize : ℕ) (game : GameContext) : List FileOp :=
  match game.demoCompilation with
  | none => []
  | some output =>
    if minDemoSize ≤ output.length then [.rename game.tempFileName game.finalFileName]
    else [.remove game.tempFileName]

def closeGame (s : TaDemoCompiler) (gameId : ℕ) : TaDemoCompiler :=
  { s with
    games := s.games.erase gameId
    fileOps := s.fileOps ++ fileOpOf s.minDemoSize (gameAt s.games gameId) }

def countDown (game : GameContext) : GameContext := { game with expiryCountdown := game.expiryCountdown - 1 }

/-- The ids are those in the entries, not those the entries are found under. -/
def expiredGameIds (games : Table GameContext) : List ℕ :=
  (games.toList.filter fun entry => entry.2.expiryCountdown ≤ 0).map (·.2.gameId)

def closeExpiredGames (s : TaDemoCompiler) : TaDemoCompiler :=
  let games := s.games.map fun _ => countDown
  (expiredGameIds games).foldl closeGame { s with games }

/-! ### Runs -/

inductive Event where
  | newConnection (addr : PeerAddress)
  | disconnected (socket : ℕ)
  | readyRead (socket : ℕ) (msg : Message) (clock : Clock)
  | timerEvent

def step (s : TaDemoCompiler) : Event → TaDemoCompiler
  | .newConnection addr => s.onNewConnection addr
  | .disconnected socket => s.onDisconnected socket
  | .readyRead socket msg clock => s.onReadyRead socket clock msg
  | .timerEvent => s.closeExpiredGames

end TaDemoCompiler

end Gpgnet4TA.Tareplay
