import Gpgnet4TA.Gpgnet.Receiving
import Gpgnet4TA.Lib.Run

/-!
# The live replay server (`TaReplayServer.cpp`)

Demo files grow on disk while their games are played. Every second the server logs the
size of each file and sends every subscriber what was in its file `delaySeconds` ago.
`World` is the server with the files it reads and what it has written to each socket.
A step is `none` where the source leaves the language: it takes an element of a list that
has none.
-/

namespace Gpgnet4TA.Tareplay
open Gpgnet4TA.Lib Gpgnet4TA.Gpgnet

/-! ### Messages (`TaReplayServerMessages.cpp`) -/

inductive TaReplayServerStatus where
  | CONNECTING
  | OK
  | GAME_NOT_FOUND
  | LIVE_REPLAY_DISABLED
  deriving DecidableEq

def TaReplayServerStatus.toInt : TaReplayServerStatus → ℕ
  | CONNECTING => 0
  | OK => 1
  | GAME_NOT_FOUND => 2
  | LIVE_REPLAY_DISABLED => 3

def asciiBytes (s : String) : Bytes := s.toList.map fun c => UInt8.ofNat c.toNat

def TaReplayServerSubscribe.ID : Bytes := asciiBytes "ReplayServerSubscribe"
def TaReplayServerData.ID : Bytes := asciiBytes "ReplayServerData"

def isSpace (b : Byte) : Bool := b = 0x20 ∨ (0x09 ≤ b ∧ b ≤ 0x0d)

def digit (b : Byte) : Option ℕ := if 0x30 ≤ b ∧ b ≤ 0x39 then some (b.toNat - 0x30) else none

/-- `QByteArray::toULongLong`: blanks and a plus sign may stand before the digits. -/
def toULongLong (b : Bytes) : ℕ :=
  let text := (b.takeWhile (· ≠ 0)).dropWhile isSpace
  let text := if text.head? = some 0x2b then text.tail else text
  match text.mapM digit with
  | none => 0
  | some digits =>
    let v := digits.foldl (10 * · + ·) 0
    if v < 2 ^ 64 then v else 0

/-- `QVariant::toUInt`. -/
def toUInt : Arg → ℕ
  | .int v => v
  | .byteArray b => toULongLong b % 2 ^ 32

/-- `QVariant::toByteArray`. -/
def toByteArray : Arg → Bytes
  | .int v => asciiBytes (toString v)
  | .byteArray b => b

structure TaReplayServerSubscribe where
  gameId : ℕ
  position : ℕ
  deriving DecidableEq

/-- `command[1]` and `command[2]`. -/
def TaReplayServerSubscribe.set : List Arg → Option TaReplayServerSubscribe
  | gameId :: position :: _ => some ⟨toUInt gameId, toUInt position⟩
  | _ => none

/-- `TaReplayClient::sendSubscribe`. -/
def subscribeCommand (gameId position : ℕ) : Command :=
  ⟨TaReplayServerSubscribe.ID, [.int gameId, .int position]⟩

structure TaReplayServerData where
  status : ℕ
  data : Bytes

def TaReplayServerData.set : List Arg → Option TaReplayServerData
  | status :: data :: _ => some ⟨toUInt status, toByteArray data⟩
  | _ => none

def sendData (status : TaReplayServerStatus) (data : Bytes) : Command :=
  ⟨TaReplayServerData.ID, [.int status.toInt, .byteArray data]⟩

/-! ### Files and streams -/

/-- `readable` tells whether an `ifstream` on the file opens. -/
structure DemoFile where
  content : Bytes
  readable : Bool

abbrev Files := ℕ → Option DemoFile

def Files.content (files : Files) (game : ℕ) : Bytes := (files game).elim [] (·.content)

/-- An `ifstream` on the file of `game`. -/
structure Handle where
  game : ℕ
  good : Bool
  pos : ℕ
  deriving DecidableEq

def Handle.tellg (h : Handle) : ℤ := if h.good then h.pos else -1

/-- The bytes that `read` gets, at most `n`. -/
def Handle.read (h : Handle) (files : Files) (n : ℕ) : Bytes :=
  if h.good then ((files.content h.game).drop h.pos).take n else []

/-- `seekg(0, end)` and `tellg`. -/
def Handle.size (h : Handle) (files : Files) : ℤ :=
  if h.good then (files.content h.game).length else -1

def findReplayFileForGame (files : Files) (gameId : ℕ) : Option Handle :=
  (files gameId).map fun f => ⟨gameId, f.readable, 0⟩

/-! ### The server -/

def CHUNK_SIZE : ℕ := 1000

structure GameInfo where
  gameId : ℕ
  delaySeconds : ℤ
  state : String
  demoFile : Option Handle
  demoFileSizeLog : Option (List ℤ)

/-- `receiver` is the loop around `gpgNetParser`; `bytesToWrite` are those that wait in the
socket. -/
structure UserContext where
  gameId : ℕ
  receiver : Client
  demoFile : Option Handle
  bytesToWrite : ℕ

def UserContext.new : UserContext := ⟨0, .new, none, 0⟩

structure Server where
  maxBytesPerUserPerSecond : ℤ
  gameInfo : Std.ExtTreeMap ℕ GameInfo
  users : Std.ExtTreeMap ℕ UserContext

def Server.new (maxBytesPerUserPerSecond : ℤ) : Server := ⟨maxBytesPerUserPerSecond, ∅, ∅⟩

def isEnded (state : String) : Bool := state.toLower = "ended"

/-- `m_gameInfo[gameId]` makes an entry where there is none. -/
def Server.setGameInfo (s : Server) (gameId : ℕ) (delaySeconds : ℤ) (state : String) : Server :=
  if isEnded state then { s with gameInfo := s.gameInfo.erase gameId }
  else
    let gameInfo := s.gameInfo[gameId]?.getD ⟨0, 0, "", none, none⟩
    { s with gameInfo := s.gameInfo.insert gameId { gameInfo with gameId, delaySeconds, state } }

/-! ### Subscribing (`TaReplayServer.cpp:134-232`) -/

/-- What is answered where the file or its size log is missing. -/
def gameNotFound (msg : TaReplayServerSubscribe) : List Command :=
  if msg.position = 0 then [sendData .GAME_NOT_FOUND []] else []

def onSubscribe (files : Files) (games : Std.ExtTreeMap ℕ GameInfo) (user : UserContext)
    (msg : TaReplayServerSubscribe) : UserContext × List Command :=
  match games[msg.gameId]? with
  | none => (user, [sendData .GAME_NOT_FOUND []])
  | some game =>
    if game.delaySeconds < 0 then (user, [sendData .LIVE_REPLAY_DISABLED []])
    else match findReplayFileForGame files msg.gameId with
      | none => ({ user with demoFile := none }, gameNotFound msg)
      | some handle =>
        if ¬ handle.good then ({ user with demoFile := some handle }, gameNotFound msg)
        else match game.demoFileSizeLog with
          -- here `gameId` keeps its old value although the stream is the new one
          | none => ({ user with demoFile := some handle }, gameNotFound msg)
          | some log =>
            let seekPos := min msg.position (log.headD 0 % 2 ^ 32).toNat
            let pos := if log.length > game.delaySeconds then seekPos else 0
            ({ user with gameId := msg.gameId, demoFile := some { handle with pos } }, [])

/-- One command of the loop in `onReadyRead`. -/
def onCommand (files : Files) (games : Std.ExtTreeMap ℕ GameInfo) (user : UserContext)
    (command : Command) : Option (UserContext × List Command) :=
  if command.name = TaReplayServerSubscribe.ID then
    (TaReplayServerSubscribe.set command.args).map (onSubscribe files games user)
  else some (user, [])

def onCommands (files : Files) (games : Std.ExtTreeMap ℕ GameInfo) :
    List Command → UserContext → Option (UserContext × List Command)
  | [], user => some (user, [])
  | c :: cs, user => do
    let (user, out) ← onCommand files games user c
    let (user, out') ← onCommands files games cs user
    return (user, out ++ out')

/-- The commands that a chunk completes. -/
def UserContext.arrived (user : UserContext) (chunk : Bytes) : List Command :=
  (user.receiver.onReadyRead chunk).commands.drop user.receiver.commands.length

def outSize (out : List Command) : ℕ := (out.flatMap Command.send).length

def UserContext.onReadyRead (files : Files) (games : Std.ExtTreeMap ℕ GameInfo) (user : UserContext)
    (chunk : Bytes) : Option (UserContext × List Command) := do
  let receiver := user.receiver.onReadyRead chunk
  let (user, out) ← onCommands files games (user.arrived chunk) { user with receiver }
  return ({ user with bytesToWrite := user.bytesToWrite + outSize out }, out)

/-! ### The timer (`TaReplayServer.cpp:256-383`) -/

def startMonitoring (files : Files) (game : GameInfo) : GameInfo :=
  if game.demoFile.isNone then
    match findReplayFileForGame files game.gameId with
    | none => game
    | some handle => { game with demoFile := some handle, demoFileSizeLog := some [] }
  else game

def logSize (files : Files) (game : GameInfo) : GameInfo :=
  match game.demoFile with
  | none => game
  | some handle =>
    { game with demoFileSizeLog := game.demoFileSizeLog.map (· ++ [int32 (handle.size files)]) }

def requiredLogSize (game : GameInfo) : ℤ := int32 (1 + game.delaySeconds)

def trimLog (game : GameInfo) : GameInfo :=
  { game with demoFileSizeLog :=
      game.demoFileSizeLog.map fun log => log.drop (log.length - (requiredLogSize game).toNat) }

def updateFileSizeLog (files : Files) (game : GameInfo) : GameInfo :=
  trimLog (logSize files (startMonitoring files game))

/-- `dequeue` is called on an empty queue. -/
def dequeuesEmpty (files : Files) (game : GameInfo) : Bool :=
  (updateFileSizeLog files game).demoFileSizeLog.isSome ∧ requiredLogSize game < 0

/-- How far into its file a user may see; `none` where `serviceUser` returns early. -/
def dataEscrowThreshold (games : Std.ExtTreeMap ℕ GameInfo) (maxBytes : ℤ) (gameId : ℕ)
    (handle : Handle) : Option ℤ :=
  match games[gameId]? with
  | none => some (int32 (int32 handle.tellg + maxBytes))
  | some game =>
    match game.demoFileSizeLog with
    | none => none
    | some [] => none
    | some (front :: rest) =>
      if ((front :: rest).length : ℤ) > game.delaySeconds then some front else none

structure Chunk where
  offset : ℕ
  data : Bytes
  deriving DecidableEq

/-- The loop of `serviceUser`: what is sent, the stream and the bytes waiting afterwards. -/
def sendChunks (files : Files) (threshold maxBytes : ℤ) : ℕ → Handle → ℕ → List Chunk × Handle × ℕ
  | 0, h, bytesToWrite => ([], h, bytesToWrite)
  | fuel + 1, h, bytesToWrite =>
    let thisChunkSize := min (int32 (threshold - h.tellg)) CHUNK_SIZE
    let data := h.read files thisChunkSize.toNat
    if maxBytes ≤ bytesToWrite ∨ thisChunkSize ≤ 0 ∨ data = [] then ([], h, bytesToWrite)
    else
      let rest := sendChunks files threshold maxBytes fuel { h with pos := h.pos + data.length }
        (bytesToWrite + (sendData .OK data).send.length)
      (⟨h.pos, data⟩ :: rest.1, rest.2)

/-- Every chunk adds to the bytes that wait, so the loop ends before `maxBytes` rounds. -/
def serviceUser (files : Files) (games : Std.ExtTreeMap ℕ GameInfo) (maxBytes : ℤ) (user : UserContext) :
    UserContext × List Chunk :=
  match user.demoFile with
  | none => (user, [])
  | some handle =>
    match dataEscrowThreshold games maxBytes user.gameId handle with
    | none => (user, [])
    | some threshold =>
      let sent := sendChunks files threshold maxBytes maxBytes.toNat handle user.bytesToWrite
      ({ user with demoFile := some sent.2.1, bytesToWrite := sent.2.2 }, sent.1)

/-! ### The world -/

/-- A chunk of the file of `game` is sent to `socket` in tick number `tick`. -/
structure Reveal where
  socket : ℕ
  game : ℕ
  chunk : Chunk
  tick : ℕ
  deriving DecidableEq

/-- `sizes` are the sizes of the files at each tick, the oldest first; `written` is all that
the server wrote to a socket. -/
structure World where
  server : Server
  files : Files
  sizes : List (ℕ → ℕ)
  written : ℕ → List Command
  revealed : List Reveal

def World.new (maxBytesPerUserPerSecond : ℤ) : World :=
  ⟨.new maxBytesPerUserPerSecond, fun _ => none, [], fun _ => [], []⟩

inductive Event where
  | create (game : ℕ) (readable : Bool)
  | append (game : ℕ) (data : Bytes)
  | setGameInfo (gameId : ℕ) (delaySeconds : ℤ) (state : String)
  | newConnection (socket : ℕ)
  | disconnected (socket : ℕ)
  | readyRead (socket : ℕ) (chunk : Bytes)
  | bytesWritten (socket n : ℕ)
  | timerEvent

namespace World

def create (w : World) (game : ℕ) (readable : Bool) : Option World :=
  if (w.files game).isSome then none
  else some { w with files := Function.update w.files game (some ⟨[], readable⟩) }

def append (w : World) (game : ℕ) (data : Bytes) : Option World :=
  (w.files game).map fun f =>
    { w with files := Function.update w.files game (some { f with content := f.content ++ data }) }

def setUser (w : World) (socket : ℕ) (user : UserContext) : World :=
  { w with server := { w.server with users := w.server.users.insert socket user } }

def removeUser (w : World) (socket : ℕ) : World :=
  { w with server := { w.server with users := w.server.users.erase socket } }

def write (w : World) (socket : ℕ) (out : List Command) : World :=
  { w with written := Function.update w.written socket (w.written socket ++ out) }

def newConnection (w : World) (socket : ℕ) : World :=
  if w.server.users.contains socket then w else w.setUser socket .new

/-- A parser error closes the connection. -/
def readyRead (w : World) (socket : ℕ) (chunk : Bytes) : Option World :=
  match w.server.users[socket]? with
  | none => some w
  | some user =>
    (user.onReadyRead w.files w.server.gameInfo chunk).map fun (user, out) =>
      if user.receiver.warnings = [] then (w.setUser socket user).write socket out
      else (w.removeUser socket).write socket out

def bytesWritten (w : World) (socket n : ℕ) : World :=
  match w.server.users[socket]? with
  | none => w
  | some user => w.setUser socket { user with bytesToWrite := user.bytesToWrite - n }

/-- What a tick sends to one user, once the size logs are up to date. -/
def service (w : World) (user : UserContext) : UserContext × List Chunk :=
  serviceUser w.files w.server.gameInfo w.server.maxBytesPerUserPerSecond user

def updateLogs (w : World) : World :=
  { w with
    server := { w.server with gameInfo := w.server.gameInfo.map fun _ g => updateFileSizeLog w.files g }
    sizes := w.sizes ++ [fun g => (w.files.content g).length] }

def chunksFor (w : World) (socket : ℕ) : List Chunk :=
  (w.server.users[socket]?).elim [] fun user => (w.service user).2

/-- The game whose file a user's stream is on. -/
def gameOf (user : UserContext) : ℕ := (user.demoFile.map (·.game)).getD 0

def serviceUsers (w : World) : World :=
  { w with
    server := { w.server with users := w.server.users.map fun _ user => (w.service user).1 }
    written := fun socket =>
      w.written socket ++ (w.chunksFor socket).map fun c => sendData .OK c.data
    revealed := w.revealed ++ w.server.users.toList.flatMap fun (socket, user) =>
      (w.service user).2.map fun c => ⟨socket, gameOf user, c, w.sizes.length - 1⟩ }

def timerEvent (w : World) : Option World :=
  if w.server.gameInfo.any fun _ g => dequeuesEmpty w.files g then none
  else some w.updateLogs.serviceUsers

def step (w : World) : Event → Option World
  | .create game readable => w.create game readable
  | .append game data => w.append game data
  | .setGameInfo gameId delaySeconds state =>
    some { w with server := w.server.setGameInfo gameId delaySeconds state }
  | .newConnection socket => some (w.newConnection socket)
  | .disconnected socket => some (w.removeUser socket)
  | .readyRead socket chunk => w.readyRead socket chunk
  | .bytesWritten socket n => some (w.bytesWritten socket n)
  | .timerEvent => w.timerEvent

/-- The size that the file of `game` had at a tick. -/
def sizeAt (w : World) (tick game : ℕ) : ℕ := (w.sizes[tick]?).elim 0 (· game)

end World

end Gpgnet4TA.Tareplay
