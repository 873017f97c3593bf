import Gpgnet4TA.Tareplay.ReplayServer

/-!
# A client of the replay server (`TaReplayClient.cpp`)

`System` is one client and the server, with the connection between them as two streams of
bytes of which a part has arrived. The client's parser is one object for all connections;
the server makes a new one for each.
-/

namespace Gpgnet4TA.Tareplay
open Gpgnet4TA.Lib Gpgnet4TA.Gpgnet

structure TaReplayClient where
  tafGameId : ℕ
  position : ℕ
  receiver : Client
  replayBuffer : Bytes
  gameNotFound : List ℕ

namespace TaReplayClient

/-- `m_tafGameId` is a `quint16`. -/
def new (tafGameId position : ℕ) : TaReplayClient := ⟨tafGameId % 2 ^ 16, position, .new, [], []⟩

def sendSubscribe (c : TaReplayClient) : Bytes := (subscribeCommand c.tafGameId c.position).send

/-- `connectToHost` empties the socket's buffer. -/
def connect (c : TaReplayClient) : TaReplayClient :=
  { c with receiver := { c.receiver with unread := [] } }

/-- One command of the loop in `onReadyRead`. -/
def onCommand (c : TaReplayClient) (command : Command) : Option TaReplayClient :=
  if command.name = TaReplayServerData.ID then
    (TaReplayServerData.set command.args).map fun msg =>
      if msg.status = TaReplayServerStatus.OK.toInt then
        { c with
          replayBuffer := c.replayBuffer ++ msg.data
          position := (c.position + msg.data.length) % 2 ^ 32 }
      else { c with gameNotFound := c.gameNotFound ++ [msg.status] }
  else some c

def onCommands : List Command → TaReplayClient → Option TaReplayClient
  | [], c => some c
  | command :: commands, c => (c.onCommand command).bind (onCommands commands)

def onReadyRead (c : TaReplayClient) (chunk : Bytes) : Option TaReplayClient :=
  let receiver := c.receiver.onReadyRead chunk
  onCommands (receiver.commands.drop c.receiver.commands.length) { c with receiver }

end TaReplayClient

/-! ### The client and the server -/

/-- `sent` is what the client has written, of which `arrived` bytes have reached the server;
`received` bytes of what the server wrote have reached the client. -/
structure Connection where
  socket : ℕ
  sent : Bytes
  arrived : ℕ
  received : ℕ

structure System where
  world : World
  client : TaReplayClient
  connection : Option Connection

def System.new (G : ℕ) (maxBytesPerUserPerSecond : ℤ) : System :=
  ⟨.new maxBytesPerUserPerSecond, .new G 0, none⟩

inductive SystemEvent where
  | server (e : Event)
  | restart
  | connect (socket : ℕ)
  | toServer (n : ℕ)
  | toClient (n : ℕ)
  | drop

/-- Other users have other sockets; the server may notice that a socket is closed. -/
def Event.avoids (socket : ℕ) : Event → Bool
  | .newConnection s => s ≠ socket
  | .readyRead s _ => s ≠ socket
  | _ => true

namespace System

def stream (s : System) (socket : ℕ) : Bytes := (s.world.written socket).flatMap Command.send

def server (s : System) (e : Event) : Option System :=
  if s.connection.all fun c => e.avoids c.socket then
    (s.world.step e).map fun world => { s with world }
  else none

/-- The server process starts again; the files and what is under way stay. -/
def restart (s : System) : System :=
  { s with world := { s.world with server := .new s.world.server.maxBytesPerUserPerSecond } }

/-- A socket is a new object for every connection. -/
def connect (s : System) (socket : ℕ) : Option System :=
  if s.connection.isNone ∧ s.world.written socket = [] ∧ s.world.server.users.contains socket = false then
    some
      { world := s.world.newConnection socket
        client := s.client.connect
        connection := some ⟨socket, s.client.sendSubscribe, 0, 0⟩ }
  else none

def chunkToServer (c : Connection) (n : ℕ) : Bytes := (c.sent.drop c.arrived).take n

def toServer (s : System) (n : ℕ) : Option System := do
  let c ← s.connection
  let world ← s.world.readyRead c.socket (chunkToServer c n)
  return { s with
    world
    connection := some { c with arrived := c.arrived + (chunkToServer c n).length } }

def chunkToClient (s : System) (c : Connection) (n : ℕ) : Bytes :=
  ((s.stream c.socket).drop c.received).take n

def toClient (s : System) (n : ℕ) : Option System := do
  let c ← s.connection
  let client ← s.client.onReadyRead (s.chunkToClient c n)
  return { s with
    client
    connection := some { c with received := c.received + (s.chunkToClient c n).length } }

def step (s : System) : SystemEvent → Option System
  | .server e => s.server e
  | .restart => some s.restart
  | .connect socket => s.connect socket
  | .toServer n => s.toServer n
  | .toClient n => s.toClient n
  | .drop => some { s with connection := none }

end System

end Gpgnet4TA.Tareplay
