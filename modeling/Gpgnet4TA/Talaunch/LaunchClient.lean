import Gpgnet4TA.Talaunch.LaunchStatus

/-!
# The launch client (`LaunchClient.cpp`)

The client asks the server to start the game and waits for the first answer.
-/

namespace Gpgnet4TA.Talaunch
open Gpgnet4TA.Lib

abbrev QString := List Char

def toUtf8 (s : QString) : Bytes := s.flatMap String.utf8EncodeChar

/-- What the socket does: whether it is connected, and what is read within 30 seconds. -/
structure Wait where
  connected : Bool
  reply : Option Bytes

/-- What goes over the socket. -/
inductive Transfer where
  | write (data : Bytes)
  | readAll (data : Bytes)
  deriving DecidableEq

structure LaunchClient where
  state : State
  gameGuid : QString
  playerName : QString
  gameAddress : QString
  isHost : Bool
  requireSearch : Bool

def isApplicationRunning (st : State) : Bool := st = .RUNNING || st = .LAUNCHED

def isGameLaunched (st : State) : Bool := st = .LAUNCHED

namespace LaunchClient

def new (connected : Bool) : LaunchClient where
  state := if connected then .IDLE else .CONNECTING
  gameGuid := "{99797420-F5F5-11CF-9827-00A0241496C8}".toList
  playerName := "BILLYIDOL".toList
  gameAddress := "127.0.0.1".toList
  isHost := true
  requireSearch := false

def cmd : Bool → Bool → QString
  | false, false => "/join".toList
  | false, true => "/searchjoin".toList
  | true, _ => "/host".toList

/-- Writes a message and takes the first read for its answer. -/
def ask (c : LaunchClient) (message : QString) (reply : Option Bytes) : LaunchClient × List Transfer :=
  match reply with
  | none => ({ c with state := .FAIL }, [.write (toUtf8 message)])
  | some data => ({ c with state := onReadyReadTcp c.state data }, [.write (toUtf8 message), .readAll data])

/-- The place markers are filled in as if the texts had none themselves. -/
def failGameFileVersions (c : LaunchClient) (filename reason : QString) (w : Wait) : LaunchClient × List Transfer :=
  if w.connected then
    c.ask ("/failversion ".toList ++ filename ++ [' '] ++ reason ++ [')']) w.reply
  else (c, [])

def startApplication (c : LaunchClient) (w : Wait) : LaunchClient × List Transfer :=
  if w.connected then
    c.ask ([' '].intercalate [cmd c.isHost c.requireSearch, c.gameGuid, c.playerName, c.gameAddress]) w.reply
  else ({ c with state := .CONNECTING }, [])

end LaunchClient

end Gpgnet4TA.Talaunch
