import Gpgnet4TA.Lib.Bytes
import Gpgnet4TA.Lib.Resumable

/-!
# GPGNet commands (`GpgNetParse.cpp`, `GpgNetSend.cpp`)

A command is a name and up to ten arguments. The parser keeps one record reader for
every field of the command it is reading; a reader that is complete yields its
content again without reading. `resize` leaves new bytes of a buffer undefined; they
are zero here and are overwritten before the buffer is used.
-/

namespace Gpgnet4TA.Gpgnet
open Gpgnet4TA.Lib Gpgnet4TA.Lib.Resumable

def MAX_RECORD_SIZE : ℕ := 10000
def MAX_NUM_ARGS : ℕ := 10

inductive Stop where
  | dataNotReady
  | runtimeError (what : String)
  deriving DecidableEq

inductive Arg where
  | int (v : ℕ)
  | byteArray (b : Bytes)
  deriving DecidableEq

structure Command where
  name : Bytes
  args : List Arg
  deriving DecidableEq

/-! ### Sending -/

/-- `QDataStream << QByteArray`. -/
def writeByteArray (b : Bytes) : Bytes := leBytes 4 b.length ++ b

def sendCommand (command : Bytes) (argumentCount : ℕ) : Bytes :=
  writeByteArray command ++ leBytes 4 argumentCount

def Arg.type : Arg → Byte
  | .int _ => 0
  | .byteArray _ => 1

def Arg.body : Arg → Bytes
  | .int v => leBytes 4 v
  | .byteArray b => writeByteArray b

def sendArgument (a : Arg) : Bytes := a.type :: a.body

def Command.send (c : Command) : Bytes :=
  sendCommand c.name c.args.length ++ c.args.flatMap sendArgument

/-! ### Record readers -/

structure RecordReader where
  buffer : Bytes
  progress : ℕ

namespace RecordReader

def new : RecordReader := ⟨[], 0⟩

def setSize (r : RecordReader) (size : ℕ) : RecordReader :=
  { r with buffer := r.buffer.take size ++ List.replicate (size - r.buffer.length) 0 }

def reset (r : RecordReader) : RecordReader := { r with progress := 0 }

/-- `readRawData` into the buffer behind what is there. -/
def readRawData (r : RecordReader) (is : Bytes) : RecordReader × Bytes :=
  let bytesRead := min is.length (r.buffer.length - r.progress)
  ({ buffer := r.buffer.take r.progress ++ is.take bytesRead ++ r.buffer.drop (r.progress + bytesRead)
     progress := r.progress + bytesRead }, is.drop bytesRead)

def get : Reader Stop Byte RecordReader Bytes := fun r is =>
  let (r, is) := if r.progress < r.buffer.length then r.readRawData is else (r, is)
  if r.progress = r.buffer.length then (.ok r.buffer, r, is) else (.error .dataNotReady, r, is)

def newByte : RecordReader := new.setSize 1

def getByte : Reader Stop Byte RecordReader ℕ := do
  let buffer ← get
  return (buffer.headD 0).toNat

def newInt : RecordReader := new.setSize 4

def getInt : Reader Stop Byte RecordReader ℕ := do
  let buffer ← get
  return leVal (buffer.take 4)

end RecordReader

structure ByteArrayRecordReader where
  size : RecordReader
  data : RecordReader

namespace ByteArrayRecordReader

def new : ByteArrayRecordReader := ⟨.newInt, .new⟩

def reset (r : ByteArrayRecordReader) : ByteArrayRecordReader := ⟨r.size.reset, r.data.reset⟩

def get : Reader Stop Byte ByteArrayRecordReader Bytes := do
  let size ← Reader.focus (·.size) (fun r size => { r with size }) RecordReader.getInt
  if MAX_RECORD_SIZE < size then
    Reader.raise (.runtimeError
      ("[GpgNetParse::ByteArrayRecordRecordReader] record exceeds MAX_RECORD_SIZE. size=" ++
        toString size))
  else
    Reader.focus (·.data) (fun r data => { r with data }) do
      Reader.update (·.setSize size)
      RecordReader.get

end ByteArrayRecordReader

/-- The readers behind `QSharedPointer<RecordReader>`; `get` is virtual. -/
inductive ArgReader where
  | int (r : RecordReader)
  | byteArray (r : ByteArrayRecordReader)

def ArgReader.get : Reader Stop Byte ArgReader Bytes := fun a is =>
  match a with
  | .int r =>
    match RecordReader.get r is with
    | (x, r, is) => (x, .int r, is)
  | .byteArray r =>
    match ByteArrayRecordReader.get r is with
    | (x, r, is) => (x, .byteArray r, is)

/-! ### The parser -/

structure GpgNetParse where
  command : ByteArrayRecordReader
  numArgs : RecordReader
  argTypes : List RecordReader
  args : List ArgReader

namespace GpgNetParse

def new : GpgNetParse := ⟨.new, .newInt, [], []⟩

def reset (s : GpgNetParse) : GpgNetParse := ⟨s.command.reset, s.numArgs.reset, [], []⟩

def pushArgType (nArg : ℕ) (s : GpgNetParse) : GpgNetParse :=
  if s.argTypes.length = nArg then { s with argTypes := s.argTypes ++ [.newByte] } else s

def pushArg (nArg : ℕ) (r : ArgReader) (s : GpgNetParse) : GpgNetParse :=
  if s.args.length = nArg then { s with args := s.args ++ [r] } else s

def getArgType (nArg : ℕ) : Reader Stop Byte GpgNetParse ℕ := do
  Reader.update (pushArgType nArg)
  Reader.focus (fun s => s.argTypes.getD nArg .new)
    (fun s r => { s with argTypes := s.argTypes.set nArg r }) RecordReader.getByte

/-- The content of argument `nArg`; `r` is its reader if it has none yet. -/
def getArgBuffer (nArg : ℕ) (r : ArgReader) : Reader Stop Byte GpgNetParse Bytes := do
  Reader.update (pushArg nArg r)
  Reader.focus (fun s => s.args.getD nArg r) (fun s r => { s with args := s.args.set nArg r })
    ArgReader.get

def getArg (nArg : ℕ) : Reader Stop Byte GpgNetParse Arg := do
  let argType ← getArgType nArg
  if argType = 0 then
    let buffer ← getArgBuffer nArg (.int .newInt)
    return .int (leVal (buffer.take 4))
  else if argType = 1 then
    let buffer ← getArgBuffer nArg (.byteArray .new)
    return .byteArray buffer
  else Reader.raise (.runtimeError "unexpected argument type")

/-- The loop over the arguments from `nArg` on. -/
def getArgs : ℕ → ℕ → Reader Stop Byte GpgNetParse (List Arg)
  | 0, _ => return []
  | n + 1, nArg => do
    let arg ← getArg nArg
    let rest ← getArgs n (nArg + 1)
    return arg :: rest

def getNumArgs : Reader Stop Byte GpgNetParse ℕ :=
  Reader.focus (·.numArgs) (fun s numArgs => { s with numArgs }) RecordReader.getInt

def getName : Reader Stop Byte GpgNetParse Bytes :=
  Reader.focus (·.command) (fun s command => { s with command }) ByteArrayRecordReader.get

/-- `GetCommand` up to its final `reset`. -/
def readCommand : Reader Stop Byte GpgNetParse Command := do
  let name ← getName
  let numArgs ← getNumArgs
  if MAX_NUM_ARGS < numArgs then
    Reader.raise (.runtimeError "[GpgNetParse::GetCommand] number of arguments exceeds MAX_NUM_ARGS")
  else
    let args ← getArgs numArgs 0
    return ⟨name, args⟩

def getCommand : Reader Stop Byte GpgNetParse Command := do
  let command ← readCommand
  Reader.update reset
  return command

end GpgNetParse

/-! ### The receiving loop (`GpgNetClient.cpp:43-101`) -/

structure Client where
  parser : GpgNetParse
  unread : Bytes
  commands : List Command
  warnings : List String

def Client.new : Client := ⟨.new, [], [], []⟩

/-- `while (bytesAvailable() > 0)`: `DataNotReady` ends the loop silently, other
exceptions are logged. -/
def Client.readLoop : ℕ → Client → Client
  | 0, s => s
  | fuel + 1, s =>
    if s.unread = [] then s
    else match GpgNetParse.getCommand s.parser s.unread with
      | (.ok command, parser, unread) =>
        readLoop fuel { s with parser, unread, commands := s.commands ++ [command] }
      | (.error .dataNotReady, parser, unread) => { s with parser, unread }
      | (.error (.runtimeError what), parser, unread) =>
        { s with parser, unread, warnings := s.warnings ++ [what] }

/-- A chunk arrives. Every command takes at least one byte. -/
def Client.onReadyRead (s : Client) (chunk : Bytes) : Client :=
  readLoop (s.unread ++ chunk).length { s with unread := s.unread ++ chunk }

def Client.run (chunks : List Bytes) : Client := chunks.foldl Client.onReadyRead .new

end Gpgnet4TA.Gpgnet
