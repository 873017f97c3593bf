import Gpgnet4TA.Lib.Resumable
import Gpgnet4TA.Tapacket.SubPackets

/-!
# Demo files (`TADemoParser.cpp`, `TADemoParser.h`, `TADemoRecords.h`)

A parser that follows a file while it grows. What a call of `parse` does not find yet is
waited for: the record reader keeps the part of a record it has, the parser keeps how many
records of each kind it has handled. The virtual `handle` functions are calls that are
listed in `handled`.
-/

namespace Gpgnet4TA.Tapacket
open Gpgnet4TA.Lib Gpgnet4TA.Lib.Resumable

/-- `outOfRange` is thrown by `substr`; `badRead` is a read that leaves the record, for which
the language defines no result. -/
inductive Failure where
  | runtimeError (what : String)
  | outOfRange
  | badRead
  deriving DecidableEq

inductive Stop where
  | dataNotReady
  | failed (failure : Failure)
  deriving DecidableEq

/-! ### The record reader -/

inductive RecordReader.State where
  | READ_RECLEN1
  | READ_RECLEN2
  | READ_RECORD
  deriving DecidableEq

/-- `tellg` is the position of the stream. -/
structure RecordReader where
  state : RecordReader.State
  recordLength : Byte × Byte
  readBuffer : Bytes
  bytesRead : ℕ
  tellg : ℕ

namespace RecordReader

def new : RecordReader := ⟨.READ_RECLEN1, (0, 0), [], 0, 0⟩

def unrealistic (length tellg : ℕ) : Failure :=
  .runtimeError ("[RecordReader::operator()] unrealistic record length " ++ toString length ++
    " at position " ++ toString tellg)

/-- The second length byte: the buffer gets its size. -/
def setLength (r : RecordReader) (b : Byte) : Except Failure Unit × RecordReader :=
  let r := { r with recordLength := (r.recordLength.1, b), tellg := r.tellg + 1 }
  let length := leVal [r.recordLength.1, r.recordLength.2]
  if 32768 < length ∨ length ≤ 2 then (.error (unrealistic length r.tellg), r)
  else
    (.ok (), { r with
      readBuffer := List.replicate (length - 2) 0, bytesRead := 0, state := .READ_RECORD })

def readLength1 : Reader Stop Byte RecordReader Unit := fun r is =>
  if r.state = .READ_RECLEN1 then
    match is with
    | [] => (.error .dataNotReady, r, [])
    | b :: is =>
      (.ok (), { r with
        recordLength := (b, r.recordLength.2), state := .READ_RECLEN2, tellg := r.tellg + 1 }, is)
  else (.ok (), r, is)

def readLength2 : Reader Stop Byte RecordReader Unit := fun r is =>
  if r.state = .READ_RECLEN2 then
    match is with
    | [] => (.error .dataNotReady, r, [])
    | b :: is =>
      match r.setLength b with
      | (.ok (), r) => (.ok (), r, is)
      | (.error e, r) => (.error (.failed e), r, is)
  else (.ok (), r, is)

/-- `read` into the buffer behind what is there. -/
def fill (r : RecordReader) (bs : Bytes) : RecordReader :=
  { r with
    readBuffer := r.readBuffer.take r.bytesRead ++ bs ++ r.readBuffer.drop (r.bytesRead + bs.length)
    bytesRead := r.bytesRead + bs.length
    tellg := r.tellg + bs.length }

def readRecord : Reader Stop Byte RecordReader Bytes := fun r is =>
  if r.state = .READ_RECORD then
    let gcount := r.readBuffer.length - r.bytesRead
    let r := r.fill (is.take gcount)
    if r.bytesRead < r.readBuffer.length then (.error .dataNotReady, r, is.drop gcount)
    else
      (.ok r.readBuffer, { r with readBuffer := [], bytesRead := 0, state := .READ_RECLEN1 },
        is.drop gcount)
  else (.ok [], r, is)

/-- `operator()`. -/
def read : Reader Stop Byte RecordReader Bytes := do
  readLength1
  readLength2
  readRecord

end RecordReader

/-! ### The records -/

/-- `data.substr(pos)`. -/
def substr (data : Bytes) (pos : ℕ) : Except Failure Bytes :=
  if pos ≤ data.length then .ok (data.drop pos) else .error .outOfRange

def orBadRead {α : Type} : Option α → Except Failure α
  | some a => .ok a
  | none => .error .badRead

/-- `data[i]`, where the string ends with a zero. -/
def charAt (data : Bytes) (i : ℕ) : Except Failure Byte := orBadRead (data ++ [0])[i]?

/-- `*(std::uint16_t*)&data[i]`. -/
def uint16At (data : Bytes) (i : ℕ) : Except Failure ℕ := orBadRead (u16At (data ++ [0]) i)

/-- `*(std::uint32_t*)&data[i]`. -/
def uint32At (data : Bytes) (i : ℕ) : Except Failure ℕ := orBadRead (u32At (data ++ [0]) i)

/-- `std::string((char*)data.c_str())`. -/
def cString (data : Bytes) : Bytes := data.takeWhile (· ≠ 0)

def text (data : Bytes) : String := String.ofList (data.map fun b => Char.ofNat b.toNat)

def isprint (ch : Byte) : Bool := 0x20 ≤ ch && ch ≤ 0x7e

structure Header where
  magic : Bytes
  version : ℕ
  numPlayers : ℕ
  maxUnits : ℕ
  mapName : Bytes

structure ExtraHeader where
  numSectors : ℕ

structure ExtraSector where
  sectorType : ℕ
  data : Bytes

structure Player where
  color : Byte
  side : ℤ
  number : Byte
  name : Bytes

structure PlayerStatusMessage where
  number : Byte
  statusMessage : Bytes

structure UnitData where
  unitData : Bytes

structure Packet where
  time : ℕ
  sender : Byte
  data : Bytes

/-- `"TA Demo"` with its final zero. -/
def tadMagic : Bytes := [0x54, 0x41, 0x20, 0x44, 0x65, 0x6d, 0x6f, 0]

/-- The first error's text goes on with a version that is not read yet. -/
def Header.load (data : Bytes) : Except Failure Header := do
  let magic ← orBadRead (sliceAt (data ++ [0]) 0 8)
  if magic ≠ tadMagic then throw (.runtimeError "invalid tad header:")
  let version ← uint16At data 8
  if version < 3 ∨ 5 < version then
    throw (.runtimeError ("unsupported tad version:" ++ toString version))
  let numPlayers ← charAt data 10
  if 10 < numPlayers.toNat then
    throw (.runtimeError ("unrealistic number of players:" ++ text [numPlayers]))
  let maxUnits ← uint16At data 11
  if 5000 < maxUnits then
    throw (.runtimeError ("unrealistic max units:" ++ toString maxUnits))
  let rest ← substr data 13
  let mapName := cString rest
  if 64 < mapName.length then
    throw (.runtimeError ("unrealistic size of mapname:" ++ toString mapName.length))
  if mapName.any (!isprint ·) then
    throw (.runtimeError ("mapname contains unprintable characters:" ++ text mapName))
  return ⟨magic, version, numPlayers.toNat, maxUnits, mapName⟩

def ExtraHeader.load (data : Bytes) : Except Failure ExtraHeader := do
  let numSectors ← uint32At data 0
  if 10000 < numSectors then
    throw (.runtimeError ("unrealistic number of extra sectors:" ++ toString numSectors))
  return ⟨numSectors⟩

def ExtraSector.load (data : Bytes) : Except Failure ExtraSector := do
  let sectorType ← uint32At data 0
  let data ← substr data 4
  return ⟨sectorType, data⟩

def Player.load (data : Bytes) : Except Failure Player := do
  let color ← charAt data 0
  let side ← charAt data 1
  let number ← charAt data 2
  let rest ← substr data 3
  return ⟨color, side.toInt8.toInt, number, cString rest⟩

/-- A wrong checksum is only logged. -/
def PlayerStatusMessage.load (data : Bytes) : Except Failure PlayerStatusMessage := do
  let number ← charAt data 0
  let (data, _) := decrypt data 1
  let message ← orBadRead (decompressN ((data ++ [0]).drop 1) (unsigned (data.length - 1)) 3)
  let statusMessage ← substr message 7
  return ⟨number, statusMessage⟩

def UnitData.load (data : Bytes) : Except Failure UnitData := .ok ⟨data⟩

def Packet.load (data : Bytes) : Except Failure Packet := do
  let time ← uint16At data 0
  let sender ← charAt data 2
  let rest ← substr data 3
  return ⟨time, sender, rest⟩

/-! ### The parser -/

inductive Callback where
  | header (header : Header)
  | extraSector (es : ExtraSector) (n ofTotal : ℕ)
  | player (player : Player) (n ofTotal : ℕ)
  | playerStatusMessage (msg : PlayerStatusMessage) (dplayid n ofTotal : ℕ)
  | unitData (unitData : UnitData)
  | packet (packet : Packet) (unpaked : List Bytes) (n : ℕ)

/-- The counters are far from the ends of their types but for `numPacketsRead`. -/
structure DemoParser where
  recordReader : RecordReader
  header : Option Header
  extraHeader : Option ExtraHeader
  numExtraSectorsRead : ℕ
  numPlayersRead : ℕ
  numPlayerStatusMessagesRead : ℕ
  numUnitDataRead : ℕ
  numPacketsRead : ℕ
  handled : List Callback

namespace DemoParser

def new : DemoParser := ⟨.new, none, none, 0, 0, 0, 0, 0, []⟩

def handle (s : DemoParser) (c : Callback) : DemoParser := { s with handled := s.handled ++ [c] }

def onHeader (s : DemoParser) (data : Bytes) : Except Failure DemoParser := do
  let header ← Header.load data
  return { s.handle (.header header) with header := some header }

def onExtraHeader (s : DemoParser) (data : Bytes) : Except Failure DemoParser := do
  let eh ← ExtraHeader.load data
  return { s with extraHeader := some eh }

def onExtraSector (numSectors : ℕ) (s : DemoParser) (data : Bytes) : Except Failure DemoParser := do
  let es ← ExtraSector.load data
  let es := if es.sectorType = 6 then { es with data := es.data.map (· ^^^ 42) } else es
  return { s.handle (.extraSector es s.numExtraSectorsRead numSectors) with
    numExtraSectorsRead := s.numExtraSectorsRead + 1 }

def onPlayer (numPlayers : ℕ) (s : DemoParser) (data : Bytes) : Except Failure DemoParser := do
  let p ← Player.load data
  return { s.handle (.player p s.numPlayersRead numPlayers) with numPlayersRead := s.numPlayersRead + 1 }

def onPlayerStatusMessage (numPlayers : ℕ) (s : DemoParser) (data : Bytes) :
    Except Failure DemoParser := do
  let msg ← PlayerStatusMessage.load data
  let dplayid ← uint32At msg.statusMessage 0x91
  return { s.handle (.playerStatusMessage msg dplayid s.numPlayerStatusMessagesRead numPlayers) with
    numPlayerStatusMessagesRead := s.numPlayerStatusMessagesRead + 1 }

def onUnitData (s : DemoParser) (data : Bytes) : Except Failure DemoParser := do
  let ud ← UnitData.load data
  return { s.handle (.unitData ud) with numUnitDataRead := s.numUnitDataRead + 1 }

def onPacket (version : ℕ) (s : DemoParser) (data : Bytes) : Except Failure DemoParser := do
  let p ← Packet.load data
  let unpacked ← orBadRead (unsmartpak p.data (version = 3) false)
  return { s.handle (.packet p unpacked s.numPacketsRead) with
    numPacketsRead := unsigned (s.numPacketsRead + 1) }

/-- Load one record and do `f` with it. -/
def load (f : DemoParser → Bytes → Except Failure DemoParser) : Reader Stop Byte DemoParser Unit := do
  let data ← Reader.focus (·.recordReader) (fun s recordReader => { s with recordReader })
    RecordReader.read
  fun s is =>
    match f s data with
    | .ok s => (.ok (), s, is)
    | .error e => (.error (.failed e), s, is)

/-- A `for` loop with `n` rounds to go. -/
def loop (f : DemoParser → Bytes → Except Failure DemoParser) : ℕ → Reader Stop Byte DemoParser Unit
  | 0 => return ()
  | n + 1 => do
    load f
    loop f n

def doHeader : Reader Stop Byte DemoParser Unit := fun s is =>
  if s.header.isNone then load onHeader s is else (.ok (), s, is)

def doExtra (header : Header) : Reader Stop Byte DemoParser Unit := do
  if 4 < header.version then
    (fun s is => if s.extraHeader.isNone then load onExtraHeader s is else (.ok (), s, is))
    fun s is =>
      let numSectors := (s.extraHeader.map (·.numSectors)).getD 0
      loop (onExtraSector numSectors) (numSectors - s.numExtraSectorsRead) s is

/-- With `maxPaksToLoad = 0` the loop only ends by an exception; every record takes at
least one of the unread bytes, so there are fewer rounds than that. -/
def doPackets (header : Header) (maxPaksToLoad : ℕ) : Reader Stop Byte DemoParser Unit := fun s is =>
  loop (onPacket header.version) (if maxPaksToLoad = 0 then is.length + 1 else maxPaksToLoad) s is

def doBody (maxPaksToLoad : ℕ) (header : Header) : Reader Stop Byte DemoParser Unit := do
  doExtra header
  fun s is => loop (onPlayer header.numPlayers) (header.numPlayers - s.numPlayersRead) s is
  fun s is => loop (onPlayerStatusMessage header.numPlayers)
    (header.numPlayers - s.numPlayerStatusMessagesRead) s is
  fun s is => loop onUnitData (1 - s.numUnitDataRead) s is
  doPackets header maxPaksToLoad

def doParse (maxPaksToLoad : ℕ) : Reader Stop Byte DemoParser Unit := do
  doHeader
  fun s is =>
    match s.header with
    | some header => doBody maxPaksToLoad header s is
    | none => (.ok (), s, is)

end DemoParser

/-! ### Following a file -/

/-- The parser and the part of its stream it has not read. `numTimesNewDataReceived` is a
field of the parser that is not initialised. -/
structure Follower where
  parser : DemoParser
  numTimesNewDataReceived : ℤ
  unread : Bytes

inductive Event where
  /-- The file grows. -/
  | grow (bytes : Bytes)
  | parse (maxPaksToLoad : ℕ)

namespace Follower

def new (numTimesNewDataReceived : ℤ) : Follower := ⟨.new, numTimesNewDataReceived, []⟩

/-- The returned `bool` says whether there were new packets. -/
def parse (f : Follower) (maxPaksToLoad : ℕ) : Except Failure (Bool × Follower) :=
  let numPacketsRead := f.parser.numPacketsRead
  match DemoParser.doParse maxPaksToLoad f.parser f.unread with
  | (.ok (), parser, unread) | (.error .dataNotReady, parser, unread) =>
    if numPacketsRead < parser.numPacketsRead then
      .ok (true, { parser, unread, numTimesNewDataReceived := f.numTimesNewDataReceived + 1 })
    else .ok (false, { f with parser, unread })
  | (.error (.failed e), _, _) => .error e

def step (f : Follower) : Event → Except Failure Follower
  | .grow bytes => .ok { f with unread := f.unread ++ bytes }
  | .parse maxPaksToLoad => (f.parse maxPaksToLoad).map (·.2)

def run (f : Follower) (es : List Event) : Except Failure Follower := es.foldlM step f

end Follower

end Gpgnet4TA.Tapacket
