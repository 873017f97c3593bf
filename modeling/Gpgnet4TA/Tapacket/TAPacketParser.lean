import Gpgnet4TA.Taflib.DuplicateDetection
import Gpgnet4TA.Tapacket.DPlayPacket
import Gpgnet4TA.Tapacket.SubPackets

/-!
# The parser of game data (`TAPacketParser.cpp`)

It goes through the DirectPlay messages of a buffer and through the subpackets of the game's
own packets, tells its handlers what it finds, and returns the codes of the subpackets. `none`
says that a read leaves the buffer.
-/

namespace Gpgnet4TA.Tapacket
open Gpgnet4TA.Lib Gpgnet4TA.Taflib SubPacketCode

/-- Calls of `TaPacketHandler`. The addresses that go with the first two are left out. -/
inductive HandlerCall where
  | onDplaySuperEnumPlayerReply (dplayId : ℕ) (playerName : Bytes)
  | onDplayCreateOrForwardPlayer (command dplayId : ℕ) (name : Bytes)
  | onDplayDeletePlayer (dplayId : ℕ)
  | onTaPacket (sourceDplayId otherDplayId : ℕ) (isLocalSource : Bool) (encrypted : Bytes)
      (subpaks : List Bytes)
  deriving DecidableEq

structure TAPacketParser where
  taDuplicateDetection : DuplicateDetection
  parsedSubPacketCodes : List Byte
  progressTicks : ℕ
  calls : List HandlerCall

namespace TAPacketParser

def new : TAPacketParser := ⟨.new, [], 0, []⟩

def tell (p : TAPacketParser) (calls : List HandlerCall) : TAPacketParser :=
  { p with calls := p.calls ++ calls }

/-! ### DirectPlay messages -/

/-- The loop over the packed players; `n` of them are done. -/
def parsePlayers (buf : Bytes) : ℕ → ℕ → ℕ → Option (List HandlerCall)
  | 0, _, _ => none
  | fuel + 1, player, n => do
    let player_count ← u32At buf 28
    if n < player_count then
      let (playerName, addr) ← superPackedPlayer buf player
      let id ← u32At buf (player + 8)
      let calls ← parsePlayers buf fuel (addr + 2 * sizeofDPAddress) (n + 1)
      return .onDplaySuperEnumPlayerReply id playerName :: calls
    else return []

def parseDplaySuperEnumReply (buf : Bytes) : Option (List HandlerCall) := do
  let packed_offset ← u32At buf 36
  if packed_offset = 0 then return []
  else parsePlayers buf (buf.length + 1) (0x4a - 0x36 + packed_offset) 0

def parseDplayCreateOrForwardPlayer (buf : Bytes) : Option (List HandlerCall) := do
  let service_provider_data_size ← u32At buf 68
  if service_provider_data_size = 0 then return []
  else
    let short_name_length ← u32At buf 60
    let long_name_length ← u32At buf 64
    let playerName ← if 0 < short_name_length then getCWStr buf 96 else some []
    let playerName ← if 0 < long_name_length then getCWStr buf (96 + short_name_length) else some playerName
    let command ← DPHeader.command buf
    let player_id ← u32At buf 32
    return [.onDplayCreateOrForwardPlayer command player_id playerName]

def parseDplayDeletePlayer (buf : Bytes) : Option (List HandlerCall) := do
  let player_id ← u32At buf 32
  return [.onDplayDeletePlayer player_id]

def parseDplayPacket (buf : Bytes) : Option (List HandlerCall) := do
  let command ← DPHeader.command buf
  if command = 0x0029 then parseDplaySuperEnumReply buf
  else if command = 0x0008 ∨ command = 0x0013 ∨ command = 0x002e ∨ command = 0x0038 then
    parseDplayCreateOrForwardPlayer buf
  else if command = 0x000b then parseDplayDeletePlayer buf
  else return []

/-! ### The game's packets -/

def parseSubpak (p : TAPacketParser) (s : Bytes) : Option TAPacketParser := do
  let expectedSize ← getExpectedSubPacketSize s
  if expectedSize = 0 ∨ s.length ≠ expectedSize then return p
  else
    let code := byteAt s 0
    let p := { p with parsedSubPacketCodes := p.parsedSubPacketCodes.insert code }
    if code = UNIT_STAT_AND_MOVE_2C then
      let tick ← u32At (s ++ [0]) 3
      return { p with progressTicks := max tick p.progressTicks }
    else return p

/-- The subpackets of an encrypted packet, `none` inside if its checksum is wrong. -/
def decodeTaPacket (payload : Bytes) : Option (Option (List Bytes)) := do
  let (payload, checksums) := decrypt payload 0
  let (checksum0, checksum1) ← checksums
  if checksum0 ≠ checksum1 then return none
  else
    let payload ← if byteAt payload 0 = 0x04 then decompress payload 3 else some payload
    let subpaks ← unsmartpak payload true true
    return some subpaks

/-- While the game runs, a copy of a packet to everybody is not parsed again. -/
def isDuplicate (p : TAPacketParser) (sourceDplayId otherDplayId : ℕ) (payload : Bytes) :
    Bool × TAPacketParser :=
  if 0 < p.progressTicks ∧ otherDplayId = 0 then
    let (duplicate, detection) := p.taDuplicateDetection.isLikelyDuplicate sourceDplayId otherDplayId payload
    (duplicate, { p with taDuplicateDetection := detection })
  else (false, p)

def parseTaPacket (p : TAPacketParser) (sourceDplayId otherDplayId : ℕ) (isLocalSource : Bool)
    (payload : Bytes) : Option TAPacketParser := do
  let (duplicate, p) := p.isDuplicate sourceDplayId otherDplayId payload
  if duplicate then return p
  else
    match ← decodeTaPacket payload with
    | none => return p
    | some subpaks =>
      let p ← subpaks.foldlM parseSubpak p
      return p.tell [.onTaPacket sourceDplayId otherDplayId isLocalSource payload subpaks]

/-! ### Buffers -/

/-- The loop over the messages, with `remaining` bytes of them to go. A message that does not
look like one makes the whole buffer a packet of the game. -/
def parseLoop (isLocalSource : Bool) (data : Bytes) : ℕ → ℕ → Bytes → TAPacketParser → Option TAPacketParser
  | 0, _, _, _ => none
  | fuel + 1, remaining, buf, p =>
    if remaining = 0 then some p
    else do
      let ok ← DPHeader.looksOk buf
      if !ok ∧ 8 < data.length then
        let id1 ← u32At data 0
        let id2 ← u32At data 4
        p.parseTaPacket id1 id2 isLocalSource (data.drop 8)
      else
        let actionstring ← DPHeader.actionstring buf
        let size ← DPHeader.size buf
        let p ← if actionstring = playString then (parseDplayPacket buf).map p.tell
          else do
            let payload ← sliceAt buf sizeofDPHeader (size - sizeofDPHeader)
            p.parseTaPacket (leVal actionstring) 0 isLocalSource payload
        parseLoop isLocalSource data fuel (remaining - size) (buf.drop size) p

/-- The parser afterwards, with the codes that are returned; the buffer ends with a zero. -/
def parseGameData (p : TAPacketParser) (isLocalSource : Bool) (data : Bytes) : Option TAPacketParser :=
  parseLoop isLocalSource data (data.length + 1) data.length (data ++ [0])
    { p with parsedSubPacketCodes := [] }

end TAPacketParser

end Gpgnet4TA.Tapacket
