import Gpgnet4TA.Tapacket.DPlayPacket

/-!
# The address translater (`GameAddressTranslater.cpp`)

It goes through the messages of a buffer and changes the addresses in them in place. The
addresses that `translatePlayerSPA` has been called with are recorded, with their indexes, so
that a caller can do what its function does besides; `none` says that an access leaves the
buffer or that the loop over the messages does not end.
-/

namespace Gpgnet4TA.Tafnet
open Gpgnet4TA.Lib Gpgnet4TA.Tapacket

/-- `translatePlayerSPA` is `none` where the source's returns false. -/
structure GameAddressTranslater where
  replyAddress : ℕ
  replyPorts : ℕ × ℕ
  translatePlayerSPA : DPAddress → ℕ → Option DPAddress

namespace GameAddressTranslater

abbrev Visits := List (DPAddress × ℕ)

/-- `replyPorts[index]`. -/
def replyPort (t : GameAddressTranslater) : ℕ → Option ℕ
  | 0 => some t.replyPorts.1
  | 1 => some t.replyPorts.2
  | _ => none

def translateReplyAddress (t : GameAddressTranslater) (buf : Bytes) (address index : ℕ) : Option Bytes := do
  let port ← t.replyPort index
  writeAddress buf address ⟨t.replyAddress, port⟩

/-- One service provider's address. -/
def translateSPA (t : GameAddressTranslater) (buf : Bytes) (addr n : ℕ) :
    Option (Bytes × (DPAddress × ℕ)) := do
  let address ← readAddress buf addr
  let buf ← match t.translatePlayerSPA address n with
    | some address => writeAddress buf addr address
    | none => t.translateReplyAddress buf addr n
  return (buf, (address, n))

/-- The loop over the addresses of a create or forward request. -/
def translateSPAs (t : GameAddressTranslater) : ℕ → ℕ → ℕ → Bytes → Visits → Option (Bytes × Visits)
  | 0, _, _, _, _ => none
  | fuel + 1, addr, n, buf, visits => do
    let service_provider_data_size ← u32At buf 68
    if n * sizeofDPAddress < service_provider_data_size then
      let (buf, visit) ← t.translateSPA buf addr n
      translateSPAs t fuel (addr + sizeofDPAddress) (n + 1) buf (visits ++ [visit])
    else return (buf, visits)

/-- The packed player is at 48, what follows it at 96. -/
def translateForwardOrCreateRequest (t : GameAddressTranslater) (buf : Bytes) : Option (Bytes × Visits) := do
  let service_provider_data_size ← u32At buf 68
  if service_provider_data_size = 0 then return (buf, [])
  else
    let short_name_length ← u32At buf 60
    let long_name_length ← u32At buf 64
    t.translateSPAs (buf.length + 1) (96 + short_name_length + long_name_length) 0 buf []

/-- The loop over the packed players; `n` of them are done. -/
def translatePlayers (t : GameAddressTranslater) : ℕ → ℕ → ℕ → Bytes → Visits → Option (Bytes × Visits)
  | 0, _, _, _, _ => none
  | fuel + 1, player, n, buf, visits => do
    let player_count ← u32At buf 28
    if n < player_count then
      let (_, addr) ← superPackedPlayer buf player
      let (buf, tcp) ← t.translateSPA buf addr 0
      let (buf, udp) ← t.translateSPA buf (addr + sizeofDPAddress) 1
      translatePlayers t fuel (addr + 2 * sizeofDPAddress) (n + 1) buf (visits ++ [tcp, udp])
    else return (buf, visits)

def translateSuperEnumPlayersReply (t : GameAddressTranslater) (buf : Bytes) : Option (Bytes × Visits) := do
  let packed_offset ← u32At buf 36
  if packed_offset = 0 then return (buf, [])
  else t.translatePlayers (buf.length + 1) (0x4a - 0x36 + packed_offset) 0 buf []

/-- DPSP_MSG_ADDFORWARD, DPSP_MSG_ADDFORWARDREQUEST, DPSP_MSG_CREATEPLAYER and
DPSP_MSG_CREATEPLAYERVERIFY. -/
def isForwardOrCreate (command : ℕ) : Bool :=
  command = 0x2e ∨ command = 0x13 ∨ command = 0x08 ∨ command = 0x38

/-- One round of the loop over the messages. -/
def translateMessage (t : GameAddressTranslater) (buf : Bytes) : Option (Bytes × Visits) := do
  if ← DPHeader.looksOk buf then
    let buf ← t.translateReplyAddress buf 4 0
    let command ← DPHeader.command buf
    if command = 0x0029 then t.translateSuperEnumPlayersReply buf
    else if isForwardOrCreate command then t.translateForwardOrCreateRequest buf
    else return (buf, [])
  else return (buf, [])

/-- The loop over the messages, with `remaining` bytes of them to go. -/
def translateLoop (t : GameAddressTranslater) : ℕ → ℕ → Bytes → Option (Bytes × Visits)
  | 0, _, _ => none
  | fuel + 1, remaining, buf =>
    if remaining = 0 then some (buf, [])
    else do
      let (buf, visits) ← t.translateMessage buf
      let size ← DPHeader.size buf
      let (rest, visits') ← translateLoop t fuel (remaining - size) (buf.drop size)
      return (buf.take size ++ rest, visits ++ visits')

/-- `operator()` on a buffer that ends with a zero behind the data. -/
def translate (t : GameAddressTranslater) (data : Bytes) : Option (Bytes × Visits) := do
  let (buf, visits) ← t.translateLoop (data.length + 1) data.length (data ++ [0])
  return (buf.take data.length, visits)

end GameAddressTranslater

end Gpgnet4TA.Tafnet
