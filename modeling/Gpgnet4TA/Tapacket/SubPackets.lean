import Gpgnet4TA.Tapacket.TPacket

/-!
# Subpackets (`TPacket.cpp:16-34`, `271-371`, `503-563`; `TPacket.h:18-68`)

A `std::uint8_t *` is the list of the bytes from it to the end of its buffer, with the
zero that ends a string; `none` says that a read leaves the buffer or that a loop does
not end. Lengths are `unsigned`.
-/

namespace Gpgnet4TA.Tapacket
open Gpgnet4TA.Lib

namespace SubPacketCode

def ZERO_00 : Byte := 0x00
def PING_02 : Byte := 0x02
def UNK_03 : Byte := 0x03
def CHAT_05 : Byte := 0x05
def PAD_ENCRYPT_06 : Byte := 0x06
def UNK_07 : Byte := 0x07
def LOADING_STARTED_08 : Byte := 0x08
def UNIT_BUILD_STARTED_09 : Byte := 0x09
def UNK_0A : Byte := 0x0a
def UNIT_TAKE_DAMAGE_0B : Byte := 0x0b
def UNIT_KILLED_0C : Byte := 0x0c
def WEAPON_FIRED_0D : Byte := 0x0d
def AREA_OF_EFFECT_0E : Byte := 0x0e
def FEATURE_ACTION_0F : Byte := 0x0f
def UNIT_START_SCRIPT_10 : Byte := 0x10
def UNIT_STATE_11 : Byte := 0x11
def UNIT_BUILD_FINISHED_12 : Byte := 0x12
def GIVE_UNIT_14 : Byte := 0x14
def START_15 : Byte := 0x15
def SHARE_RESOURCES_16 : Byte := 0x16
def UNK_17 : Byte := 0x17
def HOST_MIGRATION_18 : Byte := 0x18
def SPEED_19 : Byte := 0x19
def UNIT_DATA_1A : Byte := 0x1a
def REJECT_1B : Byte := 0x1b
def START_1E : Byte := 0x1e
def UNK_1F : Byte := 0x1f
def PLAYER_INFO_20 : Byte := 0x20
def UNK_21 : Byte := 0x21
def IDENT3_22 : Byte := 0x22
def ALLY_23 : Byte := 0x23
def TEAM_24 : Byte := 0x24
def IDENT2_26 : Byte := 0x26
def PLAYER_RESOURCE_INFO_28 : Byte := 0x28
def UNK_29 : Byte := 0x29
def LOADING_PROGRESS_2A : Byte := 0x2a
def UNIT_STAT_AND_MOVE_2C : Byte := 0x2c
def UNK_2E : Byte := 0x2e
def THALDREN_EXTENDED_42 : Byte := 0x42
def UNK_F6 : Byte := 0xf6
def ALLY_CHAT_F9 : Byte := 0xf9
def REPLAYER_SERVER_FA : Byte := 0xfa
def RECORDER_DATA_CONNECT_FB : Byte := 0xfb
def MAP_POSITION_FC : Byte := 0xfc
def SMARTPAK_TICK_OTHER_FD : Byte := 0xfd
def SMARTPAK_TICK_START_FE : Byte := 0xfe
def SMARTPAK_TICK_FF : Byte := 0xff

end SubPacketCode

open SubPacketCode

/-! ### Decryption -/

def decryptLoop : ℕ → ℕ → Byte → ℕ → Bytes → Bytes × ℕ
  | 0, _, _, checkCalculated, data => (data, checkCalculated)
  | n + 1, i, xorKey, checkCalculated, data =>
    decryptLoop n (i + 1) (xorKey + 1) ((checkCalculated + (byteAt data i).toNat) % 2 ^ 16)
      (data.modify i (· ^^^ xorKey))

/-- The data afterwards and the two checksums; these are left as they are when the data
is too short. -/
def decrypt (data : Bytes) (ofs : ℕ) : Bytes × Option (ℕ × ℕ) :=
  if data.length < 4 + ofs then (data ++ [0x06], none)
  else
    let checkExtracted := leVal [byteAt data (ofs + 1), byteAt data (ofs + 2)]
    -- the last three bytes are not encrypted
    let (data, checkCalculated) := decryptLoop (data.length - 3 - (ofs + 3)) (ofs + 3) 3 0 data
    (data, some (checkExtracted, checkCalculated))

/-! ### Sizes -/

/-- The codes whose size does not depend on the content. -/
def fixedSizes : List (Byte × ℕ) :=
  [(PING_02, 13), (UNK_03, 7), (PAD_ENCRYPT_06, 1), (UNK_07, 1), (LOADING_STARTED_08, 1),
    (UNIT_BUILD_STARTED_09, 23), (UNK_0A, 7), (UNIT_TAKE_DAMAGE_0B, 9), (UNIT_KILLED_0C, 11),
    (WEAPON_FIRED_0D, 36), (AREA_OF_EFFECT_0E, 14), (FEATURE_ACTION_0F, 6),
    (UNIT_START_SCRIPT_10, 22), (UNIT_STATE_11, 4), (UNIT_BUILD_FINISHED_12, 5), (GIVE_UNIT_14, 24),
    (START_15, 1), (SHARE_RESOURCES_16, 17), (UNK_17, 2), (HOST_MIGRATION_18, 2), (SPEED_19, 3),
    (UNIT_DATA_1A, 14), (REJECT_1B, 6), (START_1E, 2), (UNK_1F, 5), (PLAYER_INFO_20, 192),
    (UNK_21, 10), (IDENT3_22, 6), (ALLY_23, 14), (TEAM_24, 6), (IDENT2_26, 41),
    (PLAYER_RESOURCE_INFO_28, 58), (UNK_29, 3), (LOADING_PROGRESS_2A, 2), (UNK_2E, 9), (UNK_F6, 1),
    (ALLY_CHAT_F9, 73), (REPLAYER_SERVER_FA, 1), (MAP_POSITION_FC, 5), (SMARTPAK_TICK_START_FE, 5),
    (SMARTPAK_TICK_FF, 1)]

/-- A chat subpacket may be longer than it should be; it is then the rest of the packet
but for a map position. -/
def chatSize (s : Bytes) (sz : ℕ) : Option ℕ := do
  let last ← s[64]?
  if last = 0 then return 65
  else if sz < 5 then none
  else
    let code ← s[sz - 5]?
    return if code = MAP_POSITION_FC then sz - 5 else sz

def getExpectedSubPacketSizeN (s : Bytes) (sz : ℕ) : Option ℕ :=
  if sz = 0 then some 0
  else do
    let spc ← s.head?
    if spc = ZERO_00 then return ((s.take sz).takeWhile (· = 0)).length
    else if spc = CHAT_05 then chatSize s sz
    else if spc = UNIT_STAT_AND_MOVE_2C then if 3 ≤ sz then u16At s 1 else return 0
    else if spc = THALDREN_EXTENDED_42 then
      if 3 ≤ sz then (u16At s 1).map (· + 3) else return 0
    else if spc = RECORDER_DATA_CONNECT_FB then
      if 2 ≤ sz then s[1]?.map (·.toNat + 3) else return 0
    else if spc = SMARTPAK_TICK_OTHER_FD then
      -- below 4 the difference is taken modulo 2 ^ 32
      if 3 ≤ sz then (u16At s 1).map (fun n => unsigned (n + (2 ^ 32 - 4))) else return 0
    else return (fixedSizes.lookup spc).getD 0

def getExpectedSubPacketSize (bytes : Bytes) : Option ℕ :=
  getExpectedSubPacketSizeN (bytes ++ [0]) (unsigned bytes.length)

/-! ### Splitting a packet -/

/-- The subpacket of `subpakLen` bytes at `ptr`: what it adds to the result, and the next
tick number. -/
def unsmartpakOne (ptr : Bytes) (subpakLen packnum : ℕ) : Option (List Bytes × ℕ) := do
  let code ← ptr.head?
  if code = SMARTPAK_TICK_START_FE then
    let packnum ← u32At ptr 1
    return ([], packnum)
  else if code = SMARTPAK_TICK_FF then
    return ([[0x2c, 0x0b, 0] ++ leBytes 4 packnum ++ [0xff, 0xff, 1, 0]], unsigned (packnum + 1))
  else if code = SMARTPAK_TICK_OTHER_FD then
    -- `subpakLen - 3` is huge when there are less than three bytes
    if subpakLen < 3 then none
    else
      let head ← sliceAt ptr 1 2
      let rest ← sliceAt ptr 3 (subpakLen - 3)
      return ([0x2c :: head ++ leBytes 4 packnum ++ rest], unsigned (packnum + 1))
  else
    let subpak ← sliceAt ptr 0 subpakLen
    return ([subpak], packnum)

/-- The loop over the `remaining` bytes at `ptr`. -/
def unsmartpakLoop : ℕ → Bytes → ℕ → ℕ → List Bytes → Option (List Bytes)
  | 0, _, _, _, _ => none
  | fuel + 1, ptr, remaining, packnum, ut =>
    if 0 < remaining then do
      let expected ← getExpectedSubPacketSizeN ptr (unsigned remaining)
      let subpakLen := if expected = 0 ∨ remaining < expected then unsigned remaining else expected
      let (subpaks, packnum) ← unsmartpakOne ptr subpakLen packnum
      unsmartpakLoop fuel (ptr.drop subpakLen) (remaining - subpakLen) packnum (ut ++ subpaks)
    else some ut

def unsmartpak (c : Bytes) (hasTimestamp hasChecksum : Bool) : Option (List Bytes) := do
  let buffer ← if byteAt c 0 = 0x04 then decompress c (if hasChecksum then 3 else 1) else some c
  let skip := 1 + (if hasChecksum then 2 else 0) + (if hasTimestamp then 4 else 0)
  unsmartpakLoop (buffer.length + 1) ((buffer ++ [0]).drop skip) (buffer.length - skip) 0 []

/-! ### Packets that are too long -/

/-- The pointer does not move when the number of bytes that remain is a multiple of `2 ^ 32`. -/
theorem unsmartpakLoop_diverges (fuel : ℕ) (ptr : Bytes) (packnum : ℕ) (ut : List Bytes) :
    unsmartpakLoop fuel (PAD_ENCRYPT_06 :: ptr) (2 ^ 32) packnum ut = none := by
  induction fuel generalizing ut with
  | zero => rfl
  | succ fuel ih =>
    have hzero : unsigned (2 ^ 32) = 0 := Nat.mod_self _
    have hexp : getExpectedSubPacketSizeN (PAD_ENCRYPT_06 :: ptr) 0 = some 0 := rfl
    have hone : unsmartpakOne (PAD_ENCRYPT_06 :: ptr) 0 packnum = some ([[]], packnum) := by
      have hslice : sliceAt (PAD_ENCRYPT_06 :: ptr) 0 0 = some [] := by
        rw [sliceAt, if_pos (by omega)]
        rfl
      simp only [unsmartpakOne, List.head?_cons, Option.bind_eq_bind, Option.bind_some, hslice]
      rfl
    rw [unsmartpakLoop, if_pos (by omega), hzero, hexp]
    simp only [Option.bind_eq_bind, Option.bind_some, true_or, if_true, hone, List.drop_zero, Nat.sub_zero]
    exact ih (ut ++ [[]])

theorem unsmartpak_diverges {s : Bytes} (hs : s.length = 2 ^ 32) (hhead : s.head? = some PAD_ENCRYPT_06) :
    unsmartpak (0x03 :: s) false false = none := by
  obtain ⟨ptr, rfl⟩ : ∃ ptr, s = PAD_ENCRYPT_06 :: ptr := by
    cases s with
    | nil => cases hhead
    | cons b ptr =>
      cases hhead
      exact ⟨ptr, rfl⟩
  have hfast : ∀ fuel, unsmartpakLoop fuel (PAD_ENCRYPT_06 :: ptr ++ [0])
      (PAD_ENCRYPT_06 :: ptr : Bytes).length 0 [] = none := by
    intro fuel
    rw [hs]
    exact unsmartpakLoop_diverges fuel (ptr ++ [0]) 0 []
  exact hfast _

end Gpgnet4TA.Tapacket
