import Gpgnet4TA.Lib.Patch
import Gpgnet4TA.Tapacket.SubPackets

/-!
# The classes of subpackets (`TPacket.cpp:626-1005`)

Each class is made from the bytes of a subpacket and turned into bytes again. A constructor has no
result where it reads outside the bytes that it is given.
-/

namespace Gpgnet4TA.Tapacket
open Gpgnet4TA.Lib SubPacketCode

structure TPing where
  «from» : ℕ
  id : ℕ
  value : ℕ

def TPing.ofSubPacket (subPacket : Bytes) : Option TPing := do
  let id ← u32At subPacket 1
  let value ← u32At subPacket 5
  let «from» ← u32At subPacket 9
  return { «from», id, value }

def TPing.asSubPacket (x : TPing) : Bytes :=
  [PING_02] ++ leBytes 4 x.id ++ leBytes 4 x.value ++ leBytes 4 x.from

structure TPlayerInfo where
  serialisedSize : ℕ
  fill1 : Bytes
  width : ℕ
  height : ℕ
  fill3 : Byte
  player1Id : ℕ
  data2 : Bytes
  clicked : Byte
  fill2 : Bytes
  maxUnits : ℕ
  versionMajor : Byte
  versionMinor : Byte
  data3 : Bytes
  player2Id : ℕ
  data4 : Byte

/-- What stands behind the version of a packet of 192 bytes, or of a short one. The last byte of
`data3` is not initialised from a short one. -/
def TPlayerInfo.readTail (subPacket : Bytes) (player1Id : ℕ) (uninitialised : Byte) :
    Option (Bytes × ℕ × Byte) :=
  if subPacket.length = 192 then do
    let data3 ← sliceAt subPacket 170 17
    let player2Id ← u32At subPacket 187
    let data4 ← subPacket[191]?
    return (data3, player2Id, data4)
  else do
    let data3 ← sliceAt subPacket 170 16
    return (data3 ++ [uninitialised], player1Id, 0)

def TPlayerInfo.ofSubPacket (subPacket : Bytes) (uninitialised : Byte) : Option TPlayerInfo := do
  let fill1 ← sliceAt subPacket 1 139
  let width ← u16At subPacket 140
  let height ← u16At subPacket 142
  let fill3 ← subPacket[144]?
  let player1Id ← u32At subPacket 145
  let data2 ← sliceAt subPacket 149 7
  let clicked ← subPacket[156]?
  let fill2 ← sliceAt subPacket 157 9
  let maxUnits ← u16At subPacket 166
  let versionMajor ← subPacket[168]?
  let versionMinor ← subPacket[169]?
  let (data3, player2Id, data4) ← readTail subPacket player1Id uninitialised
  return ⟨unsigned subPacket.length, fill1, width, height, fill3, player1Id, data2, clicked, fill2, maxUnits,
    versionMajor, versionMinor, data3, player2Id, data4⟩

def TPlayerInfo.asSubPacket (x : TPlayerInfo) : Bytes :=
  ([PLAYER_INFO_20] ++ x.fill1 ++ leBytes 2 x.width ++ leBytes 2 x.height ++ [x.fill3] ++
    leBytes 4 x.player1Id ++ x.data2 ++ [x.clicked] ++ x.fill2 ++ leBytes 2 x.maxUnits ++
    [x.versionMajor] ++ [x.versionMinor] ++ x.data3 ++ leBytes 4 x.player2Id ++ [x.data4]).take x.serialisedSize

def TPlayerInfo.isClickedIn (x : TPlayerInfo) : Bool := x.clicked &&& 0x20 ≠ 0

def TPlayerInfo.isWatcher (x : TPlayerInfo) : Bool := x.clicked &&& 0x40 ≠ 0

def TPlayerInfo.setDpId (x : TPlayerInfo) (dpid : ℕ) : TPlayerInfo := { x with player1Id := dpid, player2Id := dpid }

def TPlayerInfo.setInternalVersion (x : TPlayerInfo) (v : Byte) : TPlayerInfo := { x with data3 := x.data3.set 11 v }

def TPlayerInfo.setAllowWatch (x : TPlayerInfo) (allowWatch : Bool) : TPlayerInfo :=
  { x with clicked := if allowWatch then x.clicked ||| 0x80 else x.clicked &&& 0x7f }

def TPlayerInfo.setCheat (x : TPlayerInfo) (isCheat : Bool) : TPlayerInfo :=
  { x with fill2 := x.fill2.modify 0 fun b => if isCheat then b ||| 0x20 else b &&& 0xdf }

/-- What is asked for makes no difference. -/
def TPlayerInfo.setPermLos (x : TPlayerInfo) (_permLos : Bool) : TPlayerInfo := { x with fill2 := x.fill2.set 0 0x08 }

structure TAlliance where
  dpidFrom : ℕ
  dpidTo : ℕ
  alliedFromWithTo : Byte
  alliedToWithFrom : ℕ

def TAlliance.ofSubPacket (subPacket : Bytes) : Option TAlliance := do
  let dpidFrom ← u32At subPacket 1
  let dpidTo ← u32At subPacket 5
  let alliedFromWithTo ← subPacket[9]?
  let alliedToWithFrom ← u32At subPacket 10
  return { dpidFrom, dpidTo, alliedFromWithTo, alliedToWithFrom }

def TAlliance.asSubPacket (x : TAlliance) : Bytes :=
  [ALLY_23] ++ leBytes 4 x.dpidFrom ++ leBytes 4 x.dpidTo ++ [x.alliedFromWithTo] ++
    leBytes 4 x.alliedToWithFrom

structure TTeam where
  dpidFrom : ℕ
  teamNumber : Byte

def TTeam.ofSubPacket (subPacket : Bytes) : Option TTeam := do
  let dpidFrom ← u32At subPacket 1
  let teamNumber ← subPacket[5]?
  return { dpidFrom, teamNumber }

/-- The code is that of an alliance. -/
def TTeam.asSubPacket (x : TTeam) : Bytes := [ALLY_23] ++ leBytes 4 x.dpidFrom ++ [x.teamNumber]

structure TIdent2 where
  dpids : List ℕ

def readDpids (subPacket : Bytes) : ℕ → ℕ → Option (List ℕ)
  | 0, _ => some []
  | n + 1, ptr => do
    let dpid ← u32At subPacket ptr
    let rest ← readDpids subPacket n (ptr + 4)
    return dpid :: rest

def TIdent2.ofSubPacket (subPacket : Bytes) : Option TIdent2 := (readDpids subPacket 10 1).map TIdent2.mk

def TIdent2.asSubPacket (x : TIdent2) : Bytes := [IDENT2_26] ++ x.dpids.flatMap (leBytes 4)

structure TIdent3 where
  dpid : ℕ
  number : Byte

def TIdent3.ofSubPacket (subPacket : Bytes) : Option TIdent3 := do
  let dpid ← u32At subPacket 1
  let number ← subPacket[5]?
  return { dpid, number }

def TIdent3.asSubPacket (x : TIdent3) : Bytes := [IDENT3_22] ++ leBytes 4 x.dpid ++ [x.number]

/-- The union of `TUnitData`. -/
inductive UnitDataUnion where
  | statusAndLimit (status limit : ℕ)
  | crc (crc : ℕ)

structure TUnitData where
  pktid : Byte
  sub : Byte
  fill : ℕ
  id : ℕ
  u : UnitDataUnion

/-- The constructor of the replayer and the recorder. -/
def TUnitData.new (id limit : ℕ) (inUse : Bool) : TUnitData :=
  ⟨UNIT_DATA_1A, 0x03, 0, id, if inUse then .statusAndLimit 0x0101 limit else .statusAndLimit 0x0001 0xffff⟩

def TUnitData.ofSubPacket (subPacket : Bytes) : Option TUnitData := do
  let pktid ← subPacket[0]?
  let sub ← subPacket[1]?
  let fill ← u32At subPacket 2
  let id ← u32At subPacket 6
  let u ← if sub = 0x03 then do
      let status ← u16At subPacket 10
      let limit ← u16At subPacket 12
      pure (.statusAndLimit status limit)
    else (u32At subPacket 10).map .crc
  return { pktid, sub, fill, id, u }

/-- The member of the union is the one that `sub` names. -/
def TUnitData.asSubPacket (x : TUnitData) : Bytes :=
  [x.pktid] ++ [x.sub] ++ leBytes 4 x.fill ++ leBytes 4 x.id ++
    match x.u with
    | .statusAndLimit status limit => leBytes 2 status ++ leBytes 2 limit
    | .crc crc => leBytes 4 crc

structure TProgress where
  percent : Byte
  data : Byte

def TProgress.ofSubPacket (subPacket : Bytes) : Option TProgress := do
  let percent ← subPacket[1]?
  let data ← subPacket[2]?
  return { percent, data }

def TProgress.asSubPacket (x : TProgress) : Bytes := [LOADING_PROGRESS_2A, x.percent, x.data]

/-! ### Fields -/

section fields

variable {s b : Bytes} {ofs n v : ℕ} {x : Byte}

theorem take_slice (h : sliceAt s ofs n = some b) : s.take (ofs + n) = s.take ofs ++ b := by
  obtain ⟨-, rfl⟩ := sliceAt_eq_some.mp h
  exact List.take_add

theorem take_u32 (h : u32At s ofs = some v) : s.take (ofs + 4) = s.take ofs ++ leBytes 4 v := by
  obtain ⟨b, hb, rfl⟩ := Option.map_eq_some_iff.mp h
  have hbytes := leBytes_leVal b
  rw [length_of_sliceAt hb] at hbytes
  rw [take_slice hb, hbytes]

theorem take_u16 (h : u16At s ofs = some v) : s.take (ofs + 2) = s.take ofs ++ leBytes 2 v := by
  obtain ⟨b, hb, rfl⟩ := Option.map_eq_some_iff.mp h
  have hbytes := leBytes_leVal b
  rw [length_of_sliceAt hb] at hbytes
  rw [take_slice hb, hbytes]

theorem take_byte (h : s[ofs]? = some x) : s.take (ofs + 1) = s.take ofs ++ [x] := by
  rw [List.take_add_one, h]
  rfl

theorem take_code (h : s.head? = some x) : s.take 1 = [x] := by
  rw [List.head?_eq_getElem?] at h
  exact take_byte h

theorem exists_slice (h : ofs + n ≤ s.length) : ∃ b, sliceAt s ofs n = some b := ⟨_, if_pos h⟩

theorem exists_u32 (h : ofs + 4 ≤ s.length) : ∃ v, u32At s ofs = some v := by
  obtain ⟨b, hb⟩ := exists_slice h
  exact ⟨leVal b, by rw [u32At, hb]; rfl⟩

theorem exists_u16 (h : ofs + 2 ≤ s.length) : ∃ v, u16At s ofs = some v := by
  obtain ⟨b, hb⟩ := exists_slice h
  exact ⟨leVal b, by rw [u16At, hb]; rfl⟩

theorem exists_byte (h : ofs < s.length) : ∃ x, s[ofs]? = some x := ⟨_, List.getElem?_eq_getElem h⟩

end fields

/-! ### Reading and writing -/

section classes

variable {s : Bytes}

theorem TPing.reencode (hcode : s.head? = some PING_02) (hlen : s.length = 13) :
    (TPing.ofSubPacket s).map asSubPacket = some s := by
  obtain ⟨id, hid⟩ := @exists_u32 s 1 (by omega)
  obtain ⟨value, hvalue⟩ := @exists_u32 s 5 (by omega)
  obtain ⟨origin, horigin⟩ := @exists_u32 s 9 (by omega)
  have hall : s.take 13 = TPing.asSubPacket ⟨origin, id, value⟩ := by
    rw [take_u32 horigin, take_u32 hvalue, take_u32 hid, take_code hcode]
    rfl
  rw [List.take_of_length_le hlen.le] at hall
  simp only [ofSubPacket, hid, hvalue, horigin, Option.bind_eq_bind, Option.bind_some, Option.pure_def,
    Option.map_some, ← hall]

theorem TTeam.exists_ofSubPacket (hlen : s.length = 6) : ∃ x, TTeam.ofSubPacket s = some x := by
  obtain ⟨dpidFrom, hfrom⟩ := @exists_u32 s 1 (by omega)
  obtain ⟨teamNumber, hteam⟩ := @exists_byte s 5 (by omega)
  refine ⟨⟨dpidFrom, teamNumber⟩, ?_⟩
  rw [ofSubPacket, hfrom, hteam]
  rfl

theorem TAlliance.reencode (hcode : s.head? = some ALLY_23) (hlen : s.length = 14) :
    (TAlliance.ofSubPacket s).map asSubPacket = some s := by
  obtain ⟨dpidFrom, hfrom⟩ := @exists_u32 s 1 (by omega)
  obtain ⟨dpidTo, hto⟩ := @exists_u32 s 5 (by omega)
  obtain ⟨allied, hallied⟩ := @exists_byte s 9 (by omega)
  obtain ⟨back, hback⟩ := @exists_u32 s 10 (by omega)
  have hall : s.take 14 = TAlliance.asSubPacket ⟨dpidFrom, dpidTo, allied, back⟩ := by
    rw [take_u32 hback, take_byte hallied, take_u32 hto, take_u32 hfrom, take_code hcode]
    rfl
  rw [List.take_of_length_le hlen.le] at hall
  simp only [ofSubPacket, hfrom, hto, hallied, hback, Option.bind_eq_bind, Option.bind_some, Option.pure_def,
    Option.map_some, ← hall]

theorem TIdent3.reencode (hcode : s.head? = some IDENT3_22) (hlen : s.length = 6) :
    (TIdent3.ofSubPacket s).map asSubPacket = some s := by
  obtain ⟨dpid, hdpid⟩ := @exists_u32 s 1 (by omega)
  obtain ⟨number, hnumber⟩ := @exists_byte s 5 (by omega)
  have hall : s.take 6 = TIdent3.asSubPacket ⟨dpid, number⟩ := by
    rw [take_byte hnumber, take_u32 hdpid, take_code hcode]
    rfl
  rw [List.take_of_length_le hlen.le] at hall
  simp only [ofSubPacket, hdpid, hnumber, Option.bind_eq_bind, Option.bind_some, Option.pure_def,
    Option.map_some, ← hall]

theorem TProgress.reencode (hcode : s.head? = some LOADING_PROGRESS_2A) (hlen : s.length = 3) :
    (TProgress.ofSubPacket s).map asSubPacket = some s := by
  obtain ⟨percent, hpercent⟩ := @exists_byte s 1 (by omega)
  obtain ⟨data, hdata⟩ := @exists_byte s 2 (by omega)
  have hall : s.take 3 = TProgress.asSubPacket ⟨percent, data⟩ := by
    rw [take_byte hdata, take_byte hpercent, take_code hcode]
    rfl
  rw [List.take_of_length_le hlen.le] at hall
  simp only [ofSubPacket, hpercent, hdata, Option.bind_eq_bind, Option.bind_some, Option.pure_def,
    Option.map_some, ← hall]

theorem readDpids_spec (n : ℕ) {ptr : ℕ} (hlen : ptr + 4 * n ≤ s.length) :
    ∃ dpids, readDpids s n ptr = some dpids ∧
      s.take (ptr + 4 * n) = s.take ptr ++ dpids.flatMap (leBytes 4) := by
  induction n generalizing ptr with
  | zero => exact ⟨[], rfl, (List.append_nil _).symm⟩
  | succ n ih =>
    obtain ⟨dpid, hdpid⟩ := @exists_u32 s ptr (by omega)
    obtain ⟨rest, hrest, htake⟩ := @ih (ptr + 4) (by omega)
    refine ⟨dpid :: rest, ?_, ?_⟩
    · simp only [readDpids, hdpid, hrest, Option.bind_eq_bind, Option.bind_some, Option.pure_def]
    · rw [show ptr + 4 * (n + 1) = ptr + 4 + 4 * n by omega, htake, take_u32 hdpid, List.flatMap_cons,
        List.append_assoc]

theorem TIdent2.reencode (hcode : s.head? = some IDENT2_26) (hlen : s.length = 41) :
    (TIdent2.ofSubPacket s).map asSubPacket = some s := by
  obtain ⟨dpids, hdpids, htake⟩ := @readDpids_spec s 10 1 (by omega)
  rw [take_code hcode, List.take_of_length_le hlen.le] at htake
  rw [ofSubPacket, hdpids, Option.map_some, Option.map_some, htake]
  rfl

theorem TUnitData.reencode (hcode : s.head? = some UNIT_DATA_1A) (hlen : s.length = 14) :
    (TUnitData.ofSubPacket s).map asSubPacket = some s := by
  have hpktid : s[0]? = some UNIT_DATA_1A := by rw [← List.head?_eq_getElem?, hcode]
  obtain ⟨sub, hsub⟩ := @exists_byte s 1 (by omega)
  obtain ⟨fill, hfill⟩ := @exists_u32 s 2 (by omega)
  obtain ⟨id, hid⟩ := @exists_u32 s 6 (by omega)
  have hfront : s.take 10 = [UNIT_DATA_1A] ++ [sub] ++ leBytes 4 fill ++ leBytes 4 id := by
    rw [take_u32 hid, take_u32 hfill, take_byte hsub, take_code hcode]
  have hs : s = s.take 14 := (List.take_of_length_le hlen.le).symm
  by_cases hthree : sub = 0x03
  · obtain ⟨status, hstatus⟩ := @exists_u16 s 10 (by omega)
    obtain ⟨limit, hlimit⟩ := @exists_u16 s 12 (by omega)
    have hall : s = asSubPacket ⟨UNIT_DATA_1A, sub, fill, id, .statusAndLimit status limit⟩ := by
      rw [hs, take_u16 hlimit, take_u16 hstatus, hfront, List.append_assoc]
      rfl
    simp only [ofSubPacket, hpktid, hsub, hfill, hid, hthree, hstatus, hlimit, if_true, Option.bind_eq_bind,
      Option.bind_some, Option.pure_def, Option.map_some]
    rw [← hthree, ← hall]
  · obtain ⟨crc, hcrc⟩ := @exists_u32 s 10 (by omega)
    have hall : s = asSubPacket ⟨UNIT_DATA_1A, sub, fill, id, .crc crc⟩ := by
      rw [hs, take_u32 hcrc, hfront]
      rfl
    simp only [ofSubPacket, hpktid, hsub, hfill, hid, hthree, hcrc, if_false, Option.bind_eq_bind,
      Option.bind_some, Option.pure_def, Option.map_some, ← hall]

theorem TPlayerInfo.readFront (hlen : 170 ≤ s.length) :
    ∃ x : TPlayerInfo, s.take 170 = s.take 1 ++ x.fill1 ++ leBytes 2 x.width ++ leBytes 2 x.height ++
        [x.fill3] ++ leBytes 4 x.player1Id ++ x.data2 ++ [x.clicked] ++ x.fill2 ++ leBytes 2 x.maxUnits ++
        [x.versionMajor] ++ [x.versionMinor] ∧
      ∀ uninitialised, ofSubPacket s uninitialised = (readTail s x.player1Id uninitialised).map fun tail =>
        { x with serialisedSize := unsigned s.length, data3 := tail.1, player2Id := tail.2.1, data4 := tail.2.2 } := by
  obtain ⟨fill1, hfill1⟩ := @exists_slice s 1 139 (by omega)
  obtain ⟨width, hwidth⟩ := @exists_u16 s 140 (by omega)
  obtain ⟨height, hheight⟩ := @exists_u16 s 142 (by omega)
  obtain ⟨fill3, hfill3⟩ := @exists_byte s 144 (by omega)
  obtain ⟨player1Id, hplayer1Id⟩ := @exists_u32 s 145 (by omega)
  obtain ⟨data2, hdata2⟩ := @exists_slice s 149 7 (by omega)
  obtain ⟨clicked, hclicked⟩ := @exists_byte s 156 (by omega)
  obtain ⟨fill2, hfill2⟩ := @exists_slice s 157 9 (by omega)
  obtain ⟨maxUnits, hmaxUnits⟩ := @exists_u16 s 166 (by omega)
  obtain ⟨major, hmajor⟩ := @exists_byte s 168 (by omega)
  obtain ⟨minor, hminor⟩ := @exists_byte s 169 (by omega)
  refine ⟨⟨0, fill1, width, height, fill3, player1Id, data2, clicked, fill2, maxUnits, major, minor, [], 0, 0⟩,
    ?_, fun uninitialised => ?_⟩
  · rw [take_byte hminor, take_byte hmajor, take_u16 hmaxUnits, take_slice hfill2, take_byte hclicked,
      take_slice hdata2, take_u32 hplayer1Id, take_byte hfill3, take_u16 hheight, take_u16 hwidth,
      take_slice hfill1]
  · simp only [ofSubPacket, hfill1, hwidth, hheight, hfill3, hplayer1Id, hdata2, hclicked, hfill2, hmaxUnits,
      hmajor, hminor, Option.bind_eq_bind, Option.bind_some, Option.pure_def]
    rw [Option.map_eq_bind]
    rfl

theorem TPlayerInfo.reencode (hcode : s.head? = some PLAYER_INFO_20) (hlen : s.length = 192)
    (uninitialised : Byte) : (TPlayerInfo.ofSubPacket s uninitialised).map asSubPacket = some s := by
  obtain ⟨x, hfront, hread⟩ := readFront (s := s) (by omega)
  obtain ⟨data3, hdata3⟩ := @exists_slice s 170 17 (by omega)
  obtain ⟨player2Id, hplayer2Id⟩ := @exists_u32 s 187 (by omega)
  obtain ⟨data4, hdata4⟩ := @exists_byte s 191 (by omega)
  have hall : s.take 192 = s.take 170 ++ data3 ++ leBytes 4 player2Id ++ [data4] := by
    rw [take_byte hdata4, take_u32 hplayer2Id, take_slice hdata3]
  rw [hfront, take_code hcode] at hall
  simp only [hread, readTail, if_pos hlen, hdata3, hplayer2Id, hdata4, Option.bind_eq_bind, Option.bind_some,
    Option.pure_def, Option.map_some]
  rw [asSubPacket]
  dsimp only
  rw [← hall, hlen, List.take_take]
  exact congrArg some (List.take_of_length_le hlen.le)

theorem length_of_fixed {code : Byte} {n : ℕ} (hcode : s.head? = some code)
    (hspecial : code ∉ [ZERO_00, CHAT_05, UNIT_STAT_AND_MOVE_2C, THALDREN_EXTENDED_42, RECORDER_DATA_CONNECT_FB,
      SMARTPAK_TICK_OTHER_FD]) (hn : fixedSizes.lookup code = some n)
    (hsize : getExpectedSubPacketSize s = some s.length) : s.length = n := by
  obtain ⟨rest, rfl⟩ := List.head?_eq_some_iff.mp hcode
  simp only [List.mem_cons, List.not_mem_nil, or_false, not_or] at hspecial
  obtain ⟨hzero, hchat, hmove, hextended, hconnect, hother⟩ := hspecial
  unfold getExpectedSubPacketSize getExpectedSubPacketSizeN at hsize
  split at hsize
  · cases hsize
  · simp only [List.cons_append, List.head?_cons, Option.bind_eq_bind, Option.bind_some, if_neg hzero, if_neg hchat,
      if_neg hmove, if_neg hextended, if_neg hconnect, if_neg hother, hn] at hsize
    exact (Option.some.inj hsize).symm

end classes

/-! ### All classes -/

inductive SubPacketClass where
  | TPing
  | TUnitData
  | TPlayerInfo
  | TIdent3
  | TAlliance
  | TTeam
  | TIdent2
  | TProgress
  deriving DecidableEq

namespace SubPacketClass

def code : SubPacketClass → Byte
  | TPing => PING_02
  | TUnitData => UNIT_DATA_1A
  | TPlayerInfo => PLAYER_INFO_20
  | TIdent3 => IDENT3_22
  | TAlliance => ALLY_23
  | TTeam => TEAM_24
  | TIdent2 => IDENT2_26
  | TProgress => LOADING_PROGRESS_2A

/-- `X(s).asSubPacket()` -/
def reencode (uninitialised : Byte) (s : Bytes) : SubPacketClass → Option Bytes
  | TPing => (Tapacket.TPing.ofSubPacket s).map (·.asSubPacket)
  | TUnitData => (Tapacket.TUnitData.ofSubPacket s).map (·.asSubPacket)
  | TPlayerInfo => (Tapacket.TPlayerInfo.ofSubPacket s uninitialised).map (·.asSubPacket)
  | TIdent3 => (Tapacket.TIdent3.ofSubPacket s).map (·.asSubPacket)
  | TAlliance => (Tapacket.TAlliance.ofSubPacket s).map (·.asSubPacket)
  | TTeam => (Tapacket.TTeam.ofSubPacket s).map (·.asSubPacket)
  | TIdent2 => (Tapacket.TIdent2.ofSubPacket s).map (·.asSubPacket)
  | TProgress => (Tapacket.TProgress.ofSubPacket s).map (·.asSubPacket)

/-- The size that `getExpectedSubPacketSize` says; `TProgress` has one byte more. -/
def SizeOk (X : SubPacketClass) (s : Bytes) : Prop :=
  if X = TProgress then s.length = 3 else getExpectedSubPacketSize s = some s.length

instance (X : SubPacketClass) (s : Bytes) : Decidable (X.SizeOk s) := by
  unfold SizeOk
  infer_instance

theorem reencode_of_ne_team {X : SubPacketClass} {s : Bytes} (uninitialised : Byte) (hteam : X ≠ TTeam)
    (hcode : s.head? = some X.code) (hsize : X.SizeOk s) : X.reencode uninitialised s = some s := by
  cases X with
  | TPing => exact Tapacket.TPing.reencode hcode (length_of_fixed hcode (by decide) rfl hsize)
  | TUnitData => exact Tapacket.TUnitData.reencode hcode (length_of_fixed hcode (by decide) rfl hsize)
  | TPlayerInfo => exact Tapacket.TPlayerInfo.reencode hcode (length_of_fixed hcode (by decide) rfl hsize) _
  | TIdent3 => exact Tapacket.TIdent3.reencode hcode (length_of_fixed hcode (by decide) rfl hsize)
  | TAlliance => exact Tapacket.TAlliance.reencode hcode (length_of_fixed hcode (by decide) rfl hsize)
  | TTeam => exact absurd rfl hteam
  | TIdent2 => exact Tapacket.TIdent2.reencode hcode (length_of_fixed hcode (by decide) rfl hsize)
  | TProgress => exact Tapacket.TProgress.reencode hcode hsize

/-- All classes read inside the packet, and all but `TTeam` write the same bytes again. -/
theorem reencode_eq {X : SubPacketClass} {s : Bytes} (uninitialised : Byte) (hcode : s.head? = some X.code)
    (hsize : X.SizeOk s) : ∃ bs, X.reencode uninitialised s = some bs ∧ (X ≠ TTeam → bs = s) := by
  by_cases hteam : X = TTeam
  · subst hteam
    obtain ⟨x, hx⟩ := Tapacket.TTeam.exists_ofSubPacket (length_of_fixed hcode (by decide) rfl hsize)
    exact ⟨x.asSubPacket, congrArg (Option.map Tapacket.TTeam.asSubPacket) hx, fun h => absurd rfl h⟩
  · exact ⟨s, reencode_of_ne_team uninitialised hteam hcode hsize, fun _ => rfl⟩

theorem reencode_alliance :
    reencode 0 [0x23, 1, 0, 0, 0, 2, 0, 0, 0, 1, 1, 0, 0, 0] .TAlliance =
      some [0x23, 1, 0, 0, 0, 2, 0, 0, 0, 1, 1, 0, 0, 0] := by
  obtain ⟨bs, hbs, hsame⟩ := reencode_eq (X := TAlliance) (s := [0x23, 1, 0, 0, 0, 2, 0, 0, 0, 1, 1, 0, 0, 0]) 0
    (by decide) (by decide)
  rw [hbs, hsame (by decide)]

/-- Two bytes are too short for `TProgress`, and `TTeam` writes the code of an alliance. -/
theorem not_reencoded :
    getExpectedSubPacketSize [0x2a, 50] = some 2 ∧ reencode 0 [0x2a, 50] .TProgress = none ∧
    getExpectedSubPacketSize [0x24, 1, 0, 0, 0, 5] = some 6 ∧
    reencode 0 [0x24, 1, 0, 0, 0, 5] .TTeam = some [0x23, 1, 0, 0, 0, 5] ∧
    ¬ ∀ (X : SubPacketClass) (s : Bytes) (uninitialised : Byte), s.head? = some X.code →
      getExpectedSubPacketSize s = some s.length → X.reencode uninitialised s = some s :=
  ⟨by decide, by decide, by decide, by decide, fun h => absurd (h TProgress [0x2a, 50] 0 rfl (by decide)) (by decide)⟩

end SubPacketClass

end Gpgnet4TA.Tapacket
