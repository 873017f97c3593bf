import Gpgnet4TA.Lib.Patch

/-!
# DirectPlay messages (`DPlayPacket.h`, `DPlayPacket.cpp`)

A message is the list of the bytes from its header to the end of the buffer; a read that
leaves the buffer has no result. A header has 28 bytes: size and token at 0, an address at 4,
the action string at 20, the command at 24 and the dialect at 26.
-/

namespace Gpgnet4TA.Tapacket
open Gpgnet4TA.Lib

/-! ### Addresses -/

/-- What is read and written of the 16 bytes of an address: the port at 2 and the IPv4 address
at 4, both in network byte order. The family at 0 and the padding at 8 stay. -/
structure DPAddress where
  address : ℕ
  port : ℕ
  deriving DecidableEq

def beBytes (n x : ℕ) : Bytes := (leBytes n x).reverse

def beVal (bs : Bytes) : ℕ := leVal bs.reverse

/-- `sizeof(DPAddress)`. -/
def sizeofDPAddress : ℕ := 16

def readAddress (buf : Bytes) (ofs : ℕ) : Option DPAddress := do
  let port ← sliceAt buf (ofs + 2) 2
  let ipv4 ← sliceAt buf (ofs + 4) 4
  return ⟨beVal ipv4, beVal port⟩

def writeAddress (buf : Bytes) (ofs : ℕ) (a : DPAddress) : Option Bytes :=
  writeAt buf (ofs + 2) (beBytes 2 a.port ++ beBytes 4 a.address)

theorem length_beBytes (n x : ℕ) : (beBytes n x).length = n := by
  rw [beBytes, List.length_reverse, length_leBytes]

theorem beVal_beBytes {n x : ℕ} (hx : x < 256 ^ n) : beVal (beBytes n x) = x := by
  rw [beVal, beBytes, List.reverse_reverse, leVal_leBytes, Nat.mod_eq_of_lt hx]

theorem beVal_inj {a b : Bytes} (hlen : a.length = b.length) (h : beVal a = beVal b) : a = b := by
  have ha := leBytes_leVal a.reverse
  have hb := leBytes_leVal b.reverse
  rw [List.length_reverse] at ha hb
  unfold beVal at h
  rw [h, hlen, hb] at ha
  exact List.reverse_injective ha.symm

section address

variable {buf buf' : Bytes} {ofs : ℕ} {a : DPAddress}

theorem readAddress_inv (h : readAddress buf ofs = some a) :
    ∃ port ipv4, sliceAt buf (ofs + 2) 2 = some port ∧ sliceAt buf (ofs + 4) 4 = some ipv4 ∧
      a = ⟨beVal ipv4, beVal port⟩ := by
  obtain ⟨port, hport, h⟩ := Option.bind_eq_some_iff.mp h
  obtain ⟨ipv4, hipv4, h⟩ := Option.bind_eq_some_iff.mp h
  cases h
  exact ⟨port, ipv4, hport, hipv4, rfl⟩

theorem readAddress_of (h : ofs + 8 ≤ buf.length) : ∃ a, readAddress buf ofs = some a := by
  refine ⟨⟨beVal ((buf.drop (ofs + 4)).take 4), beVal ((buf.drop (ofs + 2)).take 2)⟩, ?_⟩
  rw [readAddress, sliceAt_eq_some.mpr ⟨by omega, rfl⟩, sliceAt_eq_some.mpr ⟨by omega, rfl⟩]
  rfl

theorem port_lt_of_readAddress (h : readAddress buf ofs = some a) : a.port < 2 ^ 16 := by
  obtain ⟨port, ipv4, hport, -, rfl⟩ := readAddress_inv h
  have hlt := leVal_lt port.reverse
  rw [List.length_reverse, length_of_sliceAt hport] at hlt
  exact lt_of_lt_of_le hlt (by norm_num)

theorem readAddress_agree {W : ℕ → Prop} (hb : AgreesOutside W buf buf')
    (h : readAddress buf ofs = some a) (havoid : ∀ i, ofs + 2 ≤ i → i < ofs + 8 → ¬ W i) :
    readAddress buf' ofs = some a := by
  obtain ⟨port, ipv4, hport, hipv4, rfl⟩ := readAddress_inv h
  have hr1 := hb.sliceAt hport fun i hi hi' => havoid i hi (by omega)
  have hr2 := hb.sliceAt hipv4 fun i hi hi' => havoid i (by omega) (by omega)
  rw [readAddress, hr1, hr2]
  rfl

/-- An address and a port determine the bytes that they are read from. -/
theorem readAddress_bytes (h : readAddress buf ofs = some a) (h' : readAddress buf' ofs = some a) {i : ℕ}
    (hi : Range (ofs + 2) 6 i) : buf[i]? = buf'[i]? := by
  obtain ⟨port, ipv4, hport, hipv4, heq⟩ := readAddress_inv h
  obtain ⟨port', ipv4', hport', hipv4', heq'⟩ := readAddress_inv h'
  rw [heq] at heq'
  have hp : port = port' :=
    beVal_inj (by rw [length_of_sliceAt hport, length_of_sliceAt hport']) (congrArg DPAddress.port heq')
  have ha : ipv4 = ipv4' :=
    beVal_inj (by rw [length_of_sliceAt hipv4, length_of_sliceAt hipv4']) (congrArg DPAddress.address heq')
  obtain ⟨hge, hlt⟩ := hi
  by_cases hsplit : i < ofs + 4
  · obtain ⟨j, rfl⟩ : ∃ j, i = ofs + 2 + j := ⟨i - (ofs + 2), by omega⟩
    rw [getElem?_of_sliceAt hport (by omega), getElem?_of_sliceAt hport' (by omega), hp]
  · obtain ⟨j, rfl⟩ : ∃ j, i = ofs + 4 + j := ⟨i - (ofs + 4), by omega⟩
    rw [getElem?_of_sliceAt hipv4 (by omega), getElem?_of_sliceAt hipv4' (by omega), ha]

theorem readAddress_prefix {more : Bytes} (hle : ofs + 8 ≤ buf.length)
    (h : readAddress (buf ++ more) ofs = some a) : readAddress buf ofs = some a := by
  obtain ⟨a', ha'⟩ := readAddress_of hle
  have hr := readAddress_agree ((SameOutside.refl (fun _ => False) buf).append more).agrees ha'
    fun _ _ _ hno => hno
  rw [ha', ← hr, h]

theorem writeAddress_of (h : ofs + 8 ≤ buf.length) (a : DPAddress) :
    ∃ buf', writeAddress buf ofs a = some buf' := by
  refine ⟨_, writeAt_some ?_⟩
  rw [List.length_append, length_beBytes, length_beBytes]
  omega

theorem writeAddress_same (h : writeAddress buf ofs a = some buf') :
    SameOutside (Range (ofs + 2) 6) buf buf' := by
  have hs := writeAt_same h
  rwa [List.length_append, length_beBytes, length_beBytes] at hs

theorem writeAddress_read (h : writeAddress buf ofs a = some buf') (haddress : a.address < 2 ^ 32)
    (hport : a.port < 2 ^ 16) : readAddress buf' ofs = some a := by
  have hread := writeAt_read h
  rw [List.length_append, length_beBytes, length_beBytes] at hread
  obtain ⟨hle, heq⟩ := sliceAt_eq_some.mp hread
  have hr1 : sliceAt buf' (ofs + 2) 2 = some (beBytes 2 a.port) := by
    refine sliceAt_eq_some.mpr ⟨by omega, ?_⟩
    have htake := congrArg (List.take 2) heq
    rw [List.take_left' (length_beBytes ..), List.take_take] at htake
    exact htake
  have hr2 : sliceAt buf' (ofs + 4) 4 = some (beBytes 4 a.address) := by
    refine sliceAt_eq_some.mpr ⟨by omega, ?_⟩
    have hdrop := congrArg (List.drop 2) heq
    rw [List.drop_left' (length_beBytes ..), List.drop_take, List.drop_drop] at hdrop
    exact hdrop
  rw [readAddress, hr1, hr2]
  show some (DPAddress.mk (beVal (beBytes 4 a.address)) (beVal (beBytes 2 a.port))) = some a
  rw [beVal_beBytes haddress, beVal_beBytes hport]

end address

/-! ### The header -/

/-- `sizeof(DPHeader)`. -/
def sizeofDPHeader : ℕ := 28

namespace DPHeader

def size (hdr : Bytes) : Option ℕ := (u32At hdr 0).map (· % 2 ^ 20)

def token (hdr : Bytes) : Option ℕ := (u32At hdr 0).map (· / 2 ^ 20)

def actionstring (hdr : Bytes) : Option Bytes := sliceAt hdr 20 4

def command (hdr : Bytes) : Option ℕ := u16At hdr 24

def looksOk (hdr : Bytes) : Option Bool := do
  let family ← u16At hdr 4
  if family ≠ 2 then return false
  else
    let token ← token hdr
    let size ← size hdr
    return (token = 0xfab ∨ token = 0xcab ∨ token = 0xbab) ∧ sizeofDPHeader ≤ size

end DPHeader

/-- `"play"`. -/
def playString : Bytes := [0x70, 0x6c, 0x61, 0x79]

/-! ### Wide strings -/

/-- The low bytes of the characters up to the zero, and the pointer behind the zero. -/
def cwStrLoop (buf : Bytes) : ℕ → ℕ → Option (Bytes × ℕ)
  | 0, _ => none
  | fuel + 1, p => do
    let c ← u16At buf p
    if c = 0 then return ([], p + 2)
    else
      let (s, p) ← cwStrLoop buf fuel (p + 2)
      return (UInt8.ofNat (c % 256) :: s, p)

def cwStr (buf : Bytes) (p : ℕ) : Option (Bytes × ℕ) := cwStrLoop buf (buf.length + 1) p

def skipCWStr (buf : Bytes) (p : ℕ) : Option ℕ := (cwStr buf p).map (·.2)

def getCWStr (buf : Bytes) (p : ℕ) : Option Bytes := (cwStr buf p).map (·.1)

/-! ### The players of a super enum reply

`GameAddressTranslater.cpp:137-181` and `TAPacketParser.cpp:121-164` go through a packed player
in the same way; the latter keeps the name. -/

/-- Behind data whose length takes one or two bytes, or is not there. -/
def skipPlayerData (buf : Bytes) (playerDataLengthBytes ptr : ℕ) : Option ℕ :=
  if playerDataLengthBytes = 1 then (sliceAt buf ptr 1).map fun len => ptr + 1 + leVal len
  else if playerDataLengthBytes = 2 then (u16At buf ptr).map fun len => ptr + 2 + len
  else some ptr

/-- The service provider's data are the addresses; only the field with their length is skipped. -/
def skipServiceProvideLength (serviceProvideDataLengthBytes ptr : ℕ) : ℕ :=
  if serviceProvideDataLengthBytes = 1 then ptr + 1
  else if serviceProvideDataLengthBytes = 2 then ptr + 2
  else ptr

/-- A name, if there is one. -/
def optionalName (buf : Bytes) (present : Bool) (name : Bytes) (ptr : ℕ) : Option (Bytes × ℕ) :=
  if present then cwStr buf ptr else some (name, ptr)

/-- The name of the packed player at `player`, and where its two addresses are. -/
def superPackedPlayer (buf : Bytes) (player : ℕ) : Option (Bytes × ℕ) := do
  let size ← u32At buf player
  let info ← u32At buf (player + 12)
  -- behind the fixed part comes systemPlayerIdOrDirectPlayVersion
  let ptr := player + size + 4
  let (name, ptr) ← optionalName buf (info % 2 = 1) [] ptr
  let (name, ptr) ← optionalName buf (info / 2 % 2 = 1) name ptr
  let ptr ← skipPlayerData buf (info / 16 % 4) ptr
  return (name, skipServiceProvideLength (info / 4 % 4) ptr)

end Gpgnet4TA.Tapacket
