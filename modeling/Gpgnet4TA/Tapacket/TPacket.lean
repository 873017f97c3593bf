import Gpgnet4TA.Lib.Bytes

/-!
# Packet compression (`TPacket.cpp:54-205`)

`compress` works with indices that start at 1 and have 32 bits; `none` says that
its loop does not end. `decompress` reads bytes that need not be there; `none` says
that a read leaves the buffer.
-/

namespace Gpgnet4TA.Tapacket
open Gpgnet4TA.Lib

/-- `++` and `+=` on an `unsigned`. -/
def unsigned (n : ℕ) : ℕ := n % 2 ^ 32

/-- `n - 1u`. -/
def unsignedPred (n : ℕ) : ℕ := (n + (2 ^ 32 - 1)) % 2 ^ 32

theorem unsigned_of_lt {n : ℕ} (h : n < 2 ^ 32) : unsigned n = n := Nat.mod_eq_of_lt h

theorem unsignedPred_of_pos {n : ℕ} (h0 : 0 < n) (h : n < 2 ^ 32) : unsignedPred n = n - 1 := by
  unfold unsignedPred
  omega

/-- `data[i]`; the string ends with a zero. -/
def byteAt (data : Bytes) (i : ℕ) : Byte := data.getD i 0

/-- `result[i] |= x`. -/
def orAt (result : Bytes) (i : ℕ) (x : ℕ) : Bytes := result.modify i (· ||| UInt8.ofNat x)

/-! ### Compression -/

/-- How far the bytes at `a` agree with those at `index`, without overlap. -/
def matchLoop (data : Bytes) (index a : ℕ) : ℕ → ℕ → ℕ
  | 0, cmatchl => cmatchl
  | fuel + 1, cmatchl =>
    if a + cmatchl < index ∧ index + cmatchl < data.length ∧
        data[a + cmatchl - 1]? = data[index + cmatchl - 1]? then
      matchLoop data index a fuel (cmatchl + 1)
    else cmatchl

/-- The search for a match: its length and where it starts. -/
def searchLoop (data : Bytes) (index : ℕ) : ℕ → ℕ → ℕ × ℕ → ℕ × ℕ
  | 0, _, best => best
  | fuel + 1, a, best =>
    if a < index - 1 then
      let cmatchl := matchLoop data index a index 0
      if best.1 < cmatchl then
        if 17 < cmatchl then (cmatchl, a) else searchLoop data index fuel (a + 1) (cmatchl, a)
      else searchLoop data index fuel (a + 1) best
    else best

/-- How far the byte before `index` is repeated. -/
def runLoop (data : Bytes) (index : ℕ) : ℕ → ℕ → ℕ
  | 0, cmatchl => cmatchl
  | fuel + 1, cmatchl =>
    if index + cmatchl < data.length ∧ data[index + cmatchl - 1]? = data[index - 2]? then
      runLoop data index fuel (cmatchl + 1)
    else cmatchl

def findMatch (data : Bytes) (index : ℕ) : ℕ × ℕ :=
  let best := searchLoop data index index 4 (2, 0)
  let cmatchl := runLoop data index data.length 0
  if best.1 < cmatchl then (cmatchl, index - 1) else best

structure CompressState where
  index : ℕ
  count : ℕ
  cbf : ℕ
  result : Bytes

def CompressState.init : CompressState := ⟨4, 7, 0, []⟩

/-- The head of the loop body: a new flag byte for every eighth item. -/
def CompressState.openItem (s : CompressState) : CompressState :=
  if s.count = 7 then
    { s with count := 0, cbf := unsigned (s.result.length + 1), result := s.result ++ [0] }
  else { s with count := s.count + 1 }

def CompressState.literal (data : Bytes) (s : CompressState) : CompressState :=
  { s with
    index := unsigned (s.index + 1)
    result := s.result ++ [byteAt data (unsignedPred s.index)] }

def CompressState.reference (s : CompressState) (matchl start : ℕ) : CompressState :=
  let result := orAt s.result (unsignedPred s.cbf) (1 <<< s.count)
  let matchl := (matchl - 2) % 16
  let kommando := (start - 3) * 16 + matchl
  { s with
    index := unsigned (s.index + matchl + 2)
    result := result ++ leBytes 2 kommando }

def compressStep (data : Bytes) (s : CompressState) : CompressState :=
  let s := s.openItem
  if s.index < 6 ∨ 2000 < s.index then s.literal data
  else
    let (matchl, start) := findMatch data s.index
    if 2 < matchl then s.reference matchl start else s.literal data

def compressLoop (data : Bytes) : ℕ → CompressState → Option CompressState
  | 0, _ => none
  | fuel + 1, s =>
    if s.index < data.length + 1 then compressLoop data fuel (compressStep data s) else some s

/-- The end marker, and the choice between the compressed and the plain packet. -/
def compressFinish (data : Bytes) (s : CompressState) : Bytes :=
  let result := if s.count = 7 then s.result ++ [0xff]
    else orAt s.result (unsignedPred s.cbf) (0xff <<< (s.count + 1))
  let result := result ++ [0, 0]
  if result.length + 3 < data.length then 0x04 :: byteAt data 1 :: byteAt data 2 :: result
  else data.set 0 0x03

def compress (data : Bytes) : Option Bytes :=
  (compressLoop data (data.length + 1) .init).map (compressFinish data)

/-! ### Decompression -/

/-- The copy loop: `b` runs from `a`. -/
def copyLoop : ℕ → ℕ → Bytes → Bytes
  | 0, _, result => result
  | n + 1, b, result =>
    copyLoop n (b + 1) (result ++ [if b ≤ result.length then result.getD (b - 1) 0 else 0])

/-- What a group of items leads to: the end of the packet, or the next group. -/
inductive ItemsResult where
  | done (result : Bytes)
  | next (index : ℕ) (result : Bytes)

/-- The items of a group from the `nump`-th on (`fuel` is `8 - nump`). -/
def decompressItems (data : Bytes) (len headerSize cbf : ℕ) :
    ℕ → ℕ → ℕ → Bytes → Option ItemsResult
  | 0, _, index, result => some (.next index result)
  | fuel + 1, nump, index, result =>
    if len ≤ index then some (.done (result.set 0 0x04))
    else if (cbf >>> nump) % 2 = 0 then
      decompressItems data len headerSize cbf fuel (nump + 1) (index + 1)
        (result ++ [data.getD index 0])
    else
      match u16At data index with
      | none => none
      | some uop =>
        if uop / 16 = 0 then some (.done result)
        else decompressItems data len headerSize cbf fuel (nump + 1) (index + 2)
          (copyLoop (uop % 16 + 2) (uop / 16 + headerSize) result)

def decompressLoop (data : Bytes) (len headerSize : ℕ) : ℕ → ℕ → Bytes → Option Bytes
  | 0, _, _ => none
  | fuel + 1, index, result =>
    if index < len then
      match decompressItems data len headerSize (data.getD index 0).toNat 8 0 (index + 1) result with
      | none => none
      | some (.done result) => some result
      | some (.next index result) => decompressLoop data len headerSize fuel index result
    else some result

def decompressN (data : Bytes) (len headerSize : ℕ) : Option Bytes :=
  match data.head?, sliceAt data 0 headerSize with
  | none, _ => none
  | some head, header =>
    if head ≠ 0x04 then some (data.take len)
    else header.bind fun header =>
      decompressLoop data len headerSize (len + 1) headerSize (header.set 0 0x03)

/-- `decompress(data.data(), data.size(), headerSize)`: the buffer of a string ends with a zero. -/
def decompress (data : Bytes) (headerSize : ℕ) : Option Bytes :=
  decompressN (data ++ [0]) (unsigned data.length) headerSize

end Gpgnet4TA.Tapacket
