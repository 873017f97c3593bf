import Gpgnet4TA.Tapacket.Compression
import Gpgnet4TA.Tapacket.SubPackets

/-!
# Packets on the wire (`TPacket.cpp:16-52`, `569-575`)

A packet is packed, compressed and encrypted. The checksum is written over two bytes of the
header that compression only copies, so the packet that comes back is the one that was sent
with another header.
-/

namespace Gpgnet4TA.Tapacket
open Gpgnet4TA.Lib

def encryptLoop : ℕ → ℕ → ℕ → Bytes → Bytes × ℕ
  | 0, _, check, data => (data, check)
  | n + 1, i, check, data =>
    let data := data.modify i (· ^^^ UInt8.ofNat i)
    encryptLoop n (i + 1) ((check + (byteAt data i).toNat) % 2 ^ 16) data

def encrypt (data : Bytes) : Bytes :=
  if data.length < 4 then data ++ [0x06]
  else
    let (data, check) := encryptLoop (data.length - 3 - 3) 3 0 data
    (data.set 1 (UInt8.ofNat (check % 256))).set 2 (UInt8.ofNat (check / 256))

def trivialSmartpak (subpacket : Bytes) (tcpseq : ℕ) : Bytes :=
  [0x03, 0x00, 0x00] ++ leBytes 4 tcpseq ++ subpacket

/-! ### The cipher -/

/-- Every byte with its own key. -/
def cipher (xorKey : Byte) : Bytes → Bytes
  | [] => []
  | b :: bs => (b ^^^ xorKey) :: cipher (xorKey + 1) bs

def byteSum (bs : Bytes) : ℕ := (bs.map UInt8.toNat).sum

theorem length_cipher (xorKey : Byte) (bs : Bytes) : (cipher xorKey bs).length = bs.length := by
  induction bs generalizing xorKey with
  | nil => rfl
  | cons b bs ih => simp only [cipher, List.length_cons, ih]

theorem cipher_cipher (xorKey : Byte) (bs : Bytes) : cipher xorKey (cipher xorKey bs) = bs := by
  induction bs generalizing xorKey with
  | nil => rfl
  | cons b bs ih => simp only [cipher, ih, UInt8.xor_assoc, UInt8.xor_self, UInt8.xor_zero]

theorem modify_length (pre post : Bytes) (b : Byte) (f : Byte → Byte) :
    (pre ++ b :: post).modify pre.length f = pre ++ f b :: post := by
  rw [List.modify_eq_take_drop]
  simp

theorem byteAt_length (pre post : Bytes) (b : Byte) : byteAt (pre ++ b :: post) pre.length = b := by
  simp [byteAt, List.getD_eq_getElem?_getD]

theorem encryptLoop_eq (mid : Bytes) (pre post : Bytes) {check : ℕ} (hcheck : check < 2 ^ 16) :
    encryptLoop mid.length pre.length check (pre ++ mid ++ post) =
      (pre ++ cipher (UInt8.ofNat pre.length) mid ++ post,
        (check + byteSum (cipher (UInt8.ofNat pre.length) mid)) % 2 ^ 16) := by
  induction mid generalizing pre check with
  | nil =>
    simp only [List.length_nil, encryptLoop, cipher, byteSum, List.map_nil, List.sum_nil, Nat.add_zero,
      Nat.mod_eq_of_lt hcheck]
  | cons b mid ih =>
    have hpre : (pre ++ [b ^^^ UInt8.ofNat pre.length]).length = pre.length + 1 := by simp
    have hkey : UInt8.ofNat (pre.length + 1) = UInt8.ofNat pre.length + 1 := by
      rw [UInt8.ofNat_add]
      rfl
    have h := ih (pre ++ [b ^^^ UInt8.ofNat pre.length])
      (Nat.mod_lt (check + (b ^^^ UInt8.ofNat pre.length).toNat) (by omega))
    rw [hpre, hkey] at h
    simp only [List.append_assoc, List.cons_append, List.nil_append] at h
    simp only [List.length_cons, encryptLoop, List.append_assoc, List.cons_append, modify_length,
      byteAt_length, h, cipher, byteSum, List.map_cons, List.sum_cons]
    congr 1
    omega

theorem decryptLoop_eq (mid : Bytes) (pre post : Bytes) (xorKey : Byte) {check : ℕ}
    (hcheck : check < 2 ^ 16) :
    decryptLoop mid.length pre.length xorKey check (pre ++ mid ++ post) =
      (pre ++ cipher xorKey mid ++ post, (check + byteSum mid) % 2 ^ 16) := by
  induction mid generalizing pre check xorKey with
  | nil =>
    simp only [List.length_nil, decryptLoop, cipher, byteSum, List.map_nil, List.sum_nil, Nat.add_zero,
      Nat.mod_eq_of_lt hcheck]
  | cons b mid ih =>
    have hpre : (pre ++ [b ^^^ xorKey]).length = pre.length + 1 := by simp
    have h := ih (pre ++ [b ^^^ xorKey]) (xorKey + 1) (Nat.mod_lt (check + b.toNat) (by omega))
    rw [hpre] at h
    simp only [List.append_assoc, List.cons_append, List.nil_append] at h
    simp only [List.length_cons, decryptLoop, List.append_assoc, List.cons_append, modify_length,
      byteAt_length, h, cipher, byteSum, List.map_cons, List.sum_cons]
    congr 1
    omega

/-! ### Encryption and decryption -/

section encryption

variable {x d1 d2 : Byte} {rest : Bytes}

/-- The checksum that `encrypt` writes. -/
def checksum (rest : Bytes) : ℕ := byteSum (cipher 3 (rest.take (rest.length - 3))) % 2 ^ 16

theorem encrypt_eq (hrest : rest ≠ []) :
    encrypt (x :: d1 :: d2 :: rest) = x :: UInt8.ofNat (checksum rest % 256) ::
      UInt8.ofNat (checksum rest / 256) ::
      (cipher 3 (rest.take (rest.length - 3)) ++ rest.drop (rest.length - 3)) := by
  have hlen : 0 < rest.length := List.length_pos_iff.mpr hrest
  have hloop := encryptLoop_eq (rest.take (rest.length - 3)) [x, d1, d2] (rest.drop (rest.length - 3))
    (by omega : 0 < 2 ^ 16)
  have hcount : (x :: d1 :: d2 :: rest).length - 3 - 3 = (rest.take (rest.length - 3)).length := by
    simp only [List.length_cons, List.length_take]
    omega
  have hdata : x :: d1 :: d2 :: rest =
      [x, d1, d2] ++ rest.take (rest.length - 3) ++ rest.drop (rest.length - 3) := by
    simp
  unfold encrypt
  rw [if_neg (by simp only [List.length_cons]; omega), hcount, hdata]
  simp only [List.length_cons, List.length_nil, Nat.zero_add] at hloop
  simp only [hloop]
  rfl

theorem decrypt_eq (pre : Bytes) (hrest : rest ≠ []) :
    decrypt (pre ++ x :: d1 :: d2 :: rest) pre.length =
      (pre ++ x :: d1 :: d2 :: (cipher 3 (rest.take (rest.length - 3)) ++ rest.drop (rest.length - 3)),
        some (leVal [d1, d2], byteSum (rest.take (rest.length - 3)) % 2 ^ 16)) := by
  have hlen : 0 < rest.length := List.length_pos_iff.mpr hrest
  have hloop := decryptLoop_eq (rest.take (rest.length - 3)) (pre ++ [x, d1, d2])
    (rest.drop (rest.length - 3)) 3 (by omega : 0 < 2 ^ 16)
  have hcount : (pre ++ x :: d1 :: d2 :: rest).length - 3 - (pre.length + 3) =
      (rest.take (rest.length - 3)).length := by
    simp only [List.length_append, List.length_cons, List.length_take]
    omega
  have hdata : pre ++ x :: d1 :: d2 :: rest =
      pre ++ [x, d1, d2] ++ rest.take (rest.length - 3) ++ rest.drop (rest.length - 3) := by
    simp
  have h1 : byteAt (pre ++ x :: d1 :: d2 :: rest) (pre.length + 1) = d1 := by
    simp [byteAt, List.getD_eq_getElem?_getD]
  have h2 : byteAt (pre ++ x :: d1 :: d2 :: rest) (pre.length + 2) = d2 := by
    simp [byteAt, List.getD_eq_getElem?_getD]
  unfold decrypt
  rw [if_neg (by simp only [List.length_append, List.length_cons]; omega), hcount, h1, h2, hdata]
  have hpre : (pre ++ [x, d1, d2]).length = pre.length + 3 := by simp
  rw [hpre, Nat.zero_add] at hloop
  simp only [hloop]
  simp only [List.append_assoc, List.cons_append, List.nil_append]

/-- Decryption undoes encryption but for the two bytes of the checksum. -/
theorem decrypt_encrypt (pre : Bytes) (hrest : rest ≠ []) :
    decrypt (pre ++ encrypt (x :: d1 :: d2 :: rest)) pre.length =
      (pre ++ x :: UInt8.ofNat (checksum rest % 256) :: UInt8.ofNat (checksum rest / 256) :: rest,
        some (checksum rest, checksum rest)) := by
  obtain ⟨body, hbody⟩ : ∃ body, cipher 3 (rest.take (rest.length - 3)) ++ rest.drop (rest.length - 3) =
    body := ⟨_, rfl⟩
  have hlenc : (cipher 3 (rest.take (rest.length - 3))).length = rest.length - 3 := by
    rw [length_cipher, List.length_take]
    omega
  have hlen : body.length = rest.length := by
    rw [← hbody, List.length_append, hlenc, List.length_drop]
    omega
  have htake : body.take (body.length - 3) = cipher 3 (rest.take (rest.length - 3)) := by
    rw [hlen, ← hbody, List.take_left' hlenc]
  have hdrop : body.drop (body.length - 3) = rest.drop (rest.length - 3) := by
    rw [hlen, ← hbody, List.drop_left' hlenc]
  have hval : leVal [UInt8.ofNat (checksum rest % 256), UInt8.ofNat (checksum rest / 256)] =
      checksum rest := by
    have hlt : checksum rest < 2 ^ 16 := Nat.mod_lt _ (by omega)
    simp only [leVal, UInt8.toNat_ofNat']
    omega
  rw [encrypt_eq hrest, hbody, decrypt_eq pre ?_, htake, hdrop, cipher_cipher, List.take_append_drop,
    hval]
  · rfl
  · intro hnil
    rw [hnil] at hlen
    exact hrest (List.eq_nil_of_length_eq_zero hlen.symm)

end encryption

/-! ### Compression does not look at the header -/

section header

variable {data data' : Bytes} (hlen : data.length = data'.length)
  (hsame : ∀ i, 3 ≤ i → data[i]? = data'[i]?)
include hlen hsame

theorem matchLoop_congr {index a : ℕ} (hindex : 4 ≤ index) (ha : 4 ≤ a) (fuel cmatchl : ℕ) :
    matchLoop data index a fuel cmatchl = matchLoop data' index a fuel cmatchl := by
  induction fuel generalizing cmatchl with
  | zero => rfl
  | succ fuel ih =>
    simp only [matchLoop, hlen, hsame (a + cmatchl - 1) (by omega),
      hsame (index + cmatchl - 1) (by omega), ih]

theorem searchLoop_congr {index : ℕ} (hindex : 4 ≤ index) (fuel a : ℕ) (ha : 4 ≤ a) (best : ℕ × ℕ) :
    searchLoop data index fuel a best = searchLoop data' index fuel a best := by
  induction fuel generalizing a best with
  | zero => rfl
  | succ fuel ih =>
    simp only [searchLoop, matchLoop_congr hlen hsame hindex ha, ih (a + 1) (by omega)]

theorem runLoop_congr {index : ℕ} (hindex : 5 ≤ index) (fuel cmatchl : ℕ) :
    runLoop data index fuel cmatchl = runLoop data' index fuel cmatchl := by
  induction fuel generalizing cmatchl with
  | zero => rfl
  | succ fuel ih =>
    simp only [runLoop, hlen, hsame (index + cmatchl - 1) (by omega), hsame (index - 2) (by omega), ih]

omit hlen in
theorem literal_congr {s : CompressState} (hlow : 4 ≤ s.index) (hhigh : s.index < 2 ^ 32) :
    s.literal data = s.literal data' := by
  have hbyte : byteAt data (unsignedPred s.index) = byteAt data' (unsignedPred s.index) := by
    rw [unsignedPred_of_pos (by omega) hhigh, byteAt, byteAt, List.getD_eq_getElem?_getD,
      List.getD_eq_getElem?_getD, hsame _ (by omega)]
  rw [CompressState.literal, CompressState.literal, hbyte]

theorem compressStep_congr {s : CompressState} (hlow : 4 ≤ s.index) (hhigh : s.index < 2 ^ 32) :
    compressStep data s = compressStep data' s := by
  have hindex := openItem_index s
  have hliteral := literal_congr hsame (s := s.openItem) (by omega) (by omega)
  simp only [compressStep, hliteral]
  split
  · rfl
  · rename_i hrange
    have hfind : findMatch data s.openItem.index = findMatch data' s.openItem.index := by
      simp only [findMatch, hlen, searchLoop_congr hlen hsame (by omega : 4 ≤ s.openItem.index) _ 4 le_rfl,
        runLoop_congr hlen hsame (by omega : 5 ≤ s.openItem.index)]
    rw [hfind]

theorem compressLoop_congr (hn : data.length + 1 < 2 ^ 32) (fuel : ℕ) {s : CompressState}
    {ts : List (Lzss.Token Byte)} (h : CompressInv data s ts) :
    compressLoop data fuel s = compressLoop data' fuel s := by
  induction fuel generalizing s ts with
  | zero => rfl
  | succ fuel ih =>
    have hlow := h.low
    have hhigh := h.high
    simp only [compressLoop, ← hlen]
    split
    · rename_i hlt
      obtain ⟨t, hinv, -⟩ := compressStep_inv hn h hlt
      rw [ih hinv, compressStep_congr hlen hsame hlow (by omega)]
    · rfl

end header

theorem compressFinish_eq (s : CompressState) :
    ∃ r, r ≠ [] ∧ ∀ data, compressFinish data s =
      if r.length + 3 < data.length then 0x04 :: byteAt data 1 :: byteAt data 2 :: r else data.set 0 0x03 := by
  refine ⟨_, ?_, fun data => rfl⟩
  simp

/-- Another header gives the same compressed packet with that header. -/
theorem compress_header {d1 d2 : Byte} {rest c : Bytes} (hrest : rest ≠ [])
    (hmax : rest.length + 4 < 2 ^ 32) (h : compress (0x03 :: d1 :: d2 :: rest) = some c) :
    ∃ x r, r ≠ [] ∧ c = x :: d1 :: d2 :: r ∧
      ∀ e1 e2, compress (0x03 :: e1 :: e2 :: rest) = some (x :: e1 :: e2 :: r) := by
  have hlen : ∀ e1 e2 : Byte, (0x03 :: e1 :: e2 :: rest : Bytes).length = rest.length + 3 := fun _ _ => rfl
  have hinv : CompressInv (0x03 :: d1 :: d2 :: rest) .init [] :=
    compressInv_init (by rw [hlen]; omega)
  have hloop : ∀ e1 e2, compressLoop (0x03 :: d1 :: d2 :: rest) (rest.length + 3 + 1) .init =
      compressLoop (0x03 :: e1 :: e2 :: rest) (rest.length + 3 + 1) .init := by
    intro e1 e2
    refine compressLoop_congr (by rw [hlen, hlen]) ?_ (by rw [hlen]; omega) _ hinv
    intro i hi
    obtain ⟨j, rfl⟩ := Nat.exists_eq_add_of_le' hi
    simp only [List.getElem?_cons_succ]
  obtain ⟨s, hs, rfl⟩ := Option.map_eq_some_iff.mp h
  rw [hlen] at hs
  have hother : ∀ e1 e2, compress (0x03 :: e1 :: e2 :: rest) =
      some (compressFinish (0x03 :: e1 :: e2 :: rest) s) := by
    intro e1 e2
    rw [compress, hlen, ← hloop, hs, Option.map_some]
  obtain ⟨r, hr, hfinish⟩ := compressFinish_eq s
  by_cases hshort : r.length + 3 < rest.length + 3
  · have hlong : ∀ e1 e2, compressFinish (0x03 :: e1 :: e2 :: rest) s = 0x04 :: e1 :: e2 :: r := by
      intro e1 e2
      rw [hfinish, hlen, if_pos hshort]
      rfl
    exact ⟨0x04, r, hr, hlong d1 d2, fun e1 e2 => by rw [hother, hlong]⟩
  · have hplain : ∀ e1 e2, compressFinish (0x03 :: e1 :: e2 :: rest) s = 0x03 :: e1 :: e2 :: rest := by
      intro e1 e2
      rw [hfinish, hlen, if_neg hshort]
      rfl
    exact ⟨0x03, rest, hrest, hplain d1 d2, fun e1 e2 => by rw [hother, hplain]⟩

/-! ### The way of a packet -/

/-- What the reader of an encrypted packet decompresses. The checksum stands where the two
zeros were. -/
theorem exists_decoded (b : Bytes) (q : ℕ) (p : Bytes) (hmax : b.length + 9 ≤ 2 ^ 32) :
    ∃ c m check d1 d2, compress (trivialSmartpak b q) = some c ∧
      decrypt (p ++ encrypt c) p.length = (p ++ m, some (check, check)) ∧
      decompress m 3 = some (0x03 :: d1 :: d2 :: (leBytes 4 q ++ b)) ∧
      (encrypt c).length = m.length ∧ m.length ≤ 7 + b.length := by
  obtain ⟨rest, hrest⟩ : ∃ rest, leBytes 4 q ++ b = rest := ⟨_, rfl⟩
  have hlen : rest.length = 4 + b.length := by
    rw [← hrest, List.length_append, length_leBytes]
  have hpacked : trivialSmartpak b q = 0x03 :: 0x00 :: 0x00 :: rest := by
    rw [trivialSmartpak, List.append_assoc, hrest]
    rfl
  have hround : ∀ d1 d2, ∃ c, compress (0x03 :: d1 :: d2 :: rest) = some c ∧
      decompress c 3 = some (0x03 :: d1 :: d2 :: rest) ∧ c.length ≤ 3 + rest.length := by
    intro d1 d2
    obtain ⟨c, hc, hd, hle, -⟩ := exists_compressed (d := 0x03 :: d1 :: d2 :: rest)
      (by simp only [List.length_cons]; omega) (by simp only [List.length_cons]; omega) rfl
    exact ⟨c, hc, hd, by simp only [List.length_cons] at hle; omega⟩
  obtain ⟨c, hc, -, hshort⟩ := hround 0x00 0x00
  have hne : rest ≠ [] := by
    intro hnil
    rw [hnil] at hlen
    simp only [List.length_nil] at hlen
    omega
  obtain ⟨x, r, hr, rfl, hother⟩ := compress_header hne (by omega) hc
  obtain ⟨m, hm, hd, -⟩ := hround (UInt8.ofNat (checksum r % 256)) (UInt8.ofNat (checksum r / 256))
  rw [hother] at hm
  have hm : _ = m := Option.some.inj hm
  have hmlen : m.length = r.length + 3 := by
    rw [← hm]
    rfl
  refine ⟨_, m, checksum r, _, _, by rw [hpacked]; exact hc, ?_, by rw [hrest]; exact hd, ?_, ?_⟩
  · rw [decrypt_encrypt p hr, hm]
  · rw [encrypt_eq hr, hmlen]
    simp only [List.length_cons, List.length_append, length_cipher, List.length_take, List.length_drop]
    omega
  · simp only [List.length_cons] at hshort
    omega

/-- A packet decrypted at any offset and decompressed is the one that was packed, with the
checksum in its header. -/
theorem decode_encode (b : Bytes) (q : ℕ) (p : Bytes) (hmax : b.length + 9 ≤ 2 ^ 32) :
    ∃ c m check r, compress (trivialSmartpak b q) = some c ∧
      decrypt (p ++ encrypt c) p.length = (p ++ m, some (check, check)) ∧
      decompress m 3 = some r ∧ r.length = 7 + b.length ∧ (r.drop 3).take 4 = leBytes 4 q ∧
      r.drop 7 = b := by
  obtain ⟨c, m, check, d1, d2, hc, hdec, hd, -⟩ := exists_decoded b q p hmax
  refine ⟨c, m, check, _, hc, hdec, hd, ?_, ?_, ?_⟩
  · simp only [List.length_cons, List.length_append, length_leBytes]
    omega
  · show (leBytes 4 q ++ b).take 4 = _
    rw [List.take_left' (length_leBytes 4 q)]
  · show (leBytes 4 q ++ b).drop 4 = _
    rw [List.drop_left' (length_leBytes 4 q)]

/-- A compressible player status record behind its player number. -/
theorem decode_encode_zeros : ∃ c m check r, compress (trivialSmartpak (List.replicate 30 0) 7) = some c ∧
    decrypt ([2] ++ encrypt c) 1 = ([2] ++ m, some (check, check)) ∧ decompress m 3 = some r ∧
    r.length = 37 ∧ (r.drop 3).take 4 = leBytes 4 7 ∧ r.drop 7 = List.replicate 30 0 := by
  have hlen : (List.replicate 30 0 : Bytes).length + 9 ≤ 2 ^ 32 := by decide
  obtain ⟨c, m, check, r, h⟩ := decode_encode (List.replicate 30 0) 7 [2] hlen
  exact ⟨c, m, check, r, h⟩

/-- A packet of `2 ^ 32` bytes is never compressed, whatever the fuel. -/
theorem encode_too_long : ¬ ∃ fuel packed,
    compressLoop (trivialSmartpak (List.replicate (2 ^ 32) 0) 0) fuel .init = some packed := by
  intro h
  obtain ⟨fuel, packed, h⟩ := h
  have hnone : compressLoop (trivialSmartpak (List.replicate (2 ^ 32) 0) 0) fuel .init = none := by
    apply compressLoop_diverges ?_ fuel
    · simp [CompressState.init]
    · simp only [trivialSmartpak, List.length_append, List.length_replicate]
      omega
  rw [hnone] at h
  cases h

end Gpgnet4TA.Tapacket
