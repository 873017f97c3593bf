import Gpgnet4TA.Tapacket.SubPackets

/-!
# The slow decoder of smartpak packets (`TPacket.cpp:361-397`, `435-501`)

`slowUnsmartpak` copies slices of a string where `unsmartpak` moves a pointer, and gives a
packet without checksum two bytes for one before it is decompressed. `none` also says that
`substr` throws.
-/

namespace Gpgnet4TA.Tapacket
open Gpgnet4TA.Lib SubPacketCode

/-- The slice, the rest of `s`, and `error`. -/
def split2 (s : Bytes) (smartpak : Bool) : Option (Bytes × Bytes × Bool) :=
  if s = [] then some ([], [], false)
  else do
    let len ← getExpectedSubPacketSize s
    let tick := byteAt s 0 = 0xff ∨ byteAt s 0 = 0xfe ∨ byteAt s 0 = 0xfd
    let error := decide tick && !smartpak
    let (len, error) := if s.length < len then (0, true) else (len, error)
    if len = 0 then return (s, [], true) else return (s.take len, s.drop len, error)

/-- What the slice `s` adds to the result, and the next tick number. -/
def slowUnsmartpakOne (s : Bytes) (packnum : ℕ) : Option (List Bytes × ℕ) :=
  if byteAt s 0 = SMARTPAK_TICK_START_FE then do
    let packnum ← u32At (s ++ [0]) 1
    return ([], packnum)
  else if byteAt s 0 = SMARTPAK_TICK_FF then
    some ([[0x2c, 0x0b, 0] ++ leBytes 4 packnum ++ [0xff, 0xff, 1, 0]], unsigned (packnum + 1))
  else if byteAt s 0 = SMARTPAK_TICK_OTHER_FD then
    if s.length < 3 then none
    else
      let tmp := s.take 3 ++ leBytes 4 packnum ++ s.drop 3
      some ([tmp.set 0 0x2c], unsigned (packnum + 1))
  else some ([s], packnum)

def slowUnsmartpakLoop : ℕ → Bytes → ℕ → List Bytes → Option (List Bytes)
  | 0, _, _, _ => none
  | fuel + 1, c, packnum, ut =>
    if c = [] then some ut
    else do
      let (s, c, _) ← split2 c true
      let (subpaks, packnum) ← slowUnsmartpakOne s packnum
      slowUnsmartpakLoop fuel c packnum (ut ++ subpaks)

/-- A packet without checksum gets two bytes in its place. -/
def slowChecksum (c : Bytes) (hasChecksum : Bool) : Option Bytes :=
  if hasChecksum then some c
  else if c = [] then none
  else some (c.take 1 ++ [0x78, 0x78] ++ c.drop 1)

def slowDecompress (c : Bytes) : Option Bytes := if byteAt c 0 = 0x04 then decompress c 3 else some c

def slowUnsmartpak (c : Bytes) (hasTimestamp hasChecksum : Bool) : Option (List Bytes) := do
  let c ← slowChecksum c hasChecksum
  let c ← slowDecompress c
  let skip := if hasTimestamp then 7 else 3
  if c.length < skip then none else slowUnsmartpakLoop (c.length + 1) (c.drop skip) 0 []

/-! ### The loops -/

/-- A slice `t` in front of `more`; a tick start is not cut off unless the packet ends. -/
theorem unsmartpakOne_eq {t more : Bytes} {packnum : ℕ} (ht : t ≠ [])
    (hstart : byteAt t 0 = SMARTPAK_TICK_START_FE → 5 ≤ t.length ∨ more = [0]) :
    unsmartpakOne (t ++ more) t.length packnum = slowUnsmartpakOne t packnum := by
  obtain ⟨b, t, rfl⟩ := List.exists_cons_of_ne_nil ht
  have hhead : byteAt (b :: t) 0 = b := rfl
  rw [hhead] at hstart
  simp only [unsmartpakOne, slowUnsmartpakOne, hhead, List.cons_append, List.head?_cons,
    Option.bind_eq_bind, Option.bind_some]
  by_cases h1 : b = SMARTPAK_TICK_START_FE
  · simp only [if_pos h1]
    rcases hstart h1 with hlen | rfl
    · obtain ⟨x, hx⟩ : ∃ x, sliceAt (b :: t) 1 4 = some x := by
        rw [sliceAt, if_pos (by omega)]
        exact ⟨_, rfl⟩
      have hmore := sliceAt_extend hx more
      have hzero := sliceAt_extend hx [0]
      rw [List.cons_append] at hmore hzero
      simp only [u32At, hmore, hzero]
    · rfl
  · simp only [if_neg h1]
    by_cases h2 : b = SMARTPAK_TICK_FF
    · simp only [if_pos h2]
      rfl
    · simp only [if_neg h2]
      by_cases h3 : b = SMARTPAK_TICK_OTHER_FD
      · simp only [if_pos h3]
        by_cases hlen : (b :: t).length < 3
        · simp only [if_pos hlen]
        · simp only [if_neg hlen]
          rw [List.length_cons] at hlen
          obtain ⟨x, t, rfl⟩ := List.exists_cons_of_length_pos (l := t) (by omega)
          rw [List.length_cons] at hlen
          obtain ⟨y, t, rfl⟩ := List.exists_cons_of_length_pos (l := t) (by omega)
          have hx : sliceAt (b :: x :: y :: t) 1 2 = some [x, y] := by
            rw [sliceAt, if_pos (by simp only [List.length_cons]; omega)]
            rfl
          have hy : sliceAt (b :: x :: y :: t) 3 ((b :: x :: y :: t).length - 3) = some t := by
            rw [sliceAt, if_pos (by simp only [List.length_cons]; omega)]
            simp
          have hx' := sliceAt_extend hx more
          have hy' := sliceAt_extend hy more
          simp only [List.cons_append] at hx' hy'
          simp only [List.cons_append, hx', hy', Option.bind_some]
          rfl
      · simp only [if_neg h3]
        have hall : sliceAt (b :: t) 0 (b :: t).length = some (b :: t) := by
          rw [sliceAt, if_pos (by omega), List.drop_zero, List.take_length]
        have hall' := sliceAt_extend hall more
        rw [List.cons_append] at hall'
        simp only [hall', Option.bind_some]
        rfl

theorem getExpectedSubPacketSize_start {s : Bytes} (hs : byteAt s 0 = SMARTPAK_TICK_START_FE)
    {n : ℕ} (h : getExpectedSubPacketSize s = some n) (hn : n ≠ 0) : n = 5 := by
  cases s with
  | nil => cases hs
  | cons b s =>
    have hb : b = SMARTPAK_TICK_START_FE := hs
    subst hb
    simp only [getExpectedSubPacketSize, getExpectedSubPacketSizeN] at h
    split at h
    · cases h
      exact absurd rfl hn
    · simp only [List.cons_append, List.head?_cons, Option.bind_eq_bind, Option.bind_some] at h
      exact (Option.some.inj h).symm

theorem split2_whole {s : Bytes} (hs : s ≠ []) {len : ℕ} (h : getExpectedSubPacketSize s = some len)
    (hwhole : len = 0 ∨ s.length < len) (smartpak : Bool) : split2 s smartpak = some (s, [], true) := by
  simp only [split2, if_neg hs, h, Option.bind_eq_bind, Option.bind_some]
  by_cases hlt : s.length < len
  · simp [hlt]
  · simp [hwhole.resolve_right hlt]

theorem split2_slice {s : Bytes} (hs : s ≠ []) {len : ℕ} (h : getExpectedSubPacketSize s = some len)
    (hpos : len ≠ 0) (hle : len ≤ s.length) (smartpak : Bool) :
    ∃ error, split2 s smartpak = some (s.take len, s.drop len, error) := by
  simp only [split2, if_neg hs, h, Option.bind_eq_bind, Option.bind_some,
    if_neg (by omega : ¬ s.length < len), if_neg hpos]
  exact ⟨_, rfl⟩

theorem split2_none {s : Bytes} (hs : s ≠ []) (h : getExpectedSubPacketSize s = none)
    (smartpak : Bool) : split2 s smartpak = none := by
  simp only [split2, if_neg hs, h, Option.bind_eq_bind, Option.bind_none]

theorem unsmartpakLoop_eq (fuel : ℕ) {c : Bytes} (hc : c.length < 2 ^ 32) (packnum : ℕ)
    (ut : List Bytes) :
    unsmartpakLoop fuel (c ++ [0]) c.length packnum ut = slowUnsmartpakLoop fuel c packnum ut := by
  induction fuel generalizing c packnum ut with
  | zero => rfl
  | succ fuel ih =>
    rw [unsmartpakLoop, slowUnsmartpakLoop]
    by_cases hnil : c = []
    · rw [if_pos hnil, if_neg (by simp [hnil])]
    have hpos : 0 < c.length := List.length_pos_iff.mpr hnil
    have hlen : unsigned c.length = c.length := unsigned_of_lt hc
    have hexp : getExpectedSubPacketSizeN (c ++ [0]) (unsigned c.length) =
        getExpectedSubPacketSize c := rfl
    rw [if_pos hpos, if_neg hnil, hexp, hlen]
    cases hsize : getExpectedSubPacketSize c with
    | none =>
      rw [split2_none hnil hsize]
      rfl
    | some len =>
      simp only [Option.bind_eq_bind, Option.bind_some]
      by_cases hwhole : len = 0 ∨ c.length < len
      · -- the slice is the rest of the packet
        have hone : unsmartpakOne (c ++ [0]) c.length packnum = slowUnsmartpakOne c packnum :=
          unsmartpakOne_eq hnil (fun _ => Or.inr rfl)
        have hrest := ih (c := []) (by simp)
        rw [split2_whole hnil hsize hwhole, if_pos hwhole, hone]
        simp only [Option.bind_some, List.drop_left' rfl, Nat.sub_self]
        congr 1
        funext r
        exact hrest r.2 (ut ++ r.1)
      · have hzero : len ≠ 0 := fun h => hwhole (Or.inl h)
        have hle : len ≤ c.length := by omega
        have htake : (c.take len).length = len := by
          rw [List.length_take]
          omega
        have hslice : c.take len ≠ [] := by
          intro h
          rw [h] at htake
          exact hzero htake.symm
        have hsplit : c ++ [0] = c.take len ++ (c.drop len ++ [0]) := by
          rw [← List.append_assoc, List.take_append_drop]
        have hhead : byteAt (c.take len) 0 = byteAt c 0 := by
          obtain ⟨b, c, rfl⟩ := List.exists_cons_of_ne_nil hnil
          obtain ⟨m, rfl⟩ := Nat.exists_eq_succ_of_ne_zero hzero
          rfl
        have hone : unsmartpakOne (c.take len ++ (c.drop len ++ [0])) (c.take len).length packnum =
            slowUnsmartpakOne (c.take len) packnum := by
          apply unsmartpakOne_eq hslice
          intro hstart
          rw [hhead] at hstart
          rw [htake, getExpectedSubPacketSize_start hstart hsize hzero]
          exact Or.inl le_rfl
        have hrest := ih (c := c.drop len) (by rw [List.length_drop]; omega)
        obtain ⟨error, herror⟩ := split2_slice hnil hsize hzero hle true
        rw [htake] at hone
        rw [herror, if_neg hwhole, hsplit, hone]
        simp only [Option.bind_some, List.drop_left' htake]
        congr 1
        funext r
        rw [List.length_drop] at hrest
        exact hrest r.2 (ut ++ r.1)

/-! ### Two more header bytes -/

/-- `result` with two bytes behind the first one. -/
def padded (result : Bytes) : Bytes := result.take 1 ++ [0x78, 0x78] ++ result.drop 1

theorem padded_cons (y : Byte) (out : Bytes) : padded (y :: out) = y :: 0x78 :: 0x78 :: out := rfl

theorem length_padded {result : Bytes} (h : result ≠ []) : (padded result).length = result.length + 2 := by
  obtain ⟨y, out, rfl⟩ := List.exists_cons_of_ne_nil h
  rfl

theorem getElem?_padded (result : Bytes) {i : ℕ} (hi : 1 ≤ i) :
    (padded result)[i + 2]? = result[i]? := by
  obtain ⟨j, rfl⟩ := Nat.exists_eq_add_of_le' hi
  cases result with
  | nil => simp [padded]
  | cons y out => simp [padded_cons]

theorem padded_append {result : Bytes} (h : result ≠ []) (more : Bytes) :
    padded (result ++ more) = padded result ++ more := by
  obtain ⟨y, out, rfl⟩ := List.exists_cons_of_ne_nil h
  rfl

theorem copyLoop_padded (n b : ℕ) (hb : 2 ≤ b) {result : Bytes} (h : result ≠ []) :
    copyLoop n (b + 2) (padded result) = padded (copyLoop n b result) ∧ copyLoop n b result ≠ [] := by
  induction n generalizing b result with
  | zero => exact ⟨rfl, h⟩
  | succ n ih =>
    have hbyte : (if b + 2 ≤ (padded result).length then (padded result).getD (b + 2 - 1) 0 else 0) =
        if b ≤ result.length then result.getD (b - 1) 0 else 0 := by
      have hget := getElem?_padded result (by omega : 1 ≤ b - 1)
      rw [show b - 1 + 2 = b + 2 - 1 by omega] at hget
      simp only [length_padded h, Nat.add_le_add_iff_right, List.getD_eq_getElem?_getD, hget]
    have hne : result ++ [if b ≤ result.length then result.getD (b - 1) 0 else 0] ≠ [] := by simp
    have hstep := ih (b + 1) (by omega) hne
    rw [padded_append h, show b + 1 + 2 = b + 2 + 1 by omega] at hstep
    simp only [copyLoop, hbyte]
    exact hstep

section decompress

variable {tail : Bytes} {x : Byte}

theorem sliceAt_padded {i n : ℕ} (hi : 1 ≤ i) :
    sliceAt (x :: 0x78 :: 0x78 :: tail) (i + 2) n = sliceAt (x :: tail) i n := by
  obtain ⟨j, rfl⟩ := Nat.exists_eq_add_of_le' hi
  have hiff : j + 1 + 2 + n ≤ (x :: 0x78 :: 0x78 :: tail : Bytes).length ↔
      j + 1 + n ≤ (x :: tail : Bytes).length := by
    simp only [List.length_cons]
    omega
  simp only [sliceAt, hiff]
  rfl

/-- What the two decoders make of a group of items. -/
def PaddedItems : Option ItemsResult → Option ItemsResult → Prop
  | none, none => True
  | some (.done r), some (.done r') => r ≠ [] ∧ r' = padded r
  | some (.next i r), some (.next i' r') => 1 ≤ i ∧ i' = i + 2 ∧ r ≠ [] ∧ r' = padded r
  | _, _ => False

theorem decompressItems_padded {len cbf : ℕ} (fuel nump index : ℕ) (hindex : 1 ≤ index) {result : Bytes}
    (h : result ≠ []) :
    PaddedItems (decompressItems (x :: tail) len 1 cbf fuel nump index result)
      (decompressItems (x :: 0x78 :: 0x78 :: tail) (len + 2) 3 cbf fuel nump (index + 2)
        (padded result)) := by
  induction fuel generalizing nump index result with
  | zero => exact ⟨hindex, rfl, h, rfl⟩
  | succ fuel ih =>
    simp only [decompressItems, Nat.add_le_add_iff_right]
    by_cases hend : len ≤ index
    · simp only [if_pos hend]
      obtain ⟨y, out, rfl⟩ := List.exists_cons_of_ne_nil h
      exact ⟨by simp, rfl⟩
    · simp only [if_neg hend]
      by_cases hbit : (cbf >>> nump) % 2 = 0
      · simp only [if_pos hbit]
        have hget : (x :: 0x78 :: 0x78 :: tail : Bytes).getD (index + 2) 0 = (x :: tail).getD index 0 := by
          have := getElem?_padded (x :: tail) hindex
          rw [padded_cons] at this
          rw [List.getD_eq_getElem?_getD, this, List.getD_eq_getElem?_getD]
        have hne : result ++ [(x :: tail).getD index 0] ≠ [] := by simp
        have hrec := ih (nump + 1) (index + 1) (by omega) hne
        rw [padded_append h] at hrec
        rw [hget, show index + 2 + 1 = index + 1 + 2 by omega]
        exact hrec
      · simp only [if_neg hbit]
        have hread : u16At (x :: 0x78 :: 0x78 :: tail) (index + 2) = u16At (x :: tail) index := by
          rw [u16At, u16At, sliceAt_padded hindex]
        rw [hread]
        cases u16At (x :: tail) index with
        | none => trivial
        | some uop =>
          simp only []
          by_cases hzero : uop / 16 = 0
          · simp only [if_pos hzero]
            exact ⟨h, rfl⟩
          · simp only [if_neg hzero]
            have hcopy := copyLoop_padded (uop % 16 + 2) (uop / 16 + 1) (by omega) h
            have hrec := ih (nump + 1) (index + 2) (by omega) hcopy.2
            rw [← hcopy.1] at hrec
            exact hrec

theorem decompressLoop_padded {len : ℕ} (fuel index : ℕ) (hindex : 1 ≤ index) {result : Bytes}
    (h : result ≠ []) :
    decompressLoop (x :: 0x78 :: 0x78 :: tail) (len + 2) 3 fuel (index + 2) (padded result) =
        (decompressLoop (x :: tail) len 1 fuel index result).map padded ∧
      ∀ r, decompressLoop (x :: tail) len 1 fuel index result = some r → r ≠ [] := by
  induction fuel generalizing index result with
  | zero => exact ⟨rfl, fun r hr => by cases hr⟩
  | succ fuel ih =>
    simp only [decompressLoop, Nat.add_lt_add_iff_right]
    by_cases hlt : index < len
    · simp only [if_pos hlt]
      have hget : (x :: 0x78 :: 0x78 :: tail : Bytes).getD (index + 2) 0 = (x :: tail).getD index 0 := by
        have := getElem?_padded (x :: tail) hindex
        rw [padded_cons] at this
        rw [List.getD_eq_getElem?_getD, this, List.getD_eq_getElem?_getD]
      have hitems : PaddedItems
          (decompressItems (x :: tail) len 1 ((x :: tail).getD index 0).toNat 8 0 (index + 1) result)
          (decompressItems (x :: 0x78 :: 0x78 :: tail) (len + 2) 3 ((x :: tail).getD index 0).toNat 8 0
            (index + 1 + 2) (padded result)) := decompressItems_padded 8 0 (index + 1) (by omega) h
      rw [hget, show index + 2 + 1 = index + 1 + 2 by omega]
      generalize decompressItems (x :: tail) len 1 _ 8 0 (index + 1) result = one at hitems ⊢
      generalize decompressItems (x :: 0x78 :: 0x78 :: tail) (len + 2) 3 _ 8 0 (index + 1 + 2)
        (padded result) = two at hitems ⊢
      match one, two, hitems with
      | none, none, _ => exact ⟨rfl, fun r hr => by cases hr⟩
      | some (.done r), some (.done r'), ⟨hne, heq⟩ =>
        subst heq
        exact ⟨rfl, fun r0 hr => by cases hr; exact hne⟩
      | some (.next i r), some (.next i' r'), ⟨hi, hi', hne, heq⟩ =>
        subst hi' heq
        exact ih i hi hne
    · simp only [if_neg hlt]
      exact ⟨rfl, fun r hr => by cases hr; exact h⟩

theorem decompressItems_index {data : Bytes} {len headerSize cbf fuel nump index : ℕ} {result : Bytes}
    {i : ℕ} {r : Bytes}
    (h : decompressItems data len headerSize cbf fuel nump index result = some (.next i r)) :
    index ≤ i := by
  induction fuel generalizing nump index result with
  | zero =>
    cases h
    exact le_rfl
  | succ fuel ih =>
    rw [decompressItems] at h
    split at h
    · cases h
    · split at h
      · have := ih h
        omega
      · split at h
        · cases h
        · split at h
          · cases h
          · have := ih h
            omega

theorem decompressLoop_fuel {data : Bytes} {len headerSize : ℕ} (k fuel index : ℕ) (result : Bytes)
    (h : len ≤ index + fuel) :
    decompressLoop data len headerSize (fuel + 1 + k) index result =
      decompressLoop data len headerSize (fuel + 1) index result := by
  induction fuel generalizing index result with
  | zero =>
    rw [Nat.add_right_comm, decompressLoop, decompressLoop, if_neg (by omega), if_neg (by omega)]
  | succ fuel ih =>
    rw [show fuel + 1 + 1 + k = fuel + 1 + k + 1 by omega, decompressLoop, decompressLoop]
    split
    · cases hitems : decompressItems data len headerSize (data.getD index 0).toNat 8 0 (index + 1)
          result with
      | none => rfl
      | some items =>
        cases items with
        | done r => rfl
        | next i r =>
          have := decompressItems_index hitems
          exact ih i r (by omega)
    · rfl

theorem decompressN_padded (len : ℕ) :
    decompressN (0x04 :: 0x78 :: 0x78 :: tail) (len + 2) 3 =
        (decompressN (0x04 :: tail) len 1).map padded ∧
      ∀ r, decompressN (0x04 :: tail) len 1 = some r → r ≠ [] := by
  have h1 : decompressN (0x04 :: tail) len 1 =
      decompressLoop (0x04 :: tail) len 1 (len + 1) 1 [0x03] := by
    have hslice : sliceAt (0x04 :: tail) 0 1 = some [0x04] := by
      rw [sliceAt, if_pos (by simp only [List.length_cons]; omega)]
      rfl
    simp only [decompressN, List.head?_cons, hslice]
    rfl
  have h3 : decompressN (0x04 :: 0x78 :: 0x78 :: tail) (len + 2) 3 =
      decompressLoop (0x04 :: 0x78 :: 0x78 :: tail) (len + 2) 3 (len + 2 + 1) 3 (padded [0x03]) := by
    have hslice : sliceAt (0x04 :: 0x78 :: 0x78 :: tail) 0 3 = some [0x04, 0x78, 0x78] := by
      rw [sliceAt, if_pos (by simp only [List.length_cons]; omega)]
      rfl
    simp only [decompressN, List.head?_cons, hslice]
    rfl
  have hfuel : decompressLoop (0x04 :: 0x78 :: 0x78 :: tail) (len + 2) 3 (len + 2 + 1) 3
        (padded [0x03]) =
      decompressLoop (0x04 :: 0x78 :: 0x78 :: tail) (len + 2) 3 (len + 1) 3 (padded [0x03]) := by
    rw [show len + 2 + 1 = len + 1 + 2 by omega]
    exact decompressLoop_fuel 2 len 3 _ (by omega)
  rw [h1, h3, hfuel]
  exact decompressLoop_padded (len + 1) 1 le_rfl (by simp)

end decompress

/-! ### The decoders -/

/-- The packet before it is split. -/
def unpacked (c : Bytes) (hasChecksum : Bool) : Option Bytes :=
  if byteAt c 0 = 0x04 then decompress c (if hasChecksum then 3 else 1) else some c

/-- How much of it is skipped. -/
def headerLength (hasTimestamp hasChecksum : Bool) : ℕ :=
  1 + (if hasChecksum then 2 else 0) + (if hasTimestamp then 4 else 0)

theorem slowUnpacked_eq {c : Bytes} (hc : c ≠ []) (hlen : c.length + 2 < 2 ^ 32) :
    slowDecompress (padded c) = (unpacked c false).map padded ∧ ∀ r, unpacked c false = some r → r ≠ [] := by
  obtain ⟨x, tail, rfl⟩ := List.exists_cons_of_ne_nil hc
  have hhead : byteAt (padded (x :: tail)) 0 = x := rfl
  have hhead' : byteAt (x :: tail) 0 = x := rfl
  simp only [slowDecompress, unpacked, hhead, hhead']
  by_cases hx : x = 0x04
  · subst hx
    simp only [if_true]
    have h1 : unsigned (0x04 :: tail : Bytes).length = (0x04 :: tail : Bytes).length :=
      unsigned_of_lt (by omega)
    have h3 : unsigned (padded (0x04 :: tail)).length = (0x04 :: tail : Bytes).length + 2 := by
      rw [length_padded hc]
      exact unsigned_of_lt hlen
    simp only [decompress, h1, h3]
    exact decompressN_padded _
  · simp only [if_neg hx, Option.map_some]
    exact ⟨trivial, fun r hr => by cases hr; simp⟩

theorem split2_shorter {s t rest : Bytes} {error smartpak : Bool} (hs : s ≠ [])
    (h : split2 s smartpak = some (t, rest, error)) : rest.length < s.length := by
  have hpos : 0 < s.length := List.length_pos_iff.mpr hs
  cases hsize : getExpectedSubPacketSize s with
  | none =>
    rw [split2_none hs hsize] at h
    cases h
  | some len =>
    by_cases hwhole : len = 0 ∨ s.length < len
    · rw [split2_whole hs hsize hwhole] at h
      cases h
      exact hpos
    · obtain ⟨error', herror⟩ := split2_slice hs hsize (fun h0 => hwhole (Or.inl h0)) (by omega) smartpak
      rw [herror] at h
      cases h
      rw [List.length_drop]
      omega

theorem slowUnsmartpakLoop_fuel (k fuel : ℕ) {c : Bytes} (hc : c.length ≤ fuel) (packnum : ℕ)
    (ut : List Bytes) :
    slowUnsmartpakLoop (fuel + 1 + k) c packnum ut = slowUnsmartpakLoop (fuel + 1) c packnum ut := by
  induction fuel generalizing c packnum ut with
  | zero =>
    have hnil : c = [] := List.eq_nil_of_length_eq_zero (by omega)
    rw [Nat.add_right_comm, slowUnsmartpakLoop, slowUnsmartpakLoop, if_pos hnil, if_pos hnil]
  | succ fuel ih =>
    rw [show fuel + 1 + 1 + k = fuel + 1 + k + 1 by omega, slowUnsmartpakLoop, slowUnsmartpakLoop]
    by_cases hnil : c = []
    · rw [if_pos hnil, if_pos hnil]
    · rw [if_neg hnil, if_neg hnil]
      cases hsplit : split2 c true with
      | none => rfl
      | some r =>
        obtain ⟨t, rest, error⟩ := r
        have := split2_shorter hnil hsplit
        cases hone : slowUnsmartpakOne t packnum with
        | none => simp [hone]
        | some r =>
          simp only [Option.bind_eq_bind, Option.bind_some, hone]
          exact ih (by omega) r.2 (ut ++ r.1)

theorem slowUnsmartpak_eq {c : Bytes} (hc : c ≠ []) (hasTimestamp hasChecksum : Bool)
    (hlen : c.length + 2 < 2 ^ 32)
    (hbuffer : ∀ buffer, unpacked c hasChecksum = some buffer →
      headerLength hasTimestamp hasChecksum ≤ buffer.length) :
    slowUnsmartpak c hasTimestamp hasChecksum = (unpacked c hasChecksum).bind fun buffer =>
      slowUnsmartpakLoop (buffer.length + 1) (buffer.drop (headerLength hasTimestamp hasChecksum)) 0 [] := by
  cases hasChecksum with
  | true =>
    have hskip : (if hasTimestamp then 7 else 3) = headerLength hasTimestamp true := by
      cases hasTimestamp <;> rfl
    have hun : slowDecompress c = unpacked c true := rfl
    simp only [slowUnsmartpak, slowChecksum, if_true, hskip, hun, Option.bind_eq_bind, Option.bind_some]
    cases h : unpacked c true with
    | none => rfl
    | some buffer => simp only [Option.bind_some, if_neg (Nat.not_lt.mpr (hbuffer buffer h))]
  | false =>
    have hskip : (if hasTimestamp then 7 else 3) = headerLength hasTimestamp false + 2 := by
      cases hasTimestamp <;> rfl
    have hcheck : slowChecksum c false = some (padded c) := by simp [slowChecksum, hc, padded]
    obtain ⟨hun, hne⟩ := slowUnpacked_eq hc hlen
    simp only [slowUnsmartpak, hcheck, hskip, Option.bind_eq_bind, Option.bind_some, hun]
    cases h : unpacked c false with
    | none => rfl
    | some buffer =>
      have hle := hbuffer buffer h
      have hpad := length_padded (hne buffer h)
      have hdrop : (padded buffer).drop (headerLength hasTimestamp false + 2) =
          buffer.drop (headerLength hasTimestamp false) := by
        obtain ⟨y, out, rfl⟩ := List.exists_cons_of_ne_nil (hne buffer h)
        cases hasTimestamp <;> rfl
      simp only [Option.map_some, Option.bind_some, hpad, hdrop,
        if_neg (by omega : ¬ buffer.length + 2 < headerLength hasTimestamp false + 2)]
      rw [Nat.add_right_comm]
      exact slowUnsmartpakLoop_fuel 2 _ (by rw [List.length_drop]; omega) 0 []

/-- The two decoders agree on packets whose lengths fit into an `unsigned`. -/
theorem unsmartpak_eq_slowUnsmartpak {c : Bytes} (hc : c ≠ []) (hasTimestamp hasChecksum : Bool)
    (hlen : c.length + 2 < 2 ^ 32)
    (hbuffer : ∀ buffer, unpacked c hasChecksum = some buffer →
      headerLength hasTimestamp hasChecksum ≤ buffer.length ∧ buffer.length < 2 ^ 32) :
    unsmartpak c hasTimestamp hasChecksum = slowUnsmartpak c hasTimestamp hasChecksum := by
  have hfast : unsmartpak c hasTimestamp hasChecksum = (unpacked c hasChecksum).bind fun buffer =>
      unsmartpakLoop (buffer.length + 1) ((buffer ++ [0]).drop (headerLength hasTimestamp hasChecksum))
        (buffer.length - headerLength hasTimestamp hasChecksum) 0 [] := by
    by_cases hx : byteAt c 0 = 0x04
    · simp only [unsmartpak, unpacked, headerLength, if_pos hx]
      rfl
    · simp only [unsmartpak, unpacked, headerLength, if_neg hx]
      rfl
  have hslow : slowUnsmartpak c hasTimestamp hasChecksum = (unpacked c hasChecksum).bind fun buffer =>
      slowUnsmartpakLoop (buffer.length + 1) (buffer.drop (headerLength hasTimestamp hasChecksum)) 0 [] :=
    slowUnsmartpak_eq hc hasTimestamp hasChecksum hlen (fun buffer h => (hbuffer buffer h).1)
  rw [hfast, hslow]
  cases hun : unpacked c hasChecksum with
  | none => rfl
  | some buffer =>
    obtain ⟨hskip, hmax⟩ := hbuffer buffer hun
    have h := unsmartpakLoop_eq (buffer.length + 1)
      (c := buffer.drop (headerLength hasTimestamp hasChecksum)) (by rw [List.length_drop]; omega) 0 []
    rw [List.length_drop] at h
    simp only [Option.bind_some]
    rw [List.drop_append_of_le_length hskip, h]

theorem unsmartpak_eq_slowUnsmartpak_ticks :
    unsmartpak [0x03, 0xfe, 5, 0, 0, 0, 0xff, 0x08, 0x11, 1] false false =
      slowUnsmartpak [0x03, 0xfe, 5, 0, 0, 0, 0xff, 0x08, 0x11, 1] false false := by
  apply unsmartpak_eq_slowUnsmartpak (by decide) false false (by decide)
  intro buffer h
  cases h
  decide

/-! ### Packets that are too long -/

/-- The fast decoder does not return; the slow one takes the rest for one subpacket. -/
theorem decoders_differ :
    unsmartpak (0x03 :: List.replicate (2 ^ 32) PAD_ENCRYPT_06) false false = none ∧
      slowUnsmartpak (0x03 :: List.replicate (2 ^ 32) PAD_ENCRYPT_06) false false =
        some [List.replicate (2 ^ 32) PAD_ENCRYPT_06] := by
  obtain ⟨s, hs⟩ : ∃ s, List.replicate (2 ^ 32) PAD_ENCRYPT_06 = s := ⟨_, rfl⟩
  have hlen : s.length = 2 ^ 32 := by rw [← hs, List.length_replicate]
  have hhead : s.head? = some PAD_ENCRYPT_06 := by
    rw [← hs, List.head?_replicate, if_neg (by omega)]
  rw [hs]
  refine ⟨unsmartpak_diverges hlen hhead, ?_⟩
  have hne : s ≠ [] := by
    intro h
    rw [h] at hhead
    cases hhead
  have hbyte : byteAt s 0 = PAD_ENCRYPT_06 := by
    obtain ⟨b, rest, rfl⟩ := List.exists_cons_of_ne_nil hne
    exact Option.some.inj hhead
  have hsize : getExpectedSubPacketSize s = some 0 := by
    rw [getExpectedSubPacketSize, hlen]
    rfl
  have hone : slowUnsmartpakOne s 0 = some ([s], 0) := by
    rw [slowUnsmartpakOne, hbyte]
    rfl
  have hloop : ∀ fuel, slowUnsmartpakLoop (fuel + 2) s 0 [] = some [s] := by
    intro fuel
    rw [slowUnsmartpakLoop, if_neg hne, split2_whole hne hsize (Or.inl rfl)]
    simp only [Option.bind_eq_bind, Option.bind_some, hone, List.nil_append]
    rw [slowUnsmartpakLoop, if_pos rfl]
  exact hloop (s.length + 2)

end Gpgnet4TA.Tapacket
