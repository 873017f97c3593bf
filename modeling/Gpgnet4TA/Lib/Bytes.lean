import Mathlib

/-!
# Byte strings and little-endian integers

Byte strings are lists of octets. Integers travel in little-endian order; a
read outside the string has no value, so the readers return `none` there.
-/

namespace Gpgnet4TA.Lib

abbrev Byte := UInt8
abbrev Bytes := List Byte

/-- Little-endian encoding of `x`, exactly `n` bytes (higher digits are cut off). -/
def leBytes : ℕ → ℕ → Bytes
  | 0, _ => []
  | n + 1, x => UInt8.ofNat (x % 256) :: leBytes n (x / 256)

/-- Value of a little-endian byte string. -/
def leVal : Bytes → ℕ
  | [] => 0
  | b :: rest => b.toNat + 256 * leVal rest

@[simp] theorem length_leBytes (n x : ℕ) : (leBytes n x).length = n := by
  induction n generalizing x with
  | zero => rfl
  | succ n ih => simp [leBytes, ih]

theorem leVal_leBytes (n x : ℕ) : leVal (leBytes n x) = x % 256 ^ n := by
  induction n generalizing x with
  | zero => simp [leBytes, leVal, Nat.mod_one]
  | succ n ih =>
    have hb : (UInt8.ofNat (x % 256)).toNat = x % 256 := by
      simp [UInt8.toNat_ofNat']
    show (UInt8.ofNat (x % 256)).toNat + 256 * leVal (leBytes n (x / 256)) = x % 256 ^ (n + 1)
    rw [hb, ih, pow_succ', Nat.mod_mul]

theorem leVal_lt (bs : Bytes) : leVal bs < 256 ^ bs.length := by
  induction bs with
  | nil => simp [leVal]
  | cons b rest ih =>
    have hb : b.toNat < 256 := b.toNat_lt
    have hr : leVal rest + 1 ≤ 256 ^ rest.length := ih
    simp only [leVal, List.length_cons, pow_succ']
    omega

theorem leBytes_leVal (bs : Bytes) : leBytes bs.length (leVal bs) = bs := by
  induction bs with
  | nil => rfl
  | cons b rest ih =>
    have hb : b.toNat < 256 := b.toNat_lt
    have hmod : (b.toNat + 256 * leVal rest) % 256 = b.toNat := by omega
    have hdiv : (b.toNat + 256 * leVal rest) / 256 = leVal rest := by omega
    simp only [List.length_cons, leBytes, leVal, hmod, hdiv, ih, UInt8.ofNat_toNat]

/-- Conversion to a signed 32-bit `int`. -/
def int32 (x : ℤ) : ℤ := Int.bmod x (2 ^ 32)

theorem int32_eq {x : ℤ} (hle : -2 ^ 31 ≤ x) (hlt : x < 2 ^ 31) : int32 x = x :=
  Int.bmod_eq_of_le (by norm_num; omega) (by norm_num; omega)

/-- `n` bytes at offset `ofs`; `none` when the range leaves the string. -/
def sliceAt (bs : Bytes) (ofs n : ℕ) : Option Bytes :=
  if ofs + n ≤ bs.length then some ((bs.drop ofs).take n) else none

/-- Unsigned 16-bit read (`*(std::uint16_t*)&bs[ofs]`). -/
def u16At (bs : Bytes) (ofs : ℕ) : Option ℕ := (sliceAt bs ofs 2).map leVal

/-- Unsigned 32-bit read (`*(std::uint32_t*)&bs[ofs]`). -/
def u32At (bs : Bytes) (ofs : ℕ) : Option ℕ := (sliceAt bs ofs 4).map leVal

theorem sliceAt_append (pre mid post : Bytes) :
    sliceAt (pre ++ mid ++ post) pre.length mid.length = some mid := by
  simp [sliceAt]

theorem length_of_sliceAt {bs s : Bytes} {ofs n : ℕ} (h : sliceAt bs ofs n = some s) :
    s.length = n := by
  unfold sliceAt at h
  split at h
  · cases h
    rw [List.length_take, List.length_drop]
    omega
  · cases h

theorem sliceAt_extend {bs s : Bytes} {ofs n : ℕ} (h : sliceAt bs ofs n = some s) (more : Bytes) :
    sliceAt (bs ++ more) ofs n = some s := by
  unfold sliceAt at h ⊢
  split at h
  · cases h
    rw [if_pos (by rw [List.length_append]; omega), List.drop_append_of_le_length (by omega),
      List.take_append_of_le_length (by rw [List.length_drop]; omega)]
  · cases h

theorem u16At_extend {bs : Bytes} {ofs x : ℕ} (h : u16At bs ofs = some x) (more : Bytes) :
    u16At (bs ++ more) ofs = some x := by
  obtain ⟨s, hs, rfl⟩ := Option.map_eq_some_iff.mp h
  rw [u16At, sliceAt_extend hs more, Option.map_some]

theorem u32At_append (pre post : Bytes) (x : ℕ) (hx : x < 2 ^ 32) :
    u32At (pre ++ leBytes 4 x ++ post) pre.length = some x := by
  have h := sliceAt_append pre (leBytes 4 x) post
  rw [length_leBytes] at h
  have hv : leVal (leBytes 4 x) = x := by
    rw [leVal_leBytes]
    exact Nat.mod_eq_of_lt (by simpa using hx)
  simp only [u32At, h, Option.map_some, hv]

end Gpgnet4TA.Lib
