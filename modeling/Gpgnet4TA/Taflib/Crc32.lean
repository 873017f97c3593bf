import Gpgnet4TA.Lib.Crc
import Gpgnet4TA.Taflib.DuplicateWindow

/-!
# What `CRC32` computes

The table of `Initialize` holds eight turns of a reflected shift register for every byte, so
`PartialCRC` runs the register over the bits of the data.
-/

namespace Gpgnet4TA.Taflib
open Gpgnet4TA.Lib Polynomial

namespace CRC32

/-- The polynomial of `Initialize` with its bits in the order of the register. -/
def iPolynomial : BitVec 32 := (0x04C11DB7#32).reverse

theorem iPolynomial_eq : iPolynomial = 0xEDB88320#32 := by
  decide +kernel

def bitsOf (sData : Bytes) : List Bool := sData.flatMap fun b => (List.range 8).map b.toBitVec.getLsbD

@[simp] theorem bitsOf_nil : bitsOf [] = [] := rfl

theorem bitsOf_cons (b : Byte) (sData : Bytes) :
    bitsOf (b :: sData) = (List.range 8).map b.toBitVec.getLsbD ++ bitsOf sData := rfl

@[simp] theorem length_bitsOf (sData : Bytes) : (bitsOf sData).length = 8 * sData.length := by
  induction sData with
  | nil => rfl
  | cons b sData ih => rw [bitsOf_cons, List.length_append, ih, List.length_cons, List.length_map, List.length_range,
      mul_add, Nat.add_comm]

/-! ### The table -/

theorem mask_bit {m : UInt32} {i : ℕ} (hi : i < 32) (hm : m.toBitVec = BitVec.twoPow 32 i) (x : UInt32) :
    (x &&& m ≠ 0) ↔ x.toBitVec.getLsbD i = true := by
  have hand : (x &&& m).toBitVec = if x.toBitVec.getLsbD i then BitVec.twoPow 32 i else 0#32 := by
    rw [UInt32.toBitVec_and, hm, BitVec.and_twoPow]
  have hset : BitVec.twoPow 32 i ≠ 0#32 := by
    intro h
    have hbit := congrArg (fun y => BitVec.getLsbD y i) h
    simp [hi] at hbit
  rw [ne_eq, ← UInt32.toBitVec_inj, hand]
  cases x.toBitVec.getLsbD i
  · simp
  · simpa using hset

theorem low_bit (x : UInt32) : (x &&& 1 ≠ 0) ↔ x.toBitVec.getLsbD 0 = true :=
  mask_bit (i := 0) (by norm_num) (by decide) x

theorem high_bit (x : UInt32) : (x &&& 0x80000000 ≠ 0) ↔ x.toBitVec.msb = true := by
  rw [BitVec.msb_eq_getLsbD_last]
  exact mask_bit (i := 31) (by norm_num) (by decide) x

theorem getLsbD_reflectLoop {k : ℕ} (hk : k ≤ 32) (x v : UInt32) (i : ℕ) :
    (reflectLoop k x v).toBitVec.getLsbD i =
      (v.toBitVec.getLsbD i || (decide (i < k) && x.toBitVec.getLsbD (k - 1 - i))) := by
  induction k generalizing x v with
  | zero => simp [reflectLoop]
  | succ k ih =>
    have hbit : (1 <<< UInt32.ofNat k : UInt32).toBitVec.getLsbD i = decide (i = k) := by
      have hpow : 2 ^ k < 2 ^ 32 := Nat.pow_lt_pow_right (by norm_num) (by omega)
      have hnat : (1 <<< UInt32.ofNat k : UInt32).toNat = 2 ^ k := by
        rw [UInt32.toNat_shiftLeft, UInt32.toNat_ofNat_of_lt' (show k < 2 ^ 32 by omega), UInt32.toNat_one,
          Nat.mod_eq_of_lt (show k < 32 by omega), Nat.one_shiftLeft, Nat.mod_eq_of_lt hpow]
      rw [← BitVec.testBit_toNat, UInt32.toNat_toBitVec, hnat, Nat.testBit_two_pow]
      simp [eq_comm]
    have hset : (if x &&& 1 ≠ 0 then v ||| (1 <<< UInt32.ofNat k) else v).toBitVec.getLsbD i =
        (v.toBitVec.getLsbD i || (decide (i = k) && x.toBitVec.getLsbD 0)) := by
      cases hlow : x.toBitVec.getLsbD 0 with
      | true =>
        rw [if_pos ((low_bit x).mpr hlow), UInt32.toBitVec_or, BitVec.getLsbD_or, hbit, Bool.and_true]
      | false =>
        rw [if_neg (fun h => Bool.false_ne_true (hlow.symm.trans ((low_bit x).mp h))), Bool.and_false, Bool.or_false]
    rw [reflectLoop, ih (by omega), hset]
    by_cases hi : i = k
    · simp [hi]
    · by_cases hlt : i < k
      · have hidx : 1 + (k - 1 - i) = k - i := by omega
        simp [hi, hlt, show i < k + 1 by omega, hidx]
      · simp [hi, hlt, show ¬ i < k + 1 by omega]

theorem toBitVec_reflect (x : UInt32) : (reflect x 32).toBitVec = x.toBitVec.reverse := by
  apply BitVec.eq_of_getLsbD_eq
  intro i hi
  rw [reflect, getLsbD_reflectLoop (le_refl 32), BitVec.getLsbD_reverse, BitVec.getMsbD]
  simp [hi]

/-- A byte in the table's starting position is the byte in the register, read from the other end. -/
theorem toBitVec_reflect_byte {x : UInt32} (hx : x < 256) :
    (reflect x 8 <<< 24).toBitVec = x.toBitVec.reverse := by
  have hhigh : ∀ i, 8 ≤ i → x.toBitVec.getLsbD i = false := by
    intro i hi
    rw [← BitVec.testBit_toNat]
    apply Nat.testBit_lt_two_pow
    have hlt : x.toNat < 256 := hx
    calc x.toNat < 2 ^ 8 := hlt
      _ ≤ 2 ^ i := Nat.pow_le_pow_right (by norm_num) hi
  apply BitVec.eq_of_getLsbD_eq
  intro i hi
  have hshift : (reflect x 8 <<< 24).toBitVec = (reflect x 8).toBitVec <<< 24 := rfl
  rw [hshift, BitVec.getLsbD_shiftLeft, reflect, getLsbD_reflectLoop (by norm_num), BitVec.getLsbD_reverse,
    BitVec.getMsbD]
  by_cases hlow : i < 24
  · simp [hi, hlow, hhigh (32 - 1 - i) (by omega)]
  · have hidx : 8 - 1 - (i - 24) = 32 - 1 - i := by omega
    simp [hi, hlow, show i - 24 < 8 by omega, hidx]

theorem reverse_tableRound (t : UInt32) :
    (tableRound t).toBitVec.reverse = Crc.shift iPolynomial t.toBitVec.reverse := by
  have hround : (tableRound t).toBitVec = t.toBitVec <<< 1 ^^^ if t.toBitVec.msb then 0x04C11DB7#32 else 0 := by
    rw [tableRound, UInt32.toBitVec_xor]
    cases hhigh : t.toBitVec.msb with
    | true =>
      rw [if_pos ((high_bit t).mpr hhigh)]
      rfl
    | false =>
      rw [if_neg fun h => Bool.false_ne_true (hhigh.symm.trans ((high_bit t).mp h))]
      rfl
  rw [hround, Crc.reverse_shiftLeft, iPolynomial]

theorem toBitVec_iTable {x : UInt32} (hx : x < 256) :
    (iTable x).toBitVec = (Crc.shift iPolynomial)^[8] x.toBitVec := by
  have hrounds : ∀ n t, (tableRound^[n] t).toBitVec.reverse = (Crc.shift iPolynomial)^[n] t.toBitVec.reverse := by
    intro n t
    induction n with
    | zero => rfl
    | succ n ih => rw [Function.iterate_succ_apply', Function.iterate_succ_apply', reverse_tableRound, ih]
  rw [iTable, toBitVec_reflect, hrounds, toBitVec_reflect_byte hx, BitVec.reverse_reverse_eq]

/-! ### The data -/

theorem toBitVec_byte (b : Byte) : b.toUInt32.toBitVec = Crc.word ((List.range 8).map b.toBitVec.getLsbD) := by
  apply BitVec.eq_of_getLsbD_eq
  intro i hi
  rw [Crc.getLsbD_word, UInt8.toBitVec_toUInt32, BitVec.getLsbD_setWidth]
  by_cases hlow : i < 8
  · simp [hi, hlow]
  · simp [hi, hlow, BitVec.getLsbD_of_ge b.toBitVec i (by omega)]

/-- One table look-up takes the register over the eight bits of a byte. -/
theorem toBitVec_partialCRC_byte (c : UInt32) (b : Byte) :
    ((c >>> 8) ^^^ iTable ((c &&& 0xff) ^^^ b.toUInt32)).toBitVec =
      Crc.crc iPolynomial c.toBitVec ((List.range 8).map b.toBitVec.getLsbD) := by
  have hindex : (c &&& 0xff) ^^^ b.toUInt32 < 256 := by
    have hand : c.toNat &&& 255 < 2 ^ 8 := Nat.and_lt_two_pow _ (by norm_num)
    have hbyte : b.toNat < 2 ^ 8 := b.toNat_lt
    have hxor := Nat.xor_lt_two_pow hand hbyte
    simpa [UInt32.lt_iff_toNat_lt] using hxor
  have hbyte : ∀ i, 8 ≤ i → b.toBitVec.getLsbD i = false := fun i hi => BitVec.getLsbD_of_ge _ _ hi
  have hmask : ∀ i < 32, (0xff : BitVec 32).getLsbD i = decide (i < 8) := by decide
  have hlow : ((c &&& 0xff) ^^^ b.toUInt32).toBitVec =
      ((c.toBitVec ^^^ b.toUInt32.toBitVec).setWidth 8).setWidth 32 := by
    have hand : ((c &&& 0xff) ^^^ b.toUInt32).toBitVec = (c.toBitVec &&& 0xff) ^^^ b.toUInt32.toBitVec := rfl
    rw [hand]
    apply BitVec.eq_of_getLsbD_eq
    intro i hi
    rw [BitVec.getLsbD_xor, BitVec.getLsbD_and, hmask i hi]
    by_cases hlow : i < 8
    · simp [hi, hlow]
    · simp [hi, hlow, BitVec.getLsbD_setWidth, hbyte i (by omega)]
  have hhigh : (c.toBitVec ^^^ b.toUInt32.toBitVec) >>> 8 = c.toBitVec >>> 8 := by
    rw [BitVec.ushiftRight_xor_distrib]
    have hgone : b.toUInt32.toBitVec >>> 8 = 0#32 := by
      apply BitVec.eq_of_getLsbD_eq
      intro i _
      simp [BitVec.getLsbD_setWidth]
    rw [hgone, BitVec.xor_zero]
  rw [Crc.crc_word _ _ (by simp), List.length_map, List.length_range, ← toBitVec_byte, Crc.shift_iterate_low _ _ 8,
    hhigh, ← hlow, UInt32.toBitVec_xor, toBitVec_iTable hindex]
  rfl

theorem toBitVec_partialCRC (c : UInt32) (sData : Bytes) :
    (partialCRC c sData).toBitVec = Crc.crc iPolynomial c.toBitVec (bitsOf sData) := by
  induction sData generalizing c with
  | nil => rfl
  | cons b sData ih =>
    rw [bitsOf_cons, Crc.crc_append, ← toBitVec_partialCRC_byte, ← ih]
    rfl

/-- `PartialCRC` divides: what it returns is the remainder of what it got, in front of the data, by
the polynomial of the standard. -/
theorem partialCRC_eq_modByMonic (c : UInt32) (sData : Bytes) :
    (Crc.value X (partialCRC c sData).toBitVec : (ZMod 2)[X]) =
      (X ^ (8 * sData.length) * Crc.value X c.toBitVec + X ^ 32 * Crc.message X (bitsOf sData)) %ₘ
        (X ^ 32 + X ^ 26 + X ^ 23 + X ^ 22 + X ^ 16 + X ^ 12 + X ^ 11 + X ^ 10 + X ^ 8 + X ^ 7 + X ^ 5 + X ^ 4 +
          X ^ 2 + X + 1) := by
  have hgenerator : Crc.generator iPolynomial =
      X ^ 32 + X ^ 26 + X ^ 23 + X ^ 22 + X ^ 16 + X ^ 12 + X ^ 11 + X ^ 10 + X ^ 8 + X ^ 7 + X ^ 5 + X ^ 4 +
        X ^ 2 + X + 1 := by
    rw [Crc.generator, iPolynomial_eq, Crc.value]
    simp [Finset.sum_range_succ]
    ring
  rw [toBitVec_partialCRC, Crc.crc_eq_modByMonic, hgenerator, length_bitsOf]

theorem partialCRC_burst (c : UInt32) {sData sData' : Bytes} (h : Crc.Burst 32 (bitsOf sData) (bitsOf sData')) :
    partialCRC c sData ≠ partialCRC c sData' := by
  intro heq
  have hcrc := congrArg UInt32.toBitVec heq
  rw [toBitVec_partialCRC, toBitVec_partialCRC] at hcrc
  exact h.crc_ne (by rw [iPolynomial_eq]; rfl) c.toBitVec hcrc

theorem fullCRC_burst {sData sData' : Bytes} (h : Crc.Burst 32 (bitsOf sData) (bitsOf sData')) :
    fullCRC sData ≠ fullCRC sData' :=
  fun heq => partialCRC_burst 0xffffffff h ((UInt32.xor_left_inj _).mp heq)

theorem length_of_burst {n : ℕ} {sData sData' : Bytes} (h : Crc.Burst n (bitsOf sData) (bitsOf sData')) :
    sData.length = sData'.length := by
  have hlen := h.length_eq
  rw [length_bitsOf, length_bitsOf] at hlen
  omega

end CRC32

/-! ### The duplicate detector -/

namespace DuplicateDetection

/-- What a call computes its CRC of. -/
def Call.packet (c : Call) : Bytes := leBytes 4 c.sourceId ++ leBytes 4 c.destId ++ c.data

theorem Call.crc_eq (c : Call) : c.crc = CRC32.partialCRC 0xffffffff c.packet := by
  simp only [Call.crc, crcOf, Call.packet, CRC32.partialCRC, List.foldl_append]

/-- The calls that returned false. -/
def freshCalls : DuplicateDetection → List Call → List Call
  | _, [] => []
  | d, c :: cs =>
    let (duplicate, d) := d.isLikelyDuplicate c.sourceId c.destId c.data
    if duplicate then d.freshCalls cs else c :: d.freshCalls cs

theorem freshCalls_sublist (d : DuplicateDetection) (cs : List Call) : (d.freshCalls cs).Sublist cs := by
  induction cs generalizing d with
  | nil => exact List.Sublist.refl _
  | cons c cs ih =>
    simp only [freshCalls]
    split
    · exact (ih _).cons c
    · exact (ih _).cons_cons c

theorem fresh_calls (d : DuplicateDetection) (cs : List Call) :
    fresh (d.calls cs).1 = (d.freshCalls cs).map Call.crc := by
  induction cs generalizing d with
  | nil => rfl
  | cons c cs ih =>
    have hrest := ih (d.isLikelyDuplicate c.sourceId c.destId c.data).2
    simp only [calls, freshCalls]
    cases (d.isLikelyDuplicate c.sourceId c.destId c.data).1 with
    | true =>
      rw [if_pos rfl, ← hrest]
      rfl
    | false =>
      rw [if_neg Bool.false_ne_true, List.map_cons, ← hrest]
      rfl

/-- Among packets that differ in no more than 32 bits in a row if they differ at all, the detector
makes no mistake: what it takes for a duplicate is one of the last 128 new packets. -/
theorem duplicate_iff_packet {cs : List Call} {c : Call}
    (h : ∀ c' ∈ cs, c'.packet = c.packet ∨ Crc.Burst 32 (CRC32.bitsOf c'.packet) (CRC32.bitsOf c.packet)) :
    ((new.calls cs).2.isLikelyDuplicate c.sourceId c.destId c.data).1 = true ↔
      c.packet ∈ ((new.freshCalls cs).rtake EXPIRY_QUEUE_LENGTH).map Call.packet := by
  have hw := windowed_calls cs windowed_new
  rw [List.nil_append] at hw
  have hcrc : (fresh (new.calls cs).1).rtake EXPIRY_QUEUE_LENGTH =
      ((new.freshCalls cs).rtake EXPIRY_QUEUE_LENGTH).map Call.crc := by
    rw [fresh_calls, List.rtake, List.rtake, List.length_map, List.map_drop]
  rw [(windowed_call hw c).1, hcrc, List.mem_map, List.mem_map]
  apply exists_congr
  intro c'
  apply and_congr_right
  intro hmem
  have hin : c' ∈ cs := (freshCalls_sublist new cs).subset ((List.drop_sublist _ _).subset hmem)
  rw [Call.crc_eq, Call.crc_eq]
  constructor
  · intro heq
    rcases h c' hin with hsame | hburst
    · exact hsame
    · exact absurd heq (CRC32.partialCRC_burst _ hburst)
  · intro heq
    rw [heq]

theorem duplicate_iff_packet_pair :
    ((new.calls [⟨1, 0, [1]⟩, ⟨1, 0, [2]⟩]).2.isLikelyDuplicate 1 0 [1]).1 = true ↔
      (⟨1, 0, [1]⟩ : Call).packet ∈
        ((new.freshCalls [⟨1, 0, [1]⟩, ⟨1, 0, [2]⟩]).rtake EXPIRY_QUEUE_LENGTH).map Call.packet :=
  duplicate_iff_packet (c := ⟨1, 0, [1]⟩) (by
    intro c' hc
    rw [List.mem_pair] at hc
    rcases hc with rfl | rfl
    · exact Or.inl rfl
    · refine Or.inr ⟨CRC32.bitsOf (leBytes 4 1 ++ leBytes 4 0), [false, true], [true, false],
        List.replicate 6 false, by decide, by decide, rfl, by decide, by decide⟩)

end DuplicateDetection

end Gpgnet4TA.Taflib
