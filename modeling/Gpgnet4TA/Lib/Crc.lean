import Mathlib

/-!
# Cyclic redundancy checks

A shift register of `w` bits with feedback `p` takes the bits of a message one after the
other, the lowest bit first. It divides the message, read as a polynomial over `ZMod 2`, by
`X ^ w + p`. Its steps are linear, so what a damaged message leaves in it differs from what the
sound one leaves by what the damage alone leaves.
-/

namespace Gpgnet4TA.Lib.Crc

variable {w : ℕ}

/-- One turn of the register: the lowest bit leaves and is fed back through `p`. -/
def shift (p c : BitVec w) : BitVec w := (c >>> 1) ^^^ if c.getLsbD 0 then p else 0

def bit (b : Bool) : BitVec w := if b then 1 else 0

def crc (p c : BitVec w) (bs : List Bool) : BitVec w := bs.foldl (fun c b => shift p (c ^^^ bit b)) c

/-- The bits of a list, the first one lowest. -/
def word : List Bool → BitVec w
  | [] => 0
  | b :: bs => bit b ^^^ word bs <<< 1

/-! ### Linearity -/

@[simp] theorem crc_nil (p c : BitVec w) : crc p c [] = c := rfl

@[simp] theorem crc_cons (p c : BitVec w) (b : Bool) (bs : List Bool) :
    crc p c (b :: bs) = crc p (shift p (c ^^^ bit b)) bs := rfl

theorem crc_append (p c : BitVec w) (bs bs' : List Bool) : crc p c (bs ++ bs') = crc p (crc p c bs) bs' :=
  List.foldl_append

theorem shift_xor (p x y : BitVec w) : shift p (x ^^^ y) = shift p x ^^^ shift p y := by
  simp only [shift, BitVec.ushiftRight_xor_distrib, BitVec.getLsbD_xor]
  ext i
  cases x.getLsbD 0 <;> cases y.getLsbD 0 <;> simp <;> grind

theorem shift_iterate_xor (p x y : BitVec w) (n : ℕ) :
    (shift p)^[n] (x ^^^ y) = (shift p)^[n] x ^^^ (shift p)^[n] y := by
  induction n with
  | zero => rfl
  | succ n ih => simp only [Function.iterate_succ_apply', ih, shift_xor]

/-- A bit that has not reached the end only moves. -/
theorem shift_iterate_high (p x : BitVec w) {n : ℕ} (h : ∀ i < n, x.getLsbD i = false) :
    (shift p)^[n] x = x >>> n := by
  induction n with
  | zero => simp
  | succ n ih =>
    have hlow : (x >>> n).getLsbD 0 = false := by
      rw [BitVec.getLsbD_ushiftRight]
      exact h n (by omega)
    rw [Function.iterate_succ_apply', ih fun i hi => h i (by omega), shift, hlow]
    simp [BitVec.shiftRight_add]

/-- If the bit that leaves is always fed back into the highest one, no two states meet. -/
theorem shift_injective {p : BitVec w} (hp : p.msb = true) : Function.Injective (shift p) := by
  have hzero : ∀ x : BitVec w, shift p x = 0 → x = 0 := by
    intro x hx
    have hshift : x >>> 1 = if x.getLsbD 0 then p else 0 := BitVec.xor_eq_zero_iff.mp hx
    cases hlow : x.getLsbD 0 with
    | true =>
      rw [hlow, if_pos rfl] at hshift
      rw [← hshift, BitVec.msb_ushiftRight] at hp
      simp at hp
    | false =>
      rw [hlow] at hshift
      apply BitVec.eq_of_getLsbD_eq
      intro i hi
      cases i with
      | zero => simpa using hlow
      | succ i =>
        have hbit := congrArg (fun y => BitVec.getLsbD y i) hshift
        simpa [BitVec.getLsbD_ushiftRight, Nat.add_comm] using hbit
  intro x y hxy
  have hxor : shift p (x ^^^ y) = 0 := by rw [shift_xor, hxy, BitVec.xor_self]; rfl
  exact BitVec.xor_eq_zero_iff.mp (hzero _ hxor)

theorem crc_left_injective {p : BitVec w} (hp : p.msb = true) (bs : List Bool) :
    Function.Injective fun c => crc p c bs := by
  induction bs with
  | nil => exact fun _ _ h => h
  | cons b bs ih =>
    intro c d h
    have hshift := shift_injective hp (ih h)
    exact (BitVec.xor_left_inj _).mp hshift

/-- The register of the other direction, in which the highest bit leaves. -/
theorem reverse_shiftLeft (p x : BitVec w) :
    (x <<< 1 ^^^ if x.msb then p else 0).reverse = shift p.reverse x.reverse := by
  have hlow : x.reverse.getLsbD 0 = x.msb := BitVec.getLsbD_reverse
  rw [shift, hlow]
  apply BitVec.eq_of_getLsbD_eq
  intro i hi
  rw [BitVec.getLsbD_reverse, BitVec.getMsbD_xor, BitVec.getMsbD_shiftLeft, BitVec.getLsbD_xor,
    BitVec.getLsbD_ushiftRight, BitVec.getLsbD_reverse, Nat.add_comm 1 i]
  cases x.msb
  · simp
  · simp only [if_true, BitVec.getLsbD_reverse]

/-- `n` turns: those of the lowest `n` bits, and the others move down. -/
theorem shift_iterate_low (p x : BitVec w) (n : ℕ) :
    (shift p)^[n] x = x >>> n ^^^ (shift p)^[n] ((x.setWidth n).setWidth w) := by
  have hsplit : x = (x ^^^ (x.setWidth n).setWidth w) ^^^ (x.setWidth n).setWidth w := by
    rw [BitVec.xor_assoc, BitVec.xor_self, BitVec.xor_zero]
  have hhigh : ∀ i < n, (x ^^^ (x.setWidth n).setWidth w).getLsbD i = false := by
    intro i hi
    by_cases hw : i < w
    · simp [hi, hw]
    · exact BitVec.getLsbD_of_ge _ _ (by omega)
  have hgone : (x.setWidth n).setWidth w >>> n = (0 : BitVec w) := by
    apply BitVec.eq_of_getLsbD_eq
    intro i _
    simp [BitVec.getLsbD_setWidth]
  conv_lhs => rw [hsplit]
  rw [shift_iterate_xor, shift_iterate_high p _ hhigh, BitVec.ushiftRight_xor_distrib, hgone]
  simp

/-! ### Short messages -/

theorem getLsbD_bit (b : Bool) (i : ℕ) : (bit b : BitVec w).getLsbD i = (decide (i = 0 ∧ 0 < w) && b) := by
  cases b
  · simp [bit]
  · by_cases hi : i = 0 <;> simp [bit, hi, BitVec.getLsbD_one]

theorem getLsbD_word (bs : List Bool) (i : ℕ) :
    (word bs : BitVec w).getLsbD i = (decide (i < w) && bs.getD i false) := by
  induction bs generalizing i with
  | nil => simp [word]
  | cons b bs ih =>
    rw [word, BitVec.getLsbD_xor, getLsbD_bit, BitVec.getLsbD_shiftLeft, ih]
    cases i with
    | zero => simp
    | succ i =>
      by_cases hi : i + 1 < w
      · simp [hi, show i < w by omega]
      · simp [hi]

theorem shift_shiftLeft (p : BitVec w) {x : BitVec w} (h : x.getLsbD (w - 1) = false) : shift p (x <<< 1) = x := by
  have hlow : (x <<< 1).getLsbD 0 = false := by simp [BitVec.getLsbD_shiftLeft]
  rw [shift, hlow]
  apply BitVec.eq_of_getLsbD_eq
  intro i hi
  by_cases hlast : i = w - 1
  · rw [hlast, h]
    simp [BitVec.getLsbD_ushiftRight, BitVec.getLsbD_shiftLeft, show ¬ 1 + (w - 1) < w by omega]
  · simp [show 1 + i < w by omega, BitVec.getLsbD_eq_getElem hi]

/-- A message no longer than the register can be put in at once. -/
theorem crc_word (p c : BitVec w) {bs : List Bool} (h : bs.length ≤ w) :
    crc p c bs = (shift p)^[bs.length] (c ^^^ word bs) := by
  induction bs generalizing c with
  | nil => simp [word]
  | cons b bs ih =>
    have hlen : bs.length + 1 ≤ w := h
    have hlast : (word bs : BitVec w).getLsbD (w - 1) = false := by
      rw [getLsbD_word, List.getD_eq_default _ _ (by omega), Bool.and_false]
    rw [crc_cons, ih _ (by omega), List.length_cons, Function.iterate_succ_apply, word, ← BitVec.xor_assoc,
      shift_xor p (c ^^^ bit b), shift_shiftLeft p hlast]

theorem crc_right_injective {p : BitVec w} (hp : p.msb = true) (c : BitVec w) {xs ys : List Bool}
    (hlen : xs.length = ys.length) (hw : xs.length ≤ w) (h : crc p c xs = crc p c ys) : xs = ys := by
  rw [crc_word p c hw, crc_word p c (hlen ▸ hw), ← hlen] at h
  have hword : (word xs : BitVec w) = word ys :=
    (BitVec.xor_right_inj c).mp ((shift_injective hp).iterate _ h)
  apply List.ext_getElem hlen
  intro i hx hy
  have hbit : (word xs : BitVec w).getLsbD i = (word ys : BitVec w).getLsbD i := by rw [hword]
  rw [getLsbD_word, getLsbD_word] at hbit
  simpa [show i < w by omega, hx, hy] using hbit

/-- Two messages of one length that differ, and only within `n` bits in a row. -/
def Burst (n : ℕ) (as bs : List Bool) : Prop :=
  ∃ us xs ys vs, as = us ++ xs ++ vs ∧ bs = us ++ ys ++ vs ∧ xs.length = ys.length ∧ xs.length ≤ n ∧ xs ≠ ys

theorem Burst.length_eq {n : ℕ} {as bs : List Bool} (h : Burst n as bs) : as.length = bs.length := by
  obtain ⟨us, xs, ys, vs, rfl, rfl, hlen, -, -⟩ := h
  simp [hlen]

/-- Damage to at most `w` bits in a row does not go unnoticed. -/
theorem Burst.crc_ne {p : BitVec w} (hp : p.msb = true) (c : BitVec w) {as bs : List Bool} (h : Burst w as bs) :
    crc p c as ≠ crc p c bs := by
  obtain ⟨us, xs, ys, vs, rfl, rfl, hlen, hw, hne⟩ := h
  intro h
  rw [crc_append, crc_append, crc_append, crc_append] at h
  exact hne (crc_right_injective hp _ hlen hw (crc_left_injective hp vs h))

/-! ### Division -/

section division
open Polynomial

variable {R : Type*} [CommRing R]

/-- The state as a polynomial in `x`, the lowest bit in front. -/
def value (x : R) (c : BitVec w) : R := ∑ i ∈ Finset.range w, if c.getLsbD i then x ^ (w - 1 - i) else 0

def message (x : R) : List Bool → R
  | [] => 0
  | b :: bs => (if b then x ^ bs.length else 0) + message x bs

theorem value_xor (h2 : (2 : R) = 0) (x : R) (c d : BitVec w) : value x (c ^^^ d) = value x c + value x d := by
  rw [value, value, value, ← Finset.sum_add_distrib]
  apply Finset.sum_congr rfl
  intro i _
  rw [BitVec.getLsbD_xor]
  cases c.getLsbD i <;> cases d.getLsbD i <;> simp [← two_mul, h2]

theorem value_bit (x : R) (b : Bool) : value x (bit b : BitVec (w + 1)) = if b then x ^ w else 0 := by
  simp only [value, getLsbD_bit, Finset.sum_range_succ']
  cases b <;> simp

theorem value_ushiftRight (x : R) (c : BitVec (w + 1)) :
    x * value x c = value x (c >>> 1) + if c.getLsbD 0 then x ^ (w + 1) else 0 := by
  have hlast : (c >>> 1).getLsbD w = false := by simp
  rw [value, value, Finset.sum_range_succ', Finset.sum_range_succ _ w, hlast, mul_add, Finset.mul_sum]
  congr 1
  · simp only [Bool.false_eq_true, if_false, add_zero]
    apply Finset.sum_congr rfl
    intro i hi
    have hlt := Finset.mem_range.mp hi
    have hpow : w + 1 - 1 - i = w + 1 - 1 - (i + 1) + 1 := by omega
    rw [BitVec.getLsbD_ushiftRight, Nat.add_comm 1 i, hpow, pow_succ']
    split <;> simp
  · split <;> simp [pow_succ']

/-- Where `x ^ w` is what is fed back, a turn of the register multiplies by `x`. -/
theorem value_shift (h2 : (2 : R) = 0) {x : R} {p : BitVec (w + 1)} (hx : x ^ (w + 1) = value x p)
    (c : BitVec (w + 1)) : value x (shift p c) = x * value x c := by
  rw [shift, value_xor h2, value_ushiftRight, hx]
  congr 1
  split
  · rfl
  · simp [value]

theorem value_crc (h2 : (2 : R) = 0) {x : R} {p : BitVec (w + 1)} (hx : x ^ (w + 1) = value x p)
    (c : BitVec (w + 1)) (bs : List Bool) :
    value x (crc p c bs) = x ^ bs.length * value x c + x ^ (w + 1) * message x bs := by
  induction bs generalizing c with
  | nil => simp [message]
  | cons b bs ih =>
    rw [crc_cons, ih, value_shift h2 hx, value_xor h2, value_bit, message, List.length_cons]
    split <;> ring

theorem map_value {S : Type*} [CommRing S] (f : R →+* S) (x : R) (c : BitVec w) :
    f (value x c) = value (f x) c := by
  simp only [value, map_sum, apply_ite f, map_pow, map_zero]

theorem map_message {S : Type*} [CommRing S] (f : R →+* S) (x : R) (bs : List Bool) :
    f (message x bs) = message (f x) bs := by
  induction bs with
  | nil => simp [message]
  | cons b bs ih => simp only [message, map_add, apply_ite f, map_pow, map_zero, ih]

noncomputable def generator (p : BitVec w) : (ZMod 2)[X] := X ^ w + value X p

theorem degree_value_lt (c : BitVec (w + 1)) : (value X c : (ZMod 2)[X]).degree < (w + 1 : ℕ) := by
  refine lt_of_le_of_lt (degree_sum_le _ _) ?_
  rw [Finset.sup_lt_iff (WithBot.bot_lt_coe _)]
  intro i _
  split
  · rw [degree_X_pow]
    exact_mod_cast Nat.lt_succ_of_le (by omega)
  · rw [degree_zero]
    exact WithBot.bot_lt_coe _

theorem monic_generator (p : BitVec (w + 1)) : (generator p).Monic := monic_X_pow_add (degree_value_lt p)

/-- What the register ends with is the remainder of the message after the division. -/
theorem crc_eq_modByMonic (p c : BitVec (w + 1)) (bs : List Bool) :
    (value X (crc p c bs) : (ZMod 2)[X]) =
      (X ^ bs.length * value X c + X ^ (w + 1) * message X bs) %ₘ generator p := by
  have h2 : (2 : AdjoinRoot (generator p)) = 0 := by
    have hzero : (2 : ZMod 2) = 0 := by decide
    have hmap := congrArg (algebraMap (ZMod 2) (AdjoinRoot (generator p))) hzero
    rwa [map_ofNat, map_zero] at hmap
  have hroot : AdjoinRoot.root (generator p) ^ (w + 1) = value (AdjoinRoot.root (generator p)) p := by
    have hself := AdjoinRoot.mk_self (f := generator p)
    rw [generator, map_add, map_pow, map_value, AdjoinRoot.mk_X] at hself
    have hneg : -value (AdjoinRoot.root (generator p)) p = value (AdjoinRoot.root (generator p)) p := by
      rw [neg_eq_iff_add_eq_zero, ← two_mul, h2, zero_mul]
    rw [← hneg]
    exact eq_neg_of_add_eq_zero_left hself
  have hmk : AdjoinRoot.mk (generator p) (value X (crc p c bs)) =
      AdjoinRoot.mk (generator p) (X ^ bs.length * value X c + X ^ (w + 1) * message X bs) := by
    simp only [map_add, map_mul, map_pow, map_value, map_message, AdjoinRoot.mk_X]
    exact value_crc h2 hroot c bs
  have hdegree : (generator p).degree = (w + 1 : ℕ) := by
    rw [generator, degree_add_eq_left_of_degree_lt, degree_X_pow]
    rw [degree_X_pow]
    exact degree_value_lt p
  rw [← modByMonic_eq_of_dvd_sub (monic_generator p) (AdjoinRoot.mk_eq_mk.mp hmk), eq_comm,
    modByMonic_eq_self_iff (monic_generator p), hdegree]
  exact degree_value_lt _

end division

end Gpgnet4TA.Lib.Crc
