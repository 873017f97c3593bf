import Gpgnet4TA.Lib.Bytes

/-!
# Byte strings that are changed in place

A write replaces the bytes of a range and has no result outside the string. What was not
written stays: `SameOutside W a b` says that `a` and `b` have the same bytes but at the
positions `W`, and a read that avoids `W` finds the same in both.
-/

namespace Gpgnet4TA.Lib

/-- The bytes `bs` are written at offset `ofs`. -/
def writeAt (mem : Bytes) (ofs : ℕ) (bs : Bytes) : Option Bytes :=
  if ofs + bs.length ≤ mem.length then some (mem.take ofs ++ bs ++ mem.drop (ofs + bs.length)) else none

structure SameOutside (W : ℕ → Prop) (a b : Bytes) : Prop where
  length : b.length = a.length
  bytes : ∀ i, ¬ W i → b[i]? = a[i]?

section same

variable {W W' : ℕ → Prop} {a b c : Bytes}

theorem SameOutside.refl (W : ℕ → Prop) (a : Bytes) : SameOutside W a a := ⟨rfl, fun _ _ => rfl⟩

theorem SameOutside.symm (h : SameOutside W a b) : SameOutside W b a :=
  ⟨h.length.symm, fun i hi => (h.bytes i hi).symm⟩

theorem SameOutside.trans (h : SameOutside W a b) (h' : SameOutside W b c) : SameOutside W a c :=
  ⟨h'.length.trans h.length, fun i hi => (h'.bytes i hi).trans (h.bytes i hi)⟩

theorem SameOutside.mono (h : SameOutside W a b) (hW : ∀ i, W i → W' i) : SameOutside W' a b :=
  ⟨h.length, fun i hi => h.bytes i fun hw => hi (hW i hw)⟩

theorem SameOutside.append (h : SameOutside W a b) (more : Bytes) :
    SameOutside W (a ++ more) (b ++ more) where
  length := by rw [List.length_append, List.length_append, h.length]
  bytes := by
    intro i hi
    by_cases hlt : i < a.length
    · rw [List.getElem?_append_left (by rw [h.length]; exact hlt), List.getElem?_append_left hlt]
      exact h.bytes i hi
    · rw [List.getElem?_append_right (by rw [h.length]; omega),
        List.getElem?_append_right (by omega), h.length]

theorem sliceAt_eq_some {bs s : Bytes} {ofs n : ℕ} :
    sliceAt bs ofs n = some s ↔ ofs + n ≤ bs.length ∧ s = (bs.drop ofs).take n := by
  unfold sliceAt
  split
  · rename_i h
    rw [Option.some.injEq]
    exact ⟨fun heq => ⟨h, heq.symm⟩, fun heq => heq.2.symm⟩
  · rename_i h
    exact ⟨fun hno => (by cases hno), fun heq => absurd heq.1 h⟩

/-- `b` has the bytes of `a` but at the positions `W`, and may have more bytes behind them. -/
structure AgreesOutside (W : ℕ → Prop) (a b : Bytes) : Prop where
  length : a.length ≤ b.length
  bytes : ∀ i < a.length, ¬ W i → b[i]? = a[i]?

theorem SameOutside.agrees {more : Bytes} (h : SameOutside W (a ++ more) b) : AgreesOutside W a b where
  length := by
    rw [h.length, List.length_append]
    omega
  bytes := fun i hi hw => by rw [h.bytes i hw, List.getElem?_append_left hi]

theorem SameOutside.agreesSelf (h : SameOutside W a b) : AgreesOutside W a b where
  length := h.length.ge
  bytes := fun i _ hw => h.bytes i hw

/-- What is behind the changes stays. -/
theorem SameOutside.split {more : Bytes} (h : SameOutside W (a ++ more) b) (hW : ∀ i, W i → i < a.length) :
    ∃ a', b = a' ++ more ∧ SameOutside W a a' := by
  have hlen : b.length = a.length + more.length := by rw [h.length, List.length_append]
  refine ⟨b.take a.length, ?_, ?_, ?_⟩
  · have hdrop : b.drop a.length = more := by
      refine List.ext_getElem? fun i => ?_
      rw [List.getElem?_drop, h.bytes _ fun hw => by have := hW _ hw; omega,
        List.getElem?_append_right (by omega), Nat.add_sub_cancel_left]
    rw [← hdrop, List.take_append_drop]
  · rw [List.length_take]
    omega
  · intro i hi
    rw [List.getElem?_take]
    split
    · rename_i hlt
      rw [h.bytes i hi, List.getElem?_append_left hlt]
    · rename_i hge
      rw [List.getElem?_eq_none (by omega)]

theorem getElem?_of_sliceAt {bs s : Bytes} {ofs n i : ℕ} (h : sliceAt bs ofs n = some s) (hi : i < n) :
    bs[ofs + i]? = s[i]? := by
  obtain ⟨-, rfl⟩ := sliceAt_eq_some.mp h
  rw [List.getElem?_take, if_pos hi, List.getElem?_drop]

/-- A read finds the same when it avoids the changes. -/
theorem AgreesOutside.sliceAt (h : AgreesOutside W a b) {ofs n : ℕ} {s : Bytes}
    (hs : sliceAt a ofs n = some s) (havoid : ∀ i, ofs ≤ i → i < ofs + n → ¬ W i) :
    sliceAt b ofs n = some s := by
  obtain ⟨hle, rfl⟩ := sliceAt_eq_some.mp hs
  refine sliceAt_eq_some.mpr ⟨hle.trans h.length, List.ext_getElem? fun i => ?_⟩
  rw [List.getElem?_take, List.getElem?_take]
  split
  · rename_i hi
    rw [List.getElem?_drop, List.getElem?_drop, h.bytes _ (by omega) (havoid _ (by omega) (by omega))]
  · rfl

theorem AgreesOutside.u16At (h : AgreesOutside W a b) {ofs x : ℕ} (hx : u16At a ofs = some x)
    (havoid : ∀ i, ofs ≤ i → i < ofs + 2 → ¬ W i) : u16At b ofs = some x := by
  obtain ⟨s, hs, rfl⟩ := Option.map_eq_some_iff.mp hx
  rw [Lib.u16At, h.sliceAt hs havoid, Option.map_some]

theorem AgreesOutside.u32At (h : AgreesOutside W a b) {ofs x : ℕ} (hx : u32At a ofs = some x)
    (havoid : ∀ i, ofs ≤ i → i < ofs + 4 → ¬ W i) : u32At b ofs = some x := by
  obtain ⟨s, hs, rfl⟩ := Option.map_eq_some_iff.mp hx
  rw [Lib.u32At, h.sliceAt hs havoid, Option.map_some]

end same

theorem u16At_bound {bs : Bytes} {ofs x : ℕ} (h : u16At bs ofs = some x) : ofs + 2 ≤ bs.length := by
  obtain ⟨s, hs, -⟩ := Option.map_eq_some_iff.mp h
  exact (sliceAt_eq_some.mp hs).1

section write

variable {mem mem' bs : Bytes} {ofs : ℕ}

/-- The range that a write of `n` bytes at `ofs` fills. -/
def Range (ofs n i : ℕ) : Prop := ofs ≤ i ∧ i < ofs + n

theorem writeAt_some (h : ofs + bs.length ≤ mem.length) :
    writeAt mem ofs bs = some (mem.take ofs ++ bs ++ mem.drop (ofs + bs.length)) := if_pos h

theorem writeAt_bound (h : writeAt mem ofs bs = some mem') : ofs + bs.length ≤ mem.length := by
  unfold writeAt at h
  split at h
  · assumption
  · cases h

theorem writeAt_same (h : writeAt mem ofs bs = some mem') : SameOutside (Range ofs bs.length) mem mem' := by
  have hb := writeAt_bound h
  rw [writeAt_some hb] at h
  obtain rfl := Option.some.inj h
  have htake : (mem.take ofs).length = ofs := List.length_take_of_le (by omega)
  constructor
  · rw [List.length_append, List.length_append, htake, List.length_drop]
    omega
  · intro i hi
    rw [List.append_assoc]
    by_cases hlt : i < ofs
    · rw [List.getElem?_append_left (by omega), List.getElem?_take, if_pos hlt]
    · have hge : ofs + bs.length ≤ i := by
        by_contra hno
        exact hi ⟨by omega, by omega⟩
      rw [List.getElem?_append_right (by omega), List.getElem?_append_right (by omega),
        List.getElem?_drop, htake]
      congr 1
      omega

theorem writeAt_read (h : writeAt mem ofs bs = some mem') : sliceAt mem' ofs bs.length = some bs := by
  have hb := writeAt_bound h
  rw [writeAt_some hb] at h
  obtain rfl := Option.some.inj h
  have htake : (mem.take ofs).length = ofs := List.length_take_of_le (by omega)
  have hslice := sliceAt_append (mem.take ofs) bs (mem.drop (ofs + bs.length))
  rwa [htake] at hslice

end write

end Gpgnet4TA.Lib
