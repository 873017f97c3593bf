import Gpgnet4TA.Tapacket.SubPackets

/-!
# Recorded moves (`TPacket.cpp:577-607`)

`SmartPaker` leaves out what `unsmartpak` can find out: the tick number of every unit
movement but the first, and the whole of an empty one.
-/

namespace Gpgnet4TA.Tapacket
open Gpgnet4TA.Lib SubPacketCode

structure SmartPaker where
  first : Bool

namespace SmartPaker

def new : SmartPaker := ⟨true⟩

/-- `operator()`. -/
def apply (p : SmartPaker) (subpak : Bytes) : Bytes × SmartPaker :=
  if subpak.length < 7 ∨ byteAt subpak 0 ≠ UNIT_STAT_AND_MOVE_2C then (subpak, p)
  else
    let start := if p.first then SMARTPAK_TICK_START_FE :: (subpak.drop 3).take 4 else []
    let body := if byteAt subpak 1 = 0x0b ∧ byteAt subpak 2 = 0x00 then [SMARTPAK_TICK_FF]
      else SMARTPAK_TICK_OTHER_FD :: (subpak.drop 1).take 2 ++ subpak.drop 7
    (start ++ body, ⟨false⟩)

/-- One subpacket after the other. -/
def pack (p : SmartPaker) : List Bytes → Bytes
  | [] => []
  | subpak :: subpaks => (p.apply subpak).1 ++ (p.apply subpak).2.pack subpaks

end SmartPaker

/-! ### One subpacket -/

/-- A subpacket whose end can be told whatever follows it, as far as lengths are `unsigned`. -/
def Delimited (s : Bytes) : Prop :=
  0 < s.length ∧ s.length < 2 ^ 32 ∧
    ∀ t, (s ++ t).length < 2 ^ 32 → getExpectedSubPacketSize (s ++ t) = some s.length

/-- A unit movement that is packed. -/
def IsMove (s : Bytes) : Prop := 7 ≤ s.length ∧ byteAt s 0 = UNIT_STAT_AND_MOVE_2C

instance (s : Bytes) : Decidable (IsMove s) := inferInstanceAs (Decidable (_ ∧ _))

def tick (s : Bytes) : ℕ := leVal ((s.drop 3).take 4)

theorem tick_lt (s : Bytes) : tick s < 2 ^ 32 := by
  have hlt := leVal_lt ((s.drop 3).take 4)
  have hle : 256 ^ ((s.drop 3).take 4).length ≤ 256 ^ 4 :=
    Nat.pow_le_pow_right (by omega) (List.length_take_le 4 _)
  unfold tick
  omega

/-- The slice `x` in front of `rest`. -/
theorem unsmartpakLoop_slice {x rest : Bytes} {packnum packnum' : ℕ} {out : List Bytes} (hx : x ≠ [])
    (hlen : (x ++ rest).length < 2 ^ 32)
    (hsize : getExpectedSubPacketSize (x ++ rest) = some x.length)
    (hone : unsmartpakOne (x ++ (rest ++ [0])) x.length packnum = some (out, packnum')) (fuel : ℕ)
    (ut : List Bytes) :
    unsmartpakLoop (fuel + 1) (x ++ rest ++ [0]) (x ++ rest).length packnum ut =
      unsmartpakLoop fuel (rest ++ [0]) rest.length packnum' (ut ++ out) := by
  have hpos : 0 < x.length := List.length_pos_iff.mpr hx
  have hcut : ¬ (x.length = 0 ∨ (x ++ rest).length < x.length) := by
    rw [List.length_append]
    omega
  have hrest : (x ++ rest).length - x.length = rest.length := by
    rw [List.length_append, Nat.add_sub_cancel_left]
  rw [getExpectedSubPacketSize] at hsize
  rw [unsmartpakLoop, if_pos (by rw [List.length_append]; omega), hsize]
  simp only [Option.bind_eq_bind, Option.bind_some, if_neg hcut, hrest]
  rw [List.append_assoc, hone]
  simp only [Option.bind_some, List.drop_left' rfl]

theorem unsmartpakOne_plain {s more : Bytes} {packnum : ℕ} (hs : s ≠ [])
    (hcode : byteAt s 0 ≠ SMARTPAK_TICK_OTHER_FD ∧ byteAt s 0 ≠ SMARTPAK_TICK_START_FE ∧
      byteAt s 0 ≠ SMARTPAK_TICK_FF) :
    unsmartpakOne (s ++ more) s.length packnum = some ([s], packnum) := by
  obtain ⟨b, s, rfl⟩ := List.exists_cons_of_ne_nil hs
  obtain ⟨h1, h2, h3⟩ := hcode
  have hhead : byteAt (b :: s) 0 = b := rfl
  rw [hhead] at h1 h2 h3
  have hslice : sliceAt (b :: s ++ more) 0 (b :: s).length = some (b :: s) := by
    rw [sliceAt, if_pos (by rw [List.length_append]; omega), List.drop_zero, List.take_left' rfl]
  rw [unsmartpakOne, hslice]
  simp only [List.cons_append, List.head?_cons, Option.bind_eq_bind, Option.bind_some, if_neg h1,
    if_neg h2, if_neg h3]
  rfl

theorem move_eq {s : Bytes} (hs : Delimited s) (hmove : IsMove s) : ∃ x y, leVal [x, y] = s.length ∧
    s = UNIT_STAT_AND_MOVE_2C :: x :: y :: (leBytes 4 (tick s) ++ s.drop 7) := by
  obtain ⟨hlen, hcode⟩ := hmove
  obtain ⟨a, x, y, rest, rfl⟩ : ∃ a x y rest, s = a :: x :: y :: rest := by
    match s, hlen with
    | a :: x :: y :: rest, _ => exact ⟨a, x, y, rest, rfl⟩
  have ha : a = UNIT_STAT_AND_MOVE_2C := hcode
  subst ha
  have hsize := hs.2.2 [] (by rw [List.append_nil]; exact hs.2.1)
  refine ⟨x, y, ?_, ?_⟩
  · have hread : u16At (UNIT_STAT_AND_MOVE_2C :: x :: y :: rest ++ [0]) 1 = some (leVal [x, y]) := by
      rw [u16At, sliceAt, if_pos (by simp only [List.length_append, List.length_cons]; omega)]
      rfl
    rw [List.append_nil, getExpectedSubPacketSize, unsigned_of_lt hs.2.1, getExpectedSubPacketSizeN,
      if_neg (by simp only [List.length_cons]; omega), hread] at hsize
    simp only [List.cons_append, List.head?_cons, Option.bind_eq_bind, Option.bind_some] at hsize
    rw [if_neg (by decide), if_neg (by decide), if_pos trivial, if_pos (by omega)] at hsize
    exact Option.some.inj hsize
  · have hfour : (rest.take 4).length = 4 := by
      simp only [List.length_cons] at hlen
      rw [List.length_take]
      omega
    have htick : leBytes 4 (tick (UNIT_STAT_AND_MOVE_2C :: x :: y :: rest)) = rest.take 4 := by
      have h := leBytes_leVal (rest.take 4)
      rw [hfour] at h
      exact h
    rw [htick]
    show _ = _ :: x :: y :: (rest.take 4 ++ rest.drop 4)
    rw [List.take_append_drop]

theorem delimited_fixed {b : Byte} {rest : Bytes} (hsize : fixedSizes.lookup b = some (rest.length + 1))
    (hlen : rest.length < 1000) (hcode : b ∉ [ZERO_00, CHAT_05, UNIT_STAT_AND_MOVE_2C,
      THALDREN_EXTENDED_42, RECORDER_DATA_CONNECT_FB, SMARTPAK_TICK_OTHER_FD]) :
    Delimited (b :: rest) := by
  simp only [List.mem_cons, List.not_mem_nil, or_false, not_or] at hcode
  obtain ⟨h1, h2, h3, h4, h5, h6⟩ := hcode
  refine ⟨by simp, by rw [List.length_cons]; omega, fun t ht => ?_⟩
  rw [getExpectedSubPacketSize, unsigned_of_lt ht, getExpectedSubPacketSizeN,
    if_neg (by simp only [List.length_append, List.length_cons]; omega)]
  simp only [List.cons_append, List.head?_cons, Option.bind_eq_bind, Option.bind_some, if_neg h1,
    if_neg h2, if_neg h3, if_neg h4, if_neg h5, if_neg h6, hsize]
  rfl

theorem delimited_move {x y : Byte} {rest : Bytes} (hsize : leVal [x, y] = rest.length + 3) :
    Delimited (UNIT_STAT_AND_MOVE_2C :: x :: y :: rest) := by
  have hx := x.toNat_lt
  have hy := y.toNat_lt
  have hval : leVal [x, y] = x.toNat + 256 * y.toNat := by simp [leVal]
  refine ⟨by simp, by simp only [List.length_cons]; omega, fun t ht => ?_⟩
  have hread : u16At (UNIT_STAT_AND_MOVE_2C :: x :: y :: rest ++ t ++ [0]) 1 = some (leVal [x, y]) := by
    rw [u16At, sliceAt, if_pos (by simp only [List.length_append, List.length_cons]; omega)]
    rfl
  rw [getExpectedSubPacketSize, unsigned_of_lt ht, getExpectedSubPacketSizeN,
    if_neg (by simp only [List.length_append, List.length_cons]; omega), hread]
  simp only [List.cons_append, List.head?_cons, Option.bind_eq_bind, Option.bind_some]
  rw [if_neg (by decide), if_neg (by decide), if_pos trivial,
    if_pos (by simp only [List.length_append, List.length_cons]; omega), hsize]
  rfl

section slices

variable {rest : Bytes} {packnum fuel : ℕ} {ut : List Bytes}

theorem unsmartpakLoop_start {t : ℕ} (ht : t < 2 ^ 32)
    (hlen : (SMARTPAK_TICK_START_FE :: leBytes 4 t ++ rest).length < 2 ^ 32) :
    unsmartpakLoop (fuel + 1) (SMARTPAK_TICK_START_FE :: leBytes 4 t ++ rest ++ [0])
        (SMARTPAK_TICK_START_FE :: leBytes 4 t ++ rest).length packnum ut =
      unsmartpakLoop fuel (rest ++ [0]) rest.length t ut := by
  have hread : u32At ([SMARTPAK_TICK_START_FE] ++ leBytes 4 t ++ (rest ++ [0])) 1 = some t :=
    u32At_append [SMARTPAK_TICK_START_FE] (rest ++ [0]) t ht
  have hone : unsmartpakOne (SMARTPAK_TICK_START_FE :: leBytes 4 t ++ (rest ++ [0]))
      (SMARTPAK_TICK_START_FE :: leBytes 4 t).length packnum = some ([], t) := by
    rw [unsmartpakOne]
    simp only [List.cons_append, List.nil_append, List.head?_cons, Option.bind_eq_bind,
      Option.bind_some, if_true] at hread ⊢
    rw [hread]
    rfl
  have hsize : getExpectedSubPacketSize (SMARTPAK_TICK_START_FE :: leBytes 4 t ++ rest) =
      some (SMARTPAK_TICK_START_FE :: leBytes 4 t).length := by
    rw [getExpectedSubPacketSize, unsigned_of_lt hlen, getExpectedSubPacketSizeN,
      if_neg (by simp only [List.length_append, List.length_cons]; omega), List.length_cons,
      length_leBytes]
    rfl
  have h := unsmartpakLoop_slice (by simp) hlen hsize hone fuel ut
  rw [List.append_nil] at h
  exact h

/-- What `SmartPaker` makes of a unit movement, and `unsmartpak` of that. -/
theorem unsmartpakLoop_move {s : Bytes} (hs : Delimited s) (hmove : IsMove s)
    (hempty : s.length = 11 → s.drop 7 = [0xff, 0xff, 1, 0])
    (hlen : (((⟨false⟩ : SmartPaker).apply s).1 ++ rest).length < 2 ^ 32) :
    unsmartpakLoop (fuel + 1) (((⟨false⟩ : SmartPaker).apply s).1 ++ rest ++ [0])
        (((⟨false⟩ : SmartPaker).apply s).1 ++ rest).length (tick s) ut =
      unsmartpakLoop fuel (rest ++ [0]) rest.length (unsigned (tick s + 1)) (ut ++ [s]) := by
  obtain ⟨x, y, hval, hparts⟩ := move_eq hs hmove
  have hx : byteAt s 1 = x := by rw [hparts]; rfl
  have hy : byteAt s 2 = y := by rw [hparts]; rfl
  have hxy : (s.drop 1).take 2 = [x, y] := by rw [hparts]; rfl
  have hunpacked : ¬ (s.length < 7 ∨ byteAt s 0 ≠ UNIT_STAT_AND_MOVE_2C) := by
    intro hgiven
    obtain h | h := hgiven
    · have := hmove.1
      omega
    · exact h hmove.2
  have happly : ((⟨false⟩ : SmartPaker).apply s).1 = if x = 0x0b ∧ y = 0x00 then [SMARTPAK_TICK_FF]
      else SMARTPAK_TICK_OTHER_FD :: [x, y] ++ s.drop 7 := by
    simp only [SmartPaker.apply, if_neg hunpacked, hx, hy, hxy]
    rfl
  rw [happly] at hlen ⊢
  by_cases hff : x = 0x0b ∧ y = 0x00
  · -- nothing of it is written
    obtain ⟨rfl, rfl⟩ := hff
    rw [if_pos ⟨rfl, rfl⟩] at hlen ⊢
    have heleven : s.length = 11 := by
      rw [← hval]
      rfl
    have hout : s = [0x2c, 0x0b, 0] ++ leBytes 4 (tick s) ++ [0xff, 0xff, 1, 0] := by
      rw [hempty heleven] at hparts
      exact hparts
    have hone : unsmartpakOne ([SMARTPAK_TICK_FF] ++ (rest ++ [0])) [SMARTPAK_TICK_FF].length (tick s) =
        some ([s], unsigned (tick s + 1)) := by
      exact congrArg (fun r => some ([r], unsigned (tick s + 1))) hout.symm
    have hsize : getExpectedSubPacketSize ([SMARTPAK_TICK_FF] ++ rest) =
        some [SMARTPAK_TICK_FF].length := by
      rw [getExpectedSubPacketSize, unsigned_of_lt hlen, getExpectedSubPacketSizeN,
        if_neg (by simp only [List.length_append, List.length_cons]; omega)]
      rfl
    exact unsmartpakLoop_slice (by simp) hlen hsize hone fuel ut
  · rw [if_neg hff] at hlen ⊢
    have hlen7 : (s.drop 7).length + 7 = s.length := by
      have := hmove.1
      rw [List.length_drop]
      omega
    obtain ⟨bs, hbs⟩ : ∃ bs, s.drop 7 = bs := ⟨_, rfl⟩
    rw [hbs] at hlen hlen7 hparts ⊢
    have hout : s = 0x2c :: [x, y] ++ leBytes 4 (tick s) ++ bs := by
      rw [List.append_assoc]
      exact hparts
    have hone : unsmartpakOne (SMARTPAK_TICK_OTHER_FD :: [x, y] ++ bs ++ (rest ++ [0]))
        (SMARTPAK_TICK_OTHER_FD :: [x, y] ++ bs).length (tick s) =
        some ([s], unsigned (tick s + 1)) := by
      have hhead : sliceAt (SMARTPAK_TICK_OTHER_FD :: [x, y] ++ bs ++ (rest ++ [0])) 1 2 =
          some [x, y] := by
        rw [sliceAt, if_pos (by simp only [List.length_append, List.length_cons]; omega)]
        rfl
      have hbody : sliceAt (SMARTPAK_TICK_OTHER_FD :: [x, y] ++ bs ++ (rest ++ [0])) 3
          ((SMARTPAK_TICK_OTHER_FD :: [x, y] ++ bs).length - 3) = some bs := by
        have hn : (SMARTPAK_TICK_OTHER_FD :: [x, y] ++ bs).length - 3 = bs.length := by simp
        have h := sliceAt_append (SMARTPAK_TICK_OTHER_FD :: [x, y]) bs (rest ++ [0])
        rw [hn]
        exact h
      rw [unsmartpakOne, hhead, hbody]
      simp only [List.cons_append, List.head?_cons, Option.bind_eq_bind, Option.bind_some]
      rw [if_neg (by decide), if_neg (by decide), if_pos trivial,
        if_neg (by simp only [List.length_cons, List.length_append]; omega)]
      exact congrArg (fun r => some ([r], unsigned (tick s + 1))) hout.symm
    have hsize : getExpectedSubPacketSize (SMARTPAK_TICK_OTHER_FD :: [x, y] ++ bs ++ rest) =
        some (SMARTPAK_TICK_OTHER_FD :: [x, y] ++ bs).length := by
      have hread : u16At (SMARTPAK_TICK_OTHER_FD :: [x, y] ++ bs ++ rest ++ [0]) 1 = some s.length := by
        rw [u16At, sliceAt, if_pos (by simp only [List.length_append, List.length_cons]; omega), ← hval]
        rfl
      have hfour : unsigned (s.length + (2 ^ 32 - 4)) = bs.length + 3 := by
        have := hs.2.1
        unfold unsigned
        omega
      rw [getExpectedSubPacketSize, unsigned_of_lt hlen, getExpectedSubPacketSizeN,
        if_neg (by simp only [List.length_append, List.length_cons]; omega), hread]
      simp only [List.cons_append, List.head?_cons, Option.bind_eq_bind, Option.bind_some]
      rw [if_neg (by decide), if_neg (by decide), if_neg (by decide), if_neg (by decide),
        if_neg (by decide), if_pos trivial,
        if_pos (by simp only [List.length_append, List.length_cons]; omega), Option.map_some, hfour]
      simp
    exact unsmartpakLoop_slice (by simp) hlen hsize hone fuel ut

end slices

/-! ### Lists of subpackets -/

/-- What a recorded subpacket must be like. -/
structure Recordable (s : Bytes) : Prop where
  delimited : Delimited s
  code : byteAt s 0 ≠ SMARTPAK_TICK_OTHER_FD ∧ byteAt s 0 ≠ SMARTPAK_TICK_START_FE ∧
    byteAt s 0 ≠ SMARTPAK_TICK_FF
  empty : byteAt s 0 = UNIT_STAT_AND_MOVE_2C → s.length = 11 → s.drop 7 = [0xff, 0xff, 1, 0]

/-- The tick numbers of the unit movements. -/
def ticks (subpaks : List Bytes) : List ℕ := (subpaks.filter (IsMove ·)).map tick

theorem ticks_move {s : Bytes} (h : IsMove s) (subpaks : List Bytes) :
    ticks (s :: subpaks) = tick s :: ticks subpaks := by
  simp [ticks, h]

theorem ticks_other {s : Bytes} (h : ¬ IsMove s) (subpaks : List Bytes) :
    ticks (s :: subpaks) = ticks subpaks := by
  simp [ticks, h]

theorem apply_other {s : Bytes} (h : ¬ IsMove s) (p : SmartPaker) : p.apply s = (s, p) := by
  have hcond : s.length < 7 ∨ byteAt s 0 ≠ UNIT_STAT_AND_MOVE_2C := by
    by_contra hno
    exact h ⟨by omega, by_contra fun hne => hno (Or.inr hne)⟩
  rw [SmartPaker.apply, if_pos hcond]

theorem apply_move {s : Bytes} (h : IsMove s) (p : SmartPaker) :
    p.apply s = ((if p.first then SMARTPAK_TICK_START_FE :: leBytes 4 (tick s) else []) ++
      ((⟨false⟩ : SmartPaker).apply s).1, ⟨false⟩) := by
  have hcond : ¬ (s.length < 7 ∨ byteAt s 0 ≠ UNIT_STAT_AND_MOVE_2C) := by
    intro hx
    obtain hlt | hne := hx
    · have := h.1
      omega
    · exact hne h.2
  have htick : (s.drop 3).take 4 = leBytes 4 (tick s) := by
    have hfour : ((s.drop 3).take 4).length = 4 := by
      have := h.1
      rw [List.length_take, List.length_drop]
      omega
    have hval := leBytes_leVal ((s.drop 3).take 4)
    rw [hfour] at hval
    exact hval.symm
  simp only [SmartPaker.apply, if_neg hcond, htick, Bool.false_eq_true, if_false, List.nil_append]

theorem apply_length {s : Bytes} (hs : 0 < s.length) (p : SmartPaker) : 0 < (p.apply s).1.length := by
  unfold SmartPaker.apply
  split
  · exact hs
  · simp only [List.length_append]
    have hbody : ∀ (c : Prop) [Decidable c] (a b : Byte) (x y : Bytes),
        0 < (if c then a :: x else b :: y).length := by
      intro c _ a b x y
      split <;> simp
    have := hbody (byteAt s 1 = 0x0b ∧ byteAt s 2 = 0x00) SMARTPAK_TICK_FF SMARTPAK_TICK_OTHER_FD []
      ((s.drop 1).take 2 ++ s.drop 7)
    exact Nat.add_pos_right _ this

/-- After its first tick start the packer and the decoder count together. -/
theorem unsmartpakLoop_pack (subpaks : List Bytes) (hrec : ∀ s ∈ subpaks, Recordable s) (p : SmartPaker)
    (packnum : ℕ) (hticks : (ticks subpaks).IsChain (fun a b => b = (a + 1) % 2 ^ 32))
    (hstart : p.first = false → ∀ t, (ticks subpaks).head? = some t → t = packnum)
    (hlen : (p.pack subpaks).length < 2 ^ 32) (fuel : ℕ) (hfuel : (p.pack subpaks).length < fuel)
    (ut : List Bytes) :
    unsmartpakLoop fuel (p.pack subpaks ++ [0]) (p.pack subpaks).length packnum ut =
      some (ut ++ subpaks) := by
  induction subpaks generalizing p packnum fuel ut with
  | nil =>
    obtain ⟨fuel, rfl⟩ := Nat.exists_eq_succ_of_ne_zero (by omega : fuel ≠ 0)
    simp [SmartPaker.pack, unsmartpakLoop]
  | cons s subpaks ih =>
    have hs := hrec s List.mem_cons_self
    have hrest : ∀ t ∈ subpaks, Recordable t := fun t ht => hrec t (List.mem_cons_of_mem _ ht)
    have hpos := apply_length hs.delimited.1 p
    rw [SmartPaker.pack] at hlen hfuel ⊢
    have hsum : ((p.apply s).1 ++ (p.apply s).2.pack subpaks).length =
      (p.apply s).1.length + ((p.apply s).2.pack subpaks).length := List.length_append
    obtain ⟨fuel, rfl⟩ := Nat.exists_eq_succ_of_ne_zero (by omega : fuel ≠ 0)
    by_cases hmove : IsMove s
    · rw [ticks_move hmove] at hticks hstart
      have hnext : ∀ t, (ticks subpaks).head? = some t → t = unsigned (tick s + 1) := by
        intro t ht
        cases htail : ticks subpaks with
        | nil =>
          rw [htail] at ht
          cases ht
        | cons a l =>
          rw [htail] at ht hticks
          cases ht
          exact (List.isChain_cons_cons.mp hticks).1
      have htail := hticks.tail
      rw [List.tail_cons] at htail
      have hempty := hs.empty hmove.2
      rw [apply_move hmove] at hlen hfuel hsum ⊢
      simp only [] at hlen hfuel hsum ⊢
      have hgo : ∀ fuel ut, (((⟨false⟩ : SmartPaker).apply s).1 ++ (⟨false⟩ : SmartPaker).pack subpaks).length <
          fuel + 1 → unsmartpakLoop (fuel + 1)
            (((⟨false⟩ : SmartPaker).apply s).1 ++ (⟨false⟩ : SmartPaker).pack subpaks ++ [0])
            (((⟨false⟩ : SmartPaker).apply s).1 ++ (⟨false⟩ : SmartPaker).pack subpaks).length (tick s) ut =
          some (ut ++ s :: subpaks) := by
        intro fuel ut hf
        have hpos' := apply_length hs.delimited.1 ⟨false⟩
        rw [List.length_append] at hf
        simp only [List.length_append] at hlen
        rw [unsmartpakLoop_move hs.delimited hmove hempty (by rw [List.length_append]; omega),
          ih hrest ⟨false⟩ _ htail (fun _ => hnext) (by omega) fuel (by omega), List.append_assoc]
        rfl
      cases hfirst : p.first with
      | false =>
        have hpack : tick s = packnum := hstart hfirst _ rfl
        simp only [hfirst, Bool.false_eq_true, if_false, List.nil_append] at hfuel ⊢
        rw [← hpack]
        exact hgo fuel ut (by omega)
      | true =>
        have hassoc : SMARTPAK_TICK_START_FE :: leBytes 4 (tick s) ++ ((⟨false⟩ : SmartPaker).apply s).1 ++
            (⟨false⟩ : SmartPaker).pack subpaks = SMARTPAK_TICK_START_FE :: leBytes 4 (tick s) ++
            (((⟨false⟩ : SmartPaker).apply s).1 ++ (⟨false⟩ : SmartPaker).pack subpaks) :=
          List.append_assoc _ _ _
        simp only [hfirst, if_true] at hlen hfuel ⊢
        rw [hassoc] at hlen hfuel ⊢
        have hsum' : (SMARTPAK_TICK_START_FE :: leBytes 4 (tick s) ++
            (((⟨false⟩ : SmartPaker).apply s).1 ++ (⟨false⟩ : SmartPaker).pack subpaks)).length =
            5 + (((⟨false⟩ : SmartPaker).apply s).1 ++ (⟨false⟩ : SmartPaker).pack subpaks).length := by
          rw [List.length_append, List.length_cons, length_leBytes]
        obtain ⟨fuel, rfl⟩ := Nat.exists_eq_succ_of_ne_zero (by omega : fuel ≠ 0)
        rw [unsmartpakLoop_start (tick_lt s) hlen]
        exact hgo fuel ut (by omega)
    · rw [ticks_other hmove] at hticks hstart
      rw [apply_other hmove] at hlen hfuel hsum ⊢
      have hne : s ≠ [] := List.ne_nil_of_length_pos hs.delimited.1
      simp only [] at hlen hfuel hsum ⊢
      rw [unsmartpakLoop_slice hne hlen (hs.delimited.2.2 _ hlen)
        (unsmartpakOne_plain hne hs.code),
        ih hrest p packnum hticks hstart (by omega) fuel (by have := hs.delimited.1; omega), List.append_assoc]
      rfl

/-- What was recorded is what is read. -/
theorem unsmartpak_pack (subpaks : List Bytes) (hrec : ∀ s ∈ subpaks, Recordable s)
    (hticks : (ticks subpaks).IsChain (fun a b => b = (a + 1) % 2 ^ 32))
    (hlen : (SmartPaker.new.pack subpaks).length < 2 ^ 32) :
    unsmartpak (0x03 :: SmartPaker.new.pack subpaks) false false = some subpaks :=
  unsmartpakLoop_pack subpaks hrec .new 0 hticks (fun h => by cases h) hlen _
    (by rw [List.length_cons]; omega) []

/-- A start of loading, two movements and a speed change. -/
theorem unsmartpak_pack_moves :
    unsmartpak (0x03 :: SmartPaker.new.pack [[0x08], [0x2c, 9, 0, 5, 0, 0, 0, 1, 2],
      [0x2c, 0x0b, 0, 6, 0, 0, 0, 0xff, 0xff, 1, 0], [0x19, 1, 2]]) false false =
    some [[0x08], [0x2c, 9, 0, 5, 0, 0, 0, 1, 2], [0x2c, 0x0b, 0, 6, 0, 0, 0, 0xff, 0xff, 1, 0],
      [0x19, 1, 2]] := by
  apply unsmartpak_pack
  · simp only [List.forall_mem_cons, List.not_mem_nil, false_implies, implies_true, and_true]
    refine ⟨⟨delimited_fixed rfl (by decide) (by decide), by decide, by decide⟩,
      ⟨delimited_move (by decide), by decide, by decide⟩,
      ⟨delimited_move (by decide), by decide, by decide⟩,
      ⟨delimited_fixed rfl (by decide) (by decide), by decide, by decide⟩⟩
  · decide
  · decide

/-- `2 ^ 32` encryption pads: the decoder does not return. -/
theorem unsmartpak_pack_too_long : Recordable [PAD_ENCRYPT_06] ∧
    ticks (List.replicate (2 ^ 32) [PAD_ENCRYPT_06]) = [] ∧
    unsmartpak (0x03 :: SmartPaker.new.pack (List.replicate (2 ^ 32) [PAD_ENCRYPT_06])) false false =
      none := by
  have hpack : ∀ n (p : SmartPaker), p.pack (List.replicate n [PAD_ENCRYPT_06]) =
      List.replicate n PAD_ENCRYPT_06 := by
    intro n p
    induction n with
    | zero => rfl
    | succ n ih =>
      rw [List.replicate_succ, SmartPaker.pack, apply_other (by decide)]
      simp only [ih, List.replicate_succ]
      rfl
  have hticks : ∀ n, ticks (List.replicate n [PAD_ENCRYPT_06]) = [] := by
    intro n
    induction n with
    | zero => rfl
    | succ n ih => rw [List.replicate_succ, ticks_other (by decide), ih]
  refine ⟨⟨delimited_fixed rfl (by decide) (by decide), by decide, by decide⟩, hticks _, ?_⟩
  rw [hpack]
  apply unsmartpak_diverges
  · rw [List.length_replicate]
  · rw [List.head?_replicate, if_neg (by omega)]

end Gpgnet4TA.Tapacket
