import Gpgnet4TA.Tapacket.SubPackets

/-!
# Measuring a subpacket again

`unsmartpak` cuts a packet by sizes that are taken with the rest of the packet in view, and who
gets the subpackets measures each of them once more. The two sizes differ for some long chat
messages.
-/

namespace Gpgnet4TA.Tapacket
open Gpgnet4TA.Lib SubPacketCode

/-! ### The cuts -/

/-- The bytes that the loop takes for a subpacket. -/
def subpakLen (expected remaining : ℕ) : ℕ :=
  if expected = 0 ∨ remaining < expected then unsigned remaining else expected

/-- The loop of `unsmartpak` comes by `ptr`, with `remaining` bytes to go. -/
inductive Cut (c : Bytes) (hasTimestamp hasChecksum : Bool) : Bytes → ℕ → ℕ → Prop
  | start {buffer : Bytes} :
      (if byteAt c 0 = 0x04 then decompress c (if hasChecksum then 3 else 1) else some c) = some buffer →
      Cut c hasTimestamp hasChecksum
        ((buffer ++ [0]).drop (1 + (if hasChecksum then 2 else 0) + (if hasTimestamp then 4 else 0)))
        (buffer.length - (1 + (if hasChecksum then 2 else 0) + (if hasTimestamp then 4 else 0))) 0
  | next {ptr : Bytes} {remaining packnum expected packnum' : ℕ} {subpaks : List Bytes} :
      Cut c hasTimestamp hasChecksum ptr remaining packnum → 0 < remaining →
      getExpectedSubPacketSizeN ptr (unsigned remaining) = some expected →
      unsmartpakOne ptr (subpakLen expected remaining) packnum = some (subpaks, packnum') →
      Cut c hasTimestamp hasChecksum (ptr.drop (subpakLen expected remaining))
        (remaining - subpakLen expected remaining) packnum'

section cuts

variable {c ptr : Bytes} {hasTimestamp hasChecksum : Bool} {remaining packnum : ℕ}

theorem subpakLen_le (expected remaining : ℕ) : subpakLen expected remaining ≤ remaining := by
  unfold subpakLen
  split
  · exact Nat.mod_le _ _
  · omega

theorem Cut.length (h : Cut c hasTimestamp hasChecksum ptr remaining packnum) (hpos : 0 < remaining) :
    ptr.length = remaining + 1 := by
  induction h with
  | start =>
    rw [List.length_drop, List.length_append, List.length_singleton]
    omega
  | next _ hbefore _ _ ih =>
    have hlen := ih hbefore
    rw [List.length_drop]
    omega

/-- The cut emits `s`. -/
def Emits (c : Bytes) (hasTimestamp hasChecksum : Bool) (s : Bytes) : Prop :=
  ∃ ptr remaining packnum expected subpaks packnum', Cut c hasTimestamp hasChecksum ptr remaining packnum ∧
    0 < remaining ∧ getExpectedSubPacketSizeN ptr (unsigned remaining) = some expected ∧
    unsmartpakOne ptr (subpakLen expected remaining) packnum = some (subpaks, packnum') ∧ s ∈ subpaks

theorem emits_of_loop (fuel : ℕ) (h : Cut c hasTimestamp hasChecksum ptr remaining packnum)
    {ut out : List Bytes} (hrun : unsmartpakLoop fuel ptr remaining packnum ut = some out) :
    ∀ s ∈ out, s ∈ ut ∨ Emits c hasTimestamp hasChecksum s := by
  induction fuel generalizing ptr remaining packnum ut with
  | zero => cases hrun
  | succ fuel ih =>
    rw [unsmartpakLoop] at hrun
    split at hrun
    · rename_i hpos
      obtain ⟨expected, hsize, hrun⟩ := Option.bind_eq_some_iff.mp hrun
      obtain ⟨⟨subpaks, packnum'⟩, hone, hrun⟩ := Option.bind_eq_some_iff.mp hrun
      intro s hs
      rcases ih (h.next hpos hsize hone) hrun s hs with hold | hnew
      · rcases List.mem_append.mp hold with hut | hsub
        · exact .inl hut
        · exact .inr ⟨ptr, remaining, packnum, expected, subpaks, packnum', h, hpos, hsize, hone, hsub⟩
      · exact .inr hnew
    · cases hrun
      exact fun s hs => .inl hs

theorem unsmartpak_eq (c : Bytes) (hasTimestamp hasChecksum : Bool) :
    unsmartpak c hasTimestamp hasChecksum =
      (if byteAt c 0 = 0x04 then decompress c (if hasChecksum then 3 else 1) else some c).bind fun buffer =>
        unsmartpakLoop (buffer.length + 1)
          ((buffer ++ [0]).drop (1 + (if hasChecksum then 2 else 0) + (if hasTimestamp then 4 else 0)))
          (buffer.length - (1 + (if hasChecksum then 2 else 0) + (if hasTimestamp then 4 else 0))) 0 [] := by
  unfold unsmartpak
  by_cases hcode : byteAt c 0 = 0x04
  · simp only [hcode, if_true]
    rfl
  · simp only [hcode, if_false]
    rfl

/-- What `unsmartpak` returns has been cut. -/
theorem emits_of_unsmartpak {out : List Bytes} (h : unsmartpak c hasTimestamp hasChecksum = some out) :
    ∀ s ∈ out, Emits c hasTimestamp hasChecksum s := by
  rw [unsmartpak_eq] at h
  obtain ⟨buffer, hbuffer, hrun⟩ := Option.bind_eq_some_iff.mp h
  intro s hs
  rcases emits_of_loop _ (Cut.start hbuffer) hrun s hs with hno | hyes
  · cases hno
  · exact hyes

end cuts

/-! ### Sizes with and without the rest of the packet -/

section sizes

variable {ptr : Bytes} {sz n : ℕ}

theorem u16At_cons (b x y : Byte) (rest : Bytes) : u16At (b :: x :: y :: rest) 1 = some (leVal [x, y]) := by
  rw [u16At, sliceAt, if_pos (by simp only [List.length_cons]; omega)]
  rfl

theorem leVal_pair_lt (x y : Byte) : leVal [x, y] < 2 ^ 16 := by
  have hlt := leVal_lt [x, y]
  norm_num at hlt ⊢
  exact hlt

/-- Whoever takes what `takeWhile` finds can find it again. -/
theorem takeWhile_again {α : Type*} {p : α → Bool} {l : List α} (h : ((l.take sz).takeWhile p).length = n) :
    (l.take n).takeWhile p = l.take n := by
  have hprefix : (l.take sz).takeWhile p <+: l := (List.takeWhile_prefix p).trans (List.take_prefix sz l)
  have hfound : (l.take sz).takeWhile p = l.take n := by
    rw [List.prefix_iff_eq_take.mp hprefix, h]
  rw [List.takeWhile_eq_self_iff, ← hfound]
  exact fun x hx => List.mem_takeWhile_imp hx

/-- A subpacket that is not a chat message or a tick has the same size by itself. -/
theorem size_take {b : Byte} {t : Bytes} (hchat : b ≠ CHAT_05) (hother : b ≠ SMARTPAK_TICK_OTHER_FD)
    (h : getExpectedSubPacketSizeN (b :: t) sz = some n) (hpos : 0 < n) (hle : n ≤ t.length)
    (hmove : b = UNIT_STAT_AND_MOVE_2C → 3 ≤ n) :
    getExpectedSubPacketSizeN ((b :: t).take n ++ [0]) n = some n := by
  obtain ⟨n, rfl⟩ : ∃ k, n = k + 1 := ⟨n - 1, by omega⟩
  have hsz : sz ≠ 0 := by
    intro heq
    obtain rfl := heq
    cases h
  rw [getExpectedSubPacketSizeN, if_neg hsz] at h
  rw [getExpectedSubPacketSizeN, if_neg (by omega)]
  simp only [List.take_succ_cons, List.cons_append, List.head?_cons, Option.bind_eq_bind, Option.bind_some,
    hchat, hother, if_false] at h ⊢
  have hlong (hn : 3 ≤ n + 1) : ∃ x y rest, t = x :: y :: rest ∧ t.take n = x :: y :: rest.take (n - 2) := by
    obtain ⟨x, t, rfl⟩ := List.exists_cons_of_length_pos (l := t) (by omega)
    rw [List.length_cons] at hle
    obtain ⟨y, t, rfl⟩ := List.exists_cons_of_length_pos (l := t) (by omega)
    obtain ⟨k, rfl⟩ : ∃ k, n = k + 2 := ⟨n - 2, by omega⟩
    exact ⟨x, y, t, rfl, rfl⟩
  by_cases hzero : b = ZERO_00
  · simp only [hzero, if_true] at h ⊢
    have hlen := Option.some.inj h
    have hzeros := takeWhile_again hlen
    rw [List.take_succ_cons] at hzeros
    have hfront : (t.take n ++ [0]).take n = t.take n := by
      rw [List.take_append_of_le_length (by rw [List.length_take]; omega), List.take_take, min_self]
    rw [hfront, hzeros]
    show some ((ZERO_00 :: t.take n).length) = _
    rw [List.length_cons, List.length_take, min_eq_left (by omega)]
  simp only [hzero, if_false] at h ⊢
  by_cases hm : b = UNIT_STAT_AND_MOVE_2C
  · have hn : 3 ≤ n + 1 := hmove hm
    obtain ⟨x, y, rest, rfl, htake⟩ := hlong hn
    simp only [hm, if_true, hn] at h ⊢
    rw [htake]
    split at h
    · rw [u16At_cons] at h
      exact (u16At_cons _ _ _ _).trans h
    · cases h
  simp only [hm, if_false] at h ⊢
  by_cases he : b = THALDREN_EXTENDED_42
  · simp only [he, if_true] at h ⊢
    split at h
    · obtain ⟨m, hm, hmn⟩ := Option.map_eq_some_iff.mp h
      have hn : 3 ≤ n + 1 := by omega
      obtain ⟨x, y, rest, rfl, htake⟩ := hlong hn
      rw [u16At_cons] at h
      rw [if_pos hn, htake]
      exact (congrArg _ (u16At_cons _ _ _ _)).trans h
    · cases h
  simp only [he, if_false] at h ⊢
  by_cases hr : b = RECORDER_DATA_CONNECT_FB
  · simp only [hr, if_true] at h ⊢
    split at h
    · obtain ⟨m, hm, hmn⟩ := Option.map_eq_some_iff.mp h
      have hn : 3 ≤ n + 1 := by omega
      obtain ⟨x, y, rest, rfl, htake⟩ := hlong hn
      rw [if_pos (by omega), htake]
      exact h
    · cases h
  simp only [hr, if_false] at h ⊢
  exact h

theorem fixedSizes_le (b : Byte) : (fixedSizes.lookup b).getD 0 ≤ 192 := by
  cases h : fixedSizes.lookup b with
  | none => exact Nat.zero_le 192
  | some v =>
    have hall : ∀ p ∈ fixedSizes, p.2 ≤ 192 := by decide
    obtain ⟨l, r, heq, -⟩ := List.lookup_eq_some_iff.mp h
    exact hall (b, v) (heq ▸ List.mem_append_right l List.mem_cons_self)

theorem u16At_lt {s : Bytes} {ofs x : ℕ} (h : u16At s ofs = some x) : x < 2 ^ 16 := by
  obtain ⟨bs, hbs, rfl⟩ := Option.map_eq_some_iff.mp h
  have hlt := leVal_lt bs
  rw [length_of_sliceAt hbs] at hlt
  omega

theorem chatSize_le (h : chatSize ptr sz = some n) : n ≤ 65 ∨ n ≤ sz := by
  obtain ⟨last, -, h⟩ := Option.bind_eq_some_iff.mp h
  split at h
  · cases h
    exact .inl le_rfl
  split at h
  · cases h
  obtain ⟨code, -, h⟩ := Option.bind_eq_some_iff.mp h
  refine .inr ?_
  rw [← Option.some.inj h]
  split <;> omega

/-- Sizes are `unsigned`. -/
theorem size_lt (h : getExpectedSubPacketSizeN ptr sz = some n) (hsz : sz < 2 ^ 32) : n < 2 ^ 32 := by
  rw [getExpectedSubPacketSizeN] at h
  split at h
  · cases h
    norm_num
  obtain ⟨b, -, h⟩ := Option.bind_eq_some_iff.mp h
  split at h
  · cases h
    have hle := (List.takeWhile_sublist (fun x : Byte => decide (x = 0)) (l := ptr.take sz)).length_le
    rw [List.length_take] at hle
    omega
  split at h
  · rcases chatSize_le h with hle | hle <;> omega
  split at h
  · split at h
    · have hlt := u16At_lt h
      omega
    · cases h
      norm_num
  split at h
  · split at h
    · obtain ⟨x, hx, rfl⟩ := Option.map_eq_some_iff.mp h
      have hlt := u16At_lt hx
      omega
    · cases h
      norm_num
  split at h
  · split at h
    · obtain ⟨x, -, rfl⟩ := Option.map_eq_some_iff.mp h
      have hlt := x.toNat_lt
      omega
    · cases h
      norm_num
  split at h
  · split at h
    · obtain ⟨x, -, rfl⟩ := Option.map_eq_some_iff.mp h
      exact Nat.mod_lt _ (by norm_num)
    · cases h
      norm_num
  · have hle := fixedSizes_le b
    rw [← Option.some.inj h]
    omega

theorem byteAt_of_getElem? {i : ℕ} {x : Byte} (h : ptr[i]? = some x) : byteAt ptr i = x := by
  rw [byteAt, List.getD_eq_getElem?_getD, h]
  rfl

theorem getElem?_take_zero {i : ℕ} (hn : n ≤ ptr.length) :
    (ptr.take n ++ [0])[i]? = if i < n then ptr[i]? else if i = n then some 0 else none := by
  have hlen : (ptr.take n).length = n := by
    rw [List.length_take, min_eq_left hn]
  split
  · rename_i hi
    rw [List.getElem?_append_left (by omega), List.getElem?_take, if_pos hi]
  · rw [List.getElem?_append_right (by omega), hlen]
    split
    · rename_i hi
      rw [hi, Nat.sub_self]
      rfl
    · exact List.getElem?_eq_none (by rw [List.length_singleton]; omega)

/-- A chat message of which there is more than 65 bytes, by itself. -/
theorem chatSize_again {last : Byte} (hlen : n ≤ ptr.length) (h64 : ptr[64]? = some last) (hlast : last ≠ 0) :
    chatSize (ptr.take n ++ [0]) n = some n ↔ 65 ≤ n ∧ byteAt ptr (n - 5) ≠ MAP_POSITION_FC := by
  unfold chatSize
  rw [getElem?_take_zero hlen]
  by_cases hn : 64 < n
  · obtain ⟨code, hcode⟩ : ∃ code, ptr[n - 5]? = some code := ⟨_, List.getElem?_eq_getElem (by omega)⟩
    have hbyte : byteAt ptr (n - 5) = code := byteAt_of_getElem? hcode
    simp only [if_pos hn, h64, Option.bind_eq_bind, Option.bind_some, if_neg hlast, if_neg (by omega : ¬ n < 5)]
    rw [getElem?_take_zero hlen, if_pos (by omega), hcode, hbyte]
    simp only [Option.bind_some]
    by_cases hmap : code = MAP_POSITION_FC
    · simp only [if_pos hmap]
      refine ⟨fun h => ?_, fun h => absurd hmap h.2⟩
      have heq : n - 5 = n := Option.some.inj h
      omega
    · simp only [if_neg hmap]
      exact ⟨fun _ => ⟨hn, hmap⟩, fun _ => rfl⟩
  · rw [if_neg hn]
    by_cases heq : 64 = n
    · simp only [if_pos heq, Option.bind_eq_bind, Option.bind_some, if_true]
      refine ⟨fun h => ?_, fun h => by omega⟩
      have h65 : 65 = n := Option.some.inj h
      omega
    · simp only [if_neg heq, Option.bind_eq_bind, Option.bind_none]
      exact ⟨nofun, fun h => by omega⟩

/-- A subpacket of a packet with `sz` bytes left measures the same by itself. A long chat message
must not look as if it ended in a map position, and it must not be so short without its own that
the byte that tells it from a short one is missing. -/
def KeepsSize (ptr : Bytes) (sz : ℕ) : Prop :=
  (byteAt ptr 0 = CHAT_05 → byteAt ptr 64 = 0 ∨
    65 ≤ sz ∧ byteAt ptr (sz - 5) ≠ MAP_POSITION_FC ∨
    70 ≤ sz ∧ byteAt ptr (sz - 5) = MAP_POSITION_FC ∧ byteAt ptr (sz - 10) ≠ MAP_POSITION_FC) ∧
  (byteAt ptr 0 = SMARTPAK_TICK_OTHER_FD → 4 ≤ leVal [byteAt ptr 1, byteAt ptr 2])

instance (ptr : Bytes) (sz : ℕ) : Decidable (KeepsSize ptr sz) := inferInstanceAs (Decidable (_ ∧ _))

theorem chat_keepsSize (hn : n ≤ ptr.length) (h : chatSize ptr sz = some n) :
    chatSize (ptr.take n ++ [0]) n = some n ↔ byteAt ptr 64 = 0 ∨
      65 ≤ sz ∧ byteAt ptr (sz - 5) ≠ MAP_POSITION_FC ∨
      70 ≤ sz ∧ byteAt ptr (sz - 5) = MAP_POSITION_FC ∧ byteAt ptr (sz - 10) ≠ MAP_POSITION_FC := by
  obtain ⟨last, h64, h⟩ := Option.bind_eq_some_iff.mp h
  rw [byteAt_of_getElem? h64]
  by_cases hlast : last = 0
  · rw [if_pos hlast] at h
    obtain rfl : 65 = n := Option.some.inj h
    refine ⟨fun _ => .inl hlast, fun _ => ?_⟩
    unfold chatSize
    rw [getElem?_take_zero hn, if_pos (by omega), h64]
    simp only [Option.bind_eq_bind, Option.bind_some, if_pos hlast]
    rfl
  · rw [chatSize_again hn h64 hlast, or_iff_right hlast]
    rw [if_neg hlast] at h
    split at h
    · cases h
    obtain ⟨code, hcode, h⟩ := Option.bind_eq_some_iff.mp h
    rw [byteAt_of_getElem? hcode]
    have heq := Option.some.inj h
    by_cases hmap : code = MAP_POSITION_FC
    · rw [if_pos hmap] at heq
      subst heq
      rw [show sz - 5 - 5 = sz - 10 by omega]
      constructor
      · exact fun hall => .inr ⟨by omega, hmap, hall.2⟩
      · intro hx
        obtain hall | hall := hx
        · exact absurd hmap hall.2
        · exact ⟨by omega, hall.2.2⟩
    · rw [if_neg hmap] at heq
      subst heq
      rw [byteAt_of_getElem? hcode]
      constructor
      · exact fun hall => .inl ⟨hall.1, hmap⟩
      · intro hx
        obtain hall | hall := hx
        · exact ⟨hall.1, hmap⟩
        · exact absurd hall.2.1 hmap

theorem size_move (x y : Byte) (body : Bytes) :
    getExpectedSubPacketSizeN (UNIT_STAT_AND_MOVE_2C :: x :: y :: body) sz =
      some (if 3 ≤ sz then leVal [x, y] else 0) := by
  rw [getExpectedSubPacketSizeN]
  split
  · rename_i hsz
    rw [hsz]
    rfl
  · show (if 3 ≤ sz then u16At (UNIT_STAT_AND_MOVE_2C :: x :: y :: body) 1 else some 0) = _
    rw [u16At_cons]
    split <;> rfl

theorem move_keepsSize {x y : Byte} {rest : Bytes} (packnum : ℕ) (hn : 3 ≤ n) (hrest : n - 3 ≤ rest.length)
    (hsize : unsigned (leVal [x, y] + (2 ^ 32 - 4)) = n) :
    getExpectedSubPacketSize (0x2c :: [x, y] ++ leBytes 4 packnum ++ rest.take (n - 3)) =
      some (0x2c :: [x, y] ++ leBytes 4 packnum ++ rest.take (n - 3)).length ↔ 4 ≤ leVal [x, y] := by
  have hlen : (0x2c :: [x, y] ++ leBytes 4 packnum ++ rest.take (n - 3)).length = n + 4 := by
    simp only [List.length_append, List.length_cons, List.length_nil, length_leBytes, List.length_take,
      min_eq_left hrest]
    omega
  have hlt := leVal_pair_lt x y
  have hmove := @size_move (unsigned (n + 4)) x y (leBytes 4 packnum ++ rest.take (n - 3) ++ [0])
  have hmeasured : getExpectedSubPacketSize (0x2c :: [x, y] ++ leBytes 4 packnum ++ rest.take (n - 3)) =
      some (if 3 ≤ unsigned (n + 4) then leVal [x, y] else 0) := by
    rw [getExpectedSubPacketSize, hlen]
    exact hmove
  rw [hmeasured, hlen, Option.some.injEq]
  unfold unsigned at hsize ⊢
  by_cases hfour : 4 ≤ leVal [x, y]
  · have hsum : (n + 4) % 2 ^ 32 = leVal [x, y] := by omega
    rw [hsum, if_pos (by omega)]
    exact ⟨fun _ => hfour, fun _ => by omega⟩
  · have hsum : (n + 4) % 2 ^ 32 = leVal [x, y] := by omega
    rw [hsum]
    refine ⟨fun h => ?_, fun h => absurd h hfour⟩
    split at h <;> omega

end sizes

/-! ### What a cut emits -/

section kinds

variable {b : Byte} {t : Bytes} {remaining n packnum : ℕ}

theorem keepsSize_plain {sz : ℕ} (hchat : b ≠ CHAT_05) (hfd : b ≠ SMARTPAK_TICK_OTHER_FD) :
    KeepsSize (b :: t) sz :=
  ⟨fun h => absurd h hchat, fun h => absurd h hfd⟩

/-- A size is that of the kind in front, unless there is nothing left to measure. -/
theorem size_tickStart (hsize : getExpectedSubPacketSizeN (SMARTPAK_TICK_START_FE :: t) remaining = some n)
    (hpos : 0 < n) : n = 5 := by
  rw [getExpectedSubPacketSizeN] at hsize
  split at hsize
  · cases hsize
    cases hpos
  · have h5 : some 5 = some n := hsize
    exact (Option.some.inj h5).symm

theorem size_tickOther {x y : Byte}
    (hsize : getExpectedSubPacketSizeN (SMARTPAK_TICK_OTHER_FD :: x :: y :: t) remaining = some n) (hpos : 0 < n) :
    unsigned (leVal [x, y] + (2 ^ 32 - 4)) = n := by
  rw [getExpectedSubPacketSizeN] at hsize
  split at hsize
  · cases hsize
    cases hpos
  have hfield : (if 3 ≤ remaining then
      (u16At (SMARTPAK_TICK_OTHER_FD :: x :: y :: t) 1).map (fun n => unsigned (n + (2 ^ 32 - 4)))
      else some 0) = some n := hsize
  split at hfield
  · rw [u16At_cons] at hfield
    exact Option.some.inj hfield
  · cases hfield
    cases hpos

theorem size_chat (hsize : getExpectedSubPacketSizeN (CHAT_05 :: t) remaining = some n) (hpos : 0 < n) :
    chatSize (CHAT_05 :: t) remaining = some n := by
  rw [getExpectedSubPacketSizeN] at hsize
  split at hsize
  · cases hsize
    cases hpos
  · exact hsize

theorem measured_tick (packnum : ℕ) :
    getExpectedSubPacketSize ([0x2c, 0x0b, 0] ++ leBytes 4 packnum ++ [0xff, 0xff, 1, 0]) =
      some ([0x2c, 0x0b, 0] ++ leBytes 4 packnum ++ [0xff, 0xff, 1, 0] : Bytes).length := by
  have hmeasured := @size_move 11 0x0b 0 (leBytes 4 packnum ++ [0xff, 0xff, 1, 0] ++ [0])
  have hbytes : ([0x2c, 0x0b, 0] ++ leBytes 4 packnum ++ [0xff, 0xff, 1, 0] : Bytes).length = 11 := by
    simp only [List.length_append, List.length_cons, List.length_nil, length_leBytes]
  rw [getExpectedSubPacketSize, hbytes]
  exact hmeasured

theorem cut_tickOther (hlen : t.length = remaining)
    (hsize : getExpectedSubPacketSizeN (SMARTPAK_TICK_OTHER_FD :: t) (unsigned remaining) = some n)
    (hpos : 0 < n) (hle : n ≤ remaining) (hn : 3 ≤ n) (packnum : ℕ) :
    ∃ subpaks packnum', unsmartpakOne (SMARTPAK_TICK_OTHER_FD :: t) n packnum = some (subpaks, packnum') ∧
      ((∀ s ∈ subpaks, getExpectedSubPacketSize s = some s.length) ↔
        KeepsSize (SMARTPAK_TICK_OTHER_FD :: t) (unsigned remaining)) := by
  obtain ⟨x, t, rfl⟩ := List.exists_cons_of_length_pos (l := t) (by omega)
  rw [List.length_cons] at hlen
  obtain ⟨y, rest, rfl⟩ := List.exists_cons_of_length_pos (l := t) (by omega)
  rw [List.length_cons] at hlen
  have hpair : sliceAt (SMARTPAK_TICK_OTHER_FD :: x :: y :: rest) 1 2 = some [x, y] := by
    rw [sliceAt, if_pos (by simp only [List.length_cons]; omega)]
    rfl
  have hrest : sliceAt (SMARTPAK_TICK_OTHER_FD :: x :: y :: rest) 3 (n - 3) = some (rest.take (n - 3)) := by
    rw [sliceAt, if_pos (by simp only [List.length_cons]; omega)]
    rfl
  have hstart : SMARTPAK_TICK_OTHER_FD ≠ SMARTPAK_TICK_START_FE := by decide
  have htick : SMARTPAK_TICK_OTHER_FD ≠ SMARTPAK_TICK_FF := by decide
  have hchat : SMARTPAK_TICK_OTHER_FD ≠ CHAT_05 := by decide
  simp only [unsmartpakOne, List.head?_cons, Option.bind_eq_bind, Option.bind_some, if_neg hstart, if_neg htick,
    if_true, if_neg (not_lt.mpr hn), hpair, hrest]
  refine ⟨_, _, rfl, ?_⟩
  rw [List.forall_mem_singleton, move_keepsSize packnum hn (by omega) (size_tickOther hsize hpos)]
  exact ⟨fun h => ⟨fun hbad => absurd hbad hchat, fun _ => h⟩, fun h => h.2 rfl⟩

/-- What is no tick is emitted as it is. -/
theorem cut_asIs (hlen : t.length = remaining)
    (hsize : getExpectedSubPacketSizeN (b :: t) (unsigned remaining) = some n) (hpos : 0 < n) (hle : n ≤ remaining)
    (hmove : b = UNIT_STAT_AND_MOVE_2C → 3 ≤ n) (hstart : b ≠ SMARTPAK_TICK_START_FE)
    (htick : b ≠ SMARTPAK_TICK_FF) (hfd : b ≠ SMARTPAK_TICK_OTHER_FD) (packnum : ℕ) :
    ∃ subpaks packnum', unsmartpakOne (b :: t) n packnum = some (subpaks, packnum') ∧
      ((∀ s ∈ subpaks, getExpectedSubPacketSize s = some s.length) ↔ KeepsSize (b :: t) (unsigned remaining)) := by
  have hlt : n < 2 ^ 32 := size_lt hsize (Nat.mod_lt _ (by norm_num))
  have hslice : sliceAt (b :: t) 0 n = some ((b :: t).take n) := by
    rw [sliceAt, if_pos (by rw [List.length_cons]; omega), List.drop_zero]
  have hlength : ((b :: t).take n).length = n := by
    rw [List.length_take, List.length_cons]
    omega
  simp only [unsmartpakOne, List.head?_cons, Option.bind_eq_bind, Option.bind_some, if_neg hstart, if_neg htick,
    if_neg hfd, hslice]
  refine ⟨_, _, rfl, ?_⟩
  rw [List.forall_mem_singleton, getExpectedSubPacketSize, hlength, unsigned_of_lt hlt]
  by_cases hchat : b = CHAT_05
  · subst hchat
    have hagain : getExpectedSubPacketSizeN ((CHAT_05 :: t).take n ++ [0]) n =
        chatSize ((CHAT_05 :: t).take n ++ [0]) n := by
      obtain ⟨k, rfl⟩ : ∃ k, n = k + 1 := ⟨n - 1, by omega⟩
      rw [getExpectedSubPacketSizeN, if_neg (by omega)]
      rfl
    rw [hagain, chat_keepsSize (by rw [List.length_cons]; omega) (size_chat hsize hpos)]
    exact ⟨fun h => ⟨fun _ => h, fun htick => absurd htick hfd⟩, fun h => h.1 rfl⟩
  · exact ⟨fun _ => keepsSize_plain hchat hfd,
      fun _ => size_take hchat hfd hsize hpos (by omega) hmove⟩

end kinds

/-- Every subpacket that is cut with its size is emitted, if it is not a tick start, and keeps its
size exactly if it is not one of the chat messages. -/
theorem cut_measured {ptr : Bytes} {remaining n : ℕ} (hlen : ptr.length = remaining + 1)
    (hsize : getExpectedSubPacketSizeN ptr (unsigned remaining) = some n) (hpos : 0 < n) (hle : n ≤ remaining)
    (hmove : byteAt ptr 0 = UNIT_STAT_AND_MOVE_2C → 3 ≤ n) (hother : byteAt ptr 0 = SMARTPAK_TICK_OTHER_FD → 3 ≤ n)
    (packnum : ℕ) : ∃ subpaks packnum', unsmartpakOne ptr n packnum = some (subpaks, packnum') ∧
      ((∀ s ∈ subpaks, getExpectedSubPacketSize s = some s.length) ↔ KeepsSize ptr (unsigned remaining)) := by
  obtain ⟨b, t, rfl⟩ := List.exists_cons_of_length_pos (l := ptr) (by omega)
  rw [List.length_cons, Nat.add_right_cancel_iff] at hlen
  have hhead : byteAt (b :: t) 0 = b := rfl
  rw [hhead] at hmove hother
  by_cases hstart : b = SMARTPAK_TICK_START_FE
  · subst hstart
    have hn := size_tickStart hsize hpos
    obtain ⟨x, hx⟩ : ∃ x, sliceAt (SMARTPAK_TICK_START_FE :: t) 1 4 = some x := by
      rw [sliceAt, if_pos (by rw [List.length_cons]; omega)]
      exact ⟨_, rfl⟩
    simp only [unsmartpakOne, List.head?_cons, Option.bind_eq_bind, Option.bind_some, if_true, u32At, hx,
      Option.map_some]
    exact ⟨_, _, rfl, fun _ => keepsSize_plain (by decide) (by decide), fun _ s hs => absurd hs List.not_mem_nil⟩
  by_cases htick : b = SMARTPAK_TICK_FF
  · subst htick
    simp only [unsmartpakOne, List.head?_cons, Option.bind_eq_bind, Option.bind_some, if_neg hstart, if_true]
    refine ⟨_, _, rfl, fun _ => keepsSize_plain (by decide) (by decide), fun _ s hs => ?_⟩
    rw [List.mem_singleton.mp hs]
    exact measured_tick packnum
  by_cases hfd : b = SMARTPAK_TICK_OTHER_FD
  · subst hfd
    exact cut_tickOther hlen hsize hpos hle (hother rfl) packnum
  · exact cut_asIs hlen hsize hpos hle hmove hstart htick hfd packnum

theorem subpakLen_eq {n remaining : ℕ} (hpos : 0 < n) (hle : n ≤ remaining) : subpakLen n remaining = n :=
  if_neg (by omega)

variable {c : Bytes} {hasTimestamp hasChecksum : Bool}

/-- A subpacket that `unsmartpak` cuts with its size is measured with its length again exactly if
it keeps its size. -/
theorem measured_iff {ptr : Bytes} {remaining packnum n : ℕ}
    (hcut : Cut c hasTimestamp hasChecksum ptr remaining packnum)
    (hsize : getExpectedSubPacketSizeN ptr (unsigned remaining) = some n) (hpos : 0 < n) (hle : n ≤ remaining)
    (hmove : byteAt ptr 0 = UNIT_STAT_AND_MOVE_2C → 3 ≤ n)
    (hother : byteAt ptr 0 = SMARTPAK_TICK_OTHER_FD → 3 ≤ n) :
    ∃ subpaks packnum', unsmartpakOne ptr (subpakLen n remaining) packnum = some (subpaks, packnum') ∧
      ((∀ s ∈ subpaks, getExpectedSubPacketSize s = some s.length) ↔ KeepsSize ptr (unsigned remaining)) := by
  rw [subpakLen_eq hpos hle]
  exact cut_measured (hcut.length (by omega)) hsize hpos hle hmove hother packnum

/-- A movement of nine bytes, sent without its tick number. -/
def movePacket : Bytes := [0x03, 0, 0, 0, 0, 0, 0, 0xfd, 0x0d, 0, 1, 2, 3, 4, 5, 6]

theorem measured_move : Cut movePacket true true ([0xfd, 0x0d, 0, 1, 2, 3, 4, 5, 6] ++ [0]) 9 0 ∧
    ∃ subpaks packnum', unsmartpakOne ([0xfd, 0x0d, 0, 1, 2, 3, 4, 5, 6] ++ [0]) (subpakLen 9 9) 0 =
      some (subpaks, packnum') ∧ ∀ s ∈ subpaks, getExpectedSubPacketSize s = some s.length := by
  have hcut : Cut movePacket true true ([0xfd, 0x0d, 0, 1, 2, 3, 4, 5, 6] ++ [0]) 9 0 :=
    @Cut.start movePacket true true movePacket (by decide)
  obtain ⟨subpaks, packnum', hone, hiff⟩ := measured_iff (n := 9) hcut (by decide) (by decide) (by decide)
    (by decide) (by decide)
  exact ⟨hcut, subpaks, packnum', hone, hiff.mpr (by decide)⟩

/-- A long chat message with an `0xfc` five bytes before its end, and a map position behind it. -/
def longChat : Bytes :=
  0x05 :: List.replicate 64 0x61 ++ [0xfc, 0x61, 0x61, 0x61, 0x61]

theorem longChat_not_measured :
    Cut ([0x03, 0, 0, 0, 0, 0, 0] ++ longChat ++ [0xfc, 0, 0, 0, 0]) true true
      (longChat ++ [0xfc, 0, 0, 0, 0] ++ [0]) 75 0 ∧
    getExpectedSubPacketSizeN (longChat ++ [0xfc, 0, 0, 0, 0] ++ [0]) (unsigned 75) = some longChat.length ∧
    unsmartpakOne (longChat ++ [0xfc, 0, 0, 0, 0] ++ [0]) (subpakLen longChat.length 75) 0 = some ([longChat], 0) ∧
    unsmartpak ([0x03, 0, 0, 0, 0, 0, 0] ++ longChat ++ [0xfc, 0, 0, 0, 0]) true true =
      some [longChat, [0xfc, 0, 0, 0, 0]] ∧
    longChat.length = 70 ∧ getExpectedSubPacketSize longChat = some 65 :=
  ⟨@Cut.start _ true true ([0x03, 0, 0, 0, 0, 0, 0] ++ longChat ++ [0xfc, 0, 0, 0, 0]) (by decide +kernel), by decide +kernel,
    by decide +kernel, by decide +kernel, by decide, by decide +kernel⟩

/-- If every cut is one of a delimited subpacket that keeps its size, nothing that `unsmartpak`
returns is of another length than it is measured with. -/
theorem measured_of_unsmartpak {out : List Bytes} (h : unsmartpak c hasTimestamp hasChecksum = some out)
    (hcuts : ∀ ptr remaining packnum, Cut c hasTimestamp hasChecksum ptr remaining packnum → 0 < remaining →
      ∃ n, getExpectedSubPacketSizeN ptr (unsigned remaining) = some n ∧ 0 < n ∧ n ≤ remaining ∧
        (byteAt ptr 0 = UNIT_STAT_AND_MOVE_2C → 3 ≤ n) ∧ (byteAt ptr 0 = SMARTPAK_TICK_OTHER_FD → 3 ≤ n) ∧
        KeepsSize ptr (unsigned remaining)) :
    ∀ s ∈ out, getExpectedSubPacketSize s = some s.length := by
  intro s hs
  obtain ⟨ptr, remaining, packnum, expected, subpaks, packnum', hcut, hremaining, hexpected, hone, hmem⟩ :=
    emits_of_unsmartpak h s hs
  obtain ⟨n, hsize, hpos, hle, hmove, hother, hkeeps⟩ := hcuts ptr remaining packnum hcut hremaining
  have heq : expected = n := Option.some.inj (hexpected.symm.trans hsize)
  rw [heq, subpakLen_eq hpos hle] at hone
  obtain ⟨subpaks', p, hone', hiff⟩ :=
    cut_measured (hcut.length hremaining) hsize hpos hle hmove hother packnum
  have hsame := Option.some.inj (hone.symm.trans hone')
  exact hiff.mpr hkeeps s ((Prod.mk.inj hsame).1 ▸ hmem)

end Gpgnet4TA.Tapacket
