import Gpgnet4TA.Lib.Walk
import Gpgnet4TA.Tapacket.CutSizes

/-!
# What `unsmartpak` reads (`TPacket.cpp:271-358`, `503-567`)

Each round of its loop is seen as the fields that it reads behind `ptr`. The memory is a packet that
is not compressed, and whatever stands behind it. A round that takes a length from a smaller one is
none.
-/

namespace Gpgnet4TA.Tapacket
open Gpgnet4TA.Lib SubPacketCode

/-! ### The rounds -/

/-- What `getExpectedSubPacketSize` reads besides the code. -/
def sizeFields (s : Bytes) (sz : ℕ) : Option (List Field) :=
  if sz = 0 then some []
  else do
    let spc ← s.head?
    if spc = ZERO_00 then return [⟨0, min sz (((s.take sz).takeWhile (· = 0)).length + 1)⟩]
    else if spc = CHAT_05 then do
      let last ← s[64]?
      if last = 0 then return [⟨64, 1⟩]
      -- `len - 5`
      else if sz < 5 then none
      else return [⟨64, 1⟩, ⟨sz - 5, 1⟩]
    else if spc = UNIT_STAT_AND_MOVE_2C ∨ spc = THALDREN_EXTENDED_42 then return if 3 ≤ sz then [⟨1, 2⟩] else []
    else if spc = RECORDER_DATA_CONNECT_FB then return if 2 ≤ sz then [⟨1, 1⟩] else []
    else if spc = SMARTPAK_TICK_OTHER_FD then
      if 3 ≤ sz then do
        let n ← u16At s 1
        -- `n - 4`
        if n < 4 then none else return [⟨1, 2⟩]
      else return []
    else return []

/-- What is read of a subpacket of `subpakLen` bytes. -/
def subpakFields (code : Byte) (subpakLen : ℕ) : Option (List Field) :=
  if code = SMARTPAK_TICK_START_FE then some [⟨1, 4⟩]
  else if code = SMARTPAK_TICK_FF then some []
  else if code = SMARTPAK_TICK_OTHER_FD then
    -- `subpakLen - 3`
    if subpakLen < 3 then none else some [⟨0, 3⟩, ⟨3, subpakLen - 3⟩]
  else some [⟨0, subpakLen⟩]

/-- A round with `remaining` bytes to go. -/
def unsmartpakRound : Bytes × ℕ → Option (Round (Bytes × ℕ))
  | (ptr, remaining) => do
    let code ← ptr.head?
    let sizes ← sizeFields ptr (unsigned remaining)
    let expected ← getExpectedSubPacketSizeN ptr (unsigned remaining)
    let len := subpakLen expected remaining
    let fields ← subpakFields code len
    return ⟨⟨0, 1⟩ :: (sizes ++ fields), some (len, ptr.drop len, remaining - len)⟩

/-- The bytes in front of the first subpacket. -/
def unsmartpakSkip (hasTimestamp hasChecksum : Bool) : ℕ :=
  1 + (if hasChecksum then 2 else 0) + (if hasTimestamp then 4 else 0)

/-- The loop of `unsmartpak` ends, stays within `c` and takes no length from a smaller one. -/
def UnsmartpakInBounds (c behind : Bytes) (hasTimestamp hasChecksum : Bool) : Prop :=
  let skip := unsmartpakSkip hasTimestamp hasChecksum
  WalksInBounds unsmartpakRound (c.length - skip) ((c ++ behind).drop skip, c.length - skip)

/-! ### The condition -/

/-- The first field of a subpacket that tells its own size. -/
def sizeField (s : Bytes) : ℕ := leVal [byteAt s 1, byteAt s 2]

/-- The size that the subpacket in front of `s` has by its code and content. -/
def namedSize (s : Bytes) : ℕ :=
  let sz := unsigned s.length
  let code := byteAt s 0
  if code = ZERO_00 then ((s.take sz).takeWhile (· = 0)).length
  else if code = CHAT_05 then
    if byteAt s 64 = 0 then 65 else if byteAt s (sz - 5) = MAP_POSITION_FC then sz - 5 else sz
  else if code = UNIT_STAT_AND_MOVE_2C then if 3 ≤ sz then sizeField s else 0
  else if code = THALDREN_EXTENDED_42 then if 3 ≤ sz then sizeField s + 3 else 0
  else if code = RECORDER_DATA_CONNECT_FB then if 2 ≤ sz then (byteAt s 1).toNat + 3 else 0
  else if code = SMARTPAK_TICK_OTHER_FD then if 3 ≤ sz then sizeField s - 4 else 0
  else (fixedSizes.lookup code).getD 0

/-- A chat message has its 65 bytes, a tick number its four, and a tick that tells its size tells
none that is too small. The bytes left can be counted. -/
structure SafeAt (s : Bytes) : Prop where
  counted : unsigned s.length ≠ 0
  chat : byteAt s 0 = CHAT_05 → 65 ≤ s.length ∧ (byteAt s 64 = 0 ∨ 5 ≤ unsigned s.length)
  tickStart : byteAt s 0 = SMARTPAK_TICK_START_FE → 5 ≤ s.length
  tick : byteAt s 0 = SMARTPAK_TICK_OTHER_FD → 3 ≤ unsigned s.length ∧ (sizeField s = 4 ∨ 7 ≤ sizeField s)

/-- All subpackets are safe, each behind the one before it. -/
inductive SafePayload : Bytes → Prop
  | nil : SafePayload []
  | cons {s : Bytes} (hat : SafeAt s) (hrest : SafePayload (s.drop (subpakLen (namedSize s) s.length))) :
      SafePayload s

/-! ### One round -/

section round

variable {s behind : Bytes}

theorem unsigned_le (n : ℕ) : unsigned n ≤ n := Nat.mod_le n _

theorem byteAt_append {i : ℕ} (h : i < s.length) : (s ++ behind)[i]? = some (byteAt s i) := by
  rw [List.getElem?_append_left h, byteAt, List.getD_eq_getElem?_getD, List.getElem?_eq_getElem h, Option.getD_some]

variable (behind) in
theorem sizeField_append (h : 3 ≤ s.length) : u16At (s ++ behind) 1 = some (sizeField s) := by
  obtain ⟨b, s, rfl⟩ := List.exists_cons_of_length_pos (l := s) (by omega)
  rw [List.length_cons] at h
  obtain ⟨x, s, rfl⟩ := List.exists_cons_of_length_pos (l := s) (by omega)
  rw [List.length_cons] at h
  obtain ⟨y, s, rfl⟩ := List.exists_cons_of_length_pos (l := s) (by omega)
  exact u16At_cons b x y (s ++ behind)

theorem head?_append (h : 0 < s.length) : (s ++ behind).head? = some (byteAt s 0) := by
  rw [List.head?_eq_getElem?]
  exact byteAt_append h

variable (behind) in
theorem size_of_safeAt (h : SafeAt s) :
    (∃ sizes, sizeFields (s ++ behind) (unsigned s.length) = some sizes ∧
        ∀ f ∈ sizes, f.offset + f.width ≤ s.length) ∧
      getExpectedSubPacketSizeN (s ++ behind) (unsigned s.length) = some (namedSize s) := by
  have hle := unsigned_le s.length
  have hsz := h.counted
  have hhead : (s ++ behind).head? = some (byteAt s 0) := head?_append (by omega)
  have htake : (s ++ behind).take (unsigned s.length) = s.take (unsigned s.length) :=
    List.take_append_of_le_length hle
  simp only [sizeFields, getExpectedSubPacketSizeN, namedSize, if_neg hsz, hhead, Option.bind_eq_bind, Option.bind_some]
  by_cases hzero : byteAt s 0 = ZERO_00
  · simp only [if_pos hzero, htake]
    refine ⟨⟨_, rfl, fun f hf => ?_⟩, rfl⟩
    rw [List.mem_singleton.mp hf]
    dsimp only
    omega
  simp only [if_neg hzero]
  by_cases hchat : byteAt s 0 = CHAT_05
  · simp only [if_pos hchat]
    obtain ⟨hlong, hlast⟩ := h.chat hchat
    have h64 : (s ++ behind)[64]? = some (byteAt s 64) := byteAt_append hlong
    simp only [chatSize, h64, Option.bind_eq_bind, Option.bind_some]
    by_cases h0 : byteAt s 64 = 0
    · simp only [if_pos h0]
      refine ⟨⟨_, rfl, fun f hf => ?_⟩, rfl⟩
      rw [List.mem_singleton.mp hf]
      exact hlong
    · have h5 : 5 ≤ unsigned s.length := hlast.resolve_left h0
      have hmap : (s ++ behind)[unsigned s.length - 5]? = some (byteAt s (unsigned s.length - 5)) :=
        byteAt_append (by omega)
      simp only [if_neg h0, if_neg (by omega : ¬ unsigned s.length < 5), hmap, Option.bind_some]
      refine ⟨⟨_, rfl, fun f hf => ?_⟩, rfl⟩
      simp only [List.mem_cons, List.not_mem_nil, or_false] at hf
      obtain rfl | rfl := hf
      · exact hlong
      · dsimp only
        omega
  simp only [if_neg hchat]
  by_cases hmove : byteAt s 0 = UNIT_STAT_AND_MOVE_2C
  · simp only [hmove, true_or, if_true]
    by_cases h3 : 3 ≤ unsigned s.length
    · simp only [if_pos h3, sizeField_append behind (h3.trans hle)]
      refine ⟨⟨_, rfl, fun f hf => ?_⟩, trivial⟩
      rw [List.mem_singleton.mp hf]
      exact h3.trans hle
    · simp only [if_neg h3]
      exact ⟨⟨_, rfl, fun f hf => absurd hf List.not_mem_nil⟩, rfl⟩
  by_cases hextended : byteAt s 0 = THALDREN_EXTENDED_42
  · simp only [hextended, or_true, if_true]
    by_cases h3 : 3 ≤ unsigned s.length
    · simp only [if_pos h3, sizeField_append behind (h3.trans hle)]
      refine ⟨⟨_, rfl, fun f hf => ?_⟩, rfl⟩
      rw [List.mem_singleton.mp hf]
      exact h3.trans hle
    · simp only [if_neg h3]
      exact ⟨⟨_, rfl, fun f hf => absurd hf List.not_mem_nil⟩, rfl⟩
  simp only [hmove, hextended, or_false, if_false]
  by_cases hconnect : byteAt s 0 = RECORDER_DATA_CONNECT_FB
  · simp only [if_pos hconnect]
    by_cases h2 : 2 ≤ unsigned s.length
    · have hbyte : (s ++ behind)[1]? = some (byteAt s 1) := byteAt_append (by omega)
      simp only [if_pos h2, hbyte]
      refine ⟨⟨_, rfl, fun f hf => ?_⟩, rfl⟩
      rw [List.mem_singleton.mp hf]
      exact h2.trans hle
    · simp only [if_neg h2]
      exact ⟨⟨_, rfl, fun f hf => absurd hf List.not_mem_nil⟩, rfl⟩
  simp only [if_neg hconnect]
  by_cases htick : byteAt s 0 = SMARTPAK_TICK_OTHER_FD
  · obtain ⟨h3, hfield⟩ := h.tick htick
    have hfits : ¬ sizeField s < 4 := by omega
    have hmod : unsigned (sizeField s + (2 ^ 32 - 4)) = sizeField s - 4 := by
      have hlt : sizeField s < 2 ^ 16 := leVal_pair_lt _ _
      unfold unsigned
      omega
    simp only [if_pos htick, if_pos h3, sizeField_append behind (h3.trans hle), Option.bind_some,
      if_neg hfits, Option.map_some, hmod]
    refine ⟨⟨_, rfl, fun f hf => ?_⟩, trivial⟩
    rw [List.mem_singleton.mp hf]
    exact h3.trans hle
  · simp only [if_neg htick]
    exact ⟨⟨_, rfl, fun f hf => absurd hf List.not_mem_nil⟩, rfl⟩

theorem subpakLen_pos {expected remaining : ℕ} (h : unsigned remaining ≠ 0) : 1 ≤ subpakLen expected remaining := by
  unfold subpakLen
  split <;> omega

theorem tick_len (h : SafeAt s) (htick : byteAt s 0 = SMARTPAK_TICK_OTHER_FD) :
    3 ≤ subpakLen (namedSize s) s.length := by
  obtain ⟨h3, hfield⟩ := h.tick htick
  have hsize : namedSize s = sizeField s - 4 := by
    unfold namedSize
    rw [htick]
    exact if_pos h3
  unfold subpakLen
  rw [hsize]
  split <;> omega

variable (behind) in
theorem round_of_safeAt (h : SafeAt s) :
    ∃ r, unsmartpakRound (s ++ behind, s.length) = some r ∧ r.InBounds s.length ∧
      r.next = some (subpakLen (namedSize s) s.length, s.drop (subpakLen (namedSize s) s.length) ++ behind,
        (s.drop (subpakLen (namedSize s) s.length)).length) := by
  have hle := unsigned_le s.length
  have hsz := h.counted
  have hlen := subpakLen_le (namedSize s) s.length
  obtain ⟨⟨sizes, hsizes, hin⟩, hexpected⟩ := size_of_safeAt behind h
  have hfields : ∃ fields, subpakFields (byteAt s 0) (subpakLen (namedSize s) s.length) = some fields ∧
      ∀ f ∈ fields, f.offset + f.width ≤ s.length := by
    unfold subpakFields
    by_cases hstart : byteAt s 0 = SMARTPAK_TICK_START_FE
    · rw [if_pos hstart]
      refine ⟨_, rfl, fun f hf => ?_⟩
      rw [List.mem_singleton.mp hf]
      exact h.tickStart hstart
    rw [if_neg hstart]
    by_cases hff : byteAt s 0 = SMARTPAK_TICK_FF
    · rw [if_pos hff]
      exact ⟨_, rfl, nofun⟩
    rw [if_neg hff]
    by_cases htick : byteAt s 0 = SMARTPAK_TICK_OTHER_FD
    · have h3 := tick_len h htick
      rw [if_pos htick, if_neg (by omega)]
      refine ⟨_, rfl, fun f hf => ?_⟩
      simp only [List.mem_cons, List.not_mem_nil, or_false] at hf
      obtain rfl | rfl := hf
      · exact h3.trans hlen
      · dsimp only
        omega
    · rw [if_neg htick]
      refine ⟨_, rfl, fun f hf => ?_⟩
      rw [List.mem_singleton.mp hf]
      dsimp only
      omega
  obtain ⟨fields, hfields, hin'⟩ := hfields
  have hhead : (s ++ behind).head? = some (byteAt s 0) := head?_append (by omega)
  refine ⟨⟨⟨0, 1⟩ :: (sizes ++ fields), some (subpakLen (namedSize s) s.length,
    (s ++ behind).drop (subpakLen (namedSize s) s.length), s.length - subpakLen (namedSize s) s.length)⟩, ?_, ⟨?_, ?_⟩, ?_⟩
  · simp only [unsmartpakRound, hhead, hsizes, hexpected, hfields, Option.bind_eq_bind, Option.bind_some]
    rfl
  · intro f hf
    obtain rfl | hf := List.mem_cons.mp hf
    · dsimp only
      omega
    obtain hf | hf := List.mem_append.mp hf
    · exact hin f hf
    · exact hin' f hf
  · intro step next hnext
    cases hnext
    exact subpakLen_pos hsz
  · rw [List.drop_append_of_le_length hlen, List.length_drop]

theorem safeAt_of_round {r : Round (Bytes × ℕ)} (hne : s ≠ []) (h : unsmartpakRound (s ++ behind, s.length) = some r)
    (hin : r.InBounds s.length) : SafeAt s := by
  have hle := unsigned_le s.length
  have hpos : 0 < s.length := List.length_pos_of_ne_nil hne
  obtain ⟨code, hhead, h⟩ := Option.bind_eq_some_iff.mp h
  obtain ⟨sizes, hsizes, h⟩ := Option.bind_eq_some_iff.mp h
  obtain ⟨expected, hexpected, h⟩ := Option.bind_eq_some_iff.mp h
  obtain ⟨fields, hfields, h⟩ := Option.bind_eq_some_iff.mp h
  obtain rfl := Option.some.inj h
  obtain rfl : byteAt s 0 = code := Option.some.inj ((head?_append hpos).symm.trans hhead)
  have hsz : unsigned s.length ≠ 0 := by
    intro hzero
    have hadvance := hin.advance _ _ rfl
    rw [hzero, getExpectedSubPacketSizeN, if_pos rfl] at hexpected
    obtain rfl := Option.some.inj hexpected
    rw [subpakLen, if_pos (.inl rfl), hzero] at hadvance
    omega
  have hsizein : ∀ f ∈ sizes, f.offset + f.width ≤ s.length := fun f hf =>
    hin.access f (List.mem_cons_of_mem _ (List.mem_append_left _ hf))
  have hfieldin : ∀ f ∈ fields, f.offset + f.width ≤ s.length := fun f hf =>
    hin.access f (List.mem_cons_of_mem _ (List.mem_append_right _ hf))
  rw [sizeFields, if_neg hsz, hhead, Option.bind_eq_bind, Option.bind_some] at hsizes
  refine ⟨hsz, fun hchat => ?_, fun hstart => ?_, fun htick => ?_⟩
  · rw [hchat, if_neg (by decide), if_pos rfl] at hsizes
    obtain ⟨last, h64, hsizes⟩ := Option.bind_eq_some_iff.mp hsizes
    have hlong (hmem : ⟨64, 1⟩ ∈ sizes) : 65 ≤ s.length := hsizein ⟨64, 1⟩ hmem
    split at hsizes
    · rename_i hlast
      obtain rfl := Option.some.inj hsizes
      have h65 := hlong (List.mem_singleton_self _)
      have hbyte := Option.some.inj ((byteAt_append h65).symm.trans h64)
      exact ⟨h65, .inl (hbyte.trans hlast)⟩
    split at hsizes
    · cases hsizes
    · rename_i h5
      obtain rfl := Option.some.inj hsizes
      exact ⟨hlong List.mem_cons_self, .inr (Nat.le_of_not_lt h5)⟩
  · rw [hstart, subpakFields, if_pos rfl] at hfields
    obtain rfl := Option.some.inj hfields
    exact hfieldin ⟨1, 4⟩ (List.mem_singleton_self _)
  · rw [htick, subpakFields, if_neg (by decide), if_neg (by decide), if_pos rfl] at hfields
    have h3len : 3 ≤ subpakLen expected s.length := by
      by_contra hshort
      rw [if_pos (by omega)] at hfields
      cases hfields
    rw [getExpectedSubPacketSizeN, if_neg hsz, hhead, Option.bind_eq_bind, Option.bind_some, htick] at hexpected
    rw [htick] at hsizes
    by_cases h3 : 3 ≤ unsigned s.length
    · have hfield : u16At (s ++ behind) 1 = some (sizeField s) := sizeField_append behind (h3.trans hle)
      have hlt : sizeField s < 2 ^ 16 := leVal_pair_lt _ _
      have hbig : ¬ sizeField s < 4 := by
        intro hsmall
        have hnone : (if 3 ≤ unsigned s.length then (u16At (s ++ behind) 1).bind fun n =>
            if n < 4 then none else some [(⟨1, 2⟩ : Field)] else some []) = some sizes := hsizes
        rw [if_pos h3, hfield, Option.bind_some, if_pos hsmall] at hnone
        cases hnone
      have hexp : expected = sizeField s - 4 := by
        have hmap : (if 3 ≤ unsigned s.length then (u16At (s ++ behind) 1).map fun n => unsigned (n + (2 ^ 32 - 4))
            else some 0) = some expected := hexpected
        rw [if_pos h3, hfield, Option.map_some, Option.some.injEq] at hmap
        rw [← hmap]
        unfold unsigned
        omega
      refine ⟨h3, ?_⟩
      rw [hexp, subpakLen] at h3len
      by_contra hno
      rw [if_neg (by omega)] at h3len
      omega
    · have hzero : (if 3 ≤ unsigned s.length then (u16At (s ++ behind) 1).map fun n => unsigned (n + (2 ^ 32 - 4))
          else some 0) = some expected := hexpected
      rw [if_neg h3] at hzero
      rw [← Option.some.inj hzero, subpakLen, if_pos (.inl rfl)] at h3len
      exact absurd h3len h3

end round

/-! ### The loop -/

section loop

variable {s behind c : Bytes} {hasTimestamp hasChecksum : Bool}

theorem path_of_safePayload (h : SafePayload s) : Path unsmartpakRound s.length (s ++ behind, s.length) := by
  induction h with
  | nil => exact .finish _
  | @cons s hat hrest ih =>
    obtain ⟨r, hround, hin, hnext⟩ := round_of_safeAt behind hat
    rw [List.length_drop] at ih hnext
    exact .goOn hround hin hnext ih

theorem safePayload_of_path {remaining : ℕ} {state : Bytes × ℕ} (h : Path unsmartpakRound remaining state)
    (hstate : state = (s ++ behind, s.length)) (hremaining : remaining = s.length) : SafePayload s := by
  induction h generalizing s with
  | finish state =>
    rw [List.eq_nil_of_length_eq_zero hremaining.symm]
    exact .nil
  | @leave remaining state r hround hin hnext =>
    subst hstate hremaining
    by_cases hne : s = []
    · rw [hne]
      exact .nil
    · obtain ⟨r', hround', -, hnext'⟩ := round_of_safeAt behind (safeAt_of_round hne hround hin)
      cases hround.symm.trans hround'
      rw [hnext'] at hnext
      cases hnext
  | @goOn remaining step state state' r hround hin hnext hrest ih =>
    subst hstate hremaining
    by_cases hne : s = []
    · rw [hne]
      exact .nil
    · have hat := safeAt_of_round hne hround hin
      obtain ⟨r', hround', -, hnext'⟩ := round_of_safeAt behind hat
      cases hround.symm.trans hround'
      rw [hnext'] at hnext
      cases hnext
      exact .cons hat (ih rfl (List.length_drop).symm)

variable (behind) in
theorem unsmartpakOne_of_safeAt (h : SafeAt s) (packnum : ℕ) :
    ∃ subpaks packnum', unsmartpakOne (s ++ behind) (subpakLen (namedSize s) s.length) packnum =
      some (subpaks, packnum') := by
  have hle := unsigned_le s.length
  have hsz := h.counted
  have hlen := subpakLen_le (namedSize s) s.length
  have hslice (ofs n : ℕ) (hn : ofs + n ≤ s.length) : ∃ b, sliceAt (s ++ behind) ofs n = some b :=
    ⟨_, if_pos (by rw [List.length_append]; omega)⟩
  rw [unsmartpakOne, head?_append (by omega), Option.bind_eq_bind, Option.bind_some]
  by_cases hstart : byteAt s 0 = SMARTPAK_TICK_START_FE
  · obtain ⟨b, hb⟩ := hslice 1 4 (h.tickStart hstart)
    rw [if_pos hstart, u32At, hb]
    exact ⟨_, _, rfl⟩
  rw [if_neg hstart]
  by_cases hff : byteAt s 0 = SMARTPAK_TICK_FF
  · rw [if_pos hff]
    exact ⟨_, _, rfl⟩
  rw [if_neg hff]
  by_cases htick : byteAt s 0 = SMARTPAK_TICK_OTHER_FD
  · have h3 := tick_len h htick
    obtain ⟨head, hhead⟩ := hslice 1 2 (h3.trans hlen)
    obtain ⟨rest, hrest⟩ := hslice 3 (subpakLen (namedSize s) s.length - 3) (by omega)
    rw [if_pos htick, if_neg (by omega), hhead, hrest]
    exact ⟨_, _, rfl⟩
  · obtain ⟨subpak, hsubpak⟩ := hslice 0 (subpakLen (namedSize s) s.length) (by omega)
    rw [if_neg htick, hsubpak]
    exact ⟨_, _, rfl⟩

/-- Where all subpackets are safe the loop of the source comes to its end. -/
theorem unsmartpakLoop_of_safePayload (h : SafePayload s) {fuel packnum : ℕ} {ut : List Bytes}
    (hfuel : s.length < fuel) : (unsmartpakLoop fuel (s ++ behind) s.length packnum ut).isSome := by
  induction h generalizing fuel packnum ut with
  | nil =>
    obtain ⟨fuel, rfl⟩ : ∃ k, fuel = k + 1 := ⟨fuel - 1, by omega⟩
    rfl
  | @cons s hat hrest ih =>
    obtain ⟨fuel, rfl⟩ : ∃ k, fuel = k + 1 := ⟨fuel - 1, by omega⟩
    have hsz := hat.counted
    have hle := unsigned_le s.length
    have hlen := subpakLen_le (namedSize s) s.length
    have hpos : 1 ≤ subpakLen (namedSize s) s.length := subpakLen_pos hsz
    obtain ⟨-, hexpected⟩ := size_of_safeAt behind hat
    obtain ⟨subpaks, packnum', hone⟩ := unsmartpakOne_of_safeAt behind hat packnum
    have hnext : (unsmartpakLoop fuel (s.drop (subpakLen (namedSize s) s.length) ++ behind)
        (s.drop (subpakLen (namedSize s) s.length)).length packnum' (ut ++ subpaks)).isSome :=
      ih (by rw [List.length_drop]; omega)
    rw [List.length_drop, ← List.drop_append_of_le_length hlen] at hnext
    unfold subpakLen at hone hnext
    rw [unsmartpakLoop, if_pos (by omega), hexpected, Option.bind_eq_bind, Option.bind_some]
    dsimp only
    rw [hone]
    exact hnext

theorem unsmartpak_of_inBounds (hraw : byteAt c 0 ≠ 0x04)
    (h : SafePayload (c.drop (unsmartpakSkip hasTimestamp hasChecksum))) :
    (unsmartpak c hasTimestamp hasChecksum).isSome := by
  rw [unsmartpak_eq, if_neg hraw, Option.bind_some]
  show (unsmartpakLoop (c.length + 1) ((c ++ [0]).drop (unsmartpakSkip hasTimestamp hasChecksum))
    (c.length - unsmartpakSkip hasTimestamp hasChecksum) 0 []).isSome
  by_cases hskip : unsmartpakSkip hasTimestamp hasChecksum ≤ c.length
  · rw [List.drop_append_of_le_length hskip, ← List.length_drop]
    exact unsmartpakLoop_of_safePayload h (by rw [List.length_drop]; omega)
  · rw [Nat.sub_eq_zero_of_le (by omega)]
    rfl

/-- The loop stays in bounds exactly if every subpacket that it comes to is safe. -/
theorem unsmartpak_in_bounds_iff (c behind : Bytes) (hasTimestamp hasChecksum : Bool) :
    UnsmartpakInBounds c behind hasTimestamp hasChecksum ↔
      SafePayload (c.drop (unsmartpakSkip hasTimestamp hasChecksum)) := by
  unfold UnsmartpakInBounds
  dsimp only
  generalize unsmartpakSkip hasTimestamp hasChecksum = skip
  rw [walksInBounds_iff_path]
  by_cases hskip : skip ≤ c.length
  · rw [List.drop_append_of_le_length hskip, ← List.length_drop]
    exact ⟨fun h => safePayload_of_path h rfl rfl, path_of_safePayload⟩
  · rw [List.drop_eq_nil_of_le (by omega : c.length ≤ skip), Nat.sub_eq_zero_of_le (by omega)]
    exact ⟨fun _ => .nil, fun _ => .finish _⟩

/-- A tick number that is cut off. -/
theorem tick_start_cut : ¬ ∀ (c behind : Bytes) (hasTimestamp hasChecksum : Bool), c ≠ [] → byteAt c 0 ≠ 0x04 →
    UnsmartpakInBounds c behind hasTimestamp hasChecksum := by
  intro h
  have hin := h [0x03, SMARTPAK_TICK_START_FE] [0] false false (by decide) (by decide)
  have hpath := walksInBounds_iff_path.mp hin
  have hsafe : SafePayload [SMARTPAK_TICK_START_FE] := safePayload_of_path hpath rfl rfl
  cases hsafe with
  | cons hat _ => exact absurd (hat.tickStart rfl) (by decide)

end loop

end Gpgnet4TA.Tapacket
