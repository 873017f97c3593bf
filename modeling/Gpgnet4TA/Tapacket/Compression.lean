import Gpgnet4TA.Lib.Lzss
import Gpgnet4TA.Tapacket.TPacket

/-!
# Compression is lossless

The compressor writes tokens in groups of eight behind a flag byte. The invariant of
its loop has two halves: the tokens written so far expand to the bytes before
`index`, and the result is the packed form of these tokens with the last group
still open. The decompressor reads packed tokens back group by group.
-/

namespace Gpgnet4TA.Tapacket
open Gpgnet4TA.Lib Gpgnet4TA.Lib.Lzss

/-! ### Matches -/

/-- The `m` bytes at `a` agree with those at `index` (both count from 1). -/
def MatchAt (data : Bytes) (index a m : ℕ) : Prop :=
  ∀ k < m, index + k < data.length ∧ data[a + k - 1]? = data[index + k - 1]?

theorem matchLoop_spec (data : Bytes) (index a fuel c : ℕ) (h : MatchAt data index a c) :
    MatchAt data index a (matchLoop data index a fuel c) := by
  induction fuel generalizing c with
  | zero => exact h
  | succ fuel ih =>
    simp only [matchLoop]
    split
    · rename_i hc
      apply ih
      intro k hk
      rcases Nat.lt_succ_iff_lt_or_eq.mp hk with hk | rfl
      · exact h k hk
      · exact ⟨hc.2.1, hc.2.2⟩
    · exact h

theorem runLoop_spec (data : Bytes) (index fuel c : ℕ)
    (h : ∀ k < c, index + k < data.length ∧ data[index + k - 1]? = data[index - 2]?) :
    ∀ k < runLoop data index fuel c, index + k < data.length ∧
      data[index + k - 1]? = data[index - 2]? := by
  induction fuel generalizing c with
  | zero => exact h
  | succ fuel ih =>
    simp only [runLoop]
    split
    · rename_i hc
      apply ih
      intro k hk
      rcases Nat.lt_succ_iff_lt_or_eq.mp hk with hk | rfl
      · exact h k hk
      · exact hc
    · exact h

/-- A candidate of the search: too short to be used, or a match. -/
def Candidate (data : Bytes) (index : ℕ) (best : ℕ × ℕ) : Prop :=
  2 < best.1 → 4 ≤ best.2 ∧ best.2 < index ∧ MatchAt data index best.2 best.1

theorem searchLoop_spec (data : Bytes) (index fuel a : ℕ) (best : ℕ × ℕ) (ha : 4 ≤ a)
    (h : Candidate data index best) : Candidate data index (searchLoop data index fuel a best) := by
  induction fuel generalizing a best with
  | zero => exact h
  | succ fuel ih =>
    simp only [searchLoop]
    split
    · rename_i hlt
      have hnew : Candidate data index (matchLoop data index a index 0, a) := by
        intro _
        exact ⟨ha, by omega, matchLoop_spec data index a index 0 (by intro k hk; omega)⟩
      split
      · split
        · exact hnew
        · exact ih _ _ (by omega) hnew
      · exact ih _ _ (by omega) h
    · exact h

theorem findMatch_spec (data : Bytes) {index : ℕ} (hi : 5 ≤ index) :
    Candidate data index (findMatch data index) := by
  simp only [findMatch]
  split
  · -- a run of the byte before `index`
    intro _
    have hrun := runLoop_spec data index data.length 0 (by intro k hk; omega)
    refine ⟨by simp only; omega, by simp only; omega, ?_⟩
    have hbefore : ∀ j < runLoop data index data.length 0,
        data[index - 1 + j]? = data[index - 1 - 1]? := by
      intro j hj
      rw [show index - 1 + j = index + j - 1 by omega, show index - 1 - 1 = index - 2 by omega]
      exact (hrun j hj).2
    intro k hk
    have hmatch := run_match (by omega) hbefore k hk
    refine ⟨(hrun k hk).1, ?_⟩
    show data[index - 1 + k - 1]? = data[index + k - 1]?
    rw [show index - 1 + k - 1 = index - 1 - 1 + k by omega,
      show index + k - 1 = index - 1 + k by omega]
    exact hmatch
  · apply searchLoop_spec
    · omega
    · intro h
      simp at h

/-! ### Packed tokens -/

/-- The bytes of a token; a reference counts positions from 1 and is relative to the header. -/
def tokenBytes : Token Byte → Bytes
  | .lit b => [b]
  | .copy pos len => leBytes 2 ((pos + 1 - 3) * 16 + (len - 2))

def TokenOk : Token Byte → Prop
  | .lit _ => True
  | .copy pos len => 3 ≤ pos ∧ pos < 2000 ∧ 2 ≤ len ∧ len < 18

def bodies (ts : List (Token Byte)) : Bytes := ts.flatMap tokenBytes

/-- Bit `j` of the flag byte says whether item `j` is a reference. -/
def Flags (f : Byte) (g : List (Token Byte)) : Prop :=
  ∀ j < 8, f.toNat.testBit j = (g[j]?.map Token.isCopy).getD false

/-- Full groups of eight tokens. -/
inductive Packed : List (Token Byte) → Bytes → Prop
  | nil : Packed [] []
  | cons (f : Byte) (g ts : List (Token Byte)) (bs : Bytes) (hlen : g.length = 8)
      (hok : ∀ t ∈ g, TokenOk t) (hf : Flags f g) (h : Packed ts bs) :
      Packed (g ++ ts) (f :: bodies g ++ bs)

theorem Packed.snoc {ts : List (Token Byte)} {bs : Bytes} (h : Packed ts bs) {f : Byte}
    {g : List (Token Byte)} (hlen : g.length = 8) (hok : ∀ t ∈ g, TokenOk t) (hf : Flags f g) :
    Packed (ts ++ g) (bs ++ f :: bodies g) := by
  induction h with
  | nil =>
    have hnew := Packed.cons f g [] [] hlen hok hf .nil
    simpa using hnew
  | cons f' g' ts bs hlen' hok' hf' _ ih =>
    have hnew := Packed.cons f' g' _ _ hlen' hok' hf' ih
    simpa [List.append_assoc] using hnew

theorem bodies_append (g g' : List (Token Byte)) : bodies (g ++ g') = bodies g ++ bodies g' := by
  simp [bodies]

theorem length_tokenBytes_pos (t : Token Byte) : 0 < (tokenBytes t).length := by
  cases t with
  | lit b => simp [tokenBytes]
  | copy pos len => simp [tokenBytes]

/-! ### Reading packed tokens -/

theorem copyLoop_eq (n b : ℕ) (hb : 1 ≤ b) (result : Bytes) :
    copyLoop n b result = copyFrom 0 (b - 1) n result := by
  induction n generalizing b result with
  | zero => rfl
  | succ n ih =>
    have hitem : (if b ≤ result.length then result.getD (b - 1) 0 else 0) = result.getD (b - 1) 0 := by
      split
      · rfl
      · rw [List.getD_eq_getElem?_getD, List.getElem?_eq_none (by omega)]
        rfl
    rw [copyLoop, copyFrom, hitem, ih (b + 1) (by omega), show b + 1 - 1 = b - 1 + 1 by omega]

theorem testBit_iff_shiftRight (x n : ℕ) : x.testBit n = true ↔ ¬ (x >>> n) % 2 = 0 := by
  rw [Nat.testBit_eq_decide_div_mod_eq, Nat.shiftRight_eq_div_pow, decide_eq_true_eq]
  omega

theorem drop_lt {data s rest : Bytes} {index : ℕ} (hd : data.drop index = s ++ rest)
    (hs : 0 < s.length) : index + s.length ≤ data.length := by
  have hlen := congrArg List.length hd
  rw [List.length_drop, List.length_append] at hlen
  omega

theorem drop_next {data s rest : Bytes} {index : ℕ} (hd : data.drop index = s ++ rest) :
    data.drop (index + s.length) = rest := by
  rw [← List.drop_drop, hd, List.drop_left]

theorem u16At_drop {data rest : Bytes} {index x : ℕ} (hx : x < 2 ^ 16)
    (hd : data.drop index = leBytes 2 x ++ rest) : u16At data index = some x := by
  have hle : index + 2 ≤ data.length := by
    have h := drop_lt hd (by simp)
    rw [length_leBytes] at h
    exact h
  have htake : (data.drop index).take 2 = leBytes 2 x := by
    rw [hd]
    exact List.take_left' (length_leBytes 2 x)
  have hv : leVal (leBytes 2 x) = x := by
    rw [leVal_leBytes]
    exact Nat.mod_eq_of_lt (by simpa using hx)
  simp only [u16At, sliceAt, if_pos hle, Option.map_some, htake, hv]

section items

variable (data : Bytes) (cbf : ℕ)

theorem decompressItems_token {t : Token Byte} (hok : TokenOk t) {nump index : ℕ} {rest : Bytes}
    (hbit : cbf.testBit nump = t.isCopy) (hd : data.drop index = tokenBytes t ++ rest) (fuel : ℕ)
    (result : Bytes) :
    decompressItems data data.length 3 cbf (fuel + 1) nump index result =
      decompressItems data data.length 3 cbf fuel (nump + 1) (index + (tokenBytes t).length)
        (expandToken 0 result t) := by
  have hpos := length_tokenBytes_pos t
  have hle := drop_lt hd hpos
  rw [decompressItems, if_neg (by omega)]
  cases t with
  | lit b =>
    have hzero : (cbf >>> nump) % 2 = 0 := by
      by_contra h
      rw [← testBit_iff_shiftRight, hbit] at h
      cases h
    have hget : data.getD index 0 = b := by
      have h0 : (data.drop index)[0]? = some b := by rw [hd]; rfl
      rw [List.getElem?_drop, Nat.add_zero] at h0
      rw [List.getD_eq_getElem?_getD, h0]
      rfl
    rw [if_pos hzero, hget]
    rfl
  | copy pos len =>
    obtain ⟨h1, h2, h3, h4⟩ := hok
    have hone : ¬ (cbf >>> nump) % 2 = 0 := by
      rw [← testBit_iff_shiftRight, hbit]
      rfl
    have hread : u16At data index = some ((pos + 1 - 3) * 16 + (len - 2)) :=
      u16At_drop (by omega) hd
    have hdiv : ((pos + 1 - 3) * 16 + (len - 2)) / 16 = pos + 1 - 3 := by omega
    have hmod : ((pos + 1 - 3) * 16 + (len - 2)) % 16 = len - 2 := by omega
    have hlen : (tokenBytes (.copy pos len)).length = 2 := by simp [tokenBytes]
    rw [if_neg hone, hread, hlen]
    simp only [hdiv, hmod, if_neg (by omega : ¬ pos + 1 - 3 = 0)]
    rw [copyLoop_eq _ _ (by omega), show len - 2 + 2 = len by omega,
      show pos + 1 - 3 + 3 - 1 = pos by omega]
    rfl

theorem decompressItems_group (g : List (Token Byte)) (hok : ∀ t ∈ g, TokenOk t) {nump index : ℕ}
    {rest : Bytes} (hbits : ∀ j t, g[j]? = some t → cbf.testBit (nump + j) = t.isCopy)
    (hd : data.drop index = bodies g ++ rest) (fuel : ℕ) (result : Bytes) :
    decompressItems data data.length 3 cbf (fuel + g.length) nump index result =
      decompressItems data data.length 3 cbf fuel (nump + g.length) (index + (bodies g).length)
        (expand 0 result g) := by
  induction g generalizing nump index result with
  | nil => rfl
  | cons t g ih =>
    have hsplit : data.drop index = tokenBytes t ++ (bodies g ++ rest) := by
      rw [hd]
      simp [bodies]
    have hbit : cbf.testBit nump = t.isCopy := hbits 0 t rfl
    have htok := decompressItems_token data cbf (hok t (List.mem_cons_self ..)) hbit hsplit
      (fuel + g.length) result
    have hbits' : ∀ j u, g[j]? = some u → cbf.testBit (nump + 1 + j) = u.isCopy := by
      intro j u hj
      rw [show nump + 1 + j = nump + (j + 1) by omega]
      exact hbits (j + 1) u hj
    have htail := ih (fun u hu => hok u (List.mem_cons_of_mem _ hu)) hbits' (drop_next hsplit)
      (expandToken 0 result t)
    rw [List.length_cons, ← Nat.add_assoc, htok, htail]
    have hlen : index + (tokenBytes t).length + (bodies g).length =
        index + (bodies (t :: g)).length := by
      simp only [bodies, List.flatMap_cons, List.length_append]
      omega
    rw [hlen, show nump + 1 + g.length = nump + (g.length + 1) by omega]
    rfl

end items

theorem Flags.bit {f : Byte} {g : List (Token Byte)} (hf : Flags f g) (hlen : g.length ≤ 8) {j : ℕ}
    {t : Token Byte} (hj : g[j]? = some t) : f.toNat.testBit (0 + j) = t.isCopy := by
  obtain ⟨hlt, -⟩ := List.getElem?_eq_some_iff.mp hj
  rw [Nat.zero_add, hf j (by omega), hj]
  rfl

theorem getD_drop_cons {data rest : Bytes} {index : ℕ} {b : Byte}
    (hd : data.drop index = b :: rest) : data.getD index 0 = b ∧ index < data.length := by
  have h0 : (data.drop index)[0]? = some b := by rw [hd]; rfl
  rw [List.getElem?_drop, Nat.add_zero] at h0
  refine ⟨?_, (List.getElem?_eq_some_iff.mp h0).1⟩
  rw [List.getD_eq_getElem?_getD, h0]
  rfl

theorem decompressLoop_packed (data : Bytes) {ts : List (Token Byte)} {bs : Bytes}
    (h : Packed ts bs) {index : ℕ} {rest : Bytes} (hd : data.drop index = bs ++ rest)
    (result : Bytes) : ∃ m ≤ bs.length, ∀ fuel,
      decompressLoop data data.length 3 (fuel + m) index result =
        decompressLoop data data.length 3 fuel (index + bs.length) (expand 0 result ts) := by
  induction h generalizing index result with
  | nil => exact ⟨0, le_rfl, fun _ => rfl⟩
  | cons f g ts bs hlen hok hf _ ih =>
    have hcons : data.drop index = f :: (bodies g ++ (bs ++ rest)) := by
      rw [hd]
      simp
    obtain ⟨hget, hlt⟩ := getD_drop_cons hcons
    have hbody : data.drop (index + 1) = bodies g ++ (bs ++ rest) :=
      drop_next (s := [f]) (by rw [hcons]; rfl)
    obtain ⟨m, hm, hloop⟩ := ih (drop_next hbody) (expand 0 result g)
    have hgroup := decompressItems_group data f.toNat g hok (fun j t hj => hf.bit hlen.le hj) hbody 0
      result
    rw [hlen, Nat.zero_add, decompressItems] at hgroup
    refine ⟨m + 1, ?_, ?_⟩
    · simp only [List.length_append, List.length_cons]
      omega
    · intro fuel
      rw [← Nat.add_assoc, decompressLoop, if_pos hlt, hget, hgroup]
      simp only []
      rw [hloop fuel, expand_append]
      congr 1
      simp only [List.length_append, List.length_cons]
      omega

theorem decompressLoop_last (data : Bytes) {f : Byte} {g : List (Token Byte)} (hlen : g.length < 8)
    (hok : ∀ t ∈ g, TokenOk t) (hbits : ∀ j t, g[j]? = some t → f.toNat.testBit (0 + j) = t.isCopy)
    (hend : f.toNat.testBit g.length = true) {index : ℕ}
    (hd : data.drop index = f :: (bodies g ++ [0, 0])) (fuel : ℕ) (result : Bytes) :
    decompressLoop data data.length 3 (fuel + 1) index result = some (expand 0 result g) := by
  obtain ⟨hget, hlt⟩ := getD_drop_cons hd
  have hbody : data.drop (index + 1) = bodies g ++ [0, 0] :=
    drop_next (s := [f]) (by rw [hd]; rfl)
  have hgroup := decompressItems_group data f.toNat g hok hbits hbody (7 - g.length + 1) result
  rw [show 7 - g.length + 1 + g.length = 8 by omega] at hgroup
  have hzero : data.drop (index + 1 + (bodies g).length) = leBytes 2 0 ++ [] := by
    rw [drop_next hbody]
    rfl
  have hle := drop_lt hzero (by simp)
  rw [length_leBytes] at hle
  have hread := u16At_drop (by omega) hzero
  have hone : ¬ (f.toNat >>> (0 + g.length)) % 2 = 0 := by
    rw [← testBit_iff_shiftRight, Nat.zero_add]
    exact hend
  have hstop : decompressItems data data.length 3 f.toNat (7 - g.length + 1) (0 + g.length)
      (index + 1 + (bodies g).length) (expand 0 result g) = some (.done (expand 0 result g)) := by
    rw [decompressItems, if_neg (by omega), if_neg hone, hread]
    simp
  rw [decompressLoop, if_pos hlt, hget, hgroup, hstop]

/-! ### Writing packed tokens -/

/-- An item is about to be written behind the items `g` of the open group. -/
structure Pending (s : CompressState) (done : List (Token Byte)) (bs : Bytes) (f : Byte)
    (g : List (Token Byte)) : Prop where
  packed : Packed done bs
  count : s.count = g.length
  room : g.length < 8
  cbf : s.cbf = bs.length + 1
  result : s.result = bs ++ f :: bodies g
  flags : Flags f g
  ok : ∀ t ∈ g, TokenOk t

/-- The result between two items: full groups, and an open one unless the last is full. -/
def Written (s : CompressState) (ts : List (Token Byte)) : Prop :=
  (s.count = 7 ∧ Packed ts s.result) ∨
    ∃ done bs f g, ts = done ++ g ∧ Packed done bs ∧ g.length = s.count + 1 ∧ s.count < 7 ∧
      s.cbf = bs.length + 1 ∧ s.result = bs ++ f :: bodies g ∧ Flags f g ∧ ∀ t ∈ g, TokenOk t

theorem flags_nil : Flags 0 [] := by
  intro j hj
  simp

theorem Written.openItem {s : CompressState} {ts : List (Token Byte)} (h : Written s ts)
    (hlen : s.result.length + 1 < 2 ^ 32) :
    ∃ done bs f g, ts = done ++ g ∧ Pending s.openItem done bs f g := by
  rcases h with ⟨hc, hp⟩ | ⟨done, bs, f, g, hts, hp, hg, hc, hcbf, hres, hf, hok⟩
  · refine ⟨ts, s.result, 0, [], (List.append_nil ts).symm, hp, ?_, by simp, ?_, ?_, flags_nil, by simp⟩
    · simp [CompressState.openItem, hc]
    · simp only [CompressState.openItem, if_pos hc]
      exact unsigned_of_lt hlen
    · simp [CompressState.openItem, hc, bodies]
  · have hc7 : ¬ s.count = 7 := by omega
    refine ⟨done, bs, f, g, hts, hp, ?_, by omega, ?_, ?_, hf, hok⟩
    · simp only [CompressState.openItem, if_neg hc7]
      omega
    · simp only [CompressState.openItem, if_neg hc7]
      exact hcbf
    · simp only [CompressState.openItem, if_neg hc7]
      exact hres

theorem Pending.close {s s' : CompressState} {done : List (Token Byte)} {bs : Bytes} {f f' : Byte}
    {g : List (Token Byte)} (h : Pending s done bs f g) {t : Token Byte} (ht : TokenOk t)
    (hf : Flags f' (g ++ [t])) (hcount : s'.count = s.count) (hcbf : s'.cbf = s.cbf)
    (hres : s'.result = bs ++ f' :: bodies (g ++ [t])) : Written s' (done ++ (g ++ [t])) := by
  have hok : ∀ u ∈ g ++ [t], TokenOk u := by
    intro u hu
    rcases List.mem_append.mp hu with hu | hu
    · exact h.ok u hu
    · rw [List.mem_singleton.mp hu]
      exact ht
  have hlen : (g ++ [t]).length = s'.count + 1 := by
    rw [List.length_append, List.length_singleton, hcount, h.count]
  by_cases hfull : s'.count = 7
  · refine Or.inl ⟨hfull, ?_⟩
    rw [hres]
    exact h.packed.snoc (by omega) hok hf
  · have hroom := h.room
    have hcnt := h.count
    exact Or.inr ⟨done, bs, f', g ++ [t], rfl, h.packed, hlen, by omega, hcbf.trans h.cbf, hres, hf, hok⟩

theorem Flags.literal {f : Byte} {g : List (Token Byte)} (hf : Flags f g) (b : Byte) :
    Flags f (g ++ [.lit b]) := by
  intro j hj
  rw [hf j hj]
  rcases Nat.lt_trichotomy j g.length with h | h | h
  · rw [List.getElem?_append_left h]
  · subst h
    simp [Token.isCopy]
  · rw [List.getElem?_eq_none (by omega), List.getElem?_eq_none (by simp; omega)]

theorem Flags.reference {f : Byte} {g : List (Token Byte)} (hf : Flags f g) (hlen : g.length < 8)
    (pos len : ℕ) : Flags (f ||| UInt8.ofNat (1 <<< g.length)) (g ++ [.copy pos len]) := by
  have hval : (UInt8.ofNat (1 <<< g.length)).toNat = 2 ^ g.length := by
    rw [UInt8.toNat_ofNat', Nat.one_shiftLeft]
    exact Nat.mod_eq_of_lt (Nat.pow_lt_pow_right (by omega) hlen)
  intro j hj
  rw [UInt8.toNat_or, Nat.testBit_or, hval, hf j hj, Nat.testBit_two_pow]
  rcases Nat.lt_trichotomy j g.length with h | h | h
  · rw [List.getElem?_append_left h]
    simp [Nat.ne_of_gt h]
  · subst h
    simp [Token.isCopy]
  · rw [List.getElem?_eq_none (by omega), List.getElem?_eq_none (by simp; omega)]
    simp [Nat.ne_of_lt h]

theorem orAt_flag {bs tail : Bytes} {f : Byte} (hlen : bs.length + 1 < 2 ^ 32) (x : ℕ) :
    orAt (bs ++ f :: tail) (unsignedPred (bs.length + 1)) x = bs ++ (f ||| UInt8.ofNat x) :: tail := by
  have hi : unsignedPred (bs.length + 1) = bs.length := unsignedPred_of_pos (by omega) hlen
  rw [orAt, hi, List.modify_eq_take_drop]
  simp

/-! ### The loop of the compressor -/

structure CompressInv (data : Bytes) (s : CompressState) (ts : List (Token Byte)) : Prop where
  low : 4 ≤ s.index
  high : s.index ≤ data.length + 1
  expands : expand 0 (data.take 3) ts = data.take (s.index - 1)
  written : s.result.length < 2 ^ 32 → Written s ts

theorem compressInv_init {data : Bytes} (hlen : 3 ≤ data.length) : CompressInv data .init [] where
  low := le_rfl
  high := by
    show 4 ≤ data.length + 1
    omega
  expands := rfl
  written := fun _ => Or.inl ⟨rfl, .nil⟩

theorem openItem_index (s : CompressState) : s.openItem.index = s.index := by
  unfold CompressState.openItem
  split <;> rfl

theorem openItem_length (s : CompressState) : s.result.length ≤ s.openItem.result.length := by
  unfold CompressState.openItem
  split
  · simp
  · exact le_rfl

theorem literal_inv {data : Bytes} {s : CompressState} {ts : List (Token Byte)}
    (hn : data.length + 1 < 2 ^ 32) (h : CompressInv data s ts) (hlt : s.index < data.length + 1) :
    CompressInv data (s.openItem.literal data) (ts ++ [.lit (data.getD (s.index - 1) 0)]) := by
  have hlow := h.low
  have hindex : (s.openItem.literal data).index = s.index + 1 := by
    simp only [CompressState.literal, openItem_index]
    exact unsigned_of_lt (by omega)
  have hbyte : byteAt data (unsignedPred s.openItem.index) = data.getD (s.index - 1) 0 := by
    rw [openItem_index, byteAt, unsignedPred_of_pos (by omega) (by omega)]
  have hget : data.getD (s.index - 1) 0 = data[s.index - 1] := by
    rw [List.getD_eq_getElem?_getD, List.getElem?_eq_getElem (by omega)]
    rfl
  refine ⟨by omega, by omega, ?_, ?_⟩
  · rw [expand_append, h.expands, hindex, hget]
    show data.take (s.index - 1) ++ [data[s.index - 1]] = data.take (s.index + 1 - 1)
    rw [List.take_append_getElem]
    congr 1
    omega
  · intro hres
    have hgrow := openItem_length s
    have hlen : (s.openItem.literal data).result.length = s.openItem.result.length + 1 := by
      simp [CompressState.literal]
    obtain ⟨done, bs, f, g, hts, hp⟩ := (h.written (by omega)).openItem (by omega)
    rw [hts, List.append_assoc]
    refine hp.close trivial (hp.flags.literal _) rfl rfl ?_
    simp only [CompressState.literal, hp.result, hbyte]
    simp [bodies, tokenBytes]

theorem reference_inv {data : Bytes} {s : CompressState} {ts : List (Token Byte)} {matchl start : ℕ}
    (h : CompressInv data s ts) (hi : s.index ≤ 2000) (hm : 2 < matchl) (hstart : 4 ≤ start) (hbefore : start < s.index)
    (hmatch : MatchAt data s.index start matchl) :
    CompressInv data (s.openItem.reference matchl start)
        (ts ++ [.copy (start - 1) ((matchl - 2) % 16 + 2)]) ∧
      s.index < (s.openItem.reference matchl start).index := by
  have hlow := h.low
  have hend : s.index + (matchl - 1) < data.length := (hmatch (matchl - 1) (by omega)).1
  have hle : (matchl - 2) % 16 + 2 ≤ matchl := by omega
  have hindex : (s.openItem.reference matchl start).index = s.index + ((matchl - 2) % 16 + 2) := by
    simp only [CompressState.reference, openItem_index]
    rw [unsigned_of_lt (by omega), Nat.add_assoc]
  refine ⟨⟨by omega, by omega, ?_, ?_⟩, by omega⟩
  · rw [expand_append, h.expands, hindex]
    show copyFrom 0 (start - 1) ((matchl - 2) % 16 + 2) (data.take (s.index - 1)) = _
    rw [copyFrom_take 0 _ (by omega) (by omega)]
    · congr 1
      omega
    · intro j hj
      have := (hmatch j (by omega)).2
      rw [show start - 1 + j = start + j - 1 by omega, show s.index - 1 + j = s.index + j - 1 by omega]
      exact this
  · intro hres
    have hgrow := openItem_length s
    have hlen : (s.openItem.reference matchl start).result.length = s.openItem.result.length + 2 := by
      simp [CompressState.reference, orAt]
    obtain ⟨done, bs, f, g, hts, hp⟩ := (h.written (by omega)).openItem (by omega)
    have hbs : bs.length + 1 < 2 ^ 32 := by
      have := hp.result
      rw [this, List.length_append, List.length_cons] at hlen
      omega
    rw [hts, List.append_assoc]
    refine hp.close ⟨by omega, by omega, by omega, by omega⟩
      (hp.flags.reference hp.room (start - 1) ((matchl - 2) % 16 + 2)) rfl rfl ?_
    have hcode : (start - 1 + 1 - 3) * 16 + ((matchl - 2) % 16 + 2 - 2) =
        (start - 3) * 16 + (matchl - 2) % 16 := by omega
    simp only [CompressState.reference, hp.result, hp.cbf, hp.count, orAt_flag hbs, bodies_append]
    simp only [bodies, tokenBytes, List.flatMap_cons, List.flatMap_nil, hcode, List.append_nil,
      List.append_assoc, List.cons_append]

theorem compressStep_inv {data : Bytes} {s : CompressState} {ts : List (Token Byte)}
    (hn : data.length + 1 < 2 ^ 32) (h : CompressInv data s ts) (hlt : s.index < data.length + 1) :
    ∃ t, CompressInv data (compressStep data s) (ts ++ [t]) ∧
      s.index < (compressStep data s).index := by
  have hliteral : CompressInv data (s.openItem.literal data)
        (ts ++ [.lit (data.getD (s.index - 1) 0)]) ∧
      s.index < (s.openItem.literal data).index := by
    refine ⟨literal_inv hn h hlt, ?_⟩
    simp only [CompressState.literal, openItem_index]
    rw [unsigned_of_lt (by omega)]
    omega
  simp only [compressStep, openItem_index]
  split
  · exact ⟨_, hliteral⟩
  · rename_i hrange
    have hcand := findMatch_spec data (by omega : 5 ≤ s.index)
    split
    · rename_i hm
      obtain ⟨h1, h2, h3⟩ := hcand hm
      exact ⟨_, reference_inv h (by omega) hm h1 h2 h3⟩
    · exact ⟨_, hliteral⟩

theorem compressLoop_inv {data : Bytes} (hn : data.length + 1 < 2 ^ 32) (fuel : ℕ)
    {s : CompressState} {ts : List (Token Byte)} (h : CompressInv data s ts)
    (hfuel : data.length + 1 < fuel + s.index) :
    ∃ s' ts', compressLoop data fuel s = some s' ∧ CompressInv data s' ts' ∧
      s'.index = data.length + 1 := by
  induction fuel generalizing s ts with
  | zero =>
    have := h.high
    omega
  | succ fuel ih =>
    by_cases hlt : s.index < data.length + 1
    · obtain ⟨t, hinv, hadv⟩ := compressStep_inv hn h hlt
      obtain ⟨s', ts', hloop, hinv', hend⟩ := ih hinv (by omega)
      exact ⟨s', ts', by rw [compressLoop, if_pos hlt, hloop], hinv', hend⟩
    · have := h.high
      exact ⟨s, ts, by rw [compressLoop, if_neg hlt], h, by omega⟩

/-! ### Round trip -/

section buffer

variable {data : Bytes} (more : Bytes) {len headerSize : ℕ} (hlen : len ≤ data.length)
include hlen

theorem decompressItems_append {cbf fuel nump index : ℕ} {result : Bytes} {r : ItemsResult}
    (h : decompressItems data len headerSize cbf fuel nump index result = some r) :
    decompressItems (data ++ more) len headerSize cbf fuel nump index result = some r := by
  induction fuel generalizing nump index result with
  | zero => exact h
  | succ fuel ih =>
    rw [decompressItems] at h ⊢
    by_cases hend : len ≤ index
    · rw [if_pos hend] at h ⊢
      exact h
    · rw [if_neg hend] at h ⊢
      split at h
      · rename_i hbit
        rw [if_pos hbit, List.getD_append _ _ _ _ (by omega)]
        exact ih h
      · rename_i hbit
        rw [if_neg hbit]
        cases hread : u16At data index with
        | none =>
          rw [hread] at h
          cases h
        | some uop =>
          rw [hread] at h
          rw [u16At_extend hread more]
          simp only [] at h ⊢
          split at h
          · rename_i hzero
            rw [if_pos hzero]
            exact h
          · rename_i hzero
            rw [if_neg hzero]
            exact ih h

theorem decompressLoop_append {fuel index : ℕ} {result r : Bytes}
    (h : decompressLoop data len headerSize fuel index result = some r) :
    decompressLoop (data ++ more) len headerSize fuel index result = some r := by
  induction fuel generalizing index result with
  | zero => exact h
  | succ fuel ih =>
    rw [decompressLoop] at h ⊢
    split at h
    · rename_i hlt
      rw [if_pos hlt, List.getD_append _ _ _ _ (by omega)]
      cases hitems : decompressItems data len headerSize (data.getD index 0).toNat 8 0 (index + 1)
          result with
      | none =>
        rw [hitems] at h
        cases h
      | some items =>
        rw [hitems] at h
        rw [decompressItems_append more hlen hitems]
        cases items with
        | done result => exact h
        | next index result => exact ih h
    · rename_i hlt
      rw [if_neg hlt]
      exact h

end buffer

/-- `r` holds `ts`: groups of eight, and a last one whose flags have its end marker. -/
structure Closed (ts : List (Token Byte)) (done : List (Token Byte)) (bs : Bytes) (f : Byte)
    (g : List (Token Byte)) (r : Bytes) : Prop where
  tokens : ts = done ++ g
  packed : Packed done bs
  room : g.length < 8
  ok : ∀ t ∈ g, TokenOk t
  flags : ∀ j t, g[j]? = some t → f.toNat.testBit (0 + j) = t.isCopy
  last : f.toNat.testBit g.length = true
  result : r = bs ++ f :: bodies g

/-- The flags that `0xff` is shifted into are those from the shift on. -/
theorem testBit_shifted {n j : ℕ} (hn : n < 8) (hj : j < 8) :
    (UInt8.ofNat (0xff <<< n)).toNat.testBit j = decide (n ≤ j) := by
  have hall : ∀ c < 8, ∀ j < 8, (UInt8.ofNat (0xff <<< c)).toNat.testBit j = decide (c ≤ j) := by decide
  exact hall n hn j hj

theorem Written.close {s : CompressState} {ts : List (Token Byte)} (h : Written s ts)
    (hlen : s.result.length < 2 ^ 32) : ∃ done bs f g, Closed ts done bs f g
      (if s.count = 7 then s.result ++ [0xff] else orAt s.result (unsignedPred s.cbf) (0xff <<< (s.count + 1))) := by
  rcases h with ⟨hc, hp⟩ | ⟨done, bs, f, g, hts, hp, hg, hc, hcbf, hres, hf, hok⟩
  · refine ⟨ts, s.result, 0xff, [], by simp, hp, by simp, by simp, by simp, by decide, ?_⟩
    rw [if_pos hc]
    simp [bodies]
  · have hbs : bs.length + 1 < 2 ^ 32 := by
      have hreslen := congrArg List.length hres
      rw [List.length_append, List.length_cons] at hreslen
      omega
    refine ⟨done, bs, f ||| UInt8.ofNat (0xff <<< (s.count + 1)), g, hts, hp, by omega, hok, ?_, ?_, ?_⟩
    · intro j t hj
      obtain ⟨hlt, -⟩ := List.getElem?_eq_some_iff.mp hj
      rw [UInt8.toNat_or, Nat.testBit_or, hf.bit (by omega) hj, Nat.zero_add,
        testBit_shifted (by omega) (by omega)]
      simp
      omega
    · rw [UInt8.toNat_or, Nat.testBit_or, testBit_shifted (by omega) (by omega)]
      simp
      omega
    · rw [if_neg (by omega), hres, hcbf, orAt_flag hbs]

theorem decompress_closed {ts done : List (Token Byte)} {bs r : Bytes} {f : Byte} {g : List (Token Byte)}
    (h : Closed ts done bs f g r) (d1 d2 : Byte)
    (hlen : (0x04 :: d1 :: d2 :: (r ++ [0, 0]) : Bytes).length < 2 ^ 32) :
    decompress (0x04 :: d1 :: d2 :: (r ++ [0, 0])) 3 = some (expand 0 [0x03, d1, d2] ts) := by
  obtain ⟨c, hc⟩ : ∃ c, (0x04 :: d1 :: d2 :: (r ++ [0, 0]) : Bytes) = c := ⟨_, rfl⟩
  have hdrop : c.drop 3 = bs ++ (f :: (bodies g ++ [0, 0])) := by
    rw [← hc, h.result]
    simp
  have hlen32 : unsigned c.length = c.length := by
    rw [← hc]
    exact unsigned_of_lt hlen
  obtain ⟨m, hm, hloop⟩ := decompressLoop_packed c h.packed hdrop [0x03, d1, d2]
  have hfuel : c.length + 1 = (c.length - m) + 1 + m := by
    have hdroplen := congrArg List.length hdrop
    rw [List.length_drop, List.length_append] at hdroplen
    omega
  have hstart : decompress c 3 =
      decompressLoop (c ++ [0]) c.length 3 (c.length + 1) 3 [0x03, d1, d2] := by
    rw [decompress, hlen32, ← hc]
    rfl
  have hread : decompressLoop c c.length 3 (c.length + 1) 3 [0x03, d1, d2] =
      some (expand 0 [0x03, d1, d2] ts) := by
    rw [hfuel, hloop, decompressLoop_last c h.room h.ok h.flags h.last (drop_next hdrop), ← expand_append,
      ← h.tokens]
  rw [hc, hstart]
  exact decompressLoop_append [0] le_rfl hread

/-- A packet that is not marked as compressed is its own decompression. -/
theorem decompress_stored (d1 d2 : Byte) {rest : Bytes} (hlen : (0x03 :: d1 :: d2 :: rest : Bytes).length < 2 ^ 32) :
    decompress (0x03 :: d1 :: d2 :: rest) 3 = some (0x03 :: d1 :: d2 :: rest) := by
  obtain ⟨c, hc⟩ : ∃ c, (0x03 :: d1 :: d2 :: rest : Bytes) = c := ⟨_, rfl⟩
  have hlen32 : unsigned c.length = c.length := by
    rw [← hc]
    exact unsigned_of_lt hlen
  have htake : decompress c 3 = some ((c ++ [0]).take c.length) := by
    rw [decompress, hlen32, ← hc]
    rfl
  rw [hc, htake, List.take_left' rfl]

theorem decompress_finish {data : Bytes} {s : CompressState} {ts : List (Token Byte)}
    (hhead : data.head? = some 0x03) (hlen : 3 ≤ data.length) (hmax : data.length + 1 < 2 ^ 32)
    (h : CompressInv data s ts) (hend : s.index = data.length + 1) :
    decompress (compressFinish data s) 3 = some data ∧
      (compressFinish data s).length ≤ data.length ∧
      ((compressFinish data s).head? = some 0x04 → (compressFinish data s).length < data.length) := by
  have hexp : expand 0 (data.take 3) ts = data := by
    rw [h.expands, hend, Nat.add_sub_cancel, List.take_length]
  obtain ⟨d1, d2, rest, rfl⟩ : ∃ d1 d2 rest, data = 0x03 :: d1 :: d2 :: rest := by
    match data, hhead, hlen with
    | _ :: d1 :: d2 :: rest, hhead, _ =>
      cases hhead
      exact ⟨d1, d2, rest, rfl⟩
  obtain ⟨r, hr⟩ : ∃ r, (if s.count = 7 then s.result ++ [0xff]
      else orAt s.result (unsignedPred s.cbf) (0xff <<< (s.count + 1))) = r := ⟨_, rfl⟩
  have hfinish : compressFinish (0x03 :: d1 :: d2 :: rest) s =
      if (r ++ [0, 0]).length + 3 < (0x03 :: d1 :: d2 :: rest : Bytes).length then
        0x04 :: d1 :: d2 :: (r ++ [0, 0])
      else 0x03 :: d1 :: d2 :: rest := by
    simp only [compressFinish, hr]
    rfl
  rw [hfinish]
  split
  · rename_i hshort
    have hsize : (0x04 :: d1 :: d2 :: (r ++ [0, 0]) : Bytes).length = (r ++ [0, 0]).length + 3 := rfl
    refine ⟨?_, by omega, fun _ => by omega⟩
    have hrlen : s.result.length ≤ r.length := by
      rw [← hr]
      split <;> simp [orAt]
    rw [List.length_append] at hshort
    have hreslen : s.result.length < 2 ^ 32 := by omega
    obtain ⟨done, bs, f, g, hclosed⟩ := (h.written hreslen).close hreslen
    rw [hr] at hclosed
    rw [decompress_closed hclosed d1 d2 (by rw [hsize, List.length_append]; omega)]
    exact congrArg some hexp
  · refine ⟨decompress_stored d1 d2 (by omega), le_rfl, ?_⟩
    intro hfour
    cases hfour

theorem exists_compressed {d : Bytes} (hlen : 3 ≤ d.length) (hmax : d.length + 1 < 2 ^ 32)
    (hhead : d.head? = some 0x03) :
    ∃ c, compress d = some c ∧ decompress c 3 = some d ∧ c.length ≤ d.length ∧
      (c.head? = some 0x04 → c.length < d.length) := by
  obtain ⟨s, ts, hloop, hinv, hend⟩ := compressLoop_inv hmax (d.length + 1) (compressInv_init hlen)
    (by simp only [CompressState.init]; omega)
  exact ⟨compressFinish d s, by rw [compress, hloop]; rfl, decompress_finish hhead hlen hmax hinv hend⟩

/-- Compression returns, its result is not longer, and decompression restores the packet. -/
theorem decompress_compress {d : Bytes} (hlen : 3 ≤ d.length) (hmax : d.length ≤ 2 ^ 32 - 2)
    (hhead : d.head? = some 0x03) :
    ∃ c, compress d = some c ∧ decompress c 3 = some d ∧ c.length ≤ d.length ∧
      (c.head? = some 0x04 → c.length < d.length) :=
  exists_compressed hlen (by omega) hhead

theorem decompress_compress_repeated : ∃ c, compress (0x03 :: List.replicate 20 7) = some c ∧
    decompress c 3 = some (0x03 :: List.replicate 20 7) ∧
    c.length ≤ (0x03 :: List.replicate 20 7 : Bytes).length ∧
    (c.head? = some 0x04 → c.length < (0x03 :: List.replicate 20 7 : Bytes).length) :=
  decompress_compress (by decide) (by decide) rfl

/-! ### Packets that are too long -/

/-- The index has 32 bits: it never passes the end of a packet of `2 ^ 32 - 1` bytes. -/
theorem compressLoop_diverges {data : Bytes} (hlen : 2 ^ 32 - 1 ≤ data.length) (fuel : ℕ)
    {s : CompressState} (hs : s.index < 2 ^ 32) : compressLoop data fuel s = none := by
  induction fuel generalizing s with
  | zero => rfl
  | succ fuel ih =>
    rw [compressLoop, if_pos (by omega)]
    apply ih
    simp only [compressStep]
    have hmod : ∀ n, unsigned n < 2 ^ 32 := fun n => Nat.mod_lt _ (by omega)
    split
    · exact hmod _
    · split <;> exact hmod _

theorem compress_too_long : 3 ≤ (0x03 :: List.replicate (2 ^ 32) 0 : Bytes).length ∧
    (0x03 :: List.replicate (2 ^ 32) 0 : Bytes).head? = some 0x03 ∧
    ∀ fuel, compressLoop (0x03 :: List.replicate (2 ^ 32) 0) fuel .init = none := by
  have hlen : (0x03 :: List.replicate (2 ^ 32) 0 : Bytes).length = 2 ^ 32 + 1 := by
    rw [List.length_cons, List.length_replicate]
  refine ⟨by omega, rfl, ?_⟩
  intro fuel
  apply compressLoop_diverges (by omega) fuel
  simp [CompressState.init]

end Gpgnet4TA.Tapacket
