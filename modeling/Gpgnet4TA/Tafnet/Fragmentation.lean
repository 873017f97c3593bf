import Gpgnet4TA.Tafnet.NodeSpec

/-!
# Sizes of fragments

A message is divided evenly into as many fragments as it would take at one byte more than
the peer's packet size. The share of a fragment is rounded up and may exceed that size by
one byte.
-/

namespace Gpgnet4TA.Tafnet
open Gpgnet4TA.Lib

/-! ### The share of a fragment -/

/-- How many fragments a message of `len` bytes is divided into. -/
def numFragments (peerSize len : ℕ) : ℕ := len / (peerSize + 1) + 1

theorem len_lt (peerSize len : ℕ) : len < (peerSize + 1) * numFragments peerSize len :=
  Nat.lt_mul_div_succ len (Nat.succ_pos peerSize)

/-- The rounded share is at most one byte too large. -/
theorem share_le (peerSize len : ℕ) :
    (len + numFragments peerSize len - 1) / numFragments peerSize len ≤ peerSize + 1 := by
  have hpos : 0 < numFragments peerSize len := Nat.succ_pos _
  have hlt := len_lt peerSize len
  apply Nat.le_of_lt_succ
  rw [Nat.div_lt_iff_lt_mul hpos, Nat.succ_mul]
  omega

theorem share_le_iff (peerSize len : ℕ) :
    (len + numFragments peerSize len - 1) / numFragments peerSize len ≤ peerSize ↔
      len ≤ peerSize * numFragments peerSize len := by
  have hpos : 0 < numFragments peerSize len := Nat.succ_pos _
  rw [← Nat.lt_succ_iff, Nat.div_lt_iff_lt_mul hpos, Nat.succ_mul]
  omega

variable {limit peerSize len : ℕ}

theorem fragmentSize_le_iff (hlower : MAX_PACKET_SIZE_LOWER_LIMIT ≤ peerSize) (hpeer : peerSize ≤ limit)
    (hlimit : limit < 2 ^ 32) :
    fragmentSize limit peerSize len ≤ peerSize ↔
      peerSize = limit ∨ len ≤ peerSize * numFragments peerSize len := by
  rcases Nat.eq_or_lt_of_le hpeer with heq | hlt
  · have hle : fragmentSize limit peerSize len ≤ peerSize := by
      rw [heq]
      exact max_le (min_le_right _ _) (heq ▸ hlower)
    exact ⟨fun _ => Or.inl heq, fun _ => hle⟩
  · have hmod : (peerSize + 1) % 2 ^ 32 = peerSize + 1 := Nat.mod_eq_of_lt (by omega)
    have hsize : fragmentSize limit peerSize len =
        max (min ((len + numFragments peerSize len - 1) / numFragments peerSize len) limit)
          MAX_PACKET_SIZE_LOWER_LIMIT := by
      rw [fragmentSize, hmod]
      rfl
    have hshare := share_le peerSize len
    rw [hsize, min_eq_left (by omega), max_le_iff, share_le_iff]
    constructor
    · exact fun h => Or.inr h.1
    · intro hx
      obtain heq | h := hx
      · exact absurd heq hlt.ne
      · exact ⟨h, hlower⟩

/-! ### The fragments -/

theorem length_fragmentLoop {action size : ℕ} {data : Bytes} (hsize : 0 < size) (fuel off : ℕ) :
    ∀ f ∈ fragmentLoop action size data fuel off, f.2 ≠ [] ∧ f.2.length ≤ size := by
  induction fuel generalizing off with
  | zero => exact fun f hf => absurd hf List.not_mem_nil
  | succ fuel ih =>
    intro f hf
    rw [fragmentLoop] at hf
    split at hf
    · rename_i hoff
      have hpiece : ((data.drop off).take (min size (data.length - off))).length =
          min size (data.length - off) := by
        rw [List.length_take, List.length_drop]
        omega
      rcases List.mem_cons.mp hf with rfl | hf
      · have hlen : (if data.length ≤ off + min size (data.length - off) then
              (action, (data.drop off).take (min size (data.length - off)))
            else (ACTION_MORE, (data.drop off).take (min size (data.length - off)))).2.length =
            min size (data.length - off) := by
          split
          · exact hpiece
          · exact hpiece
        constructor
        · apply List.ne_nil_of_length_pos
          omega
        · omega
      · exact ih _ f hf
    · exact absurd hf List.not_mem_nil

theorem exists_fragment {action size : ℕ} {data : Bytes} (hdata : data ≠ []) :
    ∃ f ∈ fragments action size data, f.2.length = min size data.length := by
  have hpos : 0 < data.length := List.length_pos_iff.mpr hdata
  obtain ⟨fuel, hfuel⟩ : ∃ fuel, data.length = fuel + 1 := ⟨data.length - 1, by omega⟩
  rw [fragments]
  nth_rewrite 1 [hfuel]
  rw [fragmentLoop, if_pos hpos]
  refine ⟨_, List.mem_cons_self, ?_⟩
  have hpiece : ((data.drop 0).take (min size (data.length - 0))).length = min size data.length := by
    rw [List.length_take, List.length_drop]
    omega
  split
  · exact hpiece
  · exact hpiece

namespace Node

variable {n : Node} {peer action : ℕ} {data : Bytes}

theorem fragments_within (hdata : data ≠ [])
    (hlower : MAX_PACKET_SIZE_LOWER_LIMIT ≤ (n.resendRateOf peer).maxPacketSize)
    (hpeer : (n.resendRateOf peer).maxPacketSize ≤ n.maxPacketSize) (hlimit : n.maxPacketSize < 2 ^ 32) :
    (∀ f ∈ n.fragmentsFor peer action data, f.2 ≠ [] ∧ f.2.length ≤ (n.resendRateOf peer).maxPacketSize) ↔
      (n.resendRateOf peer).maxPacketSize = n.maxPacketSize ∨
        data.length ≤ (n.resendRateOf peer).maxPacketSize *
          numFragments (n.resendRateOf peer).maxPacketSize data.length := by
  rw [← fragmentSize_le_iff hlower hpeer hlimit]
  have hsize := fragmentSize_pos n.maxPacketSize (n.resendRateOf peer).maxPacketSize data.length
  constructor
  · intro hall
    obtain ⟨f, hf, hlen⟩ := @exists_fragment action (fragmentSize n.maxPacketSize
      (n.resendRateOf peer).maxPacketSize data.length) data hdata
    have hle := (hall f hf).2
    -- a message that is shorter than its fragments goes in one
    by_cases hshort : data.length ≤ (n.resendRateOf peer).maxPacketSize
    · rw [fragmentSize_le_iff hlower hpeer hlimit]
      right
      exact hshort.trans (Nat.le_mul_of_pos_right _ (Nat.succ_pos _))
    · omega
  · intro hle f hf
    obtain ⟨hne, hlen⟩ := length_fragmentLoop hsize _ _ f hf
    exact ⟨hne, hlen.trans hle⟩

/-- What is pushed and sent to a peer are fragments of at most its packet size, if and only
if that size is the node's own limit or the fragments can hold the message at that size. -/
theorem fragments_within_iff (now : ℤ) (hknown : n.peerAddresses.contains peer = true)
    (haction : ACTION_TCP_DATA ≤ action) (hdata : data ≠ [])
    (hlower : MAX_PACKET_SIZE_LOWER_LIMIT ≤ (n.resendRateOf peer).maxPacketSize)
    (hpeer : (n.resendRateOf peer).maxPacketSize ≤ n.maxPacketSize) (hlimit : n.maxPacketSize < 2 ^ 32) :
    (∃ n', n.forwardGameData now peer action data = sendFragments now peer n' (n.fragmentsFor peer action data)) ∧
      ((∀ f ∈ n.fragmentsFor peer action data, f.2 ≠ [] ∧ f.2.length ≤ (n.resendRateOf peer).maxPacketSize) ↔
        (n.resendRateOf peer).maxPacketSize = n.maxPacketSize ∨
          data.length ≤ (n.resendRateOf peer).maxPacketSize *
            numFragments (n.resendRateOf peer).maxPacketSize data.length) := by
  refine ⟨?_, fragments_within hdata hlower hpeer hlimit⟩
  rw [forwardGameData, if_pos hknown, if_pos haction]
  exact ⟨_, rfl⟩

/-- A node with one peer whose packet size is still the lower limit. -/
def oneFriend : Node := (new 1 true false 1500).resetPeer ⟨0x7f000001, 6112⟩ 2

theorem oneFriend_limits : oneFriend.peerAddresses.contains 2 = true ∧
    (oneFriend.resendRateOf 2).maxPacketSize = 250 ∧ oneFriend.maxPacketSize = 1500 := by
  refine ⟨?_, ?_, rfl⟩
  · decide +kernel
  · decide +kernel

theorem fragments_within_two : (oneFriend.resendRateOf 2).maxPacketSize = 250 ∧
    ∀ f ∈ oneFriend.fragmentsFor 2 ACTION_TCP_DATA (List.replicate 500 0x2a), f.2 ≠ [] ∧ f.2.length ≤ 250 := by
  obtain ⟨hknown, hpeer, hlimit⟩ := oneFriend_limits
  have hlen : (List.replicate 500 (0x2a : Byte)).length = 500 := List.length_replicate
  have hiff := (@fragments_within_iff oneFriend 2 ACTION_TCP_DATA (List.replicate 500 0x2a) 0 hknown
    (Nat.le_refl _) (List.ne_nil_of_length_pos (by rw [hlen]; omega)) (by rw [hpeer]; decide)
    (by rw [hpeer, hlimit]; omega) (by rw [hlimit]; omega)).2
  rw [hpeer, hlen] at hiff
  exact ⟨hpeer, hiff.mpr (Or.inr (by decide))⟩

/-- 501 bytes make two fragments, and one of them is too long for the peer. -/
theorem fragment_exceeds_packet_size : oneFriend.peerAddresses.contains 2 = true ∧
    (oneFriend.resendRateOf 2).maxPacketSize = 250 ∧ oneFriend.maxPacketSize = 1500 ∧
      ∃ f ∈ oneFriend.fragmentsFor 2 ACTION_TCP_DATA (List.replicate 501 0x2a), f.2.length = 251 := by
  obtain ⟨hknown, hpeer, hlimit⟩ := oneFriend_limits
  refine ⟨hknown, hpeer, hlimit, ?_⟩
  have hlen : (List.replicate 501 (0x2a : Byte)).length = 501 := List.length_replicate
  have hsize : fragmentSize oneFriend.maxPacketSize (oneFriend.resendRateOf 2).maxPacketSize
      (List.replicate 501 (0x2a : Byte)).length = 251 := by
    rw [hpeer, hlimit, hlen]
    decide
  have hdata : List.replicate 501 (0x2a : Byte) ≠ [] := List.ne_nil_of_length_pos (by rw [hlen]; omega)
  obtain ⟨f, hf, hflen⟩ := @exists_fragment ACTION_TCP_DATA 251 _ hdata
  refine ⟨f, ?_, ?_⟩
  · rw [fragmentsFor, hsize]
    exact hf
  · rw [hflen, hlen]
    rfl

end Node

end Gpgnet4TA.Tafnet
