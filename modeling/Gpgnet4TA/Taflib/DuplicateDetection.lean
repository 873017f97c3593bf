import Gpgnet4TA.Lib.Bytes

/-!
# CRC32 and the duplicate detector (taflib)

`CRC32` of `nswfl_crc32.cpp` (table driven, reflected) and
`DuplicateDetection` (`DuplicateDetection.cpp:5-48`): 256 buckets of CRCs
selected by the low byte, and an expiry queue of the 128 most recent CRCs.
-/

namespace Gpgnet4TA.Taflib
open Gpgnet4TA.Lib

namespace CRC32

/-- `CRC32::Reflect`: with `k + 1` rounds to go the current bit is written to bit `k`. -/
def reflectLoop : ℕ → UInt32 → UInt32 → UInt32
  | 0, _, iValue => iValue
  | k + 1, iReflect, iValue =>
    reflectLoop k (iReflect >>> 1)
      (if iReflect &&& 1 ≠ 0 then iValue ||| (1 <<< UInt32.ofNat k) else iValue)

def reflect (iReflect : UInt32) (cChar : ℕ) : UInt32 := reflectLoop cChar iReflect 0

/-- One of the eight rounds of `CRC32::Initialize` on a table entry. -/
def tableRound (t : UInt32) : UInt32 :=
  (t <<< 1) ^^^ (if t &&& 0x80000000 ≠ 0 then 0x04C11DB7 else 0)

/-- Entry `iCodes` of the lookup table. -/
def iTable (iCodes : UInt32) : UInt32 :=
  reflect (tableRound^[8] (reflect iCodes 8 <<< 24)) 32

def partialCRC (iCRC : UInt32) (sData : Bytes) : UInt32 :=
  sData.foldl (fun crc b => (crc >>> 8) ^^^ iTable ((crc &&& 0xff) ^^^ b.toUInt32)) iCRC

def fullCRC (sData : Bytes) : UInt32 := partialCRC 0xffffffff sData ^^^ 0xffffffff

end CRC32

/-- `DuplicateDetection::EXPIRY_QUEUE_LENGTH`. -/
def EXPIRY_QUEUE_LENGTH : ℕ := 128

structure DuplicateDetection where
  seenPacketCRCs : Fin 256 → Std.ExtTreeSet UInt32
  seenPacketCRCExpiryQueue : List UInt32

namespace DuplicateDetection

def new : DuplicateDetection := ⟨fun _ => ∅, []⟩

/-- The bucket of a CRC (`crc & 0xff`). -/
def hash (crc : UInt32) : Fin 256 := ⟨crc.toNat % 256, Nat.mod_lt _ (by norm_num)⟩

/-- The CRC is in its bucket. -/
def seen (d : DuplicateDetection) (crc : UInt32) : Bool :=
  (d.seenPacketCRCs (hash crc)).contains crc

/-- `DuplicateDetection::insert`; the flag is true if the CRC was already there. -/
def insert (d : DuplicateDetection) (crc : UInt32) : Bool × DuplicateDetection :=
  if d.seen crc then (true, d)
  else (false, { d with
    seenPacketCRCs := Function.update d.seenPacketCRCs (hash crc)
      ((d.seenPacketCRCs (hash crc)).insert crc) })

/-- `DuplicateDetection::erase`. -/
def erase (d : DuplicateDetection) (crc : UInt32) : DuplicateDetection :=
  { d with
    seenPacketCRCs := Function.update d.seenPacketCRCs (hash crc)
      ((d.seenPacketCRCs (hash crc)).erase crc) }

/-- The `while` loop that keeps the expiry queue at its length. -/
def expire (d : DuplicateDetection) : List UInt32 → DuplicateDetection
  | [] => { d with seenPacketCRCExpiryQueue := [] }
  | expiredCRC :: rest =>
    if EXPIRY_QUEUE_LENGTH < (expiredCRC :: rest).length then expire (d.erase expiredCRC) rest
    else { d with seenPacketCRCExpiryQueue := expiredCRC :: rest }

/-- The CRC that `isLikelyDuplicate` computes from its arguments. -/
def crcOf (sourceId destId : ℕ) (data : Bytes) : UInt32 :=
  CRC32.partialCRC
    (CRC32.partialCRC (CRC32.partialCRC 0xffffffff (leBytes 4 sourceId)) (leBytes 4 destId)) data

def isLikelyDuplicate (d : DuplicateDetection) (sourceId destId : ℕ) (data : Bytes) :
    Bool × DuplicateDetection :=
  let crc := crcOf sourceId destId data
  match d.insert crc with
  | (true, d') => (true, d')
  | (false, d') => (false, d'.expire (d'.seenPacketCRCExpiryQueue ++ [crc]))

/-! ### The window -/

/-- What is in the queue is in the buckets, and is there once. -/
structure Consistent (d : DuplicateDetection) : Prop where
  nodup : d.seenPacketCRCExpiryQueue.Nodup
  seen : ∀ crc ∈ d.seenPacketCRCExpiryQueue, d.seen crc = true

theorem consistent_new : Consistent new := ⟨List.nodup_nil, fun _ h => by cases h⟩

section window

variable {d : DuplicateDetection}

theorem seen_insert (d : DuplicateDetection) (crc c : UInt32) :
    (d.insert crc).2.seen c = true ↔ c = crc ∨ d.seen c = true := by
  unfold insert
  split
  · rename_i hseen
    exact ⟨Or.inr, fun h => h.elim (fun hc => hc ▸ hseen) id⟩
  · unfold seen
    dsimp only
    by_cases hh : hash c = hash crc
    · rw [hh, Function.update_self, Std.ExtTreeSet.contains_insert, Bool.or_eq_true, beq_iff_eq,
        Std.LawfulEqOrd.compare_eq_iff_eq]
      exact or_congr_left eq_comm
    · rw [Function.update_of_ne hh]
      refine ⟨Or.inr, fun h => h.elim (fun hc => absurd (congrArg hash hc) hh) id⟩

theorem seen_erase (d : DuplicateDetection) {crc c : UInt32} (hne : c ≠ crc) :
    (d.erase crc).seen c = d.seen c := by
  unfold erase seen
  dsimp only
  by_cases hh : hash c = hash crc
  · rw [hh, Function.update_self, Std.ExtTreeSet.contains_erase]
    have hcmp : (compare crc c != .eq) = true := by
      rw [bne_iff_ne, ne_eq, Std.LawfulEqOrd.compare_eq_iff_eq]
      exact hne.symm
    rw [hcmp, Bool.true_and]
  · rw [Function.update_of_ne hh]

/-- The last of the queue stay, and stay seen. -/
theorem expire_spec (queue : List UInt32) (d : DuplicateDetection) (hnodup : queue.Nodup) :
    (d.expire queue).seenPacketCRCExpiryQueue <:+ queue ∧
      (queue ≠ [] → (d.expire queue).seenPacketCRCExpiryQueue ≠ []) ∧
      ∀ crc ∈ (d.expire queue).seenPacketCRCExpiryQueue, (d.expire queue).seen crc = d.seen crc := by
  induction queue generalizing d with
  | nil => exact ⟨List.suffix_refl _, fun h => absurd rfl h, fun _ h => by cases h⟩
  | cons e rest ih =>
    rw [expire]
    split
    · rename_i hlen
      obtain ⟨he, hrest⟩ := List.nodup_cons.mp hnodup
      obtain ⟨hsuffix, hne, hseen⟩ := ih (d.erase e) hrest
      refine ⟨hsuffix.trans (List.suffix_cons e rest), fun _ => hne ?_, fun crc hcrc => ?_⟩
      · intro heq
        obtain rfl := heq
        rw [EXPIRY_QUEUE_LENGTH] at hlen
        simp at hlen
      · rw [hseen crc hcrc, seen_erase]
        intro heq
        obtain rfl := heq
        exact he (hsuffix.subset hcrc)
    · exact ⟨List.suffix_refl _, fun h => h, fun _ _ => rfl⟩

/-- A packet is a duplicate exactly if its CRC has been seen; then nothing changes, and otherwise
it has been seen afterwards. -/
theorem isLikelyDuplicate_spec (hd : d.Consistent) (sourceId destId : ℕ) (data : Bytes) :
    (d.isLikelyDuplicate sourceId destId data).1 = d.seen (crcOf sourceId destId data) ∧
      (d.seen (crcOf sourceId destId data) = true → (d.isLikelyDuplicate sourceId destId data).2 = d) ∧
      (d.isLikelyDuplicate sourceId destId data).2.Consistent ∧
      (d.isLikelyDuplicate sourceId destId data).2.seen (crcOf sourceId destId data) = true := by
  have hunfold : d.isLikelyDuplicate sourceId destId data =
      match d.insert (crcOf sourceId destId data) with
      | (true, d') => (true, d')
      | (false, d') => (false, d'.expire (d'.seenPacketCRCExpiryQueue ++ [crcOf sourceId destId data])) := rfl
  rw [hunfold]
  generalize crcOf sourceId destId data = crc
  cases hseen : d.seen crc with
  | true =>
    have hinsert : d.insert crc = (true, d) := if_pos hseen
    rw [hinsert]
    exact ⟨rfl, fun _ => rfl, hd, hseen⟩
  | false =>
    have hnew := seen_insert d crc
    obtain ⟨d', hinsert, hqueue⟩ : ∃ d', d.insert crc = (false, d') ∧
        d'.seenPacketCRCExpiryQueue = d.seenPacketCRCExpiryQueue := by
      refine ⟨_, if_neg (by rw [hseen]; exact Bool.false_ne_true), rfl⟩
    rw [hinsert] at hnew ⊢
    have hnotin : crc ∉ d.seenPacketCRCExpiryQueue := by
      intro hin
      rw [hd.seen crc hin] at hseen
      cases hseen
    have hnodup : (d'.seenPacketCRCExpiryQueue ++ [crc]).Nodup := by
      rw [hqueue, ← List.concat_eq_append]
      exact hd.nodup.concat hnotin
    obtain ⟨hsuffix, hne, hkept⟩ := expire_spec (d'.seenPacketCRCExpiryQueue ++ [crc]) d' hnodup
    have hmem : crc ∈ (d'.expire (d'.seenPacketCRCExpiryQueue ++ [crc])).seenPacketCRCExpiryQueue := by
      obtain ⟨pre, hpre⟩ := hsuffix
      have hlast := congrArg List.getLast? hpre
      rw [List.getLast?_append, List.getLast?_append, List.getLast?_singleton, Option.some_or] at hlast
      obtain ⟨x, hx⟩ := Option.isSome_iff_exists.mp (List.getLast?_isSome.mpr (hne (by simp)))
      rw [hx, Option.some_or, Option.some.injEq] at hlast
      have hin := List.mem_of_getLast? hx
      rw [hlast] at hin
      exact hin
    refine ⟨rfl, nofun, ⟨hsuffix.sublist.nodup hnodup, fun c hc => ?_⟩, ?_⟩
    · rw [hkept c hc]
      rcases List.mem_append.mp (hsuffix.subset hc) with hold | hnewc
      · exact (hnew c).mpr (Or.inr (hd.seen c (hqueue ▸ hold)))
      · exact (hnew c).mpr (Or.inl (List.mem_singleton.mp hnewc))
    · rw [hkept crc hmem]
      exact (hnew crc).mpr (Or.inl rfl)

end window

end DuplicateDetection

end Gpgnet4TA.Taflib
