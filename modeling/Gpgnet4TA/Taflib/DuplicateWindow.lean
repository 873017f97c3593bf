import Gpgnet4TA.Lib.Window
import Gpgnet4TA.Taflib.DuplicateDetection

/-!
# The window of the duplicate detector

Buckets and queue hold the same CRCs: those of the last calls that found no duplicate.
-/

namespace Gpgnet4TA.Taflib
open Gpgnet4TA.Lib

namespace DuplicateDetection

structure Call where
  sourceId : ℕ
  destId : ℕ
  data : Bytes

def Call.crc (c : Call) : UInt32 := crcOf c.sourceId c.destId c.data

/-- The calls one after the other: the CRC of each with what it returned. -/
def calls : DuplicateDetection → List Call → List (UInt32 × Bool) × DuplicateDetection
  | d, [] => ([], d)
  | d, c :: cs =>
    let (duplicate, d) := d.isLikelyDuplicate c.sourceId c.destId c.data
    let (log, d) := d.calls cs
    ((c.crc, duplicate) :: log, d)

/-- The CRCs of the calls that returned false. -/
def fresh (log : List (UInt32 × Bool)) : List UInt32 := (log.filter fun l => !l.2).map (·.1)

/-- The buckets hold the CRCs of the list, each in the bucket of its low byte. -/
def Holds (d : DuplicateDetection) (crcs : List UInt32) : Prop :=
  ∀ (h : Fin 256) (crc : UInt32), (d.seenPacketCRCs h).contains crc = true ↔ crc ∈ crcs ∧ hash crc = h

/-- The state after calls, the CRCs of those that returned false being `past`. -/
structure Windowed (d : DuplicateDetection) (past : List UInt32) : Prop where
  queue : d.seenPacketCRCExpiryQueue = past.rtake EXPIRY_QUEUE_LENGTH
  nodup : d.seenPacketCRCExpiryQueue.Nodup
  buckets : d.Holds d.seenPacketCRCExpiryQueue

section operations

variable {d : DuplicateDetection} {crcs past : List UInt32} {crc : UInt32}

theorem Holds.seen_iff (h : d.Holds crcs) : d.seen crc = true ↔ crc ∈ crcs := by
  rw [seen, h]
  exact and_iff_left rfl

theorem Holds.insert (h : d.Holds crcs) (hnew : d.seen crc = false) : (d.insert crc).2.Holds (crcs ++ [crc]) := by
  intro b c
  rw [DuplicateDetection.insert, if_neg (by rw [hnew]; exact Bool.false_ne_true)]
  dsimp only
  rw [List.mem_append, List.mem_singleton]
  by_cases hb : b = hash crc
  · rw [hb, Function.update_self, Std.ExtTreeSet.contains_insert, Bool.or_eq_true, beq_iff_eq,
      Std.LawfulEqOrd.compare_eq_iff_eq, h]
    constructor
    · intro hc
      rcases hc with rfl | hold
      · exact ⟨.inr rfl, rfl⟩
      · exact ⟨.inl hold.1, hold.2⟩
    · intro hc
      rcases hc.1 with hold | rfl
      · exact .inr ⟨hold, hc.2⟩
      · exact .inl rfl
  · rw [Function.update_of_ne hb, h]
    have hother : hash c = b → c ≠ crc := fun hc heq => hb (by rw [← hc, heq])
    constructor
    · exact fun hc => ⟨.inl hc.1, hc.2⟩
    · intro hc
      exact ⟨hc.1.resolve_right (hother hc.2), hc.2⟩

theorem Holds.erase (h : d.Holds (crc :: crcs)) (hnodup : (crc :: crcs).Nodup) : (d.erase crc).Holds crcs := by
  intro b c
  have hgone : crc ∉ crcs := (List.nodup_cons.mp hnodup).1
  have hmem : c ∈ crcs ↔ crc ≠ c ∧ c ∈ crc :: crcs := by
    rw [List.mem_cons]
    constructor
    · exact fun hc => ⟨fun heq => hgone (heq ▸ hc), .inr hc⟩
    · exact fun hc => hc.2.resolve_left (Ne.symm hc.1)
  unfold DuplicateDetection.erase
  dsimp only
  by_cases hb : b = hash crc
  · rw [hb, Function.update_self, Std.ExtTreeSet.contains_erase, Bool.and_eq_true, bne_iff_ne, ne_eq,
      Std.LawfulEqOrd.compare_eq_iff_eq, h, hmem, and_assoc]
  · rw [Function.update_of_ne hb, h, hmem]
    have hother : hash c = b → crc ≠ c := fun hc heq => hb (by rw [← hc, heq])
    constructor
    · exact fun hc => ⟨⟨hother hc.2, hc.1⟩, hc.2⟩
    · exact fun hc => ⟨hc.1.2, hc.2⟩

theorem expire_window (queue : List UInt32) {d : DuplicateDetection} (h : d.Holds queue) (hnodup : queue.Nodup) :
    (d.expire queue).seenPacketCRCExpiryQueue = queue.rtake EXPIRY_QUEUE_LENGTH ∧
      (d.expire queue).Holds (queue.rtake EXPIRY_QUEUE_LENGTH) := by
  induction queue generalizing d with
  | nil => exact ⟨rfl, h⟩
  | cons e rest ih =>
    rw [expire]
    split
    · rename_i hlong
      rw [rtake_cons e hlong]
      exact ih (h.erase hnodup) hnodup.of_cons
    · rename_i hshort
      rw [rtake_of_le (not_lt.mp hshort)]
      exact ⟨rfl, h⟩

theorem windowed_new : Windowed new [] := by
  refine ⟨rfl, List.nodup_nil, fun h crc => ?_⟩
  have hempty : ((new.seenPacketCRCs h).contains crc) = false := Std.ExtTreeSet.contains_empty
  rw [hempty]
  exact ⟨nofun, nofun⟩

/-- A call finds what is in the window, and moves the window on if it finds nothing. -/
theorem isLikelyDuplicate_of_insert {c : Call} {found : Bool} {d' : DuplicateDetection}
    (h : d.insert c.crc = (found, d')) : d.isLikelyDuplicate c.sourceId c.destId c.data =
      (found, if found = true then d' else d'.expire (d'.seenPacketCRCExpiryQueue ++ [c.crc])) := by
  have hinsert : d.insert (crcOf c.sourceId c.destId c.data) = (found, d') := h
  rw [isLikelyDuplicate, hinsert]
  cases found <;> rfl

theorem windowed_call (h : d.Windowed past) (c : Call) :
    ((d.isLikelyDuplicate c.sourceId c.destId c.data).1 = true ↔ c.crc ∈ past.rtake EXPIRY_QUEUE_LENGTH) ∧
      (d.isLikelyDuplicate c.sourceId c.destId c.data).2.Windowed
        (past ++ fresh [(c.crc, (d.isLikelyDuplicate c.sourceId c.destId c.data).1)]) := by
  have hseen : d.seen c.crc = true ↔ c.crc ∈ past.rtake EXPIRY_QUEUE_LENGTH := by
    rw [h.buckets.seen_iff, h.queue]
  cases hfound : d.seen c.crc with
  | true =>
    have hinsert : d.insert c.crc = (true, d) := if_pos hfound
    rw [isLikelyDuplicate_of_insert hinsert]
    refine ⟨iff_of_true rfl (hseen.mp hfound), ?_⟩
    show d.Windowed (past ++ [])
    rw [List.append_nil]
    exact h
  | false =>
    have hnew := h.buckets.insert hfound
    have hnotin : c.crc ∉ d.seenPacketCRCExpiryQueue := by
      rw [← h.buckets.seen_iff, hfound]
      exact Bool.false_ne_true
    obtain ⟨d', hinsert, hqueue⟩ : ∃ d', d.insert c.crc = (false, d') ∧
        d'.seenPacketCRCExpiryQueue = d.seenPacketCRCExpiryQueue :=
      ⟨_, if_neg (by rw [hfound]; exact Bool.false_ne_true), rfl⟩
    rw [hinsert] at hnew
    rw [isLikelyDuplicate_of_insert hinsert, if_neg Bool.false_ne_true, hqueue]
    have hnodup : (d.seenPacketCRCExpiryQueue ++ [c.crc]).Nodup := by
      rw [← List.concat_eq_append]
      exact h.nodup.concat hnotin
    obtain ⟨hq, hholds⟩ := expire_window _ hnew hnodup
    refine ⟨iff_of_false Bool.false_ne_true fun hin => ?_, ?_, ?_, ?_⟩
    · rw [hseen.mpr hin] at hfound
      cases hfound
    · rw [hq, h.queue]
      exact rtake_push _ past c.crc
    · rw [hq]
      exact hnodup.sublist (List.drop_sublist _ _)
    · rw [hq]
      exact hholds

theorem windowed_calls (cs : List Call) (h : d.Windowed past) :
    (d.calls cs).2.Windowed (past ++ fresh (d.calls cs).1) := by
  induction cs generalizing d past with
  | nil =>
    show d.Windowed (past ++ [])
    rw [List.append_nil]
    exact h
  | cons c cs ih =>
    have hnext := ih (windowed_call h c).2
    rw [List.append_assoc] at hnext
    have hfresh : fresh (d.calls (c :: cs)).1 =
        fresh [(c.crc, (d.isLikelyDuplicate c.sourceId c.destId c.data).1)] ++
          fresh ((d.isLikelyDuplicate c.sourceId c.destId c.data).2.calls cs).1 := by
      rw [fresh, fresh, fresh, ← List.map_append, ← List.filter_append]
      rfl
    rw [hfresh]
    exact hnext

end operations

/-- After any calls, the next one returns true exactly if its CRC is one of the last 128 that were
found to be new; the queue holds at most as many, all different, and the buckets hold the same ones. -/
theorem duplicate_window (cs : List Call) (c : Call) :
    (((new.calls cs).2.isLikelyDuplicate c.sourceId c.destId c.data).1 = true ↔
      c.crc ∈ (fresh (new.calls cs).1).rtake EXPIRY_QUEUE_LENGTH) ∧
    (new.calls cs).2.seenPacketCRCExpiryQueue.length ≤ EXPIRY_QUEUE_LENGTH ∧
    (new.calls cs).2.seenPacketCRCExpiryQueue.Nodup ∧
    (new.calls cs).2.Holds (new.calls cs).2.seenPacketCRCExpiryQueue := by
  have h := windowed_calls cs windowed_new
  rw [List.nil_append] at h
  refine ⟨(windowed_call h c).1, ?_, h.nodup, h.buckets⟩
  rw [h.queue, length_rtake]
  exact min_le_right _ _

end DuplicateDetection

end Gpgnet4TA.Taflib
