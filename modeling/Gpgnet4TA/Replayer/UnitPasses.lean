import Gpgnet4TA.Replayer.SyncWatcher

/-!
# The passes over the units

A pass goes from the entry into `SEND_UNITS` or `SEND_ACKS` to the state in which answers are waited
for. The loop of `SEND_ACKS` goes on behind the last unit, so that its pass is exact only if the
batches come out even.
-/

namespace Gpgnet4TA.Replayer
open Gpgnet4TA.Lib Gpgnet4TA.Tapacket

inductive Pass where
  | units
  | acks
  deriving DecidableEq

namespace Pass

def state : Pass → DpPlayerState
  | units => .SEND_UNITS
  | acks => .SEND_ACKS

def waiting : Pass → DpPlayerState
  | units => .WAIT_RECEIVE_UNITS
  | acks => .WAIT_ACKS

def breaks : Pass → Bool
  | units => true
  | acks => false

def text : Pass → String
  | units => "*** Sent all units - "
  | acks => "*** Sent ack on all units - "

end Pass

/-- What messages of the player and `sendPlayerInfos` may change between two calls. -/
structure Heard where
  ordinalId : ℤ
  statusPacket : Bytes
  unitSyncErrorCount : ℤ
  unitSyncAckCount : ℤ
  unitSyncReceiveCount : ℤ

def DpPlayer.hear (p : DpPlayer) (h : Heard) : DpPlayer :=
  { p with
    ordinalId := h.ordinalId
    statusPacket := h.statusPacket
    unitSyncErrorCount := h.unitSyncErrorCount
    unitSyncAckCount := h.unitSyncAckCount
    unitSyncReceiveCount := h.unitSyncReceiveCount }

namespace Demo

/-- The calls until the player enters `waiting`. -/
def callsUntil (r : Demo) (waiting : DpPlayerState) : ℕ → (ℕ → Heard) → DpPlayer → Option (DpPlayer × List Sent)
  | 0, _, _ => none
  | fuel + 1, heard, p => do
    let (_, p, sent) ← r.doSyncWatcher (p.hear (heard 0))
    if p.state = waiting then return (p, sent)
    else
      let (p, more) ← r.callsUntil waiting fuel (fun i => heard (i + 1)) p
      return (p, sent ++ more)

/-- The packet that tells a player about a unit. -/
def unitPacket (u : UnitInfo) : TUnitData := .new u.id u.limit true

def unitsSent (dpid : ℕ) (sent : List Sent) : List TUnitData := sent.filterMap fun s =>
  match s.message with
  | .unitData x => if s.toId = dpid then some x else none
  | _ => none

/-- The pass ends; it sends every unit once, counts them, and leaves the index at zero. -/
def PassExact (r : Demo) (pass : Pass) (heard : ℕ → Heard) (p : DpPlayer) : Prop :=
  ∃ fuel p' sent, r.callsUntil pass.waiting fuel heard p = some (p', sent) ∧
    (unitsSent p.dpid sent).Perm (r.demoUnitInfoLinear.map unitPacket) ∧
    p'.unitSyncSendCount = p.unitSyncSendCount + r.demoUnitInfo.size ∧ p'.unitSyncNextUnit = 0

section batches

variable {r : Demo} {breaks : Bool} {waiting : DpPlayerState} {text : String} {p p' : DpPlayer} {sent : List Sent}

theorem length_linear (r : Demo) : r.demoUnitInfoLinear.length = r.demoUnitInfo.size := by
  rw [demoUnitInfoLinear, List.length_map, Std.ExtTreeMap.length_toList]

theorem unitsSent_append (dpid : ℕ) (sent more : List Sent) :
    unitsSent dpid (sent ++ more) = unitsSent dpid sent ++ unitsSent dpid more := List.filterMap_append

/-! ### One unit -/

theorem sendUnit_cases {last : Bool} (h : r.sendUnit waiting text p = some (last, p', sent)) :
    ∃ u, r.demoUnitInfoLinear[p.unitSyncNextUnit.toNat]? = some u ∧ unitsSent p.dpid sent = [unitPacket u] ∧
      p'.dpid = p.dpid ∧ p'.unitSyncSendCount = p.unitSyncSendCount + 1 ∧ p'.unitSyncSendCount < 2 ^ 31 ∧
      p.unitSyncNextUnit + 1 < 2 ^ 31 ∧ 0 ≤ p.unitSyncNextUnit ∧
      (last = true ∧ p.unitSyncNextUnit + 1 = r.demoUnitInfo.size ∧ p'.unitSyncNextUnit = 0 ∧ p'.state = waiting ∨
        last = false ∧ p.unitSyncNextUnit + 1 ≠ r.demoUnitInfo.size ∧
          p'.unitSyncNextUnit = p.unitSyncNextUnit + 1 ∧ p'.state = p.state) := by
  obtain ⟨u, hu, h⟩ := Option.bind_eq_some_iff.mp h
  obtain ⟨next, hnext, h⟩ := Option.bind_eq_some_iff.mp h
  obtain ⟨count, hcount, h⟩ := Option.bind_eq_some_iff.mp h
  unfold unitAt at hu
  unfold increment at hnext hcount
  split at hu
  · split at hnext
    · split at hcount
      · cases hnext
        cases hcount
        rw [length_linear] at h
        have hto : (if p.dpid = p.dpid then some (unitPacket u) else none) = some (unitPacket u) := if_pos rfl
        split at h
        · rename_i hlast
          cases h
          refine ⟨u, hu, ?_, rfl, rfl, by dsimp only; omega, by omega, ‹_›, .inl ⟨rfl, hlast, rfl, rfl⟩⟩
          show List.filterMap _ _ = _
          simp only [say, unitPacket, List.filterMap_cons, List.filterMap_nil, if_true]
        · rename_i hmore
          cases h
          refine ⟨u, hu, ?_, rfl, rfl, by dsimp only; omega, by omega, ‹_›, .inr ⟨rfl, hmore, rfl, rfl⟩⟩
          show List.filterMap _ _ = _
          simp only [unitPacket, List.filterMap_cons, List.filterMap_nil, if_true]
      · cases hcount
    · cases hnext
  · cases hu

theorem exists_sendUnit (hnext : 0 ≤ p.unitSyncNextUnit) (hlt : p.unitSyncNextUnit < r.demoUnitInfo.size)
    (hsize : (r.demoUnitInfo.size : ℤ) < 2 ^ 31) (hcount : p.unitSyncSendCount + 1 < 2 ^ 31) :
    ∃ last p' sent, r.sendUnit waiting text p = some (last, p', sent) := by
  obtain ⟨u, hu⟩ : ∃ u, r.demoUnitInfoLinear[p.unitSyncNextUnit.toNat]? = some u :=
    ⟨_, List.getElem?_eq_getElem (by rw [length_linear]; omega)⟩
  unfold sendUnit
  simp only [unitAt, if_pos hnext, hu, increment, if_pos (by omega : p.unitSyncNextUnit < 2 ^ 31 - 1),
    if_pos (by omega : p.unitSyncSendCount < 2 ^ 31 - 1), Option.bind_eq_bind, Option.bind_some]
  split
  · exact ⟨_, _, _, rfl⟩
  · exact ⟨_, _, _, rfl⟩

/-! ### A batch -/

/-- A successful batch counts what it sends. Without a break it has `n` rounds; it changes the
state only where it comes to the last unit. -/
theorem sendBatch_counts (n : ℕ) (h : r.sendBatch breaks waiting text n p = some (p', sent)) :
    p'.dpid = p.dpid ∧ p'.unitSyncSendCount = p.unitSyncSendCount + (unitsSent p.dpid sent).length ∧
      (0 < n → p'.unitSyncSendCount < 2 ^ 31) ∧ (breaks = false → (unitsSent p.dpid sent).length = n) ∧
      (p'.state = p.state ∨ p'.state = waiting ∧ (r.demoUnitInfo.size : ℤ) < 2 ^ 31) := by
  induction n generalizing p sent with
  | zero =>
    cases h
    exact ⟨rfl, (add_zero _).symm, nofun, fun _ => rfl, .inl rfl⟩
  | succ n ih =>
    obtain ⟨⟨last, p1, first⟩, hfirst, h⟩ := Option.bind_eq_some_iff.mp h
    obtain ⟨u, -, hunits, hdpid, hcount, hbound, hindex, -, hstate⟩ := sendUnit_cases hfirst
    have hwaiting : p1.state = p.state ∨ p1.state = waiting ∧ (r.demoUnitInfo.size : ℤ) < 2 ^ 31 := by
      rcases hstate with ⟨-, hend, -, hw⟩ | ⟨-, -, -, hs⟩
      · exact .inr ⟨hw, by omega⟩
      · exact .inl hs
    dsimp only at h
    split at h
    · rename_i hbreak
      cases h
      rw [hunits]
      exact ⟨hdpid, hcount, fun _ => hbound, fun hno => absurd hbreak.2 (by rw [hno]; decide), hwaiting⟩
    · obtain ⟨⟨p2, more⟩, hmore, h⟩ := Option.bind_eq_some_iff.mp h
      obtain ⟨rfl, rfl⟩ : p2 = p' ∧ first ++ more = sent := Prod.mk.inj (Option.some.inj h)
      obtain ⟨hdpid', hcount', hbound', hlength, hstate'⟩ := ih hmore
      rw [hdpid] at hdpid' hcount' hlength
      rw [unitsSent_append, hunits, List.length_append, List.length_singleton]
      refine ⟨hdpid', by push_cast; omega, fun _ => ?_, fun hno => ?_, ?_⟩
      · by_cases hn : n = 0
        · subst hn
          cases hmore
          exact hbound
        · exact hbound' (by omega)
      · have hrest := hlength hno
        omega
      · rcases hstate' with hsame | hw
        · rw [hsame]
          exact hwaiting
        · exact .inr hw

/-- `n` rounds from unit number `k` on that do not go behind the last unit, or that break there. -/
theorem sendBatch_spec (n : ℕ) {k j : ℕ} (hk : p.unitSyncNextUnit = k) (hlt : k < r.demoUnitInfo.size)
    (hj : j = min n (r.demoUnitInfo.size - k)) (hbreak : breaks = true ∨ n ≤ r.demoUnitInfo.size - k)
    (hsize : (r.demoUnitInfo.size : ℤ) < 2 ^ 31) (hcount : p.unitSyncSendCount + j < 2 ^ 31) :
    ∃ p' sent, r.sendBatch breaks waiting text n p = some (p', sent) ∧
      unitsSent p.dpid sent = ((r.demoUnitInfoLinear.map unitPacket).drop k).take j ∧
      p'.unitSyncSendCount = p.unitSyncSendCount + j ∧ p'.dpid = p.dpid ∧
      if k + j = r.demoUnitInfo.size then p'.unitSyncNextUnit = 0 ∧ p'.state = waiting
      else p'.unitSyncNextUnit = (k + j : ℕ) ∧ p'.state = p.state := by
  induction n generalizing p k j with
  | zero =>
    obtain rfl : j = 0 := by omega
    refine ⟨p, [], rfl, List.take_zero.symm, by push_cast; omega, rfl, ?_⟩
    rw [if_neg (by omega)]
    exact ⟨hk, rfl⟩
  | succ n ih =>
    obtain ⟨i, rfl⟩ : ∃ i, j = i + 1 := ⟨j - 1, by omega⟩
    obtain ⟨last, p1, first, hfirst⟩ := @exists_sendUnit r waiting text p (by omega) (by omega) hsize (by omega)
    obtain ⟨u, hu, hunits, hdpid, hsent, -, -, -, hstate⟩ := sendUnit_cases hfirst
    rw [hk, Int.toNat_natCast] at hu
    have hdrop : (r.demoUnitInfoLinear.map unitPacket).drop k =
        unitPacket u :: (r.demoUnitInfoLinear.map unitPacket).drop (k + 1) := by
      have hget : (r.demoUnitInfoLinear.map unitPacket)[k]? = some (unitPacket u) := by
        rw [List.getElem?_map, hu]
        rfl
      obtain ⟨hin, heq⟩ := List.getElem?_eq_some_iff.mp hget
      rw [← heq]
      exact List.drop_eq_getElem_cons hin
    rw [hdrop, List.take_succ_cons]
    rcases hstate with ⟨rfl, hend, hzero, hw⟩ | ⟨rfl, hend, hindex, hs⟩
    · -- the last unit: there is no further round, or the loop is left
      obtain rfl : i = 0 := by omega
      have hfinal : r.sendBatch breaks waiting text (n + 1) p = some (p1, first) := by
        rw [sendBatch, hfirst]
        cases hb : breaks with
        | true => rfl
        | false =>
          rw [hb] at hbreak
          obtain rfl : n = 0 := by
            rcases hbreak with hno | hn
            · cases hno
            · omega
          show some (p1, first ++ []) = _
          rw [List.append_nil]
      refine ⟨p1, first, hfinal, hunits, hsent, hdpid, ?_⟩
      rw [if_pos (by omega)]
      exact ⟨hzero, hw⟩
    · obtain ⟨p2, more, hmore, hunits', hsent', hdpid', hstate'⟩ := @ih p1 (k + 1) i (by omega) (by omega)
        (by omega) (hbreak.imp_right fun hn => by omega) (by omega)
      have hall : r.sendBatch breaks waiting text (n + 1) p = some (p2, first ++ more) := by
        rw [sendBatch, hfirst]
        simp only [Option.bind_eq_bind, Option.bind_some, Bool.false_eq_true, false_and, if_false, hmore]
        rfl
      rw [hdpid] at hunits' hdpid'
      refine ⟨p2, first ++ more, hall, ?_, by push_cast; omega, hdpid', ?_⟩
      · rw [unitsSent_append, hunits, hunits']
        rfl
      · rw [show k + 1 + i = k + (i + 1) by omega, hs] at hstate'
        exact hstate'

end batches

/-! ### A pass -/

section passes

variable {r : Demo} {pass : Pass} {p p' : DpPlayer} {sent : List Sent}

theorem doSyncWatcher_pass (hstate : p.state = pass.state) :
    r.doSyncWatcher p = (r.sendBatch pass.breaks pass.waiting pass.text UNITS_SYNC_PER_TICK p).map (0, ·) := by
  cases pass with
  | units =>
    rw [doSyncWatcher, hstate]
    rfl
  | acks =>
    rw [doSyncWatcher, hstate]
    rfl

theorem waiting_ne (pass : Pass) : pass.waiting ≠ pass.state := by
  cases pass <;> decide

theorem callsUntil_counts (fuel : ℕ) {heard : ℕ → Heard} (hstate : p.state = pass.state)
    (h : r.callsUntil pass.waiting fuel heard p = some (p', sent)) :
    p'.unitSyncSendCount = p.unitSyncSendCount + (unitsSent p.dpid sent).length ∧
      p'.unitSyncSendCount < 2 ^ 31 ∧ (r.demoUnitInfo.size : ℤ) < 2 ^ 31 ∧
      (pass = .acks → 100 ∣ (unitsSent p.dpid sent).length) := by
  induction fuel generalizing heard p sent with
  | zero => cases h
  | succ fuel ih =>
    have hheard : (p.hear (heard 0)).state = pass.state := hstate
    rw [callsUntil, doSyncWatcher_pass hheard] at h
    obtain ⟨⟨_, p1, first⟩, hcall, h⟩ := Option.bind_eq_some_iff.mp h
    obtain ⟨⟨_, _⟩, hbatch, heq⟩ := Option.map_eq_some_iff.mp hcall
    cases heq
    obtain ⟨hdpid, hcount, hbound, hlength, hnext⟩ := sendBatch_counts UNITS_SYNC_PER_TICK hbatch
    have hacks (hpass : pass = .acks) : (unitsSent p.dpid first).length = 100 :=
      hlength (by rw [hpass]; rfl)
    dsimp only at h
    split at h
    · rename_i hwaiting
      cases h
      refine ⟨hcount, hbound (by decide), ?_, fun hpass => ⟨1, hacks hpass⟩⟩
      rcases hnext with hsame | ⟨-, hsize⟩
      · rw [hwaiting, hheard] at hsame
        exact absurd hsame (waiting_ne pass)
      · exact hsize
    · rename_i hgoesOn
      obtain ⟨⟨p2, more⟩, hmore, h⟩ := Option.bind_eq_some_iff.mp h
      obtain ⟨rfl, rfl⟩ : p2 = p' ∧ first ++ more = sent := Prod.mk.inj (Option.some.inj h)
      have hsame : p1.state = pass.state := by
        rcases hnext with hsame | ⟨hw, -⟩
        · exact hsame.trans hheard
        · exact absurd hw hgoesOn
      obtain ⟨hcount', hbound', hsize, hacks'⟩ := ih hsame hmore
      have hid : p1.dpid = p.dpid := hdpid
      have hfirst : p1.unitSyncSendCount = p.unitSyncSendCount + (unitsSent p.dpid first).length := hcount
      rw [hid] at hcount' hacks'
      rw [unitsSent_append, List.length_append]
      refine ⟨by push_cast; omega, hbound', hsize, fun hpass => ?_⟩
      exact dvd_add ⟨1, hacks hpass⟩ (hacks' hpass)

/-- From unit number `k` on: the batches end with the units if the loop breaks, or if the rest is a
number of whole batches. -/
theorem exists_callsUntil {k m : ℕ} (heard : ℕ → Heard) (hstate : p.state = pass.state) (hk : p.unitSyncNextUnit = k)
    (hlt : k < r.demoUnitInfo.size) (hm : m = r.demoUnitInfo.size - k) (heven : pass = .units ∨ 100 ∣ m)
    (hsize : (r.demoUnitInfo.size : ℤ) < 2 ^ 31) (hcount : p.unitSyncSendCount + m < 2 ^ 31) :
    ∃ fuel p' sent, r.callsUntil pass.waiting fuel heard p = some (p', sent) ∧
      unitsSent p.dpid sent = (r.demoUnitInfoLinear.map unitPacket).drop k ∧
      p'.unitSyncSendCount = p.unitSyncSendCount + m ∧ p'.unitSyncNextUnit = 0 := by
  induction m using Nat.strong_induction_on generalizing k p heard with
  | _ m ih =>
    have hlength : (r.demoUnitInfoLinear.map unitPacket).length = r.demoUnitInfo.size := by
      rw [List.length_map, length_linear]
    have hbreak : pass.breaks = true ∨ UNITS_SYNC_PER_TICK ≤ r.demoUnitInfo.size - k := by
      rcases heven with rfl | hdvd
      · exact .inl rfl
      · exact .inr (hm ▸ Nat.le_of_dvd (by omega) hdvd)
    obtain ⟨p1, first, hbatch, hunits, hsent, hdpid, hnext⟩ :=
      @sendBatch_spec r pass.breaks pass.waiting pass.text (p.hear (heard 0)) UNITS_SYNC_PER_TICK k
        (min UNITS_SYNC_PER_TICK m) hk hlt (by rw [hm]) hbreak hsize
        (show p.unitSyncSendCount + _ < _ by push_cast; omega)
    have hheard : (p.hear (heard 0)).state = pass.state := hstate
    have hcall : r.doSyncWatcher (p.hear (heard 0)) = some (0, p1, first) := by
      rw [doSyncWatcher_pass hheard, hbatch]
      rfl
    have hid : p1.dpid = p.dpid := hdpid
    have hfirst : p1.unitSyncSendCount = p.unitSyncSendCount + (min UNITS_SYNC_PER_TICK m : ℕ) := hsent
    have hfront : unitsSent p.dpid first = ((r.demoUnitInfoLinear.map unitPacket).drop k).take (min UNITS_SYNC_PER_TICK m) :=
      hunits
    by_cases hend : k + min UNITS_SYNC_PER_TICK m = r.demoUnitInfo.size
    · rw [if_pos hend] at hnext
      have hall : min UNITS_SYNC_PER_TICK m = m := by omega
      rw [hall] at hfirst hfront
      refine ⟨1, p1, first, ?_, ?_, hfirst, hnext.1⟩
      · rw [callsUntil, hcall]
        exact if_pos hnext.2
      · rw [hfront]
        exact List.take_of_length_le (by rw [List.length_drop, hlength]; omega)
    · rw [if_neg hend] at hnext
      have hhundred : min UNITS_SYNC_PER_TICK m = 100 := by
        rw [UNITS_SYNC_PER_TICK] at hend ⊢
        omega
      rw [hhundred] at hnext hfirst hfront
      have hsame : p1.state = pass.state := hnext.2.trans hheard
      have hrest : m - 100 < m := by omega
      obtain ⟨fuel, p2, more, hmore, hunits', hcount', hzero⟩ := @ih (m - 100) hrest p1 (k + 100)
        (fun i => heard (i + 1)) hsame hnext.1 (by omega) (by omega)
        (heven.imp_right fun hdvd => Nat.dvd_sub hdvd (dvd_refl 100)) (by omega)
      rw [hid] at hunits'
      refine ⟨fuel + 1, p2, first ++ more, ?_, ?_, by push_cast at *; omega, hzero⟩
      · rw [callsUntil, hcall]
        simp only [Option.bind_eq_bind, Option.bind_some, hmore]
        exact if_neg (by rw [hsame]; exact (waiting_ne pass).symm)
      · rw [unitsSent_append, hfront, hunits', ← List.drop_drop, List.take_append_drop]

/-- A pass over at least one unit is exact if and only if the counters have room for it and, where
units are acknowledged, the units fill their batches. -/
theorem passExact_iff (heard : ℕ → Heard) (hunits : 1 ≤ r.demoUnitInfo.size) (hstate : p.state = pass.state)
    (hnext : p.unitSyncNextUnit = 0) :
    r.PassExact pass heard p ↔ (pass = .units ∨ 100 ∣ r.demoUnitInfo.size) ∧
      (r.demoUnitInfo.size : ℤ) < 2 ^ 31 ∧ p.unitSyncSendCount + r.demoUnitInfo.size < 2 ^ 31 := by
  constructor
  · intro h
    obtain ⟨fuel, p', sent, hcalls, hperm, hcount, -⟩ := h
    obtain ⟨-, hbound, hsize, hacks⟩ := callsUntil_counts fuel hstate hcalls
    have hlength := hperm.length_eq
    rw [List.length_map, length_linear] at hlength
    refine ⟨?_, hsize, by omega⟩
    cases pass with
    | units => exact .inl rfl
    | acks => exact .inr (hlength ▸ hacks rfl)
  · intro h
    obtain ⟨heven, hsize, hcount⟩ := h
    obtain ⟨fuel, p', sent, hcalls, hsent, hcount', hzero⟩ :=
      exists_callsUntil heard hstate hnext hunits (Nat.sub_zero _).symm heven hsize hcount
    rw [List.drop_zero] at hsent
    exact ⟨fuel, p', sent, hcalls, hsent ▸ List.Perm.refl _, hcount', hzero⟩

end passes

/-- A demo of two units. -/
def twoUnits : Demo := ⟨1, ((∅ : Table UnitInfo).insert 5 ⟨5, 77, 10, true⟩).insert 9 ⟨9, 78, 20, true⟩⟩

/-- Player 2 at the entry into a pass. -/
def entering (pass : Pass) : DpPlayer := ⟨0, 2, 0, [], pass.state, 0, 0, 0, 0, 0, false, .INITIAL⟩

theorem passExact_twoUnits : twoUnits.PassExact .units (fun _ => ⟨0, [], 0, 0, 0⟩) (entering .units) := by
  have hsize : twoUnits.demoUnitInfo.size = 2 := by decide +kernel
  refine (passExact_iff _ (by rw [hsize]; decide) rfl rfl).mpr ⟨.inl rfl, ?_, ?_⟩
  · rw [hsize]
    decide
  · rw [hsize]
    decide

/-- The only call of the pass of acknowledgements sends both units fifty times. -/
theorem acks_repeated : (twoUnits.callsUntil .WAIT_ACKS 1 (fun _ => ⟨0, [], 0, 0, 0⟩) (entering .acks)).map
      (fun x => ((unitsSent 2 x.2).length, x.1.unitSyncSendCount)) = some (100, 100) ∧
    ¬ twoUnits.PassExact .acks (fun _ => ⟨0, [], 0, 0, 0⟩) (entering .acks) := by
  refine ⟨by decide +kernel, fun h => ?_⟩
  obtain ⟨fuel, p', sent, hcalls, hperm, -, -⟩ := h
  obtain ⟨-, -, -, hacks⟩ := callsUntil_counts fuel rfl hcalls
  have hsize : twoUnits.demoUnitInfo.size = 2 := by decide +kernel
  have hlength := hperm.length_eq
  rw [List.length_map, length_linear, hsize] at hlength
  have hdvd := hacks rfl
  rw [hlength] at hdvd
  exact absurd hdvd (by decide)

end Demo

end Gpgnet4TA.Replayer
