import Gpgnet4TA.Tareplay.DemoCompiler

/-!
# The units of a game (`UnitDataRepo.cpp`)

Clients send the data of their units in any order. What a repository holds afterwards is
described key by key: a packet of sub-type 2 or 9 replaces the one before it, an enabled
unit (sub-type 3) stays enabled. The hash of the units follows from that.
-/

namespace Gpgnet4TA.Tareplay.TaDemoCompiler.UnitDataRepo
open Gpgnet4TA.Lib Gpgnet4TA.Tapacket

/-! ### The hash (`UnitDataRepo.cpp:59-75`) -/

/-- `TUnitData`: the field `crc`. -/
def unitCrc (pd : Bytes) : ℕ := leVal ((pd.drop 10).take 4)

def SY_UNIT_ID : ℕ := 0x92549357

/-- The values that are passed on, in order. -/
def hash (repo : UnitDataRepo) : List ℕ :=
  repo.toList.filterMap fun entry =>
    let ud := entry.2
    match repo[subAndId 2 (unitId ud)]? with
    | some ud02 =>
      if unitSub ud = 3 ∧ unitStatus ud = 0x0101 ∧ unitId ud ≠ SY_UNIT_ID then
        some ((unitId ud02 + unitCrc ud02) % 2 ^ 32)
      else none
    | none => none

/-- The packets of several clients in the order in which they come. -/
def addAll (packets : List Bytes) : UnitDataRepo := packets.foldl add ∅

/-! ### Packets -/

/-- What `add` looks at. -/
def IsUnitData (pd : Bytes) : Prop := pd.head? = some SubPacketCode.UNIT_DATA_1A ∧ pd.length = 14

instance (pd : Bytes) : Decidable (IsUnitData pd) := inferInstanceAs (Decidable (_ ∧ _))

/-- A packet of this sub-type for this unit. -/
def IsUnit (sub id : ℕ) (pd : Bytes) : Prop := IsUnitData pd ∧ unitSub pd = sub ∧ unitId pd = id

instance (sub id : ℕ) (pd : Bytes) : Decidable (IsUnit sub id pd) := inferInstanceAs (Decidable (_ ∧ _))

theorem unitId_lt (pd : Bytes) : unitId pd < 2 ^ 32 := by
  have hlt := leVal_lt ((pd.drop 6).take 4)
  have hlen : ((pd.drop 6).take 4).length ≤ 4 := List.length_take_le _ _
  have hle : 256 ^ ((pd.drop 6).take 4).length ≤ 256 ^ 4 := Nat.pow_le_pow_right (by omega) hlen
  exact lt_of_lt_of_le hlt hle

theorem subAndId_inj {sub sub' id id' : ℕ} (hid : id < 2 ^ 32) (hid' : id' < 2 ^ 32) :
    subAndId sub id = subAndId sub' id' ↔ sub = sub' ∧ id = id' := by
  rw [subAndId, subAndId]
  omega

theorem getExpectedSubPacketSize_unitData {pd : Bytes}
    (h : pd.head? = some SubPacketCode.UNIT_DATA_1A) :
    getExpectedSubPacketSize pd = some (if unsigned pd.length = 0 then 0 else 14) := by
  have hhead : (pd ++ [0]).head? = some SubPacketCode.UNIT_DATA_1A := by
    rw [List.head?_append, h]
    rfl
  rw [getExpectedSubPacketSize, getExpectedSubPacketSizeN]
  split
  · rfl
  · rw [hhead]
    rfl

theorem add_eq (repo : UnitDataRepo) (pd : Bytes) :
    repo.add pd = if IsUnitData pd then repo.addUnit pd else repo := by
  rw [add]
  by_cases hhead : pd.head? = some SubPacketCode.UNIT_DATA_1A
  · rw [if_neg (not_not.mpr hhead), getExpectedSubPacketSize_unitData hhead]
    by_cases hlen : pd.length = 14
    · have hsize : (if unsigned pd.length = 0 then 0 else 14) = pd.length := by
        rw [hlen]
        rfl
      have hunit : IsUnitData pd := ⟨hhead, hlen⟩
      rw [if_neg (not_not.mpr (congrArg some hsize)), if_pos hunit]
    · have hsize : some (if unsigned pd.length = 0 then 0 else 14) ≠ some pd.length := by
        intro h
        have h := Option.some.inj h
        split at h
        · have hne : pd ≠ [] := by
            intro heq
            obtain rfl := heq
            cases hhead
          exact hne (List.length_eq_zero_iff.mp h.symm)
        · exact hlen h.symm
      rw [if_neg (fun h : IsUnitData pd => hlen h.2), if_pos hsize]
  · rw [if_pos hhead, if_neg (fun h : IsUnitData pd => hhead h.1)]

/-- The sub-types that are kept. -/
def IsKept (pd : Bytes) : Prop := IsUnitData pd ∧ (unitSub pd = 2 ∨ unitSub pd = 3 ∨ unitSub pd = 9)

instance (pd : Bytes) : Decidable (IsKept pd) := inferInstanceAs (Decidable (_ ∧ _))

def key (pd : Bytes) : ℕ := subAndId (unitSub pd) (unitId pd)

/-- The packet that stands under its key after it was added to `old`. -/
def winner (old : Option Bytes) (pd : Bytes) : Bytes :=
  match old with
  | some old => if unitSub pd = 3 ∧ unitStatus old = 0x0101 then old else pd
  | none => pd

@[simp] theorem winner_none (pd : Bytes) : winner none pd = pd := rfl

theorem winner_some (old pd : Bytes) :
    winner (some old) pd = if unitSub pd = 3 ∧ unitStatus old = 0x0101 then old else pd := rfl

theorem getElem?_add_kept {repo : UnitDataRepo} {pd : Bytes} (h : IsKept pd) (k : ℕ) :
    (repo.add pd)[k]? = if k = key pd then some (winner repo[key pd]? pd) else repo[k]? := by
  have hunit : repo.addUnit pd = match repo[key pd]? with
      | some old => if unitSub pd = 3 ∧ unitStatus old = 0x0101 then repo else repo.insert (key pd) pd
      | none => repo.insert (key pd) pd := if_pos h.2
  rw [add_eq, if_pos h.1, hunit]
  cases hold : repo[key pd]? with
  | none => exact Table.getElem?_insert repo (key pd) k pd
  | some old =>
    rw [winner_some]
    by_cases hstays : unitSub pd = 3 ∧ unitStatus old = 0x0101
    · rw [if_pos hstays]
      show (if _ then repo else _)[k]? = _
      rw [if_pos hstays]
      by_cases hk : k = key pd
      · rw [if_pos hk, hk, hold]
      · rw [if_neg hk]
    · rw [if_neg hstays]
      show (if _ then repo else _)[k]? = _
      rw [if_neg hstays]
      exact Table.getElem?_insert repo (key pd) k pd

/-- Any other packet changes nothing or, with sub-type 0, removes everything. -/
theorem add_not_kept (repo : UnitDataRepo) {pd : Bytes} (h : ¬ IsKept pd) :
    repo.add pd = repo ∨ repo.add pd = ∅ ∧ IsUnitData pd ∧ unitSub pd = 0 := by
  rw [add_eq]
  by_cases hunit : IsUnitData pd
  · have hsub : ¬ (unitSub pd = 2 ∨ unitSub pd = 3 ∨ unitSub pd = 9) := fun hsub => h ⟨hunit, hsub⟩
    rw [if_pos hunit, addUnit, if_neg hsub]
    by_cases hzero : unitSub pd = 0
    · exact Or.inr ⟨if_pos hzero, hunit, hzero⟩
    · exact Or.inl (if_neg hzero)
  · exact Or.inl (if_neg hunit)

/-! ### What is held -/

/-- Every value is a packet that is kept, under its own key. -/
def WellFormed (repo : UnitDataRepo) : Prop := ∀ k pd, repo[k]? = some pd → IsKept pd ∧ key pd = k

theorem wellFormed_add {repo : UnitDataRepo} (h : WellFormed repo) (pd : Bytes) : WellFormed (repo.add pd) := by
  by_cases hkept : IsKept pd
  · intro k pd' hk
    rw [getElem?_add_kept hkept] at hk
    split at hk
    · rename_i hkey
      subst hkey
      cases hold : repo[key pd]? with
      | none =>
        rw [hold] at hk
        cases hk
        exact ⟨hkept, rfl⟩
      | some old =>
        rw [hold, winner_some] at hk
        split at hk
        · cases hk
          exact h _ _ hold
        · cases hk
          exact ⟨hkept, rfl⟩
    · exact h k pd' hk
  · obtain heq | ⟨heq, -⟩ := add_not_kept repo hkept
    · rw [heq]
      exact h
    · rw [heq]
      intro k pd' hk
      simp at hk

theorem wellFormed_addAll (packets : List Bytes) : WellFormed (addAll packets) := by
  have hfold : ∀ repo : UnitDataRepo, WellFormed repo → WellFormed (packets.foldl add repo) := by
    induction packets with
    | nil => exact fun _ h => h
    | cons pd packets ih => exact fun repo h => ih _ (wellFormed_add h pd)
  apply hfold
  intro k pd hk
  simp at hk

/-! ### What the packets say -/

theorem key_eq_iff {pd : Bytes} {sub id : ℕ} (hsub : sub = 2 ∨ sub = 3 ∨ sub = 9) (hid : id < 2 ^ 32) :
    IsKept pd ∧ subAndId sub id = key pd ↔ IsUnit sub id pd := by
  rw [key, subAndId_inj hid (unitId_lt pd)]
  constructor
  · intro h
    obtain ⟨⟨hunit, -⟩, rfl, rfl⟩ := h
    exact ⟨hunit, rfl, rfl⟩
  · intro h
    obtain ⟨hunit, rfl, rfl⟩ := h
    exact ⟨⟨hunit, hsub⟩, rfl, rfl⟩

/-- No packet removes everything. -/
def NoClear (packets : List Bytes) : Prop := ∀ pd ∈ packets, IsUnitData pd → unitSub pd ≠ 0

theorem getElem?_add {repo : UnitDataRepo} {pd : Bytes} (h : IsUnitData pd → unitSub pd ≠ 0) (k : ℕ) :
    (repo.add pd)[k]? = if IsKept pd ∧ k = key pd then some (winner repo[k]? pd) else repo[k]? := by
  by_cases hkept : IsKept pd
  · rw [getElem?_add_kept hkept]
    by_cases hk : k = key pd
    · rw [if_pos hk, if_pos ⟨hkept, hk⟩, hk]
    · rw [if_neg hk, if_neg fun h => hk h.2]
  · rw [if_neg fun h => hkept h.1]
    obtain heq | ⟨-, hunit, hzero⟩ := add_not_kept repo hkept
    · rw [heq]
    · exact absurd hzero (h hunit)

theorem addAll_concat (packets : List Bytes) (pd : Bytes) : addAll (packets ++ [pd]) = (addAll packets).add pd := by
  rw [addAll, List.foldl_append]
  rfl

/-- There is an entry for every key that was sent, and it was sent. -/
theorem getElem?_addAll {packets : List Bytes} (h : NoClear packets) (k : ℕ) :
    (∀ pd, (addAll packets)[k]? = some pd → pd ∈ packets) ∧
      ((addAll packets)[k]? = none ↔ ∀ pd ∈ packets, ¬ (IsKept pd ∧ k = key pd)) := by
  induction packets using List.reverseRecOn with
  | nil => simp [addAll]
  | append_singleton packets pd ih =>
    have hlast : IsUnitData pd → unitSub pd ≠ 0 := h pd (List.mem_append_right _ (List.mem_singleton_self _))
    obtain ⟨hmem, hnone⟩ := ih fun q hq => h q (List.mem_append_left _ hq)
    rw [addAll_concat, getElem?_add hlast]
    by_cases hkey : IsKept pd ∧ k = key pd
    · rw [if_pos hkey]
      constructor
      · intro q hq
        cases hold : (addAll packets)[k]? with
        | none =>
          rw [hold] at hq
          cases hq
          exact List.mem_append_right _ (List.mem_singleton_self _)
        | some old =>
          rw [hold, winner_some] at hq
          split at hq
          · cases hq
            exact List.mem_append_left _ (hmem _ hold)
          · cases hq
            exact List.mem_append_right _ (List.mem_singleton_self _)
      · constructor
        · intro hbad
          cases hbad
        · intro hall
          exact absurd hkey (hall pd (List.mem_append_right _ (List.mem_singleton_self _)))
    · rw [if_neg hkey]
      constructor
      · exact fun q hq => List.mem_append_left _ (hmem q hq)
      · rw [hnone, List.forall_mem_append, List.forall_mem_singleton]
        exact ⟨fun hall => ⟨hall, hkey⟩, fun hall => hall.1⟩

/-- A unit is enabled when a packet has said so, whatever the others say. -/
theorem enabled_addAll {packets : List Bytes} (h : NoClear packets) {id : ℕ} (hid : id < 2 ^ 32) :
    (∃ pd, (addAll packets)[subAndId 3 id]? = some pd ∧ unitStatus pd = 0x0101) ↔
      ∃ pd ∈ packets, IsUnit 3 id pd ∧ unitStatus pd = 0x0101 := by
  induction packets using List.reverseRecOn with
  | nil => simp [addAll]
  | append_singleton packets pd ih =>
    have hlast : IsUnitData pd → unitSub pd ≠ 0 := h pd (List.mem_append_right _ (List.mem_singleton_self _))
    have ih := ih fun q hq => h q (List.mem_append_left _ hq)
    have hkey := @key_eq_iff pd 3 id (Or.inr (Or.inl rfl)) hid
    have hsplit : (∃ q ∈ packets ++ [pd], IsUnit 3 id q ∧ unitStatus q = 0x0101) ↔
        (∃ q ∈ packets, IsUnit 3 id q ∧ unitStatus q = 0x0101) ∨ IsUnit 3 id pd ∧ unitStatus pd = 0x0101 := by
      simp only [List.mem_append, List.mem_singleton, or_and_right, exists_or, exists_eq_left]
    rw [addAll_concat, getElem?_add hlast, hsplit, ← ih]
    by_cases hpd : IsUnit 3 id pd
    · rw [if_pos (hkey.mpr hpd)]
      cases hold : (addAll packets)[subAndId 3 id]? with
      | none => simp [hpd]
      | some old =>
        rw [winner_some]
        by_cases hstatus : unitStatus old = 0x0101
        · rw [if_pos ⟨hpd.2.1, hstatus⟩]
          simp [hstatus]
        · rw [if_neg fun h => hstatus h.2]
          simp [hstatus, hpd]
    · rw [if_neg fun h => hpd (hkey.mp h)]
      simp [hpd]

/-! ### The hash does not depend on the order -/

/-- Packets of sub-type 2 for the same unit agree on its checksum. -/
def Agree (packets : List Bytes) : Prop :=
  ∀ p ∈ packets, ∀ q ∈ packets, ∀ id, IsUnit 2 id p → IsUnit 2 id q → unitCrc p = unitCrc q

/-- The units that count, and their values. -/
structure HashedUnits (packets : List Bytes) (ids : List ℕ) (value : ℕ → ℕ) : Prop where
  increasing : ids.Pairwise (· < ·)
  mem_iff : ∀ id, id ∈ ids ↔ id ≠ SY_UNIT_ID ∧ (∃ pd ∈ packets, IsUnit 2 id pd) ∧
    ∃ pd ∈ packets, IsUnit 3 id pd ∧ unitStatus pd = 0x0101
  value_eq : ∀ pd ∈ packets, ∀ id, IsUnit 2 id pd → value id = (id + unitCrc pd) % 2 ^ 32

/-- What the entry of a unit contributes. -/
def valueAt (repo : UnitDataRepo) (id : ℕ) : ℕ :=
  repo[subAndId 2 id]?.elim 0 fun ud02 => (unitId ud02 + unitCrc ud02) % 2 ^ 32

/-- The entries that contribute. -/
def counts (repo : UnitDataRepo) (ud : Bytes) : Bool :=
  (repo[subAndId 2 (unitId ud)]?).isSome && decide (unitSub ud = 3 ∧ unitStatus ud = 0x0101 ∧ unitId ud ≠ SY_UNIT_ID)

theorem hash_eq_map (repo : UnitDataRepo) :
    repo.hash = ((repo.toList.filter fun entry => repo.counts entry.2).map fun entry => unitId entry.2).map
      repo.valueAt := by
  have hone : ∀ entries : List (ℕ × Bytes), (entries.filterMap fun entry =>
        match repo[subAndId 2 (unitId entry.2)]? with
        | some ud02 =>
          if unitSub entry.2 = 3 ∧ unitStatus entry.2 = 0x0101 ∧ unitId entry.2 ≠ SY_UNIT_ID then
            some ((unitId ud02 + unitCrc ud02) % 2 ^ 32)
          else none
        | none => none) =
      ((entries.filter fun entry => repo.counts entry.2).map fun entry => unitId entry.2).map repo.valueAt := by
    intro entries
    induction entries with
    | nil => rfl
    | cons entry entries ih =>
      rw [List.filterMap_cons, List.filter_cons]
      cases hud02 : repo[subAndId 2 (unitId entry.2)]? with
      | none =>
        have hcounts : ¬ repo.counts entry.2 = true := by simp [counts, hud02]
        rw [if_neg hcounts]
        exact ih
      | some ud02 =>
        by_cases hcond : unitSub entry.2 = 3 ∧ unitStatus entry.2 = 0x0101 ∧ unitId entry.2 ≠ SY_UNIT_ID
        · have hcounts : repo.counts entry.2 = true := by simp [counts, hud02, hcond]
          have hvalue : repo.valueAt (unitId entry.2) = (unitId ud02 + unitCrc ud02) % 2 ^ 32 := by
            rw [valueAt, hud02]
            rfl
          rw [if_pos hcounts, List.map_cons, List.map_cons, hvalue]
          dsimp only
          rw [if_pos hcond, ih]
        · have hcounts : ¬ repo.counts entry.2 = true := by simp [counts, hcond]
          rw [if_neg hcounts]
          dsimp only
          rw [if_neg hcond, ih]
  exact hone repo.toList

theorem isUnit_of_entry {packets : List Bytes} (h : NoClear packets) {sub id : ℕ} {pd : Bytes}
    (hsub : sub = 2 ∨ sub = 3 ∨ sub = 9) (hid : id < 2 ^ 32) (hentry : (addAll packets)[subAndId sub id]? = some pd) :
    pd ∈ packets ∧ IsUnit sub id pd := by
  obtain ⟨hkept, hkey⟩ := wellFormed_addAll packets _ _ hentry
  exact ⟨(getElem?_addAll h _).1 pd hentry, (key_eq_iff hsub hid).mp ⟨hkept, hkey.symm⟩⟩

theorem exists_entry {packets : List Bytes} (h : NoClear packets) {sub id : ℕ} (hsub : sub = 2 ∨ sub = 3 ∨ sub = 9)
    (hid : id < 2 ^ 32) :
    (∃ pd, (addAll packets)[subAndId sub id]? = some pd) ↔ ∃ pd ∈ packets, IsUnit sub id pd := by
  constructor
  · intro hx
    obtain ⟨pd, hentry⟩ := hx
    exact ⟨pd, isUnit_of_entry h hsub hid hentry⟩
  · intro hx
    obtain ⟨pd, hmem, hunit⟩ := hx
    by_contra hnone
    have hnone : (addAll packets)[subAndId sub id]? = none := by
      rw [Option.eq_none_iff_forall_ne_some]
      exact fun pd hentry => hnone ⟨pd, hentry⟩
    exact (getElem?_addAll h _).2.mp hnone pd hmem ((key_eq_iff hsub hid).mpr hunit)

theorem hash_addAll {packets : List Bytes} (h : NoClear packets) (hagree : Agree packets) :
    ∃ ids value, HashedUnits packets ids value ∧ (addAll packets).hash = ids.map value := by
  refine ⟨_, _, ⟨?_, ?_, ?_⟩, hash_eq_map (addAll packets)⟩
  · rw [List.pairwise_map]
    apply List.Pairwise.imp_of_mem _ ((addAll packets).toList_pairwise.filter _)
    intro p q hp hq hlt
    obtain ⟨hp, hpcounts⟩ := List.mem_filter.mp hp
    obtain ⟨hq, hqcounts⟩ := List.mem_filter.mp hq
    have hpkey := (wellFormed_addAll packets _ _ (Table.mem_toList.mp hp)).2
    have hqkey := (wellFormed_addAll packets _ _ (Table.mem_toList.mp hq)).2
    simp only [counts, Bool.and_eq_true, decide_eq_true_eq] at hpcounts hqcounts
    rw [key, hpcounts.2.1, subAndId] at hpkey
    rw [key, hqcounts.2.1, subAndId] at hqkey
    omega
  · intro id
    simp only [List.mem_map, List.mem_filter, counts, Bool.and_eq_true, decide_eq_true_eq, Prod.exists]
    constructor
    · intro hx
      obtain ⟨k, pd, ⟨hentry, hsome, hsub, hstatus, hsy⟩, rfl⟩ := hx
      have hid := unitId_lt pd
      have hentry := Table.mem_toList.mp hentry
      have hkey : subAndId 3 (unitId pd) = k := by
        rw [← hsub]
        exact (wellFormed_addAll packets _ _ hentry).2
      rw [← hkey] at hentry
      exact ⟨hsy, (exists_entry h (Or.inl rfl) hid).mp (Option.isSome_iff_exists.mp hsome),
        (enabled_addAll h hid).mp ⟨pd, hentry, hstatus⟩⟩
    · intro hx
      obtain ⟨hsy, ⟨pd2, hpd2, hunit2⟩, hthree⟩ := hx
      have hid : id < 2 ^ 32 := hunit2.2.2 ▸ unitId_lt pd2
      obtain ⟨pd, hentry, hstatus⟩ := (enabled_addAll h hid).mpr hthree
      obtain ⟨-, -, hsub, rfl⟩ := isUnit_of_entry h (Or.inr (Or.inl rfl)) hid hentry
      have hsome := (exists_entry h (Or.inl rfl) hid).mpr ⟨pd2, hpd2, hunit2⟩
      exact ⟨_, pd, ⟨Table.mem_toList.mpr hentry, Option.isSome_iff_exists.mpr hsome, hsub, hstatus, hsy⟩, rfl⟩
  · intro pd hpd id hunit
    have hid : id < 2 ^ 32 := hunit.2.2 ▸ unitId_lt pd
    obtain ⟨q, hentry⟩ := (exists_entry h (Or.inl rfl) hid).mpr ⟨pd, hpd, hunit⟩
    obtain ⟨hq, hqunit⟩ := isUnit_of_entry h (Or.inl rfl) hid hentry
    rw [valueAt, hentry]
    show (unitId q + unitCrc q) % 2 ^ 32 = _
    rw [hagree pd hpd q hq id hunit hqunit, hqunit.2.2]

theorem eq_of_hashedUnits {packets packets' : List Bytes} {ids ids' : List ℕ} {value value' : ℕ → ℕ}
    (hperm : packets.Perm packets') (h : HashedUnits packets ids value) (h' : HashedUnits packets' ids' value') :
    ids.map value = ids'.map value' := by
  have hids : ids = ids' := by
    apply List.Perm.eq_of_pairwise' _ _ ((List.perm_ext_iff_of_nodup _ _).mpr _) (r := (· < ·))
    · exact h.increasing
    · exact h'.increasing
    · exact h.increasing.imp fun hlt => hlt.ne
    · exact h'.increasing.imp fun hlt => hlt.ne
    · intro id
      rw [h.mem_iff, h'.mem_iff]
      simp only [hperm.mem_iff]
  rw [hids]
  apply List.map_congr_left
  intro id hid
  obtain ⟨-, ⟨pd, hpd, hunit⟩, -⟩ := (h'.mem_iff id).mp hid
  rw [h'.value_eq pd hpd id hunit, h.value_eq pd (hperm.mem_iff.mpr hpd) id hunit]

/-- Clients may send their units in any order: the hash lists the enabled units by their ids,
each with its checksum. -/
theorem hash_order_independent {packets packets' : List Bytes} (hperm : packets.Perm packets')
    (h : NoClear packets) (hagree : Agree packets) :
    (addAll packets).hash = (addAll packets').hash ∧
      ∃ ids value, HashedUnits packets ids value ∧ (addAll packets).hash = ids.map value := by
  have h' : NoClear packets' := fun pd hpd => h pd (hperm.mem_iff.mpr hpd)
  have hagree' : Agree packets' := fun p hp q hq =>
    hagree p (hperm.mem_iff.mpr hp) q (hperm.mem_iff.mpr hq)
  obtain ⟨ids, value, hunits, hhash⟩ := hash_addAll h hagree
  obtain ⟨ids', value', hunits', hhash'⟩ := hash_addAll h' hagree'
  refine ⟨?_, ids, value, hunits, hhash⟩
  rw [hhash, hhash', eq_of_hashedUnits hperm hunits hunits']

/-- A unit of sub-type 2 with this checksum, enabled and disabled. -/
def crcPacket (id : ℕ) : Bytes := [0x1a, 2] ++ leBytes 4 0 ++ leBytes 4 id ++ leBytes 4 7
def statusPacket (id status : ℕ) : Bytes :=
  [0x1a, 3] ++ leBytes 4 0 ++ leBytes 4 id ++ (leBytes 2 status ++ leBytes 2 0xffff)

theorem hash_order_independent_enabled :
    (addAll [crcPacket 5, statusPacket 5 0x0101, statusPacket 5 1]).hash =
      (addAll [statusPacket 5 1, statusPacket 5 0x0101, crcPacket 5]).hash ∧
      (addAll [crcPacket 5, statusPacket 5 0x0101, statusPacket 5 1]).hash = [12] := by
  have hperm : [crcPacket 5, statusPacket 5 0x0101, statusPacket 5 1].Perm
      [statusPacket 5 1, statusPacket 5 0x0101, crcPacket 5] := by decide +kernel
  have hclear : NoClear [crcPacket 5, statusPacket 5 0x0101, statusPacket 5 1] := by
    unfold NoClear
    decide +kernel
  have hagree : Agree [crcPacket 5, statusPacket 5 0x0101, statusPacket 5 1] := by
    have hcrc : ∀ p ∈ [crcPacket 5, statusPacket 5 0x0101, statusPacket 5 1], IsUnitData p ∧ unitSub p = 2 →
        unitCrc p = 7 := by decide +kernel
    intro p hp q hq id hpunit hqunit
    rw [hcrc p hp ⟨hpunit.1, hpunit.2.1⟩, hcrc q hq ⟨hqunit.1, hqunit.2.1⟩]
  exact ⟨(hash_order_independent hperm hclear hagree).1, by decide +kernel⟩

end Gpgnet4TA.Tareplay.TaDemoCompiler.UnitDataRepo
