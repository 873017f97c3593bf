import Gpgnet4TA.App.GameMonitor2
import Gpgnet4TA.Lib.Table

/-!
# Army and team numbers

`updatePlayerArmies` goes through the active players in the order of their ids. Each gets the
next army number; one without a team gets the next team number, together with its mutual
allies that have none. The loop invariant `Counting` says what is known of the players gone
through so far.
-/

namespace Gpgnet4TA.App
open Gpgnet4TA.Lib

/-! ### Well-formed tables of players -/

/-- Every player is stored under its own id, and allies are players. -/
structure Players.Wf (m : Players) : Prop where
  key : ∀ (k : ℕ) (p : PlayerData), m[k]? = some p → p.dplayid = k ∧ k ≠ 0
  allies : ∀ (k : ℕ) (p : PlayerData), m[k]? = some p → ∀ a ∈ p.allies, ∃ q : PlayerData, m[a]? = some q

/-- What the numbering needs of that. -/
structure Players.Keyed (m : Players) : Prop where
  key : ∀ (k : ℕ) (p : PlayerData), m[k]? = some p → p.dplayid = k
  allies : ∀ (k : ℕ) (p : PlayerData), m[k]? = some p → ∀ a ∈ p.allies, ∃ q : PlayerData, m[a]? = some q

theorem Players.Wf.keyed {m : Players} (h : m.Wf) : m.Keyed :=
  ⟨fun k p hp => (h.key k p hp).1, h.allies⟩

theorem keyed_iff {m : Players} : m.Keyed ↔
    ∀ kp ∈ m.toList, kp.2.dplayid = kp.1 ∧ ∀ a ∈ kp.2.allies.toList, m.contains a = true := by
  constructor
  · intro h kp hkp
    have hp : m[kp.1]? = some kp.2 := Table.mem_toList.mp hkp
    refine ⟨h.key kp.1 kp.2 hp, ?_⟩
    intro a ha
    obtain ⟨q, hq⟩ := h.allies kp.1 kp.2 hp a (Std.ExtTreeSet.mem_toList.mp ha)
    exact Table.contains_of_getElem? hq
  · intro h
    refine ⟨fun k p hp => (h (k, p) (Table.mem_toList.mpr hp)).1, ?_⟩
    intro k p hp a ha
    have hin := (h (k, p) (Table.mem_toList.mpr hp)).2 a (Std.ExtTreeSet.mem_toList.mpr ha)
    rw [Std.ExtTreeMap.contains_eq_isSome_getElem?, Option.isSome_iff_exists] at hin
    exact hin

instance (m : Players) : Decidable m.Keyed := decidable_of_iff' _ keyed_iff

/-- `a` and `k` are allied with each other. -/
def Players.Mutual (m : Players) (k a : ℕ) : Prop :=
  ∃ p q : PlayerData, m[k]? = some p ∧ m[a]? = some q ∧ a ∈ p.allies ∧ k ∈ q.allies

/-- A player without its numbers. -/
def PlayerData.core (p : PlayerData) : PlayerData := { p with armyNumber := 0, teamNumber := 0 }

@[simp]
theorem core_core (p : PlayerData) : p.core.core = p.core := rfl

@[simp]
theorem core_isActive (p : PlayerData) : p.core.isActive = p.isActive := rfl

theorem dplayid_of_core {p q : PlayerData} (h : p.core = q.core) : p.dplayid = q.dplayid := by
  have hid := congrArg PlayerData.dplayid h
  exact hid

theorem allies_of_core {p q : PlayerData} (h : p.core = q.core) : p.allies = q.allies := by
  have hall := congrArg PlayerData.allies h
  exact hall

theorem isActive_of_core {p q : PlayerData} (h : p.core = q.core) : p.isActive = q.isActive := by
  have hact := congrArg PlayerData.isActive h
  exact hact

theorem isActive_iff (p : PlayerData) : p.isActive = true ↔ p.isWatcher = false ∧ p.isDead = false := by
  unfold PlayerData.isActive
  cases p.isWatcher <;> cases p.isDead <;> decide

theorem at_eq {m : Players} {k : ℕ} {p : PlayerData} (h : m[k]? = some p) : m.at k = .ok p := by
  simp only [Players.at, h]

theorem getElem?_resetNumbers (m : Players) (k : ℕ) : (resetNumbers m)[k]? = (m[k]?).map (·.core) := by
  simp only [resetNumbers, Std.ExtTreeMap.getElem?_map]
  rfl

section sameCore

variable {m m' : Players} (h : resetNumbers m' = resetNumbers m)
include h

theorem core_lookup {k : ℕ} {p : PlayerData} (hp : m'[k]? = some p) :
    ∃ q, m[k]? = some q ∧ q.core = p.core := by
  have hk := congrArg (fun t : Players => t[k]?) h
  simp only [getElem?_resetNumbers, hp, Option.map_some] at hk
  obtain ⟨q, hq, hqp⟩ := Option.map_eq_some_iff.mp hk.symm
  exact ⟨q, hq, hqp⟩

theorem Players.Keyed.of_core (hw : m.Keyed) : m'.Keyed where
  key := by
    intro k p hp
    obtain ⟨q, hq, hqp⟩ := core_lookup h hp
    rw [dplayid_of_core hqp.symm]
    exact hw.key k q hq
  allies := by
    intro k p hp a ha
    obtain ⟨q, hq, hqp⟩ := core_lookup h hp
    rw [allies_of_core hqp.symm] at ha
    obtain ⟨r, hr⟩ := hw.allies k q hq a ha
    obtain ⟨r', hr', -⟩ := core_lookup h.symm hr
    exact ⟨r', hr'⟩

theorem Players.Wf.of_core (hw : m.Wf) : m'.Wf where
  key := by
    intro k p hp
    obtain ⟨q, hq, hqp⟩ := core_lookup h hp
    rw [dplayid_of_core hqp.symm]
    exact hw.key k q hq
  allies := (hw.keyed.of_core h).allies

theorem mutual_of_core {k a : ℕ} (hm : m.Mutual k a) : m'.Mutual k a := by
  obtain ⟨p, q, hp, hq, hap, hkq⟩ := hm
  obtain ⟨p', hp', hpp⟩ := core_lookup h.symm hp
  obtain ⟨q', hq', hqq⟩ := core_lookup h.symm hq
  refine ⟨p', q', hp', hq', ?_, ?_⟩
  · rw [allies_of_core hpp]
    exact hap
  · rw [allies_of_core hqq]
    exact hkq

end sameCore

theorem resetNumbers_resetNumbers (m : Players) : resetNumbers (resetNumbers m) = resetNumbers m := by
  refine Std.ExtTreeMap.ext_getElem? fun k => ?_
  rw [getElem?_resetNumbers, getElem?_resetNumbers]
  cases m[k]? <;> rfl

/-! ### Mutual allies -/

theorem foldlM_mutualAllies {m : Players} (hw : m.Keyed) (player : PlayerData) (l : List ℕ)
    (hl : ∀ a ∈ l, ∃ q : PlayerData, m[a]? = some q) (acc : Std.ExtTreeSet ℕ) :
    ∃ S, l.foldlM (fun (mutualAllies : Std.ExtTreeSet ℕ) otherId => do
        let other ← m.at otherId
        return if player.dplayid ∈ other.allies then mutualAllies.insert other.dplayid
          else mutualAllies) acc = Except.ok S ∧
      ∀ a, a ∈ S ↔ a ∈ acc ∨ a ∈ l ∧ ∃ q : PlayerData, m[a]? = some q ∧ player.dplayid ∈ q.allies := by
  induction l generalizing acc with
  | nil => exact ⟨acc, rfl, by simp⟩
  | cons b l ih =>
    obtain ⟨q, hq⟩ := hl b List.mem_cons_self
    have hqid : q.dplayid = b := hw.key b q hq
    obtain ⟨S, hS, hmem⟩ := ih (fun a ha => hl a (List.mem_cons_of_mem _ ha))
      (if player.dplayid ∈ q.allies then acc.insert q.dplayid else acc)
    refine ⟨S, ?_, ?_⟩
    · rw [List.foldlM_cons, at_eq hq]
      exact hS
    · intro a
      rw [hmem a]
      by_cases hb : a = b
      · subst hb
        by_cases hall : player.dplayid ∈ q.allies
        · simp [hall, hqid, hq]
        · simp [hall, hq]
      · have hacc : a ∈ (if player.dplayid ∈ q.allies then acc.insert q.dplayid else acc) ↔ a ∈ acc := by
          split
          · rw [Std.ExtTreeSet.mem_insert, hqid]
            simp [Ne.symm hb]
          · rfl
        rw [hacc]
        simp [hb]

theorem getMutualAllies_spec {m : Players} (hw : m.Keyed) {k : ℕ} {p : PlayerData} (hp : m[k]? = some p) :
    ∃ S, getMutualAllies k m = .ok S ∧ ∀ a, a ∈ S ↔ m.Mutual k a := by
  obtain ⟨S, hS, hmem⟩ := foldlM_mutualAllies hw p p.allies.toList
    (fun a ha => hw.allies k p hp a (Std.ExtTreeSet.mem_toList.mp ha)) ∅
  refine ⟨S, ?_, ?_⟩
  · rw [getMutualAllies, at_eq hp]
    exact hS
  · intro a
    rw [hmem a, hw.key k p hp]
    constructor
    · intro hx
      obtain h | ⟨ha, q, hq, hk⟩ := hx
      · exact absurd h Std.ExtTreeSet.not_mem_empty
      · exact ⟨p, q, hp, hq, Std.ExtTreeSet.mem_toList.mp ha, hk⟩
    · intro hx
      obtain ⟨p', q, hp', hq, ha, hk⟩ := hx
      rw [hp] at hp'
      cases hp'
      exact Or.inr ⟨Std.ExtTreeSet.mem_toList.mpr ha, q, hq, hk⟩

/-! ### One round of the loop -/

theorem setTeam_spec (team : ℕ) {m : Players} {b : ℕ} {q : PlayerData} (hq : m[b]? = some q) :
    ∃ m' : Players, setTeam team m b = .ok m' ∧ ∀ a : ℕ, m'[a]? = (m[a]?).map fun q =>
      { q with teamNumber :=
          if a = b ∧ q.teamNumber = 0 ∧ q.isActive = true then team else q.teamNumber } := by
  by_cases hc : q.teamNumber = 0 ∧ q.isActive = true
  · refine ⟨m.insert b { q with teamNumber := team }, ?_, ?_⟩
    · have hc' : q.teamNumber = 0 ∧ q.isWatcher = false ∧ q.isDead = false :=
        ⟨hc.1, (isActive_iff q).mp hc.2⟩
      rw [setTeam, at_eq hq]
      show (if _ then _ else _) = _
      rw [if_pos hc']
      rfl
    · intro a
      rw [Table.getElem?_insert]
      by_cases hab : a = b
      · subst hab
        simp [hq, hc]
      · cases m[a]? <;> simp [hab]
  · refine ⟨m, ?_, ?_⟩
    · have hc' : ¬ (q.teamNumber = 0 ∧ q.isWatcher = false ∧ q.isDead = false) :=
        fun h => hc ⟨h.1, (isActive_iff q).mpr h.2⟩
      rw [setTeam, at_eq hq]
      show (if _ then _ else _) = _
      rw [if_neg hc']
      rfl
    · intro a
      by_cases hab : a = b
      · subst hab
        simp [hq, hc]
      · cases m[a]? <;> simp [hab]

theorem foldlM_setTeam (team : ℕ) (hteam : team ≠ 0) (l : List ℕ) (m : Players)
    (hl : ∀ a ∈ l, ∃ q : PlayerData, m[a]? = some q) :
    ∃ m' : Players, l.foldlM (setTeam team) m = .ok m' ∧ ∀ a : ℕ, m'[a]? = (m[a]?).map fun q =>
      { q with teamNumber :=
          if a ∈ l ∧ q.teamNumber = 0 ∧ q.isActive = true then team else q.teamNumber } := by
  induction l generalizing m with
  | nil => exact ⟨m, rfl, by simp⟩
  | cons b l ih =>
    obtain ⟨q, hq⟩ := hl b List.mem_cons_self
    obtain ⟨m1, hset, hget⟩ := setTeam_spec team hq
    obtain ⟨m', hrun, hget'⟩ := ih m1 (by
      intro a ha
      obtain ⟨r, hr⟩ := hl a (List.mem_cons_of_mem _ ha)
      exact ⟨_, by rw [hget, hr]; rfl⟩)
    refine ⟨m', ?_, ?_⟩
    · rw [List.foldlM_cons, hset]
      exact hrun
    · intro a
      rw [hget', hget, Option.map_map]
      congr 1
      funext r
      have hact : ∀ t, PlayerData.isActive { r with teamNumber := t } = r.isActive := fun t => rfl
      simp only [Function.comp_apply, hact]
      congr 1
      -- a team that was just given is not given again
      by_cases hr : r.teamNumber = 0 ∧ r.isActive = true
      · by_cases hab : a = b
        · simp [hab, hr, hteam]
        · simp [hab, hr]
      · have hall : ∀ P : Prop, ¬ (P ∧ r.teamNumber = 0 ∧ r.isActive = true) := fun P h => hr h.2
        simp [hall]

/-- `a`, which is `q` so far, gets the team of `key`. -/
def Joins (m : Players) (key a : ℕ) (q : PlayerData) : Prop :=
  (a = key ∨ m.Mutual key a) ∧ q.teamNumber = 0 ∧ q.isActive = true

/-- What a round does for the active player `p` under `key`. -/
structure Renumbered (s : Numbering) (key : ℕ) (p : PlayerData) (s' : Numbering) : Prop where
  core : resetNumbers s'.players = resetNumbers s.players
  armyCount : s'.armyCount = s.armyCount + 1
  teamCount : s'.teamCount = if p.teamNumber = 0 then s.teamCount + 1 else s.teamCount
  entry : ∀ (a : ℕ) (q' : PlayerData), s'.players[a]? = some q' → ∃ q, s.players[a]? = some q ∧
    q'.core = q.core ∧ q'.armyNumber = (if a = key then s.armyCount + 1 else q.armyNumber) ∧
    (p.teamNumber = 0 ∧ Joins s.players key a q ∧ q'.teamNumber = s.teamCount + 1 ∨
      ¬ (p.teamNumber = 0 ∧ Joins s.players key a q) ∧ q'.teamNumber = q.teamNumber)

theorem insert_army_core {m : Players} {key : ℕ} {p : PlayerData} (hp : m[key]? = some p) (n : ℕ) :
    resetNumbers (m.insert key { p with armyNumber := n }) = resetNumbers m := by
  refine Std.ExtTreeMap.ext_getElem? fun a => ?_
  rw [getElem?_resetNumbers, getElem?_resetNumbers, Table.getElem?_insert]
  split
  · rename_i ha
    rw [ha, hp]
    rfl
  · rfl

theorem numberPlayer_inactive {s : Numbering} {key : ℕ} {p : PlayerData}
    (hp : s.players[key]? = some p) (hact : p.isActive = false) : numberPlayer s key = .ok s := by
  have hcond : (p.isWatcher || p.isDead) = true := by
    revert hact
    unfold PlayerData.isActive
    cases p.isWatcher <;> cases p.isDead <;> decide
  rw [numberPlayer, at_eq hp]
  show (if _ then _ else _) = _
  rw [if_pos hcond]
  rfl

theorem numberTeam_spec {s : Numbering} (hw : s.players.Keyed) {key : ℕ} {p : PlayerData}
    (hp : s.players[key]? = some p) :
    ∃ s', numberTeam s key = .ok s' ∧ s'.armyCount = s.armyCount ∧ s'.teamCount = s.teamCount + 1 ∧
      resetNumbers s'.players = resetNumbers s.players ∧
      ∀ (a : ℕ) (q' : PlayerData), s'.players[a]? = some q' → ∃ q, s.players[a]? = some q ∧
        q'.core = q.core ∧ q'.armyNumber = q.armyNumber ∧
        (Joins s.players key a q ∧ q'.teamNumber = s.teamCount + 1 ∨
          ¬ Joins s.players key a q ∧ q'.teamNumber = q.teamNumber) := by
  obtain ⟨S, hS, hmem⟩ := getMutualAllies_spec hw hp
  have hin : ∀ a, a ∈ (S.insert key).toList ↔ a = key ∨ s.players.Mutual key a := by
    intro a
    rw [Std.ExtTreeSet.mem_toList, Std.ExtTreeSet.mem_insert, hmem a, compare_eq_iff_eq, eq_comm]
  have hpresent : ∀ a ∈ (S.insert key).toList, ∃ q : PlayerData, s.players[a]? = some q := by
    intro a ha
    rcases (hin a).mp ha with rfl | ⟨-, q, -, hq, -⟩
    · exact ⟨p, hp⟩
    · exact ⟨q, hq⟩
  obtain ⟨m', hrun, hget⟩ := foldlM_setTeam (s.teamCount + 1) (Nat.succ_ne_zero _) _ s.players hpresent
  refine ⟨{ s with players := m', teamCount := s.teamCount + 1 }, ?_, rfl, rfl, ?_, ?_⟩
  · rw [numberTeam, hS]
    show ((S.insert key).toList.foldlM (setTeam (s.teamCount + 1)) s.players >>= _) = _
    rw [hrun]
    rfl
  · refine Std.ExtTreeMap.ext_getElem? fun a => ?_
    rw [getElem?_resetNumbers, getElem?_resetNumbers, hget, Option.map_map]
    rfl
  · intro a q' hq'
    rw [hget] at hq'
    obtain ⟨q, hq, rfl⟩ := Option.map_eq_some_iff.mp hq'
    refine ⟨q, hq, rfl, rfl, ?_⟩
    by_cases hj : Joins s.players key a q
    · exact Or.inl ⟨hj, if_pos ⟨(hin a).mpr hj.1, hj.2⟩⟩
    · exact Or.inr ⟨hj, if_neg fun h => hj ⟨(hin a).mp h.1, h.2⟩⟩

theorem numberPlayer_active {s : Numbering} (hw : s.players.Keyed) {key : ℕ} {p : PlayerData}
    (hp : s.players[key]? = some p) (hact : p.isActive = true) :
    ∃ s', numberPlayer s key = .ok s' ∧ Renumbered s key p s' := by
  have hcond : ¬ (p.isWatcher || p.isDead) = true := by
    rw [isActive_iff] at hact
    simp [hact]
  have hid : p.dplayid = key := hw.key key p hp
  set m1 : Players := s.players.insert key { p with armyNumber := s.armyCount + 1 } with hm1
  have hcore : resetNumbers m1 = resetNumbers s.players := insert_army_core hp _
  have hunfold : numberPlayer s key =
      if p.teamNumber = 0 then
        numberTeam { s with players := m1, armyCount := s.armyCount + 1 } p.dplayid
      else .ok { s with players := m1, armyCount := s.armyCount + 1 } := by
    rw [numberPlayer, at_eq hp]
    show (if _ then _ else _) = _
    rw [if_neg hcond]
    rfl
  -- the entries of `m1`
  have hentry : ∀ (a : ℕ) (q1 : PlayerData), m1[a]? = some q1 → ∃ q, s.players[a]? = some q ∧
      q1.core = q.core ∧ q1.armyNumber = (if a = key then s.armyCount + 1 else q.armyNumber) ∧
      q1.teamNumber = q.teamNumber := by
    intro a q1 hq1
    rw [hm1, Table.getElem?_insert] at hq1
    by_cases ha : a = key
    · subst ha
      rw [if_pos rfl] at hq1
      cases hq1
      exact ⟨p, hp, rfl, by rw [if_pos rfl], rfl⟩
    · rw [if_neg ha] at hq1
      exact ⟨q1, hq1, rfl, by rw [if_neg ha], rfl⟩
  by_cases hteam : p.teamNumber = 0
  · have hp1 : m1[key]? = some { p with armyNumber := s.armyCount + 1 } := by
      rw [hm1, Table.getElem?_insert, if_pos rfl]
    obtain ⟨s', hrun, harmy, hcount, hcore', hentry'⟩ :=
      numberTeam_spec (s := { s with players := m1, armyCount := s.armyCount + 1 })
        (hw.of_core hcore) hp1
    refine ⟨s', by rw [hunfold, if_pos hteam, hid, hrun], hcore'.trans hcore, harmy, ?_, ?_⟩
    · rw [hcount, if_pos hteam]
    · intro a q' hq'
      obtain ⟨q1, hq1, hc1, ha1, ht1⟩ := hentry' a q' hq'
      obtain ⟨q, hq, hc, ha, ht⟩ := hentry a q1 hq1
      have hjoin : Joins m1 key a q1 ↔ Joins s.players key a q := by
        unfold Joins
        rw [ht, isActive_of_core hc]
        exact and_congr_left fun _ => or_congr_right
          ⟨mutual_of_core hcore.symm, mutual_of_core hcore⟩
      refine ⟨q, hq, hc1.trans hc, ha1.trans ha, ?_⟩
      rcases ht1 with ⟨hj, hteam'⟩ | ⟨hj, hteam'⟩
      · exact Or.inl ⟨hteam, hjoin.mp hj, hteam'⟩
      · exact Or.inr ⟨fun h => hj (hjoin.mpr h.2), hteam'.trans ht⟩
  · refine ⟨_, by rw [hunfold, if_neg hteam], hcore, rfl, by rw [if_neg hteam], ?_⟩
    intro a q1 hq1
    obtain ⟨q, hq, hc, ha, ht⟩ := hentry a q1 hq1
    exact ⟨q, hq, hc, ha, Or.inr ⟨fun h => hteam h.1, ht⟩⟩

/-! ### The loop -/

/-- The active player with the lowest id. -/
def Players.First (m : Players) (k : ℕ) : Prop :=
  (∃ p, m[k]? = some p ∧ p.isActive = true) ∧
    ∀ (a : ℕ) (q : PlayerData), m[a]? = some q → q.isActive = true → k ≤ a

/-- The players `done` have been gone through, those of `todo` not. -/
structure Counting (m : Players) (done todo : List ℕ) (s : Numbering) : Prop where
  core : resetNumbers s.players = resetNumbers m
  team_pos : 1 ≤ s.teamCount
  army_le : ∀ (k : ℕ) (p : PlayerData), s.players[k]? = some p → p.armyNumber ≤ s.armyCount
  later : ∀ k ∈ todo, ∀ p, s.players[k]? = some p → p.armyNumber = 0
  distinct : ∀ (k k' : ℕ) (p p' : PlayerData), s.players[k]? = some p → s.players[k']? = some p' →
    p.armyNumber = p'.armyNumber → p.armyNumber ≠ 0 → k = k'
  numbered : ∀ k ∈ done, ∀ p, s.players[k]? = some p → p.isActive = true →
    1 ≤ p.armyNumber ∧ p.teamNumber ≠ 0
  teams : ∀ (k : ℕ) (p : PlayerData), s.players[k]? = some p →
    p.teamNumber = 0 ∨ 2 ≤ p.teamNumber ∧ p.teamNumber ≤ s.teamCount
  inactive : ∀ (k : ℕ) (p : PlayerData), s.players[k]? = some p → p.isActive = false → p.armyNumber = 0
  first : (s.teamCount = 1 ∧ ∀ k ∈ done, ∀ p, s.players[k]? = some p → p.isActive = false) ∨
    2 ≤ s.teamCount ∧ ∃ k0, m.First k0 ∧ ∀ (k : ℕ) (p : PlayerData), s.players[k]? = some p →
      p.isActive = true → (p.teamNumber = 2 ↔ k = k0 ∨ m.Mutual k0 k)

section loop

variable {m : Players} {s s' : Numbering} {done todo : List ℕ} {key : ℕ} {p : PlayerData}

theorem Counting.start (m : Players) (todo : List ℕ) : Counting m [] todo ⟨resetNumbers m, 1, 0⟩ where
  core := resetNumbers_resetNumbers m
  team_pos := le_rfl
  army_le := by
    intro k p hp
    rw [getElem?_resetNumbers] at hp
    obtain ⟨q, -, rfl⟩ := Option.map_eq_some_iff.mp hp
    exact le_rfl
  later := by
    intro k _ p hp
    rw [getElem?_resetNumbers] at hp
    obtain ⟨q, -, rfl⟩ := Option.map_eq_some_iff.mp hp
    rfl
  distinct := by
    intro k k' p p' hp _ _ hne
    rw [getElem?_resetNumbers] at hp
    obtain ⟨q, -, rfl⟩ := Option.map_eq_some_iff.mp hp
    exact absurd rfl hne
  numbered := by simp
  teams := by
    intro k p hp
    rw [getElem?_resetNumbers] at hp
    obtain ⟨q, -, rfl⟩ := Option.map_eq_some_iff.mp hp
    exact Or.inl rfl
  inactive := by
    intro k p hp _
    rw [getElem?_resetNumbers] at hp
    obtain ⟨q, -, rfl⟩ := Option.map_eq_some_iff.mp hp
    rfl
  first := Or.inl ⟨rfl, by simp⟩

theorem Counting.skip (h : Counting m done (key :: todo) s) (hp : s.players[key]? = some p)
    (hact : p.isActive = false) : Counting m (done ++ [key]) todo s where
  core := h.core
  team_pos := h.team_pos
  army_le := h.army_le
  later := fun k hk => h.later k (List.mem_cons_of_mem _ hk)
  distinct := h.distinct
  numbered := by
    intro k hk q hq hqact
    rcases List.mem_append.mp hk with hk | hk
    · exact h.numbered k hk q hq hqact
    · rw [List.mem_singleton.mp hk, hp] at hq
      cases hq
      rw [hact] at hqact
      cases hqact
  teams := h.teams
  inactive := h.inactive
  first := by
    rcases h.first with ⟨hone, hnone⟩ | hfirst
    · refine Or.inl ⟨hone, ?_⟩
      intro k hk q hq
      rcases List.mem_append.mp hk with hk | hk
      · exact hnone k hk q hq
      · rw [List.mem_singleton.mp hk, hp] at hq
        cases hq
        exact hact
    · exact Or.inr hfirst

theorem Counting.first_round (h : Counting m done (key :: todo) s)
    (hkeys : m.keys = done ++ key :: todo) (hp : s.players[key]? = some p) (hact : p.isActive = true)
    (hr : Renumbered s key p s') : 2 ≤ s'.teamCount ∧ ∃ k0, m.First k0 ∧
      ∀ (k : ℕ) (q : PlayerData), s'.players[k]? = some q → q.isActive = true →
        (q.teamNumber = 2 ↔ k = k0 ∨ m.Mutual k0 k) := by
  have hmutual : ∀ k, s.players.Mutual key k ↔ m.Mutual key k := fun k =>
    ⟨mutual_of_core h.core.symm, mutual_of_core h.core⟩
  rcases h.first with ⟨hone, hnone⟩ | ⟨htwo, k0, hfirst, hgroup⟩
  · -- all teams are 0 so far, and `key` is the first active player
    have hzero : ∀ (k : ℕ) (q : PlayerData), s.players[k]? = some q → q.teamNumber = 0 := by
      intro k q hq
      rcases h.teams k q hq with h0 | ⟨h2, hle⟩
      · exact h0
      · omega
    have hpteam := hzero key p hp
    have hcount := hr.teamCount
    rw [if_pos hpteam, hone] at hcount
    refine ⟨by omega, key, ⟨?_, ?_⟩, ?_⟩
    · obtain ⟨q, hq, hqp⟩ := core_lookup h.core hp
      exact ⟨q, hq, by rw [isActive_of_core hqp]; exact hact⟩
    · intro k q hq hqact
      have hk : k ∈ m.keys := Table.mem_keys.mpr ⟨q, hq⟩
      obtain ⟨q', hq', hqq⟩ := core_lookup h.core.symm hq
      have hsorted := Table.keys_pairwise m
      rw [hkeys] at hk hsorted
      rcases List.mem_append.mp hk with hk | hk
      · have hoff := hnone k hk q' hq'
        rw [isActive_of_core hqq, hqact] at hoff
        cases hoff
      · rcases List.mem_cons.mp hk with rfl | hk
        · exact le_rfl
        · exact ((List.pairwise_cons.mp (List.pairwise_append.mp hsorted).2.1).1 k hk).le
    · intro k q' hq' hact'
      obtain ⟨q, hq, hc, -, hteam⟩ := hr.entry k q' hq'
      rw [isActive_of_core hc] at hact'
      rcases hteam with ⟨-, hj, heq⟩ | ⟨hj, heq⟩
      · rw [heq, hone, ← hmutual]
        exact ⟨fun _ => hj.1, fun _ => rfl⟩
      · have hnj : ¬ (k = key ∨ m.Mutual key k) := by
          rw [← hmutual]
          exact fun hj' => hj ⟨hpteam, hj', hzero k q hq, hact'⟩
        rw [heq, hzero k q hq]
        exact ⟨fun h2 => absurd h2 (by decide), fun h2 => absurd h2 hnj⟩
  · have hmono : s.teamCount ≤ s'.teamCount := by
      rw [hr.teamCount]
      split <;> omega
    refine ⟨by omega, k0, hfirst, ?_⟩
    intro k q' hq' hact'
    obtain ⟨q, hq, hc, -, hteam⟩ := hr.entry k q' hq'
    rw [isActive_of_core hc] at hact'
    rcases hteam with ⟨-, hj, heq⟩ | ⟨-, heq⟩
    · have hold := hgroup k q hq hact'
      rw [hj.2.1] at hold
      rw [heq, ← hold]
      omega
    · rw [heq]
      exact hgroup k q hq hact'

theorem Counting.round (h : Counting m done (key :: todo) s)
    (hkeys : m.keys = done ++ key :: todo) (hp : s.players[key]? = some p) (hact : p.isActive = true)
    (hr : Renumbered s key p s') : Counting m (done ++ [key]) todo s' where
  core := hr.core.trans h.core
  team_pos := by
    have hpos := h.team_pos
    rw [hr.teamCount]
    split <;> omega
  army_le := by
    intro k q' hq'
    obtain ⟨q, hq, -, harmy, -⟩ := hr.entry k q' hq'
    have hle := h.army_le k q hq
    rw [harmy, hr.armyCount]
    split <;> omega
  later := by
    intro k hk q' hq'
    obtain ⟨q, hq, -, harmy, -⟩ := hr.entry k q' hq'
    have hne : k ≠ key := by
      intro hx
      obtain rfl := hx
      have hnodup : (done ++ k :: todo).Nodup := by
        rw [← hkeys]
        exact m.nodup_keys
      exact (List.nodup_cons.mp (List.nodup_append.mp hnodup).2.1).1 hk
    rw [harmy, if_neg hne]
    exact h.later k (List.mem_cons_of_mem _ hk) q hq
  distinct := by
    intro k k' q1 q1' hq1 hq1' heq hne
    obtain ⟨q, hq, -, harmy, -⟩ := hr.entry k q1 hq1
    obtain ⟨q', hq', -, harmy', -⟩ := hr.entry k' q1' hq1'
    have hle := h.army_le k q hq
    have hle' := h.army_le k' q' hq'
    by_cases hk : k = key
    · by_cases hk' : k' = key
      · exact hk.trans hk'.symm
      · rw [if_pos hk] at harmy
        rw [if_neg hk'] at harmy'
        omega
    · rw [if_neg hk] at harmy
      by_cases hk' : k' = key
      · rw [if_pos hk'] at harmy'
        omega
      · rw [if_neg hk'] at harmy'
        exact h.distinct k k' q q' hq hq' (by omega) (by omega)
  numbered := by
    intro k hk q' hq' hact'
    obtain ⟨q, hq, hc, harmy, hteam⟩ := hr.entry k q' hq'
    rw [isActive_of_core hc] at hact'
    by_cases hkey : k = key
    · subst hkey
      rw [if_pos rfl] at harmy
      refine ⟨by omega, ?_⟩
      rcases hteam with ⟨-, -, heq⟩ | ⟨hj, heq⟩
      · omega
      · rw [heq]
        intro h0
        rw [hp] at hq
        cases hq
        exact hj ⟨h0, Or.inl rfl, h0, hact⟩
    · have hdone : k ∈ done := by
        rcases List.mem_append.mp hk with hk | hk
        · exact hk
        · exact absurd (List.mem_singleton.mp hk) hkey
      obtain ⟨h1, h2⟩ := h.numbered k hdone q hq hact'
      rw [if_neg hkey] at harmy
      refine ⟨by omega, ?_⟩
      rcases hteam with ⟨-, -, heq⟩ | ⟨-, heq⟩
      · omega
      · rw [heq]
        exact h2
  teams := by
    intro k q' hq'
    obtain ⟨q, hq, -, -, hteam⟩ := hr.entry k q' hq'
    have hpos := h.team_pos
    have hcount := hr.teamCount
    rcases hteam with ⟨h0, -, heq⟩ | ⟨-, heq⟩
    · rw [if_pos h0] at hcount
      omega
    · have hold := h.teams k q hq
      split at hcount <;> omega
  inactive := by
    intro k q' hq' hoff
    obtain ⟨q, hq, hc, harmy, -⟩ := hr.entry k q' hq'
    rw [isActive_of_core hc] at hoff
    have hne : k ≠ key := by
      intro hx
      obtain rfl := hx
      have heq : q = p := Option.some.inj (hq.symm.trans hp)
      rw [heq, hact] at hoff
      cases hoff
    rw [harmy, if_neg hne]
    exact h.inactive k q hq hoff
  first := Or.inr (h.first_round hkeys hp hact hr)

theorem Counting.loop (hw : m.Keyed) (todo : List ℕ) {done : List ℕ} {s : Numbering}
    (hkeys : m.keys = done ++ todo) (h : Counting m done todo s) :
    ∃ s', todo.foldlM numberPlayer s = .ok s' ∧ Counting m m.keys [] s' := by
  induction todo generalizing done s with
  | nil =>
    rw [List.append_nil] at hkeys
    exact ⟨s, rfl, by rw [hkeys]; exact h⟩
  | cons key todo ih =>
    have hwf : s.players.Keyed := hw.of_core h.core
    have hkey : key ∈ m.keys := by
      rw [hkeys]
      exact List.mem_append_right _ List.mem_cons_self
    obtain ⟨q, hq⟩ := Table.mem_keys.mp hkey
    obtain ⟨p, hp, -⟩ := core_lookup h.core.symm hq
    have hkeys' : m.keys = (done ++ [key]) ++ todo := by rw [hkeys, List.append_assoc]; rfl
    cases hact : p.isActive with
    | false =>
      obtain ⟨s', hrun, hs'⟩ := ih hkeys' (h.skip hp hact)
      refine ⟨s', ?_, hs'⟩
      rw [List.foldlM_cons, numberPlayer_inactive hp hact]
      exact hrun
    | true =>
      obtain ⟨s1, hrun1, hr⟩ := numberPlayer_active hwf hp hact
      obtain ⟨s', hrun, hs'⟩ := ih hkeys' (h.round hkeys hp hact hr)
      refine ⟨s', ?_, hs'⟩
      rw [List.foldlM_cons, hrun1]
      exact hrun

end loop

/-! ### The result -/

/-- The table `m` with its players numbered. -/
structure Numbered (m m' : Players) : Prop where
  run : updatePlayerArmies m = .ok m'
  core : resetNumbers m' = resetNumbers m
  active : ∀ (k : ℕ) (p : PlayerData), m'[k]? = some p → p.isActive = true →
    1 ≤ p.armyNumber ∧ 2 ≤ p.teamNumber
  distinct : ∀ (k k' : ℕ) (p p' : PlayerData), m'[k]? = some p → m'[k']? = some p' →
    p.armyNumber = p'.armyNumber → p.armyNumber ≠ 0 → k = k'
  inactive : ∀ (k : ℕ) (p : PlayerData), m'[k]? = some p → p.isActive = false → p.armyNumber = 0
  first : ∀ (k0 k : ℕ) (p : PlayerData), m.First k0 → m'[k]? = some p → p.isActive = true →
    (p.teamNumber = 2 ↔ k = k0 ∨ m.Mutual k0 k)

theorem sortedPlayers_eq_keys {m : Players} (hw : m.Keyed) : sortedPlayers m = m.keys := by
  have hsorted : m.toList.Pairwise fun p q => p.2.dplayid ≤ q.2.dplayid := by
    refine List.Pairwise.imp_of_mem ?_ (Table.toList_pairwise m)
    intro h hx hp hq hlt
    obtain ⟨k, p⟩ := h
    obtain ⟨k', q⟩ := hx
    rw [Table.mem_toList] at hp hq
    rw [hw.key k p hp, hw.key k' q hq]
    exact hlt.le
  rw [sortedPlayers, hsorted.insertionSort_eq]
  exact m.map_fst_toList_eq_keys

theorem keys_resetNumbers (m : Players) : (resetNumbers m).keys = m.keys := by
  rw [resetNumbers, Std.ExtTreeMap.keys_map]

theorem First.unique {m : Players} {k k' : ℕ} (h : m.First k) (h' : m.First k') : k = k' := by
  obtain ⟨⟨p, hp, hact⟩, hle⟩ := h
  obtain ⟨⟨p', hp', hact'⟩, hle'⟩ := h'
  exact le_antisymm (hle k' p' hp' hact') (hle' k p hp hact)

theorem updatePlayerArmies_spec {m : Players} (hw : m.Wf) :
    ∃ m', updatePlayerArmies m = .ok m' ∧ Numbered m m' := by
  have hreset := resetNumbers_resetNumbers m
  have hsorted : sortedPlayers (resetNumbers m) = m.keys := by
    rw [sortedPlayers_eq_keys (hw.keyed.of_core hreset), keys_resetNumbers]
  obtain ⟨s, hrun, hs⟩ := Counting.loop hw.keyed m.keys rfl (Counting.start m m.keys)
  have hupdate : updatePlayerArmies m = .ok s.players := by
    rw [updatePlayerArmies, hsorted]
    show (m.keys.foldlM numberPlayer ⟨resetNumbers m, 1, 0⟩ >>= _) = _
    rw [hrun]
    rfl
  refine ⟨s.players, hupdate, ⟨hupdate, hs.core, ?_, hs.distinct, hs.inactive, ?_⟩⟩
  · intro k p hp hact
    obtain ⟨q, hq, -⟩ := core_lookup hs.core hp
    obtain ⟨h1, h2⟩ := hs.numbered k (Table.mem_keys.mpr ⟨q, hq⟩) p hp hact
    have hteam := hs.teams k p hp
    exact ⟨h1, by omega⟩
  · intro k0 k p hk0 hp hact
    rcases hs.first with ⟨-, hnone⟩ | ⟨-, k1, hk1, hgroup⟩
    · obtain ⟨q, hq, -⟩ := core_lookup hs.core hp
      have hoff := hnone k (Table.mem_keys.mpr ⟨q, hq⟩) p hp
      rw [hact] at hoff
      cases hoff
    · rw [First.unique hk0 hk1]
      exact hgroup k p hp hact

/-! ### What the numbers depend on -/

/-- A player with nothing but what the numbers depend on. -/
def PlayerData.bare (p : PlayerData) : PlayerData :=
  { PlayerData.new with
    dplayid := p.dplayid, allies := p.allies, isDead := !p.isActive
    armyNumber := p.armyNumber, teamNumber := p.teamNumber }

def bare (m : Players) : Players := m.map fun _ p => p.bare

theorem getElem?_bare (m : Players) (k : ℕ) : (bare m)[k]? = (m[k]?).map PlayerData.bare := by
  rw [bare, Std.ExtTreeMap.getElem?_map]

theorem bare_isActive (p : PlayerData) : p.bare.isActive = p.isActive := by
  show (!(!p.isActive) && !false) = p.isActive
  cases p.isActive <;> rfl

theorem bare_insert (m : Players) (k : ℕ) (p : PlayerData) : bare (m.insert k p) = (bare m).insert k p.bare := by
  refine Std.ExtTreeMap.ext_getElem? fun a => ?_
  rw [getElem?_bare, Table.getElem?_insert, Table.getElem?_insert, getElem?_bare]
  split <;> rfl

theorem bare_resetNumbers (m : Players) : bare (resetNumbers m) = resetNumbers (bare m) := by
  refine Std.ExtTreeMap.ext_getElem? fun a => ?_
  rw [getElem?_bare, getElem?_resetNumbers, getElem?_resetNumbers, getElem?_bare]
  cases m[a]? <;> rfl

theorem wf_bare {m : Players} (hw : m.Wf) : (bare m).Wf where
  key := by
    intro k p hp
    rw [getElem?_bare] at hp
    obtain ⟨q, hq, rfl⟩ := Option.map_eq_some_iff.mp hp
    exact hw.key k q hq
  allies := by
    intro k p hp a ha
    rw [getElem?_bare] at hp
    obtain ⟨q, hq, rfl⟩ := Option.map_eq_some_iff.mp hp
    obtain ⟨r, hr⟩ := hw.allies k q hq a ha
    exact ⟨r.bare, by rw [getElem?_bare, hr]; rfl⟩

theorem at_bare (m : Players) (k : ℕ) : (bare m).at k = PlayerData.bare <$> m.at k := by
  unfold Players.at
  rw [getElem?_bare]
  cases m[k]? <;> rfl

theorem getMutualAllies_bare (m : Players) (k : ℕ) : getMutualAllies k (bare m) = getMutualAllies k m := by
  unfold getMutualAllies
  simp only [at_bare]
  cases m.at k with
  | error f => rfl
  | ok p =>
    show List.foldlM _ _ _ = List.foldlM _ _ _
    congr 1
    funext acc a
    cases m.at a <;> rfl

theorem setTeam_bare (team : ℕ) (m : Players) (a : ℕ) :
    setTeam team (bare m) a = bare <$> setTeam team m a := by
  unfold setTeam
  rw [at_bare]
  cases m.at a with
  | error f => rfl
  | ok p =>
    have hcond : (p.bare.teamNumber = 0 ∧ p.bare.isWatcher = false ∧ p.bare.isDead = false) ↔
        (p.teamNumber = 0 ∧ p.isWatcher = false ∧ p.isDead = false) := by
      rw [← isActive_iff, ← isActive_iff, bare_isActive]
      rfl
    show (if _ then _ else _) = bare <$> (if _ then _ else _)
    by_cases hc : p.teamNumber = 0 ∧ p.isWatcher = false ∧ p.isDead = false
    · rw [if_pos hc, if_pos (hcond.mpr hc)]
      show Except.ok _ = Except.ok _
      rw [bare_insert]
      rfl
    · rw [if_neg hc, if_neg fun h => hc (hcond.mp h)]
      rfl

theorem foldlM_map_state {α σ τ : Type} (f : σ → τ) (g : σ → α → Except Failure σ)
    (g' : τ → α → Except Failure τ) (hg : ∀ s a, g' (f s) a = f <$> g s a) (l : List α) (s : σ) :
    l.foldlM g' (f s) = f <$> l.foldlM g s := by
  induction l generalizing s with
  | nil => rfl
  | cons a l ih =>
    rw [List.foldlM_cons, List.foldlM_cons, hg]
    cases g s a with
    | error e => rfl
    | ok s' => exact ih s'

def Numbering.bare (s : Numbering) : Numbering := { s with players := App.bare s.players }

theorem numberTeam_bare (s : Numbering) (k : ℕ) : numberTeam s.bare k = Numbering.bare <$> numberTeam s k := by
  have hallies : getMutualAllies k s.bare.players = getMutualAllies k s.players :=
    getMutualAllies_bare s.players k
  unfold numberTeam
  rw [hallies]
  cases getMutualAllies k s.players with
  | error f => rfl
  | ok S =>
    have hloop := foldlM_map_state App.bare (setTeam (s.teamCount + 1)) (setTeam (s.teamCount + 1))
      (fun m a => setTeam_bare _ m a) (S.insert k).toList s.players
    show ((S.insert k).toList.foldlM (setTeam (s.teamCount + 1)) (App.bare s.players) >>= fun players =>
        Except.ok (⟨players, s.teamCount + 1, s.armyCount⟩ : Numbering)) =
      Numbering.bare <$> ((S.insert k).toList.foldlM (setTeam (s.teamCount + 1)) s.players >>= fun players =>
        Except.ok (⟨players, s.teamCount + 1, s.armyCount⟩ : Numbering))
    rw [hloop]
    cases (S.insert k).toList.foldlM (setTeam (s.teamCount + 1)) s.players <;> rfl

theorem numberPlayer_bare (s : Numbering) (k : ℕ) :
    numberPlayer s.bare k = Numbering.bare <$> numberPlayer s k := by
  have hat : s.bare.players.at k = PlayerData.bare <$> s.players.at k := at_bare s.players k
  unfold numberPlayer
  rw [hat]
  cases s.players.at k with
  | error f => rfl
  | ok p =>
    have hcond : (p.bare.isWatcher || p.bare.isDead) = (p.isWatcher || p.isDead) := by
      show (false || !(!p.isDead && !p.isWatcher)) = _
      cases p.isWatcher <;> cases p.isDead <;> rfl
    show (if (p.bare.isWatcher || p.bare.isDead) = true then _ else _) = Numbering.bare <$> (if _ then _ else _)
    rw [hcond]
    split
    · rfl
    show (if p.teamNumber = 0 then _ else _) = Numbering.bare <$> (if _ then _ else _)
    split
    · rw [← numberTeam_bare]
      show numberTeam ⟨(App.bare s.players).insert k
          (PlayerData.bare { p with armyNumber := s.armyCount + 1 }), s.teamCount, s.armyCount + 1⟩ p.dplayid =
        numberTeam ⟨App.bare (s.players.insert k { p with armyNumber := s.armyCount + 1 }), s.teamCount,
          s.armyCount + 1⟩ p.dplayid
      rw [bare_insert]
    · show Except.ok (⟨(App.bare s.players).insert k
          (PlayerData.bare { p with armyNumber := s.armyCount + 1 }), s.teamCount, s.armyCount + 1⟩ : Numbering) =
        Except.ok (⟨App.bare (s.players.insert k { p with armyNumber := s.armyCount + 1 }), s.teamCount,
          s.armyCount + 1⟩ : Numbering)
      rw [bare_insert]

theorem updatePlayerArmies_bare {m : Players} (hw : m.Wf) :
    updatePlayerArmies (bare m) = bare <$> updatePlayerArmies m := by
  have hsort : sortedPlayers (resetNumbers (bare m)) = sortedPlayers (resetNumbers m) := by
    rw [sortedPlayers_eq_keys ((wf_bare hw).keyed.of_core (resetNumbers_resetNumbers _)),
      sortedPlayers_eq_keys (hw.keyed.of_core (resetNumbers_resetNumbers _)), keys_resetNumbers,
      keys_resetNumbers, bare, Std.ExtTreeMap.keys_map]
  have hloop := foldlM_map_state Numbering.bare numberPlayer numberPlayer numberPlayer_bare
    (sortedPlayers (resetNumbers m)) ⟨resetNumbers m, 1, 0⟩
  show ((sortedPlayers (resetNumbers (bare m))).foldlM numberPlayer ⟨resetNumbers (bare m), 1, 0⟩ >>=
      fun s => Except.ok s.players) =
    bare <$> ((sortedPlayers (resetNumbers m)).foldlM numberPlayer ⟨resetNumbers m, 1, 0⟩ >>=
      fun s => Except.ok s.players)
  rw [hsort, ← bare_resetNumbers]
  show ((sortedPlayers (resetNumbers m)).foldlM numberPlayer (Numbering.bare ⟨resetNumbers m, 1, 0⟩) >>=
    fun s => Except.ok s.players) = _
  rw [hloop]
  cases (sortedPlayers (resetNumbers m)).foldlM numberPlayer ⟨resetNumbers m, 1, 0⟩ <;> rfl

/-- The numbers depend on the ids, the alliances and on who is active. -/
theorem Numbered.congr {m1 m1' m2 m2' : Players} (h1 : Numbered m1 m1') (h2 : Numbered m2 m2')
    (hw1 : m1.Wf) (hw2 : m2.Wf) (h : bare (resetNumbers m1) = bare (resetNumbers m2)) :
    bare m1' = bare m2' := by
  have hb : resetNumbers (bare m1) = resetNumbers (bare m2) := by
    rw [← bare_resetNumbers, ← bare_resetNumbers, h]
  have hrun1 := updatePlayerArmies_bare hw1
  have hrun2 := updatePlayerArmies_bare hw2
  have hsame : updatePlayerArmies (bare m1) = updatePlayerArmies (bare m2) := by
    rw [updatePlayerArmies, updatePlayerArmies, hb]
  rw [hrun1, hrun2, h1.run, h2.run] at hsame
  exact Except.ok.inj hsame

end Gpgnet4TA.App
