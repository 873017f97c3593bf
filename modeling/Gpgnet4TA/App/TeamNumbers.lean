import Gpgnet4TA.App.Numbering
import Gpgnet4TA.Lib.Grouping

/-!
# Which numbers the players get

The armies are numbered in the order of the ids. The teams are the groups of a greedy grouping
of the active players by mutual alliance; `Assigning` follows it through the loop.
-/

namespace Gpgnet4TA.App
open Gpgnet4TA.Lib

def Players.Active (m : Players) (k : ℕ) : Prop := ∃ p : PlayerData, m[k]? = some p ∧ p.isActive = true

def isActiveId (m : Players) (k : ℕ) : Bool := (m[k]?).any PlayerData.isActive

/-- The ids of the active players, in increasing order. -/
def activeIds (m : Players) : List ℕ := m.keys.filter (isActiveId m)

/-- Teams count from 2; 0 is no team. -/
def teamIndex (m : Players) (a : ℕ) : Option ℕ :=
  (m[a]?).bind fun p => if p.teamNumber = 0 then none else some (p.teamNumber - 2)

theorem isActiveId_iff {m : Players} {k : ℕ} : isActiveId m k = true ↔ m.Active k := by
  unfold isActiveId Players.Active
  cases m[k]? <;> simp

theorem mutual_symm {m : Players} {a b : ℕ} (h : m.Mutual a b) : m.Mutual b a := by
  obtain ⟨p, q, hp, hq, hap, hbq⟩ := h
  exact ⟨q, p, hq, hp, hbq, hap⟩

section loop

variable {m : Players} {s s' : Numbering} {done todo leaders : List ℕ} {key : ℕ} {p : PlayerData}

/-- The players `done` have been gone through. -/
structure Assigning (m : Players) (done : List ℕ) (s : Numbering) (leaders : List ℕ) : Prop where
  core : resetNumbers s.players = resetNumbers m
  grouping : Grouping m.Active m.Mutual leaders (teamIndex s.players)
  teamCount : s.teamCount = leaders.length + 1
  teams : ∀ (k : ℕ) (q : PlayerData), s.players[k]? = some q → q.teamNumber ≠ 1
  off : ∀ (k : ℕ) (q : PlayerData), s.players[k]? = some q → q.isActive = false →
    q.armyNumber = 0 ∧ q.teamNumber = 0
  assigned : ∀ k ∈ done, m.Active k → teamIndex s.players k ≠ none
  armyCount : s.armyCount = (done.filter (isActiveId m)).length
  armies : ∀ (i k : ℕ), (done.filter (isActiveId m))[i]? = some k →
    ∃ q : PlayerData, s.players[k]? = some q ∧ q.armyNumber = i + 1

theorem Assigning.start (m : Players) : Assigning m [] ⟨resetNumbers m, 1, 0⟩ [] where
  core := resetNumbers_resetNumbers m
  grouping := by
    have hnone : teamIndex (resetNumbers m) = fun _ => none := by
      funext a
      unfold teamIndex
      rw [getElem?_resetNumbers]
      cases m[a]? <;> rfl
    rw [hnone]
    exact Grouping.start _ _
  teamCount := rfl
  teams := by
    intro k q hq
    rw [getElem?_resetNumbers] at hq
    obtain ⟨r, -, rfl⟩ := Option.map_eq_some_iff.mp hq
    exact Nat.zero_ne_one
  off := by
    intro k q hq _
    rw [getElem?_resetNumbers] at hq
    obtain ⟨r, -, rfl⟩ := Option.map_eq_some_iff.mp hq
    exact ⟨rfl, rfl⟩
  assigned := fun _ hk => nomatch hk
  armyCount := rfl
  armies := fun _ _ hk => nomatch hk

theorem active_of_core (hcore : resetNumbers s.players = resetNumbers m) {k : ℕ} {q : PlayerData}
    (hq : s.players[k]? = some q) : m.Active k ↔ q.isActive = true := by
  obtain ⟨r, hr, hrq⟩ := core_lookup hcore hq
  constructor
  · intro h
    obtain ⟨r', hr', hact⟩ := h
    rw [hr] at hr'
    cases hr'
    rw [← isActive_of_core hrq]
    exact hact
  · intro hact
    exact ⟨r, hr, (isActive_of_core hrq).trans hact⟩

theorem Assigning.skip (h : Assigning m done s leaders) (hp : s.players[key]? = some p)
    (hact : p.isActive = false) : Assigning m (done ++ [key]) s leaders := by
  have hoff : ¬ m.Active key := by
    rw [active_of_core h.core hp, hact]
    exact Bool.false_ne_true
  have hsame : (done ++ [key]).filter (isActiveId m) = done.filter (isActiveId m) := by
    rw [List.filter_append, List.filter_cons_of_neg (by rw [isActiveId_iff]; exact hoff), List.filter_nil,
      List.append_nil]
  refine { h with assigned := ?_, armyCount := ?_, armies := ?_ }
  · intro k hk hV
    rcases List.mem_append.mp hk with hk | hk
    · exact h.assigned k hk hV
    · rw [List.mem_singleton.mp hk] at hV
      exact absurd hV hoff
  · rw [hsame]
    exact h.armyCount
  · rw [hsame]
    exact h.armies

theorem teamIndex_of {players : Players} {a : ℕ} {q : PlayerData} (hq : players[a]? = some q) :
    teamIndex players a = if q.teamNumber = 0 then none else some (q.teamNumber - 2) := by
  rw [teamIndex, hq, Option.bind_some]

theorem teamIndex_eq_none {players : Players} {a : ℕ} {q : PlayerData} (hq : players[a]? = some q) :
    teamIndex players a = none ↔ q.teamNumber = 0 := by
  rw [teamIndex_of hq]
  split
  · rename_i h0
    exact ⟨fun _ => h0, fun _ => rfl⟩
  · rename_i h0
    exact ⟨nofun, fun h => absurd h h0⟩

theorem Assigning.waiting_le (h : Assigning m done s leaders) (hkeys : m.keys = done ++ key :: todo) {a : ℕ}
    (ha : m.Active a) (hnone : teamIndex s.players a = none) : key ≤ a := by
  have ⟨q, hq, _⟩ := ha
  have hmem : a ∈ m.keys := Table.mem_keys.mpr ⟨q, hq⟩
  have hsorted := Table.keys_pairwise m
  rw [hkeys] at hmem hsorted
  rcases List.mem_append.mp hmem with hdone | hmem
  · exact absurd hnone (h.assigned a hdone ha)
  · rcases List.mem_cons.mp hmem with rfl | htodo
    · exact le_rfl
    · exact ((List.pairwise_cons.mp (List.pairwise_append.mp hsorted).2.1).1 a htodo).le

/-- The groups after a round: `key` leads the next one unless it is in one already. -/
theorem Assigning.round_grouping (h : Assigning m done s leaders) (hkeys : m.keys = done ++ key :: todo)
    (hp : s.players[key]? = some p) (hact : p.isActive = true) (hr : Renumbered s key p s') :
    Grouping m.Active m.Mutual (if p.teamNumber = 0 then leaders ++ [key] else leaders)
      (teamIndex s'.players) := by
  have hmutual : ∀ a, s.players.Mutual key a ↔ m.Mutual key a := fun a =>
    ⟨mutual_of_core h.core.symm, mutual_of_core h.core⟩
  -- a player is there after the round exactly if it was there before
  have hlookup : ∀ a : ℕ, s'.players[a]? = none → s.players[a]? = none := by
    intro a ha
    cases hq : s.players[a]? with
    | none => rfl
    | some q =>
      obtain ⟨q', hq', -⟩ := core_lookup hr.core.symm hq
      rw [ha] at hq'
      cases hq'
  have hkeep : ∀ a, ¬ (p.teamNumber = 0 ∧ m.Active a ∧ (a = key ∨ m.Mutual key a) ∧ teamIndex s.players a = none) →
      teamIndex s'.players a = teamIndex s.players a := by
    intro a hno
    cases hq' : s'.players[a]? with
    | none => rw [teamIndex, teamIndex, hq', hlookup a hq']
    | some q' =>
      obtain ⟨q, hq, -, -, hteam⟩ := hr.entry a q' hq'
      rcases hteam with ⟨h0, hj, -⟩ | ⟨-, heq⟩
      · refine absurd ⟨h0, (active_of_core h.core hq).mpr hj.2.2, ?_, (teamIndex_eq_none hq).mpr hj.2.1⟩ hno
        exact hj.1.imp_right (hmutual a).mp
      · rw [teamIndex_of hq', teamIndex_of hq, heq]
  by_cases h0 : p.teamNumber = 0
  · rw [if_pos h0]
    refine h.grouping.lead ((active_of_core h.core hp).mpr hact) ((teamIndex_eq_none hp).mpr h0)
      (fun a ha hnone => h.waiting_le hkeys ha hnone) ?_ fun a hno => hkeep a fun hc => hno hc.2
    intro a hV hrel hnone
    have ⟨r, hr', _⟩ := hV
    obtain ⟨q', hq', -⟩ := core_lookup (hr.core.trans h.core).symm hr'
    obtain ⟨q, hq, -, -, hteam⟩ := hr.entry a q' hq'
    have hjoins : Joins s.players key a q :=
      ⟨hrel.imp_right (hmutual a).mpr, (teamIndex_eq_none hq).mp hnone, (active_of_core h.core hq).mp hV⟩
    rcases hteam with ⟨-, -, heq⟩ | ⟨hno, -⟩
    · rw [teamIndex_of hq', heq, if_neg (Nat.succ_ne_zero _), h.teamCount]
      rfl
    · exact absurd ⟨h0, hjoins⟩ hno
  · rw [if_neg h0]
    have hsame : teamIndex s'.players = teamIndex s.players := funext fun a => hkeep a fun hc => h0 hc.1
    rw [hsame]
    exact h.grouping

theorem Assigning.round (h : Assigning m done s leaders) (hkeys : m.keys = done ++ key :: todo)
    (hp : s.players[key]? = some p) (hact : p.isActive = true) (hr : Renumbered s key p s') :
    Assigning m (done ++ [key]) s' (if p.teamNumber = 0 then leaders ++ [key] else leaders) := by
  have hfilter : (done ++ [key]).filter (isActiveId m) = done.filter (isActiveId m) ++ [key] := by
    have hkey : isActiveId m key = true := isActiveId_iff.mpr ((active_of_core h.core hp).mpr hact)
    rw [List.filter_append, List.filter_cons_of_pos hkey, List.filter_nil]
  have hnodup : (done ++ key :: todo).Nodup := by
    rw [← hkeys]
    exact m.nodup_keys
  have hfresh : key ∉ done := fun hdone =>
    (List.nodup_append.mp hnodup).2.2 key hdone key List.mem_cons_self rfl
  have hteams : ∀ (a : ℕ) (q' : PlayerData), s'.players[a]? = some q' → q'.teamNumber ≠ 1 := by
    intro a q' hq'
    obtain ⟨q, hq, -, -, hteam⟩ := hr.entry a q' hq'
    rcases hteam with ⟨-, -, heq⟩ | ⟨-, heq⟩
    · rw [heq, h.teamCount]
      omega
    · rw [heq]
      exact h.teams a q hq
  refine ⟨hr.core.trans h.core, h.round_grouping hkeys hp hact hr, ?_, hteams, ?_, ?_, ?_, ?_⟩
  · rw [hr.teamCount]
    split
    · rw [List.length_append, List.length_singleton, h.teamCount]
    · exact h.teamCount
  · intro a q' hq' hoff
    obtain ⟨q, hq, hcore, harmy, hteam⟩ := hr.entry a q' hq'
    have hqoff : q.isActive = false := (isActive_of_core hcore).symm.trans hoff
    obtain ⟨h1, h2⟩ := h.off a q hq hqoff
    have hne : a ≠ key := by
      intro hx
      obtain rfl := hx
      rw [hp] at hq
      cases hq
      rw [hact] at hqoff
      cases hqoff
    rw [if_neg hne] at harmy
    rcases hteam with ⟨-, hj, -⟩ | ⟨-, heq⟩
    · exact absurd (hqoff.symm.trans hj.2.2) Bool.false_ne_true
    · exact ⟨harmy.trans h1, heq.trans h2⟩
  · intro a ha hV
    have ⟨r, hr', _⟩ := hV
    obtain ⟨q', hq', -⟩ := core_lookup (hr.core.trans h.core).symm hr'
    obtain ⟨q, hq, -, -, hteam⟩ := hr.entry a q' hq'
    rw [Ne, teamIndex_eq_none hq']
    rcases hteam with ⟨-, -, heq⟩ | ⟨hno, heq⟩
    · omega
    · rw [heq, ← teamIndex_eq_none hq]
      rcases List.mem_append.mp ha with hdone | hkey
      · exact h.assigned a hdone hV
      · obtain rfl := List.mem_singleton.mp hkey
        rw [hp] at hq
        cases hq
        rw [teamIndex_eq_none hp]
        exact fun h0 => hno ⟨h0, .inl rfl, h0, hact⟩
  · rw [hfilter, List.length_append, List.length_singleton, hr.armyCount, h.armyCount]
  · intro i k hk
    rw [hfilter] at hk
    by_cases hi : i < (done.filter (isActiveId m)).length
    · rw [List.getElem?_append_left hi] at hk
      obtain ⟨q, hq, harmy⟩ := h.armies i k hk
      obtain ⟨q', hq', -⟩ := core_lookup hr.core.symm hq
      obtain ⟨q1, hq1, -, harmy', -⟩ := hr.entry k q' hq'
      rw [hq] at hq1
      cases hq1
      have hdone : k ∈ done := (List.mem_filter.mp (List.mem_of_getElem? hk)).1
      have hne : k ≠ key := by
        intro hx
        obtain rfl := hx
        exact hfresh hdone
      rw [if_neg hne] at harmy'
      exact ⟨q', hq', harmy'.trans harmy⟩
    · rw [List.getElem?_append_right (by omega)] at hk
      obtain ⟨hlt, hkey⟩ := List.getElem?_eq_some_iff.mp hk
      rw [List.length_singleton] at hlt
      obtain rfl : key = k := by simpa using hkey
      obtain ⟨q', hq', -⟩ := core_lookup hr.core.symm hp
      obtain ⟨q1, -, -, harmy', -⟩ := hr.entry key q' hq'
      rw [if_pos rfl, h.armyCount] at harmy'
      exact ⟨q', hq', by omega⟩

theorem Assigning.loop (hm : m.Keyed) (todo : List ℕ) {done leaders : List ℕ} {s : Numbering}
    (hkeys : m.keys = done ++ todo) (h : Assigning m done s leaders) :
    ∃ s' leaders', todo.foldlM numberPlayer s = .ok s' ∧ Assigning m m.keys s' leaders' := by
  induction todo generalizing done leaders s with
  | nil =>
    rw [List.append_nil] at hkeys
    exact ⟨s, leaders, rfl, by rw [hkeys]; exact h⟩
  | cons key todo ih =>
    have hkey : key ∈ m.keys := by
      rw [hkeys]
      exact List.mem_append_right _ List.mem_cons_self
    obtain ⟨q, hq⟩ := Table.mem_keys.mp hkey
    obtain ⟨p, hp, -⟩ := core_lookup h.core.symm hq
    have hkeys' : m.keys = (done ++ [key]) ++ todo := by rw [hkeys, List.append_assoc]; rfl
    cases hact : p.isActive with
    | false =>
      obtain ⟨s', leaders', hrun, hs'⟩ := ih hkeys' (h.skip hp hact)
      refine ⟨s', leaders', ?_, hs'⟩
      rw [List.foldlM_cons, numberPlayer_inactive hp hact]
      exact hrun
    | true =>
      obtain ⟨s1, hrun1, hr⟩ := numberPlayer_active (hm.of_core h.core) hp hact
      obtain ⟨s', leaders', hrun, hs'⟩ := ih hkeys' (h.round hkeys hp hact hr)
      refine ⟨s', leaders', ?_, hs'⟩
      rw [List.foldlM_cons, hrun1]
      exact hrun

end loop

/-! ### The numbers -/

/-- The table `m` after the numbering; the `leaders` are the lowest members of the teams. -/
structure ArmiesAndTeams (m m' : Players) (leaders : List ℕ) : Prop where
  core : resetNumbers m' = resetNumbers m
  off : ∀ (k : ℕ) (p : PlayerData), m'[k]? = some p → p.isActive = false → p.armyNumber = 0 ∧ p.teamNumber = 0
  armies : ∀ (i k : ℕ), (activeIds m)[i]? = some k → ∃ p : PlayerData, m'[k]? = some p ∧ p.armyNumber = i + 1
  teams : ∀ n, (∃ (k : ℕ) (p : PlayerData), m'[k]? = some p ∧ p.isActive = true ∧ p.teamNumber = n) ↔
    2 ≤ n ∧ n ≤ leaders.length + 1
  order : leaders.Pairwise (· < ·)
  lowest : ∀ (i k : ℕ), leaders[i]? = some k →
    (∃ p : PlayerData, m'[k]? = some p ∧ p.isActive = true ∧ p.teamNumber = i + 2) ∧
    ∀ (a : ℕ) (q : PlayerData), m'[a]? = some q → q.isActive = true → q.teamNumber = i + 2 → k ≤ a
  members : ∀ (i k : ℕ), leaders[i]? = some k → ∀ (a : ℕ) (q : PlayerData), m'[a]? = some q → q.isActive = true →
    (q.teamNumber = i + 2 ↔ (a = k ∨ m.Mutual k a) ∧ ¬ ∃ j < i, q.teamNumber = j + 2)

/-- Mutual alliance among the active players is transitive. -/
def TransitiveAlliances (m : Players) : Prop :=
  ∀ a b c, m.Active a → m.Active b → m.Active c → m.Mutual a b → m.Mutual b c → a ≠ c → m.Mutual a c

/-- Two active players have one team exactly when they are equal or mutually allied. -/
def TeamsAreAlliances (m m' : Players) : Prop :=
  ∀ (a b : ℕ) (p q : PlayerData), m'[a]? = some p → m'[b]? = some q → p.isActive = true → q.isActive = true →
    (p.teamNumber = q.teamNumber ↔ a = b ∨ m.Mutual a b)

theorem teamIndex_eq_some {players : Players} {a i : ℕ} {q : PlayerData} (hq : players[a]? = some q)
    (hne : q.teamNumber ≠ 1) : teamIndex players a = some i ↔ q.teamNumber = i + 2 := by
  rw [teamIndex_of hq]
  split
  · rename_i h0
    rw [h0]
    exact ⟨nofun, nofun⟩
  · rw [Option.some.injEq]
    omega

section result

variable {m : Players} {s : Numbering} {leaders : List ℕ}

theorem Assigning.armiesAndTeams (h : Assigning m m.keys s leaders) : ArmiesAndTeams m s.players leaders := by
  have hteam : ∀ {a : ℕ} {q : PlayerData} (i : ℕ), s.players[a]? = some q →
      (teamIndex s.players a = some i ↔ q.teamNumber = i + 2) :=
    fun i hq => teamIndex_eq_some hq (h.teams _ _ hq)
  have hactive : ∀ {a : ℕ} {q : PlayerData}, s.players[a]? = some q → (m.Active a ↔ q.isActive = true) :=
    active_of_core h.core
  have hleader : ∀ (i k : ℕ), leaders[i]? = some k →
      ∃ p : PlayerData, s.players[k]? = some p ∧ p.isActive = true ∧ p.teamNumber = i + 2 := by
    intro i k hk
    have hindex := h.grouping.leads i k hk
    have hV := (h.grouping.valid k i hindex).1
    have ⟨r, hr, _⟩ := hV
    obtain ⟨p, hp, -⟩ := core_lookup h.core.symm hr
    exact ⟨p, hp, (hactive hp).mp hV, (hteam i hp).mp hindex⟩
  refine ⟨h.core, h.off, h.armies, ?_, h.grouping.order, ?_, ?_⟩
  · intro n
    constructor
    · intro hn
      obtain ⟨k, p, hp, hact, rfl⟩ := hn
      have hV := (hactive hp).mpr hact
      have ⟨r, hr, _⟩ := hV
      have hnone := h.assigned k (Table.mem_keys.mpr ⟨r, hr⟩) hV
      obtain ⟨i, hi⟩ := Option.ne_none_iff_exists'.mp hnone
      have hlt := (h.grouping.valid k i hi).2
      have hnumber := (hteam i hp).mp hi
      omega
    · intro hn
      have hlt : n - 2 < leaders.length := by omega
      obtain ⟨p, hp, hact, hnumber⟩ := hleader (n - 2) _ (List.getElem?_eq_getElem hlt)
      exact ⟨_, p, hp, hact, by omega⟩
  · intro i k hk
    refine ⟨hleader i k hk, ?_⟩
    intro a q hq _ hnumber
    exact h.grouping.lowest i k hk a ((hteam i hq).mpr hnumber)
  · intro i k hk a q hq hact
    rw [← hteam i hq, h.grouping.members i k hk a ((hactive hq).mpr hact)]
    refine and_congr_right fun _ => ?_
    constructor
    · intro hno hearlier
      obtain ⟨j, hj, hnumber⟩ := hearlier
      exact hno j hj ((hteam j hq).mpr hnumber)
    · intro hno j hj hindex
      exact hno ⟨j, hj, (hteam j hq).mp hindex⟩

theorem Assigning.teamsAreAlliances (h : Assigning m m.keys s leaders) (htrans : TransitiveAlliances m) :
    TeamsAreAlliances m s.players := by
  intro a b p q hp hq hactp hactq
  have hV : m.Active a := (active_of_core h.core hp).mpr hactp
  have hV' : m.Active b := (active_of_core h.core hq).mpr hactq
  have hall : ∀ k, m.Active k → teamIndex s.players k ≠ none := by
    intro k hk
    have ⟨r, hr, _⟩ := hk
    exact h.assigned k (Table.mem_keys.mpr ⟨r, hr⟩) hk
  rw [← h.grouping.same_iff hall (fun _ _ => mutual_symm) htrans hV hV']
  obtain ⟨i, hi⟩ := Option.ne_none_iff_exists'.mp (hall a hV)
  obtain ⟨j, hj⟩ := Option.ne_none_iff_exists'.mp (hall b hV')
  rw [hi, hj, (teamIndex_eq_some hp (h.teams a p hp)).mp hi, (teamIndex_eq_some hq (h.teams b q hq)).mp hj,
    Option.some.injEq]
  omega

theorem updatePlayerArmies_assigning (hm : m.Keyed) :
    ∃ s leaders, updatePlayerArmies m = .ok s.players ∧ Assigning m m.keys s leaders := by
  have hreset := resetNumbers_resetNumbers m
  have hsorted : sortedPlayers (resetNumbers m) = m.keys := by
    rw [sortedPlayers_eq_keys (hm.of_core hreset), keys_resetNumbers]
  obtain ⟨s, leaders, hrun, hs⟩ := Assigning.loop hm m.keys rfl (Assigning.start m)
  refine ⟨s, leaders, ?_, hs⟩
  rw [updatePlayerArmies, hsorted]
  show (m.keys.foldlM numberPlayer ⟨resetNumbers m, 1, 0⟩ >>= _) = _
  rw [hrun]
  rfl

end result

/-- The numbering never fails, and gives the active players their armies in the order of their ids
and the teams of a greedy grouping. -/
theorem armies_and_teams {m : Players} (hm : m.Keyed) :
    ∃ m' leaders, updatePlayerArmies m = .ok m' ∧ ArmiesAndTeams m m' leaders ∧
      (TransitiveAlliances m → TeamsAreAlliances m m') := by
  obtain ⟨s, leaders, hrun, hs⟩ := updatePlayerArmies_assigning hm
  exact ⟨s.players, leaders, hrun, hs.armiesAndTeams, hs.teamsAreAlliances⟩

/-- 1 is allied with 2 and 3, who are not allied with each other; 4 watches. -/
def fourPlayers : Players :=
  .ofList [(1, { PlayerData.new with dplayid := 1, allies := .ofList [2, 3] }),
    (2, { PlayerData.new with dplayid := 2, allies := .ofList [1] }),
    (3, { PlayerData.new with dplayid := 3, allies := .ofList [1] }),
    (4, { PlayerData.new with dplayid := 4, isWatcher := true })]

theorem armies_and_teams_four : fourPlayers.Keyed ∧ ∃ m' leaders, updatePlayerArmies fourPlayers = .ok m' ∧
    ArmiesAndTeams fourPlayers m' leaders ∧ (TransitiveAlliances fourPlayers → TeamsAreAlliances fourPlayers m') := by
  have hkeyed : fourPlayers.Keyed := by decide +kernel
  exact ⟨hkeyed, armies_and_teams hkeyed⟩

end Gpgnet4TA.App
