import Gpgnet4TA.App.ChatAlliance
import Gpgnet4TA.App.TeamNumbers

/-!
# Teams of the battleroom

Until the game starts, and as long as nobody speaks of alliances, two players are allied exactly
when they have selected the same team of the battleroom. The team numbers are made anew whenever
an alliance changes, and say the same.
-/

namespace Gpgnet4TA.App
open Gpgnet4TA.Lib

/-! ### Tables in which alliances are selections -/

/-- Both have selected one of the teams. -/
def PlayerData.SameSelection (p q : PlayerData) : Prop :=
  p.battleroomTeamSelection = q.battleroomTeamSelection ∧ p.battleroomTeamSelection < 5

/-- Nobody is dead, and other players are allied by selection. -/
structure Players.Selected (m : Players) : Prop where
  alive : ∀ (k : ℕ) (p : PlayerData), m[k]? = some p → p.isDead = false
  allied : ∀ (a b : ℕ) (p q : PlayerData), m[a]? = some p → m[b]? = some q → a ≠ b →
    (b ∈ p.allies ↔ p.SameSelection q)

/-- That, and the team numbers say so. -/
structure Players.Teamed (m : Players) : Prop where
  selected : m.Selected
  teams : TeamsAreAlliances m m

theorem SameSelection.symm {p q : PlayerData} (h : p.SameSelection q) : q.SameSelection p :=
  ⟨h.1.symm, h.1 ▸ h.2⟩

theorem teamed_empty : Players.Teamed ∅ where
  selected := ⟨by intro k p hp; simp at hp, by intro a b p q hp; simp at hp⟩
  teams := by intro a b p q hp; simp at hp

section tables

variable {m m' : Players}

theorem Players.Selected.mutual_iff (h : m.Selected) {a b : ℕ} {p q : PlayerData} (hp : m[a]? = some p)
    (hq : m[b]? = some q) (hne : a ≠ b) : m.Mutual a b ↔ p.SameSelection q := by
  constructor
  · intro hmutual
    obtain ⟨p', q', hp', -, hb, -⟩ := hmutual
    rw [hp] at hp'
    cases hp'
    exact (h.allied a b p q hp hq hne).mp hb
  · intro hsame
    exact ⟨p, q, hp, hq, (h.allied a b p q hp hq hne).mpr hsame,
      (h.allied b a q p hq hp hne.symm).mpr (SameSelection.symm hsame)⟩

theorem Players.Selected.transitive (h : m.Selected) : TransitiveAlliances m := by
  intro a b c ha hb hc hab hbc hac
  obtain ⟨p, hp, -⟩ := ha
  obtain ⟨q, hq, -⟩ := hb
  obtain ⟨r, hr, -⟩ := hc
  by_cases h1 : a = b
  · rw [h1]
    exact hbc
  by_cases h2 : b = c
  · rw [← h2]
    exact hab
  have hpq := (h.mutual_iff hp hq h1).mp hab
  have hqr := (h.mutual_iff hq hr h2).mp hbc
  exact (h.mutual_iff hp hr hac).mpr ⟨hpq.1.trans hqr.1, hpq.2⟩

theorem Players.Selected.of_core (h : m.Selected) (hcore : resetNumbers m' = resetNumbers m) : m'.Selected where
  alive := by
    intro k p hp
    obtain ⟨q, hq, hqp⟩ := core_lookup hcore hp
    have hdead := congrArg PlayerData.isDead hqp
    exact hdead.symm.trans (h.alive k q hq)
  allied := by
    intro a b p q hp hq hne
    obtain ⟨p0, hp0, hpp⟩ := core_lookup hcore hp
    obtain ⟨q0, hq0, hqq⟩ := core_lookup hcore hq
    have hsel : p0.battleroomTeamSelection = p.battleroomTeamSelection := by
      have hsel := congrArg PlayerData.battleroomTeamSelection hpp
      exact hsel
    have hsel' : q0.battleroomTeamSelection = q.battleroomTeamSelection := by
      have hsel := congrArg PlayerData.battleroomTeamSelection hqq
      exact hsel
    have hallied := h.allied a b p0 q0 hp0 hq0 hne
    rw [allies_of_core hpp] at hallied
    rw [hallied]
    unfold PlayerData.SameSelection
    rw [hsel, hsel']

theorem Numbered.teamsAreAlliances (h : Numbered m m') (hm : m.Keyed) (htrans : TransitiveAlliances m) :
    TeamsAreAlliances m' m' := by
  obtain ⟨s, leaders, hrun, hs⟩ := updatePlayerArmies_assigning hm
  obtain rfl : s.players = m' := Except.ok.inj (hrun.symm.trans h.run)
  intro a b p q hp hq hactp hactq
  rw [hs.teamsAreAlliances htrans a b p q hp hq hactp hactq]
  exact or_congr_right ⟨mutual_of_core h.core, mutual_of_core h.core.symm⟩

theorem Numbered.teamed (h : Numbered m m') (hm : m.Wf) (hsel : m.Selected) : m'.Teamed :=
  ⟨hsel.of_core h.core, h.teamsAreAlliances hm.keyed hsel.transitive⟩

/-- The entries keep their team numbers, their alliances and whether they are active. -/
theorem teams_congr (hteams : TeamsAreAlliances m m) (hsame : ∀ (k : ℕ) (p' : PlayerData), m'[k]? = some p' →
    ∃ p : PlayerData, m[k]? = some p ∧ p'.isActive = p.isActive ∧ p'.teamNumber = p.teamNumber ∧
      p'.allies = p.allies) : TeamsAreAlliances m' m' := by
  intro a b p' q' hp' hq' hactp hactq
  obtain ⟨p, hp, hpact, hpteam, hpallies⟩ := hsame a p' hp'
  obtain ⟨q, hq, hqact, hqteam, hqallies⟩ := hsame b q' hq'
  have hmutual : m'.Mutual a b ↔ m.Mutual a b := by
    constructor
    · intro h
      obtain ⟨x, y, hx, hy, hbx, hay⟩ := h
      cases hp'.symm.trans hx
      cases hq'.symm.trans hy
      exact ⟨p, q, hp, hq, hpallies ▸ hbx, hqallies ▸ hay⟩
    · intro h
      obtain ⟨x, y, hx, hy, hbx, hay⟩ := h
      cases hp.symm.trans hx
      cases hq.symm.trans hy
      exact ⟨p', q', hp', hq', hpallies ▸ hbx, hqallies ▸ hay⟩
  rw [hmutual, hpteam, hqteam]
  exact hteams a b p q hp hq (hpact.symm.trans hactp) (hqact.symm.trans hactq)

theorem teams_insert (hteams : TeamsAreAlliances m m) {k : ℕ} {p p' : PlayerData} (hp : m[k]? = some p)
    (hact : p'.isActive = p.isActive) (hteam : p'.teamNumber = p.teamNumber) (hallies : p'.allies = p.allies) :
    TeamsAreAlliances (m.insert k p') (m.insert k p') := by
  refine teams_congr hteams ?_
  intro a q hq
  rw [Table.getElem?_insert] at hq
  split at hq
  · rename_i ha
    cases hq
    exact ⟨p, ha ▸ hp, hact, hteam, hallies⟩
  · exact ⟨q, hq, rfl, rfl, rfl⟩

theorem Players.Selected.replace (h : m.Selected) {k : ℕ} {p p' : PlayerData} (hp : m[k]? = some p)
    (hdead : p'.isDead = p.isDead) (hsel : p'.battleroomTeamSelection = p.battleroomTeamSelection)
    (hallies : p'.allies = p.allies) : Players.Selected (m.insert k p') := by
  have hentry : ∀ (a : ℕ) (q : PlayerData), (m.insert k p')[a]? = some q → ∃ r : PlayerData, m[a]? = some r ∧
      q.isDead = r.isDead ∧ q.battleroomTeamSelection = r.battleroomTeamSelection ∧ q.allies = r.allies := by
    intro a q hq
    rw [Table.getElem?_insert] at hq
    split at hq
    · rename_i ha
      cases hq
      exact ⟨p, ha ▸ hp, hdead, hsel, hallies⟩
    · exact ⟨q, hq, rfl, rfl, rfl⟩
  refine ⟨?_, ?_⟩
  · intro a q hq
    obtain ⟨r, hr, hqdead, -, -⟩ := hentry a q hq
    exact hqdead.trans (h.alive a r hr)
  · intro a b q r hq hr hne
    obtain ⟨q0, hq0, -, hqsel, hqallies⟩ := hentry a q hq
    obtain ⟨r0, hr0, -, hrsel, -⟩ := hentry b r hr
    rw [hqallies, h.allied a b q0 r0 hq0 hr0 hne]
    unfold PlayerData.SameSelection
    rw [hqsel, hrsel]

theorem Players.Selected.added (h : m.Selected) (hw : m.Wf) (id : ℕ) (name : Text) :
    (GameMonitor2.addedTo m id name).Selected := by
  unfold GameMonitor2.addedTo
  cases hp : m[id]? with
  | some p => exact h.replace hp rfl rfl rfl
  | none =>
    -- a new player has selected nothing and is nobody's ally
    have hnew : ¬ PlayerData.new.battleroomTeamSelection < 5 := by decide
    have hnobody : ∀ (a : ℕ) (q : PlayerData), m[a]? = some q → id ∉ q.allies := by
      intro a q hq hid
      obtain ⟨r, hr⟩ := hw.allies a q hq id hid
      rw [hp] at hr
      cases hr
    refine ⟨?_, ?_⟩
    · intro a q hq
      rw [Table.getElem?_insert] at hq
      split at hq
      · cases hq
        rfl
      · exact h.alive a q hq
    · intro a b q r hq hr hne
      rw [Table.getElem?_insert] at hq hr
      split at hq
      · rename_i ha
        cases hq
        exact ⟨fun hb => absurd hb Std.ExtTreeSet.not_mem_empty, fun hsame => absurd hsame.2 hnew⟩
      · split at hr
        · rename_i hb
          cases hr
          rw [hb]
          refine ⟨fun hid => absurd hid (hnobody a q hq), ?_⟩
          intro hsame
          exact absurd (SameSelection.symm hsame).2 hnew
        · exact h.allied a b q r hq hr hne

theorem Players.Selected.removed (h : m.Selected) (id : ℕ) :
    Players.Selected (GameMonitor2.removeAlly id (m.erase id)) := by
  have hentry : ∀ (a : ℕ) (q : PlayerData), (GameMonitor2.removeAlly id (m.erase id))[a]? = some q →
      a ≠ id ∧ ∃ r : PlayerData, m[a]? = some r ∧ q = { r with allies := r.allies.erase id } := by
    intro a q hq
    rw [GameMonitor2.removeAlly, Std.ExtTreeMap.getElem?_map, Table.getElem?_erase] at hq
    obtain ⟨r, hr, rfl⟩ := Option.map_eq_some_iff.mp hq
    split at hr
    · cases hr
    · rename_i ha
      exact ⟨ha, r, hr, rfl⟩
  refine ⟨?_, ?_⟩
  · intro a q hq
    obtain ⟨-, r, hr, rfl⟩ := hentry a q hq
    exact h.alive a r hr
  · intro a b q r hq hr hne
    obtain ⟨-, q0, hq0, rfl⟩ := hentry a q hq
    obtain ⟨hb, r0, hr0, rfl⟩ := hentry b r hr
    have hallied := h.allied a b q0 r0 hq0 hr0 hne
    rw [Std.ExtTreeSet.mem_erase, compare_eq_iff_eq.ne]
    exact ⟨fun hmem => hallied.mp hmem.2, fun hsame => ⟨hb.symm, hallied.mpr hsame⟩⟩

end tables

/-! ### A selection -/

section selection

open GameMonitor2

variable {m : Players} {fromDplayId : ℕ} {teamNumber : ℤ}

/-- Pairs of players that the loop has been at, and those it leaves alone, are allied by
selection. -/
def Settled (fromDplayId : ℕ) (done : List ℕ) (m : Players) : Prop :=
  ∀ (a b : ℕ) (p q : PlayerData), m[a]? = some p → m[b]? = some q → a ≠ b →
    (a = fromDplayId → b ∈ done) → (b = fromDplayId → a ∈ done) → (b ∈ p.allies ↔ p.SameSelection q)

/-- Insert or erase. -/
def toggle (isAllied : Bool) (n : ℕ) (allies : Std.ExtTreeSet ℕ) : Std.ExtTreeSet ℕ :=
  if isAllied then allies.insert n else allies.erase n

theorem mem_toggle {isAllied : Bool} {n a : ℕ} {allies : Std.ExtTreeSet ℕ} :
    a ∈ toggle isAllied n allies ↔ if a = n then isAllied = true else a ∈ allies := by
  unfold toggle
  cases isAllied
  · rw [if_neg Bool.false_ne_true, Std.ExtTreeSet.mem_erase, compare_eq_iff_eq.ne]
    split
    · rename_i ha
      exact ⟨fun h => absurd ha.symm h.1, fun h => absurd h Bool.false_ne_true⟩
    · rename_i ha
      exact ⟨fun h => h.2, fun h => ⟨Ne.symm ha, h⟩⟩
  · rw [if_pos rfl, Std.ExtTreeSet.mem_insert, compare_eq_iff_eq]
    split
    · rename_i ha
      exact ⟨fun _ => rfl, fun _ => .inl ha.symm⟩
    · rename_i ha
      exact ⟨fun h => h.resolve_left (Ne.symm ha), .inr⟩

theorem getElem?_modifyAllies (m : Players) (id : ℕ) (f : Std.ExtTreeSet ℕ → Std.ExtTreeSet ℕ) (a : ℕ) :
    (modifyAllies m id f)[a]? = (m[a]?).map fun p => if a = id then { p with allies := f p.allies } else p := by
  unfold modifyAllies
  cases hp : m[id]? with
  | none =>
    by_cases ha : a = id
    · rw [ha, hp]
      rfl
    · simp only [if_neg ha, Option.map_id']
  | some p =>
    simp only [Table.getElem?_insert]
    by_cases ha : a = id
    · subst ha
      rw [if_pos rfl, hp, Option.map_some, if_pos rfl]
    · simp only [if_neg ha, Option.map_id']

theorem selectTeam_entry (hw : m.Wf) (any : Bool) {key : ℕ} {subject object : PlayerData}
    (hsubject : m[fromDplayId]? = some subject) (hobject : m[key]? = some object) (hne : key ≠ fromDplayId)
    (a : ℕ) : (selectTeam fromDplayId teamNumber (m, any) key).1[a]? = (m[a]?).map fun p =>
      { p with allies :=
          if a = fromDplayId then
            toggle (decide (teamNumber < 5 ∧ teamNumber = object.battleroomTeamSelection)) key p.allies
          else if a = key then
            toggle (decide (teamNumber < 5 ∧ teamNumber = object.battleroomTeamSelection)) fromDplayId p.allies
          else p.allies } := by
  have hsid : subject.dplayid = fromDplayId := (hw.key _ subject hsubject).1
  have hoid : object.dplayid = key := (hw.key _ object hobject).1
  have hround : (selectTeam fromDplayId teamNumber (m, any) key).1 = modifyAllies (modifyAllies m fromDplayId
      (toggle (decide (teamNumber < 5 ∧ teamNumber = object.battleroomTeamSelection)) key)) key
      (toggle (decide (teamNumber < 5 ∧ teamNumber = object.battleroomTeamSelection)) fromDplayId) := by
    unfold selectTeam
    simp only [hsubject, hobject, hsid, hoid, if_neg hne]
    split
    · rename_i hc
      rw [decide_eq_true hc]
      rfl
    · rename_i hc
      rw [decide_eq_false hc]
      rfl
  rw [hround, getElem?_modifyAllies, getElem?_modifyAllies, Option.map_map]
  congr 1
  funext p
  by_cases h1 : a = fromDplayId
  · subst h1
    simp only [Function.comp_apply, if_pos, if_neg (Ne.symm hne)]
  · by_cases h2 : a = key
    · simp only [Function.comp_apply, if_neg h1, if_pos h2]
    · simp only [Function.comp_apply, if_neg h1, if_neg h2]

theorem settled_round (hw : m.Wf) (any : Bool) {key : ℕ} {done : List ℕ} {subject object : PlayerData}
    (hsubject : m[fromDplayId]? = some subject) (hsel : subject.battleroomTeamSelection = teamNumber)
    (hobject : m[key]? = some object) (h : Settled fromDplayId done m) :
    Settled fromDplayId (done ++ [key]) (selectTeam fromDplayId teamNumber (m, any) key).1 := by
  by_cases hkey : key = fromDplayId
  · -- the player itself is passed over
    have hself : (selectTeam fromDplayId teamNumber (m, any) key).1 = m := by
      unfold selectTeam
      have hoid : object.dplayid = fromDplayId := (hw.key _ object hobject).1.trans hkey
      simp only [hsubject, hobject, if_pos hoid]
    rw [hself]
    intro a b p q hp hq hne ha hb
    refine h a b p q hp hq hne ?_ ?_
    · intro haf
      rcases List.mem_append.mp (ha haf) with hdone | hlast
      · exact hdone
      · exact absurd (haf.trans ((List.mem_singleton.mp hlast).trans hkey).symm) hne
    · intro hbf
      rcases List.mem_append.mp (hb hbf) with hdone | hlast
      · exact hdone
      · exact absurd (((List.mem_singleton.mp hlast).trans hkey).trans hbf.symm) hne
  · intro a b p' q' hp' hq' hne ha hb
    have hentry := fun c : ℕ => @selectTeam_entry m fromDplayId teamNumber hw any key subject object hsubject hobject hkey c
    rw [hentry a] at hp'
    rw [hentry b] at hq'
    obtain ⟨p, hp, rfl⟩ := Option.map_eq_some_iff.mp hp'
    obtain ⟨q, hq, rfl⟩ := Option.map_eq_some_iff.mp hq'
    show b ∈ (if a = fromDplayId then _ else if a = key then _ else p.allies) ↔ p.SameSelection q
    by_cases haf : a = fromDplayId
    · subst haf
      rw [hsubject] at hp
      cases hp
      rw [if_pos rfl, mem_toggle]
      split
      · rename_i hbk
        subst hbk
        rw [hobject] at hq
        cases hq
        rw [decide_eq_true_eq, PlayerData.SameSelection, hsel]
        exact and_comm
      · rename_i hbk
        refine h a b subject q hsubject hq hne (fun _ => ?_) fun hbf => absurd hbf.symm hne
        rcases List.mem_append.mp (ha rfl) with hdone | hlast
        · exact hdone
        · exact absurd (List.mem_singleton.mp hlast) hbk
    · rw [if_neg haf]
      by_cases hak : a = key
      · subst hak
        rw [hobject] at hp
        cases hp
        rw [if_pos rfl, mem_toggle]
        split
        · rename_i hbf
          subst hbf
          rw [hsubject] at hq
          cases hq
          rw [decide_eq_true_eq, PlayerData.SameSelection, hsel]
          constructor
          · intro hc
            exact ⟨hc.2.symm, hc.2 ▸ hc.1⟩
          · intro hc
            exact ⟨hc.1 ▸ hc.2, hc.1.symm⟩
        · rename_i hbf
          exact h a b object q hobject hq hne (fun hc => absurd hc haf) fun hc => absurd hc hbf
      · rw [if_neg hak]
        refine h a b p q hp hq hne (fun hc => absurd hc haf) fun hbf => ?_
        rcases List.mem_append.mp (hb hbf) with hdone | hlast
        · exact hdone
        · exact absurd (List.mem_singleton.mp hlast) hak

theorem selectTeam_subject (hw : m.Wf) (any : Bool) {key : ℕ} {subject object : PlayerData}
    (hsubject : m[fromDplayId]? = some subject) (hobject : m[key]? = some object) :
    ∃ subject' : PlayerData, (selectTeam fromDplayId teamNumber (m, any) key).1[fromDplayId]? = some subject' ∧
      subject'.battleroomTeamSelection = subject.battleroomTeamSelection := by
  by_cases hkey : key = fromDplayId
  · refine ⟨subject, ?_, rfl⟩
    unfold selectTeam
    have hoid : object.dplayid = fromDplayId := (hw.key _ object hobject).1.trans hkey
    simp only [hsubject, hobject, if_pos hoid]
  · rw [selectTeam_entry hw any hsubject hobject hkey, hsubject]
    exact ⟨_, rfl, rfl⟩

theorem settled_loop (keys : List ℕ) {done : List ℕ} {subject : PlayerData} (hw : m.Wf)
    (hkeys : ∀ k ∈ keys, ∃ q : PlayerData, m[k]? = some q) (hsubject : m[fromDplayId]? = some subject)
    (hsel : subject.battleroomTeamSelection = teamNumber) (h : Settled fromDplayId done m) (any : Bool) :
    Settled fromDplayId (done ++ keys) (keys.foldl (selectTeam fromDplayId teamNumber) (m, any)).1 := by
  induction keys generalizing m done subject any with
  | nil =>
    rw [List.append_nil]
    exact h
  | cons key keys ih =>
    obtain ⟨object, hobject⟩ := hkeys key List.mem_cons_self
    have hedit := selectTeam_edited hw fromDplayId teamNumber any key
    obtain ⟨subject', hsubject', hsel'⟩ := @selectTeam_subject m fromDplayId teamNumber hw any key subject object
      hsubject hobject
    have hround := settled_round hw any hsubject hsel hobject h
    have hkeys' : ∀ k ∈ keys, ∃ q : PlayerData, (selectTeam fromDplayId teamNumber (m, any) key).1[k]? = some q := by
      intro k hk
      obtain ⟨q, hq⟩ := hkeys k (List.mem_cons_of_mem _ hk)
      obtain ⟨q', hq', -⟩ := hedit.lookup_back hq
      exact ⟨q', hq'⟩
    have hrest := ih hedit.wf hkeys' hsubject' (hsel'.trans hsel) hround
      (selectTeam fromDplayId teamNumber (m, any) key).2
    rw [List.append_assoc] at hrest
    exact hrest

/-- The table after a selection. -/
def selectedTable (m : Players) (fromDplayId : ℕ) (subject : PlayerData) (teamNumber : ℤ) : Players × Bool :=
  let players := m.insert fromDplayId { subject with battleroomTeamSelection := teamNumber }
  players.keys.foldl (selectTeam fromDplayId teamNumber) (players, false)

theorem Players.Selected.selectedTable (h : m.Selected) (hw : m.Wf) {subject : PlayerData}
    (hsubject : m[fromDplayId]? = some subject) :
    (App.selectedTable m fromDplayId subject teamNumber).1.Selected := by
  unfold App.selectedTable
  set players : Players := m.insert fromDplayId { subject with battleroomTeamSelection := teamNumber } with hplayers
  have hwp : players.Wf := hw.replace hsubject rfl (hw.allies _ subject hsubject)
  have hsubject' : players[fromDplayId]? = some { subject with battleroomTeamSelection := teamNumber } := by
    rw [hplayers, Table.getElem?_insert, if_pos rfl]
  have hother : ∀ (a : ℕ) (p : PlayerData), players[a]? = some p → a ≠ fromDplayId → m[a]? = some p := by
    intro a p hp ha
    rwa [hplayers, Table.getElem?_insert, if_neg ha] at hp
  have hstart : Settled fromDplayId [] players := by
    intro a b p q hp hq hne ha hb
    have haf : a ≠ fromDplayId := fun hc => nomatch ha hc
    have hbf : b ≠ fromDplayId := fun hc => nomatch hb hc
    exact h.allied a b p q (hother a p hp haf) (hother b q hq hbf) hne
  have hkeys : ∀ k ∈ players.keys, ∃ q : PlayerData, players[k]? = some q := fun k hk => Table.mem_keys.mp hk
  have hdone := settled_loop players.keys hwp hkeys hsubject' rfl hstart false
  have hedit := foldl_selectTeam_edited fromDplayId teamNumber players.keys players hwp false
  have hmem : ∀ (a : ℕ) (p : PlayerData),
      (players.keys.foldl (selectTeam fromDplayId teamNumber) (players, false)).1[a]? = some p →
      a ∈ players.keys := by
    intro a p hp
    obtain ⟨p0, hp0, -⟩ := hedit.lookup hp
    exact Table.mem_keys.mpr ⟨p0, hp0⟩
  refine ⟨?_, ?_⟩
  · intro a p hp
    obtain ⟨p0, hp0, hsame⟩ := hedit.lookup hp
    have hdead : p0.isDead = p.isDead := by
      have hdead := congrArg PlayerData.isDead hsame
      exact hdead
    rw [← hdead]
    by_cases ha : a = fromDplayId
    · rw [ha, hsubject'] at hp0
      cases hp0
      exact h.alive _ subject hsubject
    · exact h.alive a p0 (hother a p0 hp0 ha)
  · intro a b p q hp hq hne
    exact hdone a b p q hp hq hne (fun _ => hmem b q hq) fun _ => hmem a p hp

theorem Players.Teamed.selection (h : m.Teamed) {subject : PlayerData}
    (hsubject : m[fromDplayId]? = some subject)
    (hsame : (selectedTable m fromDplayId subject teamNumber).2 = false) :
    TeamsAreAlliances (selectedTable m fromDplayId subject teamNumber).1
      (selectedTable m fromDplayId subject teamNumber).1 := by
  obtain ⟨-, hm⟩ := foldl_selectTeam_unchanged (m.insert fromDplayId
    { subject with battleroomTeamSelection := teamNumber }).keys (Prod.ext rfl hsame)
  have htable : (selectedTable m fromDplayId subject teamNumber).1 =
      m.insert fromDplayId { subject with battleroomTeamSelection := teamNumber } := hm
  rw [htable]
  exact teams_insert h.teams hsubject rfl rfl rfl

end selection

/-! ### The monitor -/

/-- Events that neither speak of alliances nor kill. -/
def Event.isBattleroom : Event → Bool
  | .chat _ _ => false
  | .alliance _ _ _ => false
  | .unitDied _ _ => false
  | _ => true

namespace GameMonitor2

variable {s s' : GameMonitor2}

theorem Latch.started {w : ℤ} (h : Latch s w s') : s'.gameStarted = s.gameStarted := by
  obtain ⟨r, cs, rfl⟩ := h.eq_withResult
  rfl

theorem Move.started (h : Move s s') (hstart : s.gameStarted = true) : s'.gameStarted = true := by
  cases h with
  | lobby hno => exact absurd (hno.symm.trans hstart) (by decide)
  | kept => exact hstart
  | renumbered => exact hstart
  | freeze hno => exact absurd (hno.symm.trans hstart) (by decide)
  | void _ _ hl => exact hl.started.trans hstart

theorem Outcome.started {e : Event} (h : Outcome s e s') (he : e ≠ .reset) (hstart : s.gameStarted = true) :
    s'.gameStarted = true := by
  rcases h with ⟨hreset, -⟩ | ⟨t, hmoves, hjudged⟩
  · exact absurd hreset he
  · have ht : t.gameStarted = true := by
      clear hjudged
      induction hmoves with
      | refl => exact hstart
      | tail _ hmove ih => exact hmove.started ih
    cases hjudged with
    | same => exact ht
    | deferred => exact ht
    | latched _ _ _ hl => exact hl.started.trans ht

theorem teamed_addPlayer (h : Sound s) (ht : s.players.Teamed) {setter : String} {id : ℕ} (hid : id ≠ 0)
    {name : Text} (hrun : s.addPlayer setter id name = .ok s') : s'.players.Teamed := by
  obtain ⟨m', hm', hok⟩ := addPlayer_spec h setter hid name
  rw [hrun] at hok
  cases hok
  exact hm'.teamed (wf_addedTo h.players hid name) (ht.selected.added h.players id name)

theorem teamed_removePlayer (h : Sound s) (ht : s.players.Teamed) {id : ℕ} (hc : s.players.contains id = true)
    (hrun : s.removePlayer id = .ok s') : s'.players.Teamed := by
  obtain ⟨p, hp⟩ := contains_eq_true_iff.mp hc
  rcases removePlayer_spec h hp with herr | ⟨m', cs, hm', -, hok⟩
  · rw [hrun] at herr
    cases herr
  · rw [hrun] at hok
    cases hok
    exact hm'.teamed (wf_removed h.players id) (ht.selected.removed id)

theorem teamed_onStatus (h : Sound s) (hstart : s.gameStarted = false) (ht : s.players.Teamed) {id : ℕ}
    {mapName : Text} {maxUnits slot : ℕ} {side : ℤ} {isWatcher isAI : Bool}
    (hrun : s.onStatus id mapName maxUnits slot side isWatcher isAI = .ok s') : s'.players.Teamed := by
  cases hp : s.players[id]? with
  | none =>
    unfold onStatus at hrun
    rw [hp] at hrun
    cases hrun
    exact ht
  | some p =>
    have hsel : Players.Selected (s.players.insert id (described p slot side isWatcher isAI)) :=
      ht.selected.replace hp rfl rfl rfl
    obtain ⟨m', mn, mu, cs, -, hok, hm'⟩ :=
      onStatus_spec h hp hstart mapName maxUnits slot side isWatcher isAI
    rw [hrun] at hok
    cases hok
    rcases hm' with ⟨-, hnum⟩ | ⟨-, hwatch, heq⟩
    · exact hnum.teamed (h.players.replace hp rfl (h.players.allies id p hp)) hsel
    · have hact : (described p slot side isWatcher isAI).isActive = p.isActive := by
        simp only [PlayerData.isActive, described, hwatch]
      show m'.Teamed
      rw [heq]
      exact ⟨hsel, teams_insert ht.teams hp hact rfl rfl⟩

theorem teamed_onTeamSelection (h : Sound s) (ht : s.players.Teamed) {fromDplayId : ℕ} {teamNumber : ℤ}
    (hrun : s.handle (.teamSelection fromDplayId teamNumber) = .ok s') : s'.players.Teamed := by
  rcases handle_alliance h (e := .teamSelection fromDplayId teamNumber) rfl with ⟨-, hidle⟩ | hedit
  · rw [hrun] at hidle
    cases hidle
    exact ht
  · obtain ⟨m, changed, cs, htable, hedit, -, hno, hyes⟩ := hedit
    cases hsubject : s.players[fromDplayId]? with
    | none =>
      simp only [allianceEdit, hsubject] at htable
      cases htable
    | some subject =>
      have hpair : selectedTable s.players fromDplayId subject teamNumber = (m, changed) := by
        simp only [allianceEdit, hsubject, Option.some.injEq] at htable
        exact htable
      have hsel := @Players.Selected.selectedTable s.players fromDplayId teamNumber ht.selected h.players subject hsubject
      rw [hpair] at hsel
      cases changed with
      | false =>
        have hteams := @Players.Teamed.selection s.players fromDplayId teamNumber ht subject hsubject
          (by rw [hpair])
        rw [hpair] at hteams
        have hok := hno rfl
        rw [hrun] at hok
        cases hok
        exact ⟨hsel, hteams⟩
      | true =>
        obtain ⟨m', hm', hok⟩ := hyes rfl
        rw [hrun] at hok
        cases hok
        have hplayers : ({ s with players := m' }.calling cs).latchDraw.players = m' :=
          (latchDraw_fields ({ s with players := m' }.calling cs)).1
        rw [hplayers]
        exact hm'.teamed hedit.wf hsel

theorem teamed_onGameTick (h : Sound s) (ht : s.players.Teamed) {id tick : ℕ}
    (hrun : s.onGameTick id tick = .ok s') (hstart' : s'.gameStarted = false) : s'.players.Teamed := by
  by_cases hc : s.players.contains id = true
  · by_cases hstart : s.gameStarted = false ∧ tick > s.gameStartsAfterTickCount
    · obtain ⟨cs, -, hok⟩ := onGameTick_starts h hc hstart.1 hstart.2
      rw [hrun] at hok
      cases hok
      obtain ⟨r, cs1, hdue⟩ := latchDue_eq_withResult
        ((({ s with gameLaunched := true }.freeze).calling cs).latchStart.advanceTick id tick)
      obtain ⟨r', cs2, hlatch⟩ := latchStart_eq_withResult (({ s with gameLaunched := true }.freeze).calling cs)
      rw [hdue] at hstart'
      have hyes := (advanceTick_fields (({ s with gameLaunched := true }.freeze).calling cs).latchStart id tick).2.1
      rw [hlatch] at hyes hstart'
      have htrue : false = true := hstart'.symm.trans hyes
      cases htrue
    · have hok := onGameTick_goesOn h hc hstart
      rw [hrun] at hok
      cases hok
      obtain ⟨r, cs, hdue⟩ := latchDue_eq_withResult ((s.launchGame tick).advanceTick id tick)
      obtain ⟨cs', -, hlaunch⟩ := launchGame_spec s tick
      rw [hdue, hlaunch]
      rcases advanceTick_cases ({ s with gameLaunched := true }.calling cs') id tick with heq | ⟨p, hp, heq⟩
      · rw [heq]
        exact ht
      · rw [heq]
        have hp' : s.players[id]? = some p := hp
        exact ⟨ht.selected.replace hp' rfl rfl rfl, teams_insert ht.teams hp' rfl rfl rfl⟩
  · unfold onGameTick at hrun
    rw [if_pos (Bool.not_eq_true _ ▸ hc)] at hrun
    cases hrun
    exact ht

theorem teamed_step (h : Sound s) (ht : s.gameStarted = false → s.players.Teamed) {e : Event}
    (he : e.isBattleroom = true) (hstep : s.step e = some s') (hstart' : s'.gameStarted = false) :
    s'.players.Teamed := by
  have hok := ok_of_step hstep
  by_cases hreset : e = .reset
  · subst hreset
    cases hok
    exact teamed_empty
  have hstart : s.gameStarted = false := by
    by_contra hyes
    have hyes' := (step_outcome h hstep).started hreset (by simpa using hyes)
    exact absurd (hstart'.symm.trans hyes') (by decide)
  have hs := ht hstart
  cases e with
  | superEnumPlayerReply dplayId name =>
    simp only [handle, onDplaySuperEnumPlayerReply] at hok
    split at hok
    · rename_i hc
      exact teamed_addPlayer h hs hc.2.2.ne' hok
    · cases hok
      exact hs
  | createOrForwardPlayer command dplayId name =>
    simp only [handle, onDplayCreateOrForwardPlayer] at hok
    split at hok
    · rename_i hc
      exact teamed_addPlayer h hs hc.2.2.2.ne' hok
    · cases hok
      exact hs
  | deletePlayer dplayId =>
    simp only [handle] at hok
    rw [onDplayDeletePlayer_eq h, if_pos hstart] at hok
    split at hok
    · cases hok
      exact hs
    · rename_i hc
      exact teamed_removePlayer h hs (by simpa using fun h0 => hc (Or.inr h0)) hok
  | status sourceDplayId mapName maxUnits slot side isWatcher isAI => exact teamed_onStatus h hstart hs hok
  | chat sourceDplayId chat => cases he
  | alliance subjectDpid objectDpid isAllied => cases he
  | teamSelection fromDplayId teamNumber => exact teamed_onTeamSelection h hs hok
  | unitDied sourceDplayId unitId => cases he
  | rejectOther sourceDplayId rejectedDplayId =>
    simp only [handle] at hok
    rw [onRejectOther_eq h, if_pos hstart] at hok
    split at hok
    · cases hok
      exact hs
    · rename_i hc
      exact teamed_removePlayer h hs (by simpa using fun h0 => hc (Or.inr h0)) hok
  | gameTick sourceDplayId tick => exact teamed_onGameTick h hs hok hstart'
  | reset => exact absurd rfl hreset

/-! ### Without the names nobody gets in -/

/-- One of the names is not set, there are no players, and no game has started. -/
structure Nameless (s : GameMonitor2) : Prop where
  names : s.hostPlayerName = [] ∨ s.localPlayerName = []
  players : s.players = ∅
  result : s.gameResult = .new
  waiting : s.gameStarted = false

theorem Nameless.addPlayer (h : Nameless s) (setter : String) (id : ℕ) (name : Text) :
    ∃ f, s.addPlayer setter id name = .error f := by
  unfold GameMonitor2.addPlayer noteHost
  by_cases hhost : s.hostPlayerName = []
  · simp only [if_pos hhost]
    exact ⟨_, rfl⟩
  · have hlocal : s.localPlayerName = [] := h.names.resolve_left hhost
    simp only [if_neg hhost]
    by_cases hname : name = s.hostPlayerName
    · simp only [if_pos hname, noteLocal]
      exact ⟨_, by rw [← hname]; simp only [hlocal]; rfl⟩
    · simp only [if_neg hname, noteLocal]
      exact ⟨_, by simp only [hlocal]; rfl⟩

theorem Nameless.lookup (h : Nameless s) (k : ℕ) : s.players[k]? = none := by
  rw [h.players]
  exact Std.ExtTreeMap.getElem?_empty

theorem Nameless.contains (h : Nameless s) (k : ℕ) : s.players.contains k = false :=
  Table.contains_eq_false.mpr (h.lookup k)

theorem Nameless.idle (h : Nameless s) {e : Event} (hreset : e ≠ .reset) (hstep : s.step e = some s') : s' = s := by
  have hok := ok_of_step hstep
  cases e with
  | superEnumPlayerReply dplayId name =>
    simp only [handle, onDplaySuperEnumPlayerReply] at hok
    split at hok
    · obtain ⟨f, hf⟩ := h.addPlayer "setHostPlayerName" dplayId name
      rw [hf] at hok
      cases hok
    · exact (Except.ok.inj hok).symm
  | createOrForwardPlayer command dplayId name =>
    simp only [handle, onDplayCreateOrForwardPlayer] at hok
    split at hok
    · obtain ⟨f, hf⟩ := h.addPlayer "setHostName" dplayId name
      rw [hf] at hok
      cases hok
    · exact (Except.ok.inj hok).symm
  | deletePlayer dplayId =>
    simp only [handle, onDplayDeletePlayer, h.contains, or_true, if_true] at hok
    exact (Except.ok.inj hok).symm
  | status sourceDplayId mapName maxUnits slot side isWatcher isAI =>
    simp only [handle, onStatus, h.lookup] at hok
    exact (Except.ok.inj hok).symm
  | chat sourceDplayId chat =>
    simp only [handle, onChat, h.contains, if_true] at hok
    exact (Except.ok.inj hok).symm
  | alliance subjectDpid objectDpid isAllied =>
    simp only [handle, onAlliance, h.lookup] at hok
    exact (Except.ok.inj hok).symm
  | teamSelection fromDplayId teamNumber =>
    simp only [handle, onTeamSelection, h.lookup] at hok
    exact (Except.ok.inj hok).symm
  | unitDied sourceDplayId unitId =>
    simp only [handle, onUnitDied, h.contains, if_true] at hok
    exact (Except.ok.inj hok).symm
  | rejectOther sourceDplayId rejectedDplayId =>
    simp only [handle, onRejectOther, h.contains, true_or, if_true] at hok
    exact (Except.ok.inj hok).symm
  | gameTick sourceDplayId tick =>
    simp only [handle, onGameTick, h.contains, if_true] at hok
    exact (Except.ok.inj hok).symm
  | reset => exact absurd rfl hreset

theorem Nameless.step (h : Nameless s) {e : Event} (hstep : s.step e = some s') : Nameless s' := by
  by_cases hreset : e = .reset
  · subst hreset
    cases ok_of_step hstep
    exact ⟨h.names, rfl, rfl, rfl⟩
  · exact h.idle hreset hstep ▸ h

theorem valid_or_nameless (c : Setup) : Nameless (.new c) ∨ Valid (.new c) := by
  by_cases hn : c.hostPlayerName = [] ∨ c.localPlayerName = []
  · exact .inl ⟨hn, rfl, rfl, rfl⟩
  · rw [not_or] at hn
    exact .inr (valid_new hn.1 hn.2)

/-- Before the start two players who do not watch are in one team exactly if they have selected
the same team of the battleroom. -/
theorem battleroom_teams {c : Setup} (h : Runs GameMonitor2.step (fun _ e => e.isBattleroom = true) (.new c) s)
    (hstart : s.gameStarted = false) {a b : ℕ} {p q : PlayerData} (hp : s.players[a]? = some p)
    (hq : s.players[b]? = some q) (hne : a ≠ b) (hwatch : p.isWatcher = false) (hwatch' : q.isWatcher = false) :
    p.teamNumber = q.teamNumber ↔
      p.battleroomTeamSelection = q.battleroomTeamSelection ∧ p.battleroomTeamSelection < 5 := by
  have hinvariant : Nameless s ∨ Valid s ∧ (s.gameStarted = false → s.players.Teamed) := by
    have hnew : Nameless (.new c) ∨
        Valid (.new c) ∧ ((GameMonitor2.new c).gameStarted = false → (GameMonitor2.new c).players.Teamed) :=
      (valid_or_nameless c).imp_right fun hv => ⟨hv, fun _ => teamed_empty⟩
    refine Runs.invariant (P := fun t => Nameless t ∨ Valid t ∧ (t.gameStarted = false → t.players.Teamed))
      h hnew ?_
    intro t e t' ht he hstep
    rcases ht with hno | ⟨hv, hteamed⟩
    · exact .inl (hno.step hstep)
    · exact .inr ⟨hv.outcome (step_outcome hv.sound hstep), teamed_step hv.sound hteamed he hstep⟩
  rcases hinvariant with hno | ⟨-, hteamed⟩
  · rw [hno.lookup a] at hp
    cases hp
  · obtain ⟨hsel, hteams⟩ := hteamed hstart
    have hact : p.isActive = true := (isActive_iff p).mpr ⟨hwatch, hsel.alive a p hp⟩
    have hact' : q.isActive = true := (isActive_iff q).mpr ⟨hwatch', hsel.alive b q hq⟩
    rw [hteams a b p q hp hq hact hact', or_iff_right hne, hsel.mutual_iff hp hq hne]
    rfl

/-- Three players select teams one after the other; the second changes its mind. -/
def selections : List Event :=
  [.createOrForwardPlayer 8 1 "a".toList, .createOrForwardPlayer 8 2 "b".toList,
    .createOrForwardPlayer 8 3 "c".toList, .teamSelection 1 0, .teamSelection 2 0, .teamSelection 3 1,
    .teamSelection 2 1]

theorem battleroom_teams_three : ∃ (s : GameMonitor2) (p q : PlayerData),
    Runs GameMonitor2.step (fun _ e => e.isBattleroom = true) (.new duel) s ∧ s.gameStarted = false ∧
    s.players[2]? = some p ∧ s.players[3]? = some q ∧ p.battleroomTeamSelection = 1 ∧
    (p.teamNumber = q.teamNumber ↔
      p.battleroomTeamSelection = q.battleroomTeamSelection ∧ p.battleroomTeamSelection < 5) := by
  have hend : (run step (.new duel) selections).bind (fun s => (s.players[2]?).bind fun p => (s.players[3]?).map
      fun q => (s.gameStarted, p.isWatcher, q.isWatcher, p.battleroomTeamSelection)) =
      some (false, false, false, 1) := by decide +kernel
  obtain ⟨s, hrun, hend⟩ := Option.bind_eq_some_iff.mp hend
  obtain ⟨p, hp, hend⟩ := Option.bind_eq_some_iff.mp hend
  obtain ⟨q, hq, hend⟩ := Option.map_eq_some_iff.mp hend
  simp only [Prod.mk.injEq] at hend
  obtain ⟨hstart, hwatch, hwatch', hsel⟩ := hend
  have hruns : Runs GameMonitor2.step (fun _ e => e.isBattleroom = true) (.new duel) s :=
    Runs.of_run selections hrun fun _ e he => by revert e; decide
  exact ⟨s, p, q, hruns, hstart, hp, hq, hsel, battleroom_teams hruns hstart hp hq (by decide) hwatch hwatch'⟩

end GameMonitor2

end Gpgnet4TA.App
