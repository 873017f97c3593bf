import Gpgnet4TA.App.Numbering

/-!
# What the handlers of the monitor do

In a sound state no lookup fails, so that each handler is an equation: renumbering yields a
`Numbered` table, a check of the end of the game yields a `Verdict`, and notifications add
calls that do not announce an end.
-/

namespace Gpgnet4TA.App
open Gpgnet4TA.Lib

/-- The structural invariant of the monitor. -/
structure Sound (s : GameMonitor2) : Prop where
  host : s.hostPlayerName ≠ []
  localName : s.localPlayerName ≠ []
  players : s.players.Wf
  frozen : s.gameStarted = true → ∀ k : ℕ,
    (∃ p, s.frozenPlayers[k]? = some p) ↔ ∃ p, s.players[k]? = some p

/-! ### Notifications -/

def Call.isGameEnded : Call → Bool
  | .onGameEnded _ => true
  | _ => false

/-- Calls among which the end of a game is not announced. -/
def Silent (cs : List Call) : Prop := ∀ c ∈ cs, c.isGameEnded = false

theorem Silent.append {cs cs' : List Call} (h : Silent cs) (h' : Silent cs') : Silent (cs ++ cs') := by
  intro c hc
  rcases List.mem_append.mp hc with hc | hc
  · exact h c hc
  · exact h' c hc

theorem silent_nil : Silent [] := by
  intro c hc
  cases hc

theorem silent_singleton {c : Call} (h : c.isGameEnded = false) : Silent [c] := by
  intro d hd
  rw [List.mem_singleton.mp hd]
  exact h

namespace GameMonitor2

/-- The state with further calls made. -/
def calling (s : GameMonitor2) (cs : List Call) : GameMonitor2 := { s with calls := s.calls ++ cs }

@[simp]
theorem calling_nil (s : GameMonitor2) : s.calling [] = s := by
  simp [calling]

theorem calling_calling (s : GameMonitor2) (cs cs' : List Call) :
    (s.calling cs).calling cs' = s.calling (cs ++ cs') := by
  simp [calling, List.append_assoc]

theorem call_eq (s : GameMonitor2) (c : Call) :
    s.call c = s.calling (if s.hasHandler then [c] else []) := by
  unfold call
  split
  · rfl
  · simp

theorem call_silent (s : GameMonitor2) {c : Call} (hc : c.isGameEnded = false) :
    ∃ cs, Silent cs ∧ s.call c = s.calling cs := by
  refine ⟨if s.hasHandler then [c] else [], ?_, call_eq s c⟩
  split
  · exact silent_singleton hc
  · exact silent_nil

theorem mutualAllyNames_ok {m : Players} (hw : m.Wf) {k : ℕ} {p : PlayerData} (hp : m[k]? = some p) :
    ∃ names, getMutualAllyNames m k m = .ok names := by
  obtain ⟨S, hS, hmem⟩ := getMutualAllies_spec hw.keyed hp
  have hloop : ∀ (l : List ℕ) (acc : List Text), (∀ a ∈ l, ∃ q : PlayerData, m[a]? = some q) →
      ∃ names, l.foldlM (fun (names : List Text) id => do
        let player ← m.at id
        return names.insert player.name) acc = Except.ok (ε := Failure) names := by
    intro l
    induction l with
    | nil => exact fun acc _ => ⟨acc, rfl⟩
    | cons a l ih =>
      intro acc hl
      obtain ⟨q, hq⟩ := hl a List.mem_cons_self
      obtain ⟨names, hnames⟩ := ih (acc.insert q.name) fun b hb => hl b (List.mem_cons_of_mem _ hb)
      refine ⟨names, ?_⟩
      rw [List.foldlM_cons, at_eq hq]
      exact hnames
  obtain ⟨names, hnames⟩ := hloop S.toList [] (by
    intro a ha
    obtain ⟨-, q, -, hq, -⟩ := (hmem a).mp (Std.ExtTreeSet.mem_toList.mp ha)
    exact ⟨q, hq⟩)
  refine ⟨names, ?_⟩
  rw [getMutualAllyNames, hS]
  exact hnames

theorem foldl_calling {α : Type} (f : GameMonitor2 → α → GameMonitor2)
    (hf : ∀ s a, ∃ cs, Silent cs ∧ f s a = s.calling cs) (l : List α) (s : GameMonitor2) :
    ∃ cs, Silent cs ∧ l.foldl f s = s.calling cs := by
  induction l generalizing s with
  | nil => exact ⟨[], silent_nil, (calling_nil s).symm⟩
  | cons a l ih =>
    obtain ⟨cs, hcs, heq⟩ := hf s a
    obtain ⟨cs', hcs', heq'⟩ := ih (f s a)
    refine ⟨cs ++ cs', hcs.append hcs', ?_⟩
    rw [List.foldl_cons, heq', heq, calling_calling]

theorem foldlM_calling {α : Type} (f : GameMonitor2 → α → Except Failure GameMonitor2) (l : List α)
    (hf : ∀ s, ∀ a ∈ l, ∃ cs, Silent cs ∧ f s a = .ok (s.calling cs)) (s : GameMonitor2) :
    ∃ cs, Silent cs ∧ l.foldlM f s = .ok (s.calling cs) := by
  induction l generalizing s with
  | nil => exact ⟨[], silent_nil, by rw [calling_nil]; rfl⟩
  | cons a l ih =>
    obtain ⟨cs, hcs, heq⟩ := hf s a List.mem_cons_self
    obtain ⟨cs', hcs', heq'⟩ := ih (fun s b hb => hf s b (List.mem_cons_of_mem _ hb)) (s.calling cs)
    refine ⟨cs ++ cs', hcs.append hcs', ?_⟩
    rw [List.foldlM_cons, heq]
    show l.foldlM f (s.calling cs) = _
    rw [heq', calling_calling]

theorem notifyPlayerStatuses_spec {s : GameMonitor2} (hw : s.players.Wf) :
    ∃ cs, Silent cs ∧ s.notifyPlayerStatuses = .ok (s.calling cs) := by
  cases hh : s.hasHandler with
  | false =>
    refine ⟨[], silent_nil, ?_⟩
    rw [notifyPlayerStatuses, if_pos hh, calling_nil]
    rfl
  | true =>
    obtain ⟨cs, hcs, hrun⟩ := foldlM_calling (fun (t : GameMonitor2) (kp : ℕ × PlayerData) => do
      if kp.2.side ≥ 0 then
        let names ← getMutualAllyNames s.players kp.1 s.players
        return t.call (.onPlayerStatus kp.2 names)
      else return t) s.players.toList (by
        intro t h hp
        obtain ⟨k, p⟩ := h
        rw [Table.mem_toList] at hp
        obtain ⟨names, hnames⟩ := mutualAllyNames_ok hw hp
        by_cases hside : p.side ≥ 0
        · obtain ⟨cs, hcs, heq⟩ := t.call_silent (c := .onPlayerStatus p names) rfl
          refine ⟨cs, hcs, ?_⟩
          simp only [if_pos hside, hnames]
          show Except.ok (t.call (.onPlayerStatus p names)) = _
          rw [heq]
        · refine ⟨[], silent_nil, ?_⟩
          simp only [if_neg hside]
          rw [calling_nil]
          rfl) s
    obtain ⟨cs', hcs', hrun'⟩ := foldl_calling (fun (t : GameMonitor2) n =>
      if isSlotUsed s.players n then t
      else t.call (.onClearSlot { PlayerData.new with slotNumber := n })) (by
        intro t n
        by_cases hslot : isSlotUsed s.players n = true
        · exact ⟨[], silent_nil, by rw [if_pos hslot, calling_nil]⟩
        · rw [if_neg hslot]
          exact t.call_silent rfl) (List.range 10) (s.calling cs)
    refine ⟨cs ++ cs', hcs.append hcs', ?_⟩
    rw [notifyPlayerStatuses, if_neg (by rw [hh]; decide), hrun, ← calling_calling, ← hrun']
    rfl

/-! ### The end of the game -/

def Active (s : GameMonitor2) (k : ℕ) : Prop := ∃ p, s.players[k]? = some p ∧ p.isActive = true

/-- All active players are in team `t` of the table `m`. -/
def OneTeam (s : GameMonitor2) (m : Players) (t : ℕ) : Prop :=
  ∀ k, s.Active k → ∃ q, m[k]? = some q ∧ q.teamNumber = t

/-- What `checkEndGameCondition` finds. -/
inductive Verdict (s : GameMonitor2) : Option ℤ → Prop
  | notStarted : s.gameStarted = false → Verdict s none
  | nobody : s.gameStarted = true → (∀ k, ¬ s.Active k) → Verdict s (some 0)
  | won {k t : ℕ} : s.gameStarted = true → s.Active k → s.OneTeam s.frozenPlayers t →
      Verdict s (some t)
  | draw {k t : ℕ} : s.gameStarted = true → s.Active k → (∀ u, ¬ s.OneTeam s.frozenPlayers u) →
      s.OneTeam s.players t → Verdict s (some (-1))
  | goesOn {k : ℕ} : s.gameStarted = true → s.Active k → (∀ u, ¬ s.OneTeam s.frozenPlayers u) →
      (∀ u, ¬ s.OneTeam s.players u) → Verdict s none

theorem mem_getActivePlayers {m : Players} (hw : m.Wf) (k : ℕ) :
    k ∈ getActivePlayers m ↔ ∃ p, m[k]? = some p ∧ p.isActive = true := by
  rw [getActivePlayers, Std.ExtTreeSet.mem_ofList, List.contains_iff_mem]
  simp only [List.mem_map, List.mem_filter, Prod.exists, Table.mem_toList]
  constructor
  · intro h
    obtain ⟨a, p, ⟨hp, hact⟩, rfl⟩ := h
    rw [(hw.key a p hp).1]
    exact ⟨p, hp, hact⟩
  · intro h
    obtain ⟨p, hp, hact⟩ := h
    exact ⟨k, p, ⟨hp, hact⟩, (hw.key k p hp).1⟩

theorem isPlayersAllAllied_loop {m : Players} (player : PlayerData) (ids : List ℕ)
    (hids : ∀ id ∈ ids, ∃ q : PlayerData, m[id]? = some q) :
    (isPlayersAllAllied.loop m player ids = .ok (some player.teamNumber) ∧
      ∀ id ∈ ids, ∃ q : PlayerData, m[id]? = some q ∧ q.teamNumber = player.teamNumber) ∨
    (isPlayersAllAllied.loop m player ids = .ok none ∧
      ∃ id ∈ ids, ∃ q : PlayerData, m[id]? = some q ∧ q.teamNumber ≠ player.teamNumber) := by
  induction ids with
  | nil => exact Or.inl ⟨rfl, by simp⟩
  | cons id ids ih =>
    obtain ⟨q, hq⟩ := hids id List.mem_cons_self
    have hloop : isPlayersAllAllied.loop m player (id :: ids) =
        if q.teamNumber ≠ player.teamNumber then .ok none
        else isPlayersAllAllied.loop m player ids := by
      rw [isPlayersAllAllied.loop, at_eq hq]
      rfl
    by_cases hteam : q.teamNumber ≠ player.teamNumber
    · exact Or.inr ⟨by rw [hloop, if_pos hteam], id, List.mem_cons_self, q, hq, hteam⟩
    · rw [hloop, if_neg hteam]
      rcases ih fun a ha => hids a (List.mem_cons_of_mem _ ha) with ⟨hrun, hall⟩ | ⟨hrun, a, ha, hbad⟩
      · refine Or.inl ⟨hrun, ?_⟩
        intro a ha
        rcases List.mem_cons.mp ha with rfl | ha
        · exact ⟨q, hq, not_not.mp hteam⟩
        · exact hall a ha
      · exact Or.inr ⟨hrun, a, List.mem_cons_of_mem _ ha, hbad⟩

theorem isPlayersAllAllied_spec {m : Players} {ids : List ℕ} (hne : ids ≠ [])
    (hids : ∀ id ∈ ids, ∃ q : PlayerData, m[id]? = some q) :
    (∃ t, isPlayersAllAllied ids m = .ok (some t) ∧
      ∀ id ∈ ids, ∃ q : PlayerData, m[id]? = some q ∧ q.teamNumber = t) ∨
    (isPlayersAllAllied ids m = .ok none ∧
      ∀ t, ¬ ∀ id ∈ ids, ∃ q : PlayerData, m[id]? = some q ∧ q.teamNumber = t) := by
  cases ids with
  | nil => exact absurd rfl hne
  | cons first ids =>
    obtain ⟨p, hp⟩ := hids first List.mem_cons_self
    have hrun : isPlayersAllAllied (first :: ids) m = isPlayersAllAllied.loop m p (first :: ids) := by
      rw [isPlayersAllAllied, at_eq hp]
      rfl
    rw [hrun]
    rcases isPlayersAllAllied_loop p (first :: ids) hids with ⟨hloop, hall⟩ | ⟨hloop, a, ha, q, hq, hbad⟩
    · exact Or.inl ⟨p.teamNumber, hloop, hall⟩
    · refine Or.inr ⟨hloop, ?_⟩
      intro t hall
      obtain ⟨p', hp', hpt⟩ := hall first List.mem_cons_self
      obtain ⟨q', hq', hqt⟩ := hall a ha
      rw [hp] at hp'
      rw [hq] at hq'
      cases hp'
      cases hq'
      exact hbad (hqt.trans hpt.symm)

theorem checkEndGameCondition_spec {s : GameMonitor2} (h : Sound s) :
    ∃ v, s.checkEndGameCondition = .ok v ∧ Verdict s v := by
  unfold checkEndGameCondition
  cases hstart : s.gameStarted with
  | false => exact ⟨none, by rw [if_pos rfl]; rfl, .notStarted hstart⟩
  | true =>
    rw [if_neg (by decide)]
    set ids := (getActivePlayers s.players).toList with hids
    have hmem : ∀ k, k ∈ ids ↔ s.Active k := by
      intro k
      rw [hids, Std.ExtTreeSet.mem_toList]
      exact mem_getActivePlayers h.players k
    have hteam : ∀ m t, (∀ id ∈ ids, ∃ q : PlayerData, m[id]? = some q ∧ q.teamNumber = t) ↔
        s.OneTeam m t := by
      intro m t
      exact forall_congr' fun k => by rw [hmem k]
    by_cases hnil : ids = []
    · refine ⟨some 0, by rw [if_pos hnil]; rfl, .nobody hstart ?_⟩
      intro k hk
      rw [← hmem k, hnil] at hk
      cases hk
    · obtain ⟨k, hk⟩ := List.exists_mem_of_ne_nil ids hnil
      have hactive : s.Active k := (hmem k).mp hk
      have hlive : ∀ id ∈ ids, ∃ q : PlayerData, s.players[id]? = some q := by
        intro id hid
        obtain ⟨q, hq, -⟩ := (hmem id).mp hid
        exact ⟨q, hq⟩
      have hfrozen : ∀ id ∈ ids, ∃ q : PlayerData, s.frozenPlayers[id]? = some q :=
        fun id hid => (h.frozen hstart id).mpr (hlive id hid)
      rw [if_neg hnil]
      rcases isPlayersAllAllied_spec hnil hfrozen with ⟨t, hrun, hall⟩ | ⟨hrun, hnone⟩
      · refine ⟨some t, by rw [hrun]; rfl, .won hstart hactive ((hteam _ t).mp hall)⟩
      · have hnone' : ∀ u, ¬ s.OneTeam s.frozenPlayers u := fun u hu => hnone u ((hteam _ u).mpr hu)
        rcases isPlayersAllAllied_spec hnil hlive with ⟨t, hrun', hall⟩ | ⟨hrun', hnone2⟩
        · exact ⟨some (-1), by rw [hrun]; show (isPlayersAllAllied _ _ >>= _) = _; rw [hrun']; rfl,
            .draw hstart hactive hnone' ((hteam _ t).mp hall)⟩
        · exact ⟨none, by rw [hrun]; show (isPlayersAllAllied _ _ >>= _) = _; rw [hrun']; rfl,
            .goesOn hstart hactive hnone' fun u hu => hnone2 u ((hteam _ u).mpr hu)⟩

/-- The verdict as a function; in a sound state the check does not fail. -/
def verdict (s : GameMonitor2) : Option ℤ := s.checkEndGameCondition.toOption.join

theorem verdict_spec {s : GameMonitor2} (h : Sound s) :
    s.checkEndGameCondition = .ok s.verdict ∧ Verdict s s.verdict := by
  obtain ⟨v, hrun, hv⟩ := checkEndGameCondition_spec h
  have heq : s.verdict = v := by
    rw [verdict, hrun]
    rfl
  rw [heq]
  exact ⟨hrun, hv⟩

/-- Whatever the verdict is, it is latched. -/
def latchVerdict (s : GameMonitor2) : GameMonitor2 :=
  match s.verdict with
  | some winningTeamNumber => s.latchEndGameResult winningTeamNumber
  | none => s

/-- Only a mutual draw is latched. -/
def latchDraw (s : GameMonitor2) : GameMonitor2 :=
  match s.verdict with
  | some winningTeamNumber => if winningTeamNumber < 0 then s.latchEndGameResult winningTeamNumber else s
  | none => s

/-- A victory is deferred. -/
def latchDeath (s : GameMonitor2) : GameMonitor2 :=
  match s.verdict with
  | some winningTeamNumber =>
    if winningTeamNumber > 0 then
      s.latchEndGameTick ((getMostRecentGameTick s.players + s.drawGameTicks) % 2 ^ 32)
    else s.latchEndGameResult winningTeamNumber
  | none => s

/-- An end before the start is a mutual draw. -/
def latchStart (s : GameMonitor2) : GameMonitor2 :=
  match s.verdict with
  | some _ => s.latchEndGameResult (-1)
  | none => s

theorem latchIfEnded_eq {s : GameMonitor2} (h : Sound s) : s.latchIfEnded = .ok s.latchVerdict := by
  rw [latchIfEnded, (verdict_spec h).1, latchVerdict]
  show (match s.verdict with | some w => _ | none => _) = _
  cases s.verdict <;> rfl

theorem latchMutualDraw_eq {s : GameMonitor2} (h : Sound s) : s.latchMutualDraw = .ok s.latchDraw := by
  rw [latchMutualDraw, (verdict_spec h).1, latchDraw]
  show (match s.verdict with | some w => _ | none => _) = _
  cases s.verdict <;> rfl

end GameMonitor2

/-! ### Edits of the table of players -/

/-- Tables with the same keys. -/
def SameKeys (m m' : Players) : Prop := ∀ k : ℕ, (∃ p, m'[k]? = some p) ↔ ∃ p, m[k]? = some p

theorem SameKeys.trans {m1 m2 m3 : Players} (h : SameKeys m1 m2) (h' : SameKeys m2 m3) :
    SameKeys m1 m3 := fun k => (h' k).trans (h k)

theorem Numbered.sameKeys {m m' : Players} (h : Numbered m m') : SameKeys m m' := by
  intro k
  constructor
  · intro hx
    obtain ⟨p, hp⟩ := hx
    obtain ⟨q, hq, -⟩ := core_lookup h.core hp
    exact ⟨q, hq⟩
  · intro hx
    obtain ⟨p, hp⟩ := hx
    obtain ⟨q, hq, -⟩ := core_lookup h.core.symm hp
    exact ⟨q, hq⟩

theorem sameKeys_insert {m : Players} {k : ℕ} {p p' : PlayerData} (hp : m[k]? = some p) :
    SameKeys m (m.insert k p') := by
  intro a
  rw [Table.getElem?_insert]
  by_cases ha : a = k
  · subst ha
    simp [hp]
  · rw [if_neg ha]

theorem Players.Wf.replace {m : Players} (hw : m.Wf) {k : ℕ} {p p' : PlayerData} (hp : m[k]? = some p)
    (hid : p'.dplayid = p.dplayid) (hall : ∀ a ∈ p'.allies, ∃ q : PlayerData, m[a]? = some q) :
    Players.Wf (m.insert k p') where
  key := by
    intro a q hq
    rw [Table.getElem?_insert] at hq
    split at hq
    · rename_i ha
      cases hq
      rw [ha, hid]
      exact hw.key k p hp
    · exact hw.key a q hq
  allies := by
    intro a q hq b hb
    rw [sameKeys_insert hp b]
    rw [Table.getElem?_insert] at hq
    split at hq
    · cases hq
      exact hall b hb
    · exact hw.allies a q hq b hb

theorem Sound.setPlayers {s : GameMonitor2} (h : Sound s) {m : Players} (hw : m.Wf)
    (hk : s.gameStarted = true → SameKeys s.players m) : Sound { s with players := m } where
  host := h.host
  localName := h.localName
  players := hw
  frozen := fun hstart k => (h.frozen hstart k).trans (hk hstart k).symm

theorem Sound.calling {s : GameMonitor2} (h : Sound s) (cs : List Call) : Sound (s.calling cs) :=
  ⟨h.host, h.localName, h.players, h.frozen⟩

/-! ### Players come and go -/

theorem wf_addedTo {m : Players} (hw : m.Wf) {id : ℕ} (hid : id ≠ 0) (name : Text) :
    (GameMonitor2.addedTo m id name).Wf where
  key := by
    intro a q hq
    rw [GameMonitor2.addedTo, Table.getElem?_insert] at hq
    split at hq
    · rename_i ha
      cases hq
      exact ⟨ha.symm, by rw [ha]; exact hid⟩
    · exact hw.key a q hq
  allies := by
    intro a q hq b hb
    have hold : ∀ c : ℕ, (∃ r : PlayerData, m[c]? = some r) →
        ∃ r : PlayerData, (GameMonitor2.addedTo m id name)[c]? = some r := by
      intro c h
      obtain ⟨r, hr⟩ := h
      rw [GameMonitor2.addedTo, Table.getElem?_insert]
      split
      · exact ⟨_, rfl⟩
      · exact ⟨r, hr⟩
    rw [GameMonitor2.addedTo, Table.getElem?_insert] at hq
    split at hq
    · cases hq
      cases hm : m[id]? with
      | none =>
        rw [hm] at hb
        exact absurd hb Std.ExtTreeSet.not_mem_empty
      | some p =>
        rw [hm] at hb
        exact hold b (hw.allies id p hm b hb)
    · exact hold b (hw.allies a q hq b hb)

theorem wf_removed {m : Players} (hw : m.Wf) (id : ℕ) :
    Players.Wf (GameMonitor2.removeAlly id (m.erase id)) where
  key := by
    intro a q hq
    rw [GameMonitor2.removeAlly, Std.ExtTreeMap.getElem?_map, Table.getElem?_erase] at hq
    obtain ⟨p, hp, rfl⟩ := Option.map_eq_some_iff.mp hq
    split at hp
    · cases hp
    · exact hw.key a p hp
  allies := by
    intro a q hq b hb
    rw [GameMonitor2.removeAlly, Std.ExtTreeMap.getElem?_map, Table.getElem?_erase] at hq
    obtain ⟨p, hp, rfl⟩ := Option.map_eq_some_iff.mp hq
    split at hp
    · cases hp
    · simp only [Std.ExtTreeSet.mem_erase, compare_eq_iff_eq, ne_eq] at hb
      obtain ⟨r, hr⟩ := hw.allies a p hp b hb.2
      refine ⟨{ r with allies := r.allies.erase id }, ?_⟩
      rw [GameMonitor2.removeAlly, Std.ExtTreeMap.getElem?_map, Table.getElem?_erase,
        if_neg (Ne.symm hb.1), hr]
      rfl

theorem Sound.renumbered {s : GameMonitor2} (h : Sound s) {m' : Players} (hm' : Numbered s.players m')
    (cs : List Call) : Sound ({ s with players := m' }.calling cs) :=
  (h.setPlayers (h.players.of_core hm'.core) fun _ => hm'.sameKeys).calling cs

namespace GameMonitor2

variable {s : GameMonitor2}

theorem addPlayer_spec (h : Sound s) (setter : String) {id : ℕ} (hid : id ≠ 0) (name : Text) :
    ∃ m', Numbered (addedTo s.players id name) m' ∧ s.addPlayer setter id name = .ok { s with
      players := m'
      hostDplayId := if name = s.hostPlayerName then id else s.hostDplayId
      localDplayId := if name = s.localPlayerName then id else s.localDplayId } := by
  obtain ⟨m', hrun, hm'⟩ := updatePlayerArmies_spec (wf_addedTo h.players hid name)
  refine ⟨m', hm', ?_⟩
  set s1 : GameMonitor2 := { s with players := addedTo s.players id name } with hs1
  have hhost : s1.noteHost setter id name =
      .ok (if name = s.hostPlayerName then { s1 with hostDplayId := id } else s1) := by
    rw [noteHost, if_neg h.host]
  set s2 := if name = s.hostPlayerName then { s1 with hostDplayId := id } else s1 with hs2
  have hfields : s2.localPlayerName = s.localPlayerName ∧ s2.players = s1.players := by
    rw [hs2]
    split <;> exact ⟨rfl, rfl⟩
  have hlocal : s2.noteLocal id name =
      .ok (if name = s.localPlayerName then { s2 with localDplayId := id } else s2) := by
    rw [noteLocal, hfields.1, if_neg h.localName]
  rw [addPlayer, hhost]
  show (s2.noteLocal id name >>= _) = _
  rw [hlocal]
  by_cases hl : name = s.localPlayerName
  · rw [if_pos hl, if_pos hl]
    show (updatePlayerArmies s2.players >>= _) = _
    rw [hfields.2, hrun, hs2]
    split <;> rfl
  · rw [if_neg hl, if_neg hl]
    show (updatePlayerArmies s2.players >>= _) = _
    rw [hfields.2, hrun, hs2]
    split <;> rfl

theorem removePlayer_spec (h : Sound s) {id : ℕ} {p : PlayerData} (hp : s.players[id]? = some p) :
    s.removePlayer id = .error .nullHandler ∨
    ∃ m' cs, Numbered (removeAlly id (s.players.erase id)) m' ∧ Silent cs ∧
      s.removePlayer id = .ok ({ s with players := m' }.calling cs) := by
  rw [removePlayer, at_eq hp]
  show (if s.hasHandler = false then _ else _) = _ ∨ ∃ m' cs, _ ∧ _ ∧ (if s.hasHandler = false then _ else _) = _
  by_cases hh : s.hasHandler = false
  · rw [if_pos hh]
    exact Or.inl rfl
  · rw [if_neg hh]
    obtain ⟨m', hrun, hm'⟩ := updatePlayerArmies_spec (wf_removed h.players id)
    have hw : m'.Wf := (wf_removed h.players id).of_core hm'.core
    obtain ⟨cs, hcs, hcall⟩ := s.call_silent (c := .onClearSlot p) rfl
    obtain ⟨cs', hcs', hnotify⟩ :=
      notifyPlayerStatuses_spec (s := { s.call (.onClearSlot p) with players := m' }) hw
    refine Or.inr ⟨m', cs ++ cs', hm', hcs.append hcs', ?_⟩
    show (updatePlayerArmies (removeAlly id (s.players.erase id)) >>= _) = _
    rw [hrun]
    show notifyPlayerStatuses { s.call (.onClearSlot p) with players := m' } = _
    rw [hnotify, hcall, ← calling_calling]
    rfl

theorem renumber_spec (hw : s.players.Wf) :
    ∃ m' cs, Numbered s.players m' ∧ Silent cs ∧
      s.renumber = .ok ({ s with players := m' }.calling cs) := by
  obtain ⟨m', hrun, hm'⟩ := updatePlayerArmies_spec hw
  rw [renumber, hrun]
  show ∃ m' cs, _ ∧ _ ∧ (if s.gameStarted = false then
    notifyPlayerStatuses { s with players := _ } else _) = _
  by_cases hstart : s.gameStarted = false
  · obtain ⟨cs, hcs, hnotify⟩ :=
      notifyPlayerStatuses_spec (s := { s with players := m' }) (hw.of_core hm'.core)
    exact ⟨m', cs, hm', hcs, by rw [if_pos hstart]; exact hnotify⟩
  · refine ⟨m', [], hm', silent_nil, ?_⟩
    rw [if_neg hstart, calling_nil]
    rfl

theorem onAlliancesChanged_spec (h : Sound s) :
    ∃ m' cs, Numbered s.players m' ∧ Silent cs ∧
      s.onAlliancesChanged = .ok ({ s with players := m' }.calling cs).latchDraw := by
  obtain ⟨m', cs, hm', hcs, hrun⟩ := renumber_spec h.players
  refine ⟨m', cs, hm', hcs, ?_⟩
  rw [onAlliancesChanged, hrun]
  exact latchMutualDraw_eq (h.renumbered hm' cs)

end GameMonitor2

/-! ### Alliances -/

/-- A player without what alliance events change. -/
def PlayerData.unallied (p : PlayerData) : PlayerData :=
  { p with allies := ∅, battleroomTeamSelection := 5 }

/-- Only alliances and battleroom teams differ. -/
structure Edited (m m' : Players) : Prop where
  same : ∀ k : ℕ, (m'[k]?).map PlayerData.unallied = (m[k]?).map PlayerData.unallied
  wf : m'.Wf

section edited

variable {m m' : Players}

theorem Edited.lookup (h : Edited m m') {k : ℕ} {p' : PlayerData} (hp' : m'[k]? = some p') :
    ∃ p, m[k]? = some p ∧ p.unallied = p'.unallied := by
  have hk := h.same k
  rw [hp', Option.map_some] at hk
  exact Option.map_eq_some_iff.mp hk.symm

theorem Edited.lookup_back (h : Edited m m') {k : ℕ} {p : PlayerData} (hp : m[k]? = some p) :
    ∃ p', m'[k]? = some p' ∧ p'.unallied = p.unallied := by
  have hk := h.same k
  rw [hp, Option.map_some] at hk
  exact Option.map_eq_some_iff.mp hk

theorem Edited.sameKeys (h : Edited m m') : SameKeys m m' := by
  intro k
  constructor
  · intro hx
    obtain ⟨p', hp'⟩ := hx
    obtain ⟨p, hp, -⟩ := h.lookup hp'
    exact ⟨p, hp⟩
  · intro hx
    obtain ⟨p, hp⟩ := hx
    obtain ⟨p', hp', -⟩ := h.lookup_back hp
    exact ⟨p', hp'⟩

theorem Edited.trans {m1 m2 m3 : Players} (h : Edited m1 m2) (h' : Edited m2 m3) : Edited m1 m3 :=
  ⟨fun k => (h'.same k).trans (h.same k), h'.wf⟩

theorem edited_insert (hw : m.Wf) {k : ℕ} {p p' : PlayerData} (hp : m[k]? = some p)
    (hsame : p'.unallied = p.unallied) (hall : ∀ a ∈ p'.allies, ∃ q : PlayerData, m[a]? = some q) :
    Edited m (m.insert k p') where
  same := by
    intro a
    rw [Table.getElem?_insert]
    by_cases ha : a = k
    · rw [if_pos ha, ha, hp, Option.map_some, Option.map_some, hsame]
    · rw [if_neg ha]
  wf := by
    have hid : p'.dplayid = p.dplayid := by
      have h := congrArg PlayerData.dplayid hsame
      exact h
    exact hw.replace hp hid hall

theorem edited_modifyAllies (hw : m.Wf) (id : ℕ) (f : Std.ExtTreeSet ℕ → Std.ExtTreeSet ℕ)
    (hf : ∀ (allies : Std.ExtTreeSet ℕ) (a : ℕ), a ∈ f allies → a ∈ allies ∨ ∃ q : PlayerData, m[a]? = some q) :
    Edited m (GameMonitor2.modifyAllies m id f) := by
  unfold GameMonitor2.modifyAllies
  cases hp : m[id]? with
  | none => exact ⟨fun k => rfl, hw⟩
  | some p =>
    refine edited_insert hw hp rfl ?_
    intro a ha
    rcases hf p.allies a ha with hold | hnew
    · exact hw.allies id p hp a hold
    · exact hnew

theorem mem_of_mem_insert_set {S : Std.ExtTreeSet ℕ} {n a : ℕ} (h : a ∈ S.insert n) : a ∈ S ∨ a = n := by
  rw [Std.ExtTreeSet.mem_insert, compare_eq_iff_eq] at h
  rcases h with h | h
  · exact Or.inr h.symm
  · exact Or.inl h

theorem edited_insertAlly (hw : m.Wf) (id : ℕ) {n : ℕ} (hn : ∃ q : PlayerData, m[n]? = some q) :
    Edited m (GameMonitor2.modifyAllies m id (·.insert n)) := by
  refine edited_modifyAllies hw id _ ?_
  intro allies a ha
  rcases mem_of_mem_insert_set ha with h | h
  · exact Or.inl h
  · rw [h]
    exact Or.inr hn

theorem edited_eraseAlly (hw : m.Wf) (id n : ℕ) :
    Edited m (GameMonitor2.modifyAllies m id (·.erase n)) :=
  edited_modifyAllies hw id _ fun _ _ ha => Or.inl (Std.ExtTreeSet.mem_of_mem_erase ha)

theorem getPlayerDpidByName_mem (hw : m.Wf) {name : Text} (hne : getPlayerDpidByName m name ≠ 0) :
    ∃ q : PlayerData, m[getPlayerDpidByName m name]? = some q := by
  unfold getPlayerDpidByName at hne ⊢
  cases hf : m.toList.find? fun kp => kp.2.name = name with
  | none =>
    rw [hf] at hne
    exact absurd rfl hne
  | some kp =>
    obtain ⟨k, p⟩ := kp
    have hp := Table.mem_toList.mp (List.mem_of_find?_eq_some hf)
    simp only []
    rw [(hw.key k p hp).1]
    exact ⟨p, hp⟩

theorem updateAlliances_edited (hw : m.Wf) {sender : ℕ} {chat : Text}
    (h : GameMonitor2.updateAlliances m sender chat = some m') : Edited m m' := by
  simp only [GameMonitor2.updateAlliances] at h
  generalize (if sender = 0 then GameMonitor2.chatSender m chat else sender) = sender at h
  split at h
  · cases h
  split at h
  · cases h
  rename_i word _
  split at h
  · cases h
  rename_i hother
  have hmem := getPlayerDpidByName_mem hw fun h0 => hother (Or.inl h0)
  split at h
  · cases h
    exact edited_insertAlly hw _ hmem
  split at h
  · cases h
    exact edited_eraseAlly hw _ _
  · cases h

theorem selectTeam_edited (hw : m.Wf) (fromDplayId : ℕ) (teamNumber : ℤ) (any : Bool) (key : ℕ) :
    Edited m (GameMonitor2.selectTeam fromDplayId teamNumber (m, any) key).1 := by
  have hself : Edited m m := ⟨fun k => rfl, hw⟩
  unfold GameMonitor2.selectTeam
  split
  · rename_i subject object hsubject hobject
    have hsid : subject.dplayid = fromDplayId := (hw.key _ subject hsubject).1
    have hoid : object.dplayid = key := (hw.key _ object hobject).1
    split
    · exact hself
    split
    · have h1 := edited_insertAlly hw fromDplayId (n := object.dplayid) ⟨object, by rw [hoid]; exact hobject⟩
      refine h1.trans (edited_insertAlly h1.wf key ?_)
      obtain ⟨q, hq, -⟩ := h1.lookup_back hsubject
      exact ⟨q, by rw [hsid]; exact hq⟩
    · have h1 := edited_eraseAlly hw fromDplayId object.dplayid
      exact h1.trans (edited_eraseAlly h1.wf key subject.dplayid)
  · exact hself

theorem foldl_selectTeam_edited (fromDplayId : ℕ) (teamNumber : ℤ) (keys : List ℕ) (m : Players)
    (hw : m.Wf) (any : Bool) :
    Edited m (keys.foldl (GameMonitor2.selectTeam fromDplayId teamNumber) (m, any)).1 := by
  induction keys generalizing m any with
  | nil => exact ⟨fun k => rfl, hw⟩
  | cons key keys ih =>
    have h1 := selectTeam_edited hw fromDplayId teamNumber any key
    exact h1.trans (ih _ h1.wf _)

end edited

theorem restated_allies (allies : Std.ExtTreeSet ℕ) (n : ℕ) :
    (if allies.contains n then allies.insert n else allies.erase n) = allies := by
  split
  · rename_i hn
    exact Table.set_insert_eq_self hn
  · rename_i hn
    exact Table.set_erase_eq_self hn

/-- Events that are about alliances. -/
def Event.isAlliance : Event → Bool
  | .chat _ _ => true
  | .alliance _ _ _ => true
  | .teamSelection _ _ => true
  | _ => false

namespace GameMonitor2

variable {s : GameMonitor2}

/-- The table that an alliance event makes of the players, and whether it counts as a change. -/
def allianceEdit (s : GameMonitor2) : Event → Option (Players × Bool)
  | .chat sourceDplayId chat =>
    if s.players.contains sourceDplayId = false then none
    else match updateAlliances s.players sourceDplayId chat with
      | some players => some (players, true)
      | none => some (s.players, false)
  | .alliance subjectDpid objectDpid isAllied =>
    match s.players[subjectDpid]?, s.players[objectDpid]? with
    | some subject, some _ =>
      some (s.players.insert subjectDpid { subject with
        allies := if isAllied then subject.allies.insert objectDpid else subject.allies.erase objectDpid },
        decide (subject.allies.contains objectDpid ≠ isAllied))
    | _, _ => none
  | .teamSelection fromDplayId teamNumber =>
    match s.players[fromDplayId]? with
    | none => none
    | some subject =>
      let players := s.players.insert fromDplayId { subject with battleroomTeamSelection := teamNumber }
      some (players.keys.foldl (selectTeam fromDplayId teamNumber) (players, false))
  | _ => none

theorem allianceEdit_edited (h : Sound s) {e : Event} {m : Players} {changed : Bool}
    (he : s.allianceEdit e = some (m, changed)) : Edited s.players m := by
  have hw := h.players
  have hself : Edited s.players s.players := ⟨fun k => rfl, hw⟩
  cases e with
  | chat sourceDplayId chat =>
    simp only [allianceEdit] at he
    split at he
    · cases he
    split at he
    · rename_i players hupd
      cases he
      exact updateAlliances_edited hw hupd
    · cases he
      exact hself
  | alliance subjectDpid objectDpid isAllied =>
    simp only [allianceEdit] at he
    split at he
    · rename_i subject object hsubject hobject
      cases he
      refine edited_insert hw hsubject rfl ?_
      intro a ha
      simp only [] at ha
      split at ha
      · rcases mem_of_mem_insert_set ha with hold | hnew
        · exact hw.allies _ subject hsubject a hold
        · rw [hnew]
          exact ⟨object, hobject⟩
      · exact hw.allies _ subject hsubject a (Std.ExtTreeSet.mem_of_mem_erase ha)
    · cases he
  | teamSelection fromDplayId teamNumber =>
    simp only [allianceEdit] at he
    split at he
    · cases he
    · rename_i subject hsubject
      have h1 : Edited s.players (s.players.insert fromDplayId
          { subject with battleroomTeamSelection := teamNumber }) :=
        edited_insert hw hsubject rfl fun a ha => hw.allies _ subject hsubject a ha
      have hm := congrArg Prod.fst (Option.some.inj he)
      simp only [] at hm
      rw [← hm]
      exact h1.trans (foldl_selectTeam_edited _ _ _ _ h1.wf false)
  | superEnumPlayerReply dplayId name => cases he
  | createOrForwardPlayer command dplayId name => cases he
  | deletePlayer dplayId => cases he
  | status sourceDplayId mapName maxUnits slot side isWatcher isAI => cases he
  | unitDied sourceDplayId unitId => cases he
  | rejectOther sourceDplayId rejectedDplayId => cases he
  | gameTick sourceDplayId tick => cases he
  | reset => cases he

theorem edit_spec (h : Sound s) {m : Players} (hedit : Edited s.players m) (changed : Bool) :
    ∃ cs, Silent cs ∧
      (changed = false → (if changed = true then onAlliancesChanged { s with players := m }
        else .ok { s with players := m }) = .ok ({ s with players := m }.calling cs)) ∧
      (changed = true → ∃ m', Numbered m m' ∧ (if changed = true then
        onAlliancesChanged { s with players := m } else .ok { s with players := m }) =
          .ok ({ s with players := m' }.calling cs).latchDraw) := by
  cases changed with
  | false =>
    refine ⟨[], silent_nil, ?_, by simp⟩
    intro _
    rw [calling_nil]
    rfl
  | true =>
    obtain ⟨m', cs, hm', hcs, hrun⟩ :=
      onAlliancesChanged_spec (h.setPlayers hedit.wf fun _ => hedit.sameKeys)
    exact ⟨cs, hcs, by simp, fun _ => ⟨m', hm', hrun⟩⟩

/-- Chat edits the alliances after it has been passed on. -/
theorem handle_chat (h : Sound s) (sourceDplayId : ℕ) (chat : Text) :
    (s.allianceEdit (.chat sourceDplayId chat) = none ∧ s.handle (.chat sourceDplayId chat) = .ok s) ∨
    ∃ m changed cs, s.allianceEdit (.chat sourceDplayId chat) = some (m, changed) ∧ Edited s.players m ∧
      Silent cs ∧
      (changed = false → s.handle (.chat sourceDplayId chat) = .ok ({ s with players := m }.calling cs)) ∧
      (changed = true → ∃ m', Numbered m m' ∧
        s.handle (.chat sourceDplayId chat) = .ok ({ s with players := m' }.calling cs).latchDraw) := by
  simp only [allianceEdit, handle, onChat]
  by_cases hc : s.players.contains sourceDplayId = false
  · exact Or.inl ⟨if_pos hc, if_pos hc⟩
  · rw [if_neg hc, if_neg hc]
    obtain ⟨cs, hcs, hcall⟩ := s.call_silent (c := .onChat chat (sourceDplayId = s.localDplayId)) rfl
    rw [hcall]
    have hs1 : Sound (s.calling cs) := h.calling cs
    cases hupd : updateAlliances s.players sourceDplayId chat with
    | none =>
      have hupd' : updateAlliances (s.calling cs).players sourceDplayId chat = none := hupd
      refine Or.inr ⟨s.players, false, cs, rfl, ⟨fun k => rfl, h.players⟩, hcs, ?_, by simp⟩
      rw [hupd']
      exact fun _ => rfl
    | some m =>
      have hupd' : updateAlliances (s.calling cs).players sourceDplayId chat = some m := hupd
      have hedit := updateAlliances_edited h.players hupd
      obtain ⟨m', cs', hm', hcs', hrun⟩ :=
        onAlliancesChanged_spec (hs1.setPlayers hedit.wf fun _ => hedit.sameKeys)
      refine Or.inr ⟨m, true, cs ++ cs', rfl, hedit, hcs.append hcs', by simp, fun _ => ⟨m', hm', ?_⟩⟩
      rw [hupd']
      show onAlliancesChanged { s.calling cs with players := m } = _
      rw [hrun, ← calling_calling]
      rfl

/-- An event that is no more than its edit. -/
theorem handle_edit (h : Sound s) {e : Event} (hnone : s.allianceEdit e = none → s.handle e = .ok s)
    (hsome : ∀ m changed, s.allianceEdit e = some (m, changed) → s.handle e =
      if changed = true then onAlliancesChanged { s with players := m } else .ok { s with players := m }) :
    (s.allianceEdit e = none ∧ s.handle e = .ok s) ∨
    ∃ m changed cs, s.allianceEdit e = some (m, changed) ∧ Edited s.players m ∧ Silent cs ∧
      (changed = false → s.handle e = .ok ({ s with players := m }.calling cs)) ∧
      (changed = true → ∃ m', Numbered m m' ∧
        s.handle e = .ok ({ s with players := m' }.calling cs).latchDraw) := by
  cases hedit : s.allianceEdit e with
  | none => exact Or.inl ⟨rfl, hnone hedit⟩
  | some mc =>
    obtain ⟨m, changed⟩ := mc
    have hm := allianceEdit_edited h hedit
    obtain ⟨cs, hcs, hno, hyes⟩ := edit_spec h hm changed
    rw [hsome m changed hedit]
    exact Or.inr ⟨m, changed, cs, rfl, hm, hcs, hno, hyes⟩

/-- Alliance events: the edit, and a renumbering if something has changed. -/
theorem handle_alliance (h : Sound s) {e : Event} (he : e.isAlliance = true) :
    (s.allianceEdit e = none ∧ s.handle e = .ok s) ∨
    ∃ m changed cs, s.allianceEdit e = some (m, changed) ∧ Edited s.players m ∧ Silent cs ∧
      (changed = false → s.handle e = .ok ({ s with players := m }.calling cs)) ∧
      (changed = true → ∃ m', Numbered m m' ∧
        s.handle e = .ok ({ s with players := m' }.calling cs).latchDraw) := by
  cases e with
  | chat sourceDplayId chat => exact handle_chat h sourceDplayId chat
  | alliance subjectDpid objectDpid isAllied =>
    apply handle_edit h
    · intro hedit
      simp only [allianceEdit] at hedit
      simp only [handle, onAlliance]
      cases hsubject : s.players[subjectDpid]? with
      | none => rfl
      | some subject =>
        cases hobject : s.players[objectDpid]? with
        | none => rfl
        | some object =>
          rw [hsubject, hobject] at hedit
          cases hedit
    · intro m changed hedit
      simp only [allianceEdit] at hedit
      split at hedit
      · rename_i subject object hsubject hobject
        cases hedit
        simp only [handle, onAlliance, hsubject, hobject, decide_eq_true_eq]
        rfl
      · cases hedit
  | teamSelection fromDplayId teamNumber =>
    apply handle_edit h
    · intro hedit
      simp only [allianceEdit] at hedit
      simp only [handle, onTeamSelection]
      cases hsubject : s.players[fromDplayId]? with
      | none => rfl
      | some subject =>
        rw [hsubject] at hedit
        cases hedit
    · intro m changed hedit
      simp only [allianceEdit] at hedit
      split at hedit
      · cases hedit
      · rename_i subject hsubject
        simp only [Option.some.injEq] at hedit
        simp only [handle, onTeamSelection, hsubject, hedit]
        rfl
  | superEnumPlayerReply dplayId name => cases he
  | createOrForwardPlayer command dplayId name => cases he
  | deletePlayer dplayId => cases he
  | status sourceDplayId mapName maxUnits slot side isWatcher isAI => cases he
  | unitDied sourceDplayId unitId => cases he
  | rejectOther sourceDplayId rejectedDplayId => cases he
  | gameTick sourceDplayId tick => cases he
  | reset => cases he

/-! ### Latching changes the result only -/

/-- The state with another result and further calls. -/
def withResult (s : GameMonitor2) (r : GameResult) (cs : List Call) : GameMonitor2 :=
  { s with gameResult := r, calls := s.calls ++ cs }

theorem withResult_self (s : GameMonitor2) : s.withResult s.gameResult [] = s := by
  simp [withResult]

theorem Sound.withResult (h : Sound s) (r : GameResult) (cs : List Call) : Sound (s.withResult r cs) :=
  ⟨h.host, h.localName, h.players, h.frozen⟩

/-- What latching a result does: nothing, once there is one. -/
inductive Latch (s : GameMonitor2) (winningTeamNumber : ℤ) : GameMonitor2 → Prop
  | again : s.gameResult.status ≠ .NOT_READY → Latch s winningTeamNumber s
  | void (r : GameResult) (cs : List Call) : s.gameResult.status = .NOT_READY →
      winningTeamNumber < 0 ∨ s.armyResults winningTeamNumber = [] →
      r.status = .VOID_RESULT → Latch s winningTeamNumber (s.withResult r cs)
  | ready (tick : ℕ) (cs : List Call) : s.gameResult.status = .NOT_READY → 0 ≤ winningTeamNumber →
      s.armyResults winningTeamNumber ≠ [] →
      Latch s winningTeamNumber
        (s.withResult ⟨.READY_RESULT, s.armyResults winningTeamNumber, tick⟩ cs)

theorem latch_negative (hs : s.gameResult.status = .NOT_READY) {w : ℤ} (hw : w < 0) :
    s.latchEndGameResult w =
      { s with gameResult := ⟨.VOID_RESULT, [], getMostRecentGameTick s.players⟩ } := by
  unfold latchEndGameResult
  rw [if_neg (not_not.mpr hs)]
  simp only [if_pos hw]

theorem latchEndGameResult_spec (s : GameMonitor2) (w : ℤ) : Latch s w (s.latchEndGameResult w) := by
  unfold latchEndGameResult
  by_cases hstatus : s.gameResult.status = .NOT_READY
  · rw [if_neg (not_not.mpr hstatus)]
    by_cases hw : w < 0
    · have hvoid := Latch.void (s := s) ⟨.VOID_RESULT, [], getMostRecentGameTick s.players⟩ [] hstatus
        (Or.inl hw) rfl
      simp only [if_pos hw]
      simpa [withResult] using hvoid
    · simp only [if_neg hw]
      rw [call_eq]
      by_cases hres : s.armyResults w = []
      · rw [if_pos hres]
        exact Latch.void _ _ hstatus (Or.inr hres) rfl
      · rw [if_neg hres]
        exact Latch.ready _ _ hstatus (not_lt.mp hw) hres
  · rw [if_pos hstatus]
    exact Latch.again hstatus

theorem Latch.eq_withResult {w : ℤ} {s' : GameMonitor2} (h : Latch s w s') :
    ∃ r cs, s' = s.withResult r cs := by
  cases h with
  | again => exact ⟨_, _, (withResult_self s).symm⟩
  | void r cs => exact ⟨r, cs, rfl⟩
  | ready tick cs => exact ⟨_, cs, rfl⟩

theorem latchEndGameTick_eq (s : GameMonitor2) (tick : ℕ) :
    ∃ r, s.latchEndGameTick tick = s.withResult r [] ∧ r.status = s.gameResult.status ∧
      r.results = s.gameResult.results ∧ 0 < r.endGameTick := by
  unfold latchEndGameTick
  split
  · refine ⟨⟨s.gameResult.status, s.gameResult.results, if tick = 0 then 1 else tick⟩,
      by rw [withResult, List.append_nil], rfl, rfl, ?_⟩
    show 0 < if tick = 0 then 1 else tick
    split
    · exact Nat.one_pos
    · rename_i h
      exact Nat.pos_of_ne_zero h
  · rename_i h
    exact ⟨_, (withResult_self s).symm, rfl, rfl, Nat.pos_of_ne_zero h⟩

theorem sound_latched {s' : GameMonitor2} (h : Sound s) {w : ℤ} (hl : Latch s w s') : Sound s' := by
  obtain ⟨r, cs, rfl⟩ := hl.eq_withResult
  exact Sound.withResult h r cs

theorem sound_latchStart (h : Sound s) : Sound s.latchStart := by
  unfold latchStart
  split
  · exact sound_latched h (latchEndGameResult_spec s _)
  · exact h

/-! ### The course of the game -/

theorem contains_eq_true_iff {m : Players} {k : ℕ} :
    m.contains k = true ↔ ∃ p : PlayerData, m[k]? = some p := by
  cases hp : m[k]? with
  | none => simp [Table.contains_eq_false.mpr hp]
  | some p => simp [Table.contains_of_getElem? hp]

theorem kill_eq {id : ℕ} {p : PlayerData} (hp : s.players[id]? = some p) :
    s.kill id = { s with players := s.players.insert id { p with isDead := true } } := by
  simp only [kill, hp]

theorem advanceTick_cases (s : GameMonitor2) (id tick : ℕ) :
    s.advanceTick id tick = s ∨ ∃ p, s.players[id]? = some p ∧
      s.advanceTick id tick = { s with players := s.players.insert id { p with tick } } := by
  unfold advanceTick
  cases hp : s.players[id]? with
  | none => exact Or.inl rfl
  | some p =>
    simp only []
    split
    · exact Or.inr ⟨p, rfl, rfl⟩
    · exact Or.inl rfl

theorem advanceTick_fields (s : GameMonitor2) (id tick : ℕ) :
    (s.advanceTick id tick).frozenPlayers = s.frozenPlayers ∧
      (s.advanceTick id tick).gameStarted = s.gameStarted ∧
      (s.advanceTick id tick).gameResult = s.gameResult ∧ (s.advanceTick id tick).calls = s.calls ∧
      (s.advanceTick id tick).hasHandler = s.hasHandler := by
  rcases advanceTick_cases s id tick with heq | ⟨p, -, heq⟩
  · rw [heq]
    exact ⟨rfl, rfl, rfl, rfl, rfl⟩
  · rw [heq]
    exact ⟨rfl, rfl, rfl, rfl, rfl⟩

theorem sound_kill (h : Sound s) (id : ℕ) : Sound (s.kill id) := by
  cases hp : s.players[id]? with
  | none => simpa only [kill, hp] using h
  | some p =>
    rw [kill_eq hp]
    exact h.setPlayers (h.players.replace hp rfl (h.players.allies id p hp)) fun _ => sameKeys_insert hp

theorem sound_advanceTick (h : Sound s) (id tick : ℕ) : Sound (s.advanceTick id tick) := by
  rcases advanceTick_cases s id tick with heq | ⟨p, hp, heq⟩
  · rw [heq]
    exact h
  · rw [heq]
    exact h.setPlayers (h.players.replace hp rfl (h.players.allies id p hp)) fun _ => sameKeys_insert hp

/-- The deferred end, if it is due. -/
def latchDue (s : GameMonitor2) : GameMonitor2 :=
  if s.gameResult.endGameTick > 0 ∧
      int32 ((getMostRecentGameTick s.players : ℤ) - s.gameResult.endGameTick) ≥ 0 then s.latchVerdict
  else s

theorem latchIfDue_eq (h : Sound s) : s.latchIfDue = .ok s.latchDue := by
  unfold latchIfDue latchDue
  split
  · exact latchIfEnded_eq h
  · rfl

/-- The players are frozen. -/
def freeze (s : GameMonitor2) : GameMonitor2 :=
  { s with frozenPlayers := s.players, gameStarted := true }

theorem sound_freeze (h : Sound s) : Sound s.freeze :=
  ⟨h.host, h.localName, h.players, fun _ _ => Iff.rfl⟩

theorem startGame_spec (h : Sound s) (tick : ℕ) :
    ∃ cs, Silent cs ∧ s.startGame tick = .ok (s.freeze.calling cs).latchStart := by
  obtain ⟨cs, hcs, hnotify⟩ := notifyPlayerStatuses_spec (sound_freeze h).players
  obtain ⟨cs', hcs', hcall⟩ := (s.freeze.calling cs).call_silent (c := .onGameStarted tick true) rfl
  refine ⟨cs ++ cs', hcs.append hcs', ?_⟩
  have hsound : Sound (s.freeze.calling (cs ++ cs')) := (sound_freeze h).calling _
  have hstart : s.startGame tick = (s.freeze.notifyPlayerStatuses >>= fun t =>
      (t.call (.onGameStarted tick true)).checkEndGameCondition >>= fun v => match v with
        | some _ => .ok ((t.call (.onGameStarted tick true)).latchEndGameResult (-1))
        | none => .ok (t.call (.onGameStarted tick true))) := rfl
  rw [hstart, hnotify]
  show ((s.freeze.calling cs).call (.onGameStarted tick true)).checkEndGameCondition >>= _ = _
  rw [hcall, calling_calling, (verdict_spec hsound).1, latchStart]
  show (match (s.freeze.calling (cs ++ cs')).verdict with | some _ => _ | none => _) = _
  cases (s.freeze.calling (cs ++ cs')).verdict <;> rfl

theorem launchGame_spec (s : GameMonitor2) (tick : ℕ) :
    ∃ cs, Silent cs ∧ s.launchGame tick = { s with gameLaunched := true }.calling cs := by
  unfold launchGame
  split
  · rename_i hlaunched
    refine ⟨[], silent_nil, ?_⟩
    rw [calling_nil, ← hlaunched]
  · exact call_silent _ rfl

theorem onUnitDied_eq (h : Sound s) (sourceDplayId unitId : ℕ) :
    s.onUnitDied sourceDplayId unitId =
      if s.players.contains sourceDplayId = false then .ok s
      else if s.maxUnits = 0 then .error .divisionByZero
      else if unitId % s.maxUnits = 1 then .ok (s.kill sourceDplayId).latchDeath
      else .ok s := by
  unfold onUnitDied
  have hsound := sound_kill h sourceDplayId
  have hlatch : ((s.kill sourceDplayId).checkEndGameCondition >>= fun v => match v with
      | some winningTeamNumber =>
        if winningTeamNumber > 0 then .ok ((s.kill sourceDplayId).latchEndGameTick
          ((getMostRecentGameTick (s.kill sourceDplayId).players +
            (s.kill sourceDplayId).drawGameTicks) % 2 ^ 32))
        else .ok ((s.kill sourceDplayId).latchEndGameResult winningTeamNumber)
      | none => .ok (s.kill sourceDplayId)) = .ok (s.kill sourceDplayId).latchDeath := by
    rw [(verdict_spec hsound).1, latchDeath]
    show (match (s.kill sourceDplayId).verdict with | some w => _ | none => _) = _
    cases (s.kill sourceDplayId).verdict with
    | none => rfl
    | some w =>
      simp only []
      split <;> rfl
  rw [← hlatch]
  rfl

theorem onRejectOther_eq (h : Sound s) (sourceDplayId rejectedDplayId : ℕ) :
    s.onRejectOther sourceDplayId rejectedDplayId =
      if s.players.contains sourceDplayId = false ∨ s.players.contains rejectedDplayId = false then .ok s
      else if s.gameStarted = false then s.removePlayer rejectedDplayId
      else .ok (s.kill rejectedDplayId).latchVerdict := by
  unfold onRejectOther
  rw [latchIfEnded_eq (sound_kill h rejectedDplayId)]
  rfl

theorem onDplayDeletePlayer_eq (h : Sound s) (dplayId : ℕ) :
    s.onDplayDeletePlayer dplayId =
      if dplayId = 0 ∨ s.players.contains dplayId = false then .ok s
      else if s.gameStarted = false then s.removePlayer dplayId
      else .ok s.latchVerdict := by
  unfold onDplayDeletePlayer
  rw [latchIfEnded_eq h]
  rfl

theorem onHostStatus_spec (s : GameMonitor2) (sourceDplayId : ℕ) (mapName : Text) (maxUnits : ℕ) :
    ∃ mn mu cs, Silent cs ∧ s.onHostStatus sourceDplayId mapName maxUnits =
      { s with mapName := mn, maxUnits := mu }.calling cs := by
  unfold onHostStatus
  split
  · obtain ⟨cs, hcs, hcall⟩ := call_silent { s with mapName, maxUnits }
      (c := .onGameSettings mapName maxUnits s.hostPlayerName s.localPlayerName) rfl
    exact ⟨mapName, maxUnits, cs, hcs, hcall⟩
  · exact ⟨s.mapName, s.maxUnits, [], silent_nil, by rw [calling_nil]⟩

/-- The status packet makes the numbers be made anew. -/
def restates (p : PlayerData) (side : ℤ) (isWatcher : Bool) : Prop :=
  p.side < 0 ∨ p.isWatcher ≠ isWatcher ∨ p.side ≠ side

instance (p : PlayerData) (side : ℤ) (isWatcher : Bool) : Decidable (restates p side isWatcher) :=
  inferInstanceAs (Decidable (_ ∨ _ ∨ _))

/-- The player `p` as its status packet describes it. -/
def described (p : PlayerData) (slot : ℕ) (side : ℤ) (isWatcher isAI : Bool) : PlayerData :=
  { p with isAI, slotNumber := int32 slot, side, isWatcher }

theorem onStatus_eq {id : ℕ} {p : PlayerData} (hp : s.players[id]? = some p) (hstart : s.gameStarted = false)
    (mapName : Text) (maxUnits slot : ℕ) (side : ℤ) (isWatcher isAI : Bool) :
    s.onStatus id mapName maxUnits slot side isWatcher isAI =
      if p.side < 0 ∨ p.isWatcher ≠ isWatcher ∨ p.side ≠ side then
        renumber { s with players := s.players.insert id (described p slot side isWatcher isAI) } >>=
          fun t => .ok (t.onHostStatus id mapName maxUnits)
      else .ok (onHostStatus { s with
        players := s.players.insert id { p with isAI, slotNumber := int32 slot } } id mapName maxUnits) := by
  unfold onStatus described
  generalize int32 (slot : ℤ) = n
  rw [hp]
  show (if s.gameStarted = true then _ else _) = _
  rw [if_neg (by rw [hstart]; decide)]
  rfl

theorem onStatus_spec (h : Sound s) {id : ℕ} {p : PlayerData} (hp : s.players[id]? = some p)
    (hstart : s.gameStarted = false) (mapName : Text) (maxUnits slot : ℕ) (side : ℤ)
    (isWatcher isAI : Bool) :
    ∃ m' mn mu cs, Silent cs ∧ s.onStatus id mapName maxUnits slot side isWatcher isAI =
        .ok ({ s with players := m', mapName := mn, maxUnits := mu }.calling cs) ∧
      (restates p side isWatcher ∧
          Numbered (s.players.insert id (described p slot side isWatcher isAI)) m' ∨
        ¬ restates p side isWatcher ∧ p.isWatcher = isWatcher ∧
          m' = s.players.insert id (described p slot side isWatcher isAI)) := by
  rw [onStatus_eq hp hstart]
  by_cases hc : p.side < 0 ∨ p.isWatcher ≠ isWatcher ∨ p.side ≠ side
  · have hw : Players.Wf (s.players.insert id (described p slot side isWatcher isAI)) :=
      h.players.replace hp rfl (h.players.allies id p hp)
    obtain ⟨m', cs, hm', hcs, hrun⟩ := renumber_spec (s := { s with
      players := s.players.insert id (described p slot side isWatcher isAI) }) hw
    obtain ⟨mn, mu, cs', hcs', hhost⟩ :=
      onHostStatus_spec ({ s with players := m' }.calling cs) id mapName maxUnits
    refine ⟨m', mn, mu, cs ++ cs', hcs.append hcs', ?_, Or.inl ⟨hc, hm'⟩⟩
    rw [if_pos hc, hrun]
    show Except.ok (({ s with players := m' }.calling cs).onHostStatus id mapName maxUnits) = _
    rw [hhost, ← calling_calling]
    rfl
  · have hsame : p.isWatcher = isWatcher ∧ p.side = side := by
      constructor
      · by_contra hne
        exact hc (Or.inr (Or.inl hne))
      · by_contra hne
        exact hc (Or.inr (Or.inr hne))
    have heq : { p with isAI, slotNumber := int32 slot } = described p slot side isWatcher isAI := by
      rw [described, ← hsame.1, ← hsame.2]
    obtain ⟨mn, mu, cs, hcs, hhost⟩ := onHostStatus_spec { s with
      players := s.players.insert id (described p slot side isWatcher isAI) } id mapName maxUnits
    refine ⟨_, mn, mu, cs, hcs, ?_, Or.inr ⟨hc, hsame.1, rfl⟩⟩
    rw [if_neg hc, heq, hhost]

theorem onGameTick_starts (h : Sound s) {id tick : ℕ} (hc : s.players.contains id = true)
    (hstart : s.gameStarted = false) (htick : tick > s.gameStartsAfterTickCount) :
    ∃ cs, Silent cs ∧ s.onGameTick id tick =
      .ok (((({ s with gameLaunched := true }.freeze).calling cs).latchStart.advanceTick id tick).latchDue) := by
  obtain ⟨cs, hcs, hlaunch⟩ := launchGame_spec s tick
  have h1 : Sound ({ s with gameLaunched := true }.calling cs) := ⟨h.host, h.localName, h.players, h.frozen⟩
  obtain ⟨cs', hcs', hrun⟩ := startGame_spec h1 tick
  refine ⟨cs ++ cs', hcs.append hcs', ?_⟩
  have hcond : ({ s with gameLaunched := true }.calling cs).gameStarted = false ∧
      tick > ({ s with gameLaunched := true }.calling cs).gameStartsAfterTickCount := ⟨hstart, htick⟩
  have hfreeze : (({ s with gameLaunched := true }.calling cs).freeze).calling cs' =
      ({ s with gameLaunched := true }.freeze).calling (cs ++ cs') := by
    rw [← calling_calling]
    rfl
  have hlaunched : Sound { s with gameLaunched := true } := ⟨h.host, h.localName, h.players, h.frozen⟩
  have hlatched := sound_advanceTick
    (sound_latchStart ((sound_freeze hlaunched).calling (cs ++ cs'))) id tick
  unfold onGameTick
  rw [if_neg (by rw [hc]; decide), hlaunch]
  show ((if _ then _ else _) >>= _) = _
  rw [if_pos hcond, hrun, hfreeze]
  exact latchIfDue_eq hlatched

theorem onGameTick_goesOn (h : Sound s) {id tick : ℕ} (hc : s.players.contains id = true)
    (hno : ¬ (s.gameStarted = false ∧ tick > s.gameStartsAfterTickCount)) :
    s.onGameTick id tick = .ok ((s.launchGame tick).advanceTick id tick).latchDue := by
  obtain ⟨cs, -, hlaunch⟩ := launchGame_spec s tick
  have h1 : Sound ({ s with gameLaunched := true }.calling cs) := ⟨h.host, h.localName, h.players, h.frozen⟩
  have hcond : ¬ (({ s with gameLaunched := true }.calling cs).gameStarted = false ∧
      tick > ({ s with gameLaunched := true }.calling cs).gameStartsAfterTickCount) := hno
  unfold onGameTick
  rw [if_neg (by rw [hc]; decide), hlaunch]
  show ((if _ then _ else _) >>= _) = _
  rw [if_neg hcond]
  exact latchIfDue_eq (sound_advanceTick h1 id tick)

end GameMonitor2

end Gpgnet4TA.App
