import Gpgnet4TA.App.MonitorInvariant

/-!
# Mutual draws

While the players left are of several frozen teams, a change of alliances ends in a mutual draw
when all of them then have one team number in the live table. These numbers have just been dealt
out anew, and greedily: there is one team when everybody is allied with the player of the least id,
and alliances among the others do not matter.
-/

namespace Gpgnet4TA.App.GameMonitor2
open Gpgnet4TA.Lib

variable {s s' : GameMonitor2}

/-! ### One team in the live table -/

/-- Everybody active is allied with the first active player. -/
def AllWithFirst (m : Players) : Prop :=
  ∃ k0, m.First k0 ∧ ∀ (k : ℕ) (p : PlayerData), m[k]? = some p → p.isActive = true →
    k = k0 ∨ m.Mutual k0 k

theorem exists_first {m : Players} {k : ℕ} {p : PlayerData} (hp : m[k]? = some p)
    (hact : p.isActive = true) : ∃ k0, m.First k0 := by
  classical
  have hex : ∃ k, ∃ p : PlayerData, m[k]? = some p ∧ p.isActive = true := ⟨k, p, hp, hact⟩
  obtain ⟨p0, hp0, hact0⟩ := Nat.find_spec hex
  refine ⟨Nat.find hex, ⟨p0, hp0, hact0⟩, ?_⟩
  intro a q hq hactq
  exact Nat.find_min' hex ⟨q, hq, hactq⟩

theorem first_of_core {m m' : Players} (h : resetNumbers m' = resetNumbers m) {k : ℕ} (hk : m.First k) :
    m'.First k := by
  obtain ⟨⟨p, hp, hact⟩, hle⟩ := hk
  obtain ⟨p', hp', hcore⟩ := core_lookup h.symm hp
  refine ⟨⟨p', hp', by rw [isActive_of_core hcore]; exact hact⟩, ?_⟩
  intro a q hq hactq
  obtain ⟨q', hq', hcore'⟩ := core_lookup h hq
  exact hle a q' hq' (by rw [isActive_of_core hcore']; exact hactq)

theorem oneTeam_iff {m m' : Players} (h : Numbered m m') (hs : s.players = m')
    (hact : ∃ k, s.Active k) : (∃ t, s.OneTeam s.players t) ↔ AllWithFirst s.players := by
  rw [hs]
  obtain ⟨k1, p1, hp1, hact1⟩ := hact
  rw [hs] at hp1
  obtain ⟨q1, hq1, hcore1⟩ := core_lookup h.core hp1
  obtain ⟨k0, hk0⟩ := exists_first hq1 (by rw [isActive_of_core hcore1]; exact hact1)
  have hk0' : m'.First k0 := first_of_core h.core hk0
  obtain ⟨p0, hp0, hact0⟩ := hk0'.1
  have hteam0 : p0.teamNumber = 2 := (h.first k0 k0 p0 hk0 hp0 hact0).mpr (Or.inl rfl)
  constructor
  · intro hx
    obtain ⟨t, ht⟩ := hx
    refine ⟨k0, hk0', ?_⟩
    obtain ⟨q, hq, hqt⟩ := ht k0 ⟨p0, by rw [hs]; exact hp0, hact0⟩
    have ht2 : t = 2 := by
      have heq : q = p0 := Option.some.inj (hq.symm.trans hp0)
      rw [← hqt, heq, hteam0]
    intro k p hp hactp
    obtain ⟨q', hq', hqt'⟩ := ht k ⟨p, by rw [hs]; exact hp, hactp⟩
    have heq : q' = p := Option.some.inj (hq'.symm.trans hp)
    rw [heq, ht2] at hqt'
    rcases (h.first k0 k p hk0 hp hactp).mp hqt' with hk | hmut
    · exact Or.inl hk
    · exact Or.inr (mutual_of_core h.core hmut)
  · intro hx
    obtain ⟨k0', hfirst, hall⟩ := hx
    have hsame : k0' = k0 := First.unique hfirst hk0'
    refine ⟨2, ?_⟩
    intro k hx
    obtain ⟨p, hp, hactp⟩ := hx
    rw [hs] at hp
    refine ⟨p, hp, (h.first k0 k p hk0 hp hactp).mpr ?_⟩
    rcases hall k p hp hactp with hk | hmut
    · exact Or.inl (hk.trans hsame)
    · rw [hsame] at hmut
      exact Or.inr (mutual_of_core h.core.symm hmut)

/-! ### The draw -/

/-- The event changes an alliance (for a chat line: it declares one), which makes the monitor look for
a draw. -/
def ChangesAlliance (s : GameMonitor2) (e : Event) : Prop := ∃ m, s.allianceEdit e = some (m, true)

/-- The verdict while the players left are of several frozen teams. -/
theorem verdict_split (h : Sound s) (hstart : s.gameStarted = true) (hact : ∃ k, s.Active k)
    (hteams : ∀ t, ¬ s.OneTeam s.frozenPlayers t) :
    (s.verdict = some (-1) ∧ ∃ t, s.OneTeam s.players t) ∨
      (s.verdict = none ∧ ∀ t, ¬ s.OneTeam s.players t) := by
  obtain ⟨k, hk⟩ := hact
  have hv := (verdict_spec h).2
  generalize s.verdict = v at hv
  cases hv with
  | notStarted hno => exact absurd (hstart.symm.trans hno) (by decide)
  | nobody _ hnone => exact absurd hk (hnone k)
  | won _ _ hteam => exact absurd hteam (hteams _)
  | draw _ _ _ hteam => exact Or.inl ⟨rfl, _, hteam⟩
  | goesOn _ _ _ hnone => exact Or.inr ⟨rfl, hnone⟩

theorem latchDraw_void_iff {b : GameMonitor2} (hb : Sound b) (hstart : b.gameStarted = true)
    (hstatus : b.gameResult.status = .NOT_READY) (hact : ∃ k, b.Active k)
    (hteams : ∀ t, ¬ b.OneTeam b.frozenPlayers t) :
    b.latchDraw.players = b.players ∧
      (b.latchDraw.gameResult.status = .VOID_RESULT ↔ ∃ t, b.OneTeam b.players t) := by
  rcases verdict_split hb hstart hact hteams with ⟨hv, hteam⟩ | ⟨hv, hno⟩
  · have hdraw : b.latchDraw = b.latchEndGameResult (-1) := by
      rw [latchDraw, hv]
      rfl
    rw [hdraw, latch_negative hstatus (by decide)]
    exact ⟨rfl, fun _ => hteam, fun _ => rfl⟩
  · have hsame : b.latchDraw = b := by rw [latchDraw, hv]
    rw [hsame]
    refine ⟨rfl, ?_, ?_⟩
    · intro hvoid
      rw [hstatus] at hvoid
      cases hvoid
    · intro h
      obtain ⟨t, ht⟩ := h
      exact absurd ht (hno t)

theorem numbered_active {m m' : Players} (hedit : Edited s.players m) (hm' : Numbered m m') (cs : List Call)
    (k : ℕ) : (({ s with players := m' }).calling cs).Active k ↔ s.Active k := by
  constructor
  · intro h
    obtain ⟨p', hp', hact⟩ := h
    obtain ⟨p, hp, hcore⟩ := core_lookup hm'.core hp'
    obtain ⟨q, hq, hsame⟩ := hedit.lookup hp
    have hqp := congrArg PlayerData.isActive hsame
    exact ⟨q, hq, hqp.trans ((isActive_of_core hcore).trans hact)⟩
  · intro h
    obtain ⟨q, hq, hact⟩ := h
    obtain ⟨p, hp, hsame⟩ := hedit.lookup_back hq
    obtain ⟨p', hp', hcore⟩ := core_lookup hm'.core.symm hp
    have hpq := congrArg PlayerData.isActive hsame
    exact ⟨p', hp', (isActive_of_core hcore).trans (hpq.trans hact)⟩

/-- While the players left are of several frozen teams, an event about alliances ends in a mutual
draw exactly when it changes one and everybody is then allied with the first of the players left. -/
theorem mutual_draw_iff {c : Setup} (h : Reachable c s) (hstart : s.gameStarted = true)
    (hstatus : s.gameResult.status = .NOT_READY) (hact : ∃ k, s.Active k)
    (hteams : ∀ t, ¬ s.OneTeam s.frozenPlayers t) {e : Event} (he : e.isAlliance = true)
    (hstep : s.step e = some s') :
    s'.gameResult.status = .VOID_RESULT ↔ s.ChangesAlliance e ∧ AllWithFirst s'.players := by
  have hs := h.valid.sound
  have hok := ok_of_step hstep
  rcases handle_alliance hs he with ⟨hnone, hrun⟩ | ⟨m, changed, cs, hedit, hedited, hcs, hno, hyes⟩
  · rw [hok] at hrun
    cases hrun
    simp [ChangesAlliance, hnone, hstatus]
  · cases changed with
    | false =>
      have hrun := hno rfl
      rw [hok] at hrun
      cases hrun
      have hst : (({ s with players := m }).calling cs).gameResult.status = .NOT_READY := hstatus
      simp [ChangesAlliance, hedit, hst]
    | true =>
      obtain ⟨m', hm', hrun⟩ := hyes rfl
      rw [hok] at hrun
      cases hrun
      have hb := (hs.setPlayers hedited.wf fun _ => hedited.sameKeys).renumbered hm' cs
      have hlive := numbered_active hedited hm' cs
      have hact' : ∃ k, (({ s with players := m' }).calling cs).Active k := by
        obtain ⟨k, hk⟩ := hact
        exact ⟨k, (hlive k).mpr hk⟩
      have hteams' : ∀ t, ¬ (({ s with players := m' }).calling cs).OneTeam s.frozenPlayers t :=
        fun t ht => hteams t fun k hk => ht k ((hlive k).mpr hk)
      obtain ⟨hplayers, hvoid⟩ := latchDraw_void_iff hb hstart hstatus hact' hteams'
      have hteam := oneTeam_iff hm' (s := ({ s with players := m' }).calling cs) rfl hact'
      rw [hvoid, hplayers, hteam]
      exact ⟨fun hfirst => ⟨⟨m, hedit⟩, hfirst⟩, fun hfirst => hfirst.2⟩

/-! ### Not everybody has agreed -/

/-- Every two active players are allied with each other. -/
def AllAgreed (s : GameMonitor2) : Prop := ∀ k a, s.Active k → s.Active a → k ≠ a → s.players.Mutual k a

def trioEvents : List Event :=
  [.createOrForwardPlayer 8 1 "a".toList, .createOrForwardPlayer 8 2 "b".toList,
    .createOrForwardPlayer 8 3 "c".toList, .gameTick 1 11, .alliance 1 2 true, .alliance 2 1 true,
    .alliance 1 3 true]

/-- What is looked at below of a player. -/
structure Glimpse where
  id : ℕ
  active : Bool
  allies : List ℕ
  frozenTeam : Option ℕ
  deriving DecidableEq

def summary (s : GameMonitor2) : List Glimpse :=
  s.players.toList.map fun kp =>
    ⟨kp.1, kp.2.isActive, kp.2.allies.toList, (s.frozenPlayers[kp.1]?).map (·.teamNumber)⟩

theorem mem_summary {k : ℕ} {active : Bool} {allies : List ℕ} {team : Option ℕ}
    (h : ⟨k, active, allies, team⟩ ∈ s.summary) :
    ∃ p : PlayerData, s.players[k]? = some p ∧ p.isActive = active ∧ p.allies.toList = allies ∧
      (s.frozenPlayers[k]?).map (·.teamNumber) = team := by
  unfold summary at h
  obtain ⟨⟨a, p⟩, hmem, heq⟩ := List.mem_map.mp h
  simp only [Glimpse.mk.injEq] at heq
  obtain ⟨rfl, hact, hall, hteam⟩ := heq
  exact ⟨p, Table.mem_toList.mp hmem, hact, hall, hteam⟩

theorem not_oneTeam {k a t u : ℕ} {allies allies' : List ℕ} {rest : List Glimpse}
    (hsum : s.summary = ⟨k, true, allies, some t⟩ :: ⟨a, true, allies', some u⟩ :: rest) (htu : t ≠ u) :
    (∃ k, s.Active k) ∧ ∀ w, ¬ s.OneTeam s.frozenPlayers w := by
  have hk : ⟨k, true, allies, some t⟩ ∈ s.summary := by simp [hsum]
  have ha : ⟨a, true, allies', some u⟩ ∈ s.summary := by simp [hsum]
  obtain ⟨p, hp, hact, -, hteam⟩ := mem_summary hk
  obtain ⟨p', hp', hact', -, hteam'⟩ := mem_summary ha
  refine ⟨⟨k, p, hp, hact⟩, ?_⟩
  intro w hw
  obtain ⟨q, hq, hqw⟩ := hw k ⟨p, hp, hact⟩
  obtain ⟨q', hq', hqw'⟩ := hw a ⟨p', hp', hact'⟩
  rw [hq, Option.map_some, Option.some.injEq] at hteam
  rw [hq', Option.map_some, Option.some.injEq] at hteam'
  exact htu (hteam.symm.trans (hqw.trans (hqw'.symm.trans hteam')))

theorem trio_run : ∃ s s' : GameMonitor2, Reachable duel s ∧ s.step (.alliance 3 1 true) = some s' ∧
    s.gameStarted = true ∧ s.gameResult.status = .NOT_READY ∧
    s.summary = [⟨1, true, [2, 3], some 2⟩, ⟨2, true, [1], some 3⟩, ⟨3, true, [], some 4⟩] ∧
    s'.summary = [⟨1, true, [2, 3], some 2⟩, ⟨2, true, [1], some 3⟩, ⟨3, true, [1], some 4⟩] ∧
    s'.gameResult.status = .VOID_RESULT := by
  have heval : (run step (.new duel) trioEvents).map (fun s : GameMonitor2 =>
      (s.gameStarted, s.gameResult.status, s.summary)) = some (true, .NOT_READY,
        [⟨1, true, [2, 3], some 2⟩, ⟨2, true, [1], some 3⟩, ⟨3, true, [], some 4⟩]) := by decide +kernel
  have hnext : (run step (.new duel) (trioEvents ++ [.alliance 3 1 true])).map (fun s : GameMonitor2 =>
      (s.gameResult.status, s.summary)) = some (.VOID_RESULT,
        [⟨1, true, [2, 3], some 2⟩, ⟨2, true, [1], some 3⟩, ⟨3, true, [1], some 4⟩]) := by decide +kernel
  obtain ⟨s, hrun, hs⟩ := Option.map_eq_some_iff.mp heval
  obtain ⟨s', hrun', hs'⟩ := Option.map_eq_some_iff.mp hnext
  simp only [Prod.mk.injEq] at hs hs'
  rw [run_append, hrun] at hrun'
  have hstep : s.step (.alliance 3 1 true) = some s' := by simpa [run] using hrun'
  exact ⟨s, s', reachable_of_run (by decide) (by decide) hrun, hstep, hs.1, hs.2.1, hs.2.2, hs'.2, hs'.1⟩

theorem mutual_draw_trio : ∃ s s' : GameMonitor2, s.step (.alliance 3 1 true) = some s' ∧
    s'.gameResult.status = .VOID_RESULT ∧ s.ChangesAlliance (.alliance 3 1 true) ∧
    AllWithFirst s'.players := by
  obtain ⟨s, s', hreach, hstep, hstart, hstatus, hsum, -, hvoid⟩ := trio_run
  obtain ⟨hact, hteams⟩ := not_oneTeam hsum (by decide : (2 : ℕ) ≠ 3)
  exact ⟨s, s', hstep, hvoid, (mutual_draw_iff hreach hstart hstatus hact hteams rfl hstep).mp hvoid⟩

/-- `a` is allied with `b` and with `c`, which are not allied with each other: the draw is found. -/
theorem draw_without_agreement : ∃ s s' : GameMonitor2, Reachable duel s ∧ s.gameStarted = true ∧
    s.gameResult.status = .NOT_READY ∧ (∃ k, s.Active k) ∧ (∀ t, ¬ s.OneTeam s.frozenPlayers t) ∧
    s.step (.alliance 3 1 true) = some s' ∧ (∃ k, s'.Active k) ∧
    (∀ t, ¬ s'.OneTeam s'.frozenPlayers t) ∧
    ¬ (s'.gameResult.status = .VOID_RESULT ↔ s'.AllAgreed) := by
  obtain ⟨s, s', hreach, hstep, hstart, hstatus, hsum, hsum', hvoid⟩ := trio_run
  obtain ⟨hact, hteams⟩ := not_oneTeam hsum (by decide : (2 : ℕ) ≠ 3)
  obtain ⟨hact', hteams'⟩ := not_oneTeam hsum' (by decide : (2 : ℕ) ≠ 3)
  refine ⟨s, s', hreach, hstart, hstatus, hact, hteams, hstep, hact', hteams', ?_⟩
  intro hiff
  have h2 : ⟨2, true, [1], some 3⟩ ∈ s'.summary := by rw [hsum']; simp
  have h3 : ⟨3, true, [1], some 4⟩ ∈ s'.summary := by rw [hsum']; simp
  obtain ⟨p, hp, hactp, hall, -⟩ := mem_summary h2
  obtain ⟨q, hq, hactq, -, -⟩ := mem_summary h3
  obtain ⟨p', -, hp', -, hmem, -⟩ := hiff.mp hvoid 2 3 ⟨p, hp, hactp⟩ ⟨q, hq, hactq⟩ (by decide)
  have heq : p' = p := Option.some.inj (hp'.symm.trans hp)
  rw [heq, ← Std.ExtTreeSet.mem_toList, hall] at hmem
  simp at hmem

end Gpgnet4TA.App.GameMonitor2
