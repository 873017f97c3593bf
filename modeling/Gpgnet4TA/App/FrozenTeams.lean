import Gpgnet4TA.App.Verdict

/-!
# Alliances after the start do not count

Two runs from one state of a started game, with the same events except for those about
alliances, are followed side by side. What decides the result (the frozen players, who is dead
or watching, the ticks) is the same in both; the live alliances and numbers can only make a
mutual draw of it.
-/

namespace Gpgnet4TA.App.GameMonitor2
open Gpgnet4TA.Lib

/-! ### States that are alike -/

/-- What the result depends on in a live player. -/
structure Vitals where
  isDead : Bool
  isWatcher : Bool
  tick : ℕ

def vitals (m : Players) : Table Vitals := m.map fun _ p => ⟨p.isDead, p.isWatcher, p.tick⟩

theorem getElem?_vitals (m : Players) (k : ℕ) :
    (vitals m)[k]? = (m[k]?).map fun p => ⟨p.isDead, p.isWatcher, p.tick⟩ := by
  rw [vitals, Std.ExtTreeMap.getElem?_map]

/-- The same but for alliances, live numbers and notifications. -/
structure Alike (s t : GameMonitor2) : Prop where
  started : s.gameStarted = true ∧ t.gameStarted = true
  frozen : t.frozenPlayers = s.frozenPlayers
  result : t.gameResult = s.gameResult
  maxUnits : t.maxUnits = s.maxUnits
  drawGameTicks : t.drawGameTicks = s.drawGameTicks
  realNames : t.playerRealNames = s.playerRealNames
  vitals : vitals t.players = vitals s.players

section alike

variable {s t u : GameMonitor2}

theorem Alike.refl (hstart : s.gameStarted = true) : Alike s s := ⟨⟨hstart, hstart⟩, rfl, rfl, rfl, rfl, rfl, rfl⟩

theorem Alike.symm (h : Alike s t) : Alike t s :=
  ⟨h.started.symm, h.frozen.symm, h.result.symm, h.maxUnits.symm, h.drawGameTicks.symm, h.realNames.symm,
    h.vitals.symm⟩

theorem Alike.trans (h : Alike s t) (h' : Alike t u) : Alike s u :=
  ⟨⟨h.started.1, h'.started.2⟩, h'.frozen.trans h.frozen, h'.result.trans h.result,
    h'.maxUnits.trans h.maxUnits, h'.drawGameTicks.trans h.drawGameTicks,
    h'.realNames.trans h.realNames, h'.vitals.trans h.vitals⟩

theorem Alike.calling (h : Alike s t) (cs cs' : List Call) : Alike (s.calling cs) (t.calling cs') :=
  ⟨h.started, h.frozen, h.result, h.maxUnits, h.drawGameTicks, h.realNames, h.vitals⟩

theorem Alike.withResult (h : Alike s t) (r : GameResult) (cs cs' : List Call) :
    Alike (s.withResult r cs) (t.withResult r cs') :=
  ⟨h.started, h.frozen, rfl, h.maxUnits, h.drawGameTicks, h.realNames, h.vitals⟩

theorem Alike.setPlayers (h : Alike s t) {m m' : Players}
    (hv : GameMonitor2.vitals m' = GameMonitor2.vitals m) :
    Alike { s with players := m } { t with players := m' } :=
  ⟨h.started, h.frozen, h.result, h.maxUnits, h.drawGameTicks, h.realNames, hv⟩

theorem Alike.lookup (h : Alike s t) {k : ℕ} {p : PlayerData} (hp : s.players[k]? = some p) :
    ∃ q : PlayerData, t.players[k]? = some q ∧ q.isDead = p.isDead ∧ q.isWatcher = p.isWatcher ∧
      q.tick = p.tick := by
  have hk := congrArg (fun m : Table Vitals => m[k]?) h.vitals
  simp only [getElem?_vitals, hp, Option.map_some] at hk
  obtain ⟨q, hq, heq⟩ := Option.map_eq_some_iff.mp hk
  simp only [Vitals.mk.injEq] at heq
  exact ⟨q, hq, heq⟩

theorem Alike.absent (h : Alike s t) {k : ℕ} (hp : s.players[k]? = none) : t.players[k]? = none := by
  have hk := congrArg (fun m : Table Vitals => m[k]?) h.vitals
  simpa only [getElem?_vitals, hp, Option.map_none, Option.map_eq_none_iff] using hk

theorem Alike.contains (h : Alike s t) (k : ℕ) : t.players.contains k = s.players.contains k := by
  cases hp : s.players[k]? with
  | none => rw [Table.contains_eq_false.mpr hp, Table.contains_eq_false.mpr (h.absent hp)]
  | some p =>
    obtain ⟨q, hq, -⟩ := h.lookup hp
    rw [Table.contains_of_getElem? hp, Table.contains_of_getElem? hq]

theorem getMostRecentGameTick_eq (m : Players) :
    getMostRecentGameTick m =
      (vitals m).toList.foldl (fun tick kv => if kv.2.tick > tick then kv.2.tick else tick) 0 := by
  rw [vitals, Std.ExtTreeMap.toList_map, List.foldl_map]
  rfl

theorem Alike.mostRecentGameTick (h : Alike s t) :
    getMostRecentGameTick t.players = getMostRecentGameTick s.players := by
  rw [getMostRecentGameTick_eq, getMostRecentGameTick_eq, h.vitals]

theorem Alike.active (h : Alike s t) {k : ℕ} (hk : s.Active k) : t.Active k := by
  obtain ⟨p, hp, hact⟩ := hk
  obtain ⟨q, hq, hdead, hwatch, -⟩ := h.lookup hp
  refine ⟨q, hq, ?_⟩
  rw [isActive_iff] at hact ⊢
  exact ⟨hwatch.trans hact.1, hdead.trans hact.2⟩

theorem Alike.oneTeam (h : Alike s t) {w : ℕ} (hw : s.OneTeam s.frozenPlayers w) :
    t.OneTeam t.frozenPlayers w := by
  intro k hk
  rw [h.frozen]
  exact hw k (h.symm.active hk)

/-! ### Latching in states that are alike -/

theorem Alike.latchEndGameResult (h : Alike s t) (w : ℤ) :
    Alike (s.latchEndGameResult w) (t.latchEndGameResult w) := by
  have hres : t.armyResults w = s.armyResults w := by
    unfold armyResults armyResult
    rw [h.frozen, h.realNames]
  unfold GameMonitor2.latchEndGameResult
  rw [h.result, hres, h.mostRecentGameTick]
  split
  · exact h
  split
  · have hw := h.withResult ⟨.VOID_RESULT, [], getMostRecentGameTick s.players⟩ [] []
    simpa only [GameMonitor2.withResult, List.append_nil] using hw
  · simp only []
    rw [call_eq, call_eq]
    refine Alike.calling ?_ _ _
    exact ⟨h.started, h.frozen, rfl, h.maxUnits, h.drawGameTicks, h.realNames, h.vitals⟩

theorem Alike.latchEndGameTick (h : Alike s t) (tick : ℕ) :
    Alike (s.latchEndGameTick tick) (t.latchEndGameTick tick) := by
  unfold GameMonitor2.latchEndGameTick
  rw [h.result]
  split
  · exact ⟨h.started, h.frozen, rfl, h.maxUnits, h.drawGameTicks, h.realNames, h.vitals⟩
  · exact h

theorem Alike.verdict (h : Alike s t) (hs : Sound s) (ht : Sound t) :
    t.verdict = s.verdict ∨
      (s.verdict = some (-1) ∧ t.verdict = none) ∨ (s.verdict = none ∧ t.verdict = some (-1)) := by
  have hvs := (verdict_spec hs).2
  have hvt := (verdict_spec ht).2
  generalize s.verdict = v at hvs
  generalize t.verdict = w at hvt
  cases hvs with
  | notStarted hno => exact absurd (h.started.1.symm.trans hno) (by decide)
  | nobody _ hnone =>
    cases hvt with
    | notStarted hno => exact absurd (h.started.2.symm.trans hno) (by decide)
    | nobody => exact Or.inl rfl
    | won _ hk => exact absurd (h.symm.active hk) (hnone _)
    | draw _ hk => exact absurd (h.symm.active hk) (hnone _)
    | goesOn _ hk => exact absurd (h.symm.active hk) (hnone _)
  | @won k team _ hk hteam =>
    cases hvt with
    | notStarted hno => exact absurd (h.started.2.symm.trans hno) (by decide)
    | nobody _ hnone => exact absurd (h.active hk) (hnone k)
    | won _ _ hteam' =>
      obtain ⟨q, hq, hqt⟩ := h.oneTeam hteam k (h.active hk)
      obtain ⟨q', hq', hqt'⟩ := hteam' k (h.active hk)
      have heq : q' = q := Option.some.inj (hq'.symm.trans hq)
      refine Or.inl ?_
      rw [← hqt', ← hqt, heq]
    | draw _ _ hno => exact absurd (h.oneTeam hteam) (hno team)
    | goesOn _ _ hno => exact absurd (h.oneTeam hteam) (hno team)
  | @draw k _ _ hk hno =>
    cases hvt with
    | notStarted hno => exact absurd (h.started.2.symm.trans hno) (by decide)
    | nobody _ hnone => exact absurd (h.active hk) (hnone k)
    | @won _ team _ _ hteam => exact absurd (h.symm.oneTeam hteam) (hno team)
    | draw => exact Or.inl rfl
    | goesOn => exact Or.inr (Or.inl ⟨rfl, rfl⟩)
  | @goesOn k _ hk hno =>
    cases hvt with
    | notStarted hno => exact absurd (h.started.2.symm.trans hno) (by decide)
    | nobody _ hnone => exact absurd (h.active hk) (hnone k)
    | @won _ team _ _ hteam => exact absurd (h.symm.oneTeam hteam) (hno team)
    | draw => exact Or.inr (Or.inr ⟨rfl, rfl⟩)
    | goesOn => exact Or.inl rfl

/-- A draw that does not make the state void finds a result there already. -/
theorem latch_of_not_void {w : ℤ} (hw : w < 0)
    (hv : (s.latchEndGameResult w).gameResult.status ≠ .VOID_RESULT) : s.latchEndGameResult w = s := by
  unfold GameMonitor2.latchEndGameResult at hv ⊢
  by_cases hstatus : s.gameResult.status ≠ .NOT_READY
  · rw [if_pos hstatus]
  · rw [if_neg hstatus, if_pos hw] at hv
    exact absurd rfl hv

/-- A look at the verdict in two states that are alike, neither of which becomes void. -/
theorem Alike.judge (h : Alike s t) (hs : Sound s) (ht : Sound t)
    (judge : GameMonitor2 → Option ℤ → GameMonitor2) (hsame : ∀ v, Alike (judge s v) (judge t v))
    (hnone : ∀ x, judge x none = x) (hdraw : ∀ x, judge x (some (-1)) = x.latchEndGameResult (-1))
    (hvs : (judge s s.verdict).gameResult.status ≠ .VOID_RESULT)
    (hvt : (judge t t.verdict).gameResult.status ≠ .VOID_RESULT) :
    Alike (judge s s.verdict) (judge t t.verdict) := by
  rcases h.verdict hs ht with heq | ⟨hs1, ht1⟩ | ⟨hs1, ht1⟩
  · rw [heq]
    exact hsame s.verdict
  · rw [hs1, hdraw] at hvs
    rw [hs1, ht1, hdraw, hnone, latch_of_not_void (by decide) hvs]
    exact h
  · rw [ht1, hdraw] at hvt
    rw [hs1, ht1, hdraw, hnone, latch_of_not_void (by decide) hvt]
    exact h

theorem latchVerdict_elim (s : GameMonitor2) : s.latchVerdict = s.verdict.elim s s.latchEndGameResult := by
  rw [GameMonitor2.latchVerdict]
  cases s.verdict <;> rfl

theorem latchDeath_elim (s : GameMonitor2) : s.latchDeath = s.verdict.elim s fun w =>
    if w > 0 then s.latchEndGameTick ((getMostRecentGameTick s.players + s.drawGameTicks) % 2 ^ 32)
    else s.latchEndGameResult w := by
  rw [GameMonitor2.latchDeath]
  cases s.verdict <;> rfl

theorem Alike.latchVerdict (h : Alike s t) (hs : Sound s) (ht : Sound t)
    (hvs : s.latchVerdict.gameResult.status ≠ .VOID_RESULT)
    (hvt : t.latchVerdict.gameResult.status ≠ .VOID_RESULT) : Alike s.latchVerdict t.latchVerdict := by
  rw [latchVerdict_elim] at hvs hvt
  rw [latchVerdict_elim, latchVerdict_elim]
  refine h.judge hs ht (fun x v => v.elim x x.latchEndGameResult) ?_ (fun _ => rfl) (fun _ => rfl) hvs hvt
  intro v
  cases v with
  | none => exact h
  | some w => exact h.latchEndGameResult w

theorem Alike.latchDeath (h : Alike s t) (hs : Sound s) (ht : Sound t)
    (hvs : s.latchDeath.gameResult.status ≠ .VOID_RESULT)
    (hvt : t.latchDeath.gameResult.status ≠ .VOID_RESULT) : Alike s.latchDeath t.latchDeath := by
  rw [latchDeath_elim] at hvs hvt
  rw [latchDeath_elim, latchDeath_elim]
  refine h.judge hs ht (fun x v => v.elim x fun w =>
    if w > 0 then x.latchEndGameTick ((getMostRecentGameTick x.players + x.drawGameTicks) % 2 ^ 32)
    else x.latchEndGameResult w) ?_ (fun _ => rfl) (fun _ => rfl) hvs hvt
  intro v
  cases v with
  | none => exact h
  | some w =>
    simp only [Option.elim_some]
    split
    · rw [h.mostRecentGameTick, h.drawGameTicks]
      exact h.latchEndGameTick _
    · exact h.latchEndGameResult w

theorem Alike.latchDue (h : Alike s t) (hs : Sound s) (ht : Sound t)
    (hvs : s.latchDue.gameResult.status ≠ .VOID_RESULT)
    (hvt : t.latchDue.gameResult.status ≠ .VOID_RESULT) : Alike s.latchDue t.latchDue := by
  unfold GameMonitor2.latchDue at hvs hvt ⊢
  rw [h.result, h.mostRecentGameTick] at hvt ⊢
  split
  · rename_i hdue
    rw [if_pos hdue] at hvs hvt
    exact h.latchVerdict hs ht hvs hvt
  · exact h

/-! ### Events in states that are alike -/

theorem vitals_insert {m m' : Players} (h : GameMonitor2.vitals m' = GameMonitor2.vitals m) (k : ℕ)
    {p p' : PlayerData} (hdead : p'.isDead = p.isDead) (hwatch : p'.isWatcher = p.isWatcher)
    (htick : p'.tick = p.tick) :
    GameMonitor2.vitals (m'.insert k p') = GameMonitor2.vitals (m.insert k p) := by
  refine Std.ExtTreeMap.ext_getElem? fun a => ?_
  have ha := congrArg (fun x : Table Vitals => x[a]?) h
  simp only [getElem?_vitals] at ha
  rw [getElem?_vitals, getElem?_vitals, Table.getElem?_insert, Table.getElem?_insert]
  split
  · rw [Option.map_some, Option.map_some, hdead, hwatch, htick]
  · exact ha

theorem Alike.kill (h : Alike s t) (id : ℕ) : Alike (s.kill id) (t.kill id) := by
  cases hp : s.players[id]? with
  | none =>
    simp only [GameMonitor2.kill, hp, h.absent hp]
    exact h
  | some p =>
    obtain ⟨q, hq, -, hwatch, htick⟩ := h.lookup hp
    rw [kill_eq hp, kill_eq hq]
    exact h.setPlayers (vitals_insert h.vitals id rfl hwatch htick)

theorem Alike.advanceTick (h : Alike s t) (id tick : ℕ) :
    Alike (s.advanceTick id tick) (t.advanceTick id tick) := by
  unfold GameMonitor2.advanceTick
  cases hp : s.players[id]? with
  | none =>
    rw [h.absent hp]
    exact h
  | some p =>
    obtain ⟨q, hq, hdead, hwatch, htick⟩ := h.lookup hp
    rw [hq]
    simp only [htick]
    split
    · exact h.setPlayers (vitals_insert h.vitals id hdead hwatch rfl)
    · exact h

theorem Alike.launchGame (h : Alike s t) (tick : ℕ) : Alike (s.launchGame tick) (t.launchGame tick) := by
  obtain ⟨cs, -, hcs⟩ := launchGame_spec s tick
  obtain ⟨cs', -, hcs'⟩ := launchGame_spec t tick
  rw [hcs, hcs']
  exact ⟨h.started, h.frozen, h.result, h.maxUnits, h.drawGameTicks, h.realNames, h.vitals⟩

theorem sound_launchGame (h : Sound s) (tick : ℕ) : Sound (s.launchGame tick) := by
  obtain ⟨cs, -, hcs⟩ := launchGame_spec s tick
  rw [hcs]
  exact ⟨h.host, h.localName, h.players, h.frozen⟩

/-- What the events that are not about alliances do in a started game. -/
def play (s : GameMonitor2) : Event → Except Failure GameMonitor2
  | .deletePlayer dplayId =>
    if dplayId = 0 ∨ s.players.contains dplayId = false then .ok s else .ok s.latchVerdict
  | .unitDied sourceDplayId unitId =>
    if s.players.contains sourceDplayId = false then .ok s
    else if s.maxUnits = 0 then .error .divisionByZero
    else if unitId % s.maxUnits = 1 then .ok (s.kill sourceDplayId).latchDeath
    else .ok s
  | .rejectOther sourceDplayId rejectedDplayId =>
    if s.players.contains sourceDplayId = false ∨ s.players.contains rejectedDplayId = false then .ok s
    else .ok (s.kill rejectedDplayId).latchVerdict
  | .gameTick sourceDplayId tick =>
    if s.players.contains sourceDplayId = false then .ok s
    else .ok ((s.launchGame tick).advanceTick sourceDplayId tick).latchDue
  | _ => .ok s

theorem handle_play (h : Sound s) (hstart : s.gameStarted = true) {e : Event} (he : e.isAlliance = false)
    (hreset : e ≠ .reset) : s.handle e = s.play e := by
  cases e with
  | superEnumPlayerReply dplayId name =>
    simp only [handle, onDplaySuperEnumPlayerReply, hstart]
    rfl
  | createOrForwardPlayer command dplayId name =>
    simp only [handle, onDplayCreateOrForwardPlayer, hstart]
    simp [play, pure, Except.pure]
  | deletePlayer dplayId =>
    simp only [handle, play]
    rw [onDplayDeletePlayer_eq h, hstart]
    rfl
  | status sourceDplayId mapName maxUnits slot side isWatcher isAI =>
    simp only [handle, play, onStatus]
    cases s.players[sourceDplayId]? with
    | none => rfl
    | some p =>
      simp only [hstart, if_true]
      rfl
  | chat sourceDplayId chat => cases he
  | alliance subjectDpid objectDpid isAllied => cases he
  | teamSelection fromDplayId teamNumber => cases he
  | unitDied sourceDplayId unitId => exact onUnitDied_eq h sourceDplayId unitId
  | rejectOther sourceDplayId rejectedDplayId =>
    simp only [handle, play]
    rw [onRejectOther_eq h, hstart]
    rfl
  | gameTick sourceDplayId tick =>
    simp only [handle, play]
    by_cases hc : s.players.contains sourceDplayId = false
    · rw [if_pos hc, onGameTick, if_pos hc]
      rfl
    · rw [if_neg hc]
      refine onGameTick_goesOn h (by simpa using hc) ?_
      intro hno
      exact absurd (hstart.symm.trans hno.1) (by decide)
  | reset => exact absurd rfl hreset

theorem Alike.play (h : Alike s t) (hs : Sound s) (ht : Sound t) (e : Event) {s' t' : GameMonitor2}
    (hs' : s.play e = .ok s') (ht' : t.play e = .ok t') (hvs : s'.gameResult.status ≠ .VOID_RESULT)
    (hvt : t'.gameResult.status ≠ .VOID_RESULT) : Alike s' t' := by
  have hidle : ∀ {x y : GameMonitor2}, Except.ok (ε := Failure) s = .ok x →
      Except.ok (ε := Failure) t = .ok y → Alike x y := by
    intro x y hx hy
    cases hx
    cases hy
    exact h
  cases e with
  | deletePlayer dplayId =>
    simp only [GameMonitor2.play, h.contains] at hs' ht'
    split at hs'
    · rename_i hc
      rw [if_pos hc] at ht'
      exact hidle hs' ht'
    · rename_i hc
      rw [if_neg hc] at ht'
      cases hs'
      cases ht'
      exact h.latchVerdict hs ht hvs hvt
  | unitDied sourceDplayId unitId =>
    simp only [GameMonitor2.play, h.contains, h.maxUnits] at hs' ht'
    split at hs'
    · rename_i hc
      rw [if_pos hc] at ht'
      exact hidle hs' ht'
    rename_i hc
    split at hs'
    · cases hs'
    rename_i hunits
    rw [if_neg hc, if_neg hunits] at ht'
    split at hs'
    · rename_i hcom
      rw [if_pos hcom] at ht'
      cases hs'
      cases ht'
      exact (h.kill _).latchDeath (sound_kill hs _) (sound_kill ht _) hvs hvt
    · rename_i hcom
      rw [if_neg hcom] at ht'
      exact hidle hs' ht'
  | rejectOther sourceDplayId rejectedDplayId =>
    simp only [GameMonitor2.play, h.contains] at hs' ht'
    split at hs'
    · rename_i hc
      rw [if_pos hc] at ht'
      exact hidle hs' ht'
    · rename_i hc
      rw [if_neg hc] at ht'
      cases hs'
      cases ht'
      exact (h.kill _).latchVerdict (sound_kill hs _) (sound_kill ht _) hvs hvt
  | gameTick sourceDplayId tick =>
    simp only [GameMonitor2.play, h.contains] at hs' ht'
    split at hs'
    · rename_i hc
      rw [if_pos hc] at ht'
      exact hidle hs' ht'
    · rename_i hc
      rw [if_neg hc] at ht'
      cases hs'
      cases ht'
      exact ((h.launchGame tick).advanceTick _ tick).latchDue
        (sound_advanceTick (sound_launchGame hs tick) _ tick)
        (sound_advanceTick (sound_launchGame ht tick) _ tick) hvs hvt
  | superEnumPlayerReply dplayId name => exact hidle hs' ht'
  | createOrForwardPlayer command dplayId name => exact hidle hs' ht'
  | status sourceDplayId mapName maxUnits slot side isWatcher isAI => exact hidle hs' ht'
  | chat sourceDplayId chat => exact hidle hs' ht'
  | alliance subjectDpid objectDpid isAllied => exact hidle hs' ht'
  | teamSelection fromDplayId teamNumber => exact hidle hs' ht'
  | reset => exact hidle hs' ht'

theorem vitals_edited {m m' : Players} (h : Edited m m') : GameMonitor2.vitals m' = GameMonitor2.vitals m := by
  refine Std.ExtTreeMap.ext_getElem? fun k => ?_
  have hk := congrArg (Option.map fun p : PlayerData => (⟨p.isDead, p.isWatcher, p.tick⟩ : Vitals)) (h.same k)
  rw [Option.map_map, Option.map_map] at hk
  rw [getElem?_vitals, getElem?_vitals]
  exact hk

theorem vitals_numbered {m m' : Players} (h : Numbered m m') : GameMonitor2.vitals m' = GameMonitor2.vitals m := by
  refine Std.ExtTreeMap.ext_getElem? fun k => ?_
  have hk := congrArg (fun x : Players => x[k]?) h.core
  simp only [getElem?_resetNumbers] at hk
  have hk' := congrArg (Option.map fun p : PlayerData => (⟨p.isDead, p.isWatcher, p.tick⟩ : Vitals)) hk
  rw [Option.map_map, Option.map_map] at hk'
  rw [getElem?_vitals, getElem?_vitals]
  exact hk'

/-- An alliance event makes the state void, or changes nothing that matters. -/
theorem alike_alliance (h : Sound s) (hstart : s.gameStarted = true) {e : Event} (he : e.isAlliance = true)
    (hrun : s.handle e = .ok t) (hv : t.gameResult.status ≠ .VOID_RESULT) : Alike s t := by
  have hself := Alike.refl hstart
  rcases handle_alliance h he with ⟨-, hno⟩ | ⟨m, changed, cs, -, hedit, -, hno, hyes⟩
  · rw [hrun] at hno
    cases hno
    exact hself
  · cases changed with
    | false =>
      have hres := hno rfl
      rw [hrun] at hres
      cases hres
      have halike := (hself.setPlayers (vitals_edited hedit)).calling [] cs
      rwa [calling_nil] at halike
    | true =>
      obtain ⟨m', hm', hres⟩ := hyes rfl
      rw [hrun] at hres
      cases hres
      have halike := (hself.setPlayers ((vitals_numbered hm').trans (vitals_edited hedit))).calling [] cs
      rw [calling_nil] at halike
      have hlatch : (({ s with players := m' }).calling cs).latchDraw = ({ s with players := m' }).calling cs := by
        unfold latchDraw at hv ⊢
        cases hverdict : (({ s with players := m' }).calling cs).verdict with
        | none => rfl
        | some w =>
          rw [hverdict] at hv
          simp only [] at hv ⊢
          split
          · rename_i hw
            rw [if_pos hw] at hv
            exact latch_of_not_void hw hv
          · rfl
      rw [hlatch]
      exact halike

end alike

/-! ### Two runs -/

variable {s t s1 t1 : GameMonitor2}

def played (es : List Event) : List Event := es.filter fun e => !e.isAlliance

theorem not_void_of_run {es : List Event} (h : Valid s) (hes : ∀ e ∈ es, e ≠ .reset)
    (hrun : run step s es = some s1) (hv : s1.gameResult.status ≠ .VOID_RESULT) :
    s.gameResult.status ≠ .VOID_RESULT := by
  intro hvoid
  have hr : Runs step InGame s s1 := Runs.of_run es hrun fun _ e he => hes e he
  exact hv ((runs_stay h hr (by rw [hvoid]; decide)).status.trans hvoid)

theorem skip_alliances {es : List Event} (h : Valid s) (hstart : s.gameStarted = true)
    (hes : ∀ e ∈ es, e ≠ .reset) (hrun : run step s es = some s1)
    (hv : s1.gameResult.status ≠ .VOID_RESULT) :
    (played es = [] ∧ Alike s s1) ∨
    ∃ e es' s' s2, played es = e :: played es' ∧ (∀ e ∈ es', e ≠ .reset) ∧ e ≠ .reset ∧
      e.isAlliance = false ∧ Alike s s' ∧ Valid s' ∧ s'.step e = some s2 ∧ run step s2 es' = some s1 := by
  induction es generalizing s with
  | nil =>
    rw [← Option.some.inj hrun]
    exact Or.inl ⟨rfl, .refl hstart⟩
  | cons e es ih =>
    obtain ⟨s2, hstep, hrest⟩ := Option.bind_eq_some_iff.mp hrun
    have hes' : ∀ d ∈ es, d ≠ .reset := fun d hd => hes d (List.mem_cons_of_mem _ hd)
    have h2 : Valid s2 := h.outcome (step_outcome h.sound hstep)
    cases he : e.isAlliance with
    | false =>
      refine Or.inr ⟨e, es, s, s2, ?_, hes', hes e List.mem_cons_self, he, .refl hstart, h, hstep, hrest⟩
      simp [played, he]
    | true =>
      have hplayed : played (e :: es) = played es := by simp [played, he]
      have halike : Alike s s2 :=
        alike_alliance h.sound hstart he (ok_of_step hstep) (not_void_of_run h2 hes' hrest hv)
      rw [hplayed]
      rcases ih h2 halike.started.2 hes' hrest with ⟨hnil, hend⟩ | ⟨d, es', s', s3, h1, h2, h3, h4, h5, h6⟩
      · exact Or.inl ⟨hnil, halike.trans hend⟩
      · exact Or.inr ⟨d, es', s', s3, h1, h2, h3, h4, halike.trans h5, h6⟩

theorem alike_runs (fs : List Event) {es fs' : List Event} (hs : Valid s) (ht : Valid t) (h : Alike s t)
    (hes : ∀ e ∈ es, e ≠ .reset) (hfs : ∀ e ∈ fs', e ≠ .reset) (hp : played es = fs) (hp' : played fs' = fs)
    (hrun : run step s es = some s1) (hrun' : run step t fs' = some t1)
    (hv : s1.gameResult.status ≠ .VOID_RESULT) (hv' : t1.gameResult.status ≠ .VOID_RESULT) :
    Alike s1 t1 := by
  induction fs generalizing s t es fs' with
  | nil =>
    rcases skip_alliances hs h.started.1 hes hrun hv with ⟨-, halike⟩ | ⟨e, es', _, _, hcons, -⟩
    · rcases skip_alliances ht h.started.2 hfs hrun' hv' with ⟨-, halike'⟩ | ⟨e, es', _, _, hcons, -⟩
      · exact halike.symm.trans (h.trans halike')
      · rw [hp'] at hcons
        cases hcons
    · rw [hp] at hcons
      cases hcons
  | cons e fs ih =>
    rcases skip_alliances hs h.started.1 hes hrun hv with
      ⟨hnil, -⟩ | ⟨d, es1, s2, s3, hcons, hes1, hreset, hd, halike, hs2, hstep, hrest⟩
    · rw [hp] at hnil
      cases hnil
    · rcases skip_alliances ht h.started.2 hfs hrun' hv' with
        ⟨hnil, -⟩ | ⟨d', fs1, t2, t3, hcons', hfs1, hreset', hd', halike', ht2, hstep', hrest'⟩
      · rw [hp'] at hnil
        cases hnil
      · rw [hp] at hcons
        rw [hp'] at hcons'
        obtain ⟨hde, hfs2⟩ := List.cons.inj hcons
        obtain ⟨hde', hfs2'⟩ := List.cons.inj hcons'
        have hboth : Alike s2 t2 := halike.symm.trans (h.trans halike')
        have hs3 : Valid s3 := hs2.outcome (step_outcome hs2.sound hstep)
        have ht3 : Valid t3 := ht2.outcome (step_outcome ht2.sound hstep')
        have hrun2 := ok_of_step hstep
        have hrun2' := ok_of_step hstep'
        rw [handle_play hs2.sound hboth.started.1 hd hreset, ← hde] at hrun2
        rw [handle_play ht2.sound hboth.started.2 hd' hreset', ← hde'] at hrun2'
        have hnext : Alike s3 t3 := hboth.play hs2.sound ht2.sound e hrun2 hrun2'
          (not_void_of_run hs3 hes1 hrest hv) (not_void_of_run ht3 hfs1 hrest' hv')
        exact ih hs3 ht3 hnext hes1 hfs1 hfs2.symm hfs2'.symm hrest hrest'

/-- From a started game on, two runs that differ in alliance events only and do not end in a
mutual draw end with the same result. -/
theorem frozen_teams_decide {c : Setup} (h : Reachable c s) (hstart : s.gameStarted = true)
    {es es' : List Event} (hes : ∀ e ∈ es, e ≠ .reset) (hes' : ∀ e ∈ es', e ≠ .reset)
    (hsame : es.filter (fun e => !e.isAlliance) = es'.filter fun e => !e.isAlliance)
    (hrun : run step s es = some s1) (hrun' : run step s es' = some t1)
    (hv : s1.gameResult.status ≠ .VOID_RESULT) (hv' : t1.gameResult.status ≠ .VOID_RESULT) :
    s1.gameResult = t1.gameResult :=
  (alike_runs (played es) h.valid h.valid (.refl hstart) hes hes' rfl hsame.symm hrun hrun' hv hv').result.symm

/-- In the duel `b` asks for an alliance or not before it loses its commander. -/
theorem frozen_teams_decide_duel : ∃ s s1 t1 : GameMonitor2, Reachable duel s ∧ s.gameStarted = true ∧
    run step s [.alliance 2 1 true, .unitDied 2 101, .gameTick 1 17] = some s1 ∧
    run step s [.unitDied 2 101, .gameTick 1 17] = some t1 ∧
    s1.gameResult.status = .READY_RESULT ∧ s1.gameResult = t1.gameResult := by
  have hstart : (run step (.new duel) duelEvents).map (·.gameStarted) = some true := by decide +kernel
  have hone : (run step (.new duel) (duelEvents ++ [.alliance 2 1 true, .unitDied 2 101, .gameTick 1 17])).map
      (·.gameResult.status) = some .READY_RESULT := by decide +kernel
  have htwo : (run step (.new duel) (duelEvents ++ [.unitDied 2 101, .gameTick 1 17])).map
      (·.gameResult.status) = some .READY_RESULT := by decide +kernel
  obtain ⟨s, hrun, hs⟩ := Option.map_eq_some_iff.mp hstart
  obtain ⟨s1, hrun1, hs1⟩ := Option.map_eq_some_iff.mp hone
  obtain ⟨t1, hrun2, ht1⟩ := Option.map_eq_some_iff.mp htwo
  rw [run_append, hrun] at hrun1 hrun2
  have hreach : Reachable duel s := reachable_of_run (by decide) (by decide) hrun
  have hrun3 : run step s [.alliance 2 1 true, .unitDied 2 101, .gameTick 1 17] = some s1 := hrun1
  have hrun4 : run step s [.unitDied 2 101, .gameTick 1 17] = some t1 := hrun2
  refine ⟨s, s1, t1, hreach, hs, hrun3, hrun4, hs1, ?_⟩
  refine frozen_teams_decide hreach hs ?_ ?_ ?_ hrun3 hrun4 (by rw [hs1]; decide) (by rw [ht1]; decide)
  · simp
  · simp
  · rfl

end Gpgnet4TA.App.GameMonitor2
