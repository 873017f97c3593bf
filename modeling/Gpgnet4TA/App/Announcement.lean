import Gpgnet4TA.App.MutualDraw
import Gpgnet4TA.App.Verdict

/-!
# Announcing the end of the game

`onGameEnded` is called when a victory or a forced draw is latched. A mutual draw is latched
without a call, also when the game is over at its start. Otherwise the end is announced once.
-/

namespace Gpgnet4TA.App.GameMonitor2
open Gpgnet4TA.Lib

variable {s s' t : GameMonitor2}

def isGameOver (s : GameMonitor2) : Bool := s.gameResult.status ≠ .NOT_READY

theorem isGameOver_eq_false : s.isGameOver = false ↔ s.gameResult.status = .NOT_READY := by
  simp [isGameOver]

theorem isGameOver_eq_true : s.isGameOver = true ↔ s.gameResult.status ≠ .NOT_READY := by
  simp [isGameOver]

/-! ### The announcements among the calls -/

def Call.ended : Call → Option GameResult
  | .onGameEnded result => some result
  | _ => none

/-- What `onGameEnded` has been called with. -/
def announced (s : GameMonitor2) : List GameResult := s.calls.filterMap Call.ended

theorem filterMap_silent {cs : List Call} (h : Silent cs) : cs.filterMap Call.ended = [] := by
  rw [List.filterMap_eq_nil_iff]
  intro c hc
  have hsilent := h c hc
  cases c with
  | onGameEnded => cases hsilent
  | _ => rfl

theorem announced_append {cs : List Call} (h : Silent cs) (hcalls : s'.calls = s.calls ++ cs) :
    s'.announced = s.announced := by
  rw [announced, announced, hcalls, List.filterMap_append, filterMap_silent h, List.append_nil]

/-! ### Mutual draws -/

/-- The players left are of several frozen teams and of one live team. -/
def Drawn (s : GameMonitor2) : Prop :=
  (∃ k, s.Active k) ∧ (∀ t, ¬ s.OneTeam s.frozenPlayers t) ∧ ∃ t, s.OneTeam s.players t

theorem verdict_draw_iff (h : Sound s) (hstart : s.gameStarted = true) :
    s.verdict = some (-1) ↔ s.Drawn := by
  obtain ⟨-, hv⟩ := verdict_spec h
  constructor
  · intro heq
    rw [heq] at hv
    cases hv with
    | draw _ hact hfrozen hteam => exact ⟨⟨_, hact⟩, hfrozen, _, hteam⟩
  · intro hx
    obtain ⟨hact, hfrozen, hteam⟩ := hx
    rcases verdict_split h hstart hact hfrozen with ⟨heq, -⟩ | ⟨-, hno⟩
    · exact heq
    · obtain ⟨t, ht⟩ := hteam
      exact absurd ht (hno t)

theorem verdict_nonneg (h : Sound s) {w : ℤ} (hw : s.verdict = some w) (hdraw : ¬ s.Drawn) : 0 ≤ w := by
  have hv := verdict_some h hw
  cases hv with
  | nobody => exact le_rfl
  | won => exact Int.natCast_nonneg _
  | draw _ hact hfrozen hteam => exact absurd ⟨⟨_, hact⟩, hfrozen, _, hteam⟩ hdraw

theorem Decided.not_drawn (h : s.Decided) : ¬ s.Drawn := by
  intro hx
  obtain ⟨-, hfrozen, -⟩ := hx
  obtain ⟨t, ht⟩ := h
  exact hfrozen t ht

/-! ### The course of an unfinished game -/

/-- What one step makes of a game that is not over; `draw` tells whether it is a mutual draw. -/
inductive Course (draw : Prop) (s s' : GameMonitor2) : Prop
  | goesOn : ¬ draw → s'.gameResult.status = .NOT_READY → s'.announced = s.announced → Course draw s s'
  | ended : ¬ draw → s'.gameResult.status ≠ .NOT_READY →
      s'.announced = s.announced ++ [s'.gameResult] → Course draw s s'
  | drawn : draw → s'.gameResult.status ≠ .NOT_READY → s'.announced = s.announced → Course draw s s'

theorem Course.after {draw : Prop} (h : Course draw t s') (hcalls : t.announced = s.announced) :
    Course draw s s' := by
  cases h with
  | goesOn hno hstatus heq => exact .goesOn hno hstatus (heq.trans hcalls)
  | ended hno hstatus heq => exact .ended hno hstatus (by rw [heq, hcalls])
  | drawn hyes hstatus heq => exact .drawn hyes hstatus (heq.trans hcalls)

theorem Course.iff {draw draw' : Prop} (h : Course draw s s') (hiff : draw' ↔ draw) :
    Course draw' s s' := by
  have heq : draw' = draw := propext hiff
  rw [heq]
  exact h

theorem latch_announces (hh : s.hasHandler = true) (hs : s.gameResult.status = .NOT_READY) {w : ℤ}
    (hw : 0 ≤ w) :
    ∃ r, r.status ≠ .NOT_READY ∧ s.latchEndGameResult w = s.withResult r [.onGameEnded r] := by
  unfold latchEndGameResult
  rw [if_neg (not_not.mpr hs)]
  simp only [if_neg (not_lt.mpr hw)]
  rw [call_eq, if_pos hh]
  refine ⟨_, ?_, rfl⟩
  dsimp only
  split <;> decide

theorem course_judge (hh : s.hasHandler = true) (hs : s.gameResult.status = .NOT_READY)
    {draw : Prop} {j : GameMonitor2}
    (hdraw : draw → j = s.latchEndGameResult (-1))
    (hother : ¬ draw → (∃ r, r.status = s.gameResult.status ∧ j = s.withResult r []) ∨
      ∃ w, 0 ≤ w ∧ j = s.latchEndGameResult w) : Course draw s j := by
  by_cases hd : draw
  · rw [hdraw hd, latch_negative hs (by decide)]
    exact .drawn hd (fun hno => by cases hno) rfl
  · rcases hother hd with ⟨r, hr, rfl⟩ | ⟨w, hw, rfl⟩
    · exact .goesOn hd (hr.trans hs) (announced_append silent_nil rfl)
    · obtain ⟨r, hr, heq⟩ := latch_announces hh hs hw
      rw [heq]
      refine .ended hd hr ?_
      show (s.calls ++ [Call.onGameEnded r]).filterMap Call.ended = _
      rw [List.filterMap_append]
      rfl

theorem latchVerdict_of_drawn (h : Sound s) (hstart : s.gameStarted = true) (hd : s.Drawn) :
    s.latchVerdict = s.latchEndGameResult (-1) := by
  rw [latchVerdict, (verdict_draw_iff h hstart).mpr hd]

theorem latchDeath_of_drawn (h : Sound s) (hstart : s.gameStarted = true) (hd : s.Drawn) :
    s.latchDeath = s.latchEndGameResult (-1) := by
  rw [latchDeath, (verdict_draw_iff h hstart).mpr hd]
  rfl

theorem latchDraw_of_drawn (h : Sound s) (hstart : s.gameStarted = true) (hd : s.Drawn) :
    s.latchDraw = s.latchEndGameResult (-1) := by
  rw [latchDraw, (verdict_draw_iff h hstart).mpr hd]
  rfl

theorem latchStart_of_drawn (h : Sound s) (hstart : s.gameStarted = true) (hd : s.Drawn) :
    s.latchStart = s.latchEndGameResult (-1) := by
  rw [latchStart, (verdict_draw_iff h hstart).mpr hd]

theorem course_latchVerdict (h : Sound s) (hh : s.hasHandler = true)
    (hs : s.gameResult.status = .NOT_READY) (hstart : s.gameStarted = true) :
    Course s.Drawn s s.latchVerdict := by
  refine course_judge hh hs (latchVerdict_of_drawn h hstart) ?_
  intro hd
  unfold latchVerdict
  cases hv : s.verdict with
  | none => exact Or.inl ⟨_, rfl, (withResult_self s).symm⟩
  | some w => exact Or.inr ⟨w, verdict_nonneg h hv hd, rfl⟩

theorem course_latchDeath (h : Sound s) (hh : s.hasHandler = true)
    (hs : s.gameResult.status = .NOT_READY) (hstart : s.gameStarted = true) :
    Course s.Drawn s s.latchDeath := by
  refine course_judge hh hs (latchDeath_of_drawn h hstart) ?_
  intro hd
  unfold latchDeath
  cases hv : s.verdict with
  | none => exact Or.inl ⟨_, rfl, (withResult_self s).symm⟩
  | some w =>
    simp only []
    split
    · obtain ⟨r, heq, hstatus, -⟩ := latchEndGameTick_eq s
        ((getMostRecentGameTick s.players + s.drawGameTicks) % 2 ^ 32)
      exact Or.inl ⟨r, hstatus, heq⟩
    · exact Or.inr ⟨w, verdict_nonneg h hv hd, rfl⟩

theorem course_latchDraw (h : Sound s) (hh : s.hasHandler = true)
    (hs : s.gameResult.status = .NOT_READY) (hstart : s.gameStarted = true) :
    Course s.Drawn s s.latchDraw := by
  refine course_judge hh hs (latchDraw_of_drawn h hstart) ?_
  intro hd
  have hsame : s.latchDraw = s := by
    unfold latchDraw
    cases hv : s.verdict with
    | none => rfl
    | some w =>
      simp only []
      rw [if_neg (not_lt.mpr (verdict_nonneg h hv hd))]
  rw [hsame]
  exact Or.inl ⟨_, rfl, (withResult_self s).symm⟩

/-! ### Every handler -/

/-- The event makes a mutual draw of the game: the game starts when it is over, or the players of
several frozen teams that are left are of one live team. -/
def EndsInDraw (s : GameMonitor2) : Event → Prop
  | .gameTick sourceDplayId tick => s.players.contains sourceDplayId = true ∧ s.gameStarted = false ∧
    tick > s.gameStartsAfterTickCount ∧ ∃ t, s.OneTeam s.players t
  | .unitDied sourceDplayId unitId => s.gameStarted = true ∧ s.players.contains sourceDplayId = true ∧
    unitId % s.maxUnits = 1 ∧ (s.kill sourceDplayId).Drawn
  | .rejectOther sourceDplayId rejectedDplayId => s.gameStarted = true ∧
    s.players.contains sourceDplayId = true ∧ s.players.contains rejectedDplayId = true ∧
    (s.kill rejectedDplayId).Drawn
  | .deletePlayer dplayId => s.gameStarted = true ∧ s.players.contains dplayId = true ∧ s.Drawn
  | e => s.gameStarted = true ∧ (∃ k, s.Active k) ∧ (∀ t, ¬ s.OneTeam s.frozenPlayers t) ∧
    ∃ m, s.allianceEdit e = some (m, true) ∧ AllWithFirst m

theorem course_quiet {draw : Prop} (hs : s.gameResult.status = .NOT_READY) (hdraw : ¬ draw)
    (hresult : s'.gameResult = s.gameResult) {cs : List Call} (hcs : Silent cs)
    (hcalls : s'.calls = s.calls ++ cs) : Course draw s s' :=
  .goesOn hdraw (by rw [hresult, hs]) (announced_append hcs hcalls)

theorem course_idle {draw : Prop} (hs : s.gameResult.status = .NOT_READY) (hdraw : ¬ draw) :
    Course draw s s :=
  course_quiet hs hdraw rfl silent_nil (List.append_nil _).symm

theorem course_addPlayer (h : Sound s) (hs : s.gameResult.status = .NOT_READY) {draw : Prop}
    (hdraw : ¬ draw) (setter : String) {id : ℕ} (hid : id ≠ 0) (name : Text)
    (hrun : s.addPlayer setter id name = .ok s') : Course draw s s' := by
  obtain ⟨m', -, hok⟩ := addPlayer_spec h setter hid name
  rw [hrun] at hok
  cases hok
  exact course_quiet hs hdraw rfl silent_nil (List.append_nil _).symm

theorem course_removePlayer (h : Sound s) (hs : s.gameResult.status = .NOT_READY) {draw : Prop}
    (hdraw : ¬ draw) {id : ℕ} (hc : s.players.contains id = true)
    (hrun : s.removePlayer id = .ok s') : Course draw s s' := by
  obtain ⟨p, hp⟩ := contains_eq_true_iff.mp hc
  rcases removePlayer_spec h hp with herr | ⟨m', cs, -, hcs, hok⟩
  · rw [hrun] at herr
    cases herr
  · rw [hrun] at hok
    cases hok
    exact course_quiet hs hdraw rfl hcs rfl

theorem course_onStatus (h : Sound s) (hs : s.gameResult.status = .NOT_READY) {draw : Prop}
    (hdraw : ¬ draw) {id : ℕ} {mapName : Text} {maxUnits slot : ℕ} {side : ℤ} {isWatcher isAI : Bool}
    (hrun : s.onStatus id mapName maxUnits slot side isWatcher isAI = .ok s') : Course draw s s' := by
  cases hp : s.players[id]? with
  | none =>
    unfold onStatus at hrun
    rw [hp] at hrun
    cases hrun
    exact course_idle hs hdraw
  | some p =>
    by_cases hstart : s.gameStarted = false
    · obtain ⟨m', mn, mu, cs, hcs, hok, -⟩ :=
        onStatus_spec h hp hstart mapName maxUnits slot side isWatcher isAI
      rw [hrun] at hok
      cases hok
      exact course_quiet hs hdraw rfl hcs rfl
    · unfold onStatus at hrun
      rw [hp] at hrun
      simp only [Bool.not_eq_false] at hstart
      simp only [hstart, if_true] at hrun
      cases hrun
      exact course_idle hs hdraw

theorem allWithFirst_of_core {m m' : Players} (h : resetNumbers m' = resetNumbers m)
    (hall : AllWithFirst m) : AllWithFirst m' := by
  obtain ⟨k0, hfirst, hmut⟩ := hall
  refine ⟨k0, first_of_core h hfirst, ?_⟩
  intro k p' hp' hact
  obtain ⟨p, hp, hcore⟩ := core_lookup h hp'
  rcases hmut k p hp ((isActive_of_core hcore).trans hact) with heq | hk
  · exact Or.inl heq
  · exact Or.inr (mutual_of_core h hk)

/-- After a change of alliances the live teams are those of the changed table. -/
theorem drawn_renumbered_iff {m m' : Players} (hedit : Edited s.players m) (hm' : Numbered m m')
    (cs : List Call) : (({ s with players := m' }).calling cs).Drawn ↔
      (∃ k, s.Active k) ∧ (∀ t, ¬ s.OneTeam s.frozenPlayers t) ∧ AllWithFirst m := by
  set b : GameMonitor2 := ({ s with players := m' }).calling cs with hb
  have hlive : ∀ k, b.Active k ↔ s.Active k := numbered_active hedit hm' cs
  have hact : (∃ k, b.Active k) ↔ ∃ k, s.Active k := exists_congr hlive
  have hteam : ∀ t, b.OneTeam b.frozenPlayers t ↔ s.OneTeam s.frozenPlayers t :=
    fun t => forall_congr' fun k => imp_congr_left (hlive k)
  have hlast : (∃ k, b.Active k) → ((∃ t, b.OneTeam b.players t) ↔ AllWithFirst m) := by
    intro hk
    rw [oneTeam_iff hm' rfl hk]
    exact ⟨allWithFirst_of_core hm'.core.symm, allWithFirst_of_core hm'.core⟩
  unfold Drawn
  rw [forall_congr' fun t => not_congr (hteam t)]
  constructor
  · intro h
    obtain ⟨hk, hfrozen, ht⟩ := h
    exact ⟨hact.mp hk, hfrozen, (hlast hk).mp ht⟩
  · intro h
    obtain ⟨hk, hfrozen, hall⟩ := h
    exact ⟨hact.mpr hk, hfrozen, (hlast (hact.mpr hk)).mpr hall⟩

theorem course_alliance (h : Sound s) (hh : s.hasHandler = true)
    (hs : s.gameResult.status = .NOT_READY) {e : Event} (he : e.isAlliance = true)
    (hrun : s.handle e = .ok s') : Course (s.EndsInDraw e) s s' := by
  have hdraw : s.EndsInDraw e ↔ s.gameStarted = true ∧ (∃ k, s.Active k) ∧
      (∀ t, ¬ s.OneTeam s.frozenPlayers t) ∧ ∃ m, s.allianceEdit e = some (m, true) ∧ AllWithFirst m := by
    cases e <;> first | rfl | cases he
  rcases handle_alliance h he with ⟨hnone, hok⟩ | ⟨m, changed, cs, hedit, hedited, hcs, hno, hyes⟩
  · rw [hrun] at hok
    cases hok
    refine course_idle hs ?_
    rw [hdraw, hnone]
    intro hx
    obtain ⟨-, -, -, m, hm, -⟩ := hx
    cases hm
  · cases changed with
    | false =>
      have hok := hno rfl
      rw [hrun] at hok
      cases hok
      refine course_quiet hs ?_ rfl hcs rfl
      rw [hdraw, hedit]
      intro hx
      obtain ⟨-, -, -, m, hm, -⟩ := hx
      cases hm
    | true =>
      obtain ⟨m', hm', hok⟩ := hyes rfl
      rw [hrun] at hok
      cases hok
      have hb := (h.setPlayers hedited.wf fun _ => hedited.sameKeys).renumbered hm' cs
      have hsilent : ({ s with players := m' }.calling cs).announced = s.announced :=
        announced_append hcs rfl
      by_cases hstart : s.gameStarted = true
      · refine ((course_latchDraw hb hh hs hstart).iff ?_).after hsilent
        rw [hdraw, hedit, drawn_renumbered_iff hedited hm' cs]
        simp [hstart]
      · simp only [Bool.not_eq_true] at hstart
        rw [latchDraw_notStarted hb hstart]
        refine course_quiet hs ?_ rfl hcs rfl
        rw [hdraw, hstart]
        intro hx
        obtain ⟨hno, -⟩ := hx
        cases hno

/-- At the start the frozen players are the players, so that a verdict is one team or none left. -/
theorem verdict_freeze (h : Sound s) (cs : List Call) :
    (∃ w, (s.freeze.calling cs).verdict = some w) ↔ ∃ t, s.OneTeam s.players t := by
  obtain ⟨-, hv⟩ := verdict_spec ((sound_freeze h).calling cs)
  generalize (s.freeze.calling cs).verdict = v at hv
  cases hv with
  | notStarted hno => cases hno
  | nobody _ hnone => exact ⟨fun _ => ⟨0, fun k hk => absurd hk (hnone k)⟩, fun _ => ⟨0, rfl⟩⟩
  | won _ _ hteam => exact ⟨fun _ => ⟨_, hteam⟩, fun _ => ⟨_, rfl⟩⟩
  | draw _ _ _ hteam => exact ⟨fun _ => ⟨_, hteam⟩, fun _ => ⟨_, rfl⟩⟩
  | goesOn _ _ hno _ =>
    constructor
    · intro hx
      obtain ⟨w, hw⟩ := hx
      cases hw
    · intro hx
      obtain ⟨t, ht⟩ := hx
      exact absurd ht (hno t)

theorem latchDue_over (hs : s.gameResult.status ≠ .NOT_READY) : s.latchDue = s := by
  have hlatch : ∀ w, s.latchEndGameResult w = s := fun w => if_pos hs
  unfold latchDue latchVerdict
  split
  · split
    · exact hlatch _
    · rfl
  · rfl

theorem latchDue_fresh (hs : s.gameResult.endGameTick = 0) : s.latchDue = s := by
  unfold latchDue
  rw [if_neg (by omega)]

theorem course_starts (h : Valid s) (hs : s.gameResult.status = .NOT_READY) {id tick : ℕ}
    (hc : s.players.contains id = true) (hnot : s.gameStarted = false) (htick : tick > s.gameStartsAfterTickCount)
    (hrun : s.onGameTick id tick = .ok s') : Course (s.EndsInDraw (.gameTick id tick)) s s' := by
  obtain ⟨cs, hcs, hok⟩ := onGameTick_starts h.sound hc hnot htick
  rw [hrun] at hok
  cases hok
  set l : GameMonitor2 := { s with gameLaunched := true } with hl
  have hsound : Sound l := ⟨h.sound.host, h.sound.localName, h.sound.players, h.sound.frozen⟩
  set b : GameMonitor2 := l.freeze.calling cs with hb
  have hdraw : s.EndsInDraw (.gameTick id tick) ↔ ∃ w, b.verdict = some w := by
    rw [hb, verdict_freeze hsound cs]
    exact ⟨fun hd => hd.2.2.2, fun hd => ⟨hc, hnot, htick, hd⟩⟩
  obtain ⟨-, -, hresult, hcalls, -⟩ := advanceTick_fields b.latchStart id tick
  have hsilent : b.announced = s.announced := announced_append hcs rfl
  have hbs : b.gameResult.status = .NOT_READY := hs
  cases hv : b.verdict with
  | some w =>
    have hlatch : b.latchStart = b.latchEndGameResult (-1) := by
      rw [latchStart, hv]
    rw [latch_negative hbs (by decide)] at hlatch
    have hover : (b.latchStart.advanceTick id tick).gameResult.status ≠ .NOT_READY := by
      rw [hresult, hlatch]
      exact fun hno => by cases hno
    rw [latchDue_over hover]
    refine .drawn (hdraw.mpr ⟨w, hv⟩) hover ?_
    rw [announced, hcalls, hlatch]
    exact hsilent
  | none =>
    have hlatch : b.latchStart = b := by
      rw [latchStart, hv]
    have hfresh : b.gameResult.endGameTick = 0 := by
      have hnew : b.gameResult = .new := h.fresh hnot
      rw [hnew]
      rfl
    rw [latchDue_fresh (by rw [hresult, hlatch, hfresh])]
    refine course_quiet hs ?_ ?_ hcs ?_
    · rw [hdraw, hv]
      intro hx
      obtain ⟨w, hw⟩ := hx
      cases hw
    · rw [hresult, hlatch]
      rfl
    · rw [hcalls, hlatch]
      rfl

theorem course_goesOn (h : Valid s) (hh : s.hasHandler = true) (hs : s.gameResult.status = .NOT_READY)
    {id tick : ℕ} (hc : s.players.contains id = true)
    (hstart : ¬ (s.gameStarted = false ∧ tick > s.gameStartsAfterTickCount))
    (hrun : s.onGameTick id tick = .ok s') : Course (s.EndsInDraw (.gameTick id tick)) s s' := by
  obtain ⟨cs, hcs, hlaunch⟩ := launchGame_spec s tick
  rw [onGameTick_goesOn h.sound hc hstart, hlaunch] at hrun
  cases hrun
  have hdraw : ¬ s.EndsInDraw (.gameTick id tick) := fun hd => hstart ⟨hd.2.1, hd.2.2.1⟩
  set l : GameMonitor2 := { s with gameLaunched := true }.calling cs with hl
  have hvalid : Valid (l.advanceTick id tick) :=
    ((h.launched true).calling cs).moves (move_advanceTick ((h.launched true).calling cs).sound id tick)
  obtain ⟨-, hstarted, hresult, hcalls, hhandler⟩ := advanceTick_fields l id tick
  have hsilent : (l.advanceTick id tick).announced = s.announced :=
    announced_append hcs hcalls
  by_cases hdue : (l.advanceTick id tick).gameResult.endGameTick = 0
  · rw [latchDue_fresh hdue]
    exact course_quiet hs hdraw hresult hcs hcalls
  · have hstart' : (l.advanceTick id tick).gameStarted = true := by
      by_contra hno
      rw [hvalid.fresh (by simpa using hno)] at hdue
      exact hdue rfl
    -- a deadline is there only when the players left are of one frozen team
    have hvoid : l.gameResult.status ≠ .VOID_RESULT := by
      show s.gameResult.status ≠ _
      rw [hs]
      decide
    have hdecided := hvalid.decided hstart' (Or.inl hdue) (by rw [hresult]; exact hvoid)
    unfold latchDue
    split
    · refine ((course_latchVerdict hvalid.sound (hhandler.trans hh) (by rw [hresult]; exact hs)
        hstart').iff ?_).after hsilent
      exact ⟨fun hd => absurd hd hdraw, fun hd => absurd hd hdecided.not_drawn⟩
    · exact course_quiet hs hdraw hresult hcs hcalls

theorem course_onGameTick (h : Valid s) (hh : s.hasHandler = true)
    (hs : s.gameResult.status = .NOT_READY) {id tick : ℕ} (hrun : s.onGameTick id tick = .ok s') :
    Course (s.EndsInDraw (.gameTick id tick)) s s' := by
  by_cases hc : s.players.contains id = true
  · by_cases hstart : s.gameStarted = false ∧ tick > s.gameStartsAfterTickCount
    · exact course_starts h hs hc hstart.1 hstart.2 hrun
    · exact course_goesOn h hh hs hc hstart hrun
  · unfold onGameTick at hrun
    rw [if_pos (Bool.not_eq_true _ ▸ hc)] at hrun
    cases hrun
    exact course_idle hs fun hd => hc hd.1

theorem kill_fields (s : GameMonitor2) (id : ℕ) :
    (s.kill id).gameResult = s.gameResult ∧ (s.kill id).calls = s.calls ∧
      (s.kill id).gameStarted = s.gameStarted ∧ (s.kill id).hasHandler = s.hasHandler := by
  unfold kill
  split <;> exact ⟨rfl, rfl, rfl, rfl⟩

theorem announced_kill (s : GameMonitor2) (id : ℕ) : (s.kill id).announced = s.announced := by
  rw [announced, (kill_fields s id).2.1]
  rfl

theorem course_deletePlayer (h : Valid s) (hh : s.hasHandler = true) (hs : s.gameResult.status = .NOT_READY)
    {dplayId : ℕ} (hrun : s.handle (.deletePlayer dplayId) = .ok s') :
    Course (s.EndsInDraw (.deletePlayer dplayId)) s s' := by
  simp only [handle] at hrun
  rw [onDplayDeletePlayer_eq h.sound] at hrun
  split at hrun
  · rename_i hc
    cases hrun
    refine course_idle hs ?_
    intro hx
    obtain ⟨-, hplayer, -⟩ := hx
    obtain ⟨p, hp⟩ := contains_eq_true_iff.mp hplayer
    rcases hc with h0 | hno
    · exact (h.sound.players.key dplayId p hp).2 h0
    · rw [hplayer] at hno
      cases hno
  rename_i hc
  have hplayer : s.players.contains dplayId = true := by simpa using fun h0 => hc (Or.inr h0)
  split at hrun
  · rename_i hstart
    refine course_removePlayer h.sound hs ?_ hplayer hrun
    intro hx
    obtain ⟨hno, -⟩ := hx
    exact absurd (hstart.symm.trans hno) (by decide)
  · rename_i hstart
    simp only [Bool.not_eq_false] at hstart
    cases hrun
    exact (course_latchVerdict h.sound hh hs hstart).iff
      ⟨fun hd => hd.2.2, fun hd => ⟨hstart, hplayer, hd⟩⟩

theorem course_unitDied (h : Valid s) (hh : s.hasHandler = true) (hs : s.gameResult.status = .NOT_READY)
    {sourceDplayId unitId : ℕ} (hrun : s.handle (.unitDied sourceDplayId unitId) = .ok s') :
    Course (s.EndsInDraw (.unitDied sourceDplayId unitId)) s s' := by
  simp only [handle] at hrun
  rw [onUnitDied_eq h.sound] at hrun
  split at hrun
  · rename_i hc
    cases hrun
    refine course_idle hs ?_
    intro hx
    obtain ⟨-, hplayer, -⟩ := hx
    exact absurd (hc.symm.trans hplayer) (by decide)
  rename_i hc
  split at hrun
  · cases hrun
  split at hrun
  · rename_i hunit
    cases hrun
    obtain ⟨hresult, -, hstarted, hhandler⟩ := kill_fields s sourceDplayId
    have hkill := sound_kill h.sound sourceDplayId
    by_cases hstart : s.gameStarted = true
    · refine ((course_latchDeath hkill (hhandler.trans hh) (by rw [hresult]; exact hs)
        (hstarted.trans hstart)).iff ?_).after (announced_kill s _)
      exact ⟨fun hd => hd.2.2.2, fun hd => ⟨hstart, by simpa using hc, hunit, hd⟩⟩
    · rw [latchDeath_notStarted hkill (hstarted.trans (by simpa using hstart))]
      refine (course_idle (by rw [hresult]; exact hs) ?_).after (announced_kill s _)
      exact fun hd => hstart hd.1
  · rename_i hunit
    cases hrun
    exact course_idle hs fun hd => hunit hd.2.2.1

theorem course_rejectOther (h : Valid s) (hh : s.hasHandler = true) (hs : s.gameResult.status = .NOT_READY)
    {sourceDplayId rejectedDplayId : ℕ} (hrun : s.handle (.rejectOther sourceDplayId rejectedDplayId) = .ok s') :
    Course (s.EndsInDraw (.rejectOther sourceDplayId rejectedDplayId)) s s' := by
  simp only [handle] at hrun
  rw [onRejectOther_eq h.sound] at hrun
  split at hrun
  · rename_i hc
    cases hrun
    refine course_idle hs ?_
    intro hx
    obtain ⟨-, hsource, hrejected, -⟩ := hx
    rw [hsource, hrejected] at hc
    simp at hc
  rename_i hc
  have hsource : s.players.contains sourceDplayId = true := by simpa using fun h0 => hc (Or.inl h0)
  have hrejected : s.players.contains rejectedDplayId = true := by
    simpa using fun h0 => hc (Or.inr h0)
  split at hrun
  · rename_i hstart
    refine course_removePlayer h.sound hs ?_ hrejected hrun
    intro hx
    obtain ⟨hno, -⟩ := hx
    exact absurd (hstart.symm.trans hno) (by decide)
  · rename_i hstart
    simp only [Bool.not_eq_false] at hstart
    cases hrun
    obtain ⟨hresult, -, hstarted, hhandler⟩ := kill_fields s rejectedDplayId
    refine ((course_latchVerdict (sound_kill h.sound rejectedDplayId) (hhandler.trans hh)
      (by rw [hresult]; exact hs) (hstarted.trans hstart)).iff ?_).after (announced_kill s _)
    exact ⟨fun hd => hd.2.2.2, fun hd => ⟨hstart, hsource, hrejected, hd⟩⟩

theorem step_course (h : Valid s) (hh : s.hasHandler = true) (hs : s.gameResult.status = .NOT_READY)
    {e : Event} (he : e ≠ .reset) (hstep : s.step e = some s') : Course (s.EndsInDraw e) s s' := by
  have hrun := ok_of_step hstep
  have hlobby : ∀ {e : Event}, s.allianceEdit e = none → (s.EndsInDraw e ↔ s.gameStarted = true ∧
      (∃ k, s.Active k) ∧ (∀ t, ¬ s.OneTeam s.frozenPlayers t) ∧
      ∃ m, s.allianceEdit e = some (m, true) ∧ AllWithFirst m) → ¬ s.EndsInDraw e := by
    intro e hnone hiff hd
    obtain ⟨-, -, -, m, hm, -⟩ := hiff.mp hd
    rw [hnone] at hm
    cases hm
  cases e with
  | superEnumPlayerReply dplayId name =>
    have hdraw := hlobby (e := .superEnumPlayerReply dplayId name) rfl Iff.rfl
    simp only [handle, onDplaySuperEnumPlayerReply] at hrun
    split at hrun
    · rename_i hc
      exact course_addPlayer h.sound hs hdraw _ hc.2.2.ne' name hrun
    · cases hrun
      exact course_idle hs hdraw
  | createOrForwardPlayer command dplayId name =>
    have hdraw := hlobby (e := .createOrForwardPlayer command dplayId name) rfl Iff.rfl
    simp only [handle, onDplayCreateOrForwardPlayer] at hrun
    split at hrun
    · rename_i hc
      exact course_addPlayer h.sound hs hdraw _ hc.2.2.2.ne' name hrun
    · cases hrun
      exact course_idle hs hdraw
  | deletePlayer dplayId => exact course_deletePlayer h hh hs hrun
  | status sourceDplayId mapName maxUnits slot side isWatcher isAI =>
    exact course_onStatus h.sound hs (hlobby rfl Iff.rfl) hrun
  | chat sourceDplayId chat => exact course_alliance h.sound hh hs rfl hrun
  | alliance subjectDpid objectDpid isAllied => exact course_alliance h.sound hh hs rfl hrun
  | teamSelection fromDplayId teamNumber => exact course_alliance h.sound hh hs rfl hrun
  | unitDied sourceDplayId unitId => exact course_unitDied h hh hs hrun
  | rejectOther sourceDplayId rejectedDplayId => exact course_rejectOther h hh hs hrun
  | gameTick sourceDplayId tick => exact course_onGameTick h hh hs hrun
  | reset => exact absurd rfl he

/-! ### Whole runs -/

theorem Move.hasHandler (h : Move s s') : s'.hasHandler = s.hasHandler := by
  cases h with
  | lobby => rfl
  | kept => rfl
  | renumbered => rfl
  | freeze => rfl
  | void _ _ hl =>
    obtain ⟨r, cs, rfl⟩ := hl.eq_withResult
    rfl

theorem Judged.hasHandler (h : Judged s s') : s'.hasHandler = s.hasHandler := by
  cases h with
  | same => rfl
  | deferred => rfl
  | latched _ _ _ hl =>
    obtain ⟨r, cs, rfl⟩ := hl.eq_withResult
    rfl

theorem moves_hasHandler (h : Relation.ReflTransGen Move s s') : s'.hasHandler = s.hasHandler := by
  induction h with
  | refl => rfl
  | tail _ hm ih => exact hm.hasHandler.trans ih

theorem step_hasHandler (h : Sound s) {e : Event} (hstep : s.step e = some s') :
    s'.hasHandler = s.hasHandler := by
  rcases step_outcome h hstep with ⟨-, rfl⟩ | ⟨t, hmoves, hj⟩
  · rfl
  · exact hj.hasHandler.trans (moves_hasHandler hmoves)

/-- Events of one game of which none ends it in a mutual draw. -/
def Announces (s : GameMonitor2) (e : Event) : Prop :=
  e ≠ .reset ∧ (s.isGameOver = false → ¬ s.EndsInDraw e)

/-- Nothing is announced before the end, and then its result. -/
structure Told (s : GameMonitor2) : Prop where
  before : s.isGameOver = false → s.announced = []
  after : s.isGameOver = true → ∃ r, s.announced = [r] ∧ r.status = s.gameResult.status ∧
    r.results = s.gameResult.results

theorem Stays.told (h : Stays s s') (hs : s.isGameOver = true) (ht : Told s) : Told s' where
  before := by
    intro hno
    rw [isGameOver_eq_false, h.status, ← isGameOver_eq_false, hs] at hno
    cases hno
  after := by
    intro _
    obtain ⟨r, hr, hstatus, hresults⟩ := ht.after hs
    obtain ⟨cs, hcs, hcalls⟩ := h.calls
    exact ⟨r, (announced_append hcs hcalls).trans hr, hstatus.trans h.status.symm,
      hresults.trans h.results.symm⟩

theorem step_told (h : Valid s) (hh : s.hasHandler = true) (ht : Told s) {e : Event}
    (he : Announces s e) (hstep : s.step e = some s') : Told s' := by
  cases hover : s.isGameOver with
  | true => exact (step_stays h he.1 hstep (isGameOver_eq_true.mp hover)).told hover ht
  | false =>
    have hnone := ht.before hover
    cases step_course h hh (isGameOver_eq_false.mp hover) he.1 hstep with
    | goesOn _ hstatus heq =>
      refine ⟨fun _ => heq.trans hnone, ?_⟩
      intro hyes
      rw [isGameOver_eq_false.mpr hstatus] at hyes
      cases hyes
    | ended _ hstatus heq =>
      refine ⟨?_, fun _ => ⟨_, by rw [heq, hnone, List.nil_append], rfl, rfl⟩⟩
      intro hno
      rw [isGameOver_eq_true.mpr hstatus] at hno
      cases hno
    | drawn hdraw => exact absurd hdraw (he.2 hover)

theorem told_new {c : Setup} : Told (.new c) := by
  refine ⟨fun _ => rfl, ?_⟩
  intro hyes
  cases hyes

/-- While no event makes a mutual draw, `onGameEnded` is not called before the game is over, and
after that it has been called once, with the result; an end is announced when it comes exactly if
it is not such a draw. -/
theorem end_announced_iff {c : Setup} (hhost : c.hostPlayerName ≠ []) (hlocal : c.localPlayerName ≠ [])
    (hh : c.hasHandler = true) (hr : Runs step Announces (.new c) s) :
    (s.isGameOver = false → s.announced = []) ∧
    (s.isGameOver = true → ∃ r, s.announced = [r] ∧ r.status = s.gameResult.status ∧
      r.results = s.gameResult.results) ∧
    ∀ e s', e ≠ .reset → s.step e = some s' → s.isGameOver = false → s'.isGameOver = true →
      (s'.announced = [s'.gameResult] ↔ ¬ s.EndsInDraw e) := by
  have hinv : Valid s ∧ s.hasHandler = true ∧ Told s := by
    refine hr.invariant (P := fun t => Valid t ∧ t.hasHandler = true ∧ Told t)
      ⟨valid_new hhost hlocal, hh, told_new⟩ ?_
    intro t e t' h he hstep
    obtain ⟨hv, hth, ht⟩ := h
    exact ⟨hv.outcome (step_outcome hv.sound hstep), (step_hasHandler hv.sound hstep).trans hth,
      step_told hv hth ht he hstep⟩
  obtain ⟨hv, hsh, ht⟩ := hinv
  refine ⟨ht.before, ht.after, ?_⟩
  intro e s' he hstep hover hover'
  have hnone := ht.before hover
  cases step_course hv hsh (isGameOver_eq_false.mp hover) he hstep with
  | goesOn _ hstatus => exact absurd hstatus (isGameOver_eq_true.mp hover')
  | ended hno _ heq => exact ⟨fun _ => hno, fun _ => by rw [heq, hnone, List.nil_append]⟩
  | drawn hdraw _ heq =>
    rw [heq, hnone]
    exact ⟨fun hlist => absurd hlist (by simp), fun hno => absurd hdraw hno⟩

/-- A step after which the game is not over, or its end is announced, is no mutual draw. -/
theorem Course.not_draw {draw : Prop} (h : Course draw s s')
    (htold : s'.gameResult.status = .NOT_READY ∨ s'.announced ≠ s.announced) : ¬ draw := by
  cases h with
  | goesOn hno => exact hno
  | ended hno => exact hno
  | drawn _ hover heq =>
    rcases htold with hstatus | hne
    · exact absurd hstatus hover
    · exact absurd heq hne

theorem runs_announce {c : Setup} (hhost : c.hostPlayerName ≠ []) (hlocal : c.localPlayerName ≠ [])
    (hh : c.hasHandler = true) (hr : Runs step InGame (.new c) s)
    (hs : s.gameResult.status = .NOT_READY) :
    Runs step Announces (.new c) s ∧ Valid s ∧ s.hasHandler = true := by
  induction hr with
  | refl => exact ⟨.refl, valid_new hhost hlocal, hh⟩
  | @tail t s' hr hn ih =>
    obtain ⟨e, he, hstep⟩ := hn
    have hvt : Valid t := (valid_new hhost hlocal).runs hr
    have ht : t.gameResult.status = .NOT_READY := by
      by_contra hover
      exact hover ((step_stays hvt he hstep hover).status.symm.trans hs)
    obtain ⟨hruns, -, hth⟩ := ih ht
    have hdraw := (step_course hvt hth ht he hstep).not_draw (Or.inl hs)
    exact ⟨hruns.tail ⟨e, ⟨he, fun _ => hdraw⟩, hstep⟩, hvt.outcome (step_outcome hvt.sound hstep),
      (step_hasHandler hvt.sound hstep).trans hth⟩

/-- In the duel `b` loses its commander, and its defeat is announced once. -/
theorem end_announced_duel : ∃ s r, Runs step Announces (.new duel) s ∧ s.isGameOver = true ∧
    s.announced = [r] ∧ r.status = s.gameResult.status ∧ r.results = s.gameResult.results := by
  have hone : (run step (.new duel) (duelEvents ++ [.unitDied 2 101])).map (fun s : GameMonitor2 =>
      (s.gameResult.status, s.announced, (s.step (.gameTick 1 17)).map fun s' : GameMonitor2 =>
        (s'.isGameOver, s'.announced.length))) = some (.NOT_READY, [], some (true, 1)) := by decide +kernel
  obtain ⟨s, hrun, hs⟩ := Option.map_eq_some_iff.mp hone
  simp only [Prod.mk.injEq] at hs
  obtain ⟨hnot, hnone, htick⟩ := hs
  obtain ⟨s', hstep, hs'⟩ := Option.map_eq_some_iff.mp htick
  simp only [Prod.mk.injEq] at hs'
  have hreach : Runs step InGame (.new duel) s := by
    refine Runs.of_run _ hrun ?_
    intro t e he h
    obtain rfl := h
    simp [duelEvents] at he
  have hhost : duel.hostPlayerName ≠ [] := by decide
  obtain ⟨hruns, hvalid, hh⟩ := runs_announce hhost hhost rfl hreach hnot
  have hreset : Event.gameTick 1 17 ≠ .reset := by
    intro hno
    cases hno
  have hne : s'.announced ≠ s.announced := by
    intro heq
    rw [heq, hnone] at hs'
    exact absurd hs'.2 (by decide)
  have hdraw := (step_course hvalid hh hnot hreset hstep).not_draw (Or.inr hne)
  have hruns' : Runs step Announces (.new duel) s' := hruns.tail ⟨_, ⟨hreset, fun _ => hdraw⟩, hstep⟩
  obtain ⟨r, hr⟩ := (end_announced_iff hhost hhost rfl hruns').2.1 hs'.1
  exact ⟨s', r, hruns', hs'.1, hr⟩

/-- In the duel both players ally with each other: the game is over, and nothing is announced. -/
theorem draw_not_announced : ∃ s, duel.hasHandler = true ∧ Runs step InGame (.new duel) s ∧
    s.isGameOver = true ∧ s.announced = [] := by
  have hrun : (run step (.new duel) (duelEvents ++ [.alliance 1 2 true, .alliance 2 1 true])).map
      (fun s : GameMonitor2 => (s.isGameOver, s.announced)) = some (true, []) := by decide +kernel
  obtain ⟨s, hs, heq⟩ := Option.map_eq_some_iff.mp hrun
  simp only [Prod.mk.injEq] at heq
  refine ⟨s, rfl, Runs.of_run _ hs ?_, heq.1, heq.2⟩
  intro t e he h
  obtain rfl := h
  simp [duelEvents] at he

end Gpgnet4TA.App.GameMonitor2
