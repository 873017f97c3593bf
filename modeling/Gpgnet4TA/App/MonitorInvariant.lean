import Gpgnet4TA.App.MonitorSpec

/-!
# The invariant of the monitor

Every handler is a sequence of small moves followed by a look at the verdict. The invariant
says that active players have numbers, that whoever is active was active when the players
were frozen, and that a result or a deadline is there only when the players left are of one
frozen team.
-/

namespace Gpgnet4TA.App
open Gpgnet4TA.Lib

/-! ### Numbers -/

/-- Active players have an army and a team, and no two players the same army. -/
structure Players.Numbers (m : Players) : Prop where
  active : ∀ (k : ℕ) (p : PlayerData), m[k]? = some p → p.isActive = true →
    1 ≤ p.armyNumber ∧ 2 ≤ p.teamNumber
  distinct : ∀ (k k' : ℕ) (p p' : PlayerData), m[k]? = some p → m[k']? = some p' →
    p.armyNumber = p'.armyNumber → p.armyNumber ≠ 0 → k = k'

theorem Numbered.numbers {m m' : Players} (h : Numbered m m') : m'.Numbers := ⟨h.active, h.distinct⟩

/-- The players of `m'` are those of `m` with the same numbers; nobody comes to life. -/
structure Kept (m m' : Players) : Prop where
  keys : SameKeys m m'
  entry : ∀ (k : ℕ) (p' : PlayerData), m'[k]? = some p' → ∃ p : PlayerData, m[k]? = some p ∧
    p'.armyNumber = p.armyNumber ∧ p'.teamNumber = p.teamNumber ∧
    (p'.isActive = true → p.isActive = true)

theorem Kept.refl (m : Players) : Kept m m where
  keys := fun _ => Iff.rfl
  entry := fun _ p hp => ⟨p, hp, rfl, rfl, id⟩

theorem Kept.numbers {m m' : Players} (h : Kept m m') (hn : m.Numbers) : m'.Numbers where
  active := by
    intro k p' hp' hact
    obtain ⟨p, hp, harmy, hteam, hlive⟩ := h.entry k p' hp'
    rw [harmy, hteam]
    exact hn.active k p hp (hlive hact)
  distinct := by
    intro k k' p p' hp hp' heq hne
    obtain ⟨q, hq, harmy, -, -⟩ := h.entry k p hp
    obtain ⟨q', hq', harmy', -, -⟩ := h.entry k' p' hp'
    rw [harmy] at heq hne
    rw [harmy'] at heq
    exact hn.distinct k k' q q' hq hq' heq hne

theorem kept_insert {m : Players} {k : ℕ} {p p' : PlayerData} (hp : m[k]? = some p)
    (harmy : p'.armyNumber = p.armyNumber) (hteam : p'.teamNumber = p.teamNumber)
    (hlive : p'.isActive = true → p.isActive = true) : Kept m (m.insert k p') where
  keys := sameKeys_insert hp
  entry := by
    intro a q hq
    rw [Table.getElem?_insert] at hq
    split at hq
    · rename_i ha
      cases hq
      exact ⟨p, by rw [ha]; exact hp, harmy, hteam, hlive⟩
    · exact ⟨q, hq, rfl, rfl, id⟩

theorem Edited.kept {m m' : Players} (h : Edited m m') : Kept m m' where
  keys := h.sameKeys
  entry := by
    intro k p' hp'
    obtain ⟨p, hp, hsame⟩ := h.lookup hp'
    have harmy := congrArg PlayerData.armyNumber hsame
    have hteam := congrArg PlayerData.teamNumber hsame
    have hact := congrArg PlayerData.isActive hsame
    exact ⟨p, hp, harmy.symm, hteam.symm, fun h => hact.trans h⟩

namespace GameMonitor2

variable {s s' : GameMonitor2}

/-! ### Looking at the verdict -/

/-- The players left are of one frozen team (or there are none). -/
def Decided (s : GameMonitor2) : Prop := ∃ t, s.OneTeam s.frozenPlayers t

/-- What becomes of the result when the verdict is looked at. -/
inductive Judged (s : GameMonitor2) : GameMonitor2 → Prop
  | same : Judged s s
  | deferred (r : GameResult) : s.gameStarted = true → s.Decided → r.status = s.gameResult.status →
      r.results = s.gameResult.results → Judged s (s.withResult r [])
  | latched (w : ℤ) {s' : GameMonitor2} : s.gameStarted = true → (0 ≤ w → Verdict s (some w)) →
      Latch s w s' → Judged s s'

theorem Verdict.decided {w : ℤ} (h : Verdict s (some w)) (hw : 0 ≤ w) : s.Decided := by
  cases h with
  | nobody _ hnone => exact ⟨0, fun k hk => absurd hk (hnone k)⟩
  | won _ _ hteam => exact ⟨_, hteam⟩
  | draw => omega

theorem Verdict.started {w : ℤ} (h : Verdict s (some w)) : s.gameStarted = true := by
  cases h with
  | nobody hstart => exact hstart
  | won hstart => exact hstart
  | draw hstart => exact hstart

theorem verdict_some (h : Sound s) {w : ℤ} (hw : s.verdict = some w) : Verdict s (some w) := by
  rw [← hw]
  exact (verdict_spec h).2

theorem verdict_notStarted (h : Sound s) (hstart : s.gameStarted = false) : s.verdict = none := by
  cases hverdict : s.verdict with
  | none => rfl
  | some w => exact absurd (hstart.symm.trans (verdict_some h hverdict).started) (by decide)

theorem latchDraw_notStarted (h : Sound s) (hstart : s.gameStarted = false) : s.latchDraw = s := by
  rw [latchDraw, verdict_notStarted h hstart]

theorem latchDeath_notStarted (h : Sound s) (hstart : s.gameStarted = false) : s.latchDeath = s := by
  rw [latchDeath, verdict_notStarted h hstart]

theorem latchDeath_eq_withResult (b : GameMonitor2) : ∃ r cs, b.latchDeath = b.withResult r cs := by
  unfold latchDeath
  split
  · split
    · obtain ⟨r, heq, -⟩ := latchEndGameTick_eq b ((getMostRecentGameTick b.players + b.drawGameTicks) % 2 ^ 32)
      exact ⟨r, [], heq⟩
    · exact (latchEndGameResult_spec b _).eq_withResult
  · exact ⟨_, _, (withResult_self b).symm⟩

theorem latchVerdict_eq_withResult (b : GameMonitor2) : ∃ r cs, b.latchVerdict = b.withResult r cs := by
  unfold latchVerdict
  split
  · exact (latchEndGameResult_spec b _).eq_withResult
  · exact ⟨_, _, (withResult_self b).symm⟩

theorem latchDraw_eq_withResult (b : GameMonitor2) : ∃ r cs, b.latchDraw = b.withResult r cs := by
  unfold latchDraw
  split
  · split
    · exact (latchEndGameResult_spec b _).eq_withResult
    · exact ⟨_, _, (withResult_self b).symm⟩
  · exact ⟨_, _, (withResult_self b).symm⟩

theorem latchDue_eq_withResult (b : GameMonitor2) : ∃ r cs, b.latchDue = b.withResult r cs := by
  unfold latchDue
  split
  · exact latchVerdict_eq_withResult b
  · exact ⟨_, _, (withResult_self b).symm⟩

theorem latchStart_eq_withResult (b : GameMonitor2) : ∃ r cs, b.latchStart = b.withResult r cs := by
  unfold latchStart
  split
  · exact (latchEndGameResult_spec b _).eq_withResult
  · exact ⟨_, _, (withResult_self b).symm⟩

theorem judged_latchVerdict (h : Sound s) : Judged s s.latchVerdict := by
  unfold latchVerdict
  cases hverdict : s.verdict with
  | none => exact .same
  | some w =>
    have hv := verdict_some h hverdict
    exact .latched w hv.started (fun _ => hv) (latchEndGameResult_spec s w)

theorem judged_latchDraw (h : Sound s) : Judged s s.latchDraw := by
  unfold latchDraw
  cases hverdict : s.verdict with
  | none => exact .same
  | some w =>
    have hv := verdict_some h hverdict
    simp only []
    split
    · exact .latched w hv.started (fun _ => hv) (latchEndGameResult_spec s w)
    · exact .same

theorem judged_latchDeath (h : Sound s) : Judged s s.latchDeath := by
  unfold latchDeath
  cases hverdict : s.verdict with
  | none => exact .same
  | some w =>
    have hv := verdict_some h hverdict
    simp only []
    split
    · rename_i hw
      obtain ⟨r, heq, hstatus, hresults, -⟩ := latchEndGameTick_eq s
        ((getMostRecentGameTick s.players + s.drawGameTicks) % 2 ^ 32)
      rw [heq]
      exact .deferred r hv.started (hv.decided hw.le) hstatus hresults
    · exact .latched w hv.started (fun _ => hv) (latchEndGameResult_spec s w)

theorem judged_latchDue (h : Sound s) : Judged s s.latchDue := by
  unfold latchDue
  split
  · exact judged_latchVerdict h
  · exact .same

/-! ### Moves -/

/-- What the handlers do before they look at the verdict. -/
inductive Move (s : GameMonitor2) : GameMonitor2 → Prop
  | lobby {m : Players} {h o u : ℕ} {n : Text} {cs : List Call} : s.gameStarted = false → m.Wf →
      (s.players.Numbers → m.Numbers) → Silent cs →
      Move s ({ s with
        players := m, hostDplayId := h, localDplayId := o, mapName := n, maxUnits := u }.calling cs)
  | kept {m : Players} {l : Bool} {cs : List Call} : Kept s.players m → m.Wf → Silent cs →
      Move s ({ s with players := m, gameLaunched := l }.calling cs)
  | renumbered {m : Players} {cs : List Call} : Numbered s.players m → Silent cs →
      Move s ({ s with players := m }.calling cs)
  | freeze : s.gameStarted = false → Move s s.freeze
  | void {w : ℤ} {s' : GameMonitor2} : s.gameStarted = true → w < 0 → Latch s w s' → Move s s'

/-- Moves, and then the verdict; or a reset. -/
def Outcome (s : GameMonitor2) (e : Event) (s' : GameMonitor2) : Prop :=
  e = .reset ∧ s' = s.reset ∨ ∃ t, Relation.ReflTransGen Move s t ∧ Judged t s'

theorem Outcome.refl (s : GameMonitor2) (e : Event) : Outcome s e s :=
  Or.inr ⟨s, .refl, .same⟩

theorem Outcome.move {e : Event} (h : Move s s') : Outcome s e s' := Or.inr ⟨s', .single h, .same⟩

theorem move_calling {cs : List Call} (h : Sound s) (hcs : Silent cs) : Move s (s.calling cs) := by
  have hmove := Move.kept (s := s) (l := s.gameLaunched) (Kept.refl s.players) h.players hcs
  exact hmove

theorem move_kill (h : Sound s) (id : ℕ) : Relation.ReflTransGen Move s (s.kill id) := by
  cases hp : s.players[id]? with
  | none =>
    simp only [kill, hp]
    exact .refl
  | some p =>
    have hkept : Kept s.players (s.players.insert id { p with isDead := true }) := by
      refine kept_insert hp rfl rfl fun hact => ?_
      rw [isActive_iff] at hact
      cases hact.2
    have hmove := Move.kept (s := s) (l := s.gameLaunched) hkept
      (h.players.replace hp rfl (h.players.allies id p hp)) silent_nil
    rw [calling_nil] at hmove
    rw [kill_eq hp]
    exact .single hmove

theorem move_advanceTick (h : Sound s) (id tick : ℕ) :
    Relation.ReflTransGen Move s (s.advanceTick id tick) := by
  rcases advanceTick_cases s id tick with heq | ⟨p, hp, heq⟩
  · rw [heq]
  · have hkept : Kept s.players (s.players.insert id { p with tick }) :=
      kept_insert hp rfl rfl fun hact => hact
    have hmove := Move.kept (s := s) (l := s.gameLaunched) hkept
      (h.players.replace hp rfl (h.players.allies id p hp)) silent_nil
    rw [calling_nil] at hmove
    rw [heq]
    exact .single hmove

theorem move_latchStart (h : Sound s) : Relation.ReflTransGen Move s s.latchStart := by
  unfold latchStart
  cases hverdict : s.verdict with
  | none => exact .refl
  | some w =>
    exact .single (.void (verdict_some h hverdict).started (by decide : (-1 : ℤ) < 0)
      (latchEndGameResult_spec s (-1)))

/-! ### Every handler -/

/-- The handler does something that moves explain, or fails, but not in a lookup. -/
def Explained (s : GameMonitor2) (e : Event) (r : Except Failure GameMonitor2) : Prop :=
  (∃ s', r = .ok s' ∧ Outcome s e s') ∨ r = .error .nullHandler ∨ r = .error .divisionByZero

theorem explained_ok {e : Event} (h : Outcome s e s') : Explained s e (.ok s') := Or.inl ⟨s', rfl, h⟩

theorem explained_addPlayer (h : Sound s) (e : Event) (hstart : s.gameStarted = false) (setter : String)
    {id : ℕ} (hid : id ≠ 0) (name : Text) : Explained s e (s.addPlayer setter id name) := by
  obtain ⟨m', hm', hrun⟩ := addPlayer_spec h setter hid name
  have hmove := Move.lobby (s := s) (m := m')
    (h := if name = s.hostPlayerName then id else s.hostDplayId)
    (o := if name = s.localPlayerName then id else s.localDplayId) (u := s.maxUnits) (n := s.mapName)
    hstart ((wf_addedTo h.players hid name).of_core hm'.core) (fun _ => hm'.numbers) silent_nil
  rw [calling_nil] at hmove
  rw [hrun]
  exact explained_ok (.move hmove)

theorem explained_removePlayer (h : Sound s) (e : Event) (hstart : s.gameStarted = false) {id : ℕ}
    (hc : s.players.contains id = true) : Explained s e (s.removePlayer id) := by
  obtain ⟨p, hp⟩ := contains_eq_true_iff.mp hc
  rcases removePlayer_spec h hp with herr | ⟨m', cs, hm', hcs, hrun⟩
  · exact Or.inr (Or.inl herr)
  · have hmove := Move.lobby (s := s) (m := m') (h := s.hostDplayId) (o := s.localDplayId)
      (u := s.maxUnits) (n := s.mapName) hstart ((wf_removed h.players id).of_core hm'.core)
      (fun _ => hm'.numbers) hcs
    rw [hrun]
    exact explained_ok (.move hmove)

theorem explained_onStatus (h : Sound s) (e : Event) (id : ℕ) (mapName : Text) (maxUnits slot : ℕ)
    (side : ℤ) (isWatcher isAI : Bool) :
    Explained s e (s.onStatus id mapName maxUnits slot side isWatcher isAI) := by
  cases hp : s.players[id]? with
  | none =>
    unfold onStatus
    rw [hp]
    exact explained_ok (.refl s e)
  | some p =>
    by_cases hstart : s.gameStarted = false
    · obtain ⟨m', mn, mu, cs, hcs, hrun, hm'⟩ :=
        onStatus_spec h hp hstart mapName maxUnits slot side isWatcher isAI
      have hw : Players.Wf (s.players.insert id (described p slot side isWatcher isAI)) :=
        h.players.replace hp rfl (h.players.allies id p hp)
      have hnew : m'.Wf ∧ (s.players.Numbers → m'.Numbers) := by
        rcases hm' with ⟨-, hnum⟩ | ⟨-, hwatch, heq⟩
        · exact ⟨hw.of_core hnum.core, fun _ => hnum.numbers⟩
        · have hkept : Kept s.players (s.players.insert id (described p slot side isWatcher isAI)) := by
            refine kept_insert hp rfl rfl ?_
            intro hact
            rw [isActive_iff] at hact ⊢
            exact ⟨hwatch.trans hact.1, hact.2⟩
          rw [heq]
          exact ⟨hw, hkept.numbers⟩
      have hmove := Move.lobby (s := s) (m := m') (h := s.hostDplayId) (o := s.localDplayId)
        (u := mu) (n := mn) hstart hnew.1 hnew.2 hcs
      rw [hrun]
      exact explained_ok (.move hmove)
    · unfold onStatus
      rw [hp]
      simp only [Bool.not_eq_false] at hstart
      simp only [hstart, if_true]
      exact explained_ok (.refl s e)

theorem explained_alliance (h : Sound s) {e : Event} (he : e.isAlliance = true) :
    Explained s e (s.handle e) := by
  rcases handle_alliance h he with ⟨-, hrun⟩ | ⟨m, changed, cs, -, hedit, hcs, hno, hyes⟩
  · rw [hrun]
    exact explained_ok (.refl s e)
  · cases changed with
    | false =>
      rw [hno rfl]
      exact explained_ok (.move (.kept (l := s.gameLaunched) hedit.kept hedit.wf hcs))
    | true =>
      obtain ⟨m', hm', hrun⟩ := hyes rfl
      have hmove := Move.kept (s := s) (l := s.gameLaunched) hedit.kept hedit.wf silent_nil
      rw [calling_nil] at hmove
      have hsound := (h.setPlayers hedit.wf fun _ => hedit.sameKeys).renumbered hm' cs
      rw [hrun]
      exact explained_ok
        (Or.inr ⟨_, .tail (.single hmove) (.renumbered hm' hcs), judged_latchDraw hsound⟩)

theorem explained_onGameTick (h : Sound s) (e : Event) (id tick : ℕ) :
    Explained s e (s.onGameTick id tick) := by
  by_cases hc : s.players.contains id = true
  · by_cases hstart : s.gameStarted = false ∧ tick > s.gameStartsAfterTickCount
    · obtain ⟨cs, hcs, hrun⟩ := onGameTick_starts h hc hstart.1 hstart.2
      have hlaunch : Move s { s with gameLaunched := true } := by
        have hmove := Move.kept (s := s) (l := true) (Kept.refl s.players) h.players silent_nil
        rwa [calling_nil] at hmove
      have h1 : Sound { s with gameLaunched := true } := ⟨h.host, h.localName, h.players, h.frozen⟩
      have h2 := (sound_freeze h1).calling cs
      rw [hrun]
      refine explained_ok (Or.inr ⟨_, ?_, judged_latchDue (sound_advanceTick (sound_latchStart h2) id tick)⟩)
      refine .trans ?_ (move_advanceTick (sound_latchStart h2) id tick)
      refine .trans ?_ (move_latchStart h2)
      exact .tail (.tail (.single hlaunch) (.freeze hstart.1)) (move_calling (sound_freeze h1) hcs)
    · obtain ⟨cs, hcs, hlaunch⟩ := launchGame_spec s tick
      have hmove := Move.kept (s := s) (l := true) (Kept.refl s.players) h.players hcs
      have h1 : Sound ({ s with gameLaunched := true }.calling cs) :=
        ⟨h.host, h.localName, h.players, h.frozen⟩
      rw [onGameTick_goesOn h hc hstart, hlaunch]
      exact explained_ok (Or.inr ⟨_, .trans (.single hmove) (move_advanceTick h1 id tick),
        judged_latchDue (sound_advanceTick h1 id tick)⟩)
  · unfold onGameTick
    rw [if_pos (Bool.not_eq_true _ ▸ hc)]
    exact explained_ok (.refl s e)

theorem handle_explained (h : Sound s) (e : Event) : Explained s e (s.handle e) := by
  have hidle : Explained s e (.ok s) := explained_ok (.refl s e)
  cases e with
  | superEnumPlayerReply dplayId name =>
    simp only [handle, onDplaySuperEnumPlayerReply]
    split
    · rename_i hc
      exact explained_addPlayer h _ hc.1 _ hc.2.2.ne' name
    · exact hidle
  | createOrForwardPlayer command dplayId name =>
    simp only [handle, onDplayCreateOrForwardPlayer]
    split
    · rename_i hc
      exact explained_addPlayer h _ hc.2.1 _ hc.2.2.2.ne' name
    · exact hidle
  | deletePlayer dplayId =>
    simp only [handle]
    rw [onDplayDeletePlayer_eq h]
    split
    · exact hidle
    rename_i hc
    split
    · rename_i hstart
      exact explained_removePlayer h _ hstart (by simpa using fun h0 => hc (Or.inr h0))
    · exact explained_ok (Or.inr ⟨s, .refl, judged_latchVerdict h⟩)
  | status sourceDplayId mapName maxUnits slot side isWatcher isAI =>
    exact explained_onStatus h _ _ _ _ _ _ _ _
  | chat sourceDplayId chat => exact explained_alliance h rfl
  | alliance subjectDpid objectDpid isAllied => exact explained_alliance h rfl
  | teamSelection fromDplayId teamNumber => exact explained_alliance h rfl
  | unitDied sourceDplayId unitId =>
    simp only [handle]
    rw [onUnitDied_eq h]
    split
    · exact hidle
    split
    · exact Or.inr (Or.inr rfl)
    split
    · exact explained_ok
        (Or.inr ⟨_, move_kill h sourceDplayId, judged_latchDeath (sound_kill h sourceDplayId)⟩)
    · exact hidle
  | rejectOther sourceDplayId rejectedDplayId =>
    simp only [handle]
    rw [onRejectOther_eq h]
    split
    · exact hidle
    rename_i hc
    split
    · rename_i hstart
      exact explained_removePlayer h _ hstart (by simpa using fun h0 => hc (Or.inr h0))
    · exact explained_ok
        (Or.inr ⟨_, move_kill h rejectedDplayId, judged_latchVerdict (sound_kill h rejectedDplayId)⟩)
  | gameTick sourceDplayId tick => exact explained_onGameTick h _ sourceDplayId tick
  | reset => exact explained_ok (Or.inl ⟨rfl, rfl⟩)

/-! ### The invariant -/

structure Valid (s : GameMonitor2) : Prop where
  sound : Sound s
  numbers : s.players.Numbers
  frozenNumbers : s.gameStarted = true → s.frozenPlayers.Numbers
  frozenActive : s.gameStarted = true → ∀ (k : ℕ) (q : PlayerData), s.Active k →
    s.frozenPlayers[k]? = some q → q.isActive = true
  fresh : s.gameStarted = false → s.gameResult = .new
  decided : s.gameStarted = true → s.gameResult.endGameTick ≠ 0 ∨ s.gameResult.status = .READY_RESULT →
    s.gameResult.status ≠ .VOID_RESULT → s.Decided

theorem Valid.setPlayers (h : Valid s) {m : Players} (hw : m.Wf) (hkeys : SameKeys s.players m)
    (hn : m.Numbers) (hlive : ∀ (k : ℕ) (p' : PlayerData), m[k]? = some p' → p'.isActive = true → s.Active k) :
    Valid { s with players := m } where
  sound := h.sound.setPlayers hw fun _ => hkeys
  numbers := hn
  frozenNumbers := h.frozenNumbers
  frozenActive := by
    intro hstart k q hx hq
    obtain ⟨p', hp', hact⟩ := hx
    exact h.frozenActive hstart k q (hlive k p' hp' hact) hq
  fresh := h.fresh
  decided := by
    intro hstart hdue hvoid
    obtain ⟨t, ht⟩ := h.decided hstart hdue hvoid
    refine ⟨t, ?_⟩
    intro k hx
    obtain ⟨p', hp', hact⟩ := hx
    exact ht k (hlive k p' hp' hact)

theorem Valid.calling (h : Valid s) (cs : List Call) : Valid (s.calling cs) :=
  ⟨h.sound.calling cs, h.numbers, h.frozenNumbers, h.frozenActive, h.fresh, h.decided⟩

theorem Valid.launched (h : Valid s) (l : Bool) : Valid { s with gameLaunched := l } :=
  ⟨⟨h.sound.host, h.sound.localName, h.sound.players, h.sound.frozen⟩, h.numbers, h.frozenNumbers,
    h.frozenActive, h.fresh, h.decided⟩

theorem Valid.freeze (h : Valid s) (hstart : s.gameStarted = false) : Valid s.freeze where
  sound := sound_freeze h.sound
  numbers := h.numbers
  frozenNumbers := fun _ => h.numbers
  frozenActive := by
    intro _ k q hx hq
    obtain ⟨p, hp, hact⟩ := hx
    have heq : p = q := Option.some.inj (hp.symm.trans hq)
    rw [← heq]
    exact hact
  fresh := fun hno => by cases hno
  decided := by
    intro _ hdue
    have hnew : s.freeze.gameResult = .new := h.fresh hstart
    rw [hnew] at hdue
    rcases hdue with hdue | hdue
    · exact absurd rfl hdue
    · cases hdue

theorem Valid.withResult (h : Valid s) {r : GameResult} {cs : List Call} (hstart : s.gameStarted = true)
    (hr : r.endGameTick ≠ 0 ∨ r.status = .READY_RESULT → r.status ≠ .VOID_RESULT → s.Decided) :
    Valid (s.withResult r cs) :=
  ⟨Sound.withResult h.sound r cs, h.numbers, h.frozenNumbers, h.frozenActive,
    fun hno => absurd (hstart.symm.trans hno) (by decide), fun _ => hr⟩

theorem valid_reset (h : Valid s) : Valid s.reset where
  sound := ⟨h.sound.host, h.sound.localName, ⟨by intro k p hp; simp [reset] at hp,
    by intro k p hp; simp [reset] at hp⟩, fun hno => by cases hno⟩
  numbers := ⟨by intro k p hp; simp [reset] at hp, by intro k k' p p' hp; simp [reset] at hp⟩
  frozenNumbers := fun hno => by cases hno
  frozenActive := fun hno => by cases hno
  fresh := fun _ => rfl
  decided := fun hno => by cases hno

theorem valid_new {c : Setup} (hhost : c.hostPlayerName ≠ []) (hlocal : c.localPlayerName ≠ []) :
    Valid (.new c) where
  sound := ⟨hhost, hlocal, ⟨by intro k p hp; simp [GameMonitor2.new] at hp,
    by intro k p hp; simp [GameMonitor2.new] at hp⟩, fun hno => by cases hno⟩
  numbers := ⟨by intro k p hp; simp [GameMonitor2.new] at hp,
    by intro k k' p p' hp; simp [GameMonitor2.new] at hp⟩
  frozenNumbers := fun hno => by cases hno
  frozenActive := fun hno => by cases hno
  fresh := fun _ => rfl
  decided := fun hno => by cases hno

theorem Valid.latched (h : Valid s) {w : ℤ} (hw : 0 ≤ w → Verdict s (some w)) (hstart : s.gameStarted = true)
    (hl : Latch s w s') : Valid s' := by
  cases hl with
  | again => exact h
  | void r cs _ _ hvoid => exact h.withResult hstart fun _ hno => absurd hvoid hno
  | ready tick cs _ hpos _ => exact h.withResult hstart fun _ _ => (hw hpos).decided hpos

theorem Valid.move (h : Valid s) (hm : Move s s') : Valid s' := by
  cases hm with
  | lobby hstart hw hn _ =>
    refine ⟨⟨h.sound.host, h.sound.localName, hw, ?_⟩, hn h.numbers, ?_, ?_, h.fresh, ?_⟩
    all_goals exact fun hstart' => absurd (hstart.symm.trans hstart') (by decide)
  | kept hkept hw _ =>
    refine Valid.calling (Valid.launched (h.setPlayers hw hkept.keys (hkept.numbers h.numbers) ?_) _) _
    intro k p' hp' hact
    obtain ⟨p, hp, -, -, hlive⟩ := hkept.entry k p' hp'
    exact ⟨p, hp, hlive hact⟩
  | renumbered hnum _ =>
    refine Valid.calling (h.setPlayers (h.sound.players.of_core hnum.core) hnum.sameKeys hnum.numbers ?_) _
    intro k p' hp' hact
    obtain ⟨p, hp, hcore⟩ := core_lookup hnum.core hp'
    exact ⟨p, hp, (isActive_of_core hcore).trans hact⟩
  | freeze hstart => exact h.freeze hstart
  | void hstart hw hl => exact h.latched (fun hpos => absurd hpos (not_le.mpr hw)) hstart hl

theorem Valid.moves (h : Valid s) (hm : Relation.ReflTransGen Move s s') : Valid s' := by
  induction hm with
  | refl => exact h
  | tail _ hmove ih => exact ih.move hmove

theorem Valid.judged (h : Valid s) (hj : Judged s s') : Valid s' := by
  cases hj with
  | same => exact h
  | deferred r hstart hdecided _ _ => exact h.withResult hstart fun _ _ => hdecided
  | latched w hstart hw hl => exact h.latched hw hstart hl

theorem Valid.outcome (h : Valid s) {e : Event} (ho : Outcome s e s') : Valid s' := by
  rcases ho with ⟨-, rfl⟩ | ⟨t, hmoves, hj⟩
  · exact valid_reset h
  · exact (h.moves hmoves).judged hj

theorem ok_of_step {e : Event} (h : s.step e = some s') : s.handle e = .ok s' := by
  unfold step at h
  cases hrun : s.handle e with
  | error f =>
    rw [hrun] at h
    cases h
  | ok x =>
    rw [hrun] at h
    rw [Option.some.inj h]

theorem step_outcome (h : Sound s) {e : Event} (hstep : s.step e = some s') : Outcome s e s' := by
  have hok := ok_of_step hstep
  rcases handle_explained h e with ⟨t, hrun, ho⟩ | herr | herr
  · have heq : t = s' := Except.ok.inj (hrun.symm.trans hok)
    rw [← heq]
    exact ho
  · rw [hok] at herr
    cases herr
  · rw [hok] at herr
    cases herr

theorem Valid.runs {ok : GameMonitor2 → Event → Prop} (h : Valid s) (hr : Runs step ok s s') : Valid s' :=
  hr.invariant h fun _ _ _ hv _ hstep => hv.outcome (step_outcome hv.sound hstep)

/-- The states of a monitor with both names set. -/
def Reachable (c : Setup) (s : GameMonitor2) : Prop :=
  c.hostPlayerName ≠ [] ∧ c.localPlayerName ≠ [] ∧ Runs step (fun _ _ => True) (.new c) s

theorem Reachable.valid {c : Setup} (h : Reachable c s) : Valid s :=
  (valid_new h.1 h.2.1).runs h.2.2

/-! ### No lookup fails -/

/-- Every player is stored under its own id, allies are players, and the frozen players are the
players; so no handler is stopped by a lookup. -/
theorem monitor_consistent {c : Setup} (h : Reachable c s) :
    (∀ (k : ℕ) (p : PlayerData), s.players[k]? = some p → p.dplayid = k ∧ k ≠ 0) ∧
    (∀ (k : ℕ) (p : PlayerData), s.players[k]? = some p →
      ∀ a ∈ p.allies, ∃ q : PlayerData, s.players[a]? = some q) ∧
    (s.gameStarted = true → ∀ k : ℕ,
      (∃ q : PlayerData, s.frozenPlayers[k]? = some q) ↔ ∃ p : PlayerData, s.players[k]? = some p) ∧
    ∀ e, s.handle e ≠ .error .outOfRange := by
  have hs := h.valid.sound
  refine ⟨hs.players.key, hs.players.allies, hs.frozen, ?_⟩
  intro e herr
  rcases handle_explained hs e with ⟨t, hrun, -⟩ | hrun | hrun
  · rw [hrun] at herr
    cases herr
  · rw [hrun] at herr
    cases herr
  · rw [hrun] at herr
    cases herr

/-- Two players `a` and `b`, of which `a` is the host; the game starts after ten ticks. -/
def duel : Setup := ⟨"a".toList, "a".toList, 10, 5, 0, id, true⟩

def duelEvents : List Event :=
  [.createOrForwardPlayer 8 1 "a".toList, .createOrForwardPlayer 8 2 "b".toList,
    .status 1 "map".toList 100 0 0 false false, .status 2 "map".toList 100 1 0 false false,
    .gameTick 1 11]

theorem reachable_of_run {c : Setup} (hhost : c.hostPlayerName ≠ []) (hlocal : c.localPlayerName ≠ [])
    {es : List Event} (hrun : run step (.new c) es = some s) : Reachable c s :=
  ⟨hhost, hlocal, Runs.of_run es hrun fun _ _ _ => trivial⟩

theorem monitor_consistent_duel : ∃ s, Reachable duel s ∧ s.gameStarted = true ∧
    ∀ e, s.handle e ≠ .error .outOfRange := by
  have hstart : (run step (.new duel) duelEvents).map (·.gameStarted) = some true := by decide +kernel
  obtain ⟨s, hrun, hs⟩ := Option.map_eq_some_iff.mp hstart
  have hreach : Reachable duel s := reachable_of_run (by decide) (by decide) hrun
  exact ⟨s, hreach, hs, (monitor_consistent hreach).2.2.2⟩

end GameMonitor2

end Gpgnet4TA.App
