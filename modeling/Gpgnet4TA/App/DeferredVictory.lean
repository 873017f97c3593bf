import Gpgnet4TA.App.Announcement
import Gpgnet4TA.App.Battleroom
import Gpgnet4TA.App.FrozenTeams

/-!
# Deferred victories

A victory is not announced when the last rival dies, but after a while in which the victors may
still die too. The monitor is watched from outside: `wonAt` remembers the tick at which a death
first left one team, and `Pending` says how the deadline in the result is bound to it.
-/

namespace Gpgnet4TA.App
open Gpgnet4TA.Lib

/-! ### The most recent tick -/

section recent

variable {m m' : Players}

theorem foldl_tick_ge (l : List (ℕ × PlayerData)) (t : ℕ) :
    t ≤ l.foldl (fun tick kp => if kp.2.tick > tick then kp.2.tick else tick) t ∧
      ∀ kp ∈ l, kp.2.tick ≤ l.foldl (fun tick kp => if kp.2.tick > tick then kp.2.tick else tick) t := by
  induction l generalizing t with
  | nil => exact ⟨le_rfl, fun _ h => nomatch h⟩
  | cons x l ih =>
    obtain ⟨hstart, hall⟩ := ih (if x.2.tick > t then x.2.tick else t)
    have hx : x.2.tick ≤ (if x.2.tick > t then x.2.tick else t) ∧
        t ≤ (if x.2.tick > t then x.2.tick else t) := by
      split <;> omega
    refine ⟨hx.2.trans hstart, ?_⟩
    intro kp hkp
    cases hkp with
    | head => exact hx.1.trans hstart
    | tail _ hkp => exact hall kp hkp

theorem foldl_tick_le (l : List (ℕ × PlayerData)) {t n : ℕ} (ht : t ≤ n) (hall : ∀ kp ∈ l, kp.2.tick ≤ n) :
    l.foldl (fun tick kp => if kp.2.tick > tick then kp.2.tick else tick) t ≤ n := by
  induction l generalizing t with
  | nil => exact ht
  | cons x l ih =>
    have hx : (if x.2.tick > t then x.2.tick else t) ≤ n := by
      have hle := hall x List.mem_cons_self
      split <;> omega
    exact ih hx fun kp hkp => hall kp (List.mem_cons_of_mem _ hkp)

theorem tick_le_mostRecent {k : ℕ} {p : PlayerData} (hp : m[k]? = some p) : p.tick ≤ getMostRecentGameTick m :=
  (foldl_tick_ge m.toList 0).2 (k, p) (Table.mem_toList.mpr hp)

theorem mostRecent_le {n : ℕ} (h : ∀ (k : ℕ) (p : PlayerData), m[k]? = some p → p.tick ≤ n) :
    getMostRecentGameTick m ≤ n :=
  foldl_tick_le m.toList (Nat.zero_le n) fun kp hkp => h kp.1 kp.2 (Table.mem_toList.mp hkp)

theorem mostRecent_mono (h : ∀ (k : ℕ) (p : PlayerData), m[k]? = some p →
    ∃ p' : PlayerData, m'[k]? = some p' ∧ p.tick ≤ p'.tick) :
    getMostRecentGameTick m ≤ getMostRecentGameTick m' := by
  refine mostRecent_le fun k p hp => ?_
  obtain ⟨p', hp', hle⟩ := h k p hp
  exact hle.trans (tick_le_mostRecent hp')

/-- All ticks so far have been below 2^31, where their differences do not wrap around. -/
def TicksBelow (m : Players) : Prop := ∀ (k : ℕ) (p : PlayerData), m[k]? = some p → p.tick < 2 ^ 31

theorem TicksBelow.mostRecent (h : TicksBelow m) : getMostRecentGameTick m < 2 ^ 31 := by
  have hle : getMostRecentGameTick m ≤ 2 ^ 31 - 1 := mostRecent_le fun k p hp => by
    have hlt := h k p hp
    omega
  omega

theorem TicksBelow.of_same (h : TicksBelow m) (hsame : ∀ (k : ℕ) (p' : PlayerData), m'[k]? = some p' →
    p'.tick = 0 ∨ ∃ (a : ℕ) (p : PlayerData), m[a]? = some p ∧ p'.tick = p.tick) : TicksBelow m' := by
  intro k p' hp'
  rcases hsame k p' hp' with hzero | ⟨a, p, hp, heq⟩
  · rw [hzero]
    norm_num
  · rw [heq]
    exact h a p hp

theorem TicksBelow.insert (h : TicksBelow m) {k : ℕ} {p : PlayerData} (hp : p.tick < 2 ^ 31) :
    TicksBelow (m.insert k p) := by
  intro a q hq
  rw [Table.getElem?_insert] at hq
  split at hq
  · cases hq
    exact hp
  · exact h a q hq

theorem TicksBelow.numbered (h : TicksBelow m) (hnum : Numbered m m') : TicksBelow m' := by
  refine h.of_same fun k p' hp' => .inr ?_
  obtain ⟨p, hp, hcore⟩ := core_lookup hnum.core hp'
  have htick := congrArg PlayerData.tick hcore
  exact ⟨k, p, hp, htick.symm⟩

theorem TicksBelow.edited (h : TicksBelow m) (hedit : Edited m m') : TicksBelow m' := by
  refine h.of_same fun k p' hp' => .inr ?_
  obtain ⟨p, hp, hsame⟩ := hedit.lookup hp'
  have htick := congrArg PlayerData.tick hsame
  exact ⟨k, p, hp, htick.symm⟩

theorem TicksBelow.added (h : TicksBelow m) (id : ℕ) (name : Text) : TicksBelow (GameMonitor2.addedTo m id name) := by
  unfold GameMonitor2.addedTo
  refine h.insert ?_
  show ((m[id]?).getD .new).tick < 2 ^ 31
  cases hp : m[id]? with
  | none => exact (by norm_num : 0 < 2 ^ 31)
  | some p => exact h id p hp

theorem TicksBelow.removed (h : TicksBelow m) (id : ℕ) :
    TicksBelow (GameMonitor2.removeAlly id (m.erase id)) := by
  intro k q hq
  rw [GameMonitor2.removeAlly, Std.ExtTreeMap.getElem?_map, Table.getElem?_erase] at hq
  obtain ⟨p, hp, rfl⟩ := Option.map_eq_some_iff.mp hq
  split at hp
  · cases hp
  · exact h k p hp

theorem int32_due {tick deadline : ℕ} (htick : tick < 2 ^ 31) (hdeadline : deadline ≤ tick + 2 ^ 30) :
    int32 ((tick : ℤ) - deadline) ≥ 0 ↔ deadline ≤ tick := by
  rw [int32_eq (by omega) (by omega)]
  omega

theorem int32_later {tick old : ℕ} (htick : tick < 2 ^ 31) (hold : old < 2 ^ 31) :
    int32 ((tick : ℤ) - old) > 0 ↔ old < tick := by
  rw [int32_eq (by omega) (by omega)]
  omega

end recent

/-! ### The game is decided by the players left -/

/-- The frozen team of a player. -/
def frozenTeam (s : GameMonitor2) (k : ℕ) : Option ℕ := (s.frozenPlayers[k]?).map (·.teamNumber)

/-- All active players are in one frozen team. -/
def InOneFrozenTeam (s : GameMonitor2) : Prop :=
  ∀ a ∈ activeIds s.players, ∀ b ∈ activeIds s.players, frozenTeam s a = frozenTeam s b

instance (s : GameMonitor2) : Decidable (InOneFrozenTeam s) := List.decidableBAll _ _

theorem mem_activeIds {m : Players} {k : ℕ} : k ∈ activeIds m ↔ m.Active k := by
  rw [activeIds, List.mem_filter, isActiveId_iff, and_iff_right_of_imp]
  intro h
  obtain ⟨p, hp, -⟩ := h
  exact Table.mem_keys.mpr ⟨p, hp⟩

namespace GameMonitor2

variable {s s' : GameMonitor2}

theorem inOneFrozenTeam_iff (h : Sound s) (hstart : s.gameStarted = true) : InOneFrozenTeam s ↔ s.Decided := by
  constructor
  · intro hone
    by_cases hactive : ∃ k, s.Active k
    · obtain ⟨k, hk⟩ := hactive
      obtain ⟨p, hp, hact⟩ := hk
      obtain ⟨q, hq⟩ := (h.frozen hstart k).mpr ⟨p, hp⟩
      refine ⟨q.teamNumber, ?_⟩
      intro a ha
      have hteam := hone a (mem_activeIds.mpr ha) k (mem_activeIds.mpr ⟨p, hp, hact⟩)
      rw [frozenTeam, frozenTeam, hq, Option.map_some] at hteam
      exact Option.map_eq_some_iff.mp hteam
    · exact ⟨0, fun k hk => absurd ⟨k, hk⟩ hactive⟩
  · intro hdecided a ha b hb
    obtain ⟨t, ht⟩ := hdecided
    obtain ⟨p, hp, hpt⟩ := ht a (mem_activeIds.mp ha)
    obtain ⟨q, hq, hqt⟩ := ht b (mem_activeIds.mp hb)
    rw [frozenTeam, frozenTeam, hp, hq, Option.map_some, Option.map_some, hpt, hqt]

/-- While nothing is latched and there is a deadline, the check finds a winner or nobody. -/
theorem Valid.check_of_deadline (h : Valid s) (hstatus : s.gameResult.status = .NOT_READY)
    (hdeadline : 0 < s.gameResult.endGameTick) : ∃ w : ℤ, s.checkEndGameCondition = .ok (some w) ∧ 0 ≤ w := by
  have hstart : s.gameStarted = true := by
    by_contra hno
    have hnew := h.fresh (by simpa using hno)
    rw [hnew] at hdeadline
    exact absurd hdeadline (by decide)
  have hdecided : s.Decided := h.decided hstart (.inl hdeadline.ne') (by rw [hstatus]; decide)
  obtain ⟨t, ht⟩ := hdecided
  obtain ⟨hrun, hv⟩ := verdict_spec h.sound
  rw [hrun]
  generalize s.verdict = v at hv
  cases hv with
  | notStarted hno => exact absurd (hstart.symm.trans hno) (by decide)
  | nobody => exact ⟨0, rfl, le_rfl⟩
  | won => exact ⟨_, rfl, Int.natCast_nonneg _⟩
  | draw _ _ hnone => exact absurd ht (hnone t)
  | goesOn _ _ hnone => exact absurd ht (hnone t)

/-! ### Watching for the deciding death -/

/-- A monitor, and the most recent tick when a death first left one team. -/
structure Watched where
  monitor : GameMonitor2
  wonAt : Option ℕ

/-- A death in a started game is noted when it is the first that leaves one team. -/
def Watched.next (w : Watched) (s : GameMonitor2) : Event → Option ℕ
  | .unitDied _ _ =>
    if w.wonAt = none ∧ s.gameStarted = true ∧ InOneFrozenTeam s then some (getMostRecentGameTick s.players)
    else w.wonAt
  | .reset => none
  | _ => w.wonAt

def Watched.step (w : Watched) (e : Event) : Option Watched :=
  (w.monitor.step e).map fun s => ⟨s, w.next s e⟩

/-- Ticks are below 2^31, and nobody is deleted or rejected after the start. -/
def Undisturbed (w : Watched) : Event → Prop
  | .gameTick _ tick => tick < 2 ^ 31
  | .deletePlayer _ => w.monitor.gameStarted = false
  | .rejectOther _ _ => w.monitor.gameStarted = false
  | _ => True

instance (w : Watched) (e : Event) : Decidable (Undisturbed w e) := by
  cases e <;> unfold Undisturbed <;> infer_instance

def HasWinner (r : GameResult) : Prop := ∃ a ∈ r.results, a.score ≠ 0

/-- What the result of a started game says, given when it was won. -/
structure Pending (s : GameMonitor2) (wonAt : Option ℕ) : Prop where
  undecided : s.gameResult.status = .NOT_READY → wonAt = none → s.gameResult.endGameTick = 0 ∧ ¬ s.Decided
  deadline : s.gameResult.status = .NOT_READY → ∀ t, wonAt = some t → t ≤ getMostRecentGameTick s.players ∧
    0 < s.gameResult.endGameTick ∧ t + s.drawGameTicks ≤ s.gameResult.endGameTick ∧
    s.gameResult.endGameTick ≤ t + s.drawGameTicks + 1
  late : s.gameResult.status = .READY_RESULT → HasWinner s.gameResult →
    ∃ t, wonAt = some t ∧ t + s.drawGameTicks ≤ getMostRecentGameTick s.players
  void : s.gameResult.status = .VOID_RESULT → s.gameResult.results = []

section pending

variable {wonAt : Option ℕ}

theorem Pending.kept (h : Pending s wonAt) (hresult : s'.gameResult = s.gameResult)
    (hdraw : s'.drawGameTicks = s.drawGameTicks)
    (htick : getMostRecentGameTick s.players ≤ getMostRecentGameTick s'.players)
    (hdecided : wonAt = none → s'.Decided → s.Decided) : Pending s' wonAt := by
  refine ⟨?_, ?_, ?_, hresult ▸ h.void⟩
  · rw [hresult]
    intro hstatus hnone
    obtain ⟨hzero, hno⟩ := h.undecided hstatus hnone
    exact ⟨hzero, fun hyes => hno (hdecided hnone hyes)⟩
  · rw [hresult, hdraw]
    intro hstatus t ht
    obtain ⟨hle, hrest⟩ := h.deadline hstatus t ht
    exact ⟨hle.trans htick, hrest⟩
  · rw [hresult, hdraw]
    intro hstatus hwinner
    obtain ⟨t, ht, hle⟩ := h.late hstatus hwinner
    exact ⟨t, ht, hle.trans htick⟩

theorem not_hasWinner {w : ℤ} (hw : ¬ 0 < w) {tick : ℕ} :
    ¬ HasWinner ⟨.READY_RESULT, s.armyResults w, tick⟩ := by
  intro hwinner
  obtain ⟨a, ha, hscore⟩ := hwinner
  obtain ⟨k, q, -, rfl⟩ := mem_armyResults ha
  exact hscore (if_neg hw)

/-- A void result is empty. -/
theorem void_latched (h : s.gameResult.status = .VOID_RESULT → s.gameResult.results = []) (w : ℤ) :
    (s.latchEndGameResult w).gameResult.status = .VOID_RESULT → (s.latchEndGameResult w).gameResult.results = [] := by
  unfold latchEndGameResult
  split
  · exact h
  split
  · exact fun _ => rfl
  · simp only []
    rw [call_eq]
    show (if s.armyResults w = [] then _ else _) = Status.VOID_RESULT → s.armyResults w = []
    split
    · rename_i hempty
      exact fun _ => hempty
    · exact nofun

theorem Pending.latch (h : Pending s wonAt) {w : ℤ}
    (hw : s.gameResult.status = .NOT_READY → 0 < w →
      ∃ t, wonAt = some t ∧ t + s.drawGameTicks ≤ getMostRecentGameTick s.players) :
    Pending (s.latchEndGameResult w) wonAt := by
  have hl := latchEndGameResult_spec s w
  have hempty := void_latched h.void w
  generalize s.latchEndGameResult w = s' at hl hempty ⊢
  cases hl with
  | again => exact h
  | void r cs _ _ hvoid =>
    have hno : (s.withResult r cs).gameResult.status = .VOID_RESULT := hvoid
    refine ⟨?_, ?_, ?_, hempty⟩ <;> rw [hno] <;> intro hstatus <;> cases hstatus
  | ready tick cs hstatus _ _ =>
    refine ⟨nofun, nofun, fun _ hwinner => ?_, nofun⟩
    by_cases hpos : 0 < w
    · exact hw hstatus hpos
    · exact absurd hwinner (not_hasWinner hpos)

theorem pending_of_latch {w : ℤ} (hstatus : s.gameResult.status = .NOT_READY) (hw : ¬ 0 < w)
    (wonAt : Option ℕ) : Pending (s.latchEndGameResult w) wonAt := by
  have hl := latchEndGameResult_spec s w
  have hempty := void_latched (s := s) (fun hvoid => by rw [hstatus] at hvoid; cases hvoid) w
  generalize s.latchEndGameResult w = s' at hl hempty ⊢
  cases hl with
  | again hno => exact absurd hstatus hno
  | void r cs _ _ hvoid =>
    have hno : (s.withResult r cs).gameResult.status = .VOID_RESULT := hvoid
    refine ⟨?_, ?_, ?_, hempty⟩ <;> rw [hno] <;> intro hstatus <;> cases hstatus
  | ready => exact ⟨nofun, nofun, fun _ hwinner => absurd hwinner (not_hasWinner hw), nofun⟩

theorem Pending.latchDraw (h : Pending s wonAt) : Pending s.latchDraw wonAt := by
  unfold GameMonitor2.latchDraw
  split
  · split
    · rename_i w _ hneg
      exact h.latch fun _ hpos => absurd hpos (by omega)
    · exact h
  · exact h

theorem Pending.latchDue (h : Pending s wonAt) (hticks : TicksBelow s.players) (hdraw : s.drawGameTicks < 2 ^ 30) :
    Pending s.latchDue wonAt := by
  unfold GameMonitor2.latchDue
  split
  · rename_i hdue
    unfold GameMonitor2.latchVerdict
    split
    · rename_i w _
      refine h.latch fun hstatus _ => ?_
      cases hwon : wonAt with
      | none => exact absurd (h.undecided hstatus hwon).1 hdue.1.ne'
      | some t =>
        obtain ⟨hle, -, hlow, hhigh⟩ := h.deadline hstatus t hwon
        have hreached := (int32_due hticks.mostRecent (by omega)).mp hdue.2
        exact ⟨t, rfl, hlow.trans hreached⟩
    · exact h
  · exact h

theorem Pending.latchEndGameTick (h : Pending s wonAt)
    (hset : s.gameResult.status = .NOT_READY → s.gameResult.endGameTick ≠ 0) (tick : ℕ) :
    Pending (s.latchEndGameTick tick) wonAt := by
  unfold GameMonitor2.latchEndGameTick
  split
  · rename_i hzero
    exact ⟨fun hstatus => absurd hzero (hset hstatus), fun hstatus => absurd hzero (hset hstatus), h.late, h.void⟩
  · exact h

theorem decided_of_active (hfrozen : s'.frozenPlayers = s.frozenPlayers) (hactive : ∀ k, s.Active k → s'.Active k)
    (h : s'.Decided) : s.Decided := by
  obtain ⟨t, ht⟩ := h
  rw [hfrozen] at ht
  exact ⟨t, fun k hk => ht k (hactive k hk)⟩

/-- The first alternatives of the verdict are those of a decided game. -/
theorem verdict_none_not_decided (h : Sound s) (hstart : s.gameStarted = true) (hnone : s.verdict = none) :
    ¬ s.Decided := by
  have hv := (verdict_spec h).2
  rw [hnone] at hv
  intro hdecided
  obtain ⟨t, ht⟩ := hdecided
  cases hv with
  | notStarted hno => exact absurd (hstart.symm.trans hno) (by decide)
  | goesOn _ _ hteams => exact hteams t ht

theorem pending_start (h : Sound s) (hstart : s.gameStarted = true) (hnew : s.gameResult = .new) :
    Pending s.latchStart none := by
  have hstatus : s.gameResult.status = .NOT_READY := by rw [hnew]; rfl
  unfold latchStart
  cases hverdict : s.verdict with
  | none =>
    refine ⟨fun _ _ => ⟨by rw [hnew]; rfl, verdict_none_not_decided h hstart hverdict⟩, nofun, ?_, ?_⟩
    all_goals
      intro hover
      rw [hstatus] at hover
      cases hover
  | some w => exact pending_of_latch hstatus (by decide) none

theorem advanceTick_mostRecent (hticks : TicksBelow s.players) {tick : ℕ} (htick : tick < 2 ^ 31) (id : ℕ) :
    getMostRecentGameTick s.players ≤ getMostRecentGameTick (s.advanceTick id tick).players := by
  unfold GameMonitor2.advanceTick
  split
  · rename_i p hp
    split
    · rename_i hlater
      have hlt := (int32_later htick (hticks id p hp)).mp hlater
      refine mostRecent_mono fun k q hq => ?_
      show ∃ p' : PlayerData, (s.players.insert id { p with tick })[k]? = some p' ∧ q.tick ≤ p'.tick
      rw [Table.getElem?_insert]
      by_cases hk : k = id
      · rw [hk, hp] at hq
        cases hq
        exact ⟨_, if_pos hk, hlt.le⟩
      · exact ⟨q, by rw [if_neg hk]; exact hq, le_rfl⟩
    · exact le_rfl
  · exact le_rfl

theorem Pending.advanceTick (h : Pending s wonAt) (hticks : TicksBelow s.players) {tick : ℕ}
    (htick : tick < 2 ^ 31) (id : ℕ) : Pending (s.advanceTick id tick) wonAt := by
  refine h.kept ?_ ?_ (advanceTick_mostRecent hticks htick id) fun _ => decided_of_active ?_ fun k hk => ?_
  all_goals
    rcases advanceTick_cases s id tick with heq | ⟨p, hp, heq⟩
  all_goals
    rw [heq]
  · exact hk
  · obtain ⟨q, hq, hact⟩ := hk
    by_cases hk : k = id
    · rw [hk, hp] at hq
      cases hq
      refine ⟨{ p with tick }, ?_, hact⟩
      show (s.players.insert id { p with tick })[k]? = _
      rw [Table.getElem?_insert, if_pos hk]
    · exact ⟨q, (Table.getElem?_insert _ _ _ _).trans ((if_neg hk).trans hq), hact⟩

theorem pending_over (hstatus : s.gameResult.status ≠ .NOT_READY)
    (hlate : s.gameResult.status = .READY_RESULT → HasWinner s.gameResult →
      ∃ t, wonAt = some t ∧ t + s.drawGameTicks ≤ getMostRecentGameTick s.players)
    (hvoid : s.gameResult.status = .VOID_RESULT → s.gameResult.results = []) : Pending s wonAt :=
  ⟨fun hno => absurd hno hstatus, fun hno => absurd hno hstatus, hlate, hvoid⟩

theorem mostRecent_insert {m : Players} {id : ℕ} {p p' : PlayerData} (hp : m[id]? = some p)
    (htick : p'.tick = p.tick) : getMostRecentGameTick (m.insert id p') = getMostRecentGameTick m := by
  apply le_antisymm
  · refine mostRecent_le fun k q hq => ?_
    rw [Table.getElem?_insert] at hq
    split at hq
    · cases hq
      rw [htick]
      exact tick_le_mostRecent hp
    · exact tick_le_mostRecent hq
  · refine mostRecent_mono fun k q hq => ?_
    rw [Table.getElem?_insert]
    split
    · rename_i hk
      have heq : p = q := Option.some.inj (hp.symm.trans (hk ▸ hq))
      exact ⟨p', rfl, by rw [htick, heq]⟩
    · exact ⟨q, hq, le_rfl⟩

theorem kill_recent (s : GameMonitor2) (id : ℕ) : ∃ m, s.kill id = { s with players := m } ∧
    getMostRecentGameTick m = getMostRecentGameTick s.players ∧ (TicksBelow s.players → TicksBelow m) := by
  cases hp : s.players[id]? with
  | none => exact ⟨s.players, by simp only [kill, hp], rfl, fun h => h⟩
  | some p => exact ⟨_, kill_eq hp, mostRecent_insert hp rfl, fun h => h.insert (h id p hp)⟩

/-- The first death that leaves one team sets the deadline, unless it leaves nobody. -/
theorem pending_latchDeath (h : Sound s) (hstart : s.gameStarted = true) (hticks : TicksBelow s.players)
    (hdraw : s.drawGameTicks < 2 ^ 30) (hstatus : s.gameResult.status = .NOT_READY)
    (hzero : s.gameResult.endGameTick = 0) :
    (s.Decided → Pending s.latchDeath (some (getMostRecentGameTick s.players))) ∧
      (¬ s.Decided → Pending s.latchDeath none) := by
  unfold latchDeath
  cases hverdict : s.verdict with
  | none =>
    have hno := verdict_none_not_decided h hstart hverdict
    refine ⟨fun hyes => absurd hyes hno, fun _ => ⟨fun _ _ => ⟨hzero, hno⟩, nofun, ?_, ?_⟩⟩
    all_goals
      intro hover
      rw [hstatus] at hover
      cases hover
  | some w =>
    simp only []
    split
    · rename_i hw
      have hyes : s.Decided := (verdict_some h hverdict).decided hw.le
      refine ⟨fun _ => ?_, fun hno => absurd hyes hno⟩
      have hrecent := hticks.mostRecent
      have hmod : (getMostRecentGameTick s.players + s.drawGameTicks) % 2 ^ 32 =
          getMostRecentGameTick s.players + s.drawGameTicks := Nat.mod_eq_of_lt (by omega)
      rw [hmod, latchEndGameTick, if_pos hzero]
      refine ⟨fun _ => nofun, ?_, fun hready => ?_, fun hvoid => ?_⟩
      · intro _ t ht
        cases ht
        refine ⟨le_rfl, ?_⟩
        dsimp only
        split <;> omega
      · exact absurd (hstatus.symm.trans hready) (by decide)
      · exact absurd (hstatus.symm.trans hvoid) (by decide)
    · rename_i hw
      exact ⟨fun _ => pending_of_latch hstatus hw _, fun _ => pending_of_latch hstatus hw _⟩

theorem Pending.latchDeath {t : ℕ} (h : Pending s (some t)) (hstatus : s.gameResult.status = .NOT_READY) :
    Pending s.latchDeath (some t) := by
  unfold GameMonitor2.latchDeath
  split
  · split
    · exact h.latchEndGameTick (fun _ => (h.deadline hstatus t rfl).2.1.ne') _
    · rename_i hw
      exact pending_of_latch hstatus hw _
  · exact h

theorem next_withResult (hs : Sound s) (hstart : s.gameStarted = true) (w : Watched) (r : GameResult)
    (cs : List Call) (id unitId : ℕ) :
    (w.wonAt = none → s.Decided → w.next (s.withResult r cs) (.unitDied id unitId) =
      some (getMostRecentGameTick s.players)) ∧
    (w.wonAt ≠ none ∨ ¬ s.Decided → w.next (s.withResult r cs) (.unitDied id unitId) = w.wonAt) := by
  have hone : InOneFrozenTeam (s.withResult r cs) ↔ s.Decided :=
    inOneFrozenTeam_iff (Sound.withResult hs r cs) hstart
  constructor
  · intro hnone hdecided
    exact if_pos ⟨hnone, hstart, hone.mpr hdecided⟩
  · intro hno
    refine if_neg fun hall => ?_
    rcases hno with hsome | hundecided
    · exact hsome hall.1
    · exact hundecided (hone.mp hall.2.2)

theorem Pending.death (h : Pending s wonAt) (hs : Sound s) (hstart : s.gameStarted = true)
    (hticks : TicksBelow s.players) (hdraw : s.drawGameTicks < 2 ^ 30) (t : GameMonitor2) (id unitId : ℕ) :
    Pending (s.kill id).latchDeath ((⟨t, wonAt⟩ : Watched).next (s.kill id).latchDeath (.unitDied id unitId)) := by
  obtain ⟨m, hkill, hrecent, hbelow⟩ := kill_recent s id
  have hb : Sound (s.kill id) := sound_kill hs id
  rw [hkill] at hb ⊢
  set b : GameMonitor2 := { s with players := m } with hbdef
  obtain ⟨r, cs, hlatch⟩ := latchDeath_eq_withResult b
  obtain ⟨hfirst, hlater⟩ := next_withResult hb hstart ⟨t, wonAt⟩ r cs id unitId
  rw [← hlatch] at hfirst hlater
  by_cases hstatus : s.gameResult.status = .NOT_READY
  · cases wonAt with
    | none =>
      obtain ⟨hyes, hno⟩ := pending_latchDeath hb hstart (hbelow hticks) hdraw hstatus
        (h.undecided hstatus rfl).1
      by_cases hdecided : b.Decided
      · rw [hfirst rfl hdecided]
        exact hyes hdecided
      · rw [hlater (.inr hdecided)]
        exact hno hdecided
    | some tick =>
      rw [hlater (.inl nofun)]
      have hkept : Pending b (some tick) := h.kept rfl rfl hrecent.ge nofun
      exact hkept.latchDeath hstatus
  · have hstays := (judged_latchDeath hb).stays hstatus
    have hover : b.latchDeath.gameResult.status ≠ .NOT_READY := by
      rw [hstays.status]
      exact hstatus
    refine pending_over hover (fun hready hwinner => ?_) fun hvoid =>
      hstays.results.trans (h.void (hstays.status.symm.trans hvoid))
    have hold : HasWinner s.gameResult := by
      unfold HasWinner at hwinner ⊢
      rw [hstays.results] at hwinner
      exact hwinner
    obtain ⟨tick, htick, hle⟩ := h.late (hstays.status.symm.trans hready) hold
    refine ⟨tick, ?_, ?_⟩
    · rw [hlater (.inl (by rw [htick]; exact nofun))]
      exact htick
    · rw [hlatch]
      show tick + s.drawGameTicks ≤ getMostRecentGameTick m
      rw [hrecent]
      exact hle

end pending

/-! ### Every event -/

/-- Ticks stay below 2^31, and the game has not started by this. -/
structure Ahead (s s' : GameMonitor2) : Prop where
  ticks : TicksBelow s.players → TicksBelow s'.players
  started : s'.gameStarted = s.gameStarted

theorem Ahead.refl (s : GameMonitor2) : Ahead s s := ⟨id, rfl⟩

theorem Ahead.withResult {t : GameMonitor2} (h : Ahead s t) (ht : ∃ r cs, s' = t.withResult r cs) : Ahead s s' := by
  obtain ⟨r, cs, rfl⟩ := ht
  exact ⟨h.ticks, h.started⟩

theorem ahead_addPlayer (h : Sound s) {setter : String} {id : ℕ} (hid : id ≠ 0) {name : Text}
    (hrun : s.addPlayer setter id name = .ok s') : Ahead s s' := by
  obtain ⟨m', hm', hok⟩ := addPlayer_spec h setter hid name
  rw [hrun] at hok
  cases hok
  exact ⟨fun hticks => (hticks.added id name).numbered hm', rfl⟩

theorem ahead_removePlayer (h : Sound s) {id : ℕ} (hc : s.players.contains id = true)
    (hrun : s.removePlayer id = .ok s') : Ahead s s' := by
  obtain ⟨p, hp⟩ := contains_eq_true_iff.mp hc
  rcases removePlayer_spec h hp with herr | ⟨m', cs, hm', -, hok⟩
  · rw [hrun] at herr
    cases herr
  · rw [hrun] at hok
    cases hok
    exact ⟨fun hticks => (hticks.removed id).numbered hm', rfl⟩

theorem ahead_onStatus (h : Sound s) {id : ℕ} {mapName : Text} {maxUnits slot : ℕ} {side : ℤ}
    {isWatcher isAI : Bool} (hrun : s.onStatus id mapName maxUnits slot side isWatcher isAI = .ok s') :
    Ahead s s' := by
  cases hp : s.players[id]? with
  | none =>
    simp only [onStatus, hp] at hrun
    cases hrun
    exact .refl s
  | some p =>
    by_cases hstart : s.gameStarted = false
    · obtain ⟨m', mn, mu, cs, -, hok, hm'⟩ :=
        onStatus_spec h hp hstart mapName maxUnits slot side isWatcher isAI
      rw [hrun] at hok
      cases hok
      refine ⟨fun hticks => ?_, rfl⟩
      have hdescribed := hticks.insert (k := id) (p := described p slot side isWatcher isAI) (hticks id p hp)
      rcases hm' with ⟨-, hnum⟩ | ⟨-, -, heq⟩
      · exact hdescribed.numbered hnum
      · exact heq ▸ hdescribed
    · simp only [Bool.not_eq_false] at hstart
      simp only [onStatus, hp, hstart, if_true] at hrun
      cases hrun
      exact .refl s

theorem ahead_alliance (h : Sound s) {e : Event} (he : e.isAlliance = true) (hrun : s.handle e = .ok s') :
    Ahead s s' := by
  rcases handle_alliance h he with ⟨-, hok⟩ | ⟨m, changed, cs, -, hedit, -, hno, hyes⟩
  · rw [hrun] at hok
    cases hok
    exact .refl s
  · cases changed with
    | false =>
      have hok := hno rfl
      rw [hrun] at hok
      cases hok
      exact ⟨fun hticks => hticks.edited hedit, rfl⟩
    | true =>
      obtain ⟨m', hm', hok⟩ := hyes rfl
      rw [hrun] at hok
      cases hok
      have hedited : Ahead s ({ s with players := m' }.calling cs) :=
        ⟨fun hticks => (hticks.edited hedit).numbered hm', rfl⟩
      exact hedited.withResult (latchDraw_eq_withResult _)

theorem ahead_kill (s : GameMonitor2) (id : ℕ) : Ahead s (s.kill id) := by
  obtain ⟨m, hkill, -, hticks⟩ := kill_recent s id
  rw [hkill]
  exact ⟨hticks, rfl⟩

theorem ahead_advanceTick (s : GameMonitor2) {tick : ℕ} (htick : tick < 2 ^ 31) (id : ℕ) :
    Ahead s (s.advanceTick id tick) := by
  rcases advanceTick_cases s id tick with heq | ⟨p, hp, heq⟩
  · rw [heq]
    exact .refl s
  · rw [heq]
    exact ⟨fun hticks => hticks.insert htick, rfl⟩

theorem ahead_step (h : Sound s) {e : Event} (he : ∀ id tick, e ≠ .gameTick id tick) (hreset : e ≠ .reset)
    (hstep : s.step e = some s') : Ahead s s' := by
  have hok := ok_of_step hstep
  cases e with
  | superEnumPlayerReply dplayId name =>
    simp only [handle, onDplaySuperEnumPlayerReply] at hok
    split at hok
    · rename_i hc
      exact ahead_addPlayer h hc.2.2.ne' hok
    · cases hok
      exact .refl s
  | createOrForwardPlayer command dplayId name =>
    simp only [handle, onDplayCreateOrForwardPlayer] at hok
    split at hok
    · rename_i hc
      exact ahead_addPlayer h hc.2.2.2.ne' hok
    · cases hok
      exact .refl s
  | deletePlayer dplayId =>
    simp only [handle] at hok
    rw [onDplayDeletePlayer_eq h] at hok
    split at hok
    · cases hok
      exact .refl s
    rename_i hc
    split at hok
    · exact ahead_removePlayer h (by simpa using fun h0 => hc (Or.inr h0)) hok
    · cases hok
      exact (Ahead.refl s).withResult (latchVerdict_eq_withResult s)
  | status sourceDplayId mapName maxUnits slot side isWatcher isAI => exact ahead_onStatus h hok
  | chat sourceDplayId chat => exact ahead_alliance h rfl hok
  | alliance subjectDpid objectDpid isAllied => exact ahead_alliance h rfl hok
  | teamSelection fromDplayId teamNumber => exact ahead_alliance h rfl hok
  | unitDied sourceDplayId unitId =>
    simp only [handle] at hok
    rw [onUnitDied_eq h] at hok
    split at hok
    · cases hok
      exact .refl s
    split at hok
    · cases hok
    split at hok
    · cases hok
      exact (ahead_kill s sourceDplayId).withResult (latchDeath_eq_withResult _)
    · cases hok
      exact .refl s
  | rejectOther sourceDplayId rejectedDplayId =>
    simp only [handle] at hok
    rw [onRejectOther_eq h] at hok
    split at hok
    · cases hok
      exact .refl s
    rename_i hc
    split at hok
    · exact ahead_removePlayer h (by simpa using fun h0 => hc (Or.inr h0)) hok
    · cases hok
      exact (ahead_kill s rejectedDplayId).withResult (latchVerdict_eq_withResult _)
  | gameTick sourceDplayId tick => exact absurd rfl (he sourceDplayId tick)
  | reset => exact absurd rfl hreset

theorem Latch.drawGameTicks {w : ℤ} (h : Latch s w s') : s'.drawGameTicks = s.drawGameTicks := by
  obtain ⟨r, cs, rfl⟩ := h.eq_withResult
  rfl

theorem Move.drawGameTicks (h : Move s s') : s'.drawGameTicks = s.drawGameTicks := by
  cases h with
  | lobby => rfl
  | kept => rfl
  | renumbered => rfl
  | freeze => rfl
  | void _ _ hl => exact hl.drawGameTicks

theorem Outcome.drawGameTicks {e : Event} (h : Outcome s e s') : s'.drawGameTicks = s.drawGameTicks := by
  rcases h with ⟨-, rfl⟩ | ⟨t, hmoves, hjudged⟩
  · rfl
  · have ht : t.drawGameTicks = s.drawGameTicks := by
      clear hjudged
      induction hmoves with
      | refl => rfl
      | tail _ hmove ih => exact hmove.drawGameTicks.trans ih
    cases hjudged with
    | same => exact ht
    | deferred => exact ht
    | latched _ _ _ hl => exact hl.drawGameTicks.trans ht

/-! ### What is pending along a run -/

section pending

variable {wonAt : Option ℕ}

theorem active_of_vitals (h : vitals s'.players = vitals s.players) {k : ℕ} (hk : s.Active k) : s'.Active k := by
  obtain ⟨p, hp, hact⟩ := hk
  have hv := congrArg (fun m : Table Vitals => m[k]?) h
  simp only [getElem?_vitals, hp, Option.map_some] at hv
  obtain ⟨q, hq, heq⟩ := Option.map_eq_some_iff.mp hv
  simp only [Vitals.mk.injEq] at heq
  refine ⟨q, hq, ?_⟩
  rw [isActive_iff] at hact ⊢
  exact ⟨heq.2.1.trans hact.1, heq.1.trans hact.2⟩

theorem Pending.of_vitals (h : Pending s wonAt) {m : Players} (hv : vitals m = vitals s.players) (cs : List Call) :
    Pending ({ s with players := m }.calling cs) wonAt := by
  have hrecent : getMostRecentGameTick s.players ≤ getMostRecentGameTick m := by
    rw [getMostRecentGameTick_eq, getMostRecentGameTick_eq, hv]
  exact h.kept rfl rfl hrecent fun _ => decided_of_active rfl fun k hk => active_of_vitals hv hk

/-- Alliances change neither the ticks nor who is left; they can make a mutual draw. -/
theorem Pending.alliance (h : Pending s wonAt) (hs : Sound s) {e : Event} (he : e.isAlliance = true)
    (hrun : s.handle e = .ok s') : Pending s' wonAt := by
  rcases handle_alliance hs he with ⟨-, hok⟩ | ⟨m, changed, cs, -, hedit, -, hno, hyes⟩
  · rw [hrun] at hok
    cases hok
    exact h
  · cases changed with
    | false =>
      have hok := hno rfl
      rw [hrun] at hok
      cases hok
      exact h.of_vitals (vitals_edited hedit) cs
    | true =>
      obtain ⟨m', hm', hok⟩ := hyes rfl
      rw [hrun] at hok
      cases hok
      exact (h.of_vitals ((vitals_numbered hm').trans (vitals_edited hedit)) cs).latchDraw

theorem Pending.tick (h : Pending s wonAt) (hticks : TicksBelow s.players) (hdraw : s.drawGameTicks < 2 ^ 30)
    {tick : ℕ} (htick : tick < 2 ^ 31) (id : ℕ) : Pending (s.advanceTick id tick).latchDue wonAt := by
  have hadvanced : (s.advanceTick id tick).drawGameTicks = s.drawGameTicks := by
    rcases advanceTick_cases s id tick with heq | ⟨p, -, heq⟩ <;> rw [heq]
  refine (h.advanceTick hticks htick id).latchDue ((ahead_advanceTick s htick id).ticks hticks) ?_
  rw [hadvanced]
  exact hdraw

theorem Pending.step (h : Pending s wonAt) (hs : Sound s) (hstart : s.gameStarted = true)
    (hticks : TicksBelow s.players) (hdraw : s.drawGameTicks < 2 ^ 30) {e : Event}
    (he : Undisturbed ⟨s, wonAt⟩ e) (hreset : e ≠ .reset) (hstep : s.step e = some s') :
    Pending s' ((⟨s, wonAt⟩ : Watched).next s' e) := by
  have hok := ok_of_step hstep
  cases halliance : e.isAlliance with
  | true =>
    have hnext : (⟨s, wonAt⟩ : Watched).next s' e = wonAt := by
      cases e <;> first | rfl | cases halliance
    rw [hnext]
    exact h.alliance hs halliance hok
  | false =>
    rw [handle_play hs hstart halliance hreset] at hok
    cases e with
    | superEnumPlayerReply => exact Except.ok.inj hok ▸ h
    | createOrForwardPlayer => exact Except.ok.inj hok ▸ h
    | status => exact Except.ok.inj hok ▸ h
    | chat => cases halliance
    | alliance => cases halliance
    | teamSelection => cases halliance
    | deletePlayer => exact absurd (hstart.symm.trans he) (by decide)
    | rejectOther => exact absurd (hstart.symm.trans he) (by decide)
    | unitDied id unitId =>
      have hidle : Pending s ((⟨s, wonAt⟩ : Watched).next s (.unitDied id unitId)) := by
        obtain ⟨-, hlater⟩ := next_withResult hs hstart ⟨s, wonAt⟩ s.gameResult [] id unitId
        rw [withResult_self] at hlater
        by_cases hover : s.gameResult.status = .NOT_READY
        · rw [hlater ?_]
          · exact h
          · by_cases hnone : wonAt = none
            · exact .inr (h.undecided hover hnone).2
            · exact .inl hnone
        · refine pending_over hover (fun hready hwinner => ?_) h.void
          obtain ⟨t, ht, hle⟩ := h.late hready hwinner
          rw [hlater (.inl (by rw [ht]; exact nofun))]
          exact ⟨t, ht, hle⟩
      simp only [play] at hok
      split at hok
      · exact Except.ok.inj hok ▸ hidle
      split at hok
      · cases hok
      split at hok
      · cases hok
        exact h.death hs hstart hticks hdraw s id unitId
      · exact Except.ok.inj hok ▸ hidle
    | gameTick id tick =>
      simp only [play] at hok
      split at hok
      · exact Except.ok.inj hok ▸ h
      · obtain ⟨cs, -, hlaunch⟩ := launchGame_spec s tick
        rw [hlaunch] at hok
        cases hok
        have hlaunched : Pending ({ s with gameLaunched := true }.calling cs) wonAt :=
          ⟨h.undecided, h.deadline, h.late, h.void⟩
        exact hlaunched.tick hticks hdraw he id
    | reset => exact absurd rfl hreset

theorem pending_starts (h : Valid s) (hstart : s.gameStarted = false) (hticks : TicksBelow s.players)
    (hdraw : s.drawGameTicks < 2 ^ 30) {id tick : ℕ} (hc : s.players.contains id = true)
    (hafter : tick > s.gameStartsAfterTickCount) (htick : tick < 2 ^ 31) (hrun : s.onGameTick id tick = .ok s') :
    TicksBelow s'.players ∧ Pending s' none := by
  obtain ⟨cs, -, hok⟩ := onGameTick_starts h.sound hc hstart hafter
  rw [hrun] at hok
  cases hok
  set b : GameMonitor2 := { s with gameLaunched := true }.freeze.calling cs with hb
  have hsound : Sound b :=
    (sound_freeze (s := { s with gameLaunched := true }) ⟨h.sound.host, h.sound.localName, h.sound.players,
      h.sound.frozen⟩).calling cs
  have hpending : Pending b.latchStart none := pending_start hsound rfl (h.fresh hstart)
  obtain ⟨r, cs', hlatch⟩ := latchStart_eq_withResult b
  rw [hlatch] at hpending ⊢
  have hadvanced := (ahead_advanceTick (b.withResult r cs') htick id).withResult (latchDue_eq_withResult _)
  exact ⟨hadvanced.ticks hticks, hpending.tick hticks hdraw htick id⟩

end pending

/-- What is known of a monitor that is watched. -/
structure Watching (w : Watched) : Prop where
  valid : Valid w.monitor
  draw : w.monitor.drawGameTicks < 2 ^ 30
  ticks : TicksBelow w.monitor.players
  before : w.monitor.gameStarted = false → w.wonAt = none
  pending : w.monitor.gameStarted = true → Pending w.monitor w.wonAt

theorem next_of_wait {w : Watched} (hw : w.wonAt = none) (hstart : s'.gameStarted = false) (e : Event) :
    w.next s' e = none := by
  cases e with
  | unitDied => exact (if_neg fun hall => absurd (hstart.symm.trans hall.2.1) (by decide)).trans hw
  | reset => rfl
  | _ => exact hw

theorem ahead_onGameTick (h : Sound s) {id tick : ℕ} (htick : tick < 2 ^ 31)
    (hno : ¬ (s.gameStarted = false ∧ tick > s.gameStartsAfterTickCount)) (hc : s.players.contains id = true)
    (hrun : s.onGameTick id tick = .ok s') : Ahead s s' := by
  obtain ⟨cs, -, hlaunch⟩ := launchGame_spec s tick
  rw [onGameTick_goesOn h hc hno, hlaunch] at hrun
  cases hrun
  have hadvanced := (ahead_advanceTick ({ s with gameLaunched := true }.calling cs) htick id).withResult
    (latchDue_eq_withResult _)
  exact ⟨hadvanced.ticks, hadvanced.started⟩

theorem Watching.ahead {w : Watched} (h : Watching w) {e : Event} (he : Undisturbed w e) (hreset : e ≠ .reset)
    (hstep : w.monitor.step e = some s') (ha : Ahead w.monitor s') : Watching ⟨s', w.next s' e⟩ where
  valid := h.valid.outcome (step_outcome h.valid.sound hstep)
  draw := (step_outcome h.valid.sound hstep).drawGameTicks ▸ h.draw
  ticks := ha.ticks h.ticks
  before := by
    intro hwait
    exact next_of_wait (h.before (ha.started.symm.trans hwait)) hwait e
  pending := by
    intro hstart
    have hstarted : w.monitor.gameStarted = true := ha.started.symm.trans hstart
    exact (h.pending hstarted).step h.valid.sound hstarted h.ticks h.draw he hreset hstep

theorem Watching.step {w w' : Watched} (h : Watching w) {e : Event} (he : Undisturbed w e)
    (hstep : w.step e = some w') : Watching w' := by
  obtain ⟨s', hs', rfl⟩ := Option.map_eq_some_iff.mp hstep
  have hs := h.valid.sound
  have hok := ok_of_step hs'
  by_cases hreset : e = .reset
  · subst hreset
    cases hok
    refine ⟨valid_reset h.valid, h.draw, ?_, fun _ => rfl, fun hno => by cases hno⟩
    intro k p hp
    simp [reset] at hp
  by_cases hgame : ∃ id tick, e = .gameTick id tick
  · obtain ⟨id, tick, rfl⟩ := hgame
    by_cases hc : w.monitor.players.contains id = true
    · by_cases hstarts : w.monitor.gameStarted = false ∧ tick > w.monitor.gameStartsAfterTickCount
      · obtain ⟨hticks, hpending⟩ := pending_starts h.valid hstarts.1 h.ticks h.draw hc hstarts.2 he hok
        have hwon : w.wonAt = none := h.before hstarts.1
        refine ⟨h.valid.outcome (step_outcome hs hs'), ?_, hticks, fun _ => hwon, fun _ => hwon ▸ hpending⟩
        rw [(step_outcome hs hs').drawGameTicks]
        exact h.draw
      · exact h.ahead he hreset hs' (ahead_onGameTick hs he hstarts hc hok)
    · simp only [handle, onGameTick, Bool.not_eq_true _ ▸ hc, if_true] at hok
      have hsame : w.monitor = s' := Except.ok.inj hok
      exact h.ahead he hreset hs' (hsame ▸ .refl _)
  · exact h.ahead he hreset hs' (ahead_step hs (fun id tick heq => hgame ⟨id, tick, heq⟩) hreset hs')

/-! ### The verdict stands -/

/-- The state in which a tick looks for the deadline. -/
def beforeDue (s : GameMonitor2) (sourceDplayId tick : ℕ) : Except Failure GameMonitor2 := do
  let s := s.launchGame tick
  let s ← (if s.gameStarted = false ∧ tick > s.gameStartsAfterTickCount then s.startGame tick
    else pure s)
  return s.advanceTick sourceDplayId tick

theorem onGameTick_eq (s : GameMonitor2) (id tick : ℕ) :
    s.onGameTick id tick =
      if s.players.contains id = false then .ok s else s.beforeDue id tick >>= latchIfDue := by
  unfold onGameTick beforeDue
  split
  · rfl
  · rw [bind_assoc]
    rfl

theorem Valid.beforeDue (h : Valid s) {id tick : ℕ} {m : GameMonitor2} (hrun : s.beforeDue id tick = .ok m) :
    Valid m := by
  obtain ⟨cs, -, hlaunch⟩ := launchGame_spec s tick
  have hlaunched : Valid ({ s with gameLaunched := true }.calling cs) := (h.launched true).calling cs
  unfold GameMonitor2.beforeDue at hrun
  rw [hlaunch] at hrun
  by_cases hstarts : s.gameStarted = false ∧ tick > s.gameStartsAfterTickCount
  · obtain ⟨cs', -, hstart⟩ := startGame_spec hlaunched.sound tick
    have hok : startGame ({ s with gameLaunched := true }.calling cs) tick >>=
        (fun t => pure (t.advanceTick id tick)) = .ok m := (congrArg (· >>= _) (if_pos hstarts)).symm.trans hrun
    rw [hstart] at hok
    cases hok
    have hfrozen := (hlaunched.freeze hstarts.1).calling cs'
    exact (hfrozen.moves (move_latchStart hfrozen.sound)).moves
      (move_advanceTick (sound_latchStart hfrozen.sound) id tick)
  · have hok : Except.ok (({ s with gameLaunched := true }.calling cs).advanceTick id tick) = .ok m :=
      (congrArg (· >>= _) (if_neg hstarts)).symm.trans hrun
    cases hok
    exact hlaunched.moves (move_advanceTick hlaunched.sound id tick)

theorem Nameless.runs {ok : GameMonitor2 → Event → Prop} (h : Nameless s) (hr : Runs GameMonitor2.step ok s s') :
    Nameless s' :=
  hr.invariant h fun _ _ _ hn _ hstep => hn.step hstep

/-! ### The last death -/

theorem latch_zero (hstatus : s.gameResult.status = .NOT_READY) :
    (s.latchEndGameResult 0).gameResult.status ≠ .NOT_READY ∧
      ∀ a ∈ (s.latchEndGameResult 0).gameResult.results, a.score = 0 := by
  unfold latchEndGameResult
  rw [if_neg (not_not.mpr hstatus), if_neg (by decide)]
  simp only []
  rw [call_eq]
  constructor
  · show (if s.armyResults 0 = [] then _ else _) ≠ Status.NOT_READY
    split <;> decide
  · intro a ha
    obtain ⟨k, q, -, rfl⟩ := mem_armyResults (w := 0) ha
    rfl

theorem Watching.last_death {w w' : Watched} (h : Watching w) (hstart : w.monitor.gameStarted = true)
    {id unitId : ℕ} (hstep : w.step (.unitDied id unitId) = some w') (hlive : ∃ k, w.monitor.Active k)
    (hlast : ∀ k, ¬ w'.monitor.Active k) (hbefore : ∀ t, w.wonAt = some t →
      getMostRecentGameTick w.monitor.players < t + w.monitor.drawGameTicks) :
    w'.monitor.gameResult.status ≠ .NOT_READY ∧ ∀ a ∈ w'.monitor.gameResult.results, a.score = 0 := by
  obtain ⟨s', hs', rfl⟩ := Option.map_eq_some_iff.mp hstep
  have hok := ok_of_step hs'
  have hmoved : w.monitor ≠ s' := by
    intro heq
    obtain rfl := heq
    obtain ⟨k, hk⟩ := hlive
    exact hlast k hk
  simp only [handle] at hok
  rw [onUnitDied_eq h.valid.sound] at hok
  split at hok
  · exact absurd (Except.ok.inj hok) hmoved
  split at hok
  · cases hok
  split at hok
  · cases hok
    have hb : Sound (w.monitor.kill id) := sound_kill h.valid.sound id
    obtain ⟨m, hkill, -, -⟩ := kill_recent w.monitor id
    rw [hkill] at hb hlast ⊢
    set b : GameMonitor2 := { w.monitor with players := m } with hbdef
    obtain ⟨r, cs, hlatch⟩ := latchDeath_eq_withResult b
    have hnobody : ∀ k, ¬ b.Active k := by
      rw [hlatch] at hlast
      exact hlast
    by_cases hstatus : b.gameResult.status = .NOT_READY
    · have hv := (verdict_spec hb).2
      have hzero : b.latchDeath = b.latchEndGameResult 0 := by
        unfold latchDeath
        generalize b.verdict = v at hv
        cases hv with
        | notStarted hno => exact absurd (hstart.symm.trans hno) (by decide)
        | nobody => rfl
        | won _ hk => exact absurd hk (hnobody _)
        | draw _ hk => exact absurd hk (hnobody _)
        | goesOn _ hk => exact absurd hk (hnobody _)
      rw [hzero]
      exact latch_zero hstatus
    · have hstays := (judged_latchDeath hb).stays hstatus
      have hpending := h.pending hstart
      rw [hstays.status, hstays.results]
      refine ⟨hstatus, fun a ha => ?_⟩
      cases hover : w.monitor.gameResult.status with
      | NOT_READY => exact absurd hover hstatus
      | VOID_RESULT =>
        have hempty : b.gameResult.results = [] := hpending.void hover
        rw [hempty] at ha
        cases ha
      | READY_RESULT =>
        by_contra hscore
        obtain ⟨t, ht, hle⟩ := hpending.late hover ⟨a, ha, hscore⟩
        exact absurd hle (not_le.mpr (hbefore t ht))
  · exact absurd (Except.ok.inj hok) hmoved

theorem watching_or_nameless {c : Setup} (hdraw : c.drawGameTicks < 2 ^ 30) {w : Watched}
    (h : Runs Watched.step Undisturbed ⟨.new c, none⟩ w) :
    Nameless w.monitor ∨ Watching w ∧ w.monitor.drawGameTicks = c.drawGameTicks := by
  refine Runs.invariant (P := fun v => Nameless v.monitor ∨ Watching v ∧ v.monitor.drawGameTicks = c.drawGameTicks)
    h ?_ ?_
  · rcases valid_or_nameless c with hno | hv
    · exact .inl hno
    · refine .inr ⟨⟨hv, hdraw, ?_, fun _ => rfl, nofun⟩, rfl⟩
      intro k p hp
      simp [GameMonitor2.new] at hp
  · intro v e v' hv he hstep
    obtain ⟨s', hs', rfl⟩ := Option.map_eq_some_iff.mp hstep
    rcases hv with hno | ⟨hwatching, hsame⟩
    · exact .inl (hno.step hs')
    · have ho := step_outcome hwatching.valid.sound hs'
      exact .inr ⟨hwatching.step he hstep, ho.drawGameTicks.trans hsame⟩

/-- While a deadline is pending the check finds the winner or nobody, also where a tick looks for
it. In an undisturbed game a victory is not announced before the draw window has passed, and
nobody wins when the last player dies within it. -/
theorem deferred_victory {c : Setup} (hdraw : c.drawGameTicks < 2 ^ 30) :
    (∀ s, Runs GameMonitor2.step (fun _ _ => True) (.new c) s →
      (s.gameResult.status = .NOT_READY → 0 < s.gameResult.endGameTick →
        ∃ winner : ℤ, s.checkEndGameCondition = .ok (some winner) ∧ 0 ≤ winner) ∧
      ∀ id tick m, s.players.contains id = true → s.beforeDue id tick = .ok m →
        m.gameResult.status = .NOT_READY → 0 < m.gameResult.endGameTick →
        ∃ winner : ℤ, m.checkEndGameCondition = .ok (some winner) ∧ 0 ≤ winner) ∧
    ∀ w, Runs Watched.step Undisturbed ⟨.new c, none⟩ w →
      (w.monitor.gameResult.status = .READY_RESULT → HasWinner w.monitor.gameResult →
        ∃ t, w.wonAt = some t ∧ t + c.drawGameTicks ≤ getMostRecentGameTick w.monitor.players) ∧
      ∀ id unitId w', w.monitor.gameStarted = true → w.step (.unitDied id unitId) = some w' →
        (∃ k, w.monitor.Active k) → (∀ k, ¬ w'.monitor.Active k) →
        (∀ t, w.wonAt = some t → getMostRecentGameTick w.monitor.players < t + c.drawGameTicks) →
        ∀ s, Runs GameMonitor2.step InGame w'.monitor s →
          s.gameResult.status ≠ .NOT_READY ∧ ∀ a ∈ s.gameResult.results, a.score = 0 := by
  constructor
  · intro s hs
    rcases valid_or_nameless c with hno | hnew
    · have hn : Nameless s := hno.runs hs
      constructor
      · intro _ hdue
        rw [hn.result] at hdue
        exact absurd hdue (by decide)
      · intro id tick m hc
        rw [hn.contains] at hc
        cases hc
    · have hv : Valid s := hnew.runs hs
      exact ⟨hv.check_of_deadline, fun id tick m _ hm => (hv.beforeDue hm).check_of_deadline⟩
  · intro w hw
    rcases watching_or_nameless hdraw hw with hno | ⟨hwatching, hsame⟩
    · constructor
      · intro hready
        rw [hno.result] at hready
        cases hready
      · intro id unitId w' hstart
        rw [hno.waiting] at hstart
        cases hstart
    · rw [← hsame]
      constructor
      · intro hready hwinner
        by_cases hstart : w.monitor.gameStarted = true
        · exact (hwatching.pending hstart).late hready hwinner
        · rw [hwatching.valid.fresh (by simpa using hstart)] at hready
          cases hready
      · intro id unitId w' hstart hstep hlive hlast hbefore s hs
        obtain ⟨hover, hzero⟩ := hwatching.last_death hstart hstep hlive hlast hbefore
        have hstays := runs_stay (hwatching.step (e := .unitDied id unitId) trivial hstep).valid hs hover
        rw [hstays.status, hstays.results]
        exact ⟨hover, hzero⟩

/-- In the duel `b` dies at tick 11, and `a` wins at tick 17. -/
theorem deferred_victory_duel : ∃ w : Watched, Runs Watched.step Undisturbed ⟨.new duel, none⟩ w ∧
    w.monitor.gameResult.status = .READY_RESULT ∧
    ∃ t, w.wonAt = some t ∧ t + 5 ≤ getMostRecentGameTick w.monitor.players := by
  have hend : (run (guarded Watched.step Undisturbed) ⟨.new duel, none⟩
      (duelEvents ++ [.unitDied 2 101, .gameTick 1 17])).map
      (fun w => (w.monitor.gameResult.status, w.monitor.gameResult.results.map (·.score))) =
      some (.READY_RESULT, [1, -1]) := by decide +kernel
  obtain ⟨w, hrun, hw⟩ := Option.map_eq_some_iff.mp hend
  obtain ⟨hready, hscores⟩ := Prod.mk.inj hw
  have hwinner : HasWinner w.monitor.gameResult := by
    obtain ⟨a, ha, hscore⟩ := List.mem_map.mp (hscores ▸ List.mem_cons_self : (1 : ℤ) ∈ _)
    exact ⟨a, ha, by rw [hscore]; decide⟩
  have hruns : Runs Watched.step Undisturbed ⟨.new duel, none⟩ w := Runs.of_run_guarded _ hrun
  exact ⟨w, hruns, hready, ((deferred_victory (c := duel) (by decide)).2 w hruns).1 hready hwinner⟩

end GameMonitor2

end Gpgnet4TA.App
