import Gpgnet4TA.App.Battleroom

/-!
# The unit limit

A dead unit is a commander when its id is 1 modulo the unit limit, which the monitor learns from
the statuses of the host. `Told` remembers the limit in the last of them and the one that came
with the first to name the present map. The monitor divides by the second.
-/

namespace Gpgnet4TA.App
open Gpgnet4TA.Lib

/-- The map and the limit in a status of the host that the monitor accepts. -/
def GameMonitor2.acceptedStatus (s : GameMonitor2) : Event → Option (Text × ℕ)
  | .status sourceDplayId mapName maxUnits _ _ _ _ =>
    if s.players.contains sourceDplayId = true ∧ s.gameStarted = false ∧ sourceDplayId = s.hostDplayId ∧
        mapName ≠ [] ∧ maxUnits > 0 then some (mapName, maxUnits)
    else none
  | _ => none

/-- The handler divides by the unit limit. -/
def GameMonitor2.divides (s : GameMonitor2) : Event → Bool
  | .unitDied sourceDplayId _ => s.players.contains sourceDplayId
  | _ => false

/-- A monitor, and what the host has told it. -/
structure Told where
  monitor : GameMonitor2
  last : Option ℕ
  first : Option ℕ
  map : Text

namespace Told

def new (c : Setup) : Told := ⟨.new c, none, none, []⟩

def hear (w : Told) (s : GameMonitor2) : Event → Told
  | .reset => { w with monitor := s, map := [] }
  | e =>
    match w.monitor.acceptedStatus e with
    | some (map, maxUnits) => ⟨s, some maxUnits, if w.map = map then w.first else some maxUnits, map⟩
    | none => { w with monitor := s }

def step (w : Told) (e : Event) : Option Told := (w.monitor.step e).map fun s => w.hear s e

end Told

/-! ### What a step makes of the map and the limit -/

namespace GameMonitor2

variable {s s' : GameMonitor2}

def limits (s : GameMonitor2) : Text × ℕ := (s.mapName, s.maxUnits)

theorem limits_onHostStatus (s : GameMonitor2) (id : ℕ) (mapName : Text) (maxUnits : ℕ) :
    (s.onHostStatus id mapName maxUnits).limits =
      if id = s.hostDplayId ∧ mapName ≠ [] ∧ maxUnits > 0 then
        (mapName, if s.mapName = mapName then s.maxUnits else maxUnits)
      else s.limits := by
  unfold onHostStatus
  by_cases hhost : id = s.hostDplayId ∧ mapName ≠ [] ∧ maxUnits > 0
  · rw [if_pos hhost]
    by_cases hmap : s.mapName = mapName
    · rw [if_neg fun hall => hall.2.2.2 hmap, if_pos hmap, ← hmap]
      rfl
    · rw [if_pos ⟨hhost.1, hhost.2.1, hhost.2.2, hmap⟩, if_neg hmap, call_eq]
      rfl
  · rw [if_neg fun hall => hhost ⟨hall.1, hall.2.1, hall.2.2.1⟩, if_neg hhost]

theorem limits_onStatus (h : Sound s) {id : ℕ} {mapName : Text} {maxUnits slot : ℕ} {side : ℤ}
    {isWatcher isAI : Bool} (hrun : s.onStatus id mapName maxUnits slot side isWatcher isAI = .ok s') :
    s'.limits =
      if s.players.contains id = true ∧ s.gameStarted = false ∧ id = s.hostDplayId ∧ mapName ≠ [] ∧ maxUnits > 0 then
        (mapName, if s.mapName = mapName then s.maxUnits else maxUnits)
      else s.limits := by
  cases hp : s.players[id]? with
  | none =>
    have hno : s.players.contains id = false := Table.contains_eq_false.mpr hp
    simp only [onStatus, hp] at hrun
    cases hrun
    rw [if_neg fun hall => absurd (hno.symm.trans hall.1) (by decide)]
  | some p =>
    have hc : s.players.contains id = true := Table.contains_of_getElem? hp
    by_cases hstart : s.gameStarted = false
    · have hhost {t : GameMonitor2} (hid : t.hostDplayId = s.hostDplayId) (hlimits : t.limits = s.limits) :
          (t.onHostStatus id mapName maxUnits).limits =
            if s.players.contains id = true ∧ s.gameStarted = false ∧ id = s.hostDplayId ∧ mapName ≠ [] ∧
              maxUnits > 0 then (mapName, if s.mapName = mapName then s.maxUnits else maxUnits) else s.limits := by
        obtain ⟨hmap, hmax⟩ := Prod.mk.inj hlimits
        rw [limits_onHostStatus, hid, hlimits, hmap, hmax]
        simp only [hc, hstart, true_and]
      rw [onStatus_eq hp hstart] at hrun
      split at hrun
      · have hw : Players.Wf (s.players.insert id (described p slot side isWatcher isAI)) :=
          h.players.replace hp rfl (h.players.allies id p hp)
        obtain ⟨m', cs, -, -, hok⟩ := renumber_spec (s := { s with
          players := s.players.insert id (described p slot side isWatcher isAI) }) hw
        rw [hok] at hrun
        cases hrun
        exact hhost rfl rfl
      · cases hrun
        exact hhost rfl rfl
    · simp only [Bool.not_eq_false] at hstart
      simp only [onStatus, hp, hstart, if_true] at hrun
      cases hrun
      rw [if_neg fun hall => absurd (hstart.symm.trans hall.2.1) (by decide)]

theorem limits_withResult {t : GameMonitor2} (h : ∃ r cs, s' = t.withResult r cs) : s'.limits = t.limits := by
  obtain ⟨r, cs, rfl⟩ := h
  rfl

theorem limits_addPlayer (h : Sound s) {setter : String} {id : ℕ} (hid : id ≠ 0) {name : Text}
    (hrun : s.addPlayer setter id name = .ok s') : s'.limits = s.limits := by
  obtain ⟨m', -, hok⟩ := addPlayer_spec h setter hid name
  rw [hrun] at hok
  cases hok
  rfl

theorem limits_removePlayer (h : Sound s) {id : ℕ} (hc : s.players.contains id = true)
    (hrun : s.removePlayer id = .ok s') : s'.limits = s.limits := by
  obtain ⟨p, hp⟩ := contains_eq_true_iff.mp hc
  rcases removePlayer_spec h hp with herr | ⟨m', cs, -, -, hok⟩
  · rw [hrun] at herr
    cases herr
  · rw [hrun] at hok
    cases hok
    rfl

theorem limits_alliance (h : Sound s) {e : Event} (he : e.isAlliance = true) (hrun : s.handle e = .ok s') :
    s'.limits = s.limits := by
  rcases handle_alliance h he with ⟨-, hok⟩ | ⟨m, changed, cs, -, -, -, hno, hyes⟩
  · rw [← Except.ok.inj (hok.symm.trans hrun)]
  · cases changed with
    | false =>
      rw [← Except.ok.inj ((hno rfl).symm.trans hrun)]
      rfl
    | true =>
      obtain ⟨m', -, hok⟩ := hyes rfl
      rw [← Except.ok.inj (hok.symm.trans hrun), limits_withResult (latchDraw_eq_withResult _)]
      rfl

theorem limits_kill (s : GameMonitor2) (id : ℕ) : (s.kill id).limits = s.limits := by
  unfold kill
  split <;> rfl

theorem limits_advanceTick (s : GameMonitor2) (id tick : ℕ) : (s.advanceTick id tick).limits = s.limits := by
  rcases advanceTick_cases s id tick with heq | ⟨p, -, heq⟩
  · rw [heq]
  · rw [heq]
    rfl

theorem limits_onGameTick (h : Sound s) {id tick : ℕ} (hrun : s.onGameTick id tick = .ok s') :
    s'.limits = s.limits := by
  by_cases hc : s.players.contains id = true
  · by_cases hstart : s.gameStarted = false ∧ tick > s.gameStartsAfterTickCount
    · obtain ⟨cs, -, hok⟩ := onGameTick_starts h hc hstart.1 hstart.2
      rw [← Except.ok.inj (hok.symm.trans hrun), limits_withResult (latchDue_eq_withResult _), limits_advanceTick,
        limits_withResult (latchStart_eq_withResult _)]
      rfl
    · obtain ⟨cs, -, hlaunch⟩ := launchGame_spec s tick
      have hok := onGameTick_goesOn h hc hstart
      rw [← Except.ok.inj (hok.symm.trans hrun), limits_withResult (latchDue_eq_withResult _), limits_advanceTick,
        hlaunch]
      rfl
  · unfold onGameTick at hrun
    rw [if_pos (Bool.not_eq_true _ ▸ hc)] at hrun
    cases hrun
    rfl

/-- Only an accepted status of the host and a reset change the map or the limit. -/
theorem limits_step (h : Sound s) {e : Event} (hreset : e ≠ .reset) (hstep : s.step e = some s') :
    s'.limits =
      match s.acceptedStatus e with
      | some (mapName, maxUnits) => (mapName, if s.mapName = mapName then s.maxUnits else maxUnits)
      | none => s.limits := by
  have hok := ok_of_step hstep
  cases e with
  | superEnumPlayerReply dplayId name =>
    simp only [handle, onDplaySuperEnumPlayerReply] at hok
    split at hok
    · rename_i hc
      exact limits_addPlayer h hc.2.2.ne' hok
    · cases hok
      rfl
  | createOrForwardPlayer command dplayId name =>
    simp only [handle, onDplayCreateOrForwardPlayer] at hok
    split at hok
    · rename_i hc
      exact limits_addPlayer h hc.2.2.2.ne' hok
    · cases hok
      rfl
  | deletePlayer dplayId =>
    simp only [handle] at hok
    rw [onDplayDeletePlayer_eq h] at hok
    split at hok
    · cases hok
      rfl
    rename_i hc
    split at hok
    · exact limits_removePlayer h (by simpa using fun h0 => hc (Or.inr h0)) hok
    · cases hok
      exact limits_withResult (latchVerdict_eq_withResult s)
  | status sourceDplayId mapName maxUnits slot side isWatcher isAI =>
    rw [limits_onStatus h hok, acceptedStatus]
    split <;> rfl
  | chat sourceDplayId chat => exact limits_alliance h rfl hok
  | alliance subjectDpid objectDpid isAllied => exact limits_alliance h rfl hok
  | teamSelection fromDplayId teamNumber => exact limits_alliance h rfl hok
  | unitDied sourceDplayId unitId =>
    simp only [handle] at hok
    rw [onUnitDied_eq h] at hok
    split at hok
    · cases hok
      rfl
    split at hok
    · cases hok
    split at hok
    · cases hok
      exact (limits_withResult (latchDeath_eq_withResult _)).trans (limits_kill s sourceDplayId)
    · cases hok
      rfl
  | rejectOther sourceDplayId rejectedDplayId =>
    simp only [handle] at hok
    rw [onRejectOther_eq h] at hok
    split at hok
    · cases hok
      rfl
    rename_i hc
    split at hok
    · exact limits_removePlayer h (by simpa using fun h0 => hc (Or.inr h0)) hok
    · cases hok
      exact (limits_withResult (latchVerdict_eq_withResult _)).trans (limits_kill s rejectedDplayId)
  | gameTick sourceDplayId tick => exact limits_onGameTick h hok
  | reset => exact absurd rfl hreset

end GameMonitor2

/-! ### What the host has told -/

namespace Told

open GameMonitor2 (duel duelEvents)

variable {w w' : Told}

/-- The monitor has the present map, and the limit that came with it. -/
structure Tracks (w : Told) : Prop where
  map : w.monitor.mapName = w.map
  limit : ∀ m, w.first = some m → w.monitor.maxUnits = m
  both : w.last = none ↔ w.first = none
  named : w.map ≠ [] → w.first ≠ none

theorem Tracks.hear (h : Tracks w) {s' : GameMonitor2} {e : Event} (hreset : e ≠ .reset)
    (hlimits : s'.limits =
      match w.monitor.acceptedStatus e with
      | some (mapName, maxUnits) =>
        (mapName, if w.monitor.mapName = mapName then w.monitor.maxUnits else maxUnits)
      | none => w.monitor.limits) : Tracks (w.hear s' e) := by
  have hear : w.hear s' e =
      match w.monitor.acceptedStatus e with
      | some (map, maxUnits) => ⟨s', some maxUnits, if w.map = map then w.first else some maxUnits, map⟩
      | none => { w with monitor := s' } := by
    cases e <;> first | rfl | exact absurd rfl hreset
  rw [hear]
  cases hhost : w.monitor.acceptedStatus e with
  | none =>
    rw [hhost] at hlimits
    obtain ⟨hmap, hmax⟩ := Prod.mk.inj hlimits
    exact ⟨hmap.trans h.map, fun m hm => hmax.trans (h.limit m hm), h.both, h.named⟩
  | some told =>
    obtain ⟨mapName, maxUnits⟩ := told
    rw [hhost] at hlimits
    obtain ⟨hmap, hmax⟩ := Prod.mk.inj hlimits
    have hname : mapName ≠ [] := by
      cases e with
      | status =>
        simp only [GameMonitor2.acceptedStatus] at hhost
        split at hhost
        · rename_i hall
          rw [← (Prod.mk.inj (Option.some.inj hhost)).1]
          exact hall.2.2.2.1
        · cases hhost
      | _ => cases hhost
    by_cases hsame : w.map = mapName
    · rw [h.map, if_pos hsame] at hmax
      have hfirst : w.first ≠ none := h.named (hsame ▸ hname)
      simp only [if_pos hsame]
      exact ⟨hmap, fun m hm => hmax.trans (h.limit m hm), ⟨nofun, fun hno => absurd hno hfirst⟩, fun _ => hfirst⟩
    · rw [h.map, if_neg hsame] at hmax
      simp only [if_neg hsame]
      exact ⟨hmap, fun m hm => hmax.trans (Option.some.inj hm), ⟨nofun, nofun⟩, fun _ => nofun⟩

theorem Tracks.step (h : Tracks w) (hmonitor : GameMonitor2.Nameless w.monitor ∨ GameMonitor2.Valid w.monitor)
    {e : Event} (hstep : w.step e = some w') : Tracks w' := by
  obtain ⟨s', hs', rfl⟩ := Option.map_eq_some_iff.mp hstep
  by_cases hreset : e = .reset
  · subst hreset
    cases GameMonitor2.ok_of_step hs'
    exact ⟨rfl, h.limit, h.both, fun hno => absurd rfl hno⟩
  · refine h.hear hreset ?_
    rcases hmonitor with hno | hv
    · have hhost : w.monitor.acceptedStatus e = none := by
        cases e with
        | status id => exact if_neg fun hall => absurd ((hno.contains id).symm.trans hall.1) (by decide)
        | _ => rfl
      rw [hhost, hno.idle hreset hs']
    · exact GameMonitor2.limits_step hv.sound hreset hs'

theorem tracks_of_runs {c : Setup} (h : Runs step (fun _ _ => True) (.new c) w) : Tracks w := by
  have hboth : Tracks w ∧ (GameMonitor2.Nameless w.monitor ∨ GameMonitor2.Valid w.monitor) := by
    refine Runs.invariant (P := fun v => Tracks v ∧ (GameMonitor2.Nameless v.monitor ∨ GameMonitor2.Valid v.monitor))
      h ⟨⟨rfl, nofun, Iff.rfl, fun hno => absurd rfl hno⟩, GameMonitor2.valid_or_nameless c⟩ ?_
    intro v e v' hv _ hstep
    refine ⟨hv.1.step hv.2 hstep, ?_⟩
    obtain ⟨s', hs', rfl⟩ := Option.map_eq_some_iff.mp hstep
    have hmonitor : (v.hear s' e).monitor = s' := by
      unfold hear
      split
      · rfl
      · split <;> rfl
    rw [hmonitor]
    exact hv.2.imp (·.step hs') fun hvalid => hvalid.outcome (GameMonitor2.step_outcome hvalid.sound hs')
  exact hboth.1

/-- A death is judged with the limit of the host's last status exactly if there has been one, and
the status that first named the present map told the same limit. -/
theorem judged_with_last_limit_iff {c : Setup} (h : Runs step (fun _ _ => True) (.new c) w) (e : Event) :
    (w.monitor.divides e = true → w.last = some w.monitor.maxUnits) ↔
      (w.monitor.divides e = true → w.last ≠ none ∧ w.first = w.last) := by
  have ht := tracks_of_runs h
  refine imp_congr_right fun _ => ?_
  constructor
  · intro hlast
    have htold : w.last ≠ none := by
      rw [hlast]
      exact nofun
    obtain ⟨m, hm⟩ := Option.ne_none_iff_exists'.mp (mt ht.both.mpr htold)
    exact ⟨htold, by rw [hm, hlast, ht.limit m hm]⟩
  · intro hx
    obtain ⟨htold, hsame⟩ := hx
    obtain ⟨m, hm⟩ := Option.ne_none_iff_exists'.mp htold
    rw [hm, ht.limit m (hsame.trans hm)]

theorem judged_with_last_limit_duel : ∃ w, Runs step (fun _ _ => True) (.new duel) w ∧
    w.monitor.divides (.unitDied 2 101) = true ∧ w.last = some 100 ∧ w.last = some w.monitor.maxUnits := by
  have hend : (run step (.new duel) duelEvents).map
      (fun w => (w.monitor.divides (.unitDied 2 101), w.last, w.first)) = some (true, some 100, some 100) := by
    decide +kernel
  obtain ⟨w, hrun, hw⟩ := Option.map_eq_some_iff.mp hend
  simp only [Prod.mk.injEq] at hw
  obtain ⟨hdivides, hlast, hfirst⟩ := hw
  have hruns : Runs step (fun _ _ => True) (.new duel) w := Runs.of_run duelEvents hrun fun _ _ _ => trivial
  have hjudged := (judged_with_last_limit_iff hruns (.unitDied 2 101)).mpr
    fun _ => ⟨by rw [hlast]; exact nofun, hfirst.trans hlast.symm⟩
  exact ⟨w, hruns, hdivides, hlast, hjudged hdivides⟩

/-- The host raises the limit and keeps the map; or a unit dies before the host has told one. -/
def raisedLimit : List Event :=
  [.createOrForwardPlayer 8 1 "a".toList, .createOrForwardPlayer 8 2 "b".toList,
    .status 1 "map".toList 100 0 0 false false, .status 2 "map".toList 150 1 0 false false,
    .status 1 "map".toList 150 0 0 false false, .gameTick 1 11]

theorem not_judged_with_last_limit :
    (∃ w, Runs step (fun _ _ => True) (.new duel) w ∧ w.monitor.divides (.unitDied 2 151) = true ∧
      w.last = some 150 ∧ w.monitor.maxUnits = 100 ∧
      ((w.monitor.step (.unitDied 2 151)).bind fun s => (s.players[2]?).map (·.isDead)) = some false) ∧
    ∃ w, Runs step (fun _ _ => True) (.new duel) w ∧ w.monitor.divides (.unitDied 1 1) = true ∧ w.last = none ∧
      w.monitor.maxUnits = duel.uninitialised := by
  constructor
  · have hend : (run step (.new duel) raisedLimit).map (fun w => (w.monitor.divides (.unitDied 2 151), w.last,
        w.monitor.maxUnits, (w.monitor.step (.unitDied 2 151)).bind fun s => (s.players[2]?).map (·.isDead))) =
        some (true, some 150, 100, some false) := by decide +kernel
    obtain ⟨w, hrun, hw⟩ := Option.map_eq_some_iff.mp hend
    simp only [Prod.mk.injEq] at hw
    exact ⟨w, Runs.of_run raisedLimit hrun fun _ _ _ => trivial, hw⟩
  · have hend : (run step (.new duel) [.createOrForwardPlayer 8 1 "a".toList]).map (fun w =>
        (w.monitor.divides (.unitDied 1 1), w.last, w.monitor.maxUnits)) =
        some (true, none, duel.uninitialised) := by decide +kernel
    obtain ⟨w, hrun, hw⟩ := Option.map_eq_some_iff.mp hend
    simp only [Prod.mk.injEq] at hw
    exact ⟨w, Runs.of_run _ hrun fun _ _ _ => trivial, hw⟩

end Told

end Gpgnet4TA.App
