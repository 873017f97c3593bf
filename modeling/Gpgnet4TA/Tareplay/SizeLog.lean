import Gpgnet4TA.Lib.Table
import Gpgnet4TA.Lib.Window
import Gpgnet4TA.Tareplay.ReplayServer

/-!
# The trim loop of the size log (`TaReplayServer.cpp:283-312`)

The sizes that are too old are taken from the queue one by one. The bound is an `int`: where it is
negative, the loop goes on when the queue is empty.
-/

namespace Gpgnet4TA.Tareplay
open Gpgnet4TA.Lib

/-- `while (size() > requiredLogSize) dequeue()`; `none` where nothing is left to be dequeued. -/
def dequeueLoop (requiredLogSize : ℤ) : ℕ → List ℤ → Option (List ℤ)
  | 0, _ => none
  | fuel + 1, log =>
    if (log.length : ℤ) > requiredLogSize then
      match log with
      | [] => none
      | _ :: log => dequeueLoop requiredLogSize fuel log
    else some log

/-- The sizes kept so far, with the one of this tick. -/
def keptSizes (files : Files) (game : GameInfo) : GameInfo := logSize files (startMonitoring files game)

/-- `updateFileSizeLog` with its loop. -/
def updateFileSizeLogLoop (files : Files) (game : GameInfo) : Option GameInfo :=
  match (keptSizes files game).demoFileSizeLog with
  | none => some (keptSizes files game)
  | some log => (dequeueLoop (requiredLogSize game) (log.length + 1) log).map fun log =>
      { keptSizes files game with demoFileSizeLog := some log }

/-- The loop ends, nothing is dequeued from an empty queue, and the most recent sizes stay. -/
def KeepsRecent (files : Files) (game : GameInfo) : Prop :=
  ∃ game', updateFileSizeLogLoop files game = some game' ∧
    game'.demoFileSizeLog =
      (keptSizes files game).demoFileSizeLog.map (·.rtake (max 0 (1 + game.delaySeconds)).toNat)

section loop

variable {files : Files} {game : GameInfo} {required : ℤ} {fuel : ℕ} {log : List ℤ}

theorem dequeueLoop_spec (hfuel : log.length < fuel) (hrequired : 0 ≤ required) :
    dequeueLoop required fuel log = some (log.rtake required.toNat) := by
  induction log generalizing fuel with
  | nil =>
    obtain ⟨fuel, rfl⟩ : ∃ k, fuel = k + 1 := ⟨fuel - 1, by omega⟩
    rw [dequeueLoop, if_neg (by rw [List.length_nil]; omega), List.rtake_nil]
  | cons size log ih =>
    obtain ⟨fuel, rfl⟩ : ∃ k, fuel = k + 1 := ⟨fuel - 1, by omega⟩
    rw [dequeueLoop]
    split
    · rename_i hlong
      rw [rtake_cons size (by omega)]
      exact ih (by rw [List.length_cons] at hfuel; omega)
    · rename_i hshort
      rw [rtake_of_le (by omega)]

theorem dequeueLoop_negative (hrequired : required < 0) (fuel : ℕ) (log : List ℤ) :
    dequeueLoop required fuel log = none := by
  induction fuel generalizing log with
  | zero => rfl
  | succ fuel ih =>
    cases log with
    | nil => rw [dequeueLoop, if_pos (by rw [List.length_nil]; omega)]
    | cons size log =>
      rw [dequeueLoop, if_pos (by omega)]
      exact ih log

theorem keptSizes_delay (files : Files) (game : GameInfo) :
    (keptSizes files game).delaySeconds = game.delaySeconds := by
  have hstart : (startMonitoring files game).delaySeconds = game.delaySeconds := by
    unfold startMonitoring
    split
    · split <;> rfl
    · rfl
  unfold keptSizes logSize
  split
  · exact hstart
  · exact hstart

/-- The closed form of the server's step is what the loop computes. -/
theorem updateFileSizeLogLoop_eq (files : Files) (game : GameInfo) :
    updateFileSizeLogLoop files game =
      if dequeuesEmpty files game then none else some (updateFileSizeLog files game) := by
  have hdelay := keptSizes_delay files game
  have hupdate : updateFileSizeLog files game = trimLog (keptSizes files game) := rfl
  have hbound : requiredLogSize (keptSizes files game) = requiredLogSize game := by
    rw [requiredLogSize, requiredLogSize, hdelay]
  unfold updateFileSizeLogLoop dequeuesEmpty
  rw [hupdate, trimLog, hbound]
  generalize keptSizes files game = kept
  cases hlog : kept.demoFileSizeLog with
  | none =>
    rw [if_neg (by simp)]
    simp only [Option.map_none]
    rw [← hlog]
  | some log =>
    simp only [Option.map_some, Option.isSome_some, true_and, decide_eq_true_eq]
    split
    · rename_i hnegative
      rw [dequeueLoop_negative hnegative, Option.map_none]
    · rename_i hrequired
      rw [dequeueLoop_spec (Nat.lt_succ_self _) (not_lt.mp hrequired), Option.map_some]
      rfl

theorem keepsRecent_iff (hint : -2 ^ 31 ≤ game.delaySeconds ∧ game.delaySeconds < 2 ^ 31) :
    KeepsRecent files game ↔ ((keptSizes files game).demoFileSizeLog.isSome →
      -1 ≤ game.delaySeconds ∧ game.delaySeconds ≠ 2 ^ 31 - 1) := by
  have hrequired : 0 ≤ requiredLogSize game ↔ -1 ≤ game.delaySeconds ∧ game.delaySeconds ≠ 2 ^ 31 - 1 := by
    by_cases hmax : game.delaySeconds = 2 ^ 31 - 1
    · rw [requiredLogSize, hmax]
      decide
    · rw [requiredLogSize, int32_eq (by omega) (by omega)]
      omega
  unfold KeepsRecent updateFileSizeLogLoop
  cases hlog : (keptSizes files game).demoFileSizeLog with
  | none => exact iff_of_true ⟨_, rfl, hlog⟩ nofun
  | some log =>
    simp only [Option.isSome_some, forall_const, ← hrequired, Option.map_some]
    constructor
    · intro h
      obtain ⟨game', hloop, -⟩ := h
      by_contra hnegative
      rw [dequeueLoop_negative (not_le.mp hnegative), Option.map_none] at hloop
      cases hloop
    · intro h
      have hbound : requiredLogSize game = max 0 (1 + game.delaySeconds) := by
        obtain ⟨hge, hne⟩ := hrequired.mp h
        rw [requiredLogSize, int32_eq (by omega) (by omega), max_eq_right (by omega)]
      rw [dequeueLoop_spec (Nat.lt_succ_self _) h, hbound]
      exact ⟨_, rfl, rfl⟩

end loop

/-! ### Over runs -/

/-- `delaySeconds` is an `int`. -/
def DelayIsInt : Event → Prop
  | .setGameInfo _ delaySeconds _ => -2 ^ 31 ≤ delaySeconds ∧ delaySeconds < 2 ^ 31
  | _ => True

instance : DecidablePred DelayIsInt
  | .setGameInfo _ delaySeconds _ => inferInstanceAs (Decidable (-2 ^ 31 ≤ delaySeconds ∧ delaySeconds < 2 ^ 31))
  | .create .. | .append .. | .newConnection .. | .disconnected .. | .readyRead .. | .bytesWritten ..
  | .timerEvent => isTrue trivial

/-- What is known of an entry of the table of games. -/
structure Entered (w : World) (gameId : ℕ) (game : GameInfo) : Prop where
  id : game.gameId = gameId
  delay : -2 ^ 31 ≤ game.delaySeconds ∧ game.delaySeconds < 2 ^ 31
  log : game.demoFileSizeLog.isSome ↔ game.demoFile.isSome
  file : game.demoFile.isSome → (w.files gameId).isSome

section entries

variable {w w' : World} {gameId : ℕ} {game : GameInfo}

theorem Entered.startMonitoring (h : Entered w gameId game) :
    Entered w gameId (startMonitoring w.files game) ∧
      ((startMonitoring w.files game).demoFile.isSome ↔ (w.files gameId).isSome) := by
  unfold Tareplay.startMonitoring findReplayFileForGame
  rw [h.id]
  cases hdemo : game.demoFile with
  | some handle =>
    have hfile : (w.files gameId).isSome := h.file (by rw [hdemo]; rfl)
    rw [if_neg (by simp), hdemo]
    exact ⟨h, iff_of_true rfl hfile⟩
  | none =>
    rw [if_pos (by simp)]
    cases hfile : w.files gameId with
    | none =>
      simp only [Option.map_none, hdemo]
      exact ⟨h, Iff.rfl⟩
    | some f => exact ⟨⟨rfl, h.delay, Iff.rfl, fun _ => by rw [hfile]; rfl⟩, iff_of_true rfl rfl⟩

theorem Entered.keptSizes (h : Entered w gameId game) :
    Entered w gameId (keptSizes w.files game) ∧
      ((keptSizes w.files game).demoFileSizeLog.isSome ↔ (w.files gameId).isSome) := by
  obtain ⟨hstart, hdemo⟩ := h.startMonitoring
  unfold Tareplay.keptSizes logSize
  generalize Tareplay.startMonitoring w.files game = start at hstart hdemo
  split
  · exact ⟨hstart, hstart.log.trans hdemo⟩
  · rename_i handle _
    have hlog : (start.demoFileSizeLog.map (· ++ [int32 (handle.size w.files)])).isSome ↔
        start.demoFile.isSome := by
      rw [Option.isSome_map, hstart.log]
    exact ⟨⟨hstart.id, hstart.delay, hlog, hstart.file⟩, hlog.trans hdemo⟩

theorem Entered.updateFileSizeLog (h : Entered w gameId game) (hfiles : w'.files = w.files) :
    Entered w' gameId (updateFileSizeLog w.files game) := by
  obtain ⟨hkept, -⟩ := h.keptSizes
  refine ⟨hkept.id, hkept.delay, ?_, fun hdemo => ?_⟩
  · show (Option.map _ _).isSome ↔ _
    rw [Option.isSome_map]
    exact hkept.log
  · rw [hfiles]
    exact hkept.file hdemo

/-- All entries of a reachable world. -/
def AllEntered (w : World) : Prop :=
  ∀ (gameId : ℕ) (game : GameInfo), w.server.gameInfo[gameId]? = some game → Entered w gameId game

theorem AllEntered.grow (h : AllEntered w) (hinfo : w'.server.gameInfo = w.server.gameInfo)
    (hfiles : ∀ gameId, (w.files gameId).isSome → (w'.files gameId).isSome) : AllEntered w' := by
  intro gameId game hgame
  obtain ⟨hid, hdelay, hlog, hfile⟩ := h gameId game (hinfo ▸ hgame)
  exact ⟨hid, hdelay, hlog, fun hdemo => hfiles gameId (hfile hdemo)⟩

theorem AllEntered.same (h : AllEntered w) (hinfo : w'.server.gameInfo = w.server.gameInfo)
    (hfiles : w'.files = w.files) : AllEntered w' :=
  h.grow hinfo fun gameId hfile => by rw [hfiles]; exact hfile

theorem isSome_update (files : Files) (game : ℕ) (file : DemoFile) {gameId : ℕ} (h : (files gameId).isSome) :
    (Function.update files game (some file) gameId).isSome := by
  by_cases heq : gameId = game
  · rw [heq, Function.update_self]
    rfl
  · rw [Function.update_of_ne heq]
    exact h

theorem AllEntered.setGameInfo (h : AllEntered w) {gameId : ℕ} {delaySeconds : ℤ} {state : String}
    (hint : -2 ^ 31 ≤ delaySeconds ∧ delaySeconds < 2 ^ 31) :
    AllEntered { w with server := w.server.setGameInfo gameId delaySeconds state } := by
  intro k game hgame
  have hcopy {game : GameInfo} (he : Entered w k game) :
      Entered { w with server := w.server.setGameInfo gameId delaySeconds state } k game :=
    ⟨he.id, he.delay, he.log, he.file⟩
  dsimp only [Server.setGameInfo] at hgame
  split at hgame
  · dsimp only at hgame
    rw [Table.getElem?_erase] at hgame
    split at hgame
    · cases hgame
    · exact hcopy (h k game hgame)
  · dsimp only at hgame
    rw [Table.getElem?_insert] at hgame
    split at hgame
    · rename_i hk
      cases hgame
      cases hold : w.server.gameInfo[gameId]? with
      | none => exact ⟨hk.symm, hint, Iff.rfl, nofun⟩
      | some old =>
        have he := h gameId old hold
        rw [hk]
        exact ⟨rfl, hint, he.log, he.file⟩
    · exact hcopy (h k game hgame)

theorem AllEntered.step (h : AllEntered w) {e : Event} (hint : DelayIsInt e) (hs : w.step e = some w') :
    AllEntered w' := by
  cases e with
  | create game readable =>
    simp only [World.step, World.create] at hs
    split at hs
    · cases hs
    · cases hs
      exact h.grow rfl fun gameId hfile => isSome_update _ _ _ hfile
  | append game data =>
    obtain ⟨f, -, rfl⟩ := Option.map_eq_some_iff.mp hs
    exact h.grow rfl fun gameId hfile => isSome_update _ _ _ hfile
  | setGameInfo gameId delaySeconds state =>
    cases hs
    exact h.setGameInfo hint
  | newConnection socket =>
    cases hs
    unfold World.newConnection
    split
    · exact h
    · exact h.same rfl rfl
  | disconnected socket =>
    cases hs
    exact h.same rfl rfl
  | readyRead socket chunk =>
    simp only [World.step, World.readyRead] at hs
    split at hs
    · cases hs
      exact h
    · obtain ⟨⟨user, out⟩, -, hend⟩ := Option.map_eq_some_iff.mp hs
      simp only [] at hend
      split at hend
      · rw [← hend]
        exact h.same rfl rfl
      · rw [← hend]
        exact h.same rfl rfl
  | bytesWritten socket n =>
    cases hs
    unfold World.bytesWritten
    split
    · exact h
    · exact h.same rfl rfl
  | timerEvent =>
    simp only [World.step, World.timerEvent] at hs
    split at hs
    · cases hs
    · cases hs
      intro gameId game hgame
      dsimp only [World.serviceUsers, World.updateLogs] at hgame
      rw [Std.ExtTreeMap.getElem?_map] at hgame
      obtain ⟨old, hold, rfl⟩ := Option.map_eq_some_iff.mp hgame
      exact (h gameId old hold).updateFileSizeLog rfl

theorem allEntered_of_runs {maxBytes : ℤ} (h : Runs World.step (fun _ e => DelayIsInt e) (World.new maxBytes) w) :
    AllEntered w := by
  refine Runs.invariant h ?_ fun w e w' hw hint hs => hw.step hint hs
  intro gameId game hgame
  simp [World.new, Server.new] at hgame

end entries

/-- In whatever state of the server a tick comes, the log of a game is trimmed to its most recent
sizes exactly if the game has no replay file yet, or its delay is at least -1 and one second can be
added to it. -/
theorem size_log_iff {maxBytes : ℤ} {w : World}
    (h : Runs World.step (fun _ e => DelayIsInt e) (World.new maxBytes) w) {gameId : ℕ} {game : GameInfo}
    (hgame : w.server.gameInfo[gameId]? = some game) :
    KeepsRecent w.files game ↔
      ((w.files gameId).isSome → -1 ≤ game.delaySeconds ∧ game.delaySeconds ≠ 2 ^ 31 - 1) := by
  have he := allEntered_of_runs h gameId game hgame
  rw [keepsRecent_iff he.delay, he.keptSizes.2]

/-- A game whose delay of two seconds shrinks to none when two sizes are logged. -/
theorem size_log_shrinks : ∃ w game, run (guarded World.step fun _ e => DelayIsInt e) (World.new 1000)
      [.setGameInfo 7 2 "live", .create 7 true, .append 7 [1, 2, 3], .timerEvent, .append 7 [4], .timerEvent,
        .setGameInfo 7 0 "live"] = some w ∧
    w.server.gameInfo[7]? = some game ∧ game.demoFileSizeLog = some [3, 4] ∧ game.delaySeconds = 0 ∧
    KeepsRecent w.files game := by
  have heval : (run (guarded World.step fun _ e => DelayIsInt e) (World.new 1000)
      [.setGameInfo 7 2 "live", .create 7 true, .append 7 [1, 2, 3], .timerEvent, .append 7 [4], .timerEvent,
        .setGameInfo 7 0 "live"]).bind (fun w => w.server.gameInfo[7]?.map fun game =>
          (game.demoFileSizeLog, game.delaySeconds)) = some (some [3, 4], 0) := by
    decide +kernel
  obtain ⟨w, hw, heval⟩ := Option.bind_eq_some_iff.mp heval
  obtain ⟨game, hgame, heval⟩ := Option.map_eq_some_iff.mp heval
  obtain ⟨hlog, hdelay⟩ := Prod.mk.inj heval
  refine ⟨w, game, hw, hgame, hlog, hdelay, (size_log_iff (Runs.of_run_guarded _ hw) hgame).mpr fun _ => ?_⟩
  rw [hdelay]
  decide

/-- A delay of -2 says that there is no replay; at the first tick with a file nothing is left to be
dequeued. -/
theorem negative_delay_dequeues_empty : ∃ w game, run (guarded World.step fun _ e => DelayIsInt e) (World.new 1000)
      [.setGameInfo 7 (-2) "live", .create 7 true] = some w ∧
    w.server.gameInfo[7]? = some game ∧ game.delaySeconds = -2 ∧
    (∀ fuel, dequeueLoop (requiredLogSize game) fuel [] = none) ∧
    updateFileSizeLogLoop w.files game = none ∧ ¬ KeepsRecent w.files game := by
  have heval : (run (guarded World.step fun _ e => DelayIsInt e) (World.new 1000)
      [.setGameInfo 7 (-2) "live", .create 7 true]).bind (fun w => w.server.gameInfo[7]?.map fun game =>
          (game.delaySeconds, (updateFileSizeLogLoop w.files game).isNone)) = some (-2, true) := by
    decide +kernel
  obtain ⟨w, hw, heval⟩ := Option.bind_eq_some_iff.mp heval
  obtain ⟨game, hgame, heval⟩ := Option.map_eq_some_iff.mp heval
  obtain ⟨hdelay, hnone⟩ := Prod.mk.inj heval
  have hloop := Option.isNone_iff_eq_none.mp hnone
  have hnegative : requiredLogSize game < 0 := by
    rw [requiredLogSize, hdelay]
    decide
  refine ⟨w, game, hw, hgame, hdelay, fun fuel => dequeueLoop_negative hnegative fuel [], hloop, fun h => ?_⟩
  obtain ⟨game', hsome, -⟩ := h
  rw [hloop] at hsome
  cases hsome

end Gpgnet4TA.Tareplay
