import Gpgnet4TA.Tapacket.SubPacketClasses
import Gpgnet4TA.Tareplay.PlayerStatus

/-!
# What a commit reads of the players' status

A `TPlayerInfo` is made from the status message of every locked-in player, and the reader of the
demo takes the id of the player out of it. The message is what the client sent last, or empty.
-/

namespace Gpgnet4TA.Tareplay.TaDemoCompiler
open Gpgnet4TA.Lib Gpgnet4TA.Tapacket

/-! ### The property -/

/-- `TPlayerInfo(statusMessage)` reads inside the message, and so does the reader of the demo. -/
def StatusReadable (statusMessage : Bytes) : Prop :=
  186 ≤ statusMessage.length ∧ (∀ uninitialised, (TPlayerInfo.ofSubPacket statusMessage uninitialised).isSome) ∧
    (u32At statusMessage 0x91).isSome

/-- `GamePlayerLoading` on this connection goes behind the check of the known players. -/
structure Commits (s : TaDemoCompiler) (socket : ℕ) (lockedIn : List ℕ) (game : GameContext) : Prop where
  speaks : s.Speaks socket
  found : s.games[(s.contexts socket).gameId]? = some game
  notBegun : game.demoCompilation = none
  known : (knownLockedInPlayers (s.lockIn game lockedIn)).length = lockedIn.length

/-- The players whose records the commit writes. -/
def committedUsers (s : TaDemoCompiler) (game : GameContext) (lockedIn : List ℕ) : List UserContext :=
  usersOf game (s.numbered game lockedIn) (knownLockedInPlayers (s.lockIn game lockedIn))

def CommitSafe (s : TaDemoCompiler) (game : GameContext) (lockedIn : List ℕ) : Prop :=
  ∀ user ∈ s.committedUsers game lockedIn, StatusReadable user.gamePlayerInfo.statusMessage

namespace Told

/-- A status of at least 186 bytes was sent last. -/
def Full (w : Told) (c : ℕ) : Prop := ∃ status, w.status c = some status ∧ 186 ≤ status.length

theorem length_iff_full {w : Told} (hw : w.Kept) (c : ℕ) : 186 ≤ (w.compiler.statusOf c).length ↔ w.Full c := by
  rw [congrFun hw c, Full]
  cases w.status c with
  | none => simp
  | some status => simp

end Told

/-! ### Every commit -/

theorem readTail_isSome {status : Bytes} (hlen : 186 ≤ status.length) (player1Id : ℕ) (uninitialised : Byte) :
    ∃ tail, TPlayerInfo.readTail status player1Id uninitialised = some tail := by
  by_cases hfull : status.length = 192
  · obtain ⟨data3, hdata3⟩ := @exists_slice status 170 17 (by omega)
    obtain ⟨player2Id, hplayer2Id⟩ := @exists_u32 status 187 (by omega)
    obtain ⟨data4, hdata4⟩ := @exists_byte status 191 (by omega)
    rw [TPlayerInfo.readTail, if_pos hfull, hdata3, hplayer2Id, hdata4]
    exact ⟨_, rfl⟩
  · obtain ⟨data3, hdata3⟩ := @exists_slice status 170 16 (by omega)
    rw [TPlayerInfo.readTail, if_neg hfull, hdata3]
    exact ⟨_, rfl⟩

theorem statusReadable_iff {status : Bytes} : StatusReadable status ↔ 186 ≤ status.length := by
  constructor
  · intro h
    exact h.1
  · intro hlen
    obtain ⟨x, -, hread⟩ := TPlayerInfo.readFront (s := status) (by omega)
    obtain ⟨dpid, hdpid⟩ := @exists_u32 status 0x91 (by omega)
    refine ⟨hlen, fun uninitialised => ?_, ?_⟩
    · obtain ⟨tail, htail⟩ := readTail_isSome hlen x.player1Id uninitialised
      rw [hread, htail]
      rfl
    · rw [hdpid]
      rfl

section commits

variable {s : TaDemoCompiler} {socket : ℕ} {lockedIn : List ℕ} {game : GameContext}

theorem Commits.known_eq (hc : s.Commits socket lockedIn game) :
    knownLockedInPlayers (s.lockIn game lockedIn) = lockedIn := by
  apply @knownLockedInPlayers_eq (s.lockIn game lockedIn)
  by_contra hnot
  exact knownLockedInPlayers_length (s.lockIn game lockedIn) hnot hc.known

theorem commitSafe_iff (hc : s.Commits socket lockedIn game) : s.CommitSafe game lockedIn ↔
    ∀ dpid ∈ lockedIn, ∀ c : ℕ, game.players[dpid]? = some c → 186 ≤ (s.statusOf c).length := by
  have hstatus (c : ℕ) : (s.numbered game lockedIn c).gamePlayerInfo.statusMessage = s.statusOf c :=
    congrArg (·.statusMessage) (gamePlayerInfo_numbered game lockedIn c)
  unfold CommitSafe committedUsers usersOf
  rw [hc.known_eq]
  constructor
  · intro h dpid hdpid c hlisted
    have huser := h (s.numbered game lockedIn c)
      (List.mem_filterMap.mpr ⟨dpid, hdpid, by rw [hlisted, Option.map_some]⟩)
    rw [hstatus, statusReadable_iff] at huser
    exact huser
  · intro h user huser
    obtain ⟨dpid, hdpid, hmap⟩ := List.mem_filterMap.mp huser
    obtain ⟨c, hlisted, rfl⟩ := Option.map_eq_some_iff.mp hmap
    rw [hstatus, statusReadable_iff]
    exact h dpid hdpid c hlisted

end commits

namespace Told

/-- After every run, whatever the clients sent and left out, a commit reads inside the statuses
exactly if one of at least 186 bytes was sent last for every locked-in player. -/
theorem commit_safe_iff {t : PathTemplate} {n socket : ℕ} {w : Told} {lockedIn : List ℕ} {game : GameContext}
    (h : Runs Told.step (fun _ _ => True) (.new t n) w) (hc : w.compiler.Commits socket lockedIn game) :
    w.compiler.CommitSafe game lockedIn ↔
      ∀ dpid ∈ lockedIn, ∀ c : ℕ, game.players[dpid]? = some c → w.Full c := by
  have hkept := kept_of_runs h
  rw [commitSafe_iff hc]
  constructor
  · intro hsafe dpid hdpid c hlisted
    exact (length_iff_full hkept c).mp (hsafe dpid hdpid c hlisted)
  · intro hfull dpid hdpid c hlisted
    exact (length_iff_full hkept c).mpr (hfull dpid hdpid c hlisted)

/-- The player sends its status and is locked in. -/
def statusSent : List Event :=
  [.newConnection localhost, .readyRead 0 (.hello 7 1 []) noon,
    .readyRead 0 (.gamePlayer armPlayer) noon]

theorem commit_safe_statusSent : ∃ w game, Runs Told.step (fun _ _ => True) (.new ⟨"taf-game-", ".tad"⟩ 0) w ∧
    w.compiler.Commits 0 [1] game ∧ w.compiler.CommitSafe game [1] := by
  have hrun : (run Told.step (.new ⟨"taf-game-", ".tad"⟩ 0) statusSent).bind (fun w =>
      w.compiler.games[(w.compiler.contexts 0).gameId]?.map fun game =>
        (decide (w.compiler.Speaks 0), game.demoCompilation,
          (knownLockedInPlayers (w.compiler.lockIn game [1])).length, game.players[1]?, (w.status 0).map (·.length))) =
      some (true, none, 1, some 0, some 192) := by decide +kernel
  obtain ⟨w, hw, hview⟩ := Option.bind_eq_some_iff.mp hrun
  obtain ⟨game, hgame, hview⟩ := Option.map_eq_some_iff.mp hview
  simp only [Prod.mk.injEq] at hview
  obtain ⟨hspeaks, hnone, hknown, hlisted, hstatus⟩ := hview
  have hruns : Runs Told.step (fun _ _ => True) (.new ⟨"taf-game-", ".tad"⟩ 0) w :=
    Runs.of_run statusSent hw fun _ _ _ => trivial
  have hc : w.compiler.Commits 0 [1] game := ⟨of_decide_eq_true hspeaks, hgame, hnone, hknown⟩
  refine ⟨w, game, hruns, hc, (commit_safe_iff hruns hc).mpr ?_⟩
  intro dpid hdpid c hc
  obtain rfl := List.mem_singleton.mp hdpid
  obtain rfl := Option.some.inj (hlisted.symm.trans hc)
  obtain ⟨status, hstatus, hlength⟩ := Option.map_eq_some_iff.mp hstatus
  exact ⟨status, hstatus, by omega⟩

/-- The player says that it loads before it has sent a status: the constructor is given no bytes. -/
theorem status_not_sent : ∃ w game, Runs Told.step (fun _ _ => True) (.new ⟨"taf-game-", ".tad"⟩ 0) w ∧
    w.compiler.Commits 0 [1] game ∧ ¬ w.compiler.CommitSafe game [1] := by
  have hrun : (run Told.step (.new ⟨"taf-game-", ".tad"⟩ 0) (statusSent.take 2)).bind (fun w =>
      w.compiler.games[(w.compiler.contexts 0).gameId]?.map fun game =>
        (decide (w.compiler.Speaks 0), game.demoCompilation,
          (knownLockedInPlayers (w.compiler.lockIn game [1])).length,
          (w.compiler.committedUsers game [1]).map (·.gamePlayerInfo.statusMessage))) =
      some (true, none, 1, [[]]) := by decide +kernel
  obtain ⟨w, hw, hview⟩ := Option.bind_eq_some_iff.mp hrun
  obtain ⟨game, hgame, hview⟩ := Option.map_eq_some_iff.mp hview
  simp only [Prod.mk.injEq] at hview
  obtain ⟨hspeaks, hnone, hknown, husers⟩ := hview
  refine ⟨w, game, Runs.of_run _ hw fun _ _ _ => trivial, ⟨of_decide_eq_true hspeaks, hgame, hnone, hknown⟩, ?_⟩
  intro hsafe
  have hempty : [] ∈ (w.compiler.committedUsers game [1]).map (·.gamePlayerInfo.statusMessage) := by
    rw [husers]
    exact List.mem_singleton_self _
  obtain ⟨user, huser, hnil⟩ := List.mem_map.mp hempty
  have hlength := (hsafe user huser).1
  rw [hnil] at hlength
  cases hlength

end Told

end Gpgnet4TA.Tareplay.TaDemoCompiler
