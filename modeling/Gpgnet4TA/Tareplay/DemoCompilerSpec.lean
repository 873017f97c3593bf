import Gpgnet4TA.Tareplay.DemoCompiler

/-!
# What the handlers of the demo compiler do

One lemma per handler that branches lists the states it can leave, with the conditions of
each. The invariants of the compiler are proved from these.
-/

namespace Gpgnet4TA.Tareplay.TaDemoCompiler
open Gpgnet4TA.Lib Gpgnet4TA.Tapacket

variable {s : TaDemoCompiler} {user : UserContext} {clock : Clock}

@[simp] theorem setGame_contexts (gameId : ℕ) (game : GameContext) :
    (s.setGame gameId game).contexts = s.contexts := rfl

@[simp] theorem setUser_games (socket : ℕ) (u : UserContext) : (s.setUser socket u).games = s.games := rfl

/-! ### Moves -/

/-- The entry of a game after a message that keeps it alive. -/
def GameContext.alive (game : GameContext) : GameContext := { game with expiryCountdown := GAME_EXPIRY_TICKS }

/-- The entry after a record was written. -/
def GameContext.written (game : GameContext) (output : Bytes) : GameContext :=
  { game with expiryCountdown := GAME_EXPIRY_TICKS, demoCompilation := some output }

theorem onMove_cases (s : TaDemoCompiler) (user : UserContext) (clock : Clock) (moves : Bytes) :
    s.onMove user moves clock = s ∨
      ∃ game : GameContext, s.games[user.gameId]? = some game ∧ game.players.contains user.playerDpId = true ∧
        (s.onMove user moves clock = s.setGame user.gameId game.alive ∨
          ∃ output, game.demoCompilation = some output ∧
            TADemoWriter.Fits (movePacket user.gamePlayerNumber moves clock).serialise ∧
            s.onMove user moves clock = s.setGame user.gameId (game.written
              (output ++ TADemoWriter.frame (movePacket user.gamePlayerNumber moves clock).serialise))) := by
  rw [onMove]
  split
  · exact Or.inl rfl
  · rename_i game hgame
    split
    · rename_i hplayer
      refine Or.inr ⟨game, hgame, hplayer, ?_⟩
      dsimp only
      split
      · exact Or.inl rfl
      · rename_i output hout
        by_cases hfits : TADemoWriter.Fits (movePacket user.gamePlayerNumber moves clock).serialise
        · rw [commitMove, TADemoWriter.writeRecord, if_pos hfits]
          exact Or.inr ⟨output, hout, hfits, rfl⟩
        · rw [commitMove, TADemoWriter.writeRecord, if_neg hfits]
          exact Or.inl rfl
    · exact Or.inl rfl

theorem onMove_written {game : GameContext} {output : Bytes} (moves : Bytes)
    (hgame : s.games[user.gameId]? = some game) (hplayer : game.players.contains user.playerDpId = true)
    (hout : game.demoCompilation = some output)
    (hfits : TADemoWriter.Fits (movePacket user.gamePlayerNumber moves clock).serialise) :
    s.onMove user moves clock = s.setGame user.gameId (game.written
      (output ++ TADemoWriter.frame (movePacket user.gamePlayerNumber moves clock).serialise)) := by
  simp only [onMove, hgame, hplayer, hout, commitMove, TADemoWriter.writeRecord, if_pos hfits, if_true]
  rfl

/-! ### Player data -/

theorem onGamePlayer_cases (s : TaDemoCompiler) (user : UserContext) (msg : GamePlayerMessage) :
    s.onGamePlayer user msg = s ∨
      ∃ (game : GameContext) (socket : ℕ), s.games[user.gameId]? = some game ∧
        game.players[user.playerDpId]? = some socket ∧
        s.onGamePlayer user msg = (s.setGame user.gameId game.alive).setUser socket
          { s.contexts socket with gamePlayerInfo := msg } := by
  rw [onGamePlayer]
  split
  · exact Or.inl rfl
  · rename_i game hgame
    split
    · exact Or.inl rfl
    · rename_i socket hsocket
      exact Or.inr ⟨game, socket, hgame, hsocket, rfl⟩

theorem onUnitData_cases (s : TaDemoCompiler) (user : UserContext) (unitData : Bytes) :
    s.onUnitData user unitData = s ∨
      ∃ game : GameContext, s.games[user.gameId]? = some game ∧
        s.onUnitData user unitData = s.setGame user.gameId
          { game with unitData := game.unitData.add unitData, expiryCountdown := GAME_EXPIRY_TICKS } := by
  rw [onUnitData]
  split
  · exact Or.inl rfl
  · rename_i game hgame
    exact Or.inr ⟨game, hgame, rfl⟩

/-! ### Headers -/

/-- All players of the list have a connection. -/
def Registered (game : GameContext) (lockedIn : List ℕ) : Prop :=
  ∀ dpid ∈ lockedIn, game.players.contains dpid = true

instance (game : GameContext) (lockedIn : List ℕ) : Decidable (Registered game lockedIn) :=
  inferInstanceAs (Decidable (∀ _ ∈ _, _))

/-- The contexts with the numbers that a commit gives. -/
def numbered (s : TaDemoCompiler) (game : GameContext) (lockedIn : List ℕ) : ℕ → UserContext :=
  assignNumbers game.players 0 lockedIn s.contexts

/-- The records that a commit writes. -/
def recordsOf (s : TaDemoCompiler) (game : GameContext) (lockedIn : List ℕ) (date : Vector Byte 10) :
    List Bytes :=
  headerRecords (s.lockIn game lockedIn) (usersOf game (s.numbered game lockedIn) lockedIn) date

theorem knownLockedInPlayers_eq {game : GameContext} (h : Registered game game.playersLockedIn) :
    knownLockedInPlayers game = game.playersLockedIn := by
  rw [knownLockedInPlayers, List.filter_eq_self]
  exact h

theorem knownLockedInPlayers_length (game : GameContext) (h : ¬ Registered game game.playersLockedIn) :
    (knownLockedInPlayers game).length ≠ game.playersLockedIn.length := by
  intro hlen
  apply h
  rw [knownLockedInPlayers, List.length_filter_eq_length_iff] at hlen
  exact hlen

theorem commitHeaders_registered {game : GameContext} {lockedIn : List ℕ} (h : Registered game lockedIn)
    (date : Vector Byte 10) :
    commitHeaders (s.lockIn game lockedIn) s.contexts date =
      (s.numbered game lockedIn,
        (TADemoWriter.writeRecords [] (s.recordsOf game lockedIn date)).map some) := by
  have hknown : knownLockedInPlayers (s.lockIn game lockedIn) = lockedIn := knownLockedInPlayers_eq h
  have hlen : ¬ lockedIn.length ≠ (s.lockIn game lockedIn).playersLockedIn.length := not_not.mpr rfl
  rw [commitHeaders, hknown]
  exact if_neg hlen

theorem commitHeaders_unknown {game : GameContext} {lockedIn : List ℕ} (h : ¬ Registered game lockedIn)
    (date : Vector Byte 10) :
    commitHeaders (s.lockIn game lockedIn) s.contexts date = (s.contexts, .ok none) := by
  rw [commitHeaders]
  exact if_pos (knownLockedInPlayers_length (s.lockIn game lockedIn) h)

/-- The state after a commit that has numbered the players. -/
def afterCommit (s : TaDemoCompiler) (gameId : ℕ) (game : GameContext) (lockedIn : List ℕ)
    (output : Option Bytes) : TaDemoCompiler :=
  { s.setGame gameId { s.lockIn game lockedIn with demoCompilation := output } with
    contexts := s.numbered game lockedIn
    fileOps := s.fileOps ++ [.create (s.lockIn game lockedIn).tempFileName] }

theorem onGamePlayerLoading_cases (s : TaDemoCompiler) (user : UserContext) (clock : Clock)
    (lockedIn : List ℕ) :
    s.onGamePlayerLoading user lockedIn clock = s ∨
      ∃ game : GameContext, s.games[user.gameId]? = some game ∧ game.demoCompilation = none ∧
        (¬ Registered game lockedIn ∧
            s.onGamePlayerLoading user lockedIn clock = s.setGame user.gameId (s.lockIn game lockedIn) ∨
          Registered game lockedIn ∧ (∀ r ∈ s.recordsOf game lockedIn clock.date, TADemoWriter.Fits r) ∧
            s.onGamePlayerLoading user lockedIn clock = s.afterCommit user.gameId game lockedIn
              (some ((s.recordsOf game lockedIn clock.date).flatMap TADemoWriter.frame)) ∨
          Registered game lockedIn ∧ (¬ ∀ r ∈ s.recordsOf game lockedIn clock.date, TADemoWriter.Fits r) ∧
            s.onGamePlayerLoading user lockedIn clock = s.afterCommit user.gameId game lockedIn none) := by
  rw [onGamePlayerLoading]
  split
  · exact Or.inl rfl
  · rename_i game hgame
    split
    · exact Or.inl rfl
    · rename_i hnone
      have hnone : game.demoCompilation = none := Option.not_isSome_iff_eq_none.mp hnone
      refine Or.inr ⟨game, hgame, hnone, ?_⟩
      have hplain : s.lockIn game lockedIn = { s.lockIn game lockedIn with demoCompilation := none } := by
        simp only [lockIn, hnone]
      dsimp only
      by_cases hreg : Registered game lockedIn
      · rw [commitHeaders_registered hreg]
        by_cases hfits : ∀ r ∈ s.recordsOf game lockedIn clock.date, TADemoWriter.Fits r
        · rw [TADemoWriter.writeRecords_ok [] hfits]
          exact Or.inr (Or.inl ⟨hreg, hfits, rfl⟩)
        · rw [TADemoWriter.writeRecords_error [] hfits]
          refine Or.inr (Or.inr ⟨hreg, hfits, ?_⟩)
          rw [afterCommit, ← hplain]
          rfl
      · rw [commitHeaders_unknown hreg]
        exact Or.inl ⟨hreg, rfl⟩

/-! ### Messages -/

/-- A game message of this connection is looked at. -/
def Speaks (s : TaDemoCompiler) (socket : ℕ) : Prop :=
  socket ∈ s.connected ∧ (s.contexts socket).gameId ≠ 0 ∧ (s.contexts socket).playerDpId ≠ 0

instance (s : TaDemoCompiler) (socket : ℕ) : Decidable (s.Speaks socket) := inferInstanceAs (Decidable (_ ∧ _))

theorem onReadyRead_cases (s : TaDemoCompiler) (clock : Clock) (socket : ℕ) (msg : Message) :
    ¬ s.Speaks socket ∧ s.onReadyRead socket clock msg = s ∨
      (∃ gameId playerDpId playerName, msg = .hello gameId playerDpId playerName ∧ socket ∈ s.connected ∧
        s.onReadyRead socket clock msg = s.onHello socket gameId playerDpId playerName) ∨
      (∃ gameId playerDpId, msg = .reconnect gameId playerDpId ∧ socket ∈ s.connected ∧
        s.onReadyRead socket clock msg = s.onReconnect socket gameId playerDpId) ∨
      s.Speaks socket ∧
        s.onReadyRead socket clock msg = s.onGameMessage (s.contexts socket) clock msg := by
  by_cases hconn : socket ∈ s.connected
  · have hread : s.onReadyRead socket clock msg = s.onMessage socket clock msg := if_pos hconn
    have hgame : ∀ s', s.onMessage socket clock msg = (if (s.contexts socket).gameId = 0 ∨
          (s.contexts socket).playerDpId = 0 then s else s') →
        ¬ s.Speaks socket ∧ s.onReadyRead socket clock msg = s ∨
          s.Speaks socket ∧ s.onReadyRead socket clock msg = s' := by
      intro s' hs'
      rw [hread, hs']
      by_cases hid : (s.contexts socket).gameId = 0 ∨ (s.contexts socket).playerDpId = 0
      · exact Or.inl ⟨fun hspeaks => by
          rcases hid with hid | hid
          · exact hspeaks.2.1 hid
          · exact hspeaks.2.2 hid, if_pos hid⟩
      · rw [not_or] at hid
        exact Or.inr ⟨⟨hconn, hid⟩, if_neg (not_or.mpr hid)⟩
    cases msg with
    | hello gameId playerDpId playerName => exact Or.inr (Or.inl ⟨_, _, _, rfl, hconn, hread⟩)
    | reconnect gameId playerDpId => exact Or.inr (Or.inr (Or.inl ⟨_, _, rfl, hconn, hread⟩))
    | _ =>
      rcases hgame _ rfl with h | h
      · exact Or.inl h
      · exact Or.inr (Or.inr (Or.inr h))
  · exact Or.inl ⟨fun hspeaks => hconn hspeaks.1, if_neg hconn⟩

/-! ### The timer -/

theorem foldl_closeGame_games (ids : List ℕ) (s : TaDemoCompiler) (k : ℕ) :
    (ids.foldl closeGame s).games[k]? = if k ∈ ids then none else s.games[k]? := by
  induction ids generalizing s with
  | nil => rfl
  | cons id ids ih =>
    rw [List.foldl_cons, ih, closeGame, Table.getElem?_erase]
    by_cases hk : k = id
    · simp [hk]
    · simp [hk]

/-- The timer leaves everything else as it is. -/
structure SameBut (s s' : TaDemoCompiler) : Prop where
  demoPathTemplate : s'.demoPathTemplate = s.demoPathTemplate
  minDemoSize : s'.minDemoSize = s.minDemoSize
  connected : s'.connected = s.connected
  connections : s'.connections = s.connections
  contexts : s'.contexts = s.contexts

theorem sameBut_foldl_closeGame (ids : List ℕ) (s : TaDemoCompiler) :
    SameBut s (ids.foldl closeGame s) := by
  induction ids generalizing s with
  | nil => exact ⟨rfl, rfl, rfl, rfl, rfl⟩
  | cons id ids ih =>
    obtain ⟨h1, h2, h3, h4, h5⟩ := ih (s.closeGame id)
    exact ⟨h1, h2, h3, h4, h5⟩

theorem sameBut_closeExpiredGames (s : TaDemoCompiler) : SameBut s s.closeExpiredGames := by
  obtain ⟨h1, h2, h3, h4, h5⟩ := sameBut_foldl_closeGame (expiredGameIds (s.games.map fun _ => countDown))
    { s with games := s.games.map fun _ => countDown }
  exact ⟨h1, h2, h3, h4, h5⟩

theorem closeExpiredGames_games (s : TaDemoCompiler) (k : ℕ) :
    s.closeExpiredGames.games[k]? = if k ∈ expiredGameIds (s.games.map fun _ => countDown) then none
      else s.games[k]?.map countDown := by
  rw [closeExpiredGames, foldl_closeGame_games]
  simp only [Std.ExtTreeMap.getElem?_map]

/-! ### The configuration -/

def SameConfig (s s' : TaDemoCompiler) : Prop :=
  s'.demoPathTemplate = s.demoPathTemplate ∧ s'.minDemoSize = s.minDemoSize

theorem sameConfig_onGameMessage (msg : Message) : SameConfig s (s.onGameMessage user clock msg) := by
  cases msg with
  | hello gameId playerDpId playerName => exact ⟨rfl, rfl⟩
  | reconnect gameId playerDpId => exact ⟨rfl, rfl⟩
  | gameInfo msg => exact ⟨rfl, rfl⟩
  | move moves =>
    show SameConfig s (s.onMove user moves clock)
    obtain h | ⟨game, -, -, h | ⟨output, -, -, h⟩⟩ := onMove_cases s user clock moves
    all_goals
      rw [h]
      exact ⟨rfl, rfl⟩
  | gamePlayer msg =>
    show SameConfig s (s.onGamePlayer user msg)
    obtain h | ⟨game, socket, -, -, h⟩ := onGamePlayer_cases s user msg
    all_goals
      rw [h]
      exact ⟨rfl, rfl⟩
  | unitData unitData =>
    show SameConfig s (s.onUnitData user unitData)
    obtain h | ⟨game, -, h⟩ := onUnitData_cases s user unitData
    all_goals
      rw [h]
      exact ⟨rfl, rfl⟩
  | gamePlayerLoading lockedIn =>
    show SameConfig s (s.onGamePlayerLoading user lockedIn clock)
    obtain h | ⟨game, -, -, ⟨-, h⟩ | ⟨-, -, h⟩ | ⟨-, -, h⟩⟩ := onGamePlayerLoading_cases s user clock lockedIn
    all_goals
      rw [h]
      exact ⟨rfl, rfl⟩

theorem sameConfig_step (e : Event) : SameConfig s (s.step e) := by
  cases e with
  | newConnection addr => exact ⟨rfl, rfl⟩
  | disconnected socket => exact ⟨rfl, rfl⟩
  | timerEvent => exact ⟨(sameBut_closeExpiredGames s).demoPathTemplate, (sameBut_closeExpiredGames s).minDemoSize⟩
  | readyRead socket msg clock =>
    show SameConfig s (s.onReadyRead socket clock msg)
    obtain ⟨-, h⟩ | ⟨_, _, _, -, -, h⟩ | ⟨_, _, -, -, h⟩ | ⟨-, h⟩ := onReadyRead_cases s clock socket msg
    · rw [h]
      exact ⟨rfl, rfl⟩
    · rw [h]
      exact ⟨rfl, rfl⟩
    · rw [h]
      exact ⟨rfl, rfl⟩
    · rw [h]
      exact sameConfig_onGameMessage msg

theorem foldl_closeGame_fileOps {ids : List ℕ} (hids : ids.Nodup) (s : TaDemoCompiler) :
    (ids.foldl closeGame s).fileOps =
      s.fileOps ++ ids.flatMap fun id => fileOpOf s.minDemoSize (gameAt s.games id) := by
  induction ids generalizing s with
  | nil => simp
  | cons id ids ih =>
    rw [List.nodup_cons] at hids
    have hrest : (ids.flatMap fun i => fileOpOf s.minDemoSize (gameAt (s.games.erase id) i)) =
        ids.flatMap fun i => fileOpOf s.minDemoSize (gameAt s.games i) := by
      apply List.flatMap_congr
      intro i hi
      have hne : i ≠ id := fun h => hids.1 (h ▸ hi)
      rw [gameAt, gameAt, Table.getElem?_erase, if_neg hne]
    rw [List.foldl_cons, ih hids.2, List.flatMap_cons, ← List.append_assoc]
    exact congrArg (_ ++ ·) hrest

/-! ### A clock, an address and a player -/

def noon : Clock := ⟨0, Vector.replicate 10 0x30⟩

def localhost : PeerAddress := ⟨asciiBytes "127.0.0.1", by decide⟩

/-- With a status message of the length that is read. -/
def armPlayer : GamePlayerMessage := ⟨0, asciiBytes "ARM", List.replicate 192 0x2a⟩

end Gpgnet4TA.Tareplay.TaDemoCompiler
