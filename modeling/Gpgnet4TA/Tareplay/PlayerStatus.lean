import Gpgnet4TA.Tareplay.PlayerNumbers

/-!
# The status of a player

The compiler keeps the status message that a player sent last, and takes it over when the player comes
back on another connection. `Told` notes beside the compiler what was sent for each connection.
-/

namespace Gpgnet4TA.Tareplay.TaDemoCompiler
open Gpgnet4TA.Lib Gpgnet4TA.Tapacket

/-! ### The status that was sent -/

/-- `status` is that of the last `GamePlayer` that was taken for a connection. -/
structure Told where
  compiler : TaDemoCompiler
  status : ℕ → Option Bytes

namespace Told

def new (demoPathTemplate : PathTemplate) (minDemoSize : ℕ) : Told :=
  ⟨.new demoPathTemplate minDemoSize, fun _ => none⟩

/-- A message is for the connection that the game lists for the player; a connection that comes back
has what was sent for the one before it. -/
def hears (w : Told) : Event → ℕ → Option Bytes
  | .newConnection _ => Function.update w.status w.compiler.connections none
  | .readyRead socket (.gamePlayer msg) _ =>
    if w.compiler.Speaks socket then
      match w.compiler.registered (w.compiler.contexts socket).identity with
      | some c => Function.update w.status c (some msg.statusMessage)
      | none => w.status
    else w.status
  | .readyRead socket (.reconnect gameId dpid) _ =>
    if socket ∈ w.compiler.connected then
      match w.compiler.registered (gameId, dpid) with
      | some old => Function.update w.status socket (w.status old)
      | none => w.status
    else w.status
  | _ => w.status

def next (w : Told) (e : Event) : Told := ⟨w.compiler.step e, w.hears e⟩

def step (w : Told) (e : Event) : Option Told := some (w.next e)

end Told

/-! ### What is kept of it -/

/-- The status that the compiler keeps for a connection. -/
def statusOf (s : TaDemoCompiler) (c : ℕ) : Bytes := (s.contexts c).gamePlayerInfo.statusMessage

section kept

variable {s : TaDemoCompiler} {user : UserContext} {clock : Clock}

theorem statusOf_setUser (s : TaDemoCompiler) (socket : ℕ) (user : UserContext) :
    (s.setUser socket user).statusOf = Function.update s.statusOf socket user.gamePlayerInfo.statusMessage := by
  funext c
  show (Function.update s.contexts socket user c).gamePlayerInfo.statusMessage = _
  rw [Function.update_apply, Function.update_apply]
  split
  · rfl
  · rfl

theorem statusOf_setUser_same {socket : ℕ} (h : user.gamePlayerInfo = (s.contexts socket).gamePlayerInfo) :
    (s.setUser socket user).statusOf = s.statusOf := by
  rw [statusOf_setUser, h]
  exact Function.update_eq_self socket s.statusOf

theorem gamePlayerInfo_numbered (game : GameContext) (lockedIn : List ℕ) (c : ℕ) :
    (s.numbered game lockedIn c).gamePlayerInfo = (s.contexts c).gamePlayerInfo := by
  obtain ⟨number, hnumber⟩ := assignNumbers_same game.players lockedIn 0 s.contexts c
  rw [numbered, hnumber]
  rfl

theorem statusOf_onHello (s : TaDemoCompiler) (socket gameId dpid : ℕ) (name : Bytes) :
    (s.onHello socket gameId dpid name).statusOf = s.statusOf :=
  statusOf_setUser_same (s := s) rfl

theorem statusOf_onReconnect (s : TaDemoCompiler) (socket gameId dpid : ℕ) :
    (s.onReconnect socket gameId dpid).statusOf = match s.registered (gameId, dpid) with
      | some old => Function.update s.statusOf socket (s.statusOf old)
      | none => s.statusOf := by
  rw [onReconnect, registered]
  dsimp only
  cases s.games[gameId]?.bind fun game => game.players[dpid]? with
  | none => exact statusOf_setUser_same (s := s) rfl
  | some old => exact statusOf_setUser s socket _

theorem statusOf_onGamePlayer (s : TaDemoCompiler) (user : UserContext) (msg : GamePlayerMessage) :
    (s.onGamePlayer user msg).statusOf = match s.registered user.identity with
      | some c => Function.update s.statusOf c msg.statusMessage
      | none => s.statusOf := by
  rw [onGamePlayer, registered, UserContext.identity]
  cases s.games[user.gameId]? with
  | none => rfl
  | some game =>
    rw [Option.bind_some]
    dsimp only
    cases game.players[user.playerDpId]? with
    | none => rfl
    | some c => exact statusOf_setUser _ c _

theorem statusOf_onGamePlayerLoading (s : TaDemoCompiler) (user : UserContext) (clock : Clock) (lockedIn : List ℕ) :
    (s.onGamePlayerLoading user lockedIn clock).statusOf = s.statusOf := by
  have hnumbered (game : GameContext) (output : Option Bytes) :
      (s.afterCommit user.gameId game lockedIn output).statusOf = s.statusOf := by
    funext c
    exact congrArg (·.statusMessage) (gamePlayerInfo_numbered game lockedIn c)
  obtain h | ⟨game, -, -, ⟨-, h⟩ | ⟨-, -, h⟩ | ⟨-, -, h⟩⟩ := onGamePlayerLoading_cases s user clock lockedIn
  · rw [h]
  · rw [h]
    rfl
  · rw [h]
    exact hnumbered game _
  · rw [h]
    exact hnumbered game _

theorem statusOf_onMove (s : TaDemoCompiler) (user : UserContext) (clock : Clock) (moves : Bytes) :
    (s.onMove user moves clock).statusOf = s.statusOf := by
  obtain h | ⟨game, -, -, h | ⟨output, -, -, h⟩⟩ := onMove_cases s user clock moves
  · rw [h]
  · rw [h]
    rfl
  · rw [h]
    rfl

theorem statusOf_onGameInfo (s : TaDemoCompiler) (user : UserContext) (msg : GameInfoMessage) :
    (s.onGameInfo user msg).statusOf = s.statusOf := rfl

theorem statusOf_onUnitData (s : TaDemoCompiler) (user : UserContext) (unitData : Bytes) :
    (s.onUnitData user unitData).statusOf = s.statusOf := by
  obtain h | ⟨game, -, h⟩ := onUnitData_cases s user unitData
  · rw [h]
  · rw [h]
    rfl

theorem statusOf_ignored {p : Prop} [Decidable p] {s' : TaDemoCompiler} (h : s'.statusOf = s.statusOf) :
    (if p then s else s').statusOf = s.statusOf := by
  split
  · rfl
  · exact h

end kept

namespace Told

variable {w : Told}

/-- What the compiler keeps is what was sent; a player that sent nothing has an empty status. -/
def Kept (w : Told) : Prop := w.compiler.statusOf = fun c => (w.status c).getD []

theorem getD_update (status : ℕ → Option Bytes) (socket : ℕ) (v : Option Bytes) :
    (fun c => (Function.update status socket v c).getD []) =
      Function.update (fun c => (status c).getD []) socket (v.getD []) := by
  funext c
  rw [Function.update_apply, Function.update_apply]
  split
  · rfl
  · rfl

theorem kept_reconnect {socket gameId dpid : ℕ} {clock : Clock} (hw : w.Kept) (hconn : socket ∈ w.compiler.connected) :
    (w.compiler.onReconnect socket gameId dpid).statusOf =
      fun c => (w.hears (.readyRead socket (.reconnect gameId dpid) clock) c).getD [] := by
  have hhears : w.hears (.readyRead socket (.reconnect gameId dpid) clock) = _ := if_pos hconn
  rw [hhears, statusOf_onReconnect]
  cases w.compiler.registered (gameId, dpid) with
  | none => exact hw
  | some old =>
    dsimp only
    rw [getD_update, ← hw, congrFun hw old]

theorem kept_gamePlayer {socket : ℕ} {msg : GamePlayerMessage} {clock : Clock} (hw : w.Kept)
    (hconn : socket ∈ w.compiler.connected) : (w.compiler.onMessage socket clock (.gamePlayer msg)).statusOf =
      fun c => (w.hears (.readyRead socket (.gamePlayer msg) clock) c).getD [] := by
  by_cases hspeaks : w.compiler.Speaks socket
  · have hhears : w.hears (.readyRead socket (.gamePlayer msg) clock) = _ := if_pos hspeaks
    have hmessage : w.compiler.onMessage socket clock (.gamePlayer msg) =
        w.compiler.onGamePlayer (w.compiler.contexts socket) msg :=
      if_neg (not_or.mpr hspeaks.2)
    rw [hhears, hmessage, statusOf_onGamePlayer]
    cases w.compiler.registered (w.compiler.contexts socket).identity with
    | none => exact hw
    | some c =>
      dsimp only
      rw [getD_update, ← hw]
      rfl
  · have hhears : w.hears (.readyRead socket (.gamePlayer msg) clock) = w.status := if_neg hspeaks
    have hmessage : w.compiler.onMessage socket clock (.gamePlayer msg) = w.compiler := by
      refine if_pos (not_not.mp fun hids => hspeaks ?_)
      exact ⟨hconn, not_or.mp hids⟩
    rw [hhears, hmessage]
    exact hw

theorem kept_readyRead {socket : ℕ} {msg : Message} {clock : Clock} (hw : w.Kept) :
    (w.next (.readyRead socket msg clock)).Kept := by
  show (w.compiler.onReadyRead socket clock msg).statusOf = fun c => (w.hears (.readyRead socket msg clock) c).getD []
  by_cases hconn : socket ∈ w.compiler.connected
  · rw [onReadyRead, if_pos hconn]
    cases msg with
    | hello gameId dpid name => exact (statusOf_onHello w.compiler socket gameId dpid name).trans hw
    | reconnect gameId dpid => exact kept_reconnect hw hconn
    | move moves => exact (statusOf_ignored (statusOf_onMove _ _ clock moves)).trans hw
    | gameInfo msg => exact (statusOf_ignored (statusOf_onGameInfo _ _ msg)).trans hw
    | gamePlayer msg => exact kept_gamePlayer hw hconn
    | unitData unitData => exact (statusOf_ignored (statusOf_onUnitData _ _ unitData)).trans hw
    | gamePlayerLoading lockedIn => exact (statusOf_ignored (statusOf_onGamePlayerLoading _ _ clock lockedIn)).trans hw
  · rw [onReadyRead, if_neg hconn]
    have hhears : w.hears (.readyRead socket msg clock) = w.status := by
      cases msg with
      | reconnect gameId dpid => exact if_neg hconn
      | gamePlayer msg => exact if_neg fun hspeaks => hconn hspeaks.1
      | _ => rfl
    rw [hhears]
    exact hw

theorem kept_next (hw : w.Kept) (e : Event) : (w.next e).Kept := by
  cases e with
  | newConnection addr =>
    refine (statusOf_setUser w.compiler w.compiler.connections (.new addr)).trans ?_
    show _ = fun c => (Function.update w.status w.compiler.connections none c).getD []
    rw [getD_update, ← hw]
    rfl
  | disconnected socket => exact hw
  | readyRead socket msg clock => exact kept_readyRead hw
  | timerEvent =>
    have hsame : w.compiler.closeExpiredGames.statusOf = w.compiler.statusOf := by
      funext c
      rw [statusOf, (sameBut_closeExpiredGames w.compiler).contexts]
      rfl
    exact hsame.trans hw

theorem kept_of_runs {t : PathTemplate} {n : ℕ} (h : Runs Told.step (fun _ _ => True) (.new t n) w) : w.Kept := by
  apply Runs.invariant (P := Kept) h
  · rfl
  · intro w e w' hw _ hstep
    cases hstep
    exact kept_next hw e

/-- What holds of every status that is sent, and where none is sent, holds of all that are noted. -/
theorem hears_forall {P : Option Bytes → Prop} {e : Event} (hw : ∀ c, P (w.status c)) (hnone : P none)
    (hsent : ∀ socket msg clock, e = .readyRead socket (.gamePlayer msg) clock → P (some msg.statusMessage)) (c : ℕ) :
    P (w.hears e c) := by
  have hupdate (socket : ℕ) (v : Option Bytes) (hv : P v) : P (Function.update w.status socket v c) := by
    rw [Function.update_apply]
    split
    · exact hv
    · exact hw c
  cases e with
  | newConnection addr => exact hupdate w.compiler.connections none hnone
  | readyRead socket msg clock =>
    cases msg with
    | gamePlayer msg =>
      rw [hears]
      by_cases hspeaks : w.compiler.Speaks socket
      · rw [if_pos hspeaks]
        cases w.compiler.registered (w.compiler.contexts socket).identity with
        | none => exact hw c
        | some listed => exact hupdate listed _ (hsent socket msg clock rfl)
      · rw [if_neg hspeaks]
        exact hw c
    | reconnect gameId dpid =>
      rw [hears]
      by_cases hconn : socket ∈ w.compiler.connected
      · rw [if_pos hconn]
        cases w.compiler.registered (gameId, dpid) with
        | none => exact hw c
        | some old => exact hupdate socket _ (hw old)
      · rw [if_neg hconn]
        exact hw c
    | _ => exact hw c
  | _ => exact hw c

end Told

end Gpgnet4TA.Tareplay.TaDemoCompiler
