import Gpgnet4TA.Tareplay.DemoCompilerSpec

/-!
# Players and their numbers

What a game says of its players, and what a demo that has begun goes back to: which
connection is listed for a player, and the list and the content of the demo. Most messages
change neither; the numbers are given by a loop over the locked-in list.
-/

namespace Gpgnet4TA.Tareplay.TaDemoCompiler
open Gpgnet4TA.Lib Gpgnet4TA.Tapacket

/-! ### Views of the state -/

def UserContext.identity (user : UserContext) : ℕ × ℕ := (user.gameId, user.playerDpId)

/-- The connection that a game lists for a player. -/
def registered (s : TaDemoCompiler) (p : ℕ × ℕ) : Option ℕ := s.games[p.1]?.bind fun game => game.players[p.2]?

/-- The locked-in list and the content of a demo that has begun. -/
def GameContext.demo (game : GameContext) : Option (List ℕ × Bytes) :=
  game.demoCompilation.map fun output => (game.playersLockedIn, output)

def demo (s : TaDemoCompiler) (gameId : ℕ) : Option (List ℕ × Bytes) := s.games[gameId]?.bind GameContext.demo

/-- The place in the list, counted from one; zero outside it. -/
def position (lockedIn : List ℕ) (dpid : ℕ) : ℕ := if dpid ∈ lockedIn then lockedIn.idxOf dpid + 1 else 0

/-- The number that a player should have. -/
def numberOf (demo : Option (List ℕ × Bytes)) (dpid : ℕ) : ℕ := demo.elim 0 fun d => position d.1 dpid

variable {s : TaDemoCompiler}

theorem registered_setGame (gameId : ℕ) (game : GameContext) (p : ℕ × ℕ) :
    (s.setGame gameId game).registered p = if p.1 = gameId then game.players[p.2]? else s.registered p := by
  rw [registered, setGame, Table.getElem?_insert]
  split <;> rfl

theorem demo_setGame (gameId : ℕ) (game : GameContext) (k : ℕ) :
    (s.setGame gameId game).demo k = if k = gameId then game.demo else s.demo k := by
  rw [demo, setGame, Table.getElem?_insert]
  split <;> rfl

theorem registered_of_game {gameId : ℕ} {game : GameContext} (h : s.games[gameId]? = some game) (dpid : ℕ) :
    s.registered (gameId, dpid) = game.players[dpid]? := by
  rw [registered, h]
  rfl

theorem demo_of_game {gameId : ℕ} {game : GameContext} (h : s.games[gameId]? = some game) :
    s.demo gameId = game.demo := by
  rw [demo, h]
  rfl

theorem players_gameAt (gameId dpid : ℕ) :
    (gameAt s.games gameId).players[dpid]? = s.registered (gameId, dpid) := by
  rw [gameAt, registered]
  cases s.games[gameId]? with
  | none => simp
  | some game => rfl

theorem demo_gameAt (gameId : ℕ) : (gameAt s.games gameId).demo = s.demo gameId := by
  rw [gameAt, demo]
  cases s.games[gameId]? <;> rfl

theorem views_setGame {gameId : ℕ} {game : GameContext}
    (hplayers : ∀ dpid : ℕ, game.players[dpid]? = s.registered (gameId, dpid)) (hdemo : game.demo = s.demo gameId) :
    (s.setGame gameId game).registered = s.registered ∧ (s.setGame gameId game).demo = s.demo := by
  constructor
  · funext ⟨k, dpid⟩
    rw [registered_setGame]
    split
    · rename_i hk
      dsimp only at hk ⊢
      rw [hplayers, hk]
    · rfl
  · funext k
    rw [demo_setGame]
    split
    · rename_i hk
      rw [hdemo, hk]
    · rfl

theorem registered_register (socket gameId dpid : ℕ) :
    (s.register socket gameId dpid).registered = Function.update s.registered (gameId, dpid) (some socket) := by
  funext ⟨k, d⟩
  rw [register, registered_setGame, Function.update_apply]
  dsimp only
  by_cases hk : k = gameId
  · subst hk
    rw [if_pos rfl, Table.getElem?_insert, players_gameAt]
    simp
  · rw [if_neg hk, if_neg]
    intro h
    cases h
    exact hk rfl

theorem demo_register (socket gameId dpid : ℕ) : (s.register socket gameId dpid).demo = s.demo := by
  funext k
  rw [register, demo_setGame]
  split
  · rename_i hk
    rw [hk, ← demo_gameAt]
    rfl
  · rfl

theorem registered_closeExpiredGames {p : ℕ × ℕ} {socket : ℕ}
    (h : s.closeExpiredGames.registered p = some socket) :
    s.registered p = some socket ∧ s.closeExpiredGames.demo p.1 = s.demo p.1 := by
  simp only [demo, registered, closeExpiredGames_games] at h ⊢
  split at h
  · cases h
  · rename_i hk
    rw [if_neg hk]
    cases hgame : s.games[p.1]? with
    | none =>
      rw [hgame] at h
      cases h
    | some game =>
      rw [hgame] at h
      exact ⟨h, rfl⟩

/-- A game whose demo is still there after a tick lists the same players. -/
theorem demo_closeExpiredGames {k : ℕ} {d : List ℕ × Bytes} (h : s.closeExpiredGames.demo k = some d) :
    s.demo k = some d ∧ ∀ dpid, s.closeExpiredGames.registered (k, dpid) = s.registered (k, dpid) := by
  simp only [demo, registered, closeExpiredGames_games] at h ⊢
  split at h
  · cases h
  · rename_i hk
    rw [if_neg hk]
    cases hgame : s.games[k]? with
    | none =>
      rw [hgame] at h
      cases h
    | some game =>
      rw [hgame] at h
      exact ⟨h, fun _ => rfl⟩

/-- Players, demos, identities and numbers stay. -/
structure Quiet (s s' : TaDemoCompiler) : Prop where
  connected : s'.connected ⊆ s.connected
  connections : s'.connections = s.connections
  identity : ∀ c, (s'.contexts c).identity = (s.contexts c).identity
  number : ∀ c, (s'.contexts c).gamePlayerNumber = (s.contexts c).gamePlayerNumber
  registered : s'.registered = s.registered
  demo : s'.demo = s.demo

theorem Quiet.refl (s : TaDemoCompiler) : Quiet s s :=
  ⟨Finset.Subset.refl _, rfl, fun _ => rfl, fun _ => rfl, rfl, rfl⟩

theorem quiet_setGame {gameId : ℕ} {game : GameContext}
    (hplayers : ∀ dpid : ℕ, game.players[dpid]? = s.registered (gameId, dpid)) (hdemo : game.demo = s.demo gameId) :
    Quiet s (s.setGame gameId game) := by
  obtain ⟨hregistered, hdemo⟩ := views_setGame hplayers hdemo
  exact ⟨Finset.Subset.refl _, rfl, fun _ => rfl, fun _ => rfl, hregistered, hdemo⟩

theorem quiet_entry {gameId : ℕ} {game : GameContext} (game' : GameContext)
    (hgame : s.games[gameId]? = some game)
    (hplayers : game'.players = game.players) (hdemo : game'.demo = game.demo) :
    Quiet s (s.setGame gameId game') := by
  apply quiet_setGame
  · intro dpid
    rw [hplayers, registered_of_game hgame]
  · rw [hdemo, demo_of_game hgame]

theorem quiet_onGameInfo (user : UserContext) (msg : GameInfoMessage) : Quiet s (s.onGameInfo user msg) :=
  quiet_setGame (fun dpid => players_gameAt user.gameId dpid) (demo_gameAt user.gameId)

theorem quiet_onUnitData (user : UserContext) (unitData : Bytes) : Quiet s (s.onUnitData user unitData) := by
  obtain h | ⟨game, hgame, h⟩ := onUnitData_cases s user unitData
  · rw [h]
    exact .refl s
  · rw [h]
    exact quiet_entry _ hgame rfl rfl

theorem quiet_onGamePlayer (user : UserContext) (msg : GamePlayerMessage) : Quiet s (s.onGamePlayer user msg) := by
  obtain h | ⟨game, socket, hgame, -, h⟩ := onGamePlayer_cases s user msg
  · rw [h]
    exact .refl s
  · rw [h]
    obtain ⟨h1, h2, -, -, h5, h6⟩ := quiet_entry game.alive hgame rfl rfl
    refine ⟨h1, h2, ?_, ?_, h5, h6⟩
    · intro c
      simp only [setUser, setGame_contexts, Function.update_apply]
      split
      · rename_i hc
        rw [hc]
        rfl
      · rfl
    · intro c
      simp only [setUser, setGame_contexts, Function.update_apply]
      split
      · rename_i hc
        rw [hc]
      · rfl

theorem quiet_onMove {user : UserContext} {moves : Bytes} {clock : Clock}
    (h : s.registered user.identity = none ∨ s.demo user.gameId = none ∨
      ¬ TADemoWriter.Fits (movePacket user.gamePlayerNumber moves clock).serialise) :
    Quiet s (s.onMove user moves clock) := by
  obtain hsame | ⟨game, hgame, hplayer, hset | ⟨output, hout, hfits, -⟩⟩ := onMove_cases s user clock moves
  · rw [hsame]
    exact .refl s
  · rw [hset]
    exact quiet_entry _ hgame rfl rfl
  · exfalso
    rcases h with hnone | hnone | hlong
    · have hreg : s.registered user.identity = game.players[user.playerDpId]? := registered_of_game hgame _
      rw [hreg, ← Table.contains_eq_false] at hnone
      rw [hnone] at hplayer
      cases hplayer
    · rw [demo_of_game hgame, GameContext.demo, hout] at hnone
      cases hnone
    · exact hlong hfits

/-! ### Numbers -/

theorem position_of_mem {lockedIn : List ℕ} {dpid : ℕ} (h : dpid ∈ lockedIn) :
    position lockedIn dpid = lockedIn.idxOf dpid + 1 := if_pos h

theorem position_of_notMem {lockedIn : List ℕ} {dpid : ℕ} (h : dpid ∉ lockedIn) :
    position lockedIn dpid = 0 := if_neg h

theorem position_le (lockedIn : List ℕ) (dpid : ℕ) : position lockedIn dpid ≤ lockedIn.length := by
  by_cases h : dpid ∈ lockedIn
  · rw [position_of_mem h]
    exact List.idxOf_lt_length_of_mem h
  · rw [position_of_notMem h]
    exact Nat.zero_le _

section numbers

variable {players : Table ℕ} {lockedIn : List ℕ} {socket : ℕ}

theorem assignNumbers_some {dpid : ℕ} (h : players[dpid]? = some socket) (n : ℕ) (rest : List ℕ)
    (contexts : ℕ → UserContext) :
    assignNumbers players n (dpid :: rest) contexts = assignNumbers players (n + 1) rest
      (Function.update contexts socket ((contexts socket).setNumber (n + 1))) := by
  rw [assignNumbers, h]

theorem assignNumbers_none {dpid : ℕ} (h : players[dpid]? = none) (n : ℕ) (rest : List ℕ)
    (contexts : ℕ → UserContext) :
    assignNumbers players n (dpid :: rest) contexts = assignNumbers players (n + 1) rest contexts := by
  rw [assignNumbers, h]

theorem assignNumbers_same (players : Table ℕ) (lockedIn : List ℕ) (n : ℕ) (contexts : ℕ → UserContext)
    (c : ℕ) :
    ∃ number, assignNumbers players n lockedIn contexts c = (contexts c).setNumber number := by
  induction lockedIn generalizing n contexts with
  | nil => exact ⟨_, rfl⟩
  | cons dpid rest ih =>
    cases hsocket : players[dpid]? with
    | none =>
      rw [assignNumbers_none hsocket]
      exact ih (n + 1) contexts
    | some socket =>
      rw [assignNumbers_some hsocket]
      obtain ⟨number, hnumber⟩ := ih (n + 1)
        (Function.update contexts socket ((contexts socket).setNumber (n + 1)))
      refine ⟨number, hnumber.trans ?_⟩
      by_cases hc : c = socket
      · rw [hc, Function.update_self]
        rfl
      · rw [Function.update_of_ne hc]

theorem assignNumbers_other (n : ℕ) (contexts : ℕ → UserContext)
    (h : ∀ dpid ∈ lockedIn, players[dpid]? ≠ some socket) :
    assignNumbers players n lockedIn contexts socket = contexts socket := by
  induction lockedIn generalizing n contexts with
  | nil => rfl
  | cons dpid rest ih =>
    have hrest : ∀ d ∈ rest, players[d]? ≠ some socket := fun d hd => h d (List.mem_cons_of_mem _ hd)
    cases hsocket : players[dpid]? with
    | none => rw [assignNumbers_none hsocket, ih _ _ hrest]
    | some socket' =>
      have hne : socket ≠ socket' := by
        intro heq
        obtain rfl := heq
        exact h dpid List.mem_cons_self hsocket
      rw [assignNumbers_some hsocket, ih _ _ hrest, Function.update_of_ne hne]

theorem assignNumbers_mem {dpid : ℕ} (n : ℕ) (contexts : ℕ → UserContext) (hnodup : lockedIn.Nodup)
    (hmem : dpid ∈ lockedIn) (hsocket : players[dpid]? = some socket)
    (honly : ∀ d ∈ lockedIn, players[d]? = some socket → d = dpid) :
    assignNumbers players n lockedIn contexts socket =
      (contexts socket).setNumber (n + lockedIn.idxOf dpid + 1) := by
  induction lockedIn generalizing n contexts with
  | nil => cases hmem
  | cons d rest ih =>
    rw [List.nodup_cons] at hnodup
    by_cases hd : d = dpid
    · subst hd
      have hrest : ∀ d' ∈ rest, players[d']? ≠ some socket := by
        intro d' hd' hbad
        exact hnodup.1 (honly d' (List.mem_cons_of_mem _ hd') hbad ▸ hd')
      rw [assignNumbers_some hsocket, List.idxOf_cons_self, assignNumbers_other _ _ hrest,
        Function.update_self, Nat.add_zero]
    · have hmem : dpid ∈ rest := by
        rcases List.mem_cons.mp hmem with h | h
        · exact absurd h.symm hd
        · exact h
      have honly' : ∀ d' ∈ rest, players[d']? = some socket → d' = dpid := fun d' hd' =>
        honly d' (List.mem_cons_of_mem _ hd')
      have hidx : n + (d :: rest).idxOf dpid = n + 1 + rest.idxOf dpid := by
        rw [List.idxOf_cons_ne _ hd]
        omega
      rw [hidx]
      cases hd' : players[d]? with
      | none => rw [assignNumbers_none hd', ih _ _ hnodup.2 hmem honly']
      | some socket' =>
        have hsock : socket ≠ socket' := by
          intro heq
          obtain rfl := heq
          exact hd (honly d List.mem_cons_self hd')
        rw [assignNumbers_some hd', ih _ _ hnodup.2 hmem honly', Function.update_of_ne hsock]

end numbers

end Gpgnet4TA.Tareplay.TaDemoCompiler
